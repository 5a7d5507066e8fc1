/-
**The interface between processor and FPGA, and the whole FPGA.**

The processor sees a register bank and a window on the shared memory.  Port A of the memory feeds
the DAC.  Port B belongs to the acquisition while a measurement runs, and to the processor
otherwise.

Main definitions:

* `Afm.Fpga.MeasureReg`, `Afm.Fpga.Bram`, `Afm.Fpga.Bus` — registers, memory and system bus;
* `Afm.Fpga.System`, `Afm.Fpga.System.tick` — the modules connected as in `red_pitaya_top`.

Main results:

* `Afm.Fpga.Reachable.rested` — a reachable controller rests between measurements;
* `Afm.Fpga.Rested.tick` — the step of that invariant.
-/

import RedPitayaAfm.MeasureCtrl

set_option relaxedAutoImplicit false
set_option autoImplicit false

namespace Afm

namespace Fpga

open Clocked

/-! ### `measure_reg` -/

/-- Register indices. -/
def regStartMeasure : ℕ := 2

/-- `REG_DELAY` -/
def regDelay : ℕ := 3

/-- `REG_SIG_SIZE` -/
def regSigSize : ℕ := 4

/-- `REG_END_MEASURE` -/
def regEndMeasure : ℕ := 5

/-- `REG_COUNT_MEASURE` -/
def regCountMeasure : ℕ := 6

/-- `REG_VERSION` -/
def regVersion : ℕ := 7

/-- `REG_DECIMATION` -/
def regDecimation : ℕ := 8

/-- `REG_STATUS` -/
def regStatus : ℕ := 9

/-- The registers of `measure_reg`. -/
structure MeasureReg where
  startMeasure : Bool := false
  sigSize : ℕ := 0
  delay : ℕ := 0
  decimation : ℕ := 64
  psAccessDeniedD1 : Bool := false
  deriving DecidableEq

/-- One clock edge of `measure_reg`. -/
def MeasureReg.tick (x : MeasureReg) (addr : ℕ) (wdata : BitVec 32) (wen psAccessDenied : Bool) :
    MeasureReg where
  startMeasure := if wen ∧ addr = regStartMeasure then wdata.getLsbD 0 else x.startMeasure
  sigSize := if wen ∧ addr = regSigSize then wdata.toNat else x.sigSize
  delay := if wen ∧ addr = regDelay then wdata.toNat else x.delay
  decimation := if wen ∧ addr = regDecimation then wdata.toNat % 2 ^ 11 else x.decimation
  psAccessDeniedD1 :=
    if psAccessDenied then true
    else if wen ∧ addr = regStatus then false
    else x.psAccessDeniedD1

/-- What the processor reads from a register. -/
def MeasureReg.rdata (x : MeasureReg) (addr : ℕ) (endMeasure : Bool) (countMeasure : ℕ)
    (busy : Bool) : BitVec 32 :=
  if addr = regStartMeasure then .ofNat 32 x.startMeasure.toNat
  else if addr = regDelay then .ofNat 32 x.delay
  else if addr = regSigSize then .ofNat 32 x.sigSize
  else if addr = regEndMeasure then .ofNat 32 endMeasure.toNat
  else if addr = regCountMeasure then .ofNat 32 countMeasure
  else if addr = regVersion then 0x15062026
  else if addr = regDecimation then .ofNat 32 x.decimation
  else if addr = regStatus then .ofNat 32 (2 * x.psAccessDeniedD1.toNat + busy.toNat)
  else 0

/-! ### `bram_custom` -/

/-- The shared memory and the output registers of its two ports. -/
structure Bram where
  mem : ℕ → Word
  doutA : Word := 0
  doutB : Word := 0

/-- One clock edge of `bram_custom`; nothing writes through port A.  Both ports read what the
memory held before the edge. -/
def Bram.tick (x : Bram) (enA : Bool) (addrA : ℕ) (enB weB : Bool) (addrB : ℕ) (dinB : Word) :
    Bram where
  mem := if enB ∧ weB then Function.update x.mem addrB dinB else x.mem
  doutA := if enA then x.mem addrA else 0
  doutB := if enB then x.mem addrB else 0

/-! ### `ps_pl_interface_wrapper` -/

/-- The signals of the system bus in one cycle. -/
structure Bus where
  addr : BitVec 32 := 0
  wdata : BitVec 32 := 0
  wen : Bool := false
  ren : Bool := false
  deriving DecidableEq

/-- `BRAM_SHARED_ADDR` -/
def bramSharedAddr : ℕ := 0x40600000

/-- `REG_BASE_ADDR` -/
def regBaseAddr : ℕ := 0x40640000

/-- The zone of an address: its 14 high bits, which `REG_ADDR_MASK` selects. -/
def zone (addr : ℕ) : ℕ := addr / 2 ^ 18

namespace Bus

variable (b : Bus)

/-- `sel_reg` -/
def selReg : Bool := zone b.addr.toNat == zone regBaseAddr

/-- `sel_shared_bram` -/
def selSharedBram : Bool := zone b.addr.toNat == zone bramSharedAddr

/-- `reg_addr` -/
def regAddr : ℕ := b.addr.toNat / 4 % 16

/-- `bram_addr_ps` -/
def bramAddrPs : ℕ := b.addr.toNat / 4 % 2 ^ 16

/-- `reg_wen` -/
def regWen : Bool := b.selReg && b.wen

/-- `bram_ps_req` -/
def bramPsReq : Bool := b.selSharedBram && (b.wen || b.ren)

/-- The processor writes a register, the one with this index. -/
def writesReg (index : ℕ) : Prop := b.regWen = true ∧ b.regAddr = index

instance (index : ℕ) : Decidable (b.writesReg index) := by
  unfold writesReg
  infer_instance

/-- The processor writes the shared memory. -/
def writesBram : Bool := b.selSharedBram && b.wen

end Bus

/-- The processor writes a register. -/
def Bus.regWrite (index value : ℕ) : Bus where
  addr := .ofNat 32 (regBaseAddr + 4 * index)
  wdata := .ofNat 32 value
  wen := true

/-- The registers of the wrapper: they delay a read by a cycle. -/
structure BusReply where
  sysRenD1 : Bool := false
  selRegD1 : Bool := false
  selSharedBramD1 : Bool := false
  bramPsDeniedRdD1 : Bool := false
  sysRdata : BitVec 32 := 0
  sysErr : Bool := false
  sysAck : Bool := false
  deriving DecidableEq

/-! ### The whole FPGA -/

/-- What comes from outside in one cycle: the system bus and the ADC. -/
structure Input where
  bus : Bus := {}
  adcData : Code := 0
  deriving DecidableEq

/-- The registers and the memory of the design. -/
structure System where
  reg : MeasureReg := {}
  ctrl : MeasureCtrl := {}
  bram : Bram
  reply : BusReply := {}

namespace System

/-- `busy_i` -/
def busy (s : System) : Bool := s.ctrl.busy

/-- `bram_out`: generation takes the low 14 bits of a word. -/
def bramOut (s : System) : Code := s.bram.doutA.setWidth 14

/-- `gen_out` -/
def genOut (s : System) : Code := s.ctrl.decimator.genOut

/-- What the processor would read from a register in this cycle. -/
def regRdata (s : System) (b : Bus) : BitVec 32 :=
  s.reg.rdata b.regAddr s.ctrl.fsm.endMeasure s.ctrl.averager.averagedSampleCount s.busy

/-- The memory after a clock edge: port B is arbitrated by `busy`. -/
def bramTick (s : System) (b : Bus) : Bram :=
  let averager := s.ctrl.averager
  s.bram.tick s.ctrl.decimator.bramEn s.ctrl.decimator.bramAddr
    (if s.busy then averager.bramWe else b.bramPsReq)
    (if s.busy then averager.bramWe else b.writesBram)
    (if s.busy then averager.bramAddr else b.bramAddrPs)
    (if s.busy then averager.bramIn else b.wdata.setWidth 17)

/-- The answer to the processor after a clock edge. -/
def replyTick (s : System) (b : Bus) : BusReply where
  sysRenD1 := b.ren
  selRegD1 := b.selReg
  selSharedBramD1 := b.selSharedBram
  bramPsDeniedRdD1 := b.selSharedBram && b.ren && s.busy
  sysRdata :=
    if s.reply.sysRenD1 then
      if s.reply.selRegD1 then s.regRdata b
      else if s.reply.selSharedBramD1 then
        if s.reply.bramPsDeniedRdD1 then 0 else s.bram.doutB.setWidth 32
      else 0
    else if !b.wen && !b.ren then 0
    else s.reply.sysRdata
  sysErr := (b.selSharedBram && b.wen && s.busy) || s.reply.bramPsDeniedRdD1
  sysAck := b.wen || s.reply.sysRenD1

/-- One clock edge. -/
def tick (s : System) (i : Input) : System where
  reg := s.reg.tick i.bus.regAddr i.bus.wdata i.bus.regWen (i.bus.bramPsReq && s.busy)
  ctrl := s.ctrl.tick s.reg.startMeasure s.reg.sigSize s.reg.delay s.reg.decimation i.adcData
    s.bramOut
  bram := s.bramTick i.bus
  reply := s.replyTick i.bus

/-- The state after reset: the memory is not initialised. -/
def IsReset (s : System) : Prop :=
  s.reg = {} ∧ s.ctrl = {} ∧ s.bram.doutA = 0 ∧ s.bram.doutB = 0 ∧ s.reply = {}

end System

/-! ### Idle states -/

/-- What holds between measurements: outside `RUNNING` both paths are switched off, and once the
controller is idle they are at rest. -/
structure Rested (s : System) : Prop where
  gen : s.busy = false → s.ctrl.fsm.genEnabled = false
  acq : s.busy = false → s.ctrl.fsm.acqEnabled = false
  idle : s.ctrl.fsm.state = .idle → s.ctrl.fsm = {} ∧ s.ctrl.decimator = {} ∧ s.ctrl.averager = {}

theorem busy_eq_false {s : System} (h : s.ctrl.fsm.state ≠ .running) : s.busy = false := by
  simpa [System.busy, MeasureCtrl.busy] using h

theorem busy_eq_true {s : System} (h : s.ctrl.fsm.state = .running) : s.busy = true := by
  simpa [System.busy, MeasureCtrl.busy] using h

/-- A controller that is idle or finished rests after the next edge if it is idle then. -/
theorem Rested.tick {s : System} (h : Rested s) (i : Input) : Rested (s.tick i) := by
  have hfsm : (s.tick i).ctrl.fsm = s.ctrl.fsm.tick s.ctrl.thr s.reg.startMeasure s.reg.delay := rfl
  have hdec : s.ctrl.fsm.genEnabled = false → (s.tick i).ctrl.decimator = {} := by
    intro hgen
    show s.ctrl.decimator.tick s.ctrl.fsm.genEnabled _ _ = {}
    rw [hgen]
    rfl
  have havg : s.ctrl.fsm.acqEnabled = false → (s.tick i).ctrl.averager = {} := by
    intro hacq
    show s.ctrl.averager.tick s.ctrl.fsm.acqEnabled _ _ = {}
    rw [hacq]
    rfl
  cases hstate : s.ctrl.fsm.state with
  | idle =>
      have hbusy := busy_eq_false (s := s) (by simp [hstate])
      have hnext : (s.tick i).ctrl.fsm
          = { state := if s.reg.startMeasure then .running else .idle } := by
        rw [hfsm, Fsm.tick, hstate]
      refine ⟨fun _ => by rw [hnext], fun _ => by rw [hnext], fun hidle => ⟨?_, ?_, ?_⟩⟩
      · rw [hnext] at hidle ⊢
        simp only at hidle
        rw [hidle]
      · exact hdec (h.gen hbusy)
      · exact havg (h.acq hbusy)
  | running =>
      have hnext : (s.tick i).ctrl.fsm = s.ctrl.fsm.tick s.ctrl.thr s.reg.startMeasure s.reg.delay :=
        hfsm
      rw [Fsm.tick, hstate] at hnext
      -- `RUNNING` is left only when the cycle counter has reached its end
      have hend : (s.tick i).busy = false → s.ctrl.thr.thrMeasEnd ≤ s.ctrl.fsm.internalCount := by
        intro hb
        by_contra hlt
        have hrun : (s.tick i).ctrl.fsm.state = .running := by
          rw [hnext]
          exact if_neg hlt
        simp [busy_eq_true hrun] at hb
      refine ⟨fun hb => ?_, fun hb => ?_, fun hidle => ?_⟩
      · rw [hnext]
        simp [hend hb]
      · rw [hnext]
        simp [hend hb]
      · rw [hnext] at hidle
        simp only at hidle
        split at hidle <;> cases hidle
  | finished =>
      have hbusy := busy_eq_false (s := s) (by simp [hstate])
      have hnext : (s.tick i).ctrl.fsm
          = { state := if s.reg.startMeasure then .finished else .idle,
              endMeasure := s.reg.startMeasure } := by
        rw [hfsm, Fsm.tick, hstate]
      refine ⟨fun _ => by rw [hnext], fun _ => by rw [hnext], fun hidle => ⟨?_, ?_, ?_⟩⟩
      · rw [hnext] at hidle ⊢
        cases hstart : s.reg.startMeasure with
        | true => simp [hstart] at hidle
        | false => rfl
      · exact hdec (h.gen hbusy)
      · exact havg (h.acq hbusy)

/-- The states the design can reach after reset, whatever the processor and the ADC do. -/
abbrev Reachable (s : System) : Prop := Clocked.Reachable System.IsReset System.tick s

/-- **A reachable controller rests between measurements.** -/
theorem Reachable.rested {s : System} (h : Reachable s) : Rested s := by
  refine Clocked.Reachable.invariant ?_ (fun s i hs => hs.tick i) h
  rintro s ⟨-, hctrl, -⟩
  exact ⟨fun _ => by rw [hctrl], fun _ => by rw [hctrl], fun _ => by rw [hctrl]; simp⟩

end Fpga

end Afm
