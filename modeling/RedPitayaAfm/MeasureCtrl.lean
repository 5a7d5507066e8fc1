/-
**The measurement controller of the FPGA.**

`measure_ctrl` plays a signal from the shared memory on the DAC, averages the ADC into the same
memory, and tells the processor when both are done.  Each module of the source is a record of its
registers and a function that gives them after the next clock edge.  Counters are natural numbers
that wrap at their width; the data path is made of bit vectors.

Main definitions:

* `Afm.Fpga.Decimator`, `Afm.Fpga.Averager` — generation and acquisition;
* `Afm.Fpga.Thresholds`, `Afm.Fpga.Fsm` — the pipeline of thresholds, and the state machine;
* `Afm.Fpga.MeasureCtrl` — the controller.

Main results:

* `Afm.Fpga.Settings.tick_tick` — the thresholds settle in two edges, and nothing is truncated;
* `Afm.Fpga.Settings.fsmAt_tick` — the state machine of a measurement, cycle by cycle;
* `Afm.Fpga.Settings.decimatorAt_tick`, `Afm.Fpga.Averager.Counts.tick` — what generation and
  acquisition do while they are enabled.
-/

import RedPitayaAfm.Clocked

set_option relaxedAutoImplicit false
set_option autoImplicit false

namespace Afm

namespace Fpga

open Clocked

/-- A 14-bit code of the ADC or the DAC. -/
abbrev Code := BitVec 14

/-- A 17-bit word of the shared memory. -/
abbrev Word := BitVec 17

/-- `decimation_value - 1`, computed in 32 bits: the last count of a decimation period. -/
def lastCount (decimation : ℕ) : ℕ := (decimation + (2 ^ 32 - 1)) % 2 ^ 32

/-! ### `decimator` -/

/-- The registers of `decimator`. -/
@[ext]
structure Decimator where
  count : ℕ := 0
  bramAddr : ℕ := 0
  bramEn : Bool := false
  value : Code := 0
  genOut : Code := 0
  bramReadActiveQ : Bool := false
  deriving DecidableEq

/-- One clock edge of `decimator`. -/
def Decimator.tick (x : Decimator) (enabled : Bool) (decimation : ℕ) (bramOut : Code) :
    Decimator :=
  if enabled then
    { count := if x.count = lastCount decimation then 0 else (x.count + 1) % 2 ^ 11
      bramAddr := if x.count = lastCount decimation then (x.bramAddr + 1) % 2 ^ 16 else x.bramAddr
      bramEn := x.count == 0
      value := if x.bramReadActiveQ then bramOut else x.value
      genOut := if x.bramReadActiveQ then bramOut else x.value
      bramReadActiveQ := x.bramEn }
  else {}

/-! ### `averager` -/

/-- The registers of `averager`. -/
@[ext]
structure Averager where
  sampleCount : ℕ := 0
  currentAccumulator : BitVec 24 := 0
  addrCounter : ℕ := 0
  bramAddr : ℕ := 0
  bramIn : Word := 0
  bramWe : Bool := false
  averagedSampleCount : ℕ := 0
  deriving DecidableEq

/-- The position of the highest set bit of 11. -/
def floorLog2 (val : ℕ) : ℕ := ((List.range 11).reverse.find? val.testBit).getD 0

/-- `PREC_BIT` -/
def precBit : ℕ := 3

/-- `shift_amount` -/
def shiftAmount (decimation : ℕ) : ℕ :=
  let log2Dec := floorLog2 decimation
  let precGained := if log2Dec / 2 > precBit then precBit else log2Dec / 2
  log2Dec - precGained

/-- One clock edge of `averager` with `ADDR_WIDTH = w`. -/
def Averager.tickWidth (w : ℕ) (x : Averager) (enabled : Bool) (decimation : ℕ) (adcData : Code) :
    Averager :=
  if enabled then
    if x.sampleCount = lastCount decimation then
      -- The assignments of this branch come last, so the addition to the accumulator is lost.
      { sampleCount := 0
        currentAccumulator := 0
        addrCounter := (x.addrCounter + 1) % 2 ^ w
        bramAddr := x.addrCounter
        bramIn := (x.currentAccumulator.sshiftRight (shiftAmount decimation)).setWidth 17
        bramWe := true
        averagedSampleCount := (x.averagedSampleCount + 1) % 2 ^ w }
    else
      { x with
        sampleCount := (x.sampleCount + 1) % 2 ^ 32
        currentAccumulator := x.currentAccumulator + adcData.signExtend 24
        bramWe := false }
  else {}

/-- One clock edge of the `averager` of `measure_ctrl`, with 16 address bits. -/
def Averager.tick (x : Averager) (enabled : Bool) (decimation : ℕ) (adcData : Code) : Averager :=
  x.tickWidth 16 enabled decimation adcData

/-! ### `measure_ctrl` -/

/-- `PROPAGATION_DELAY` -/
def propagationDelay : ℕ := 4

/-- `GEN_START_OFFSET` -/
def genStartOffset : ℕ := propagationDelay - 2

/-- `ACQ_START_OFFSET` -/
def acqStartOffset : ℕ := propagationDelay - 1

/-- `delay_eff` -/
def delayEff (delay : ℕ) : ℕ := if delay = 0 then 1 else delay

/-- The pre-computed measurement thresholds. -/
@[ext]
structure Thresholds where
  prodSig : ℕ := 0
  prodDly : ℕ := 0
  thrAcqStart : ℕ := 0
  thrGenEnd : ℕ := 0
  thrMeasEnd : ℕ := 0
  deriving DecidableEq

/-- One clock edge of the two stages: the products, and the sums of the products before. -/
def Thresholds.tick (x : Thresholds) (sigSize delay decimation : ℕ) : Thresholds where
  prodSig := (sigSize % 2 ^ 18 * decimation) % 2 ^ 32
  prodDly := (delayEff delay % 2 ^ 18 * decimation) % 2 ^ 32
  thrAcqStart := (x.prodDly + (propagationDelay - acqStartOffset)) % 2 ^ 32
  thrGenEnd := (x.prodSig + (propagationDelay - genStartOffset)) % 2 ^ 32
  thrMeasEnd := (x.prodSig + x.prodDly + propagationDelay) % 2 ^ 32

/-- `state_t` -/
inductive FsmState
  | idle
  | running
  | finished
  deriving DecidableEq

/-- The registers of the state machine. -/
@[ext]
structure Fsm where
  state : FsmState := .idle
  internalCount : ℕ := 0
  delayCounter : ℕ := 0
  endMeasure : Bool := false
  acqEnabled : Bool := false
  genEnabled : Bool := false
  deriving DecidableEq

/-- One clock edge of the state machine. -/
def Fsm.tick (x : Fsm) (thr : Thresholds) (startMeasure : Bool) (delay : ℕ) : Fsm :=
  match x.state with
  | .idle => { state := if startMeasure then .running else .idle }
  | .running =>
      { state := if thr.thrMeasEnd ≤ x.internalCount then .finished else .running
        internalCount := (x.internalCount + 1) % 2 ^ 32
        delayCounter :=
          if x.acqEnabled then x.delayCounter
          else if x.delayCounter < thr.thrAcqStart then (x.delayCounter + 1) % 2 ^ 32
          else delayEff delay - 1
        endMeasure := if thr.thrMeasEnd ≤ x.internalCount then true else x.endMeasure
        acqEnabled :=
          if thr.thrMeasEnd ≤ x.internalCount then false
          else x.acqEnabled || !decide (x.delayCounter < thr.thrAcqStart)
        genEnabled :=
          !decide (thr.thrGenEnd ≤ x.internalCount) && !decide (thr.thrMeasEnd ≤ x.internalCount) }
  | .finished =>
      { state := if startMeasure then .finished else .idle
        endMeasure := startMeasure }

/-- `measure_ctrl` and the two modules in it. -/
structure MeasureCtrl where
  thr : Thresholds := {}
  fsm : Fsm := {}
  decimator : Decimator := {}
  averager : Averager := {}
  deriving DecidableEq

/-- `busy_o` -/
def MeasureCtrl.busy (x : MeasureCtrl) : Bool := x.fsm.state == .running

/-- One clock edge of `measure_ctrl`. -/
def MeasureCtrl.tick (x : MeasureCtrl) (startMeasure : Bool) (sigSize delay decimation : ℕ)
    (adcData bramOut : Code) : MeasureCtrl where
  thr := x.thr.tick sigSize delay decimation
  fsm := x.fsm.tick x.thr startMeasure delay
  decimator := x.decimator.tick x.fsm.genEnabled decimation bramOut
  averager := x.averager.tick x.fsm.acqEnabled decimation (if x.fsm.acqEnabled then adcData else 0)

/-! ### Valid settings -/

/-- `HardwareLimits::isValidDecimation` -/
def isValidDecimation (decimation : ℕ) : Bool :=
  16 ≤ decimation && decimation ≤ 1024 && decimation &&& (decimation - 1) == 0

/-- `HardwareLimits::MAX_SAMPLES` -/
def maxSamples : ℕ := 65536

/-- `HardwareLimits::MAX_DELAY_SAMPLES` -/
def maxDelaySamples : ℕ := 2 ^ 18 - 1

theorem le_of_isValidDecimation {decimation : ℕ} (h : isValidDecimation decimation = true) :
    16 ≤ decimation ∧ decimation ≤ 1024 := by
  simp only [isValidDecimation, Bool.and_eq_true, decide_eq_true_eq] at h
  exact h.1

theorem ne_zero_of_isValidDecimation {decimation : ℕ} (h : isValidDecimation decimation = true) :
    decimation ≠ 0 := by
  have hrange := le_of_isValidDecimation h
  omega

theorem lastCount_of_valid {decimation : ℕ} (h : isValidDecimation decimation = true) :
    lastCount decimation = decimation - 1 := by
  have hrange := le_of_isValidDecimation h
  have hsum : decimation + (2 ^ 32 - 1) = decimation - 1 + 2 ^ 32 := by omega
  rw [lastCount, hsum, Nat.add_mod_right, Nat.mod_eq_of_lt (by omega)]

/-- The settings of a measurement: samples, decimation and delay are in range. -/
structure Settings where
  numSamples : ℕ
  decimation : ℕ
  delay : ℕ
  pos : 0 < numSamples
  le_maxSamples : numSamples ≤ maxSamples
  validDecimation : isValidDecimation decimation = true
  delay_pos : 0 < delay
  le_maxDelay : delay ≤ maxDelaySamples

namespace Settings

variable (m : Settings)

theorem decimation_ge : 16 ≤ m.decimation := (le_of_isValidDecimation m.validDecimation).1

theorem decimation_le : m.decimation ≤ 1024 := (le_of_isValidDecimation m.validDecimation).2

/-- Cycles of generation. -/
def genCycles : ℕ := m.numSamples * m.decimation

/-- Cycles between the start of generation and the start of acquisition, less one. -/
def delayCycles : ℕ := m.delay * m.decimation

/-- The last cycle of `RUNNING`, counted from its first. -/
def lastCycle : ℕ := m.genCycles + m.delayCycles + propagationDelay

theorem genCycles_le : m.genCycles ≤ 2 ^ 26 := by
  exact (Nat.mul_le_mul m.le_maxSamples m.decimation_le).trans (by decide)

theorem delayCycles_le : m.delayCycles ≤ 2 ^ 28 := by
  have hdelay : m.delay ≤ 2 ^ 18 := m.le_maxDelay.trans (by decide)
  exact (Nat.mul_le_mul hdelay m.decimation_le).trans (by decide)

theorem decimation_le_genCycles : m.decimation ≤ m.genCycles :=
  Nat.le_mul_of_pos_left _ m.pos

theorem decimation_le_delayCycles : m.decimation ≤ m.delayCycles :=
  Nat.le_mul_of_pos_left _ m.delay_pos

theorem lastCycle_lt : m.lastCycle < 2 ^ 32 := by
  have hgen := m.genCycles_le
  have hdelay := m.delayCycles_le
  unfold lastCycle propagationDelay
  omega

/-- The thresholds of the settings, without truncation. -/
def thresholds : Thresholds where
  prodSig := m.genCycles
  prodDly := m.delayCycles
  thrAcqStart := m.delayCycles + 1
  thrGenEnd := m.genCycles + 2
  thrMeasEnd := m.lastCycle

/-- The first stage of the pipeline computes the products exactly. -/
theorem prod_tick (x : Thresholds) :
    (x.tick m.numSamples m.delay m.decimation).prodSig = m.genCycles ∧
      (x.tick m.numSamples m.delay m.decimation).prodDly = m.delayCycles := by
  have hgen := m.genCycles_le
  have hdelay := m.delayCycles_le
  have hpos := m.delay_pos
  have hN : m.numSamples % 2 ^ 18 = m.numSamples :=
    Nat.mod_eq_of_lt (lt_of_le_of_lt m.le_maxSamples (by decide))
  have hd : delayEff m.delay % 2 ^ 18 = m.delay := by
    rw [delayEff, if_neg (by omega)]
    exact Nat.mod_eq_of_lt (lt_of_le_of_lt m.le_maxDelay (by decide))
  constructor
  · simp only [Thresholds.tick, hN]
    exact Nat.mod_eq_of_lt (lt_of_le_of_lt hgen (by decide))
  · simp only [Thresholds.tick, hd]
    exact Nat.mod_eq_of_lt (lt_of_le_of_lt hdelay (by decide))

/-- The second stage adds the offsets exactly. -/
theorem tick_of_prod {x : Thresholds} (hsig : x.prodSig = m.genCycles)
    (hdly : x.prodDly = m.delayCycles) :
    x.tick m.numSamples m.delay m.decimation = m.thresholds := by
  obtain ⟨hsig', hdly'⟩ := m.prod_tick x
  have hlast := m.lastCycle_lt
  unfold lastCycle propagationDelay at hlast
  rw [thresholds, Thresholds.mk.injEq]
  refine ⟨hsig', hdly', ?_, ?_, ?_⟩
  · show (x.prodDly + 1) % 2 ^ 32 = m.delayCycles + 1
    rw [hdly]
    exact Nat.mod_eq_of_lt (by omega)
  · show (x.prodSig + 2) % 2 ^ 32 = m.genCycles + 2
    rw [hsig]
    exact Nat.mod_eq_of_lt (by omega)
  · show (x.prodSig + x.prodDly + 4) % 2 ^ 32 = m.genCycles + m.delayCycles + 4
    rw [hsig, hdly]
    exact Nat.mod_eq_of_lt (by omega)

/-- **The thresholds settle in two clock edges**, whatever the pipeline held before, and nothing is
truncated. -/
theorem tick_tick (x : Thresholds) :
    (x.tick m.numSamples m.delay m.decimation).tick m.numSamples m.delay m.decimation
      = m.thresholds :=
  m.tick_of_prod (m.prod_tick x).1 (m.prod_tick x).2

/-- Settled thresholds stay. -/
theorem thresholds_tick :
    m.thresholds.tick m.numSamples m.delay m.decimation = m.thresholds :=
  m.tick_of_prod rfl rfl

theorem lastCount_decimation : lastCount m.decimation = m.decimation - 1 :=
  lastCount_of_valid m.validDecimation

end Settings

/-! ### A measurement, cycle by cycle -/

namespace Settings

variable (m : Settings)

/-- The state machine in cycle `n` of `RUNNING`. -/
def fsmAt (n : ℕ) : Fsm where
  state := .running
  internalCount := n
  delayCounter := if n ≤ m.delayCycles + 1 then n else m.delay - 1
  endMeasure := false
  acqEnabled := decide (m.delayCycles + 2 ≤ n)
  genEnabled := decide (1 ≤ n ∧ n ≤ m.genCycles + 2)

/-- The state machine in the first cycle of `FINISHED`. -/
def fsmEnd : Fsm where
  state := .finished
  internalCount := m.lastCycle + 1
  delayCounter := m.delay - 1
  endMeasure := true
  acqEnabled := false
  genEnabled := false

/-- One cycle of `RUNNING` before the last. -/
theorem fsmAt_tick {n : ℕ} (hn : n < m.lastCycle) (start : Bool) :
    (m.fsmAt n).tick m.thresholds start m.delay = m.fsmAt (n + 1) := by
  have hlast := m.lastCycle_lt
  have hpos := m.delay_pos
  have hrun : ¬m.lastCycle ≤ n := by omega
  have hwrap : (n + 1) % 2 ^ 32 = n + 1 := Nat.mod_eq_of_lt (by omega)
  refine Fsm.ext (if_neg hrun) hwrap ?_ (if_neg hrun) ?_ ?_
  · -- the delay counter stands still from the cycle after the one that enables acquisition
    show (if decide (m.delayCycles + 2 ≤ n) = true then (if n ≤ m.delayCycles + 1 then n else _)
      else if (if n ≤ m.delayCycles + 1 then n else m.delay - 1) < m.delayCycles + 1 then
        ((if n ≤ m.delayCycles + 1 then n else m.delay - 1) + 1) % 2 ^ 32
      else delayEff m.delay - 1) = if n + 1 ≤ m.delayCycles + 1 then n + 1 else m.delay - 1
    simp only [decide_eq_true_eq]
    rcases Nat.lt_trichotomy n (m.delayCycles + 1) with h | h | h
    · have hle : n ≤ m.delayCycles + 1 := by omega
      rw [if_neg (by omega), if_pos hle, if_pos h, if_pos (by omega), hwrap]
    · have hle : n ≤ m.delayCycles + 1 := by omega
      rw [if_neg (by omega), if_pos hle, if_neg (by omega), if_neg (by omega), delayEff,
        if_neg (by omega)]
    · rw [if_pos (by omega), if_neg (by omega), if_neg (by omega)]
  · show (if m.lastCycle ≤ n then false else decide (m.delayCycles + 2 ≤ n)
      || !decide ((fsmAt m n).delayCounter < m.delayCycles + 1)) = decide _
    rw [if_neg hrun]
    by_cases hle : n ≤ m.delayCycles + 1
    · have hcount : (fsmAt m n).delayCounter = n := if_pos hle
      rw [hcount, Bool.eq_iff_iff]
      simp only [Bool.or_eq_true, decide_eq_true_eq, Bool.not_eq_true', decide_eq_false_iff_not]
      omega
    · have hdone : m.delayCycles + 2 ≤ n := by omega
      rw [decide_eq_true hdone, Bool.true_or, decide_eq_true (by omega)]
  · show (!decide (m.genCycles + 2 ≤ n) && !decide (m.lastCycle ≤ n)) = decide _
    rw [Bool.eq_iff_iff]
    simp only [hrun, decide_false, Bool.not_false, Bool.and_true, Bool.not_eq_true',
      decide_eq_false_iff_not, decide_eq_true_eq]
    omega

/-- The last cycle of `RUNNING`. -/
theorem fsmAt_lastCycle_tick (start : Bool) :
    (m.fsmAt m.lastCycle).tick m.thresholds start m.delay = m.fsmEnd := by
  have hlast := m.lastCycle_lt
  have hgen := m.decimation_le_genCycles
  have hge := m.decimation_ge
  have hafter : m.delayCycles + 2 ≤ m.lastCycle := by
    unfold lastCycle propagationDelay
    omega
  have hlt : m.lastCycle + 1 < 2 ^ 32 := by
    have hsig := m.genCycles_le
    have hdly := m.delayCycles_le
    unfold lastCycle propagationDelay
    omega
  have hnot : ¬m.lastCycle ≤ m.delayCycles + 1 := by omega
  refine Fsm.ext (if_pos le_rfl) (Nat.mod_eq_of_lt hlt) ?_ (if_pos le_rfl) (if_pos le_rfl) ?_
  · show (if decide (m.delayCycles + 2 ≤ m.lastCycle) = true then
        (if m.lastCycle ≤ m.delayCycles + 1 then m.lastCycle else m.delay - 1) else _) = _
    rw [if_pos (decide_eq_true hafter), if_neg hnot]
    rfl
  · show (_ && !decide (m.lastCycle ≤ m.lastCycle)) = false
    simp

/-- The decimator after `e` enabled cycles, when word `k` of the memory is `w k`. -/
def decimatorAt (w : ℕ → Code) (e : ℕ) : Decimator where
  count := e % m.decimation
  bramAddr := e / m.decimation % 2 ^ 16
  bramEn := decide (1 ≤ e ∧ (e - 1) % m.decimation = 0)
  value := if e < 3 then 0 else w ((e - 3) / m.decimation)
  genOut := if e < 3 then 0 else w ((e - 3) / m.decimation)
  bramReadActiveQ := decide (2 ≤ e ∧ (e - 2) % m.decimation = 0)

@[simp] theorem decimatorAt_zero (w : ℕ → Code) : m.decimatorAt w 0 = {} := by
  simp [decimatorAt]

/-- One enabled cycle of the decimator.  The memory answers a read in the cycle after it. -/
theorem decimatorAt_tick {w : ℕ → Code} {e : ℕ} {bramOut : Code}
    (hread : 2 ≤ e → (e - 2) % m.decimation = 0 → bramOut = w ((e - 2) / m.decimation)) :
    (m.decimatorAt w e).tick true m.decimation bramOut = m.decimatorAt w (e + 1) := by
  have hge := m.decimation_ge
  have hle := m.decimation_le
  have hpos : 0 < m.decimation := by omega
  have hlt := Nat.mod_lt e hpos
  have hvalue : (if 2 ≤ e ∧ (e - 2) % m.decimation = 0 then bramOut
      else if e < 3 then 0 else w ((e - 3) / m.decimation))
      = if e + 1 < 3 then 0 else w ((e + 1 - 3) / m.decimation) := by
    by_cases hactive : 2 ≤ e ∧ (e - 2) % m.decimation = 0
    · rw [if_pos hactive, if_neg (by omega), hread hactive.1 hactive.2]
      rfl
    · rw [if_neg hactive]
      by_cases he : e < 2
      · rw [if_pos (by omega), if_pos (by omega)]
      · -- the first read answers in cycle 2, and no period begins between two reads
        have hne : e ≠ 2 := by
          rintro rfl
          simp at hactive
        have hstep : e - 2 = e - 3 + 1 := by omega
        have hmod : (e - 2) % m.decimation ≠ 0 := fun h => hactive ⟨by omega, h⟩
        have hdiv : (e - 2) / m.decimation = (e - 3) / m.decimation := by
          rw [hstep, succ_div hpos, if_neg]
          intro hwrap
          rw [hstep, succ_mod hpos, if_pos hwrap] at hmod
          exact hmod rfl
        rw [if_neg (by omega), if_neg (by omega), ← hdiv]
        rfl
  unfold Decimator.tick
  rw [if_pos rfl, m.lastCount_decimation, decimatorAt, decimatorAt, Decimator.mk.injEq]
  simp only [decide_eq_true_eq, hvalue, true_and]
  refine ⟨?_, ?_, ?_, ?_⟩
  · rw [succ_mod hpos]
    split
    · rfl
    · exact Nat.mod_eq_of_lt (by omega)
  · rw [succ_div hpos]
    split
    · rw [Nat.mod_add_mod]
    · rfl
  · rw [Bool.eq_iff_iff]
    simp
  · rw [decide_eq_decide, Nat.add_sub_add_right e 1 1]
    omega

end Settings

/-- The counters of an averager with `w` address bits after `e` enabled cycles: it writes word `k`
after period `k`. -/
structure Averager.Counts (w : ℕ) (x : Averager) (decimation e : ℕ) : Prop where
  sampleCount : x.sampleCount = e % decimation
  addrCounter : x.addrCounter = e / decimation % 2 ^ w
  bramWe : x.bramWe = decide (0 < e ∧ e % decimation = 0)
  bramAddr : x.bramWe = true → x.bramAddr = (e / decimation - 1) % 2 ^ w

theorem Averager.counts_zero (w decimation : ℕ) : Averager.Counts w {} decimation 0 :=
  ⟨by simp, by simp, by simp, by simp⟩

/-- One enabled cycle of the averager. -/
theorem Averager.Counts.tick {w : ℕ} {x : Averager} {decimation e : ℕ}
    (hvalid : isValidDecimation decimation = true) (h : x.Counts w decimation e) (adcData : Code) :
    (x.tickWidth w true decimation adcData).Counts w decimation (e + 1) := by
  have hrange := le_of_isValidDecimation hvalid
  have hpos : 0 < decimation := by omega
  have hlt := Nat.mod_lt e hpos
  unfold Averager.tickWidth
  rw [if_pos rfl, lastCount_of_valid hvalid, h.sampleCount]
  -- the last code of a window ends it, and only then the address moves
  by_cases hlast : e % decimation = decimation - 1
  · have hmod : (e + 1) % decimation = 0 := by rw [succ_mod hpos, if_pos hlast]
    have hdiv : (e + 1) / decimation = e / decimation + 1 := by rw [succ_div hpos, if_pos hlast]
    rw [if_pos hlast]
    refine ⟨hmod.symm, ?_, ?_, fun _ => ?_⟩
    · show (x.addrCounter + 1) % 2 ^ w = _
      rw [h.addrCounter, hdiv, Nat.mod_add_mod]
    · simp [hmod]
    · show x.addrCounter = _
      rw [h.addrCounter, hdiv, Nat.add_sub_cancel]
  · have hmod : (e + 1) % decimation = e % decimation + 1 := by
      rw [succ_mod hpos, if_neg hlast]
    have hdiv : (e + 1) / decimation = e / decimation := by rw [succ_div hpos, if_neg hlast]
    rw [if_neg hlast]
    refine ⟨?_, ?_, ?_, fun hwe => ?_⟩
    · rw [hmod]
      exact Nat.mod_eq_of_lt (by omega)
    · rw [hdiv]
      exact h.addrCounter
    · simp [hmod]
    · cases hwe

end Fpga

end Afm
