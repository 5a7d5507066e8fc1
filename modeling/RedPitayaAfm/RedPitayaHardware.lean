/-
**The driver of the FPGA.**

`RedPitayaHardware` maps the registers and the shared memory of the FPGA and reads and writes them
through pointers.  Its model is a program over these accesses and the system calls that map the
windows.  The accesses are those of the system bus: the FPGA runs on meanwhile, and any number of
clock cycles lies between two of them.

Main definitions:

* `Afm.MemoryCall`, `Afm.memory` — the accesses and the system calls;
* `Afm.RedPitayaHardware` — the fields of the driver, with the methods of the interface;
* `Afm.systemBus` — the FPGA as an environment of the driver.

Main results:

* `Afm.RedPitayaHardware.keepsOff_method` — no method but `startMeasurement` raises `START`;
* `Afm.RedPitayaHardware.startMeasurement_starts`,
  `Afm.RedPitayaHardware.isMeasurementComplete_acquired`,
  `Afm.RedPitayaHardware.getAcquiredSignal_reads` — what the others do to a measurement.
-/

import RedPitayaAfm.BusAccess
import RedPitayaAfm.DacCodec
import RedPitayaAfm.HandlerState

set_option relaxedAutoImplicit false
set_option autoImplicit false

namespace Afm

open Effect Fpga Clocked

open Act (Confined)

/-! ### Accesses -/

/-- What the driver does outside of itself.  Registers and words of the memory are accessed through
the mapped pointers. -/
inductive MemoryCall
  /-- `open("/dev/mem")`: the descriptor, negative on failure. -/
  | openMem
  /-- `mmap` of the register page: whether it succeeded. -/
  | mapRegs
  /-- `mmap` of the shared memory: whether it succeeded. -/
  | mapBram
  | unmapRegs
  | unmapBram
  | closeMem
  | readReg (index : ℕ)
  | writeReg (index value : ℕ)
  | readBram (i : ℕ)
  | writeBram (i : ℕ) (value : BitVec 32)
  deriving DecidableEq

/-- The memory of the processor. -/
abbrev memory : Interface where
  Call := MemoryCall
  Reply
    | .openMem => ℤ
    | .mapRegs => Bool
    | .mapBram => Bool
    | .readReg _ => BitVec 32
    | .readBram _ => BitVec 32
    | _ => Unit

/-! ### The driver -/

/-- `DEFAULT_DECIMATION` -/
def defaultDecimation : ℕ := 64

/-- The fields of `RedPitayaHardware`.  Of the two pointers only whether they are set is known. -/
structure RedPitayaHardware where
  memFd : ℤ := -1
  decimation : ℕ := defaultDecimation
  regs : Bool := false
  bram : Bool := false
  deriving DecidableEq

namespace RedPitayaHardware

/-- A method of the driver; none throws. -/
abbrev Method (α : Type) := Act memory RedPitayaHardware Empty α

/-- `HardwareLimits::isValidSampleCount` -/
def isValidSampleCount (numSamples : ℕ) : Bool := numSamples ≤ maxSamples

/-- `HardwareLimits::isValidDelaySamples` -/
def isValidDelaySamples (delaySamples : ℕ) : Bool := delaySamples ≤ maxDelaySamples

/-- `STATUS_BUSY_BIT` -/
def statusBusyBit : BitVec 32 := 0x01

/-- `STATUS_PS_ACCESS_DENIED_BIT` -/
def statusPsAccessDeniedBit : BitVec 32 := 0x02

/-- The version of the correct bitfile. -/
def bitfileVersion : BitVec 32 := 0x15062026

/-- `_isMapped` -/
def isMapped (h : RedPitayaHardware) : Bool := h.regs && h.bram

/-- `m_regs[index]`, read. -/
def readReg (index : ℕ) : Method (BitVec 32) := Act.call (I := memory) (.readReg index)

/-- `m_regs[index]`, written. -/
def writeReg (index value : ℕ) : Method Unit := Act.call (I := memory) (.writeReg index value)

/-- What needs the windows, and what is returned without them. -/
def ifMapped {α : Type} (body : Method α) (otherwise : α) : Method α := do
  let h ← Act.get
  if h.isMapped then body else pure otherwise

/-- `_readVersion` -/
def readVersion : Method (BitVec 32) := ifMapped (readReg regVersion) 0

/-- `_readStatus` -/
def readStatus : Method (BitVec 32) := do
  let h ← Act.get
  if h.regs then readReg regStatus else pure 0

/-- `_clearStatus` -/
def clearStatus : Method Bool :=
  ifMapped (do writeReg regStatus 1; pure true) false

/-- `resetMeasurement` -/
def resetMeasurement : Method Bool :=
  ifMapped (do writeReg regStartMeasure 0; pure true) false

/-- `_mapWindows` -/
def mapWindows : Method Bool := do
  let regs : Bool ← Act.call (I := memory) .mapRegs
  if regs then do
    Act.modify fun h => { h with regs := true }
    let bram : Bool ← Act.call (I := memory) .mapBram
    if bram then do
      Act.modify fun h => { h with bram := true }
      pure true
    else pure false
  else pure false

/-- The part of `_unmapWindows` for the registers. -/
def unmapRegs : Method Unit := do
  let h ← Act.get
  if h.regs then do
    Act.call (I := memory) .unmapRegs
    Act.modify fun h => { h with regs := false }

/-- The part of `_unmapWindows` for the memory. -/
def unmapBram : Method Unit := do
  let h ← Act.get
  if h.bram then do
    Act.call (I := memory) .unmapBram
    Act.modify fun h => { h with bram := false }

/-- `_unmapWindows` -/
def unmapWindows : Method Unit := do
  unmapRegs
  unmapBram

/-- The part of `cleanup` for the descriptor. -/
def closeMem : Method Unit := do
  let h ← Act.get
  if 0 ≤ h.memFd then do
    Act.call (I := memory) .closeMem
    Act.modify fun h => { h with memFd := -1 }

/-- `cleanup`, and the destructor. -/
def cleanup : Method Unit := do
  ifMapped (do let _ ← resetMeasurement; pure ()) ()
  unmapWindows
  closeMem

/-- `setDecimation` -/
def setDecimation (decimation : ℕ) : Method Bool :=
  if isValidDecimation decimation then
    ifMapped (do
      writeReg regDecimation decimation
      Act.modify fun h => { h with decimation := decimation }
      pure true) false
  else pure false

/-- `getDecimation` -/
def getDecimation : Method ℕ := do
  let h ← Act.get
  pure h.decimation

/-- The rest of `initialize`, with the windows mapped. -/
def resetToKnownState : Method Bool := do
  let _ ← clearStatus
  let _ ← resetMeasurement
  let _ ← setDecimation defaultDecimation
  pure true

/-- `initialize` -/
def initializeHardware : Method Bool := do
  let h ← Act.get
  if 0 ≤ h.memFd then pure false
  else do
    let memFd : ℤ ← Act.call (I := memory) .openMem
    Act.modify fun h => { h with memFd := memFd }
    if memFd < 0 then pure false
    else if ← mapWindows then do
      if (← readVersion) ≠ bitfileVersion then do
        -- the version is read again for the message
        let _ ← readVersion
        cleanup
        pure false
      else resetToKnownState
    else do
      cleanup
      pure false

/-- The loop of `loadGenerationSignal`, from word `i` on. -/
def writeSamples : ℕ → List ℚ → Method Unit
  | _, [] => pure ()
  | i, voltage :: signal => do
      Act.call (I := memory) (.writeBram i (DacCodec.bramWord voltage))
      writeSamples (i + 1) signal

/-- A transfer of samples: it must not begin while a measurement runs, and no access may have been
denied when it is over. -/
def transfer {α : Type} (body : Method α) : Method (Option α) := do
  let status ← readStatus
  if status &&& statusBusyBit ≠ 0 then pure none
  else do
    let _ ← clearStatus
    let a ← body
    let status ← readStatus
    if status &&& statusPsAccessDeniedBit ≠ 0 then pure none else pure (some a)

/-- `loadGenerationSignal` -/
def loadGenerationSignal (signal : List ℚ) : Method Bool :=
  if isValidSampleCount signal.length then
    ifMapped (do
      let done ← transfer (writeSamples 0 signal)
      pure done.isSome) false
  else pure false

/-- `startMeasurement` -/
def startMeasurement (numSamples delaySamples : ℕ) : Method Bool :=
  if isValidSampleCount numSamples && isValidDelaySamples delaySamples then
    ifMapped (do
      let status ← readStatus
      if status &&& statusBusyBit ≠ 0 then pure false
      else do
        let effectiveDelay := if delaySamples = 0 then 1 else delaySamples
        writeReg regSigSize numSamples
        writeReg regDelay effectiveDelay
        writeReg regStartMeasure 1
        pure true) false
  else pure false

/-- `isMeasurementComplete` -/
def isMeasurementComplete : Method Bool :=
  ifMapped (do
    let value ← readReg regEndMeasure
    pure (value == 1)) false

/-- The loop of `getAcquiredSignal` over the first words. -/
def readSamples (decimation : ℕ) : (size : ℕ) → Method (Fin size → ℚ)
  | 0 => pure Fin.elim0
  | size + 1 => do
      let signal ← readSamples decimation size
      let word : BitVec 32 ← Act.call (I := memory) (.readBram size)
      pure (Fin.snoc signal (DacCodec.adcToVoltage word decimation))

/-- `getAcquiredSignal` -/
def getAcquiredSignal (size : ℕ) : Method (Option (Fin size → ℚ)) :=
  if isValidSampleCount size then
    ifMapped (do
      let h ← Act.get
      transfer (readSamples h.decimation size)) none
  else pure none

/-- The method behind each method of the interface. -/
def method : (c : HardwareCall) → Method c.Result
  | .initializeHardware => initializeHardware
  | .loadGenerationSignal signal => loadGenerationSignal signal
  | .setDecimation decimation => setDecimation decimation
  | .getDecimation => getDecimation
  | .startMeasurement numSamples delaySamples => startMeasurement numSamples delaySamples
  | .isMeasurementComplete => isMeasurementComplete
  | .getAcquiredSignal size => getAcquiredSignal size

end RedPitayaHardware

/-! ### The FPGA behind the bus -/

/-- What the bus may do: an access takes its cycles on the trace of the FPGA, and a system call
takes any number of cycles without one. -/
def BusStep (x : ℕ → System) (inp : ℕ → Input) (t : ℕ) :
    (c : MemoryCall) → memory.Reply c → ℕ → Prop
  | .readReg index, value, t' =>
      ∃ u, Access x inp t (.regRead index) u t' ∧ value = (x u).reply.sysRdata
  | .writeReg index value, _, t' => ∃ u, Access x inp t (.regWrite index value) u t'
  | .readBram i, value, t' =>
      ∃ u, Access x inp t (.bramRead i) u t' ∧ value = (x u).reply.sysRdata
  | .writeBram i value, _, t' => ∃ u, Access x inp t (.bramWrite i value) u t'
  | _, _, t' => t ≤ t' ∧ Silent inp t t'

/-- The FPGA as an environment of the driver, on the trace `x` that the inputs `inp` give.  What is
left of the environment is the time. -/
abbrev systemBus (x : ℕ → System) (inp : ℕ → Input) : World memory := ⟨ℕ, BusStep x inp⟩

/-! ### Methods that leave `START` low -/

section Low

variable {x : ℕ → System} {inp : ℕ → Input} {t t' t₀ : ℕ}

/-- Accesses that leave `START` low and the decimation as it is. -/
def KeepsLow : MemoryCall → Prop
  | .readReg index => index < 16
  | .writeReg index value =>
      index = regStatus ∨ index = regSigSize ∨ index = regDelay ∨
        index = regStartMeasure ∧ value = 0
  | .readBram i => i < maxSamples
  | .writeBram i _ => i < maxSamples
  | _ => True

theorem low_of_access (hx : Follows System.tick x inp) {b : Bus} {u : ℕ}
    (h : Access x inp t b u t') (hlow : Low x t₀ t)
    (hstart : ((x t).reg.after b).startMeasure = false)
    (hdec : ((x t).reg.after b).decimation = (x t).reg.decimation) :
    Low x t₀ t' ∧ (x t').reg.decimation = (x t).reg.decimation := by
  have hlt := h.lt
  have hgap := h.gap
  refine ⟨h.low hx hlow hstart ?_, (h.settings hx (by omega) le_rfl).decimation.trans hdec⟩
  rw [hdec]
  exact hlow.decimation

theorem low_of_access_no_write (hx : Follows System.tick x inp) {b : Bus} {u : ℕ}
    (h : Access x inp t b u t') (hlow : Low x t₀ t) (hb : b.regWen = false) :
    Low x t₀ t' ∧ (x t').reg.decimation = (x t).reg.decimation := by
  have hsame := sameSettings_after (x t).reg hb
  exact low_of_access hx h hlow (hsame.startMeasure.trans hlow.now) hsame.decimation

theorem BusStep.low (hx : Follows System.tick x inp) {c : MemoryCall} (hc : KeepsLow c)
    (hlow : Low x t₀ t) {r : memory.Reply c} (h : BusStep x inp t c r t') :
    Low x t₀ t' ∧ (x t').reg.decimation = (x t).reg.decimation := by
  cases c with
  | readReg index =>
      obtain ⟨u, hacc, -⟩ := h
      exact low_of_access_no_write hx hacc hlow (Bus.atReg_regRead hc).regWen
  | writeReg index value =>
      obtain ⟨u, hacc⟩ := h
      have hnow := hlow.now
      have hindex : index < 16 := by
        rcases hc with rfl | rfl | rfl | ⟨rfl, -⟩ <;> decide
      have hafter := (x t).reg.after_regWrite hindex value
      refine low_of_access hx hacc hlow ?_ ?_
      · rw [hafter]
        rcases hc with rfl | rfl | rfl | ⟨rfl, rfl⟩ <;>
          simp [MeasureReg.tick, regStatus, regSigSize, regDelay, regStartMeasure, hnow]
      · rw [hafter]
        rcases hc with rfl | rfl | rfl | ⟨rfl, rfl⟩ <;>
          simp [MeasureReg.tick, regStatus, regSigSize, regDelay, regStartMeasure, regDecimation]
  | readBram i =>
      obtain ⟨u, hacc, -⟩ := h
      exact low_of_access_no_write hx hacc hlow (Bus.atBram_bramRead hc).regWen
  | writeBram i value =>
      obtain ⟨u, hacc⟩ := h
      exact low_of_access_no_write hx hacc hlow (Bus.atBram_bramWrite hc value).regWen
  | openMem | mapRegs | mapBram | unmapRegs | unmapBram | closeMem =>
      obtain ⟨hle, hsilent⟩ := h
      exact ⟨hsilent.low hx hle hlow, (hsilent.settings hx hle le_rfl).decimation⟩

/-- A write of the decimation. -/
theorem BusStep.low_decimation (hx : Follows System.tick x inp) {decimation : ℕ}
    (hvalid : isValidDecimation decimation = true) (hlow : Low x t₀ t)
    (h : BusStep x inp t (.writeReg regDecimation decimation) () t') :
    Low x t₀ t' ∧ (x t').reg.decimation = decimation := by
  obtain ⟨u, hacc⟩ := h
  have hlt := hacc.lt
  have hgap := hacc.gap
  have hle := (le_of_isValidDecimation hvalid).2
  have hafter := (x t).reg.after_regWrite (show regDecimation < 16 by decide) decimation
  have hdec : ((x t).reg.after (.regWrite regDecimation decimation)).decimation = decimation := by
    rw [hafter]
    show (BitVec.ofNat 32 decimation).toNat % 2 ^ 11 = decimation
    rw [BitVec.toNat_ofNat, Nat.mod_eq_of_lt (by omega), Nat.mod_eq_of_lt (by omega)]
  refine ⟨hacc.low hx hlow ?_ ?_, ?_⟩
  · rw [hafter]
    simp [MeasureReg.tick, regDecimation, regStartMeasure, hlow.now]
  · rw [hdec]
    exact hvalid
  · exact (hacc.settings hx (by omega) le_rfl).decimation.trans hdec

namespace RedPitayaHardware

/-- `START` has been low since cycle `t₀`, and a driver with its windows mapped knows the
decimation. -/
structure Off (x : ℕ → System) (t₀ : ℕ) (h : RedPitayaHardware) (t : ℕ) : Prop
    extends Low x t₀ t where
  known : h.isMapped = true → h.decimation = (x t).reg.decimation

/-- Methods that leave `START` low. -/
abbrev KeepsOff {α : Type} (x : ℕ → System) (inp : ℕ → Input) (t₀ : ℕ) (m : Method α) : Prop :=
  Keeps (systemBus x inp) (Off x t₀) m

variable {α : Type}

theorem ifMapped_reads {C : MemoryCall → Prop} {body : Method α} {otherwise : α}
    (h : Confined C Eq body) : Confined C Eq (ifMapped body otherwise) :=
  Confined.bind Confined.get fun _ => Confined.ite h (Confined.pure _)

theorem readVersion_reads : Confined KeepsLow Eq readVersion :=
  ifMapped_reads (Confined.call (show regVersion < 16 by decide))

theorem readStatus_reads : Confined KeepsLow Eq readStatus :=
  Confined.bind Confined.get fun _ =>
    Confined.ite (Confined.call (show regStatus < 16 by decide)) (Confined.pure _)

theorem clearStatus_reads : Confined KeepsLow Eq clearStatus :=
  ifMapped_reads (Confined.bind (Confined.call (.inl rfl)) fun _ => Confined.pure _)

theorem resetMeasurement_reads : Confined KeepsLow Eq resetMeasurement :=
  ifMapped_reads (Confined.bind (Confined.call (.inr (.inr (.inr ⟨rfl, rfl⟩)))) fun _ =>
    Confined.pure _)

theorem isMeasurementComplete_reads : Confined KeepsLow Eq isMeasurementComplete :=
  ifMapped_reads (Confined.bind (Confined.call (show regEndMeasure < 16 by decide)) fun _ =>
    Confined.pure _)

theorem transfer_reads {body : Method α} (h : Confined KeepsLow Eq body) :
    Confined KeepsLow Eq (transfer body) := by
  refine Confined.bind readStatus_reads fun status => Confined.ite (Confined.pure _) ?_
  refine Confined.bind clearStatus_reads fun _ => Confined.bind h fun a => ?_
  exact Confined.bind readStatus_reads fun _ => Confined.ite (Confined.pure _) (Confined.pure _)

theorem writeSamples_reads {signal : List ℚ} {i : ℕ} (h : i + signal.length ≤ maxSamples) :
    Confined KeepsLow Eq (writeSamples i signal) := by
  induction signal generalizing i with
  | nil => exact Confined.pure _
  | cons voltage signal ih =>
      rw [List.length_cons] at h
      have hi : KeepsLow (.writeBram i (DacCodec.bramWord voltage)) := show i < maxSamples by omega
      exact Confined.bind (Confined.call hi) fun _ => ih (by omega)

theorem readSamples_reads (decimation : ℕ) {size : ℕ} (h : size ≤ maxSamples) :
    Confined KeepsLow Eq (readSamples decimation size) := by
  induction size with
  | zero => exact Confined.pure _
  | succ size ih =>
      have hi : KeepsLow (.readBram size) := show size < maxSamples by omega
      exact Confined.bind (ih (by omega)) fun _ =>
        Confined.bind (Confined.call hi) fun _ => Confined.pure _

/-- What the accesses of a method keep, the method keeps. -/
theorem keepsOff_of_reads (hx : Follows System.tick x inp) {m : Method α}
    (hm : Confined KeepsLow Eq m) : KeepsOff x inp t₀ m := by
  refine Keeps.of_reads hm fun hc hoff hstep => ?_
  obtain ⟨hlow, hdec⟩ := BusStep.low hx hc hoff.toLow hstep
  exact ⟨hlow, fun hmapped => (hoff.known hmapped).trans hdec.symm⟩

theorem keepsOff_loadGenerationSignal (hx : Follows System.tick x inp) (signal : List ℚ) :
    KeepsOff x inp t₀ (loadGenerationSignal signal) := by
  refine Keeps.ite (fun hsize => keepsOff_of_reads hx (ifMapped_reads ?_)) fun _ => Keeps.pure _
  have hle : 0 + signal.length ≤ maxSamples := by
    rw [Nat.zero_add]
    exact of_decide_eq_true hsize
  exact Confined.bind (transfer_reads (writeSamples_reads hle)) fun _ => Confined.pure _

theorem keepsOff_getAcquiredSignal (hx : Follows System.tick x inp) (size : ℕ) :
    KeepsOff x inp t₀ (getAcquiredSignal size) := by
  refine Keeps.ite (fun hsize => keepsOff_of_reads hx (ifMapped_reads ?_)) fun _ => Keeps.pure _
  have hle : size ≤ maxSamples := of_decide_eq_true hsize
  exact Confined.bind Confined.get fun h => transfer_reads (readSamples_reads _ hle)

/-- A valid decimation is written to the FPGA and kept by the driver, so the two agree even if they
did not before. -/
theorem setDecimation_off (hx : Follows System.tick x inp) {decimation : ℕ}
    (hvalid : isValidDecimation decimation = true) :
    Triple (systemBus x inp) (fun _ => Low x t₀) (setDecimation decimation)
      fun _ => Off x t₀ := by
  unfold setDecimation
  rw [if_pos hvalid]
  refine Triple.read fun v => Triple.ite (fun hmapped => ?_) fun hmapped => ?_
  · refine Triple.bind (Q := fun r _ t => Low x t₀ t ∧ (x t).reg.decimation = decimation) ?_ ?_ ?_
    · refine Triple.call fun h t hlow r t' hstep => ?_
      exact BusStep.low_decimation hx hvalid hlow.2 hstep
    · refine fun _ => Triple.bind (Q := fun _ => Off x t₀) (Triple.modify fun h t hlow => ?_)
        (fun _ => Triple.pure fun _ _ hoff => hoff) fun e => e.elim
      exact ⟨hlow.1, fun _ => hlow.2.symm⟩
    · exact fun e => e.elim
  · refine Triple.pure ?_
    rintro h t ⟨rfl, hlow⟩
    exact ⟨hlow, fun h' => absurd h' hmapped⟩

theorem keepsOff_setDecimation (hx : Follows System.tick x inp) (decimation : ℕ) :
    KeepsOff x inp t₀ (setDecimation decimation) := by
  by_cases hvalid : isValidDecimation decimation = true
  · exact (setDecimation_off hx hvalid).conseq (fun _ _ hoff => hoff.toLow) fun _ _ _ hoff => hoff
  · unfold setDecimation
    rw [if_neg hvalid]
    exact Keeps.pure _

/-- Methods that leave `START` low, whatever the driver knows. -/
abbrev StaysLow {α : Type} (x : ℕ → System) (inp : ℕ → Input) (t₀ : ℕ) (m : Method α) : Prop :=
  Keeps (systemBus x inp) (fun _ => Low x t₀) m

theorem staysLow_of_only (hx : Follows System.tick x inp) {m : Method α}
    (hm : Act.Only KeepsLow m) : StaysLow x inp t₀ m :=
  Keeps.of_only hm fun hc hlow hstep => (BusStep.low hx hc hlow hstep).1

theorem only_mapWindows : Act.Only KeepsLow mapWindows := by
  refine Act.Only.bind (Act.Only.call trivial) fun regs => Act.Only.ite ?_ (Act.Only.pure _)
  refine Act.Only.bind (Act.Only.modify _) fun _ => ?_
  refine Act.Only.bind (Act.Only.call trivial) fun bram => Act.Only.ite ?_ (Act.Only.pure _)
  exact Act.Only.bind (Act.Only.modify _) fun _ => Act.Only.pure _

theorem only_cleanup : Act.Only KeepsLow cleanup := by
  have hreset : Confined KeepsLow Eq (ifMapped (do let _ ← resetMeasurement; pure ()) ()) :=
    ifMapped_reads (Confined.bind resetMeasurement_reads fun _ => Confined.pure _)
  refine Act.Only.bind hreset.only fun _ => Act.Only.bind (Act.Only.bind ?_ fun _ => ?_) fun _ => ?_
  · exact Act.Only.bind Act.Only.get fun _ => Act.Only.ite
      (Act.Only.bind (Act.Only.call trivial) fun _ => Act.Only.modify _) (Act.Only.pure _)
  · exact Act.Only.bind Act.Only.get fun _ => Act.Only.ite
      (Act.Only.bind (Act.Only.call trivial) fun _ => Act.Only.modify _) (Act.Only.pure _)
  · exact Act.Only.bind Act.Only.get fun _ => Act.Only.ite
      (Act.Only.bind (Act.Only.call trivial) fun _ => Act.Only.modify _) (Act.Only.pure _)

/-- A clean-up ends with both windows unmapped. -/
theorem cleanup_unmaps {W : World memory} :
    Triple W (fun _ _ => True) cleanup fun _ h _ => h.isMapped = false := by
  have hregs : Triple W (fun _ _ => True) unmapRegs fun _ h _ => h.regs = false := by
    refine Triple.read fun v => Triple.ite (fun _ => ?_) fun hno => Triple.pure ?_
    · exact Triple.bind (Q := fun _ _ _ => True) (Triple.call fun _ _ _ _ _ _ => trivial)
        (fun _ => Triple.modify fun _ _ _ => rfl) fun e => e.elim
    · rintro h w ⟨rfl, -⟩
      simpa using hno
  have hbram : Triple W (fun h _ => h.regs = false) unmapBram fun _ h _ => h.regs = false := by
    refine Keeps.bind Keeps.get fun v => Keeps.ite (fun _ => ?_) fun _ => Keeps.pure _
    exact Keeps.bind (Keeps.call fun _ _ _ _ h _ => h) fun _ => Keeps.modify fun _ _ h => h
  have hclose : Triple W (fun h _ => h.regs = false) closeMem fun _ h _ => h.isMapped = false := by
    refine Triple.conseq (P := fun h _ => h.regs = false) (Q := fun _ h _ => h.regs = false) ?_
      (fun _ _ h => h) fun _ h _ hno => by simp [isMapped, hno]
    refine Keeps.bind Keeps.get fun v => Keeps.ite (fun _ => ?_) fun _ => Keeps.pure _
    exact Keeps.bind (Keeps.call fun _ _ _ _ h _ => h) fun _ => Keeps.modify fun _ _ h => h
  refine Triple.bind (Q := fun _ _ _ => True) (fun _ _ _ _ _ _ _ => trivial) (fun _ => ?_)
    fun e => e.elim
  refine Triple.bind (Q := fun _ h _ => h.regs = false) ?_ (fun _ => hclose) fun e => e.elim
  exact Triple.bind hregs (fun _ => hbram) fun e => e.elim

theorem cleanup_off (hx : Follows System.tick x inp) :
    Triple (systemBus x inp) (fun _ => Low x t₀) cleanup fun _ => Off x t₀ := by
  intro h t hlow r h' t' hrun
  have hunmapped := cleanup_unmaps h t trivial r h' t' hrun
  refine ⟨staysLow_of_only hx only_cleanup h t hlow r h' t' hrun, fun hmapped => ?_⟩
  rw [hunmapped] at hmapped
  cases hmapped

theorem resetToKnownState_off (hx : Follows System.tick x inp) :
    Triple (systemBus x inp) (fun _ => Low x t₀) resetToKnownState fun _ => Off x t₀ := by
  refine Triple.bind (staysLow_of_only hx clearStatus_reads.only) (fun _ => ?_) fun e => e.elim
  refine Triple.bind (staysLow_of_only hx resetMeasurement_reads.only) (fun _ => ?_) fun e => e.elim
  exact Triple.bind (setDecimation_off hx (by decide)) (fun _ => Keeps.pure _) fun e => e.elim

theorem keepsOff_initializeHardware (hx : Follows System.tick x inp) :
    KeepsOff x inp t₀ initializeHardware := by
  have hclean : Triple (systemBus x inp) (fun _ => Low x t₀) (do cleanup; pure false)
      fun _ => Off x t₀ :=
    Triple.bind (cleanup_off hx) (fun _ => Keeps.pure _) fun e => e.elim
  refine Keeps.bind Keeps.get fun v => Keeps.ite (fun _ => Keeps.pure _) fun _ => ?_
  refine Keeps.bind (keepsOff_of_reads hx (Confined.call trivial)) fun memFd => ?_
  refine Keeps.bind (Keeps.modify fun _ _ hoff => ⟨hoff.toLow, hoff.known⟩) fun _ => ?_
  refine Keeps.ite (fun _ => Keeps.pure _) fun _ => ?_
  refine Triple.conseq (P := fun _ => Low x t₀) ?_ (fun _ _ hoff => hoff.toLow) fun _ _ _ h => h
  refine Triple.bind (staysLow_of_only hx only_mapWindows) (fun mapped => ?_) fun e => e.elim
  refine Triple.ite (fun _ => ?_) fun _ => hclean
  have hversion : StaysLow x inp t₀ readVersion := staysLow_of_only hx readVersion_reads.only
  refine Triple.bind hversion (fun version => ?_) fun e => e.elim
  refine Triple.ite (fun _ => ?_) fun _ => resetToKnownState_off hx
  exact Triple.bind hversion (fun _ => hclean) fun e => e.elim

/-- **No method but `startMeasurement` raises `START`.** -/
theorem keepsOff_method (hx : Follows System.tick x inp) {c : HardwareCall}
    (hc : ∀ numSamples delaySamples, c ≠ .startMeasurement numSamples delaySamples) :
    KeepsOff x inp t₀ (method c) := by
  cases c with
  | initializeHardware => exact keepsOff_initializeHardware hx
  | loadGenerationSignal signal => exact keepsOff_loadGenerationSignal hx signal
  | setDecimation decimation => exact keepsOff_setDecimation hx decimation
  | getDecimation => exact Keeps.bind Keeps.get fun _ => Keeps.pure _
  | startMeasurement numSamples delaySamples => exact absurd rfl (hc numSamples delaySamples)
  | isMeasurementComplete => exact keepsOff_of_reads hx isMeasurementComplete_reads
  | getAcquiredSignal size => exact keepsOff_getAcquiredSignal hx size

/-! ### A measurement through the driver -/

/-- What holds while a measurement may be under way: only mapped registers can have started it. -/
structure Scoped (x : ℕ → System) (h : RedPitayaHardware) (t : ℕ) : Prop extends Calm x t where
  known : h.isMapped = true → h.decimation = (x t).reg.decimation
  mapped : (x t).reg.startMeasure = true → h.isMapped = true

theorem Off.scoped {h : RedPitayaHardware} {t : ℕ} (hoff : Off x t₀ h t) : Scoped x h t where
  toCalm := hoff.toCalm
  known := hoff.known
  mapped hstart := by rw [hoff.now] at hstart; cases hstart

/-- **A reset lowers `START`**, whatever has happened before. -/
theorem resetMeasurement_lowers (hx : Follows System.tick x inp) :
    Triple (systemBus x inp) (Scoped x) resetMeasurement fun _ h t => Off x t h t := by
  refine Triple.read fun v => Triple.ite (fun _ => ?_) fun hmapped => Triple.pure ?_
  · refine Triple.bind (Q := fun _ h t => Off x t h t) ?_ (fun _ => Triple.pure fun _ _ h => h)
      fun e => e.elim
    refine Triple.call ?_
    rintro h t ⟨-, hscoped⟩ r t' ⟨u, hacc⟩
    have hlt := hacc.lt
    have hgap := hacc.gap
    have hset := hacc.settings hx (hlt.trans hgap) le_rfl
    have hafter := (x t).reg.after_regWrite (show regStartMeasure < 16 by decide) 0
    have hdec : (x t').reg.decimation = (x t).reg.decimation := by
      rw [hset.decimation, hafter]
      simp [MeasureReg.tick, regStartMeasure, regDecimation]
    have hstart : (x t').reg.startMeasure = false := by
      rw [hset.startMeasure, hafter]
      simp [MeasureReg.tick]
    have hcalm : Calm x t' := ⟨hacc.answered hx, hdec ▸ hscoped.decimation⟩
    exact ⟨hcalm.low hstart, fun hm => (hscoped.known hm).trans hdec.symm⟩
  · rintro h t ⟨rfl, hscoped⟩
    have hstart : (x t).reg.startMeasure = false := by
      by_contra hne
      exact hmapped (hscoped.mapped (by simpa using hne))
    exact ⟨hscoped.toCalm.low hstart, hscoped.known⟩

/-- The controller is ready to be started by a driver with its windows mapped. -/
structure Ready (x : ℕ → System) (t₀ : ℕ) (h : RedPitayaHardware) (t : ℕ) : Prop
    extends Off x t₀ h t where
  mapped : h.isMapped = true
  idle : (x t).ctrl.fsm.state = .idle

theorem and_statusBusyBit {denied busy : Bool}
    (h : BitVec.ofNat 32 (2 * denied.toNat + busy.toNat) &&& statusBusyBit = 0) : busy = false := by
  revert h
  cases denied <;> cases busy <;> decide

/-- A status that is not busy finds the controller idle. -/
theorem readStatus_ready (hx : Follows System.tick x inp) :
    Triple (systemBus x inp) (fun h t => Off x t₀ h t ∧ h.isMapped = true) readStatus
      fun r h t => Off x t₀ h t ∧ h.isMapped = true ∧
        ∀ status, r = .ok status → status &&& statusBusyBit = 0 → Ready x t₀ h t := by
  refine Triple.read fun v => Triple.ite (fun _ => Triple.call ?_) fun hno => Triple.pure ?_
  · rintro h t ⟨-, hoff, hmapped⟩ value t' hstep
    have hindex : KeepsLow (.readReg regStatus) := (by decide : regStatus < 16)
    obtain ⟨hlow, hdec⟩ := BusStep.low hx hindex hoff.toLow hstep
    have hoff' : Off x t₀ h t' := ⟨hlow, fun hm => (hoff.known hm).trans hdec.symm⟩
    refine ⟨hoff', hmapped, ?_⟩
    rintro status ⟨⟩ hstatus
    obtain ⟨u, hacc, hvalue⟩ := hstep
    obtain ⟨hu, hread⟩ := hacc.readReg hx (by decide) hoff.answered
    have hgap := hacc.gap
    rw [hvalue, hread] at hstatus
    have hbusy : (x (t + 1)).busy = false := and_statusBusyBit hstatus
    have hle := hoff.le
    refine ⟨hoff', hmapped, ?_⟩
    have hidle := idle_of_not_busy hx hbusy (hlow.start _ (by omega) (by omega))
    exact idle_until hx hidle t' (by omega)
      fun v hv hvt => hlow.start v (by omega) (by omega)
  · rintro h t ⟨rfl, hoff, hmapped⟩
    simp only [isMapped, Bool.and_eq_true] at hmapped
    exact absurd hmapped.1 hno

/-- The controller stays ready. -/
theorem Ready.write (hx : Follows System.tick x inp) {h : RedPitayaHardware} {t t' u : ℕ}
    {index value : ℕ} (hready : Ready x t₀ h t) (hc : KeepsLow (.writeReg index value))
    (hacc : Access x inp t (.regWrite index value) u t') : Ready x t₀ h t' := by
  have hlt := hacc.lt
  have hgap := hacc.gap
  obtain ⟨hlow, hdec⟩ := BusStep.low (r := ()) hx hc hready.toLow ⟨u, hacc⟩
  have hle := hready.le
  refine ⟨⟨hlow, fun hm => (hready.known hm).trans hdec.symm⟩, hready.mapped, ?_⟩
  exact idle_until hx hready.idle t' (by omega) fun v hv hvt => hlow.start v (by omega) (by omega)

/-- The settings a call of `startMeasurement` asks for. -/
def settingsOf (h : RedPitayaHardware) (numSamples delaySamples : ℕ)
    (hvalid : isValidDecimation h.decimation = true) (hpos : 0 < numSamples)
    (hsize : numSamples ≤ maxSamples) (hdelay : delaySamples ≤ maxDelaySamples) : Settings where
  numSamples := numSamples
  decimation := h.decimation
  delay := if delaySamples = 0 then 1 else delaySamples
  pos := hpos
  le_maxSamples := hsize
  validDecimation := hvalid
  delay_pos := by split <;> omega
  le_maxDelay := by
    split
    · decide
    · exact hdelay

/-- Measurement `m` was started in cycle `c` by a call of `startMeasurement` that began in cycle
`t₀` or later, and the windows of the driver are still mapped. -/
structure Measures (x : ℕ → System) (numSamples delaySamples t₀ : ℕ) (m : Settings) (c : ℕ)
    (h : RedPitayaHardware) (t : ℕ) : Prop where
  answered : (x t).answered
  mapped : h.isMapped = true
  numSamples_eq : m.numSamples = numSamples
  delay_eq : m.delay = if delaySamples = 0 then 1 else delaySamples
  decimation_eq : m.decimation = h.decimation
  le : t₀ ≤ c

/-- It may still run. -/
structure Running (x : ℕ → System) (inp : ℕ → Input) (numSamples delaySamples t₀ : ℕ)
    (m : Settings) (c : ℕ) (h : RedPitayaHardware) (t : ℕ) : Prop
    extends Measures x numSamples delaySamples t₀ m c h t where
  started : Started m x inp c t

/-- It has ended, and its words are in the memory. -/
structure Finished (x : ℕ → System) (numSamples delaySamples t₀ : ℕ) (m : Settings) (c : ℕ)
    (h : RedPitayaHardware) (t : ℕ) : Prop
    extends Measures x numSamples delaySamples t₀ m c h t where
  acquired : Acquired m x c t

/-- What a call of `startMeasurement` in cycle `t₀` leaves. -/
def StartOutcome (x : ℕ → System) (inp : ℕ → Input) (numSamples delaySamples t₀ : ℕ)
    (r : Except Empty Bool) (h : RedPitayaHardware) (t : ℕ) : Prop :=
  (r = .ok false ∧ Off x t₀ h t) ∨
    r = .ok true ∧ ∃ m c, Running x inp numSamples delaySamples t₀ m c h t

/-- The size is written while the controller stays ready. -/
theorem writeSigSize_ready (hx : Follows System.tick x inp) {numSamples : ℕ}
    (hsize : numSamples ≤ maxSamples) :
    Triple (systemBus x inp) (Ready x t₀) (writeReg regSigSize numSamples)
      fun _ h t => Ready x t₀ h t ∧ (x t).reg.sigSize = numSamples := by
  refine Triple.call ?_
  rintro h t hready r t' ⟨u, hacc⟩
  refine ⟨hready.write hx (.inr (.inl rfl)) hacc, ?_⟩
  rw [(hacc.settings hx (hacc.lt.trans hacc.gap) le_rfl).sigSize,
    MeasureReg.after_regWrite _ (by decide)]
  show (BitVec.ofNat 32 numSamples).toNat = numSamples
  unfold maxSamples at hsize
  rw [BitVec.toNat_ofNat, Nat.mod_eq_of_lt (by omega)]

/-- So is the delay. -/
theorem writeDelay_ready (hx : Follows System.tick x inp) {numSamples d : ℕ} (hd : d < 2 ^ 32) :
    Triple (systemBus x inp) (fun h t => Ready x t₀ h t ∧ (x t).reg.sigSize = numSamples)
      (writeReg regDelay d) fun _ h t => Ready x t₀ h t ∧ (x t).reg.sigSize = numSamples ∧
        (x t).reg.delay = d := by
  refine Triple.call ?_
  rintro h t ⟨hready, hsig⟩ r t' ⟨u, hacc⟩
  have hset := hacc.settings hx (hacc.lt.trans hacc.gap) le_rfl
  rw [MeasureReg.after_regWrite _ (by decide)] at hset
  refine ⟨hready.write hx (.inr (.inr (.inl rfl))) hacc, ?_, ?_⟩
  · rw [hset.sigSize]
    simp [MeasureReg.tick, regDelay, regSigSize, hsig]
  · rw [hset.delay]
    show (BitVec.ofNat 32 d).toNat = d
    rw [BitVec.toNat_ofNat, Nat.mod_eq_of_lt hd]

/-- Then the controller is started. -/
theorem writeStart_runs (hx : Follows System.tick x inp) {numSamples delaySamples : ℕ}
    (hpos : 0 < numSamples) (hsize : numSamples ≤ maxSamples)
    (hdelay : delaySamples ≤ maxDelaySamples) :
    Triple (systemBus x inp) (fun h t => Ready x t₀ h t ∧ (x t).reg.sigSize = numSamples ∧
        (x t).reg.delay = if delaySamples = 0 then 1 else delaySamples)
      (writeReg regStartMeasure 1)
      fun _ h t => ∃ m c, Running x inp numSamples delaySamples t₀ m c h t := by
  refine Triple.call ?_
  rintro h t ⟨hready, hsig, hdel⟩ r t' ⟨u, hacc⟩
  have hdec := hready.known hready.mapped
  have hgo := hacc.writes (by decide) (by decide)
  exact ⟨settingsOf h numSamples delaySamples (hdec ▸ hready.decimation) hpos hsize hdelay, t,
    ⟨hacc.answered hx, hready.mapped, rfl, rfl, rfl, hready.le⟩,
    hacc.lt.trans hacc.gap, hready.idle, hready.now, hsig, hdel, hdec.symm, hgo,
    fun v htv hvt => (hacc.silent v htv hvt).1⟩

/-- **A start that succeeds starts the measurement**, from an idle controller; one that fails leaves
`START` low. -/
theorem startMeasurement_starts (hx : Follows System.tick x inp) {numSamples delaySamples : ℕ}
    (hpos : 0 < numSamples) :
    Triple (systemBus x inp) (Off x t₀) (startMeasurement numSamples delaySamples)
      (StartOutcome x inp numSamples delaySamples t₀) := by
  have hfalse : Triple (systemBus x inp) (Off x t₀) (pure false)
      (StartOutcome x inp numSamples delaySamples t₀) :=
    Triple.pure fun _ _ hoff => .inl ⟨rfl, hoff⟩
  refine Triple.ite (fun hvalid => ?_) fun _ => hfalse
  rw [Bool.and_eq_true] at hvalid
  have hsize : numSamples ≤ maxSamples := of_decide_eq_true hvalid.1
  have hdelay : delaySamples ≤ maxDelaySamples := of_decide_eq_true hvalid.2
  have hlt : (if delaySamples = 0 then 1 else delaySamples) < 2 ^ 32 := by
    unfold maxDelaySamples at hdelay
    split <;> omega
  refine Triple.read fun v => Triple.ite (fun hmapped => ?_) fun _ =>
    hfalse.conseq (fun _ _ h => h.2) fun _ _ _ h => h
  refine Triple.conseq (P := fun h t => Off x t₀ h t ∧ h.isMapped = true) ?_ ?_ fun _ _ _ h => h
  · refine Triple.bind (readStatus_ready hx) (fun status => ?_) fun e => e.elim
    refine Triple.ite (fun _ => hfalse.conseq (fun _ _ h => h.1) fun _ _ _ h => h) fun hstatus => ?_
    rw [not_not] at hstatus
    refine Triple.conseq (P := Ready x t₀) ?_ (fun _ _ h => h.2.2 status rfl hstatus)
      fun _ _ _ h => h
    -- the settings are written while the controller stays idle
    refine Triple.bind (writeSigSize_ready hx hsize) (fun _ => ?_) fun e => e.elim
    refine Triple.bind (writeDelay_ready hx hlt) (fun _ => ?_) fun e => e.elim
    exact Triple.bind (writeStart_runs hx hpos hsize hdelay)
      (fun _ => Triple.pure fun _ _ h => .inr ⟨rfl, h⟩) fun e => e.elim
  · rintro h t ⟨rfl, hoff⟩
    exact ⟨hoff, hmapped⟩

variable {numSamples delaySamples c : ℕ} {m : Settings}

theorem eq_one_of_toNat {endMeasure : Bool}
    (h : (BitVec.ofNat 32 endMeasure.toNat == (1 : BitVec 32)) = true) : endMeasure = true := by
  revert h
  cases endMeasure <;> decide

/-- **A measurement that is complete is in the memory.** -/
theorem isMeasurementComplete_acquired (hx : Follows System.tick x inp)
    (hrest : ∀ v, Rested (x v)) :
    Triple (systemBus x inp) (Running x inp numSamples delaySamples t₀ m c) isMeasurementComplete
      fun r h t => (r = .ok false ∧ Running x inp numSamples delaySamples t₀ m c h t) ∨
        r = .ok true ∧ Finished x numSamples delaySamples t₀ m c h t := by
  refine Triple.read fun v => Triple.ite (fun _ => ?_) fun hmapped => Triple.pure ?_
  · refine Triple.bind (Q := fun r h t => Running x inp numSamples delaySamples t₀ m c h t ∧
      ∀ value, r = .ok value → (value == (1 : BitVec 32)) = true →
        Finished x numSamples delaySamples t₀ m c h t) ?_ (fun value => Triple.pure ?_)
      fun e => e.elim
    · refine Triple.call ?_
      rintro h t ⟨-, hrun⟩ value t' ⟨u, hacc, hvalue⟩
      have hlt := hacc.lt
      have hgap := hacc.gap
      have hc := hrun.started.lt
      have hwen : ∀ v, t ≤ v → v < t' → (inp v).bus.wen = false := by
        intro v htv hvt
        rcases Nat.lt_or_eq_of_le htv with hlt | rfl
        · exact (hacc.silent v hlt hvt).1
        · rw [hacc.strobe]
          rfl
      have hstarted := hrun.started.mono (hlt.trans hgap).le hwen
      have hmeasures : Measures x numSamples delaySamples t₀ m c h t' :=
        { hrun.toMeasures with answered := hacc.answered hx }
      refine ⟨⟨hmeasures, hstarted⟩, ?_⟩
      rintro value ⟨⟩ hone
      obtain ⟨hu, hread⟩ := hacc.readReg hx (by decide) hrun.answered
      rw [hvalue, hread] at hone
      have hend : (x (t + 1)).endMeasure = true := eq_one_of_toNat hone
      have hacquired := hstarted.acquired hx hrest (show c < t + 1 by omega) (by omega) hend
      exact ⟨hmeasures, hacquired.silent hx hacc.silent t' (by omega) le_rfl⟩
    · rintro h t ⟨hrun, hfinished⟩
      cases hone : value == (1 : BitVec 32) with
      | true => exact .inr ⟨rfl, hfinished value rfl hone⟩
      | false => exact .inl ⟨rfl, hrun⟩
  · rintro h t ⟨rfl, hrun⟩
    exact absurd hrun.mapped hmapped

/-- A read, and the clearing of the status, leave a finished measurement as it is. -/
theorem Finished.access (hx : Follows System.tick x inp) {h : RedPitayaHardware} {b : Bus}
    {t t' u : ℕ} (hfin : Finished x numSamples delaySamples t₀ m c h t)
    (hacc : Access x inp t b u t') (hwrites : b.writesBram = false)
    (hset : SameSettings (x t).reg ((x t).reg.after b)) :
    Finished x numSamples delaySamples t₀ m c h t' := by
  have hle : t ≤ t' := (hacc.lt.trans hacc.gap).le
  exact ⟨{ hfin.toMeasures with answered := hacc.answered hx },
    hfin.acquired.access hx hacc hwrites hset t' hle le_rfl⟩

theorem readStatus_finished (hx : Follows System.tick x inp) :
    Keeps (systemBus x inp) (Finished x numSamples delaySamples t₀ m c) readStatus := by
  refine Keeps.bind Keeps.get fun _ => Keeps.ite (fun _ => Keeps.call ?_) fun _ => Keeps.pure _
  rintro h t value t' hfin ⟨u, hacc, -⟩
  have hat := Bus.atReg_regRead (show regStatus < 16 by decide)
  exact hfin.access hx hacc hat.writesBram (sameSettings_after _ hat.regWen)

theorem clearStatus_finished (hx : Follows System.tick x inp) :
    Keeps (systemBus x inp) (Finished x numSamples delaySamples t₀ m c) clearStatus := by
  refine Keeps.bind Keeps.get fun _ => Keeps.ite (fun _ => ?_) fun _ => Keeps.pure _
  refine Keeps.bind (Keeps.call ?_) fun _ => Keeps.pure _
  rintro h t r t' hfin ⟨u, hacc⟩
  refine hfin.access hx hacc (Bus.atReg_regWrite (by decide) 1).writesBram ?_
  rw [MeasureReg.after_regWrite _ (by decide)]
  constructor <;>
    simp [MeasureReg.tick, regStatus, regStartMeasure, regSigSize, regDelay, regDecimation]

/-- The voltage of word `k`. -/
def voltage (x : ℕ → System) (m : Settings) (c k : ℕ) : ℚ :=
  DacCodec.adcToVoltage ((m.word x c k).setWidth 32) m.decimation

theorem readSamples_acquired (hx : Follows System.tick x inp) {size : ℕ}
    (hsize : size ≤ m.numSamples) :
    Triple (systemBus x inp) (Finished x numSamples delaySamples t₀ m c)
      (readSamples m.decimation size) fun r h t =>
        Finished x numSamples delaySamples t₀ m c h t ∧
          ∀ signal, r = .ok signal → ∀ k : Fin size, signal k = voltage x m c k := by
  induction size with
  | zero =>
      refine Triple.pure fun h t hfin => ⟨hfin, fun signal _ k => ?_⟩
      exact k.elim0
  | succ size ih =>
      have hmax := m.le_maxSamples
      refine Triple.bind (ih (by omega)) (fun signal => ?_) fun e => e.elim
      refine Triple.bind (Q := fun r h t => Finished x numSamples delaySamples t₀ m c h t ∧
        (∀ k : Fin size, signal k = voltage x m c k) ∧
          ∀ word, r = .ok word → word = (m.word x c size).setWidth 32) ?_
        (fun word => Triple.pure ?_) fun e => e.elim
      · refine Triple.call ?_
        rintro h t ⟨hfin, hsignal⟩ word t' ⟨u, hacc, hword⟩
        have hat := Bus.atBram_bramRead (show size < maxSamples by omega)
        have hbusy : (x t).busy = false := busy_eq_false (by simp [hfin.acquired.finished])
        refine ⟨hfin.access hx hacc (Bus.writesBram_of_wen rfl) (sameSettings_after _ hat.regWen),
          hsignal signal rfl, ?_⟩
        rintro word ⟨⟩
        rw [hword, (hacc.readBram hx (by omega) hfin.answered hbusy).2,
          hfin.acquired.words size (by omega)]
      · rintro h t ⟨hfin, hsignal, hword⟩
        refine ⟨hfin, ?_⟩
        rintro signal' ⟨⟩ k
        refine Fin.lastCases ?_ (fun k => ?_) k
        · rw [Fin.snoc_last, hword word rfl]
          rfl
        · rw [Fin.snoc_castSucc]
          exact hsignal k

/-- A transfer that succeeds has the result of its body. -/
theorem transfer_finished (hx : Follows System.tick x inp) {body : Method α} {V : α → Prop}
    (hbody : Triple (systemBus x inp) (Finished x numSamples delaySamples t₀ m c) body
      fun r h t => Finished x numSamples delaySamples t₀ m c h t ∧ ∀ a, r = .ok a → V a) :
    Triple (systemBus x inp) (Finished x numSamples delaySamples t₀ m c) (transfer body)
      fun r h t => Finished x numSamples delaySamples t₀ m c h t ∧ ∀ a, r = .ok (some a) → V a := by
  have hnone : Triple (systemBus x inp) (Finished x numSamples delaySamples t₀ m c)
      (pure none : Method (Option α)) fun r h t =>
        Finished x numSamples delaySamples t₀ m c h t ∧ ∀ a, r = .ok (some a) → V a :=
    Triple.pure fun h t hfin => ⟨hfin, fun a hsome => by cases hsome⟩
  refine Triple.bind (readStatus_finished hx) (fun status => ?_) fun e => e.elim
  refine Triple.ite (fun _ => hnone) fun _ => ?_
  refine Triple.bind (clearStatus_finished hx) (fun _ => ?_) fun e => e.elim
  refine Triple.bind hbody (fun a => ?_) fun e => e.elim
  refine Triple.bind (Q := fun _ h t => Finished x numSamples delaySamples t₀ m c h t ∧ V a) ?_
    (fun status => ?_) fun e => e.elim
  · rintro h t ⟨hfin, hV⟩ r h' t' hrun
    exact ⟨readStatus_finished hx h t hfin r h' t' hrun, hV a rfl⟩
  · refine Triple.ite (fun _ => hnone.conseq (fun _ _ h => h.1) fun _ _ _ h => h) fun _ => ?_
    refine Triple.pure fun h t hfin => ⟨hfin.1, ?_⟩
    rintro a' ⟨⟩
    exact hfin.2

/-- **What is read from a finished measurement is what it has acquired.** -/
theorem getAcquiredSignal_reads (hx : Follows System.tick x inp) :
    Triple (systemBus x inp) (Finished x numSamples delaySamples t₀ m c)
      (getAcquiredSignal numSamples) fun r h t =>
        Finished x numSamples delaySamples t₀ m c h t ∧
          ∀ signal, r = .ok (some signal) → ∀ k : Fin numSamples, signal k = voltage x m c k := by
  have hnone : Triple (systemBus x inp) (Finished x numSamples delaySamples t₀ m c)
      (pure none : Method (Option (Fin numSamples → ℚ))) fun r h t =>
        Finished x numSamples delaySamples t₀ m c h t ∧
          ∀ signal, r = .ok (some signal) → ∀ k : Fin numSamples, signal k = voltage x m c k :=
    Triple.pure fun h t hfin => ⟨hfin, fun signal hsome => by cases hsome⟩
  refine Triple.ite (fun _ => ?_) fun _ => hnone
  refine Triple.read fun v => Triple.ite (fun _ => ?_) fun _ =>
    hnone.conseq (fun _ _ h => h.2) fun _ _ _ h => h
  refine Triple.conseq (P := Finished x numSamples delaySamples t₀ m c) ?_ (fun _ _ h => h.2)
    fun _ _ _ h => h
  refine Triple.read fun w => ?_
  -- the driver converts with the decimation of the measurement
  rintro h t ⟨rfl, hfin⟩
  rw [← hfin.decimation_eq]
  exact transfer_finished hx (readSamples_acquired hx hfin.numSamples_eq.ge) w t hfin

/-! ### Time that passes -/

theorem Scoped.silent (hx : Follows System.tick x inp) {h : RedPitayaHardware} {t t' : ℕ}
    (hscoped : Scoped x h t) (hle : t ≤ t') (hsilent : Silent inp t t') : Scoped x h t' := by
  have hset := hsilent.settings hx hle le_rfl
  exact ⟨hsilent.calm hx hle hscoped.toCalm,
    fun hm => (hscoped.known hm).trans hset.decimation.symm,
    fun hstart => hscoped.mapped (hset.startMeasure ▸ hstart)⟩

theorem Measures.silent (hx : Follows System.tick x inp) {h : RedPitayaHardware} {t t' : ℕ}
    (hm : Measures x numSamples delaySamples t₀ m c h t) (hle : t ≤ t')
    (hsilent : Silent inp t t') : Measures x numSamples delaySamples t₀ m c h t' := by
  refine { hm with answered := ?_ }
  rcases Nat.lt_or_eq_of_le hle with hlt | rfl
  · exact hsilent.answered hx hlt
  · exact hm.answered

theorem Running.silent (hx : Follows System.tick x inp) {h : RedPitayaHardware} {t t' : ℕ}
    (hrun : Running x inp numSamples delaySamples t₀ m c h t) (hle : t ≤ t')
    (hsilent : Silent inp t t') : Running x inp numSamples delaySamples t₀ m c h t' :=
  ⟨hrun.toMeasures.silent hx hle hsilent,
    hrun.started.mono hle fun v htv hvt => (hsilent v htv hvt).1⟩

theorem Running.scoped (hx : Follows System.tick x inp) {h : RedPitayaHardware} {t : ℕ}
    (hrun : Running x inp numSamples delaySamples t₀ m c h t) : Scoped x h t := by
  have hdec := (hrun.started.settings hx hrun.started.lt le_rfl).2
  exact ⟨⟨hrun.answered, hdec ▸ m.validDecimation⟩,
    fun _ => hrun.decimation_eq.symm.trans hdec.symm, fun _ => hrun.mapped⟩

theorem Finished.scoped {h : RedPitayaHardware} {t : ℕ}
    (hfin : Finished x numSamples delaySamples t₀ m c h t) : Scoped x h t := by
  have hdec := hfin.acquired.decimation
  exact ⟨⟨hfin.answered, hdec ▸ m.validDecimation⟩,
    fun _ => hfin.decimation_eq.symm.trans hdec.symm, fun _ => hfin.mapped⟩

end RedPitayaHardware

end Low

end Afm
