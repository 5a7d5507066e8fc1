/-
**The handles of the drivers.**

The FPGA driver holds a descriptor and two mappings, the board driver the descriptor of its serial
line.  The operating system may refuse any of them, and each method may end early.  Still the fields
of a driver always say exactly which handles are open, no handle is given back twice or used once it
is given back, and every register and every word that is accessed lies in a window that is mapped.

Main definitions:

* `Afm.Handle`, `Afm.memoryHandles`, `Afm.deviceHandles` — what the system calls of the drivers do
  with the handles;
* `Afm.RedPitayaHardware.Holding`, `Afm.Uart.Holding` — the fields say which handles are open.

Main results:

* `Afm.RedPitayaHardware.keepsHolding_method`, `Afm.Uart.keepsHolding_boardMethod` — the methods of
  the drivers leave it so;
* `Afm.RedPitayaHardware.triple_initializeHardware`, `Afm.Uart.triple_initializeBoard` — opening
  gives everything or nothing;
* `Afm.RedPitayaHardware.triple_cleanup`, `Afm.Uart.triple_close` — closing gives everything back.
-/

import RedPitayaAfm.BoardCache
import RedPitayaAfm.Handles
import RedPitayaAfm.RedPitayaHardware

set_option relaxedAutoImplicit false
set_option autoImplicit false

namespace Afm

open Effect Fpga

open Act (Confined)

/-! ### Handles -/

/-- What the server holds open: `/dev/mem`, its two mappings, and the serial line. -/
inductive Handle
  | mem
  | regs
  | bram
  | tty
  /-- An address that lies in no mapping; it is never held. -/
  | nowhere
  deriving DecidableEq

/-- `REG_WINDOW_SIZE`, in registers. -/
def regWindowSize : ℕ := 4096 / 4

/-- The mapping a register lies in. -/
def regHandle (index : ℕ) : Handle := if index < regWindowSize then .regs else .nowhere

/-- The mapping a word of the memory lies in: `BRAM_WINDOW_SIZE` is that of all samples. -/
def bramHandle (i : ℕ) : Handle := if i < maxSamples then .bram else .nowhere

/-- What the accesses and system calls of the FPGA driver do with the handles. -/
def memoryHandles : Handling memory Handle
  | .openMem, memFd => if 0 ≤ (show ℤ from memFd) then [.acquire .mem] else []
  | .mapRegs, done => .use .mem :: if done then [.acquire .regs] else []
  | .mapBram, done => .use .mem :: if done then [.acquire .bram] else []
  | .unmapRegs, _ => [.release .regs]
  | .unmapBram, _ => [.release .bram]
  | .closeMem, _ => [.release .mem]
  | .readReg index, _ => [.use (regHandle index)]
  | .writeReg index _, _ => [.use (regHandle index)]
  | .readBram i, _ => [.use (bramHandle i)]
  | .writeBram i _, _ => [.use (bramHandle i)]

/-- What the system calls of the board driver do with the handles. -/
def deviceHandles : Handling Uart.device Handle
  | .openPort, .ok () => [.acquire .tty]
  | .openPort, .error _ => []
  | .close, _ => [.release .tty]
  | .now, _ => []
  | _, _ => [.use .tty]

/-- What the fields of the drivers say about the handles. -/
def heldBy (device : Option RedPitayaHardware) (driver : Option Uart.State) : Handle → ℕ
  | .mem => (device.elim false fun h => 0 ≤ h.memFd).toNat
  | .regs => (device.elim false (·.regs)).toNat
  | .bram => (device.elim false (·.bram)).toNat
  | .tty => (driver.elim false (·.isOpen)).toNat
  | .nowhere => 0

theorem heldBy_le_one (device : Option RedPitayaHardware) (driver : Option Uart.State)
    (k : Handle) : heldBy device driver k ≤ 1 := by
  cases k with
  | mem => exact Bool.toNat_le _
  | regs => exact Bool.toNat_le _
  | bram => exact Bool.toNat_le _
  | tty => exact Bool.toNat_le _
  | nowhere => exact Nat.zero_le 1

/-! ### The driver of the FPGA -/

namespace RedPitayaHardware

variable {α : Type} {driver : Option Uart.State} {mapped : Prop} {h : RedPitayaHardware}
  {l : Ledger Handle}

/-- The fields say which handles are open, and nothing is mapped without the descriptor.  If the
driver has been opened (`mapped`), both windows are mapped. -/
structure Holding (driver : Option Uart.State) (mapped : Prop) (h : RedPitayaHardware)
    (l : Ledger Handle) : Prop where
  owns : Owns (heldBy (some h) driver) l
  opened : (h.regs || h.bram) = true → 0 ≤ h.memFd
  mapped : mapped → h.isMapped = true

/-- Methods that leave it so. -/
abbrev KeepsHolding (driver : Option Uart.State) (mapped : Prop) (m : Method α) : Prop :=
  Keeps memoryHandles.world (Holding driver mapped) m

/-- Accesses within the windows. -/
def InWindow : MemoryCall → Prop
  | .readReg index => index < regWindowSize
  | .writeReg index _ => index < regWindowSize
  | .readBram i => i < maxSamples
  | .writeBram i _ => i < maxSamples
  | _ => False

/-- An access within the windows uses a handle that is held. -/
theorem Holding.access (hl : Holding driver mapped h l) (hm : h.isMapped = true) {c : MemoryCall}
    (hc : InWindow c) (r : memory.Reply c) : l.afterAll (memoryHandles c r) = l := by
  obtain ⟨hregs, hbram⟩ := (Bool.and_eq_true _ _).mp hm
  have hr : 0 < heldBy (some h) driver .regs := by simp [heldBy, hregs]
  have hb : 0 < heldBy (some h) driver .bram := by simp [heldBy, hbram]
  refine hl.owns.uses fun op hop => ?_
  cases c with
  | readReg index => exact ⟨.regs, by simpa [memoryHandles, regHandle, show index < _ from hc]
      using hop, hr⟩
  | writeReg index value => exact ⟨.regs, by simpa [memoryHandles, regHandle,
      show index < _ from hc] using hop, hr⟩
  | readBram i => exact ⟨.bram, by simpa [memoryHandles, bramHandle, show i < _ from hc]
      using hop, hb⟩
  | writeBram i value => exact ⟨.bram, by simpa [memoryHandles, bramHandle, show i < _ from hc]
      using hop, hb⟩
  | _ => exact hc.elim

/-- Methods that keep the handles while both windows are mapped. -/
abbrev KeepsMapped (driver : Option Uart.State) (mapped : Prop) (m : Method α) : Prop :=
  Keeps memoryHandles.world (fun h l => Holding driver mapped h l ∧ h.isMapped = true) m

theorem keepsMapped_of_inWindow {m : Method α} (hm : Confined InWindow Eq m) :
    KeepsMapped driver mapped m := by
  refine Keeps.of_reads hm fun {h l c r l'} hc hl hstep => ?_
  change l' = l.afterAll (memoryHandles c r) at hstep
  rw [hstep, hl.1.access hl.2 hc r]
  exact hl

theorem keepsHolding_ifMapped {body : Method α} {otherwise : α}
    (hbody : KeepsMapped driver mapped body) :
    KeepsHolding driver mapped (ifMapped body otherwise) := by
  refine Triple.read fun v => Triple.ite (fun hv => ?_) fun _ => Triple.pure fun _ _ hl => hl.2
  refine Triple.conseq hbody ?_ fun _ _ _ hl => hl.1
  rintro h l ⟨rfl, hl⟩
  exact ⟨hl, hv⟩

/-! #### Accesses -/

theorem readStatus_inWindow : Confined InWindow Eq readStatus :=
  Confined.bind Confined.get fun _ =>
    Confined.ite (Confined.call (show regStatus < regWindowSize by decide)) (Confined.pure _)

theorem clearStatus_inWindow : Confined InWindow Eq clearStatus :=
  ifMapped_reads (Confined.bind (Confined.call (show regStatus < regWindowSize by decide)) fun _ =>
    Confined.pure _)

theorem transfer_inWindow {body : Method α} (h : Confined InWindow Eq body) :
    Confined InWindow Eq (transfer body) := by
  refine Confined.bind readStatus_inWindow fun status => Confined.ite (Confined.pure _) ?_
  refine Confined.bind clearStatus_inWindow fun _ => Confined.bind h fun a => ?_
  exact Confined.bind readStatus_inWindow fun _ => Confined.ite (Confined.pure _) (Confined.pure _)

theorem writeSamples_inWindow {signal : List ℚ} {i : ℕ} (h : i + signal.length ≤ maxSamples) :
    Confined InWindow Eq (writeSamples i signal) := by
  induction signal generalizing i with
  | nil => exact Confined.pure _
  | cons voltage signal ih =>
      rw [List.length_cons] at h
      have hi : InWindow (.writeBram i (DacCodec.bramWord voltage)) := show i < maxSamples by omega
      exact Confined.bind (Confined.call hi) fun _ => ih (by omega)

theorem readSamples_inWindow (decimation : ℕ) {size : ℕ} (h : size ≤ maxSamples) :
    Confined InWindow Eq (readSamples decimation size) := by
  induction size with
  | zero => exact Confined.pure _
  | succ size ih =>
      have hi : InWindow (.readBram size) := show size < maxSamples by omega
      exact Confined.bind (ih (by omega)) fun _ =>
        Confined.bind (Confined.call hi) fun _ => Confined.pure _

/-! #### Methods that open and close nothing -/

theorem keepsHolding_resetMeasurement : KeepsHolding driver mapped resetMeasurement :=
  keepsHolding_ifMapped (keepsMapped_of_inWindow (Confined.bind
    (Confined.call (show regStartMeasure < regWindowSize by decide)) fun _ => Confined.pure _))

theorem keepsHolding_readVersion : KeepsHolding driver mapped readVersion :=
  keepsHolding_ifMapped (keepsMapped_of_inWindow
    (Confined.call (show regVersion < regWindowSize by decide)))

theorem keepsHolding_clearStatus : KeepsHolding driver mapped clearStatus :=
  keepsHolding_ifMapped (keepsMapped_of_inWindow (Confined.bind
    (Confined.call (show regStatus < regWindowSize by decide)) fun _ => Confined.pure _))

theorem keepsHolding_setDecimation (decimation : ℕ) :
    KeepsHolding driver mapped (setDecimation decimation) := by
  refine Keeps.ite (fun _ => keepsHolding_ifMapped ?_) fun _ => Keeps.pure _
  refine Keeps.bind (keepsMapped_of_inWindow
    (Confined.call (show regDecimation < regWindowSize by decide))) fun _ => ?_
  refine Keeps.bind (Keeps.modify fun h l hl => ?_) fun _ => Keeps.pure _
  exact ⟨⟨hl.1.owns, hl.1.opened, hl.1.mapped⟩, hl.2⟩

theorem keepsHolding_loadGenerationSignal (signal : List ℚ) :
    KeepsHolding driver mapped (loadGenerationSignal signal) := by
  refine Keeps.ite (fun hsize => ?_) fun _ => Keeps.pure _
  have hle : 0 + signal.length ≤ maxSamples := by
    rw [Nat.zero_add]
    exact of_decide_eq_true hsize
  exact keepsHolding_ifMapped (keepsMapped_of_inWindow (Confined.bind
    (transfer_inWindow (writeSamples_inWindow hle)) fun _ => Confined.pure _))

theorem keepsHolding_startMeasurement (numSamples delaySamples : ℕ) :
    KeepsHolding driver mapped (startMeasurement numSamples delaySamples) := by
  refine Keeps.ite (fun _ => keepsHolding_ifMapped (keepsMapped_of_inWindow ?_))
    fun _ => Keeps.pure _
  refine Confined.bind readStatus_inWindow fun status => Confined.ite (Confined.pure _) ?_
  refine Confined.bind (Confined.call (show regSigSize < regWindowSize by decide)) fun _ => ?_
  refine Confined.bind (Confined.call (show regDelay < regWindowSize by decide)) fun _ => ?_
  exact Confined.bind (Confined.call (show regStartMeasure < regWindowSize by decide)) fun _ =>
    Confined.pure _

theorem keepsHolding_isMeasurementComplete : KeepsHolding driver mapped isMeasurementComplete :=
  keepsHolding_ifMapped (keepsMapped_of_inWindow (Confined.bind
    (Confined.call (show regEndMeasure < regWindowSize by decide)) fun _ => Confined.pure _))

theorem keepsHolding_getAcquiredSignal (size : ℕ) :
    KeepsHolding driver mapped (getAcquiredSignal size) := by
  refine Keeps.ite (fun hsize => ?_) fun _ => Keeps.pure _
  have hle : size ≤ maxSamples := of_decide_eq_true hsize
  exact keepsHolding_ifMapped (keepsMapped_of_inWindow (Confined.bind Confined.get fun h =>
    transfer_inWindow (readSamples_inWindow _ hle)))

/-! #### Opening and closing -/

/-- The handles are those of the fields. -/
def Owning (driver : Option Uart.State) (h : RedPitayaHardware) (l : Ledger Handle) : Prop :=
  Owns (heldBy (some h) driver) l

/-- Nothing of the FPGA is open. -/
structure Closed (driver : Option Uart.State) (h : RedPitayaHardware) (l : Ledger Handle) :
    Prop where
  owns : Owning driver h l
  memFd : h.memFd < 0
  regs : h.regs = false
  bram : h.bram = false

theorem Closed.owns_none (hl : Closed driver h l) : Owns (heldBy none driver) l := by
  refine Owns.congr hl.owns fun k => ?_
  cases k with
  | mem => simp [heldBy, hl.memFd]
  | regs => simp [heldBy, hl.regs]
  | bram => simp [heldBy, hl.bram]
  | tty => rfl
  | nowhere => rfl

theorem Closed.holding (hl : Closed driver h l) (hmapped : ¬mapped) :
    Holding driver mapped h l where
  owns := hl.owns
  opened ho := by simp [hl.regs, hl.bram] at ho
  mapped hm := (hmapped hm).elim

/-- A handle that the fields know is given back. -/
theorem triple_release {c : MemoryCall} {k : Handle} {f : RedPitayaHardware → RedPitayaHardware}
    {B Q : RedPitayaHardware → Prop} (hc : ∀ r, memoryHandles c r = [.release k])
    (hpos : ∀ h, B h → heldBy (some h) driver k = 1)
    (hgone : ∀ h, heldBy (some (f h)) driver = Function.update (heldBy (some h) driver) k 0)
    (hQ : ∀ h, B h → Q (f h)) :
    Triple memoryHandles.world (fun h l => Owning driver h l ∧ B h)
      (do let _ ← Act.call (I := memory) c; Act.modify f : Method Unit)
      fun _ h l => Owning driver h l ∧ Q h := by
  refine Triple.bind (Q := fun _ h l => Owning driver (f h) l ∧ B h) (Triple.handles ?_)
    (fun _ => Triple.modify fun h l hl => ⟨hl.1, hQ h hl.2⟩) fun e => e.elim
  rintro h l ⟨hl, hB⟩ r
  have hone := hpos h hB
  have hrelease := hl.release (k := k) (by omega)
  rw [hc]
  refine ⟨hrelease.congr fun k' => ?_, hB⟩
  rw [hgone, hone]

theorem triple_unmapRegs :
    Triple memoryHandles.world (Owning driver) unmapRegs
      fun _ h l => Owning driver h l ∧ h.regs = false := by
  refine Triple.read fun v => Triple.ite (fun hv => ?_) fun hv => Triple.pure ?_
  · refine Triple.conseq (triple_release (B := fun h => h.regs = true) (k := .regs) (fun _ => rfl)
      (fun h hregs => by simp [heldBy, hregs]) (fun h => ?_) fun h _ => rfl) ?_ fun _ _ _ hl => hl
    · funext k
      cases k <;> rfl
    · rintro h l ⟨rfl, hl⟩
      exact ⟨hl, hv⟩
  · rintro h l ⟨rfl, hl⟩
    exact ⟨hl, by simpa using hv⟩

theorem triple_unmapBram :
    Triple memoryHandles.world (fun h l => Owning driver h l ∧ h.regs = false) unmapBram
      fun _ h l => Owning driver h l ∧ h.regs = false ∧ h.bram = false := by
  refine Triple.read fun v => Triple.ite (fun hv => ?_) fun hv => Triple.pure ?_
  · refine Triple.conseq (triple_release (B := fun h => h.regs = false ∧ h.bram = true) (k := .bram)
      (fun _ => rfl) (fun h hh => by simp [heldBy, hh.2]) (fun h => ?_)
      fun h hh => ⟨hh.1, rfl⟩) ?_ fun _ _ _ hl => hl
    · funext k
      cases k <;> rfl
    · rintro h l ⟨rfl, hl⟩
      exact ⟨hl.1, hl.2, hv⟩
  · rintro h l ⟨rfl, hl⟩
    exact ⟨hl.1, hl.2, by simpa using hv⟩

theorem triple_closeMem :
    Triple memoryHandles.world
      (fun h l => Owning driver h l ∧ h.regs = false ∧ h.bram = false) closeMem
      fun _ => Closed driver := by
  refine Triple.read fun v => Triple.ite (fun hv => ?_) fun hv => Triple.pure ?_
  · refine Triple.conseq (triple_release
      (B := fun h => 0 ≤ h.memFd ∧ h.regs = false ∧ h.bram = false)
      (Q := fun h => h.memFd < 0 ∧ h.regs = false ∧ h.bram = false) (k := .mem) (fun _ => rfl)
      (fun h hh => by simp [heldBy, hh.1]) (fun h => ?_) fun h hh => ⟨by simp, hh.2⟩) ?_
      fun _ _ _ hl => ⟨hl.1, hl.2.1, hl.2.2.1, hl.2.2.2⟩
    · funext k
      cases k <;> rfl
    · rintro h l ⟨rfl, hl⟩
      exact ⟨hl.1, hv, hl.2⟩
  · rintro h l ⟨rfl, hl⟩
    exact ⟨hl.1, by omega, hl.2.1, hl.2.2⟩

/-- **A clean-up gives everything back.** -/
theorem triple_cleanup :
    Triple memoryHandles.world (Holding driver mapped) cleanup fun _ => Closed driver := by
  refine Triple.bind (Q := fun _ => Holding driver mapped) ?_ (fun _ => ?_) fun e => e.elim
  · refine keepsHolding_ifMapped (Keeps.bind (keepsMapped_of_inWindow ?_) fun _ => Keeps.pure _)
    exact ifMapped_reads (Confined.bind
      (Confined.call (show regStartMeasure < regWindowSize by decide)) fun _ => Confined.pure _)
  refine Triple.bind (Q := fun _ h l => Owning driver h l ∧ h.regs = false ∧ h.bram = false) ?_
    (fun _ => triple_closeMem) fun e => e.elim
  refine Triple.bind (triple_unmapRegs.conseq (fun _ _ hl => hl.owns) fun _ _ _ hl => hl)
    (fun _ => triple_unmapBram) fun e => e.elim

/-- A handle is asked for; if it is given, the fields know. -/
theorem Owning.acquired {h' : RedPitayaHardware} (hl : Owning driver h l) {k : Handle}
    (hnone : heldBy (some h) driver k = 0)
    (hgot : heldBy (some h') driver = Function.update (heldBy (some h) driver) k 1) :
    Owning driver h' (l.after (.acquire k)) := by
  refine Owns.congr hl.acquire fun k' => ?_
  rw [hgot, hnone]

theorem Owning.use_mem (hl : Owning driver h l) (hfd : 0 ≤ h.memFd) : l.after (.use .mem) = l :=
  hl.use (by simp [heldBy, hfd])

/-- The descriptor is there, and nothing is mapped. -/
structure Opened (driver : Option Uart.State) (h : RedPitayaHardware) (l : Ledger Handle) :
    Prop where
  owns : Owning driver h l
  memFd : 0 ≤ h.memFd
  regs : h.regs = false
  bram : h.bram = false

/-- **Mapping** gives both windows, or what it gives is known to the fields. -/
theorem triple_mapWindows :
    Triple memoryHandles.world (Opened driver) mapWindows
      fun r => Holding driver (r = .ok true) := by
  refine Triple.bind (Q := fun r h l => 0 ≤ h.memFd ∧ h.bram = false ∧
    (r = .ok true → Owning driver { h with regs := true } l) ∧
      (r = .ok false → Owning driver h l ∧ h.regs = false)) (Triple.handles ?_) (fun regs => ?_)
    fun e => e.elim
  · rintro h l ⟨hl, hfd, hregs, hbram⟩ r
    refine ⟨hfd, hbram, ?_, ?_⟩
    · rintro ⟨⟩
      show Owning driver _ ((l.after (.use .mem)).after (.acquire .regs))
      rw [hl.use_mem hfd]
      refine hl.acquired (by simp [heldBy, hregs]) ?_
      funext k
      cases k <;> rfl
    · rintro ⟨⟩
      show Owning driver h (l.after (.use .mem)) ∧ _
      rw [hl.use_mem hfd]
      exact ⟨hl, hregs⟩
  cases regs with
  | false =>
      refine Triple.pure fun h l hl => ?_
      obtain ⟨hown, hregs⟩ := hl.2.2.2 rfl
      exact ⟨hown, fun ho => by simp [hregs, hl.2.1] at ho, fun h => by cases h⟩
  | true =>
      refine Triple.bind (Q := fun _ h l => Owning driver h l ∧ 0 ≤ h.memFd ∧ h.regs = true ∧
        h.bram = false) (Triple.modify fun h l hl => ⟨hl.2.2.1 rfl, hl.1, rfl, hl.2.1⟩)
        (fun _ => ?_) fun e => e.elim
      refine Triple.bind (Q := fun r h l => 0 ≤ h.memFd ∧ h.regs = true ∧
        (r = .ok true → Owning driver { h with bram := true } l) ∧
          (r = .ok false → Owning driver h l)) (Triple.handles ?_) (fun bram => ?_) fun e => e.elim
      · rintro h l ⟨hl, hfd, hregs, hbram⟩ r
        refine ⟨hfd, hregs, ?_, ?_⟩
        · rintro ⟨⟩
          show Owning driver _ ((l.after (.use .mem)).after (.acquire .bram))
          rw [hl.use_mem hfd]
          refine hl.acquired (by simp [heldBy, hbram]) ?_
          funext k
          cases k <;> rfl
        · rintro ⟨⟩
          show Owning driver h (l.after (.use .mem))
          rw [hl.use_mem hfd]
          exact hl
      cases bram with
      | false => exact Triple.pure fun h l hl => ⟨hl.2.2.2 rfl, fun _ => hl.1, fun h => by cases h⟩
      | true =>
          refine Triple.bind (Q := fun _ => Holding driver True) (Triple.modify fun h l hl => ?_)
            (fun _ => Triple.pure fun h l hl => ⟨hl.owns, hl.opened, fun _ => hl.mapped trivial⟩)
            fun e => e.elim
          exact ⟨hl.2.2.1 rfl, fun _ => hl.1, fun _ => by simp [isMapped, hl.2.1]⟩

theorem keepsHolding_resetToKnownState : KeepsHolding driver mapped resetToKnownState := by
  refine Keeps.bind keepsHolding_clearStatus fun _ => ?_
  refine Keeps.bind keepsHolding_resetMeasurement fun _ => ?_
  exact Keeps.bind (keepsHolding_setDecimation _) fun _ => Keeps.pure _

/-- What follows a mapping that succeeded. -/
theorem triple_checkVersion :
    Triple memoryHandles.world (Holding driver True)
      (do
        if (← readVersion) ≠ bitfileVersion then do
          let _ ← readVersion
          cleanup
          pure false
        else resetToKnownState)
      fun r => Holding driver (r = .ok true) := by
  refine Triple.bind keepsHolding_readVersion (fun version => ?_) fun e => e.elim
  refine Triple.ite (fun _ => ?_) fun _ => ?_
  · refine Triple.bind keepsHolding_readVersion (fun _ => ?_) fun e => e.elim
    refine Triple.bind triple_cleanup (fun _ => Triple.pure fun h l hl => ?_) fun e => e.elim
    exact hl.holding (by simp)
  · exact keepsHolding_resetToKnownState.conseq (fun _ _ hl => hl)
      fun _ _ _ hl => ⟨hl.owns, hl.opened, fun _ => hl.mapped trivial⟩

/-- **An initialization** gives everything or nothing. -/
theorem triple_initializeHardware :
    Triple memoryHandles.world (Holding driver mapped) initializeHardware
      fun r => Holding driver (mapped ∨ r = .ok true) := by
  refine Triple.read fun v => Triple.ite (fun _ => Triple.pure fun h l hl => ?_) fun hv => ?_
  · exact ⟨hl.2.owns, hl.2.opened, fun hm => hl.2.mapped (hm.resolve_right (by simp))⟩
  refine Triple.bind (Q := fun r h l => ∃ memFd : ℤ, r = .ok memFd ∧ ¬mapped ∧
      Owning driver { h with memFd := memFd } l ∧ h.regs = false ∧ h.bram = false)
    (Triple.handles ?_) (fun memFd => ?_) fun e => e.elim
  · rintro h l ⟨rfl, hl⟩ memFd
    have hclosed : v.regs = false ∧ v.bram = false := by
      rcases Bool.eq_false_or_eq_true (v.regs || v.bram) with ho | ho
      · exact (hv (hl.opened ho)).elim
      · simpa using ho
    have hnone : ¬mapped := fun hm => by
      have := hl.mapped hm
      simp [isMapped, hclosed.1] at this
    have hmem : heldBy (some v) driver .mem = 0 := by
      simpa [heldBy] using hv
    change ℤ at memFd
    refine ⟨memFd, rfl, hnone, ?_, hclosed⟩
    by_cases hfd : 0 ≤ memFd
    · rw [show memoryHandles .openMem memFd = [.acquire .mem] from if_pos hfd]
      refine Owning.acquired hl.owns hmem ?_
      funext k
      cases k <;> simp [heldBy, hfd]
    · rw [show memoryHandles .openMem memFd = [] from if_neg hfd]
      refine Owns.congr hl.owns fun k => ?_
      cases k <;> simp only [heldBy, Option.elim, hfd, hv]
  refine Triple.bind (Q := fun _ h l => ¬mapped ∧ Owning driver h l ∧ h.memFd = memFd ∧
    h.regs = false ∧ h.bram = false) (Triple.modify fun h l hl => ?_) (fun _ => ?_) fun e => e.elim
  · obtain ⟨memFd', heq, hnone, hl⟩ := hl
    cases heq
    exact ⟨hnone, hl.1, rfl, hl.2⟩
  refine Triple.ite (fun hfd => Triple.pure fun h l hl => ?_) fun hfd => ?_
  · have hclosed : Closed driver h l := ⟨hl.2.1, hl.2.2.1 ▸ hfd, hl.2.2.2.1, hl.2.2.2.2⟩
    exact hclosed.holding fun hm => by simp [hl.1] at hm
  by_cases hm : mapped
  · exact fun h l hl => absurd hm hl.1
  refine Triple.conseq (P := Opened driver) (Q := fun r => Holding driver (r = .ok true)) ?_
    (fun h l hl => ⟨hl.2.1, by rw [hl.2.2.1]; exact not_lt.mp hfd, hl.2.2.2.1, hl.2.2.2.2⟩)
    fun r h l hl => ⟨hl.owns, hl.opened, fun ho => hl.mapped (ho.resolve_left hm)⟩
  refine Triple.bind triple_mapWindows (fun done => ?_) fun e => e.elim
  refine Triple.ite (fun hdone => ?_) fun _ => ?_
  · exact triple_checkVersion.conseq
      (fun h l hl => ⟨hl.owns, hl.opened, fun _ => hl.mapped (by rw [hdone])⟩) fun _ _ _ hl => hl
  · refine Triple.bind triple_cleanup (fun _ => Triple.pure fun h l hl => ?_) fun e => e.elim
    exact hl.holding (by simp)

/-- **Every method of the driver** keeps what its fields say about the handles. -/
theorem keepsHolding_method (c : HardwareCall) : KeepsHolding driver mapped (method c) := by
  cases c with
  | initializeHardware =>
      exact triple_initializeHardware.conseq (fun _ _ hl => hl)
        fun _ _ _ hl => ⟨hl.owns, hl.opened, fun hm => hl.mapped (.inl hm)⟩
  | loadGenerationSignal signal => exact keepsHolding_loadGenerationSignal signal
  | setDecimation decimation => exact keepsHolding_setDecimation decimation
  | getDecimation => exact Keeps.bind Keeps.get fun _ => Keeps.pure _
  | startMeasurement numSamples delaySamples =>
      exact keepsHolding_startMeasurement numSamples delaySamples
  | isMeasurementComplete => exact keepsHolding_isMeasurementComplete
  | getAcquiredSignal size => exact keepsHolding_getAcquiredSignal size

end RedPitayaHardware

/-! ### The driver of the board -/

namespace Uart

open Board

variable {α : Type} {device : Option RedPitayaHardware} {connected : Prop} {u : State}
  {l : Ledger Handle} {rounds : ℕ}

/-- The fields say whether the line is open.  It is if the driver has found the board
(`connected`). -/
structure Holding (device : Option RedPitayaHardware) (connected : Prop) (u : State)
    (l : Ledger Handle) : Prop where
  owns : Owns (heldBy device (some u)) l
  connected : connected → u.isOpen = true

/-- Methods that leave it so. -/
abbrev KeepsHolding (device : Option RedPitayaHardware) (connected : Prop) (m : Method α) : Prop :=
  Keeps deviceHandles.world (Holding device connected) m

/-- Methods that leave it so while the line is open. -/
abbrev KeepsOpen (device : Option RedPitayaHardware) (connected : Prop) (m : Method α) : Prop :=
  Keeps deviceHandles.world (fun u l => Holding device connected u l ∧ u.isOpen = true) m

theorem Holding.same (hl : Holding device connected u l) {u' : State}
    (h : u'.isOpen = u.isOpen) : Holding device connected u' l := by
  refine ⟨hl.owns.congr fun k => ?_, fun hc => h.trans (hl.connected hc)⟩
  cases k with
  | tty => simp [heldBy, h]
  | _ => rfl

theorem keepsOpen_modify {f : State → State} (h : ∀ u, (f u).isOpen = u.isOpen) :
    KeepsOpen device connected (Act.modify f) :=
  Keeps.modify fun u _ hl => ⟨hl.1.same (h u), (h u).trans hl.2⟩

theorem keepsHolding_modify {f : State → State} (h : ∀ u, (f u).isOpen = u.isOpen) :
    KeepsHolding device connected (Act.modify f) :=
  Keeps.modify fun u _ hl => hl.same (h u)

theorem keepsHolding_fail (message : Text) :
    KeepsHolding device connected (fail message : Method (Option α)) :=
  Keeps.bind (keepsHolding_modify fun _ => rfl) fun _ => Keeps.pure _

theorem keepsOpen_fail (message : Text) :
    KeepsOpen device connected (fail message : Method (Option α)) :=
  Keeps.bind (keepsOpen_modify fun _ => rfl) fun _ => Keeps.pure _

/-- A call that only uses the line. -/
theorem keepsOpen_call {c : Call}
    (hc : ∀ r, ∀ op ∈ deviceHandles c r, op = .use .tty) :
    KeepsOpen device connected (Act.call (I := Uart.device) c) := by
  refine Keeps.call fun u l r l' hl hstep => ?_
  change l' = l.afterAll (deviceHandles c r) at hstep
  have hpos : 0 < heldBy device (some u) .tty := by simp [heldBy, hl.2]
  rw [hstep, hl.1.owns.uses fun op hop => ⟨.tty, hc r op hop, hpos⟩]
  exact hl

theorem keepsOpen_now : KeepsOpen device connected now :=
  keepsOpen_call fun r op hop => by simp [deviceHandles] at hop

theorem keepsOpen_poll (timeoutMs : ℤ) : KeepsOpen device connected (poll timeoutMs) :=
  keepsOpen_call fun r op hop => by simpa [deviceHandles] using hop

theorem keepsOpen_read (count : ℕ) : KeepsOpen device connected (read count) :=
  keepsOpen_call fun r op hop => by simpa [deviceHandles] using hop

theorem keepsOpen_write (data : Text) : KeepsOpen device connected (write data) :=
  keepsOpen_call fun r op hop => by simpa [deviceHandles] using hop

theorem keepsOpen_flush : KeepsOpen device connected flush :=
  keepsOpen_call fun r op hop => by simpa [deviceHandles] using hop

theorem keepsOpen_readLoop (start timeoutMs : ℤ) (rounds : ℕ) :
    KeepsOpen device connected (readLoop start timeoutMs rounds) := by
  induction rounds with
  | zero => exact Keeps.throw _
  | succ rounds ih =>
      refine Keeps.bind Keeps.get fun u => ?_
      cases hpop : u.lineBuffer.popLine with
      | some popped =>
          exact Keeps.bind (keepsOpen_modify fun _ => rfl) fun _ =>
            Keeps.ite (fun _ => ih) fun _ => Keeps.pure _
      | none =>
          refine Keeps.bind keepsOpen_now fun time => ?_
          refine Keeps.ite (fun _ => keepsOpen_fail _) fun _ => ?_
          refine Keeps.ite (fun _ => keepsOpen_fail _) fun _ => ?_
          refine Keeps.bind (keepsOpen_poll _) fun polled => ?_
          cases polled with
          | failed reason => exact keepsOpen_fail _
          | timeout => exact keepsOpen_fail _
          | ready =>
              refine Keeps.bind (keepsOpen_read 64) fun result => ?_
              cases result with
              | again => exact ih
              | failed reason => exact keepsOpen_fail _
              | data bytes =>
                  cases bytes with
                  | nil => exact ih
                  | cons c bytes =>
                      refine Keeps.bind Keeps.get fun u => ?_
                      refine Keeps.bind (keepsOpen_modify fun _ => rfl) fun _ => ?_
                      refine Keeps.ite (fun _ => ?_) fun _ => ih
                      exact Keeps.bind (keepsOpen_modify fun _ => rfl) fun _ => keepsOpen_fail _

theorem keepsOpen_callback (c : ProtocolCall) :
    KeepsOpen device connected (callback rounds c) := by
  cases c with
  | send data =>
      refine Keeps.bind (keepsOpen_write data) fun sent => ?_
      cases sent with
      | ok _ => exact Keeps.pure _
      | error reason => exact Keeps.bind (keepsOpen_modify fun _ => rfl) fun _ => Keeps.pure _
  | readLine timeoutMs =>
      refine Keeps.bind (Keeps.bind keepsOpen_now fun start => keepsOpen_readLoop _ _ _)
        fun line => ?_
      cases line with
      | some line => exact Keeps.pure _
      | none => exact Keeps.bind Keeps.get fun u => Keeps.pure _
  | now => exact keepsOpen_now

theorem keepsHolding_exchange (command : Text) (timeoutMs : ℕ) :
    KeepsHolding device connected (exchange rounds command timeoutMs) := by
  refine Triple.read fun v => Triple.ite (fun _ => ?_) fun hv => ?_
  · exact (keepsHolding_fail _).conseq (fun _ _ hl => hl.2) fun _ _ _ hl => hl
  refine Triple.conseq (P := fun u l => Holding device connected u l ∧ u.isOpen = true)
    (Q := fun _ u l => Holding device connected u l ∧ u.isOpen = true) ?_ ?_ fun _ _ _ hl => hl.1
  · refine Keeps.bind keepsOpen_flush fun _ => ?_
    refine Keeps.bind (keepsOpen_modify fun _ => rfl) fun _ => Keeps.bind Keeps.get fun u => ?_
    refine Keeps.bind (Keeps.handle keepsOpen_callback _) fun outcome => ?_
    refine Keeps.bind (keepsOpen_modify fun _ => rfl) fun _ => ?_
    cases outcome.1 with
    | ok response => exact Keeps.pure _
    | error stuck => exact Keeps.throw _
  · rintro u l ⟨rfl, hl⟩
    exact ⟨hl, by simpa using hv⟩

theorem keepsHolding_command (text : Text) :
    KeepsHolding device connected (command rounds text) :=
  Keeps.bind (keepsHolding_exchange _ _) fun _ => Keeps.pure _

theorem keepsHolding_refuse (message : Text) : KeepsHolding device connected (refuse message) :=
  Keeps.bind (keepsHolding_modify fun _ => rfl) fun _ => Keeps.pure _

/-- The line is open, and configured or not. -/
theorem keepsOpen_configurePort : KeepsOpen device connected configurePort := by
  have hreport (message : Text) : KeepsOpen device connected
      (do setError message; pure false : Method Bool) :=
    Keeps.bind (keepsOpen_modify fun _ => rfl) fun _ => Keeps.pure _
  refine Keeps.bind Keeps.get fun u => ?_
  refine Keeps.bind (keepsOpen_call fun r op hop => by simpa [deviceHandles] using hop)
    fun attr => ?_
  cases attr with
  | error reason => exact hreport _
  | ok _ =>
      refine Keeps.ite (fun _ => ?_) fun _ => hreport _
      refine Keeps.bind (keepsOpen_call fun r op hop => by simpa [deviceHandles] using hop)
        fun set => ?_
      cases set with
      | error reason => exact hreport _
      | ok _ => exact Keeps.pure _

/-- The line is closed, and the ledger knows. -/
structure Closed (device : Option RedPitayaHardware) (u : State) (l : Ledger Handle) : Prop where
  owns : Owns (heldBy device (some u)) l
  isClosed : u.isOpen = false

theorem Closed.holding (hl : Closed device u l) (hconnected : ¬connected) :
    Holding device connected u l :=
  ⟨hl.owns, fun hc => (hconnected hc).elim⟩

theorem Closed.owns_none (hl : Closed device u l) : Owns (heldBy device none) l := by
  refine Owns.congr hl.owns fun k => ?_
  cases k with
  | tty => simp [heldBy, hl.isClosed]
  | _ => rfl

/-- The line is given back. -/
theorem triple_closeDevice :
    Triple deviceHandles.world (fun u l => Holding device connected u l ∧ u.isOpen = true)
      closeDevice fun _ => Closed device := by
  refine Triple.bind (Q := fun r u l => r = .ok () ∧
      Owns (heldBy device (some { u with isOpen := false })) l)
    (Triple.handles ?_) (fun _ => Triple.modify fun u l hl => ⟨hl.2, rfl⟩) ?_
  · rintro u l ⟨hl, hopen⟩ r
    have hone : heldBy device (some u) .tty = 1 := by simp [heldBy, hopen]
    refine ⟨rfl, Owns.congr (hl.owns.release (k := .tty) (by omega)) fun k => ?_⟩
    rw [hone]
    cases k <;> rfl
  · rintro e u l ⟨h, -⟩
    cases h

/-- Closing gives the line back, where it is open. -/
theorem triple_close :
    Triple deviceHandles.world (Holding device connected) close fun _ => Closed device := by
  have hclear : Keeps deviceHandles.world (Closed device) clearLines :=
    Keeps.modify fun u l hl => ⟨hl.owns, hl.isClosed⟩
  refine Triple.read fun v => Triple.ite (fun hv => ?_) fun hv => ?_
  · refine Triple.bind ((@triple_closeDevice device connected).conseq ?_ fun _ _ _ hl => hl)
      (fun _ => hclear) fun _ _ _ hl => hl
    rintro u l ⟨rfl, hl⟩
    exact ⟨hl, hv⟩
  · refine hclear.conseq ?_ fun _ _ _ hl => hl
    rintro u l ⟨rfl, hl⟩
    exact ⟨hl.owns, by simpa using hv⟩

/-- A failure to open is reported with the line closed. -/
theorem triple_giveUp {rest : Method Bool}
    (hrest : Triple deviceHandles.world (Closed device) rest fun r u l =>
      Closed device u l ∧ r ≠ .ok true) :
    Triple deviceHandles.world (fun u l => Holding device True u l ∧ u.isOpen = true)
      (do closeDevice; rest) fun r => Holding device (r = .ok true) := by
  refine Triple.bind triple_closeDevice (fun _ => ?_)
    fun e u l hl => hl.holding fun h => by cases h
  exact hrest.conseq (fun _ _ hl => hl) fun r u l hl => hl.1.holding hl.2

/-- The new driver of a board finds its board with the line open, and does not with it closed. -/
theorem triple_initializeBoard :
    Triple deviceHandles.world (Closed device) (initializeBoard rounds)
      fun r => Holding device (r = .ok true) := by
  refine Triple.read fun v => ?_
  refine Triple.bind (Q := fun r u l => (∃ opened, r = .ok opened) ∧ (r = .ok (.ok ()) →
        Owns (heldBy device (some { u with isOpen := true })) l) ∧
      ∀ reason, r = .ok (.error reason) → Closed device u l) (Triple.handles ?_) (fun opened => ?_)
    ?_
  · rintro u l ⟨rfl, hl⟩ opened
    refine ⟨⟨opened, rfl⟩, ?_, ?_⟩
    · rintro ⟨⟩
      have hnone : heldBy device (some v) .tty = 0 := by simp [heldBy, hl.isClosed]
      refine Owns.congr (hl.owns.acquire (k := .tty)) fun k => ?_
      rw [hnone]
      cases k <;> rfl
    · rintro reason ⟨⟩
      exact hl
  · cases opened with
    | error reason =>
        refine Triple.bind (Q := fun _ => Closed device) (Triple.modify fun u l hl => ?_)
          (fun _ => Triple.pure fun u l hl => hl.holding fun h => by cases h)
          fun e u l hl => hl.holding fun h => by cases h
        have hclosed := hl.2.2 reason rfl
        exact ⟨hclosed.owns, hclosed.isClosed⟩
    | ok _ =>
        refine Triple.bind (Q := fun _ u l => Holding device True u l ∧ u.isOpen = true)
          (Triple.modify fun u l hl => ⟨⟨hl.2.1 rfl, fun _ => rfl⟩, rfl⟩) (fun _ => ?_)
          fun e u l hl => ⟨hl.1.owns, fun h => by cases h⟩
        have hopened : KeepsOpen device True configurePort := keepsOpen_configurePort
        refine Triple.bind hopened (fun configured => ?_)
          fun e u l hl => ⟨hl.1.owns, fun h => by cases h⟩
        refine Triple.ite (fun _ => ?_) fun _ =>
          triple_giveUp (Triple.pure fun u l hl => ⟨hl, by simp⟩)
        refine Triple.bind keepsOpen_flush (fun _ => ?_)
          fun e u l hl => ⟨hl.1.owns, fun h => by cases h⟩
        refine Triple.bind (keepsOpen_modify fun _ => rfl) (fun _ => ?_)
          fun e u l hl => ⟨hl.1.owns, fun h => by cases h⟩
        have hexchange : KeepsHolding device True (exchange rounds "STATUS".toList 1000) :=
          keepsHolding_exchange _ _
        refine Triple.bind (hexchange.conseq (fun _ _ hl => hl.1) fun _ _ _ hl => hl)
          (fun response => ?_) fun e u l hl => ⟨hl.owns, fun h => by cases h⟩
        cases response with
        | some _ => exact Triple.pure fun u l hl => ⟨hl.owns, fun _ => hl.connected trivial⟩
        | none =>
            refine Triple.conseq (triple_giveUp ?_) (fun u l hl => ⟨hl, hl.connected trivial⟩)
              fun _ _ _ hl => hl
            refine Triple.bind (Q := fun _ => Closed device)
              (Triple.modify fun u l hl => ⟨hl.owns, hl.isClosed⟩)
              (fun _ => Triple.pure fun u l hl => ⟨hl, by simp⟩) fun e u l hl => ⟨hl, by simp⟩
  · rintro e u l ⟨⟨opened, h⟩, -⟩
    cases h

/-- **Every other method of the driver** keeps what its fields say about the line. -/
theorem keepsHolding_boardMethod {c : BoardCall} (hc : c ≠ .initializeBoard) :
    KeepsHolding device connected (boardMethod rounds c) := by
  cases c with
  | initializeBoard => exact (hc rfl).elim
  | set c =>
      cases c with
      | setMuxRoute | disconnectMux | setGain =>
          refine Keeps.bind (Keeps.ite (fun _ => ?_) fun _ => ?_) fun done => Keeps.pure _
          · exact keepsHolding_refuse _
          · exact keepsHolding_command _
      | reset => exact Keeps.bind (keepsHolding_command _) fun done => Keeps.pure _
  | getStatus => exact Keeps.bind (keepsHolding_exchange _ _) fun _ => Keeps.pure _
  | queryGains | queryRouting =>
      refine Keeps.bind (keepsHolding_exchange _ _) fun status => ?_
      cases status with
      | none => exact Keeps.pure _
      | some status => exact Keeps.pure _
  | getLastError =>
      exact Keeps.bind (Keeps.bind Keeps.get fun u => Keeps.pure _) fun _ => Keeps.pure _

end Uart

end Afm
