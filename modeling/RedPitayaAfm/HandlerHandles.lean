/-
**The handles of the server.**

The command handler makes, opens, closes and deletes its drivers as commands come in.  Any call of
the operating system may fail, and any call of a driver may end in an exception.  No handle is lost
on the way.

Main definitions:

* `Afm.Drivers`, `Afm.drivers` — the drivers and the ledger as an environment of the handler;
* `Afm.CommandHandler.Tended` — the pointers of the handler and the handles hang together;
* `Afm.CommandHandler.destroy` — the destructor of the handler;
* `Afm.CommandHandler.Tenure` — any commands, one after the other.

Main results:

* `Afm.Drivers.Sound.step` — what the calls keep that make and delete no driver;
* `Afm.CommandHandler.keepsTended_handleCommand` — one command;
* `Afm.CommandHandler.handles_accounted` — **no handle is lost**.
-/

import RedPitayaAfm.DriverHandles
import RedPitayaAfm.MeasureSession

set_option relaxedAutoImplicit false
set_option autoImplicit false

namespace Afm

open Effect Fpga

open Act (Confined)

/-! ### The drivers behind the handler -/

/-- The drivers, where there are any, and the handles that are open. -/
structure Drivers where
  device : Option RedPitayaHardware := none
  driver : Option Uart.State := none
  ledger : Ledger Handle := {}

namespace Drivers

/-- The destructor of the FPGA driver, where there is one, cleans up. -/
def DeviceDeleted (w : Drivers) (l : Ledger Handle) : Prop :=
  match w.device with
  | none => l = w.ledger
  | some h => ∃ h',
      Runs memoryHandles.world w.ledger (RedPitayaHardware.cleanup h) (.ok (), h') l

/-- The destructor of the board driver, where there is one, closes the line. -/
def DriverDeleted (w : Drivers) (l : Ledger Handle) : Prop :=
  match w.driver with
  | none => l = w.ledger
  | some u => ∃ u', Runs deviceHandles.world w.ledger (Uart.close u) (.ok (), u') l

/-- What the drivers may do.  Their methods are run, and the operating system may reply anything;
an exception may come before a method or after it. -/
def Step (rounds : ℕ) (w : Drivers) : (c : ServerCall) → server.Reply c → Drivers → Prop
  | .hardwareFactory, .ok made, w' => ∃ l, w.DeviceDeleted l ∧
      w' = { w with device := if made then some {} else none, ledger := l }
  | .hardwareFactory, .error _, w' => w' = w
  | .hardware c, reply, w' =>
      (w' = w ∧ ∃ what, reply = .error what) ∨ ∃ h a h' l, w.device = some h ∧
        Runs memoryHandles.world w.ledger (RedPitayaHardware.method c h) (.ok a, h') l ∧
        w' = { w with device := some h', ledger := l } ∧ ∀ value, reply = .ok value → value = a
  | .resetMeasurement, done, w' => ∃ h h' l, w.device = some h ∧
      Runs memoryHandles.world w.ledger (RedPitayaHardware.resetMeasurement h) (.ok done, h') l ∧
      w' = { w with device := some h', ledger := l }
  | .cleanup, _, w' => ∃ h h' l, w.device = some h ∧
      Runs memoryHandles.world w.ledger (RedPitayaHardware.cleanup h) (.ok (), h') l ∧
      w' = { w with device := some h', ledger := l }
  | .deleteHardware, _, w' => ∃ l, w.DeviceDeleted l ∧ w' = { w with device := none, ledger := l }
  | .boardFactory, .ok made, w' => ∃ l, w.DriverDeleted l ∧
      w' = { w with driver := if made then some .fresh else none, ledger := l }
  | .boardFactory, .error _, w' => w' = w
  | .board c, reply, w' =>
      (w' = w ∧ ∃ what, reply = .error what) ∨ ∃ u a u' l, w.driver = some u ∧
        Runs deviceHandles.world w.ledger (Uart.boardMethod rounds c u) (.ok a, u') l ∧
        w' = { w with driver := some u', ledger := l } ∧ ∀ value, reply = .ok value → a = .ok value
  | .closeBoard, _, w' => ∃ u u' l, w.driver = some u ∧
      Runs deviceHandles.world w.ledger (Uart.close u) (.ok (), u') l ∧
      w' = { w with driver := some u', ledger := l }
  | .deleteBoard, _, w' => ∃ l, w.DriverDeleted l ∧ w' = { w with driver := none, ledger := l }
  | _, _, w' => w' = w

/-- The fields of the drivers say which handles are open.  If the hardware is there, its windows are
mapped (`mapped`); if the board is there, its line is open (`connected`). -/
structure Sound (mapped connected : Prop) (w : Drivers) : Prop where
  owns : Owns (heldBy w.device w.driver) w.ledger
  opened : ∀ h, w.device = some h → (h.regs || h.bram) = true → 0 ≤ h.memFd
  mapped : mapped → ∃ h, w.device = some h ∧ h.isMapped = true
  connected : connected → ∃ u, w.driver = some u ∧ u.isOpen = true

variable {mapped connected : Prop} {w w' : Drivers} {l : Ledger Handle} {rounds : ℕ}

theorem Sound.mono (hw : Sound mapped connected w) {mapped' connected' : Prop}
    (hm : mapped' → mapped) (hc : connected' → connected) : Sound mapped' connected' w :=
  ⟨hw.owns, hw.opened, fun h => hw.mapped (hm h), fun h => hw.connected (hc h)⟩

theorem Sound.device (hw : Sound mapped connected w) {h : RedPitayaHardware}
    (hd : w.device = some h) : RedPitayaHardware.Holding w.driver mapped h w.ledger where
  owns := hd ▸ hw.owns
  opened := hw.opened h hd
  mapped hm := by
    obtain ⟨h', hd', hmapped⟩ := hw.mapped hm
    obtain rfl : h = h' := Option.some.inj (hd.symm.trans hd')
    exact hmapped

theorem Sound.of_device {mapped' : Prop} (hw : Sound mapped connected w) {h : RedPitayaHardware}
    (hl : RedPitayaHardware.Holding w.driver mapped' h l) :
    Sound mapped' connected { w with device := some h, ledger := l } where
  owns := hl.owns
  opened h' hd := by
    obtain rfl : h = h' := Option.some.inj hd
    exact hl.opened
  mapped hm := ⟨h, rfl, hl.mapped hm⟩
  connected := hw.connected

theorem Sound.driver (hw : Sound mapped connected w) {u : Uart.State} (hd : w.driver = some u) :
    Uart.Holding w.device connected u w.ledger where
  owns := hd ▸ hw.owns
  connected hc := by
    obtain ⟨u', hd', hopen⟩ := hw.connected hc
    obtain rfl : u = u' := Option.some.inj (hd.symm.trans hd')
    exact hopen

theorem Sound.of_driver {connected' : Prop} (hw : Sound mapped connected w) {u : Uart.State}
    (hl : Uart.Holding w.device connected' u l) :
    Sound mapped connected' { w with driver := some u, ledger := l } where
  owns := hl.owns
  opened := hw.opened
  mapped := hw.mapped
  connected hc := ⟨u, rfl, hl.connected hc⟩

/-- A deleted driver leaves nothing of the FPGA open. -/
theorem Sound.deviceDeleted (hw : Sound mapped connected w) (h : w.DeviceDeleted l) :
    Owns (heldBy none w.driver) l := by
  unfold DeviceDeleted at h
  cases hd : w.device with
  | none =>
      rw [hd] at h
      obtain rfl := h
      exact hd ▸ hw.owns
  | some device =>
      rw [hd] at h
      obtain ⟨h', hrun⟩ := h
      exact (RedPitayaHardware.triple_cleanup device _ (hw.device hd) _ h' l hrun).owns_none

/-- A deleted driver leaves no line open. -/
theorem Sound.driverDeleted (hw : Sound mapped connected w) (h : w.DriverDeleted l) :
    Owns (heldBy w.device none) l := by
  unfold DriverDeleted at h
  cases hd : w.driver with
  | none =>
      rw [hd] at h
      obtain rfl := h
      exact hd ▸ hw.owns
  | some driver =>
      rw [hd] at h
      obtain ⟨u', hrun⟩ := h
      exact (Uart.triple_close driver _ (hw.driver hd) _ u' l hrun).owns_none

/-- Without a driver for the FPGA. -/
theorem Sound.no_device (hw : Sound mapped connected w) (h : Owns (heldBy none w.driver) l) :
    Sound False connected { w with device := none, ledger := l } :=
  ⟨h, fun _ hd => (by cases hd), False.elim, hw.connected⟩

/-- With a new driver for the FPGA. -/
theorem Sound.new_device (hw : Sound mapped connected w) (h : Owns (heldBy none w.driver) l) :
    Sound False connected { w with device := some {}, ledger := l } := by
  refine ⟨h.congr fun k => ?_, fun h' hd hm => ?_, False.elim, hw.connected⟩
  · cases k <;> rfl
  · obtain rfl : {} = h' := Option.some.inj hd
    cases hm

/-- Without a driver for the board. -/
theorem Sound.no_driver (hw : Sound mapped connected w) (h : Owns (heldBy w.device none) l) :
    Sound mapped False { w with driver := none, ledger := l } :=
  ⟨h, hw.opened, hw.mapped, False.elim⟩

/-- Calls that leave the drivers where they are, and the line open or closed. -/
def IsWork : ServerCall → Prop
  | .hardwareFactory => False
  | .cleanup => False
  | .deleteHardware => False
  | .boardFactory => False
  | .board .initializeBoard => False
  | .closeBoard => False
  | .deleteBoard => False
  | _ => True

/-- **What such calls keep.** -/
theorem Sound.step {c : ServerCall} {reply : server.Reply c} (hc : IsWork c)
    (hw : Sound mapped connected w) (h : Step rounds w c reply w') :
    Sound mapped connected w' ∧ w'.device.isSome = w.device.isSome ∧
      w'.driver.isSome = w.driver.isSome := by
  cases c with
  | hardware c =>
      obtain ⟨rfl, -⟩ | ⟨h, a, h', l, hd, hrun, rfl, -⟩ := h
      · exact ⟨hw, rfl, rfl⟩
      have hl := RedPitayaHardware.keepsHolding_method c h _ (hw.device hd) _ h' l hrun
      exact ⟨hw.of_device hl, by simp [hd], rfl⟩
  | resetMeasurement =>
      obtain ⟨h, h', l, hd, hrun, rfl⟩ := h
      have hl :=
        RedPitayaHardware.keepsHolding_resetMeasurement h _ (hw.device hd) _ h' l hrun
      exact ⟨hw.of_device hl, by simp [hd], rfl⟩
  | board c =>
      have hne : c ≠ .initializeBoard := by
        rintro rfl
        exact hc
      obtain ⟨rfl, -⟩ | ⟨u, a, u', l, hd, hrun, rfl, -⟩ := h
      · exact ⟨hw, rfl, rfl⟩
      have hl := Uart.keepsHolding_boardMethod hne u _ (hw.driver hd) _ u' l hrun
      exact ⟨hw.of_driver hl, rfl, by simp [hd]⟩
  | cancelCheck | now | sleep _ | planFft _ =>
      obtain rfl : w' = w := h
      exact ⟨hw, rfl, rfl⟩
  | hardwareFactory | cleanup | deleteHardware | boardFactory | closeBoard | deleteBoard =>
      exact hc.elim

end Drivers

/-- The drivers as an environment of the handler. -/
abbrev drivers (rounds : ℕ) : World server := ⟨Drivers, Drivers.Step rounds⟩

/-! ### The handler -/

namespace CommandHandler

section Tended

variable {rounds : ℕ} {P : Platform} {mapped connected : Prop} {s s' : CommandHandler}
  {w w' : Drivers} {α : Type}

/-- The pointers of the handler are set exactly where there are drivers. -/
structure Fits (mapped connected : Prop) (s : CommandHandler) (w : Drivers) : Prop
    extends Drivers.Sound mapped connected w where
  hardware : w.device.isSome = s.hardware
  board : w.driver.isSome = s.board

theorem Fits.mono (h : Fits mapped connected s w) {mapped' connected' : Prop}
    (hm : mapped' → mapped) (hc : connected' → connected) : Fits mapped' connected' s w :=
  ⟨h.toSound.mono hm hc, h.hardware, h.board⟩

/-- Between two commands: an initialized handler has its windows mapped, and the line to the board
open if the board was found. -/
def Tended (s : CommandHandler) (w : Drivers) : Prop :=
  Fits (s.status.hardwareInitialized = true)
    (s.status.hardwareInitialized = true ∧ s.status.boardConnected = true) s w

/-- A handler that is not initialized promises nothing. -/
theorem Fits.tended (h : Fits mapped connected s w)
    (hi : s.status.hardwareInitialized = false) : Tended s w := by
  refine h.mono (fun hinit => ?_) fun hinit => ?_
  · rw [hi] at hinit
    cases hinit
  · rw [hi] at hinit
    cases hinit.1

/-- What depends on the drivers alone. -/
theorem Fits.of_run {R : CommandHandler → CommandHandler → Prop} {m : Method α}
    (hm : Confined Drivers.IsWork R m)
    (hR : ∀ s s', R s s' → s'.hardware = s.hardware ∧ s'.board = s.board)
    (h : Fits mapped connected s w) {r : Except Fault α}
    (hrun : Runs (drivers rounds) w (m s) (r, s') w') : Fits mapped connected s' w' := by
  obtain ⟨hhardware, hboard⟩ := hR s s' (hm.moves _ _ _ _ _ _ hrun)
  have hkeeps := Runs.invariant_of_only
    (P := fun w : Drivers => w.Sound mapped connected ∧ w.device.isSome = s.hardware ∧
      w.driver.isSome = s.board) (hm.only s) ?_ hrun ⟨h.toSound, h.hardware, h.board⟩
  · exact ⟨hkeeps.1, hkeeps.2.1.trans hhardware.symm, hkeeps.2.2.trans hboard.symm⟩
  · rintro w c reply w' hc ⟨hw, hd, hb⟩ hstep
    obtain ⟨hsound, hdevice, hdriver⟩ := hw.step hc hstep
    exact ⟨hsound, hdevice.trans hd, hdriver.trans hb⟩

/-- The pointers and what is known of the devices stay. -/
structure SameRoles (s s' : CommandHandler) : Prop where
  hardware : s'.hardware = s.hardware
  board : s'.board = s.board
  initialized : s'.status.hardwareInitialized = s.status.hardwareInitialized
  connected : s'.status.boardConnected = s.status.boardConnected

instance : Std.Refl SameRoles where
  refl _ := ⟨rfl, rfl, rfl, rfl⟩

instance : IsTrans CommandHandler SameRoles where
  trans _ _ _ h h' :=
    ⟨h'.hardware.trans h.hardware, h'.board.trans h.board, h'.initialized.trans h.initialized,
      h'.connected.trans h.connected⟩

/-- Methods that work with the drivers they find. -/
abbrev Works (m : Method α) : Prop := Confined Drivers.IsWork SameRoles m

theorem Works.keepsTended {m : Method α} (hm : Works m) : Keeps (drivers rounds) Tended m := by
  intro s w h r s' w' hrun
  have hsame := hm.moves _ _ _ _ _ _ hrun
  refine (h.of_run hm (fun _ _ h => ⟨h.hardware, h.board⟩) hrun).mono ?_ ?_
  · rw [hsame.initialized]
    exact id
  · rw [hsame.initialized, hsame.connected]
    exact id

theorem works_of_quiet {m : Method α} (hm : Quiet m) : Works m :=
  hm.mono (fun _ h => h.elim) fun _ _ h => ⟨h.hardware, h.board, h.initialized, h.connected⟩

theorem works_of_measures {m : Method α} (hm : Measures m) : Works m := by
  refine hm.mono (fun c hc => ?_) fun _ _ h => ⟨h.hardware, h.board, h.initialized, h.connected⟩
  cases c with
  | hardware | resetMeasurement | cancelCheck | now | sleep | planFft => trivial
  | _ => exact hc.elim

theorem works_boardCall {c : BoardCall} (hc : c ≠ .initializeBoard) : Works (boardCall c) := by
  refine (boardCall_reads (C := Drivers.IsWork) ?_).mono (fun _ h => h) fun s _ heq =>
    heq ▸ refl_of SameRoles s
  cases c with
  | initializeBoard => exact hc rfl
  | _ => trivial

theorem works_boardError : Works boardError :=
  Confined.bind (works_boardCall (by simp)) fun _ => Confined.pure _

theorem works_boardCommand {c : BoardSetting} {done : Method Reply} (hdone : Quiet done) :
    Works (boardCommand c done) := by
  refine Confined.bind (works_boardCall (by simp)) fun confirmed => ?_
  refine Confined.ite (Confined.bind (Confined.modify fun s => ?_) fun _ => works_of_quiet hdone)
    works_boardError
  obtain ⟨hhardware, hboard, hstatus⟩ := follow_fields s c
  exact ⟨hhardware, hboard, by rw [hstatus], by rw [hstatus]⟩

/-- A command works if what follows its checks does. -/
theorem keepsTended_checked {check : CommandHandler → Except Reply α} {body : α → Method Reply}
    (h : ∀ a, Works (body a)) : Keeps (drivers rounds) Tended (checked check body) :=
  keeps_checked fun _ a _ => (h a).keepsTended

theorem keepsTended_handleBoardStatus : Keeps (drivers rounds) Tended handleBoardStatus := by
  refine keeps_checked fun _ _ _ => ?_
  refine Keeps.bind (works_boardCall (by simp)).keepsTended fun text => ?_
  cases text with
  | none => exact works_boardError.keepsTended
  | some text =>
      refine Triple.read fun v => ?_
      cases hrefresh : v.refreshFromStatus text with
      | error m => exact Triple.throw fun _ _ h => h.2
      | ok v' =>
          refine Triple.bind (Q := fun _ => Tended) (Triple.modify ?_)
            (fun _ => Triple.pure fun _ _ h => h) fun _ _ _ h => h
          rintro s w ⟨rfl, h⟩
          obtain ⟨hhardware, hboard, hstatus⟩ := refreshFromStatus_fields hrefresh
          unfold Tended
          rw [hstatus]
          exact ⟨h.toSound, h.hardware.trans hhardware.symm, h.board.trans hboard.symm⟩

/-! #### Releasing -/

/-- Nothing is open. -/
theorem ledger_eq_empty {l : Ledger Handle} (h : Owns (heldBy none none) l) : l = {} :=
  h.eq_empty fun k => by cases k <;> rfl

/-- The driver of the FPGA is gone, and the handler knows it or is about to. -/
structure DeviceGone (connected : Prop) (s : CommandHandler) (w : Drivers) : Prop
    extends Drivers.Sound False connected w where
  device : w.device = none
  board : w.driver.isSome = s.board

/-- A null pointer holds nothing. -/
theorem Fits.no_hardware (h : Fits mapped connected s w) (hs : s.hardware = false) :
    Fits False connected s w ∧ w.device = none := by
  have hnone : w.device = none := by
    rw [← Option.not_isSome_iff_eq_none, h.hardware, hs]
    simp
  exact ⟨h.mono False.elim id, hnone⟩

/-- `m_hardware.reset()` -/
theorem triple_deleteHardware :
    Triple (drivers rounds) (Fits mapped connected) deleteHardware fun r s w =>
      r = .ok () ∧ Fits False connected s w ∧ w.device = none := by
  refine Triple.read fun v => Triple.ite (fun _ => ?_) fun hv => Triple.pure ?_
  · refine Triple.callThen (fun _ => DeviceGone connected) ?_ fun _ => Triple.modify fun s w h =>
      ⟨rfl, ⟨h.toSound, by rw [h.device]; rfl, h.board⟩, h.device⟩
    rintro s w ⟨rfl, h⟩ r w' ⟨l, hdeleted, rfl⟩
    exact ⟨h.toSound.no_device (h.toSound.deviceDeleted hdeleted), rfl, h.board⟩
  · rintro s w ⟨rfl, h⟩
    exact ⟨rfl, h.no_hardware (by simpa using hv)⟩

variable (rounds) in
theorem step_cleanup (h : Fits mapped connected s w)
    (hstep : Drivers.Step rounds w .cleanup () w') : Fits False connected s w' := by
  obtain ⟨device, device', l, hd, hrun, rfl⟩ := hstep
  have hclosed := RedPitayaHardware.triple_cleanup device _ (h.device hd) _ device' l hrun
  refine ⟨h.toSound.of_device (hclosed.holding id), ?_, h.board⟩
  rw [← h.hardware, hd]
  rfl

theorem triple_releaseHardware :
    Triple (drivers rounds) (Fits mapped connected) releaseHardware fun r s w =>
      r = .ok () ∧ Fits False connected s w ∧ w.device = none := by
  refine Triple.read fun v => Triple.ite (fun _ => ?_) fun hv => Triple.pure ?_
  · exact Triple.callThen (fun _ => Fits False connected)
      (fun s w h r w' hstep => step_cleanup rounds h.2 hstep) fun _ => triple_deleteHardware
  · rintro s w ⟨rfl, h⟩
    exact ⟨rfl, h.no_hardware (by simpa using hv)⟩

variable (rounds) in
theorem step_closeBoard (h : Fits mapped connected s w)
    (hstep : Drivers.Step rounds w .closeBoard () w') :
    Fits mapped False s w' ∧ w'.device = w.device := by
  obtain ⟨u, u', l, hd, hrun, rfl⟩ := hstep
  have hclosed := Uart.triple_close u _ (h.driver hd) _ u' l hrun
  refine ⟨⟨h.toSound.of_driver (hclosed.holding id), h.hardware, ?_⟩, rfl⟩
  rw [← h.board, hd]
  rfl

theorem triple_releaseBoard :
    Triple (drivers rounds) (fun s w => Fits mapped connected s w ∧ w.device = none) releaseBoard
      fun r s w => r = .ok () ∧ Fits mapped False s w ∧ w.ledger = {} := by
  refine Triple.read fun v => Triple.ite (fun _ => ?_) fun hv => Triple.pure ?_
  · refine Triple.callThen (fun _ s (w : Drivers) => Fits mapped False s w ∧ w.device = none) ?_
      fun _ => Triple.callThen (fun _ s (w : Drivers) => w.Sound mapped False ∧
        w.device.isSome = s.hardware ∧ w.driver = none ∧ w.ledger = {}) ?_ fun _ =>
          Triple.modify fun s w h => ⟨rfl, ⟨h.1, h.2.1, by rw [h.2.2.1]; rfl⟩, h.2.2.2⟩
    · rintro s w ⟨-, h, hnone⟩ r w' hstep
      obtain ⟨hfits, hdevice⟩ := step_closeBoard rounds h hstep
      exact ⟨hfits, hdevice.trans hnone⟩
    · rintro s w ⟨h, hnone⟩ r w' ⟨l, hdeleted, rfl⟩
      have howns := h.toSound.driverDeleted hdeleted
      exact ⟨h.toSound.no_driver howns, h.hardware, rfl, ledger_eq_empty (hnone ▸ howns)⟩
  · rintro s w ⟨rfl, h, hnone⟩
    have hb : v.board = false := by simpa using hv
    have hdriver : w.driver = none := by
      rw [← Option.not_isSome_iff_eq_none, h.board, hb]
      simp
    have howns := h.owns
    rw [hnone, hdriver] at howns
    exact ⟨rfl, h.mono id False.elim, ledger_eq_empty howns⟩

/-- **A reset leaves nothing open.** -/
theorem triple_handleRst :
    Triple (drivers rounds) Tended handleRst fun _ s w => Tended s w ∧ w.ledger = {} := by
  refine Triple.bind (triple_releaseHardware.conseq
    (fun _ _ (h : Tended _ _) => h.mono False.elim False.elim) fun _ _ _ h => h) (fun _ => ?_)
    fun e s w h => by cases h.1
  refine Triple.bind (triple_releaseBoard.conseq (fun _ _ h => h.2) fun _ _ _ h => h) (fun _ => ?_)
    fun e s w h => by cases h.1
  refine Triple.modifyThen (fun s w => Tended s w ∧ w.ledger = {}) (fun s w h => ?_)
    (Triple.pure fun _ _ h => h)
  exact ⟨Fits.tended ⟨h.2.1.toSound, h.2.1.hardware, h.2.1.board⟩ rfl, h.2.2⟩

/-- **A shutdown of an initialized handler leaves nothing open.** -/
theorem triple_handleSystDeinit :
    Triple (drivers rounds)
      (fun s w => Tended s w ∧ s.status.hardwareInitialized = true) handleSystDeinit
      fun _ s w => Tended s w ∧ w.ledger = {} := by
  refine Triple.read fun v => Triple.ite (fun _ => ?_) fun hv => ?_
  · refine Triple.bind (triple_releaseHardware.conseq
      (fun _ _ h => h.2.1.mono False.elim False.elim) fun _ _ _ h => h) (fun _ => ?_)
      fun e s w h => by cases h.1
    refine Triple.bind (triple_releaseBoard.conseq (fun _ _ h => h.2) fun _ _ _ h => h)
      (fun _ => ?_) fun e s w h => by cases h.1
    refine Triple.modifyThen (fun s w => Tended s w ∧ w.ledger = {}) (fun s w h => ?_)
      (Triple.pure fun _ _ h => h)
    exact ⟨Fits.tended ⟨h.2.1.toSound, h.2.1.hardware, h.2.1.board⟩ rfl, h.2.2⟩
  · rintro s w ⟨rfl, h, hi⟩
    exact absurd hi hv

/-- A handler that is not initialized has nothing to shut down. -/
theorem keepsTended_handleSystDeinit : Keeps (drivers rounds) Tended handleSystDeinit := by
  intro s w h r s' w' hrun
  by_cases hi : s.status.hardwareInitialized = true
  · exact (triple_handleSystDeinit s w ⟨h, hi⟩ r s' w' hrun).1
  · simp only [handleSystDeinit, Act.bind_apply, Act.get_apply, Prog.bind_done, hi] at hrun
    obtain ⟨heq, rfl⟩ := runs_done.1 hrun
    cases heq
    exact h

/-! #### Initialization -/

/-- A handler that is not initialized. -/
structure Booting (mapped connected : Prop) (s : CommandHandler) (w : Drivers) : Prop
    extends Fits mapped connected s w where
  uninitialized : s.status.hardwareInitialized = false

theorem Booting.tended (h : Booting mapped connected s w) : Tended s w :=
  h.toFits.tended h.uninitialized

theorem Booting.mono (h : Booting mapped connected s w) {mapped' connected' : Prop}
    (hm : mapped' → mapped) (hc : connected' → connected) : Booting mapped' connected' s w :=
  ⟨h.toFits.mono hm hc, h.uninitialized⟩

/-- What a factory has returned is stored, or its exception passed on. -/
theorem triple_store {Q : Except Text Bool → CommandHandler → Drivers → Prop}
    {R : Except Fault Unit → CommandHandler → Drivers → Prop}
    {f : Bool → CommandHandler → CommandHandler} (reply : Except Text Bool)
    (hok : ∀ made s w, Q (.ok made) s w → R (.ok ()) (f made s) w)
    (herror : ∀ what s w, Q (.error what) s w → R (.error (.thrown what)) s w) :
    Triple (drivers rounds) (Q reply) (do let made ← orThrow reply; Act.modify (f made)) R := by
  cases reply with
  | ok made =>
      refine Triple.bind (Q := fun r s w => r = .ok made ∧ Q (.ok made) s w)
        (Triple.pure fun _ _ h => ⟨rfl, h⟩) (fun made' => Triple.modify ?_) ?_
      · rintro s w ⟨heq, h⟩
        cases heq
        exact hok made s w h
      · rintro e s w ⟨heq, -⟩
        cases heq
  | error what =>
      refine Triple.bind (Q := fun r s w => r = .error (.thrown what) ∧ Q (.error what) s w)
        (Triple.throw fun _ _ h => ⟨rfl, h⟩) (fun made => Triple.modify ?_) ?_
      · rintro s w ⟨heq, -⟩
        cases heq
      · rintro e s w ⟨heq, h⟩
        cases heq
        exact herror what s w h

/-- What the factory of the FPGA driver leaves: the old driver, where there was one, is deleted. -/
def DeviceMade (connected : Prop) : Except Text Bool → CommandHandler → Drivers → Prop
  | .ok made, s, w => w.Sound False connected ∧ w.device.isSome = made ∧
      w.driver.isSome = s.board ∧ s.status.hardwareInitialized = false
  | .error _, s, w => Booting False connected s w

/-- `m_hardware = m_hardwareFactory()` -/
theorem triple_makeHardware :
    Keeps (drivers rounds) (Booting False connected) makeHardware := by
  refine Triple.callThen (DeviceMade connected) ?_ fun reply => triple_store reply ?_ ?_
  · rintro s w h (what | made) w' hstep
    · obtain rfl : w' = w := hstep
      exact h
    · obtain ⟨l, hdeleted, rfl⟩ := hstep
      have howns := h.toSound.deviceDeleted hdeleted
      cases made with
      | true => exact ⟨h.toSound.new_device howns, rfl, h.board, h.uninitialized⟩
      | false => exact ⟨h.toSound.no_device howns, rfl, h.board, h.uninitialized⟩
  · rintro made s w ⟨hsound, hdevice, hdriver, hi⟩
    exact ⟨⟨hsound, hdevice, hdriver⟩, hi⟩
  · exact fun _ _ _ h => h

/-- What the factory of the board driver leaves: the old driver, where there was one, is deleted,
and the line of the new one is closed. -/
def DriverMade (mapped : Prop) : Except Text Bool → CommandHandler → Drivers → Prop
  | .ok made, s, w => w.Sound mapped False ∧ w.device.isSome = s.hardware ∧
      w.driver.isSome = made ∧ s.status.hardwareInitialized = false ∧
      ∀ u, w.driver = some u → Uart.Closed w.device u w.ledger
  | .error _, s, w => Booting mapped False s w

/-- `m_board = m_boardFactory()` -/
theorem triple_makeBoard :
    Triple (drivers rounds) (Booting mapped False) makeBoard fun r s w =>
      Booting mapped False s w ∧
        (r = .ok () → ∀ u, w.driver = some u → Uart.Closed w.device u w.ledger) := by
  refine Triple.callThen (DriverMade mapped) ?_ fun reply => triple_store reply ?_ ?_
  · rintro s w h (what | made) w' hstep
    · obtain rfl : w' = w := hstep
      exact h
    · obtain ⟨l, hdeleted, rfl⟩ := hstep
      have howns := h.toSound.driverDeleted hdeleted
      cases made with
      | true =>
          have hfresh : Uart.Closed w.device Uart.State.fresh l := by
            refine ⟨howns.congr fun k => ?_, rfl⟩
            cases k <;> rfl
          refine ⟨⟨hfresh.owns, h.opened, h.mapped, False.elim⟩, h.hardware, rfl, h.uninitialized,
            fun u hu => ?_⟩
          obtain rfl : Uart.State.fresh = u := Option.some.inj hu
          exact hfresh
      | false =>
          exact ⟨h.toSound.no_driver howns, h.hardware, rfl, h.uninitialized,
            fun u hu => (by cases hu)⟩
  · rintro made s w ⟨hsound, hdevice, hdriver, hi, hclosed⟩
    exact ⟨⟨⟨hsound, hdevice, hdriver⟩, hi⟩, fun _ => hclosed⟩
  · exact fun _ s w h => ⟨h, fun hok => by cases hok⟩

/-- Opening the hardware gives a driver with its windows mapped, or none is. -/
theorem triple_openHardware :
    Triple (drivers rounds) (Booting False connected) openHardware
      fun r => Booting (r = .ok true) connected := by
  refine Triple.bind triple_makeHardware (fun _ => ?_) fun _ _ _ h => h.mono (by simp) id
  refine Triple.read fun v => Triple.ite (fun _ => ?_) fun _ =>
    Triple.pure fun _ _ h => h.2.mono (by simp) id
  refine triple_hardwareCall (fun s w h => h.2.mono (by simp) id) ?_
  rintro s w reply w' ⟨-, h⟩ - (⟨rfl, what, rfl⟩ | ⟨device, a, device', l, hd, hrun, rfl, hreply⟩)
  · exact h.mono (by simp [caught]) id
  have hl := RedPitayaHardware.triple_initializeHardware device _ (h.device hd) _ device' l hrun
  have hsound : Drivers.Sound (caught reply = .ok true) connected
      { w with device := some device', ledger := l } := by
    have hheld : RedPitayaHardware.Holding w.driver (caught reply = .ok true) device' l := by
      refine ⟨hl.owns, hl.opened, fun hok => hl.mapped (.inr ?_)⟩
      cases reply with
      | ok value =>
          cases hok
          rw [hreply true rfl]
      | error what => cases hok
    exact h.toSound.of_device hheld
  refine ⟨⟨hsound, ?_, h.board⟩, h.uninitialized⟩
  rw [← h.hardware, hd]
  rfl

/-- Opening the board gives a driver with its line open, or none is. -/
theorem triple_openBoard :
    Triple (drivers rounds) (Booting mapped False) openBoard
      fun r => Booting mapped (r = .ok true) := by
  refine Triple.bind triple_makeBoard (fun _ => ?_) fun _ _ _ h => h.1.mono id (by simp)
  refine Triple.read fun v => Triple.ite (fun _ => ?_) fun _ =>
    Triple.pure fun _ _ h => h.2.1.mono id (by simp)
  rintro s w ⟨-, h, hclosed⟩ r s' w' hrun
  obtain ⟨rfl, ⟨reply, hstep, rfl⟩ | ⟨rfl, rfl⟩⟩ := boardCall_cases hrun
  · obtain ⟨rfl, what, rfl⟩ | ⟨u, a, u', l, hd, hmethod, rfl, hreply⟩ := hstep
    · exact h.mono id (by simp [caught])
    obtain ⟨found, u₁, l₁, hinit, hdone⟩ := Act.runs_bind_ok.1 hmethod
    obtain ⟨heq, rfl⟩ := runs_done.1 hdone
    cases heq
    have hl := Uart.triple_initializeBoard u _ (hclosed rfl u hd) _ u' l hinit
    have hsound : Drivers.Sound mapped (caught reply = .ok true)
        { w with driver := some u', ledger := l } := by
      refine h.toSound.of_driver ⟨hl.owns, fun hok => hl.connected ?_⟩
      cases reply with
      | ok value =>
          cases hok
          cases hreply true rfl
          rfl
      | error what => cases hok
    refine ⟨⟨hsound, h.hardware, ?_⟩, h.uninitialized⟩
    rw [← h.board, hd]
    rfl
  · exact h.mono id (by simp)

/-- What an initialization has opened; the board counts as connected if its line is open. -/
def HardwareReady (s : CommandHandler) (w : Drivers) : Prop :=
  Booting True (s.status.boardConnected = true) s w

theorem Works.keepsHardwareReady {m : Method α} (hm : Works m) :
    Keeps (drivers rounds) HardwareReady m := by
  intro s w h r s' w' hrun
  have hsame := hm.moves _ _ _ _ _ _ hrun
  have hfits := h.toFits.of_run hm (fun _ _ h => ⟨h.hardware, h.board⟩) hrun
  refine ⟨hfits.mono id ?_, hsame.initialized.trans h.uninitialized⟩
  rw [hsame.connected]
  exact id

theorem triple_connectBoard :
    Triple (drivers rounds) (Booting True False) connectBoard fun r s w =>
      (r = .ok () → HardwareReady s w) ∧ Tended s w := by
  refine Triple.read fun v => Triple.ite (fun _ => Triple.modify ?_) fun _ => ?_
  · rintro s w ⟨-, h⟩
    refine ⟨fun _ => ⟨⟨h.toSound.mono id ?_, h.hardware, h.board⟩, h.uninitialized⟩, ?_⟩
    · rintro ⟨⟩
    · exact Fits.tended ⟨h.toSound, h.hardware, h.board⟩ h.uninitialized
  · refine Triple.bind (triple_openBoard.conseq (fun _ _ h => h.2) fun _ _ _ h => h)
      (fun connected => Triple.modify fun s w h => ?_)
      fun e s w h => ⟨fun hok => (by cases hok), h.tended⟩
    have hready : HardwareReady { s with status.boardConnected := connected } w := by
      refine ⟨⟨h.toSound.mono id ?_, h.hardware, h.board⟩, h.uninitialized⟩
      rintro ⟨⟩
      rfl
    exact ⟨fun _ => hready, hready.tended⟩

theorem works_hardwareCall (c : HardwareCall) : Works (hardwareCall c) :=
  (hardwareCall_reads (C := Drivers.IsWork) trivial).mono (fun _ h => h) fun s _ heq =>
    heq ▸ refl_of SameRoles s

theorem works_makeSignalGen (decimation : ℕ) : Works (makeSignalGen decimation) :=
  works_of_measures (measures_makeSignalGen decimation)

theorem works_refreshIfConnected : Works refreshIfConnected := by
  refine refreshIfConnected_confined.mono (fun c hc => ?_) fun s s' h =>
    ⟨h.hardware, h.board, by rw [h.status], by rw [h.status]⟩
  cases c with
  | board c =>
      cases c with
      | initializeBoard => exact hc.elim
      | _ => trivial
  | _ => exact hc.elim

/-- With the hardware open: the board, the signal chain and the cache. -/
theorem triple_finishInit :
    Triple (drivers rounds) (Booting True False) finishInit fun r s w =>
      Tended s w ∧ ∀ reply, r = .ok reply → reply.status = .ok := by
  refine Triple.bind (Q := fun r s w => (r = .ok () → HardwareReady s w) ∧ Tended s w) ?_
    (fun _ => ?_) fun e s w h => ⟨h.2, fun reply hok => by cases hok⟩
  · refine Triple.bind triple_connectBoard (fun _ => ?_)
      fun e s w h => ⟨fun hok => (by cases hok), h.2⟩
    have hworks : Works (do
        let decimation ← hardwareCall .getDecimation
        Act.modify fun s : CommandHandler => { s with status.currentDecimation := decimation }
        makeSignalGen decimation) :=
      Confined.bind (works_hardwareCall _) fun decimation =>
        Confined.bind (Confined.modify fun _ => ⟨rfl, rfl, rfl, rfl⟩) fun _ =>
          works_makeSignalGen decimation
    exact hworks.keepsHardwareReady.conseq (fun _ _ h => h.1 rfl)
      fun _ _ _ h => ⟨fun _ => h, h.tended⟩
  · refine Triple.bind (works_refreshIfConnected.keepsHardwareReady.conseq (fun _ _ h => h.1 rfl)
      fun _ _ _ h => h) (fun _ => ?_) fun e s w h => ⟨h.tended, fun reply hok => by cases hok⟩
    refine Triple.modifyThen Tended (fun s w h => ?_) ?_
    · exact ⟨h.toSound.mono (fun _ => trivial) And.right, h.hardware, h.board⟩
    · refine Triple.read fun v => Triple.pure fun s w h => ⟨h.2, ?_⟩
      rintro reply ⟨⟩
      unfold initReply
      split <;> rfl

theorem moves_deleteHardware : Act.Moves SameStage deleteHardware :=
  Act.Moves.bind Act.Moves.get fun _ => Act.Moves.ite
    (Act.Moves.bind (Act.Moves.call _) fun _ => Act.Moves.modify fun _ => ⟨rfl, rfl⟩)
    (Act.Moves.pure _)

/-- **An initialization** that reports an error leaves no driver for the FPGA behind. -/
theorem triple_handleSystInit :
    Triple (drivers rounds) Tended handleSystInit fun r s w =>
      Tended s w ∧ ∀ reply, r = .ok reply → reply.status ≠ .ok → w.device = none := by
  refine Triple.read fun v => Triple.ite (fun _ => Triple.pure ?_) fun hv => ?_
  · rintro s w ⟨-, h⟩
    refine ⟨h, ?_⟩
    rintro reply ⟨⟩ hstatus
    exact (hstatus rfl).elim
  refine Triple.bind ((@triple_openHardware rounds False).conseq ?_ fun _ _ _ h => h)
    (fun opened => ?_) fun e s w h => ⟨h.tended, fun reply hok => by cases hok⟩
  · rintro s w ⟨rfl, h⟩
    exact ⟨h.mono False.elim False.elim, by simpa using hv⟩
  cases opened with
  | true =>
      refine triple_finishInit.conseq (fun s w h => h.mono (fun _ => rfl) id) fun r s w h => ?_
      exact ⟨h.1, fun reply hok hstatus => (hstatus (h.2 reply hok)).elim⟩
  | false =>
      intro s w h r s' w' hrun
      obtain ⟨e, -, hdelete⟩ | ⟨u, s₁, w₁, hdelete, hdone⟩ := Act.runs_bind.1 hrun
      · cases (triple_deleteHardware s w h.toFits _ s' w' hdelete).1
      obtain ⟨-, hfits, hnone⟩ := triple_deleteHardware s w h.toFits _ s₁ w₁ hdelete
      have hstage := moves_deleteHardware _ _ _ _ _ _ hdelete
      obtain ⟨heq, rfl⟩ := runs_done.1 hdone
      cases heq
      exact ⟨hfits.tended (hstage.initialized.trans h.uninitialized), fun _ _ _ => hnone⟩

/-! #### Every command -/

/-- Every command leaves the handler as the drivers are. -/
theorem keepsTended_handleCommand (cmd : ParsedCommand) :
    Keeps (drivers rounds) Tended (handleCommand P cmd) := by
  refine Keeps.ite (fun _ => Keeps.pure _) fun _ => ?_
  unfold dispatch
  cases hc : cmd.command with
  | idn | opc | systPing | systVersion | systShutdown | unknown => exact Keeps.pure _
  | rst => exact triple_handleRst.conseq (fun _ _ h => h) fun _ _ _ h => h.1
  | systStatus => exact (works_of_quiet quiet_handleSystStatus).keepsTended
  | systInit => exact triple_handleSystInit.conseq (fun _ _ h => h) fun _ _ _ h => h.1
  | systDeinit => exact keepsTended_handleSystDeinit
  | systMode => exact Keeps.bind Keeps.get fun _ => Keeps.pure _
  | boardMuxRoute | boardMuxDisconnect =>
      exact keepsTended_checked fun _ =>
        works_boardCommand (quiet_modify (sameDevices_overdrive _) quiet_get)
  | boardGain | boardReset =>
      exact keepsTended_checked fun _ => works_boardCommand (quiet_okWithSuffix _)
  | boardAdcLoop => exact (works_of_quiet (quiet_handleBoardAdcLoop cmd)).keepsTended
  | boardAdcProtect => exact (works_of_quiet (quiet_handleBoardAdcProtect cmd)).keepsTended
  | boardAdcSampleGain => exact (works_of_quiet (quiet_handleBoardAdcSampleGain cmd)).keepsTended
  | boardStatus => exact keepsTended_handleBoardStatus
  | measSinc => exact keepsTended_checked fun a => works_of_measures (measures_measureSinc P a)
  | measSweep => exact keepsTended_checked fun a => works_of_measures (measures_measureSweep P a)

/-- The part of the destructor for the hardware. -/
def cleanupHardware : Method Unit := do
  let s ← Act.get
  if s.hardware then Act.call (I := server) .cleanup

/-- The part of the destructor for the board. -/
def closeBoard : Method Unit := do
  let s ← Act.get
  if s.board then Act.call (I := server) .closeBoard

/-- `~CommandHandler`, and the destructors of its members, the last declared first. -/
def destroy : Method Unit := do
  cleanupHardware
  closeBoard
  Act.call (I := server) .deleteBoard
  Act.call (I := server) .deleteHardware

/-- **The destructor leaves nothing open.** -/
theorem triple_destroy :
    Triple (drivers rounds) (Fits mapped connected) destroy fun _ _ w => w.ledger = {} := by
  refine Triple.bind (Q := fun r s w => r = .ok () ∧ Fits False connected s w) ?_ (fun _ => ?_)
    fun e s w h => by cases h.1
  · refine Triple.read fun v => Triple.ite (fun _ => Triple.call ?_) fun _ => Triple.pure ?_
    · exact fun s w h r w' hstep => ⟨rfl, step_cleanup rounds h.2 hstep⟩
    · exact fun s w h => ⟨rfl, h.2.mono False.elim id⟩
  refine Triple.bind (Q := fun r s w => r = .ok () ∧ Fits False False s w) ?_ (fun _ => ?_)
    fun e s w h => by cases h.1
  · refine Triple.read fun v => Triple.ite (fun _ => Triple.call ?_) fun _ => Triple.pure ?_
    · exact fun s w h r w' hstep => ⟨rfl, (step_closeBoard rounds h.2.2 hstep).1⟩
    · exact fun s w h => ⟨rfl, h.2.2.mono id False.elim⟩
  refine Triple.callThen (fun _ _ (w : Drivers) => w.Sound False False ∧ w.driver = none) ?_
    fun _ => Triple.call ?_
  · rintro s w ⟨-, h⟩ r w' ⟨l, hdeleted, rfl⟩
    exact ⟨h.toSound.no_driver (h.toSound.driverDeleted hdeleted), rfl⟩
  · rintro s w ⟨h, hnone⟩ r w' ⟨l, hdeleted, rfl⟩
    have howns := h.deviceDeleted hdeleted
    rw [hnone] at howns
    exact ledger_eq_empty howns

end Tended

/-! ### Over its whole life -/

/-- A handler that was made on nothing and has carried out any commands, with the drivers it has
made. -/
inductive Tenure (P : Platform) (rounds : ℕ) : CommandHandler → Drivers → Prop
  | start (measurementTimeoutMs : ℤ) (mode : OperatingMode) :
      Tenure P rounds (make measurementTimeoutMs mode) {}
  | command {s s' : CommandHandler} {w w' : Drivers} {cmd : ParsedCommand}
      {r : Except Fault Reply} : Tenure P rounds s w →
      Runs (drivers rounds) w (handleCommand P cmd s) (r, s') w' → Tenure P rounds s' w'

variable {P : Platform} {rounds : ℕ} {s s' : CommandHandler} {w w' : Drivers}

theorem Tenure.tended (h : Tenure P rounds s w) : Tended s w := by
  induction h with
  | start measurementTimeoutMs mode =>
      refine ⟨⟨⟨?_, rfl⟩, ?_, ?_, ?_⟩, rfl, rfl⟩
      · funext k
        cases k <;> rfl
      · exact fun h hd => by cases hd
      · exact fun hi => by cases hi
      · exact fun hi => by cases hi.1
  | command _ hrun ih => exact keepsTended_handleCommand _ _ _ ih _ _ _ hrun

/-- The handles of an initialized handler. -/
structure AllOpen (s : CommandHandler) (l : Ledger Handle) : Prop where
  mem : l.live .mem = 1
  regs : l.live .regs = 1
  bram : l.live .bram = 1
  tty : s.status.boardConnected = true → l.live .tty = 1

theorem Tended.allOpen (h : Tended s w) (hi : s.status.hardwareInitialized = true) :
    AllOpen s w.ledger := by
  obtain ⟨device, hd, hmapped⟩ := h.mapped hi
  have hlive := h.owns.live
  obtain ⟨hregs, hbram⟩ := (Bool.and_eq_true _ _).mp hmapped
  have hfd : 0 ≤ device.memFd := h.opened device hd (by simp [hregs])
  refine ⟨?_, ?_, ?_, fun hc => ?_⟩
  · rw [hlive, hd]
    simp [heldBy, hfd]
  · rw [hlive, hd]
    simp [heldBy, hregs]
  · rw [hlive, hd]
    simp [heldBy, hbram]
  · obtain ⟨u, hu, hopen⟩ := h.connected ⟨hi, hc⟩
    rw [hlive, hu]
    simp [heldBy, hopen]

/-- A command without arguments is carried out. -/
theorem handleCommand_eq {cmd : ParsedCommand} (hargs : cmd.args = []) :
    handleCommand P cmd = dispatch P cmd := by
  unfold handleCommand
  rw [if_neg (by simp [hargs])]

/-- **No handle is lost.**  Whatever the commands and whatever the operating system replies: no
handle is used or given back that is not open, none is open twice, and every access lies in a mapped
window.  An initialized server has its windows mapped and the line to a connected board open.  A
failed initialization leaves nothing of the FPGA open, and a reset, a shutdown of the hardware and
the destructor leave nothing open at all. -/
theorem handles_accounted (h : Tenure P rounds s w) :
    w.ledger.misused = false ∧ (∀ k, w.ledger.live k ≤ 1) ∧
      (s.status.hardwareInitialized = true → AllOpen s w.ledger) ∧
      (∀ cmd r s' w', Runs (drivers rounds) w (handleCommand P cmd s) (r, s') w' →
        cmd.args = [] →
          (cmd.command = .systInit → ∀ reply, r = .ok reply → reply.status ≠ .ok →
            w'.ledger.live .mem = 0 ∧ w'.ledger.live .regs = 0 ∧ w'.ledger.live .bram = 0) ∧
          (cmd.command = .rst ∨
            cmd.command = .systDeinit ∧ s.status.hardwareInitialized = true →
              w'.ledger = {})) ∧
      ∀ r s' w', Runs (drivers rounds) w (destroy s) (r, s') w' → w'.ledger = {} := by
  have htended := h.tended
  refine ⟨htended.owns.sound, fun k => ?_, htended.allOpen, ?_, ?_⟩
  · rw [htended.owns.live]
    exact heldBy_le_one _ _ k
  · intro cmd r s' w' hrun hargs
    rw [handleCommand_eq hargs] at hrun
    refine ⟨fun hcmd reply hr hstatus => ?_, ?_⟩
    · rw [show dispatch P cmd = handleSystInit by simp [dispatch, hcmd]] at hrun
      obtain ⟨htended', hnone⟩ := triple_handleSystInit s w htended r s' w' hrun
      rw [htended'.owns.live, hnone reply hr hstatus]
      exact ⟨rfl, rfl, rfl⟩
    · rintro (hcmd | ⟨hcmd, hi⟩)
      · rw [show dispatch P cmd = handleRst by simp [dispatch, hcmd]] at hrun
        exact (triple_handleRst s w htended r s' w' hrun).2
      · rw [show dispatch P cmd = handleSystDeinit by simp [dispatch, hcmd]] at hrun
        exact (triple_handleSystDeinit s w ⟨htended, hi⟩ r s' w' hrun).2
  · exact fun r s' w' hrun => triple_destroy s w htended r s' w' hrun

/-! ### An operating system that works -/

end CommandHandler

/-- The mappings succeed, and the version is the right one. -/
def goodMemory : (c : MemoryCall) → memory.Reply c
  | .openMem => (3 : ℤ)
  | .mapRegs => true
  | .mapBram => true
  | .unmapRegs => ()
  | .unmapBram => ()
  | .closeMem => ()
  | .readReg index => if index = regVersion then RedPitayaHardware.bitfileVersion else 0
  | .writeReg _ _ => ()
  | .readBram _ => 0
  | .writeBram _ _ => ()

/-- The line opens, and a board answers `STATUS`. -/
def goodLine : (c : Uart.Call) → Uart.device.Reply c
  | .openPort => .ok ()
  | .getAttr => .ok ()
  | .setAttr _ => .ok ()
  | .flush => ()
  | .close => ()
  | .write _ => .ok ()
  | .now => (0 : ℤ)
  | .poll _ => .ready
  | .read _ => .data "STATUS\nOK\n".toList

/-- The drivers on such a system. -/
def Drivers.serve (rounds : ℕ) (w : Drivers) : (c : ServerCall) → Option (server.Reply c × Drivers)
  | .hardwareFactory =>
      if w.device.isNone then some (.ok true, { w with device := some {} }) else none
  | .hardware c => w.device.bind fun h =>
      match (RedPitayaHardware.method c h).eval (memoryHandles.answer goodMemory) w.ledger with
      | ((.ok a, h'), l) => some (.ok a, { w with device := some h', ledger := l })
  | .boardFactory =>
      if w.driver.isNone then some (.ok true, { w with driver := some .fresh }) else none
  | .board c => w.driver.bind fun u =>
      match (Uart.boardMethod rounds c u).eval (deviceHandles.answer goodLine) w.ledger with
      | ((.ok (.ok a), u'), l) => some (.ok a, { w with driver := some u', ledger := l })
      | _ => none
  | _ => none

theorem Drivers.serve_step {rounds : ℕ} {w w' : Drivers} {c : ServerCall} {r : server.Reply c}
    (h : w.serve rounds c = some (r, w')) : Drivers.Step rounds w c r w' := by
  cases c with
  | hardwareFactory =>
      obtain ⟨hnone, h⟩ := Option.ite_none_right_eq_some.1 h
      cases h
      refine ⟨w.ledger, ?_, rfl⟩
      unfold DeviceDeleted
      rw [Option.isNone_iff_eq_none.1 hnone]
  | hardware c =>
      obtain ⟨device, hd, h⟩ := Option.bind_eq_some_iff.1 h
      split at h
      rename_i a device' l hrun
      cases h
      have hruns :=
        memoryHandles.answer_runs goodMemory (RedPitayaHardware.method c device) w.ledger
      rw [hrun] at hruns
      refine .inr ⟨device, a, device', l, hd, hruns, rfl, ?_⟩
      rintro value ⟨⟩
      rfl
  | boardFactory =>
      obtain ⟨hnone, h⟩ := Option.ite_none_right_eq_some.1 h
      cases h
      refine ⟨w.ledger, ?_, rfl⟩
      unfold DriverDeleted
      rw [Option.isNone_iff_eq_none.1 hnone]
  | board c =>
      obtain ⟨u, hu, h⟩ := Option.bind_eq_some_iff.1 h
      split at h
      · rename_i a u' l hrun
        cases h
        have hruns := deviceHandles.answer_runs goodLine (Uart.boardMethod rounds c u) w.ledger
        rw [hrun] at hruns
        refine .inr ⟨u, .ok a, u', l, hu, hruns, rfl, ?_⟩
        rintro value ⟨⟩
        rfl
      · cases h
  | _ => cases h

namespace CommandHandler

/-- An initialization on such a system. -/
def installed : Option ((Except Fault Reply × CommandHandler) × Drivers) :=
  (handleCommand (flat .ieee) { command := .systInit } (make 5000 .full)).attempt (Drivers.serve 32) {}

/-- After an initialization that finds the board everything is open; the destructor closes it. -/
theorem handles_accounted_installed : ∃ s w, Tenure (flat .ieee) 32 s w ∧
    w.ledger.misused = false ∧ w.ledger.live .mem = 1 ∧ w.ledger.live .tty = 1 ∧
      ∀ r s' w', Runs (drivers 32) w (destroy s) (r, s') w' → w'.ledger = {} := by
  have hsome : installed.any (fun p => p.1.2.status.hardwareInitialized &&
      p.1.2.status.boardConnected) = true := by decide +kernel
  obtain ⟨⟨⟨r, s⟩, w⟩, hrun, hs⟩ := (Option.any_eq_true ..).1 hsome
  obtain ⟨hinitialized, hconnected⟩ := (Bool.and_eq_true _ _).mp hs
  have htenure : Tenure (flat .ieee) 32 s w := .command (.start 5000 .full)
    (Prog.attempt_runs (W := drivers 32) (fun _ _ _ _ => Drivers.serve_step) hrun)
  obtain ⟨hsound, -, hopen, -, hdestroy⟩ := handles_accounted htenure
  exact ⟨s, w, htenure, hsound, (hopen hinitialized).mem, (hopen hinitialized).tty hconnected,
    hdestroy⟩

end CommandHandler

end Afm
