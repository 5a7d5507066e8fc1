/-
**The life of a handler.**

`SYSTEM:INIT`, `SYSTEM:DEINIT` and `*RST` each reset another part of the pointers and flags, and an
exception can leave an initialization half done.  What the guards of the commands test must still
imply the pointers the commands use.

Main definitions:

* `Afm.CommandHandler.Sane`, `Afm.CommandHandler.Lifecycle` — how flags and pointers hang together,
  within a command and between two of them;
* `Afm.CommandHandler.Safe` — a method with what it needs and what it leaves, that uses no null
  pointer and calls the board factory only where there may be a board;
* `Afm.CommandHandler.Lifetime` — the handlers of an operating mode between two commands, and
  whether an exception has interrupted an initialization.

Main results:

* `Afm.CommandHandler.carried_handleCommand` — one command;
* `Afm.CommandHandler.lifecycle_always` — every state between two commands.
-/

import RedPitayaAfm.HandlerRuns

set_option relaxedAutoImplicit false
set_option autoImplicit false

namespace Afm

namespace CommandHandler

open Effect

/-! ### Flags and pointers -/

/-- How flags and pointers hang together.  `interrupted` tells whether an exception has left an
initialization unfinished. -/
structure Sane (mode : OperatingMode) (interrupted : Prop) (s : CommandHandler) : Prop where
  mode_eq : s.status.mode = mode
  hardware : s.status.hardwareInitialized = true → s.hardware = true
  signalGen : s.status.hardwareInitialized = true → s.signalGen.isSome = true
  board : s.status.boardConnected = true → s.board = true
  connected : s.status.boardConnected = true → s.status.hardwareInitialized = true ∨ interrupted
  rpOnly : mode = .rpOnly → s.status.boardConnected = false

/-- What holds between two commands. -/
structure Lifecycle (mode : OperatingMode) (interrupted : Prop) (s : CommandHandler) : Prop
    extends Sane mode interrupted s where
  idle : s.status.measurementInProgress = false

/-! ### Methods that use no null pointer -/

/-- A condition on the fields, and no call of the board factory in RP-only mode. -/
def Holds (mode : OperatingMode) (B : CommandHandler → Prop) (s : CommandHandler)
    (calls : Calls) : Prop :=
  B s ∧ (mode = .rpOnly → ∀ call ∈ calls, call.1 ≠ .boardFactory)

/-- From `B` the method returns `a` with `Q a`, or leaves with an exception and `E`.  It uses no null
pointer. -/
def Safe (mode : OperatingMode) {α : Type} (B : CommandHandler → Prop) (m : Method α)
    (Q : α → CommandHandler → Prop) (E : CommandHandler → Prop) : Prop :=
  Triple journal (Holds mode B) m fun r s calls =>
    match r with
    | .ok a => Holds mode (Q a) s calls
    | .error e => e ≠ .nullPointer ∧ Holds mode E s calls

namespace Safe

variable {mode : OperatingMode} {α β : Type} {B D E : CommandHandler → Prop}
  {Q : α → CommandHandler → Prop} {R : β → CommandHandler → Prop}

theorem pure {a : α} (h : ∀ s, B s → Q a s) : Safe mode B (pure a) Q E :=
  Triple.pure fun s _ hs => ⟨h s hs.1, hs.2⟩

theorem throw {e : Fault} (he : e ≠ .nullPointer) (h : ∀ s, B s → E s) :
    Safe mode B (Act.throw e) Q E :=
  Triple.throw fun s _ hs => ⟨he, h s hs.1, hs.2⟩

theorem get : Safe mode B Act.get (fun v s => v = s ∧ B s) E :=
  Triple.get fun _ _ hs => ⟨⟨rfl, hs.1⟩, hs.2⟩

theorem modify {f : CommandHandler → CommandHandler} {Q : Unit → CommandHandler → Prop}
    (h : ∀ s, B s → Q () (f s)) : Safe mode B (Act.modify f) Q E :=
  Triple.modify fun s _ hs => ⟨h s hs.1, hs.2⟩

theorem call {c : ServerCall} (hc : mode = .rpOnly → c ≠ .boardFactory) :
    Safe mode B (Act.call (I := server) c) (fun _ => B) E := by
  refine Triple.call fun s (calls : Calls) hs reply calls' hstep => ⟨hs.1, ?_⟩
  intro hmode call hcall
  have hcalls' : calls' = calls ++ [⟨c, reply⟩] := hstep
  rw [hcalls'] at hcall
  rcases List.mem_append.1 hcall with hcall | hcall
  · exact hs.2 hmode call hcall
  · rw [List.mem_singleton.1 hcall]
    exact hc hmode

theorem bind {m : Method α} {f : α → Method β} (hm : Safe mode B m Q E)
    (hf : ∀ a, Safe mode (Q a) (f a) R E) : Safe mode B (m >>= f) R E :=
  Triple.bind hm (fun a => hf a) fun _ _ _ he => he

theorem conseq {m : Method α} {B' E' : CommandHandler → Prop} {Q' : α → CommandHandler → Prop}
    (hm : Safe mode B m Q E) (hB : ∀ s, B' s → B s) (hQ : ∀ a s, Q a s → Q' a s)
    (hE : ∀ s, E s → E' s) : Safe mode B' m Q' E' := by
  refine Triple.conseq hm (fun s _ hs => ⟨hB s hs.1, hs.2⟩) ?_
  intro r s calls h
  cases r with
  | ok a => exact ⟨hQ a s h.1, h.2⟩
  | error e => exact ⟨h.1, hE s h.2.1, h.2.2⟩

theorem ite {c : Prop} [Decidable c] {m m' : Method α} (ht : c → Safe mode B m Q E)
    (hf : ¬c → Safe mode B m' Q E) : Safe mode B (if c then m else m') Q E :=
  Triple.ite ht hf

/-- Read the fields and go on. -/
theorem read {f : CommandHandler → Method α}
    (h : ∀ v, Safe mode (fun s => v = s ∧ B s) (f v) Q E) :
    Safe mode B (Act.get >>= f) Q E := bind get h

/-- A scope: its destructor ends it in the same way whatever has happened. -/
theorem withDestructor {m : Method α} {fin : Method Unit}
    (hm : Safe mode B m (fun _ => D) D) (hfin : Safe mode D fin (fun _ => E) E) :
    Safe mode B (m.withDestructor fin) (fun _ => E) E := by
  refine Triple.withDestructor hm fun r => ?_
  cases r with
  | ok a =>
      refine Triple.conseq hfin (fun _ _ hs => hs) ?_
      intro u s calls h
      cases u with
      | ok v => exact h
      | error e => exact h
  | error e =>
      intro s calls hs u s' calls' hrun
      have h := hfin s calls hs.2 u s' calls' hrun
      cases u with
      | ok v => exact ⟨hs.1, h⟩
      | error e' => exact h

/-- Methods that keep a condition. -/
theorem checked {check : CommandHandler → Except Reply β} {body : β → Method Reply}
    {Q : Reply → CommandHandler → Prop} (hreply : ∀ reply s, B s → check s = .error reply → Q reply s)
    (hbody : ∀ a, Safe mode (fun s => B s ∧ check s = .ok a) (body a) Q E) :
    Safe mode B (checked check body) Q E := by
  intro s calls hs r s' calls' hrun
  rcases checked_runs.1 hrun with ⟨reply, hcheck, rfl, rfl, rfl⟩ | ⟨a, hcheck, hrun⟩
  · exact ⟨hreply reply s' hs.1 hcheck, hs.2⟩
  · exact hbody a s calls ⟨⟨hs.1, hcheck⟩, hs.2⟩ r s' calls' hrun

/-! ### Calls -/

theorem orThrow (x : Except Text α) (h : ∀ s, B s → E s) :
    Safe mode B (orThrow x) (fun _ => B) E := by
  cases x with
  | ok a => exact pure fun _ hs => hs
  | error what => exact throw (by simp) h

theorem hardwareCall {c : HardwareCall} (hb : ∀ s, B s → s.hardware = true) (h : ∀ s, B s → E s) :
    Safe mode B (hardwareCall c) (fun _ => B) E := by
  refine read fun v => ite (fun _ => ?_) fun hnull => ?_
  · refine conseq (bind (call fun _ => by simp) fun reply => orThrow reply h) ?_ (fun _ _ hs => hs)
      fun _ hs => hs
    exact fun s hs => hs.2
  · rintro s calls ⟨⟨rfl, hs⟩, -⟩
    exact absurd (hb _ hs) hnull

theorem boardCall {c : BoardCall} (hb : ∀ s, B s → s.board = true) (h : ∀ s, B s → E s) :
    Safe mode B (boardCall c) (fun _ => B) E := by
  refine read fun v => ite (fun _ => ?_) fun hnull => ?_
  · refine conseq (bind (call fun _ => by simp) fun reply => orThrow reply h) ?_ (fun _ _ hs => hs)
      fun _ hs => hs
    exact fun s hs => hs.2
  · rintro s calls ⟨⟨rfl, hs⟩, -⟩
    exact absurd (hb _ hs) hnull

theorem resetMeasurement (hb : ∀ s, B s → s.hardware = true) :
    Safe mode B resetMeasurement (fun _ => B) E := by
  refine read fun v => ite (fun _ => ?_) fun hnull => ?_
  · refine conseq (bind (call fun _ => by simp) fun reply => pure fun s hs => hs) ?_
      (fun _ _ hs => hs) fun _ hs => hs
    exact fun s hs => hs.2
  · rintro s calls ⟨⟨rfl, hs⟩, -⟩
    exact absurd (hb _ hs) hnull

end Safe

/-! ### Commands that keep flags and pointers -/

section Keep

variable {A : Arithmetic} {mode : OperatingMode} {interrupted : Prop} {s s' : CommandHandler}

/-- The flags stay, and so do the pointers that were set. -/
structure SameLife (s s' : CommandHandler) : Prop where
  mode : s'.status.mode = s.status.mode
  hardware : s'.hardware = s.hardware
  board : s'.board = s.board
  initialized : s'.status.hardwareInitialized = s.status.hardwareInitialized
  connected : s'.status.boardConnected = s.status.boardConnected
  signalGen : s.signalGen.isSome = true → s'.signalGen.isSome = true

theorem Sane.of_same (h : Sane mode interrupted s) (hs : SameLife s s') :
    Sane mode interrupted s' where
  mode_eq := hs.mode.trans h.mode_eq
  hardware hi := hs.hardware.trans (h.hardware (hs.initialized ▸ hi))
  signalGen hi := hs.signalGen (h.signalGen (hs.initialized ▸ hi))
  board hc := hs.board.trans (h.board (hs.connected ▸ hc))
  connected hc := hs.initialized ▸ h.connected (hs.connected ▸ hc)
  rpOnly hm := hs.connected.trans (h.rpOnly hm)

theorem Lifecycle.of_same (h : Lifecycle mode interrupted s) (hs : SameLife s s')
    (hidle : s'.status.measurementInProgress = s.status.measurementInProgress) :
    Lifecycle mode interrupted s' :=
  { h.toSane.of_same hs with idle := hidle.trans h.idle }

/-- A command that keeps what holds between two commands. -/
abbrev KeepsLife (mode : OperatingMode) (interrupted : Prop) (m : Method Reply) : Prop :=
  Safe mode (Lifecycle mode interrupted) m (fun _ => Lifecycle mode interrupted)
    (Lifecycle mode interrupted)

theorem keepsLife_pure (reply : Reply) : KeepsLife mode interrupted (pure reply) :=
  Safe.pure fun _ h => h

theorem keepsLife_get (f : CommandHandler → Reply) :
    KeepsLife mode interrupted (do let s ← Act.get; pure (f s)) :=
  Safe.read fun _ => Safe.pure fun _ h => h.2

theorem keepsLife_modify {f : CommandHandler → CommandHandler} {m : Method Reply}
    (h : ∀ s, SameLife s (f s))
    (hidle : ∀ s, (f s).status.measurementInProgress = s.status.measurementInProgress)
    (hm : KeepsLife mode interrupted m) : KeepsLife mode interrupted (do Act.modify f; m) :=
  Safe.bind (Safe.modify fun s hs => hs.of_same (h s) (hidle s)) fun _ => hm

theorem keepsLife_okWithSuffix (data : Text) : KeepsLife mode interrupted (okWithSuffix A data) :=
  keepsLife_modify (fun _ => ⟨rfl, rfl, rfl, rfl, rfl, id⟩) (fun _ => rfl) (keepsLife_get _)

theorem keepsLife_okWithWarning : KeepsLife mode interrupted (okWithWarning A) :=
  keepsLife_modify (fun _ => ⟨rfl, rfl, rfl, rfl, rfl, id⟩) (fun _ => rfl) (keepsLife_get _)

theorem keepsLife_checked {α : Type} {check : CommandHandler → Except Reply α}
    {body : α → Method Reply} (h : ∀ a, KeepsLife mode interrupted (body a)) :
    KeepsLife mode interrupted (checked check body) :=
  Safe.checked (fun _ _ hs _ => hs) fun a =>
    Safe.conseq (h a) (fun _ hs => hs.1) (fun _ _ hs => hs) fun _ hs => hs

theorem keepsLife_handleBoardAdcLoop (cmd : ParsedCommand) :
    KeepsLife mode interrupted (handleBoardAdcLoop A cmd) := by
  refine keepsLife_checked fun request => ?_
  cases request with
  | query => exact keepsLife_get _
  | off =>
      exact keepsLife_modify (fun _ => ⟨rfl, rfl, rfl, rfl, rfl, id⟩) (fun _ => rfl)
        (keepsLife_pure _)
  | auto =>
      exact keepsLife_modify (fun _ => ⟨rfl, rfl, rfl, rfl, rfl, id⟩) (fun _ => rfl)
        (keepsLife_okWithSuffix _)
  | manual excite ret =>
      exact keepsLife_modify (fun _ => ⟨rfl, rfl, rfl, rfl, rfl, id⟩) (fun _ => rfl)
        (keepsLife_okWithSuffix _)

theorem keepsLife_handleBoardAdcProtect (cmd : ParsedCommand) :
    KeepsLife mode interrupted (handleBoardAdcProtect A cmd) := by
  refine keepsLife_checked fun request => ?_
  cases request with
  | none => exact keepsLife_get _
  | some enabled =>
      exact keepsLife_modify (fun _ => ⟨rfl, rfl, rfl, rfl, rfl, id⟩) (fun _ => rfl)
        (keepsLife_okWithSuffix _)

theorem keepsLife_handleBoardAdcSampleGain (cmd : ParsedCommand) :
    KeepsLife mode interrupted (handleBoardAdcSampleGain A cmd) := by
  refine keepsLife_checked fun request => ?_
  cases request with
  | none => exact keepsLife_get _
  | some sampleGain =>
      exact keepsLife_modify (fun _ => ⟨rfl, rfl, rfl, rfl, rfl, id⟩) (fun _ => rfl)
        (keepsLife_okWithSuffix _)

end Keep

/-! ### Board commands -/

section Board

variable {mode : OperatingMode} {interrupted : Prop}

/-- The board is connected, so its pointer is set. -/
def Connected (mode : OperatingMode) (interrupted : Prop) (s : CommandHandler) : Prop :=
  Lifecycle mode interrupted s ∧ s.board = true

theorem connected_of_requireBoard {s : CommandHandler} {u : Unit}
    (h : Lifecycle mode interrupted s) (hrequire : s.requireBoard = .ok u) :
    Connected mode interrupted s :=
  ⟨h, h.board (requireBoard_eq_ok.1 hrequire).2⟩

theorem safe_boardError :
    Safe mode (Connected mode interrupted) boardError (fun _ => Lifecycle mode interrupted)
      (Lifecycle mode interrupted) :=
  Safe.bind (Safe.boardCall (fun _ h => h.2) fun _ h => h.1) fun _ => Safe.pure fun _ h => h.1

theorem safe_boardCommand {c : BoardSetting} {done : Method Reply}
    (hdone : KeepsLife mode interrupted done) :
    Safe mode (Connected mode interrupted) (boardCommand c done)
      (fun _ => Lifecycle mode interrupted) (Lifecycle mode interrupted) := by
  refine Safe.bind (Safe.boardCall (fun _ h => h.2) fun _ h => h.1) fun confirmed => ?_
  refine Safe.ite (fun _ => ?_) fun _ => safe_boardError
  refine Safe.bind (Safe.modify fun s h => ?_) fun _ => hdone
  obtain ⟨hhardware, hboard, hstatus⟩ := follow_fields s c
  have hsignal : (s.follow c).signalGen = s.signalGen := by cases c <;> rfl
  refine h.1.of_same ⟨by rw [hstatus], hhardware, hboard, by rw [hstatus], by rw [hstatus], ?_⟩
    (by rw [hstatus])
  rw [hsignal]
  exact id

/-- A board command that has passed its checks finds the board. -/
theorem keepsLife_setting {α : Type} {check : CommandHandler → Except Reply α}
    {c : α → BoardSetting} {done : α → Method Reply}
    (hrequire : ∀ s a, check s = .ok a → s.requireBoard = .ok ())
    (hdone : ∀ a, KeepsLife mode interrupted (done a)) :
    KeepsLife mode interrupted (checked check fun a => boardCommand (c a) (done a)) :=
  Safe.checked (fun _ _ hs _ => hs) fun a =>
    Safe.conseq (safe_boardCommand (hdone a))
      (fun s hs => connected_of_requireBoard hs.1 (hrequire s a hs.2)) (fun _ _ hs => hs)
      fun _ hs => hs

theorem keepsLife_handleBoardStatus : KeepsLife mode interrupted handleBoardStatus := by
  refine Safe.checked (fun _ _ hs _ => hs) fun a => ?_
  refine Safe.conseq (B := Connected mode interrupted) ?_
    (fun s hs => connected_of_requireBoard hs.1 hs.2) (fun _ _ hs => hs) fun _ hs => hs
  refine Safe.bind (Safe.boardCall (fun _ h => h.2) fun _ h => h.1) fun text => ?_
  cases text with
  | none => exact safe_boardError
  | some statusText =>
      refine Safe.read fun v => ?_
      cases hparse : v.refreshFromStatus statusText with
      | error m => exact Safe.throw (by simp) fun _ h => h.2.1
      | ok v' =>
          refine Safe.bind (Safe.modify (Q := fun _ => Lifecycle mode interrupted) ?_) fun _ =>
            Safe.pure fun _ h => h
          rintro s ⟨rfl, h⟩
          obtain ⟨gains, routing, known, rfl⟩ := refreshFromStatus_eq hparse
          exact h.1.of_same ⟨rfl, rfl, rfl, rfl, rfl, id⟩ rfl

end Board

/-! ### Measurements -/

section Measure

variable {mode : OperatingMode} {interrupted : Prop} {P : Platform}

/-- The handler is initialized: hardware and signal generator are there. -/
def Ready (mode : OperatingMode) (interrupted : Prop) (s : CommandHandler) : Prop :=
  Sane mode interrupted s ∧ s.status.hardwareInitialized = true

/-- An initialized handler outside of a measurement. -/
def Resting (mode : OperatingMode) (interrupted : Prop) (s : CommandHandler) : Prop :=
  Lifecycle mode interrupted s ∧ s.status.hardwareInitialized = true

/-- An initialized handler whose signal chain is complete. -/
def Chained (mode : OperatingMode) (interrupted : Prop) (s : CommandHandler) : Prop :=
  Ready mode interrupted s ∧ s.fftProcessor.isSome = true

theorem Ready.hardware {s : CommandHandler} (h : Ready mode interrupted s) : s.hardware = true :=
  h.1.hardware h.2

theorem Ready.signalGen {s : CommandHandler} (h : Ready mode interrupted s) :
    s.signalGen.isSome = true :=
  h.1.signalGen h.2

theorem Ready.of_same {s s' : CommandHandler} (h : Ready mode interrupted s) (hs : SameLife s s') :
    Ready mode interrupted s' :=
  ⟨h.1.of_same hs, hs.initialized.trans h.2⟩

theorem Resting.ready {s : CommandHandler} (h : Resting mode interrupted s) :
    Ready mode interrupted s :=
  ⟨h.1.toSane, h.2⟩

theorem Resting.of_same {s s' : CommandHandler} (h : Resting mode interrupted s)
    (hs : SameLife s s')
    (hidle : s'.status.measurementInProgress = s.status.measurementInProgress) :
    Resting mode interrupted s' :=
  ⟨h.1.of_same hs hidle, hs.initialized.trans h.2⟩

theorem safe_waitLoop {B : CommandHandler → Prop} (hb : ∀ s, B s → s.hardware = true)
    (start timeoutMs : ℤ) (rounds : ℕ) :
    Safe mode B (waitLoop start timeoutMs rounds) (fun _ => B) B := by
  induction rounds with
  | zero => exact Safe.throw (by simp) fun _ h => h
  | succ rounds ih =>
      refine Safe.bind (Safe.hardwareCall hb fun _ h => h) fun complete => ?_
      refine Safe.ite (fun _ => Safe.pure fun _ h => h) fun _ => ?_
      refine Safe.bind (Safe.call fun _ => by simp) fun time => ?_
      refine Safe.ite (fun _ => Safe.pure fun _ h => h) fun _ => ?_
      exact Safe.bind (Safe.call fun _ => by simp) fun _ => ih

theorem safe_waitForMeasurement {B : CommandHandler → Prop} (hb : ∀ s, B s → s.hardware = true) :
    Safe mode B (waitForMeasurement P) (fun _ => B) B := by
  refine Safe.bind (Safe.call fun _ => by simp) fun start => Safe.read fun v => ?_
  exact Safe.conseq (safe_waitLoop hb start v.measurementTimeoutMs P.rounds) (fun _ h => h.2)
    (fun _ _ h => h) fun _ h => h

theorem safe_acquire {B : CommandHandler → Prop} (hb : ∀ s, B s → s.hardware = true)
    (numSamples : ℕ) : Safe mode B (acquire P numSamples) (fun _ => B) B := by
  refine Safe.bind (Safe.hardwareCall hb fun _ h => h) fun started => ?_
  refine Safe.ite (fun _ => ?_) fun _ => Safe.pure fun _ h => h
  refine Safe.bind (safe_waitForMeasurement hb) fun complete => ?_
  refine Safe.ite (fun _ => ?_) fun _ => Safe.pure fun _ h => h
  refine Safe.bind (Safe.hardwareCall hb fun _ h => h) fun record => ?_
  cases record with
  | none => exact Safe.pure fun _ h => h
  | some record => exact Safe.pure fun _ h => h

theorem safe_generate {B : CommandHandler → Prop} (hb : ∀ s, B s → s.signalGen.isSome = true)
    (signal : SignalGenerator ℚ → Except Text (List ℚ)) :
    Safe mode B (generate signal) (fun _ => B) B := by
  refine Safe.read fun v => ?_
  cases hgen : v.signalGen with
  | none =>
      rintro s calls ⟨⟨rfl, hs⟩, -⟩
      have hsome := hb _ hs
      rw [hgen] at hsome
      cases hsome
  | some g =>
      exact Safe.conseq (Safe.orThrow (signal g) fun _ h => h) (fun _ h => h.2) (fun _ _ h => h)
        fun _ h => h

/-- A decimation that was taken over completes the signal chain. -/
theorem safe_applyDecimation (decimation : ℕ) :
    Safe mode (Resting mode interrupted) (applyDecimation decimation)
      (fun taken s => Resting mode interrupted s ∧ (taken = true → s.fftProcessor.isSome = true))
      (Lifecycle mode interrupted) := by
  refine Safe.bind (Safe.hardwareCall (fun _ h => h.ready.hardware) fun _ h => h.1) fun taken => ?_
  refine Safe.ite (fun _ => ?_) fun _ => Safe.pure fun _ h => ⟨h, fun hf => by cases hf⟩
  refine Safe.bind (Safe.modify (Q := fun _ => Resting mode interrupted) fun s h =>
    h.of_same ⟨rfl, rfl, rfl, rfl, rfl, id⟩ rfl) fun _ => ?_
  refine Safe.bind (Q := fun _ => Resting mode interrupted) ?_ fun _ => ?_
  · unfold makeSignalGen
    cases SignalGenerator.make (ServerConfig.adcSampleRateHz / decimation) decimation with
    | ok g =>
        exact Safe.modify fun s h => h.of_same ⟨rfl, rfl, rfl, rfl, rfl, fun _ => rfl⟩ rfl
    | error what => exact Safe.throw (by simp) fun _ h => h.1
  refine Safe.bind (Q := fun _ s => Resting mode interrupted s ∧ s.fftProcessor.isSome = true) ?_
    fun _ => Safe.pure fun _ h => ⟨h.1, fun _ => h.2⟩
  unfold makeFftProcessor
  cases FFTProcessor.make (ServerConfig.adcSampleRateHz / (decimation : ℚ)) with
  | ok p => exact Safe.modify fun s h => ⟨h.of_same ⟨rfl, rfl, rfl, rfl, rfl, id⟩ rfl, rfl⟩
  | error what => exact Safe.throw (by simp) fun _ h => h.1

/-- A measurement is over when its scope is left, whichever way. -/
theorem safe_scopedMeasurement {α : Type} {B : CommandHandler → Prop} {body : Method α}
    (hb : ∀ s, B s → B { s with status.measurementInProgress := true })
    (h : Safe mode B body (fun _ => Ready mode interrupted) (Ready mode interrupted)) :
    Safe mode B (scopedMeasurement body) (fun _ => Lifecycle mode interrupted)
      (Lifecycle mode interrupted) := by
  refine Safe.bind (Safe.modify (Q := fun _ => B) hb) fun _ => Safe.withDestructor h ?_
  refine Safe.bind (Safe.modify (Q := fun _ => Resting mode interrupted) fun s hs => ?_) fun _ => ?_
  · exact ⟨{ hs.1.of_same ⟨rfl, rfl, rfl, rfl, rfl, id⟩ with idle := rfl }, hs.2⟩
  · exact Safe.conseq (Safe.resetMeasurement (B := Resting mode interrupted)
      (E := Lifecycle mode interrupted) fun _ hs => hs.ready.hardware) (fun _ hs => hs)
      (fun _ _ hs => hs.1) fun _ hs => hs

theorem safe_transform (p : FFTProcessor ℚ) (record : List ℚ) :
    Safe mode (Ready mode interrupted) (transform P p record) (fun _ => Ready mode interrupted)
      (Ready mode interrupted) := by
  refine Safe.ite (fun _ => Safe.throw (by simp) fun _ h => h) fun _ => ?_
  refine Safe.ite (fun _ => Safe.pure fun _ h => h) fun _ => ?_
  refine Safe.bind (Safe.call fun _ => by simp) fun planned => ?_
  refine Safe.bind (Safe.orThrow planned fun _ h => h) fun _ => ?_
  refine Safe.bind (Safe.modify (Q := fun _ => Ready mode interrupted) fun s h =>
    h.of_same ⟨rfl, rfl, rfl, rfl, rfl, id⟩) fun _ => Safe.pure fun _ h => h

theorem safe_analyzeSinc (a : SincArgs) (record : List ℚ) :
    Safe mode (Chained mode interrupted) (analyzeSinc P a record)
      (fun _ => Ready mode interrupted) (Ready mode interrupted) := by
  refine Safe.bind (Safe.modify (Q := fun _ => Chained mode interrupted) fun s h =>
    ⟨h.1.of_same ⟨rfl, rfl, rfl, rfl, rfl, id⟩, h.2⟩) fun _ => Safe.read fun v => ?_
  cases hp : v.fftProcessor with
  | none =>
      rintro s calls ⟨⟨rfl, hs⟩, -⟩
      have hsome := hs.2
      rw [hp] at hsome
      cases hsome
  | some p =>
      refine Safe.bind (Safe.conseq (safe_transform p _) (fun _ h => h.2.1) (fun _ _ h => h)
        fun _ h => h) fun bins => Safe.pure fun _ h => h

theorem safe_runSinc (a : SincArgs) :
    Safe mode (Chained mode interrupted) (runSinc P a) (fun _ => Ready mode interrupted)
      (Ready mode interrupted) := by
  refine Safe.bind (Safe.conseq (safe_acquire (P := P) (fun _ h => h.1.hardware) a.numSamples)
    (fun _ h => h) (fun _ _ h => h) fun _ (h : Chained mode interrupted _) => h.1) fun acquisition => ?_
  cases acquisition with
  | notStarted => exact Safe.pure fun _ h => h.1
  | timeout => exact Safe.pure fun _ h => h.1
  | notRead => exact Safe.pure fun _ h => h.1
  | samples record => exact safe_analyzeSinc a _

theorem safe_measureSinc (a : SincArgs) :
    Safe mode (Resting mode interrupted) (measureSinc P a) (fun _ => Lifecycle mode interrupted)
      (Lifecycle mode interrupted) := by
  refine Safe.bind (safe_applyDecimation a.decimation) fun taken => ?_
  refine Safe.ite (fun htaken => ?_) fun _ => Safe.pure fun _ h => h.1.1
  have hkeep : ∀ s, (Resting mode interrupted s ∧ s.fftProcessor.isSome = true) →
      Lifecycle mode interrupted s := fun _ h => h.1.1
  refine Safe.bind (Safe.modify
    (Q := fun _ s => Resting mode interrupted s ∧ s.fftProcessor.isSome = true) fun s h =>
      ⟨h.1.of_same ⟨rfl, rfl, rfl, rfl, rfl, id⟩ rfl, h.2 htaken⟩) fun _ => ?_
  refine Safe.bind (Safe.conseq (safe_generate (fun _ h => h.1.ready.signalGen) _) (fun _ h => h)
    (fun _ _ h => h) hkeep) fun signal => ?_
  refine Safe.bind (Safe.hardwareCall (fun _ h => h.1.ready.hardware) hkeep) fun loaded => ?_
  refine Safe.ite (fun _ => ?_) fun _ => Safe.pure hkeep
  refine Safe.conseq (safe_scopedMeasurement (B := Chained mode interrupted) (fun s h =>
    ⟨h.1.of_same ⟨rfl, rfl, rfl, rfl, rfl, id⟩, h.2⟩) (safe_runSinc a))
    (fun _ h => ⟨h.1.ready, h.2⟩) (fun _ _ h => h) fun _ h => h

theorem safe_sweepLoop (a : SweepArgs) (points : List ℕ) (spectrum : List SpectrumPoint) :
    Safe mode (Ready mode interrupted) (sweepLoop P a points spectrum)
      (fun _ => Ready mode interrupted) (Ready mode interrupted) := by
  induction points generalizing spectrum with
  | nil => exact Safe.pure fun _ h => h
  | cons point points ih =>
      refine Safe.bind (Safe.call fun _ => by simp) fun cancelled => ?_
      refine Safe.ite (fun _ => Safe.pure fun _ h => h) fun _ => ?_
      refine Safe.bind (safe_generate (fun _ h => h.signalGen) _) fun signal => ?_
      refine Safe.bind (Safe.hardwareCall (fun _ h => h.hardware) fun _ h => h) fun loaded => ?_
      refine Safe.ite (fun _ => ?_) fun _ => Safe.pure fun _ h => h
      refine Safe.bind (safe_acquire (fun _ h => h.hardware) sweepSamples) fun acquisition => ?_
      cases acquisition with
      | notStarted => exact Safe.pure fun _ h => h
      | timeout => exact Safe.pure fun _ h => h
      | notRead => exact Safe.pure fun _ h => h
      | samples record =>
          refine Safe.bind (Safe.modify (Q := fun _ => Ready mode interrupted) fun s h =>
            h.of_same ⟨rfl, rfl, rfl, rfl, rfl, id⟩) fun _ => ?_
          exact Safe.bind (Safe.resetMeasurement fun _ h => h.hardware) fun _ => ih _

theorem safe_measureSweep (a : SweepArgs) :
    Safe mode (Resting mode interrupted) (measureSweep P a) (fun _ => Lifecycle mode interrupted)
      (Lifecycle mode interrupted) := by
  refine Safe.bind (safe_applyDecimation a.decimation) fun taken => ?_
  refine Safe.ite (fun htaken => ?_) fun _ => Safe.pure fun _ h => h.1.1
  refine Safe.bind (Safe.modify (Q := fun _ => Ready mode interrupted) fun s h =>
    h.1.ready.of_same ⟨rfl, rfl, rfl, rfl, rfl, id⟩) fun _ => ?_
  exact safe_scopedMeasurement (fun s h => h.of_same ⟨rfl, rfl, rfl, rfl, rfl, id⟩)
    (safe_sweepLoop a _ _)

theorem keepsLife_handleMeasSinc (cmd : ParsedCommand) :
    KeepsLife mode interrupted (handleMeasSinc P cmd) :=
  Safe.checked (fun _ _ hs _ => hs) fun a =>
    Safe.conseq (safe_measureSinc a) (fun _ hs => ⟨hs.1, (sincArgs_valid hs.2).initialized⟩)
      (fun _ _ hs => hs) fun _ hs => hs

theorem keepsLife_handleMeasSweep (cmd : ParsedCommand) :
    KeepsLife mode interrupted (handleMeasSweep P cmd) :=
  Safe.checked (fun _ _ hs _ => hs) fun a =>
    Safe.conseq (safe_measureSweep a) (fun _ hs => ⟨hs.1, (sweepArgs_valid hs.2).initialized⟩)
      (fun _ _ hs => hs) fun _ hs => hs

end Measure

/-! ### Reset and shutdown -/

section Release

variable {mode : OperatingMode} {interrupted : Prop}

theorem safe_deleteHardware {B D : CommandHandler → Prop}
    (h : ∀ s, B s → D { s with hardware := false }) (hoff : ∀ s, B s → s.hardware = false → D s)
    {E : CommandHandler → Prop} : Safe mode B deleteHardware (fun _ => D) E := by
  refine Safe.read fun v => Safe.ite (fun _ => ?_) fun hnull => Safe.pure ?_
  · exact Safe.bind (Safe.call fun _ => by simp) fun _ => Safe.modify fun s hs => h s hs.2
  · rintro s ⟨rfl, hs⟩
    exact hoff _ hs (by simpa using hnull)

theorem safe_releaseHardware {B D : CommandHandler → Prop}
    (h : ∀ s, B s → D { s with hardware := false }) (hoff : ∀ s, B s → s.hardware = false → D s)
    {E : CommandHandler → Prop} : Safe mode B releaseHardware (fun _ => D) E := by
  refine Safe.read fun v => Safe.ite (fun _ => ?_) fun hnull => Safe.pure ?_
  · refine Safe.bind (Safe.call fun _ => by simp) fun _ => ?_
    exact safe_deleteHardware (fun s hs => h s hs.2) fun s hs hnull => hoff s hs.2 hnull
  · rintro s ⟨rfl, hs⟩
    exact hoff _ hs (by simpa using hnull)

theorem safe_releaseBoard {B D : CommandHandler → Prop}
    (h : ∀ s, B s → D { s with board := false }) (hoff : ∀ s, B s → s.board = false → D s)
    {E : CommandHandler → Prop} : Safe mode B releaseBoard (fun _ => D) E := by
  refine Safe.read fun v => Safe.ite (fun _ => ?_) fun hnull => Safe.pure ?_
  · refine Safe.bind (Safe.call fun _ => by simp) fun _ => ?_
    refine Safe.bind (Safe.call fun _ => by simp) fun _ => ?_
    exact Safe.modify fun s hs => h s hs.2
  · rintro s ⟨rfl, hs⟩
    exact hoff _ hs (by simpa using hnull)

/-- The mode stays whatever is released. -/
def InMode (mode : OperatingMode) (s : CommandHandler) : Prop :=
  s.status.mode = mode ∧ s.status.measurementInProgress = false

/-- A handler that is neither initialized nor connected owes nothing to its pointers. -/
theorem InMode.lifecycle {s : CommandHandler} (h : InMode mode s)
    (hinit : s.status.hardwareInitialized = false) (hconnected : s.status.boardConnected = false) :
    Lifecycle mode interrupted s :=
  { mode_eq := h.1
    hardware := fun hi => by rw [hinit] at hi; cases hi
    signalGen := fun hi => by rw [hinit] at hi; cases hi
    board := fun hc => by rw [hconnected] at hc; cases hc
    connected := fun hc => by rw [hconnected] at hc; cases hc
    rpOnly := fun _ => hconnected
    idle := h.2 }

/-- Reset and deinitialization begin alike: the hardware is released, then the board. -/
theorem safe_releaseAll {α : Type} {B E : CommandHandler → Prop} {Q : α → CommandHandler → Prop}
    {rest : Method α} (hb : ∀ s, B s → InMode mode s) (hrest : Safe mode (InMode mode) rest Q E) :
    Safe mode B (releaseHardware >>= fun _ => releaseBoard >>= fun _ => rest) Q E := by
  refine Safe.bind (safe_releaseHardware (D := InMode mode) (fun s hs => hb s hs)
    fun s hs _ => hb s hs) fun _ => ?_
  exact Safe.bind (safe_releaseBoard (D := InMode mode) (fun s hs => hs) fun s hs _ => hs)
    fun _ => hrest

theorem safe_handleRst (B : CommandHandler → Prop) (hb : ∀ s, B s → InMode mode s)
    {E : CommandHandler → Prop} :
    Safe mode B handleRst (fun _ => Lifecycle mode interrupted) E := by
  refine safe_releaseAll hb (Safe.bind (Safe.modify (Q := fun _ => Lifecycle mode interrupted)
    fun s hs => ?_) fun _ => Safe.pure fun _ h => h)
  -- The status is a fresh one: only the mode is left of the old.
  exact InMode.lifecycle ⟨hs.1, rfl⟩ rfl rfl

theorem keepsLife_handleSystDeinit : KeepsLife mode interrupted handleSystDeinit := by
  refine Safe.read fun v => Safe.ite (fun _ => ?_) fun _ => Safe.pure fun _ h => h.2
  refine safe_releaseAll (fun s hs => ⟨hs.2.mode_eq, hs.2.idle⟩)
    (Safe.bind (Safe.modify (Q := fun _ => Lifecycle mode interrupted) fun s hs => ?_) fun _ =>
      Safe.pure fun _ h => h)
  exact InMode.lifecycle ⟨hs.1, hs.2⟩ rfl rfl

end Release

/-! ### Initialization -/

section Init

variable {mode : OperatingMode} {interrupted : Prop}

/-- The handler is not initialized. -/
def Closed (mode : OperatingMode) (interrupted : Prop) (s : CommandHandler) : Prop :=
  Lifecycle mode interrupted s ∧ s.status.hardwareInitialized = false

/-- The handler is not initialized, but its hardware is there. -/
def Powered (mode : OperatingMode) (s : CommandHandler) : Prop :=
  Closed mode True s ∧ s.hardware = true

theorem Closed.setHardware {s : CommandHandler} (h : Closed mode interrupted s) (hardware : Bool) :
    Closed mode interrupted { s with hardware := hardware } :=
  ⟨{ h.1 with hardware := fun hi => by rw [h.2] at hi; cases hi }, h.2⟩

theorem Lifecycle.weaken {interrupted' : Prop} {s : CommandHandler}
    (h : Lifecycle mode interrupted s) (himp : interrupted → interrupted') :
    Lifecycle mode interrupted' s :=
  { h with connected := fun hc => (h.connected hc).imp_right himp }

theorem safe_openHardware :
    Safe mode (Closed mode interrupted) openHardware
      (fun opened s => Closed mode interrupted s ∧ (opened = true → s.hardware = true))
      (Lifecycle mode interrupted) := by
  refine Safe.bind (Q := fun _ => Closed mode interrupted) ?_ fun _ => ?_
  · refine Safe.bind (Safe.call fun _ => by simp) fun reply => ?_
    exact Safe.bind (Safe.orThrow reply fun _ h => h.1) fun made =>
      Safe.modify fun s h => h.setHardware made
  refine Safe.read fun v => Safe.ite (fun hv => ?_) fun _ => Safe.pure fun _ h =>
    ⟨h.2, fun hf => by cases hf⟩
  refine Safe.conseq (Safe.hardwareCall
    (B := fun s => Closed mode interrupted s ∧ s.hardware = true) (fun _ h => h.2) fun _ h => h.1.1)
    ?_ (fun _ _ h => ⟨h.1, fun _ => h.2⟩) fun _ h => h
  rintro s ⟨rfl, hs⟩
  exact ⟨hs, hv⟩

/-- The board while it is being opened: the flag still tells of an earlier one. -/
structure Opening (mode : OperatingMode) (opened : Bool) (s : CommandHandler) : Prop where
  mode_eq : s.status.mode = mode
  initialized : s.status.hardwareInitialized = false
  hardware : s.hardware = true
  board : opened = true → s.board = true
  idle : s.status.measurementInProgress = false

theorem safe_openBoard (hmode : mode ≠ .rpOnly) :
    Safe mode (Powered mode) openBoard (Opening mode) (Lifecycle mode True) := by
  have hset : ∀ s made, Powered mode s →
      Opening mode made { s with board := made } := fun s made h =>
    { mode_eq := h.1.1.mode_eq
      initialized := h.1.2
      hardware := h.2
      board := id
      idle := h.1.1.idle }
  refine Safe.bind (Q := fun _ s => Opening mode s.board s) ?_ fun _ => ?_
  · refine Safe.bind (Safe.call fun h => absurd h hmode) fun reply => ?_
    exact Safe.bind (Safe.orThrow reply fun _ h => h.1.1) fun made =>
      Safe.modify fun s h => hset s made h
  refine Safe.read fun v => Safe.ite (fun hv => ?_) fun _ => Safe.pure fun s h =>
    { h.2 with board := fun hf => by cases hf }
  refine Safe.conseq (Safe.boardCall (B := Opening mode true)
    (E := Lifecycle mode True) (fun _ h => h.board rfl) fun s h => ?_) ?_
    (fun _ _ h => { h with board := fun _ => h.board rfl }) fun _ h => h
  · exact
      { mode_eq := h.mode_eq
        hardware := fun _ => h.hardware
        signalGen := fun hi => by rw [h.initialized] at hi; cases hi
        board := fun _ => h.board rfl
        connected := fun _ => Or.inr trivial
        rpOnly := fun hm => absurd hm hmode
        idle := h.idle }
  · rintro s ⟨rfl, hs⟩
    exact { hs with board := fun _ => hv }

theorem safe_connectBoard :
    Safe mode (Powered mode) connectBoard (fun _ => Powered mode) (Lifecycle mode True) := by
  refine Safe.read fun v => Safe.ite (fun hv => Safe.modify ?_) fun hv => ?_
  · rintro s ⟨rfl, hs⟩
    refine ⟨⟨{ hs.1.1 with
      board := fun hc => (Bool.false_ne_true hc).elim
      connected := fun _ => Or.inr trivial
      rpOnly := fun _ => rfl }, hs.1.2⟩, hs.2⟩
  · rintro s calls ⟨⟨rfl, hs⟩, hcalls⟩
    have hmode : mode ≠ .rpOnly := fun hm => hv (hs.1.1.mode_eq.trans hm)
    refine Safe.bind (safe_openBoard hmode) (fun opened => Safe.modify fun s h => ?_) _ calls
      ⟨hs, hcalls⟩
    exact
      ⟨⟨{ mode_eq := h.mode_eq
          hardware := fun _ => h.hardware
          signalGen := fun hi => by
            have hf : s.status.hardwareInitialized = true := hi
            rw [h.initialized] at hf
            cases hf
          board := h.board
          connected := fun _ => Or.inr trivial
          rpOnly := fun hm => absurd hm hmode
          idle := h.idle }, h.initialized⟩, h.hardware⟩

theorem safe_prepareInit :
    Safe mode (Powered mode) prepareInit
      (fun _ s => Powered mode s ∧ s.signalGen.isSome = true) (Lifecycle mode True) := by
  refine Safe.bind safe_connectBoard fun _ => ?_
  refine Safe.bind (Safe.hardwareCall (fun _ h => h.2) fun _ h => h.1.1) fun decimation => ?_
  refine Safe.bind (Safe.modify (Q := fun _ => Powered mode) fun s h =>
    ⟨⟨h.1.1.of_same ⟨rfl, rfl, rfl, rfl, rfl, id⟩ rfl, h.1.2⟩, h.2⟩) fun _ => ?_
  unfold makeSignalGen
  cases SignalGenerator.make (ServerConfig.adcSampleRateHz / (decimation : ℚ)) decimation with
  | ok g =>
      exact Safe.modify fun s h =>
        ⟨⟨⟨h.1.1.of_same ⟨rfl, rfl, rfl, rfl, rfl, fun _ => rfl⟩ rfl, h.1.2⟩, h.2⟩, rfl⟩
  | error what => exact Safe.throw (by simp) fun _ h => h.1.1

/-- Reading the board keeps whatever does not depend on the cache. -/
theorem safe_refreshIfConnected {B : CommandHandler → Prop}
    (h : ∀ s gains routing known, B s →
      B { s with channelGains := gains, muxRouting := routing, muxRoutingKnown := known }) :
    Safe mode B refreshIfConnected (fun _ => B) B := by
  refine Safe.read fun v => Safe.ite (fun _ => ?_) fun _ => Safe.pure fun _ hs => hs.2
  refine Safe.bind (Safe.modify (Q := fun _ => B) fun s hs => h s _ _ _ hs.2) fun _ => ?_
  refine Safe.read fun v => Safe.ite (fun hv => ?_) fun _ => Safe.pure fun _ hs => hs.2
  refine Safe.conseq (B := fun s => B s ∧ s.board = true) (Q := fun _ => B) ?_ ?_ (fun _ _ hs => hs)
    fun _ hs => hs
  · refine Safe.bind (Q := fun _ s => B s ∧ s.board = true) ?_ fun _ => ?_
    · refine Safe.bind (Safe.boardCall (fun _ hs => hs.2) fun _ hs => hs.1) fun gains => ?_
      cases gains with
      | none => exact Safe.pure fun _ hs => hs
      | some gains => exact Safe.modify fun s hs => ⟨h s _ _ _ hs.1, hs.2⟩
    · refine Safe.bind (Safe.boardCall (fun _ hs => hs.2) fun _ hs => hs.1) fun routing => ?_
      cases routing with
      | none => exact Safe.pure fun _ hs => hs.1
      | some routing => exact Safe.modify fun s hs => h s _ _ _ hs.1
  · rintro s ⟨rfl, hs⟩
    exact ⟨hs, hv⟩

/-- What an initialization leaves: if it replies `OK`, no exception counts any more. -/
def AfterInit (mode : OperatingMode) (interrupted : Prop) (reply : Reply) : CommandHandler → Prop :=
  Lifecycle mode (interrupted ∧ reply.status ≠ .ok)

/-- An initialized handler does not depend on what has happened before. -/
theorem Lifecycle.of_initialized {interrupted' : Prop} {s : CommandHandler}
    (h : Lifecycle mode interrupted s) (hi : s.status.hardwareInitialized = true) :
    Lifecycle mode interrupted' s :=
  { h with connected := fun _ => Or.inl hi }

theorem safe_finishInit :
    Safe mode (Powered mode) finishInit (AfterInit mode interrupted) (Lifecycle mode True) := by
  refine Safe.bind safe_prepareInit fun _ => ?_
  refine Safe.bind (Safe.conseq (safe_refreshIfConnected
    (B := fun s => Powered mode s ∧ s.signalGen.isSome = true) ?_) (fun _ h => h)
    (fun _ _ h => h) fun _ h => h.1.1.1) fun _ => ?_
  · rintro s gains routing known ⟨⟨⟨h, hi⟩, hh⟩, hg⟩
    exact ⟨⟨⟨h.of_same ⟨rfl, rfl, rfl, rfl, rfl, id⟩ rfl, hi⟩, hh⟩, hg⟩
  refine Safe.bind (Safe.modify (Q := fun _ => Lifecycle mode False) ?_) fun _ => ?_
  · rintro s ⟨⟨⟨h, -⟩, hh⟩, hg⟩
    exact
      { mode_eq := h.mode_eq
        hardware := fun _ => hh
        signalGen := fun _ => hg
        board := h.board
        connected := fun _ => Or.inl rfl
        rpOnly := h.rpOnly
        idle := h.idle }
  · exact Safe.read fun v => Safe.pure fun s h => h.2.weaken False.elim

theorem safe_handleSystInit :
    Safe mode (Lifecycle mode interrupted) handleSystInit (AfterInit mode interrupted)
      (Lifecycle mode True) := by
  refine Safe.read fun v => Safe.ite (fun hv => Safe.pure ?_) fun hv => ?_
  · rintro s ⟨rfl, hs⟩
    exact hs.of_initialized hv
  refine Safe.conseq (B := Closed mode interrupted) ?_ ?_ (fun _ _ h => h) fun _ h => h
  · refine Safe.bind (Safe.conseq safe_openHardware (fun _ h => h) (fun _ _ h => h)
      fun _ h => h.weaken fun _ => trivial) fun opened => ?_
    cases opened with
    | false =>
        refine Safe.bind (safe_deleteHardware (D := Closed mode interrupted)
          (fun s h => h.1.setHardware false) fun s h _ => h.1) fun _ => Safe.pure fun s h => ?_
        exact h.1.weaken fun hi => ⟨hi, by simp [errorReply, Reply.status]⟩
    | true =>
        exact Safe.conseq safe_finishInit
          (fun _ h => ⟨⟨h.1.1.weaken fun _ => trivial, h.1.2⟩, h.2 rfl⟩) (fun _ _ h => h)
          fun _ h => h
  · rintro s ⟨rfl, hs⟩
    exact ⟨hs, by simpa using hv⟩

end Init

/-! ### Every command -/

section Dispatch

variable {mode : OperatingMode} {interrupted : Prop} {P : Platform}

/-- Every command but the initialization keeps what holds between two commands. -/
theorem keepsLife_dispatch {cmd : ParsedCommand} (hne : cmd.command ≠ .systInit) :
    KeepsLife mode interrupted (dispatch P cmd) := by
  unfold dispatch
  cases hc : cmd.command with
  | idn => exact keepsLife_pure _
  | rst =>
      exact Safe.conseq (safe_handleRst (Lifecycle mode interrupted)
        fun s h => ⟨h.mode_eq, h.idle⟩) (fun _ h => h) (fun _ _ h => h) fun _ h => h
  | opc => exact keepsLife_pure _
  | systPing => exact keepsLife_pure _
  | systVersion => exact keepsLife_pure _
  | systStatus =>
      exact keepsLife_modify (fun _ => ⟨rfl, rfl, rfl, rfl, rfl, id⟩) (fun _ => rfl)
        (keepsLife_get _)
  | systInit => exact absurd hc hne
  | systDeinit => exact keepsLife_handleSystDeinit
  | systMode => exact keepsLife_get _
  | systShutdown => exact keepsLife_pure _
  | boardMuxRoute =>
      exact keepsLife_setting (fun _ _ ha => requireBoard_of_muxRouteArgs ha)
        fun _ => keepsLife_okWithWarning
  | boardMuxDisconnect =>
      exact keepsLife_setting (fun _ _ ha => requireBoard_of_muxDisconnectArgs ha)
        fun _ => keepsLife_okWithWarning
  | boardGain =>
      exact keepsLife_setting (fun _ _ ha => requireBoard_of_gainArgs ha)
        fun _ => keepsLife_okWithSuffix _
  | boardAdcLoop => exact keepsLife_handleBoardAdcLoop cmd
  | boardAdcProtect => exact keepsLife_handleBoardAdcProtect cmd
  | boardAdcSampleGain => exact keepsLife_handleBoardAdcSampleGain cmd
  | boardReset => exact keepsLife_setting (fun _ _ ha => ha) fun _ => keepsLife_okWithSuffix _
  | boardStatus => exact keepsLife_handleBoardStatus
  | measSinc => exact keepsLife_handleMeasSinc cmd
  | measSweep => exact keepsLife_handleMeasSweep cmd
  | unknown => exact keepsLife_pure _

/-- Whether an exception has left an initialization unfinished, after one more command: a reset or
an initialization that replies `OK` settles it. -/
def stillInterrupted (cmd : ParsedCommand) (r : Except Fault Reply) (interrupted : Bool) : Bool :=
  match r with
  | .error _ => interrupted || cmd.command = .systInit
  | .ok reply =>
      interrupted && !((cmd.command = .systInit || cmd.command = .rst) && reply.status = .ok)

theorem stillInterrupted_of_not_ok {cmd : ParsedCommand} {reply : Reply} {interrupted : Bool}
    (h : reply.status ≠ .ok) : stillInterrupted cmd (.ok reply) interrupted = interrupted := by
  simp [stillInterrupted, h]

/-- The handlers of an operating mode between two commands, and whether an exception has left an
initialization unfinished. -/
inductive Lifetime (P : Platform) (mode : OperatingMode) : CommandHandler → Bool → Prop
  | start (measurementTimeoutMs : ℤ) : Lifetime P mode (make measurementTimeoutMs mode) false
  | command {s s' : CommandHandler} {interrupted : Bool} {cmd : ParsedCommand}
      {r : Except Fault Reply} {calls : Calls} :
      Lifetime P mode s interrupted → Runs journal [] (handleCommand P cmd s) (r, s') calls →
      Lifetime P mode s' (stillInterrupted cmd r interrupted)

theorem holds_nil {B : CommandHandler → Prop} {s : CommandHandler} (h : B s) :
    Holds mode B s [] :=
  ⟨h, fun _ call hcall => by cases hcall⟩

/-- What a command does to a handler between two commands. -/
structure Carried (mode : OperatingMode) (interrupted : Prop) (r : Except Fault Reply)
    (s' : CommandHandler) (calls : Calls) : Prop where
  lifecycle : Lifecycle mode interrupted s'
  noNull : r ≠ .error .nullPointer
  noFactory : mode = .rpOnly → ∀ call ∈ calls, call.1 ≠ .boardFactory

/-- A method that keeps a condition has carried it over. -/
theorem Safe.carried {m : Method Reply} {B E : CommandHandler → Prop}
    {Q : Reply → CommandHandler → Prop} (hm : Safe mode B m Q E) {s s' : CommandHandler}
    {r : Except Fault Reply} {calls : Calls} (hs : B s)
    (hrun : Runs journal [] (m s) (r, s') calls)
    (hok : ∀ reply, r = .ok reply → Q reply s' → Lifecycle mode interrupted s')
    (herror : ∀ e, r = .error e → E s' → Lifecycle mode interrupted s') :
    Carried mode interrupted r s' calls := by
  have h := hm s [] (holds_nil hs) r s' calls hrun
  cases r with
  | ok reply => exact ⟨hok reply rfl h.1, by simp, h.2⟩
  | error e =>
      refine ⟨herror e rfl h.2.1, ?_, h.2.2⟩
      rintro ⟨⟩
      exact h.1 rfl

theorem carried_dispatch {cmd : ParsedCommand} {s s' : CommandHandler} {interrupted : Bool}
    {r : Except Fault Reply} {calls : Calls} (h : Lifecycle mode (interrupted = true) s)
    (hrun : Runs journal [] (dispatch P cmd s) (r, s') calls) :
    Carried mode (stillInterrupted cmd r interrupted = true) r s' calls := by
  by_cases hinit : cmd.command = .systInit
  · have hdispatch : dispatch P cmd = handleSystInit := by simp [dispatch, hinit]
    rw [hdispatch] at hrun
    refine safe_handleSystInit.carried h hrun ?_ ?_
    · rintro reply rfl hafter
      refine hafter.weaken ?_
      rintro ⟨hi, hstatus⟩
      simp [stillInterrupted, hi, hstatus]
    · rintro e rfl hafter
      exact hafter.weaken fun _ => by simp [stillInterrupted, hinit]
  -- of the other commands only a reset ends an interrupted initialization
  by_cases hrst : cmd.command = .rst
  · have hdispatch : dispatch P cmd = handleRst := by simp [dispatch, hrst]
    rw [hdispatch] at hrun
    have hsafe : Safe mode (Lifecycle mode (interrupted = true)) handleRst
        (fun _ => Lifecycle mode (stillInterrupted cmd r interrupted = true))
        (Lifecycle mode (stillInterrupted cmd r interrupted = true)) :=
      safe_handleRst _ fun s hs => ⟨hs.mode_eq, hs.idle⟩
    exact hsafe.carried h hrun (fun _ _ hs => hs) fun _ _ hs => hs
  · have hkeep : stillInterrupted cmd r interrupted = interrupted := by
      cases r with
      | ok reply => simp [stillInterrupted, hinit, hrst]
      | error e => simp [stillInterrupted, hinit]
    rw [hkeep]
    exact (keepsLife_dispatch hinit).carried h hrun (fun _ _ hs => hs) fun _ _ hs => hs

theorem carried_handleCommand {cmd : ParsedCommand} {s s' : CommandHandler} {interrupted : Bool}
    {r : Except Fault Reply} {calls : Calls} (h : Lifecycle mode (interrupted = true) s)
    (hrun : Runs journal [] (handleCommand P cmd s) (r, s') calls) :
    Carried mode (stillInterrupted cmd r interrupted = true) r s' calls := by
  unfold handleCommand at hrun
  by_cases hargs : cmd.command ≠ .unknown ∧ maxArgCount cmd.command < cmd.args.length
  · rw [if_pos hargs] at hrun
    obtain ⟨heq, rfl⟩ := runs_done.1 hrun
    cases heq
    rw [stillInterrupted_of_not_ok (by unfold tooManyArgs; exact fun hok => by cases hok)]
    exact ⟨h, by simp, fun _ call hcall => by cases hcall⟩
  · rw [if_neg hargs] at hrun
    exact carried_dispatch h hrun

theorem lifecycle_make (measurementTimeoutMs : ℤ) :
    Lifecycle mode interrupted (make measurementTimeoutMs mode) where
  mode_eq := rfl
  hardware h := (Bool.false_ne_true h).elim
  signalGen h := (Bool.false_ne_true h).elim
  board h := (Bool.false_ne_true h).elim
  connected h := (Bool.false_ne_true h).elim
  rpOnly _ := rfl
  idle := rfl

theorem Lifetime.lifecycle {s : CommandHandler} {interrupted : Bool}
    (h : Lifetime P mode s interrupted) : Lifecycle mode (interrupted = true) s := by
  induction h with
  | start measurementTimeoutMs => exact lifecycle_make measurementTimeoutMs
  | command _ hrun ih => exact (carried_handleCommand ih hrun).lifecycle

/-- **The life of a handler**: between two commands flags and pointers hang together, no command
uses a null pointer or, in RP-only mode, calls the board factory, and the channels of the estimate
are indices into the caches. -/
theorem lifecycle_always {s : CommandHandler} {interrupted : Bool} (h : Lifetime P mode s interrupted) :
    Lifecycle mode (interrupted = true) s ∧
      (∀ cmd r s' (calls : Calls), Runs journal [] (handleCommand P cmd s) (r, s') calls →
        r ≠ .error .nullPointer ∧ (mode = .rpOnly → ∀ call ∈ calls, call.1 ≠ .boardFactory)) ∧
      ∀ amplitude, (s.estimateAdcLoop P.arithmetic amplitude).exciteChannel.val < numChannels ∧
        (s.estimateAdcLoop P.arithmetic amplitude).returnChannel.val < numChannels := by
  refine ⟨h.lifecycle, ?_, fun amplitude => ⟨Fin.isLt _, Fin.isLt _⟩⟩
  intro cmd r s' calls hrun
  have hcarried := carried_handleCommand h.lifecycle hrun
  exact ⟨hcarried.noNull, hcarried.noFactory⟩

/-- Devices that work carry on the life of a handler. -/
theorem Lifetime.carriedOut {A : Arithmetic} {s : CommandHandler} {interrupted : Bool}
    (h : Lifetime (flat A) mode s interrupted) (cmd : ParsedCommand) :
    Lifetime (flat A) mode (s.carriedOut A cmd) (stillInterrupted cmd
      ((handleCommand (flat A) cmd s).eval smooth []).1.1 interrupted) :=
  .command h (smooth_runs _ [])

/-- The handler after `SYSTEM:INIT` and `BOARD:GAIN 2,5` on devices that work. -/
def amplified : CommandHandler :=
  ((make 5000 .full).carriedOut .ieee { command := .systInit }).carriedOut .ieee
    { command := .boardGain, args := ["2".toList, "5".toList] }

/-- The handler whose `SYSTEM:INIT` an exception has left: the board is connected, and then the
hardware fails to tell its decimation. -/
def abandoned : CommandHandler :=
  { make 5000 .full with hardware := true, board := true, status.boardConnected := true }

theorem lifetime_amplified : Lifetime (flat .ieee) .full amplified false := by
  have hstart : Lifetime (flat .ieee) .full (make 5000 .full) false := .start 5000
  have h := (hstart.carriedOut { command := .systInit }).carriedOut
    { command := .boardGain, args := ["2".toList, "5".toList] }
  have hsettled : stillInterrupted { command := .boardGain, args := ["2".toList, "5".toList] }
      ((handleCommand (flat .ieee) { command := .boardGain, args := ["2".toList, "5".toList] }
        ((make 5000 .full).carriedOut .ieee { command := .systInit })).eval smooth []).1.1
      (stillInterrupted { command := .systInit } ((handleCommand (flat .ieee)
        { command := .systInit } (make 5000 .full)).eval smooth []).1.1 false) = false := by
    decide +kernel
  rwa [hsettled] at h

theorem lifetime_abandoned (P : Platform) : Lifetime P .full abandoned true := by
  have hrun : Runs journal [] (handleCommand P { command := .systInit } (make 5000 .full))
      (.error (.thrown []), abandoned)
      [⟨.hardwareFactory, .ok true⟩, ⟨.hardware .initializeHardware, .ok true⟩,
        ⟨.boardFactory, .ok true⟩, ⟨.board .initializeBoard, .ok true⟩,
        ⟨.hardware .getDecimation, .error []⟩] := by
    refine .call (r := (.ok true : Except Text Bool)) rfl ?_
    refine .call (r := (.ok true : Except Text Bool)) rfl ?_
    refine .call (r := (.ok true : Except Text Bool)) rfl ?_
    refine .call (r := (.ok true : Except Text Bool)) rfl ?_
    exact .call (r := (.error [] : Except Text ℕ)) rfl (.done _ _)
  exact .command (.start 5000) hrun

/-- The life of these two: after two commands, and after an exception. -/
theorem lifecycle_always_two :
    (amplified.status.boardConnected = true ∧ Lifecycle .full (false = true) amplified ∧
      (∀ cmd r s' (calls : Calls),
        Runs journal [] (handleCommand (flat .ieee) cmd amplified) (r, s') calls →
        r ≠ .error .nullPointer ∧
          (OperatingMode.full = .rpOnly → ∀ call ∈ calls, call.1 ≠ .boardFactory)) ∧
      ∀ amplitude, (amplified.estimateAdcLoop .ieee amplitude).exciteChannel.val < numChannels ∧
        (amplified.estimateAdcLoop .ieee amplitude).returnChannel.val < numChannels) ∧
      abandoned.status.boardConnected = true ∧ Lifecycle .full (true = true) abandoned :=
  ⟨⟨by decide +kernel, lifecycle_always lifetime_amplified⟩, rfl,
    (lifecycle_always (lifetime_abandoned (flat .ieee))).1⟩

end Dispatch

end CommandHandler

end Afm
