/-
**Measurements of the window.**

A measurement runs in a thread of its own.  Its signals wait in the queue of the window and are
delivered one by one, while the Measure button starts the next measurement as soon as the thread has
ended.  The window keeps the parameters of one measurement only, so a result that is delivered after
the next click is stored with the parameters of the wrong one.

Clicks on the Measure button, the threads, and the delivery of what they emit are the steps here, in
any order.  So is the reconnection that follows a cancelled measurement.

Main definitions:

* `Afm.Gui.Window`, `Afm.Gui.Event`, `Afm.Gui.Window.step` — the window and what can happen;
* `Afm.Gui.Reached` — the windows reached by runs whose steps meet a condition;
* `Afm.Gui.Window.Attributed` — what should hold in every window reached;
* `Afm.Gui.Prompt` — no measurement is started while a result is waiting.

Main results:

* `Afm.Gui.Reached.serial` — in every run, only the thread started last can be running;
* `Afm.Gui.Window.Tracked.step`, `Afm.Gui.Window.Tracked.attributed_iff` — what a step keeps when no
  click comes early, and that an early click breaks it;
* `Afm.Gui.reached_attributed` — **results are attributed** in every run without an early click.
-/

import RedPitayaAfm.Text

set_option relaxedAutoImplicit false
set_option autoImplicit false

namespace Afm.Gui

/-! ### Threads and signals -/

/-- `MeasureWorker.mode` -/
inductive Mode
  | sinc | sweep
  deriving DecidableEq

/-- How far a thread is. -/
inductive Phase
  /-- It waits for the client. -/
  | measuring
  /-- It has emitted `elapsed`. -/
  | timed
  /-- It has emitted `finished` or `error`. -/
  | reported
  /-- `isRunning` is false. -/
  | ended
  deriving DecidableEq

/-- `MeasureWorker` -/
structure MeasureWorker (Params : Type) where
  mode : Mode
  params : Params
  phase : Phase := .measuring
  deriving DecidableEq

/-- A signal that waits for its delivery, with the number of the thread that emitted it. -/
inductive Signal (Spectrum : Type)
  | elapsed (worker : ℕ) (dt : ℚ)
  | finished (worker : ℕ) (spectrum : Spectrum)
  | error (worker : ℕ) (msg : Text)
  /-- `ConnectWorker.connected` -/
  | connected
  /-- `ConnectWorker.error` -/
  | connectError
  deriving DecidableEq

/-- The thread whose measurement ends with the signal. -/
def Signal.outcome {Spectrum : Type} : Signal Spectrum → Option ℕ
  | .finished worker _ => some worker
  | .error worker _ => some worker
  | _ => none

/-- The signal ends a connection attempt. -/
def Signal.isConnect {Spectrum : Type} : Signal Spectrum → Bool
  | .connected => true
  | .connectError => true
  | _ => false

/-! ### The window -/

/-- `AFMMainWindow`, as far as measurements go.  The threads are in the order of their start, so
`_worker` is the last of them; a stored spectrum comes with the number of the thread that measured
it. -/
structure Window (Params Spectrum : Type) where
  workers : List (MeasureWorker Params) := []
  /-- The events Qt has queued for the window. -/
  queue : List (Signal Spectrum) := []
  /-- `client.is_connected` -/
  connected : Bool := false
  /-- `_connect_worker` is running. -/
  connecting : Bool := false
  cancelling : Bool := false
  closing : Bool := false
  controlsEnabled : Bool := false
  /-- `measure_btn.isEnabled` -/
  measureEnabled : Bool := false
  measureTime : ℚ := 0
  pendingMode : Mode := .sinc
  pendingParams : Params
  lastMode : Mode := .sinc
  lastParams : Params
  lastSpectrum : Option (ℕ × Spectrum) := none
  deriving DecidableEq

namespace Window

variable {Params Spectrum : Type}

/-- The window after its constructor and the first `_start_connect`. -/
def opened [Inhabited Params] : Window Params Spectrum :=
  { connecting := true, pendingParams := default, lastParams := default }

variable (s : Window Params Spectrum)

/-- `_set_controls_enabled` -/
def setControlsEnabled (enabled : Bool) : Window Params Spectrum :=
  { s with controlsEnabled := enabled, measureEnabled := enabled }

/-- `_update_connection_ui` -/
def updateConnectionUi (connected : Bool) : Window Params Spectrum := s.setControlsEnabled connected

/-- `_start_connect`, on a new client. -/
def startConnect : Window Params Spectrum := { s with connected := false, connecting := true }

/-- `_worker is not None and _worker.isRunning()` -/
def workerRunning : Bool :=
  match s.workers.getLast? with
  | some w => w.phase != .ended
  | none => false

/-- `_cancel_measurement` -/
def cancelMeasurement : Window Params Spectrum :=
  { s with cancelling := true, measureEnabled := false, connected := false }

/-- The part of `_on_measure` that starts a thread. -/
def startMeasurement (mode : Mode) (params : Params) : Window Params Spectrum :=
  { s.setControlsEnabled false with
    -- the button stays on: the next click on it cancels
    measureEnabled := true
    pendingMode := mode
    pendingParams := params
    cancelling := false
    measureTime := 0
    workers := s.workers ++ [{ mode := mode, params := params }] }

/-- `_on_measure`; `commandsIdle` is what `_commands_idle` finds. -/
def onMeasure (commandsIdle : Bool) (mode : Mode) (params : Params) : Window Params Spectrum :=
  if s.workerRunning then s.cancelMeasurement
  else if commandsIdle then s.startMeasurement mode params
  else s

/-- `_on_measure_elapsed` -/
def onMeasureElapsed (dt : ℚ) : Window Params Spectrum := { s with measureTime := dt }

/-- `_on_measure_cancelled` -/
def onMeasureCancelled : Window Params Spectrum :=
  ({ s with cancelling := false }.updateConnectionUi false).startConnect

/-- `_on_measure_done` -/
def onMeasureDone (worker : ℕ) (spectrum : Spectrum) : Window Params Spectrum :=
  if s.closing then s
  else if s.cancelling then s.onMeasureCancelled
  else
    { s with
      lastSpectrum := some (worker, spectrum)
      lastMode := s.pendingMode
      lastParams := s.pendingParams }.setControlsEnabled true

/-- `_on_measure_error` -/
def onMeasureError : Window Params Spectrum :=
  if s.closing then s
  else if s.cancelling then s.onMeasureCancelled
  else s.updateConnectionUi s.connected

/-- `_on_connected` -/
def onConnected : Window Params Spectrum := if s.closing then s else s.updateConnectionUi true

/-- `_on_connect_error` -/
def onConnectError : Window Params Spectrum := if s.closing then s else s.updateConnectionUi false

/-- The slot of a signal. -/
def receive : Signal Spectrum → Window Params Spectrum
  | .elapsed _ dt => s.onMeasureElapsed dt
  | .finished worker spectrum => s.onMeasureDone worker spectrum
  | .error _ _ => s.onMeasureError
  | .connected => s.onConnected
  | .connectError => s.onConnectError

/-! ### Steps -/

/-- A thread goes from one phase to the next and emits its signals. -/
def advance (i : ℕ) (before after : Phase) (signals : List (Signal Spectrum)) :
    Option (Window Params Spectrum) :=
  match s.workers[i]? with
  | some w =>
      if w.phase = before then
        some { s with
          workers := s.workers.set i { w with phase := after }
          queue := s.queue ++ signals }
      else none
  | none => none

end Window

/-- What can happen. -/
inductive Event (Params Spectrum : Type)
  /-- A click on the Measure button. -/
  | click (commandsIdle : Bool) (mode : Mode) (params : Params)
  /-- The client has returned: `elapsed` is emitted. -/
  | elapsed (worker : ℕ) (dt : ℚ)
  /-- `finished` is emitted. -/
  | finished (worker : ℕ) (spectrum : Spectrum)
  /-- The client has raised an exception, which may have cost the connection. -/
  | error (worker : ℕ) (msg : Text) (connected : Bool)
  /-- The thread ends. -/
  | ended (worker : ℕ)
  /-- The connection attempt ends. -/
  | connectEnded (connected : Bool)
  /-- Qt delivers the next signal. -/
  | deliver
  /-- `closeEvent` -/
  | close

variable {Params Spectrum : Type}

/-- The next window, when the event is possible. -/
def Window.step (s : Window Params Spectrum) :
    Event Params Spectrum → Option (Window Params Spectrum)
  | .click commandsIdle mode params =>
      if s.measureEnabled = true ∧ s.closing = false then some (s.onMeasure commandsIdle mode params)
      else none
  | .elapsed i dt => s.advance i .measuring .timed [.elapsed i dt]
  | .finished i spectrum => s.advance i .timed .reported [.finished i spectrum]
  | .error i msg connected =>
      (s.advance i .measuring .reported [.error i msg]).map fun s' =>
        { s' with connected := s'.connected && connected }
  | .ended i => s.advance i .reported .ended []
  | .connectEnded connected =>
      if s.connecting then
        some { s with
          connecting := false
          connected := connected
          queue := s.queue ++ [if connected then .connected else .connectError] }
      else none
  | .deliver =>
      match s.queue with
      | [] => none
      | signal :: queue => some ({ s with queue := queue }.receive signal)
  | .close => some { s with closing := true, connected := false }

/-- The windows reached by runs whose steps all meet a condition. -/
inductive Reached [Inhabited Params]
    (C : Window Params Spectrum → Event Params Spectrum → Prop) : Window Params Spectrum → Prop
  | opened : Reached C .opened
  | step {s s' : Window Params Spectrum} {e : Event Params Spectrum} :
      Reached C s → C s e → s.step e = some s' → Reached C s'

/-! ### What should hold -/

namespace Window

/-- Thread `i` has been started and has not ended. -/
def Running (s : Window Params Spectrum) (i : ℕ) : Prop :=
  ∃ w, s.workers[i]? = some w ∧ w.phase ≠ .ended

/-- The result of thread `i` waits for its delivery. -/
def Waiting (s : Window Params Spectrum) (i : ℕ) : Prop :=
  ∃ signal ∈ s.queue, signal.outcome = some i

/-- Results are attributed to the measurements they come from. -/
structure Attributed (s : Window Params Spectrum) : Prop where
  /-- At most one thread is running. -/
  one : ∀ i j, s.Running i → s.Running j → i = j
  /-- The stored mode and parameters are those of the measurement that produced the spectrum. -/
  stored : ∀ i spectrum, s.lastSpectrum = some (i, spectrum) →
    ∃ w, s.workers[i]? = some w ∧ s.lastMode = w.mode ∧ s.lastParams = w.params
  /-- While a result is waiting no other measurement is running. -/
  alone : ∀ i j, s.Waiting i → s.Running j → j = i
  /-- While the controls are enabled no thread is running, except one whose result has been
  delivered. -/
  controls : s.controlsEnabled = true → ∀ i, s.Running i →
    (∃ w, s.workers[i]? = some w ∧ w.phase = .reported) ∧ ¬s.Waiting i

end Window

/-- No measurement is started while a result is waiting for its delivery. -/
def Prompt (s : Window Params Spectrum) : Event Params Spectrum → Prop
  | .click commandsIdle _ _ =>
      s.workerRunning = false → commandsIdle = true → ∀ i, ¬s.Waiting i
  | _ => True

/-! ### Frames -/

namespace Window

variable (s : Window Params Spectrum)

@[simp] theorem workers_receive (signal : Signal Spectrum) : (s.receive signal).workers = s.workers := by
  cases signal <;>
    simp only [receive, onMeasureElapsed, onMeasureDone, onMeasureError, onConnected, onConnectError,
      onMeasureCancelled, startConnect, updateConnectionUi, setControlsEnabled] <;>
    split_ifs <;> rfl

@[simp] theorem queue_receive (signal : Signal Spectrum) : (s.receive signal).queue = s.queue := by
  cases signal <;>
    simp only [receive, onMeasureElapsed, onMeasureDone, onMeasureError, onConnected, onConnectError,
      onMeasureCancelled, startConnect, updateConnectionUi, setControlsEnabled] <;>
    split_ifs <;> rfl

variable {s} {s' : Window Params Spectrum} {i j : ℕ} {before after : Phase}
  {signals : List (Signal Spectrum)}

/-- What a thread does when it goes on. -/
theorem advance_eq_some : s.advance i before after signals = some s' ↔
    ∃ w, s.workers[i]? = some w ∧ w.phase = before ∧
      s' = { s with
        workers := s.workers.set i { w with phase := after }
        queue := s.queue ++ signals } := by
  unfold advance
  cases hw : s.workers[i]? with
  | none => simp
  | some w =>
      by_cases hphase : w.phase = before
      · simp [hphase, eq_comm]
      · simp [hphase]

/-- A thread that is running after one has gone on was running before. -/
theorem Running.of_advance (h : s.advance i before after signals = some s') (hbefore : before ≠ .ended)
    (hj : s'.Running j) : s.Running j := by
  obtain ⟨w, hw, hphase, rfl⟩ := advance_eq_some.1 h
  obtain ⟨w', hw', hphase'⟩ := hj
  rw [List.getElem?_set] at hw'
  split at hw'
  case isTrue heq => exact heq ▸ ⟨w, hw, hphase ▸ hbefore⟩
  case isFalse => exact ⟨w', hw', hphase'⟩

/-- Only the thread started last can be running. -/
def Serial (s : Window Params Spectrum) : Prop := ∀ i, s.Running i → i + 1 = s.workers.length

/-- With the last thread ended all have. -/
theorem Serial.all_ended (h : s.Serial) (hlast : s.workerRunning = false) (i : ℕ) : ¬s.Running i := by
  intro hi
  have hlen := h i hi
  obtain ⟨w, hw, hphase⟩ := hi
  have hgetLast : s.workers.getLast? = some w := by
    rw [List.getLast?_eq_getElem?, ← hlen]
    exact hw
  simp only [workerRunning, hgetLast, bne_eq_false_iff_eq] at hlast
  exact hphase hlast

theorem Running.of_append {w : MeasureWorker Params} (h : s'.workers = s.workers ++ [w])
    (hi : s'.Running i) : s.Running i ∨ i = s.workers.length := by
  obtain ⟨w', hw', hphase⟩ := hi
  rw [h] at hw'
  rcases lt_or_ge i s.workers.length with hlt | hge
  · rw [List.getElem?_append_left hlt] at hw'
    exact Or.inl ⟨w', hw', hphase⟩
  · have hlt : i < (s.workers ++ [w]).length := (List.getElem?_eq_some_iff.1 hw').1
    rw [List.length_append, List.length_singleton] at hlt
    exact Or.inr (by omega)

/-- **One step** keeps all threads but the last one ended. -/
theorem Serial.step {e : Event Params Spectrum} (h : s.Serial) (hs : s.step e = some s') :
    s'.Serial := by
  -- a thread that goes on is none that had ended, and the list keeps its length
  have hadvance : ∀ {i before after signals}, before ≠ Phase.ended →
      s.advance i before after signals = some s' → s'.Serial := by
    intro i before after signals hbefore hs j hj
    have hlen := h j (hj.of_advance hs hbefore)
    obtain ⟨w, -, -, rfl⟩ := advance_eq_some.1 hs
    rw [hlen, List.length_set]
  cases e with
  | click commandsIdle mode params =>
      simp only [Window.step] at hs
      split at hs
      case isFalse => cases hs
      case isTrue =>
        cases hs
        unfold onMeasure
        split
        case isTrue => exact h
        case isFalse hlast =>
          split
          case isFalse => exact h
          case isTrue =>
            intro j hj
            have hlen : (s.startMeasurement mode params).workers.length = s.workers.length + 1 :=
              List.length_append
            rcases hj.of_append (s := s) rfl with hj | rfl
            · exact absurd hj (h.all_ended (by simpa using hlast) j)
            · exact hlen.symm
  | elapsed i dt => exact hadvance (by decide) hs
  | finished i spectrum => exact hadvance (by decide) hs
  | error i msg connected =>
      obtain ⟨s₁, hs₁, rfl⟩ := Option.map_eq_some_iff.1 hs
      -- a thread is only started when the last one has ended, so it is the only one running
      intro j hj
      have hj' : s₁.Running j := hj
      have hlen := h j (hj'.of_advance hs₁ (by decide))
      obtain ⟨w, -, -, rfl⟩ := advance_eq_some.1 hs₁
      rw [hlen]
      exact (List.length_set ..).symm
  | ended i => exact hadvance (by decide) hs
  | connectEnded connected =>
      simp only [Window.step] at hs
      split at hs
      · cases hs
        exact h
      · cases hs
  | deliver =>
      simp only [Window.step] at hs
      split at hs
      · cases hs
      · cases hs
        intro j hj
        have hj' : s.Running j := by
          obtain ⟨w, hw, hphase⟩ := hj
          rw [workers_receive] at hw
          exact ⟨w, hw, hphase⟩
        rw [workers_receive]
        exact h j hj'
  | close =>
      cases hs
      exact h

end Window

/-- **In every run** only the thread started last can be running. -/
theorem Reached.serial [Inhabited Params]
    {C : Window Params Spectrum → Event Params Spectrum → Prop} {s : Window Params Spectrum}
    (h : Reached C s) : s.Serial := by
  induction h with
  | opened =>
      rintro i ⟨w, hw, -⟩
      cases hw
  | step _ _ hs ih => exact ih.step hs

/-! ### What is tracked -/

/-- The result of the measurement has been emitted. -/
def MeasureWorker.Over (w : MeasureWorker Params) : Prop := w.phase = .reported ∨ w.phase = .ended

namespace Window

/-- No measurement is under way. -/
def Settled (s : Window Params Spectrum) : Prop :=
  (∀ i, ¬s.Waiting i) ∧ ∀ w ∈ s.workers, w.Over

/-- The number of results that wait. -/
def outcomes (s : Window Params Spectrum) : ℕ := s.queue.countP fun signal => signal.outcome.isSome

/-- The number of connection attempts that are not finished. -/
def connects (s : Window Params Spectrum) : ℕ :=
  (if s.connecting then 1 else 0) + s.queue.countP Signal.isConnect

/-- What every step keeps when no click comes early. -/
structure Tracked (s : Window Params Spectrum) : Prop where
  serial : s.Serial
  waiting : ∀ i, s.Waiting i → i + 1 = s.workers.length
  outcomes : s.outcomes ≤ 1
  allOver : ∀ i, s.Waiting i → ∀ w ∈ s.workers, w.Over
  pending : ∀ i w, s.workers[i]? = some w → i + 1 = s.workers.length →
    s.pendingMode = w.mode ∧ s.pendingParams = w.params
  stored : ∀ i spectrum, s.lastSpectrum = some (i, spectrum) →
    ∃ w, s.workers[i]? = some w ∧ s.lastMode = w.mode ∧ s.lastParams = w.params
  controls : s.controlsEnabled = true → s.Settled
  connects : 0 < s.connects → s.connects = 1 ∧ s.measureEnabled = false ∧ s.Settled

variable {s s' : Window Params Spectrum} {i : ℕ} {w : MeasureWorker Params}
  {signal : Signal Spectrum} {queue : List (Signal Spectrum)}

theorem Tracked.attributed (h : s.Tracked) : s.Attributed where
  one i j hi hj := by
    have hlen := h.serial i hi
    have hlen' := h.serial j hj
    omega
  stored := h.stored
  alone i j hi hj := by
    have hlen := h.waiting i hi
    have hlen' := h.serial j hj
    omega
  controls henabled i hi := by
    obtain ⟨hnone, hover⟩ := h.controls henabled
    obtain ⟨w, hw, hphase⟩ := hi
    refine ⟨⟨w, hw, ?_⟩, hnone i⟩
    exact (hover w (List.mem_of_getElem? hw)).resolve_right hphase

/-- While a thread is measuring nothing is enabled, and no result waits. -/
theorem Tracked.underWay (h : s.Tracked) (hw : s.workers[i]? = some w) (hphase : ¬w.Over) :
    s.controlsEnabled ≠ true ∧ s.connects = 0 ∧ ∀ j, ¬s.Waiting j := by
  have hmem := List.mem_of_getElem? hw
  refine ⟨fun henabled => hphase ((h.controls henabled).2 w hmem), ?_, fun j hj => ?_⟩
  · by_contra hne
    exact hphase ((h.connects (Nat.pos_of_ne_zero hne)).2.2.2 w hmem)
  · exact hphase (h.allOver j hj w hmem)

theorem outcomes_eq_zero (h : ∀ j, ¬s.Waiting j) : s.outcomes = 0 := by
  rw [Window.outcomes, List.countP_eq_zero]
  intro signal hsignal hsome
  obtain ⟨j, hj⟩ := Option.isSome_iff_exists.1 hsome
  exact h j ⟨signal, hsignal, hj⟩

/-- With no more results waiting, and the same threads, nothing comes under way. -/
theorem Settled.mono (h : s.Settled) (hwaiting : ∀ i, s'.Waiting i → s.Waiting i)
    (hworkers : s'.workers = s.workers) : s'.Settled :=
  ⟨fun i hi => h.1 i (hwaiting i hi), hworkers ▸ h.2⟩

/-- The signal at the head of the queue is taken off. -/
theorem Tracked.pop (h : s.Tracked) (hq : s.queue = signal :: queue) :
    ({ s with queue := queue } : Window Params Spectrum).Tracked := by
  have hwaiting : ∀ i, ({ s with queue := queue } : Window Params Spectrum).Waiting i → s.Waiting i := by
    rintro i ⟨signal', hmem, hi⟩
    exact ⟨signal', hq ▸ List.mem_cons_of_mem _ hmem, hi⟩
  have hconnects : ({ s with queue := queue } : Window Params Spectrum).connects ≤ s.connects := by
    simp only [Window.connects, hq, List.countP_cons]
    omega
  have houtcomes : ({ s with queue := queue } : Window Params Spectrum).outcomes ≤ s.outcomes := by
    simp only [Window.outcomes, hq, List.countP_cons]
    omega
  exact
    { h with
      waiting := fun i hi => h.waiting i (hwaiting i hi)
      outcomes := houtcomes.trans h.outcomes
      allOver := fun i hi => h.allOver i (hwaiting i hi)
      controls := fun henabled => (h.controls henabled).mono hwaiting rfl
      connects := fun hpos => by
        obtain ⟨hone, hdisabled, hsettled⟩ := h.connects (hpos.trans_le hconnects)
        exact ⟨by omega, hdisabled, hsettled.mono hwaiting rfl⟩ }

/-- A result is taken off the queue: no measurement is under way any more. -/
theorem Tracked.pop_outcome (h : s.Tracked) (hq : s.queue = signal :: queue)
    (hi : signal.outcome = some i) :
    ({ s with queue := queue } : Window Params Spectrum).Settled ∧
      ({ s with queue := queue } : Window Params Spectrum).connects = 0 ∧ i + 1 = s.workers.length := by
  have hmem : signal ∈ s.queue := hq ▸ List.mem_cons_self
  have hwaiting : s.Waiting i := ⟨signal, hmem, hi⟩
  refine ⟨⟨?_, h.allOver i hwaiting⟩, ?_, h.waiting i hwaiting⟩
  -- a second result in the queue would make two
  · rintro j ⟨signal', hmem', hj⟩
    have hpos : 0 < queue.countP fun signal => signal.outcome.isSome :=
      List.countP_pos_iff.2 ⟨signal', hmem', by rw [hj]; rfl⟩
    have hone := h.outcomes
    simp only [Window.outcomes, hq, List.countP_cons, hi, Option.isSome_some, if_true] at hone
    omega
  -- and nobody connects while a result is waiting
  · have hzero : s.connects = 0 := by
      by_contra hne
      exact (h.connects (Nat.pos_of_ne_zero hne)).2.2.1 i hwaiting
    simp only [Window.connects, hq, List.countP_cons] at hzero ⊢
    omega

/-- So is the end of a connection attempt. -/
theorem Tracked.pop_connect (h : s.Tracked) (hq : s.queue = signal :: queue)
    (hsignal : signal.isConnect = true) :
    ({ s with queue := queue } : Window Params Spectrum).Settled ∧
      ({ s with queue := queue } : Window Params Spectrum).connects = 0 := by
  have hpos : 0 < s.connects := by
    simp only [Window.connects, hq, List.countP_cons, hsignal, if_true]
    omega
  obtain ⟨hone, -, hsettled⟩ := h.connects hpos
  refine ⟨⟨?_, hsettled.2⟩, ?_⟩
  · rintro j ⟨signal', hmem', hj⟩
    exact hsettled.1 j ⟨signal', hq ▸ List.mem_cons_of_mem _ hmem', hj⟩
  · simp only [Window.connects, hq, List.countP_cons, hsignal, if_true] at hone ⊢
    omega

/-! ### One step -/

/-- With nothing under way the controls may be enabled. -/
theorem Tracked.setControlsEnabled (h : s.Tracked) (hsettled : s.Settled) (hconnects : s.connects = 0)
    (enabled : Bool) : (s.setControlsEnabled enabled).Tracked :=
  { h with
    controls := fun _ => hsettled
    connects := fun hpos => absurd hconnects (Nat.pos_iff_ne_zero.1 hpos) }

/-- With nothing under way a new connection may be tried. -/
theorem Tracked.onMeasureCancelled (h : s.Tracked) (hsettled : s.Settled) (hconnects : s.connects = 0) :
    s.onMeasureCancelled.Tracked :=
  { h with
    controls := fun henabled => absurd henabled Bool.false_ne_true
    connects := fun _ => by
      -- the attempt that starts here is the only one
      have hqueue : s.queue.countP Signal.isConnect = 0 := (Nat.add_eq_zero_iff.1 hconnects).2
      refine ⟨?_, rfl, hsettled⟩
      show 1 + s.queue.countP Signal.isConnect = 1
      omega }

/-- A result is stored with the parameters of the last measurement. -/
theorem Tracked.onMeasureDone (h : s.Tracked) (hsettled : s.Settled) (hconnects : s.connects = 0)
    (hi : i + 1 = s.workers.length) (spectrum : Spectrum) : (s.onMeasureDone i spectrum).Tracked := by
  unfold Window.onMeasureDone
  split_ifs
  · exact h
  · exact h.onMeasureCancelled hsettled hconnects
  · have hlt : i < s.workers.length := by omega
    obtain ⟨hmode, hparams⟩ := h.pending i s.workers[i] (List.getElem?_eq_getElem hlt) hi
    have hstored : ({ s with
        lastSpectrum := some (i, spectrum)
        lastMode := s.pendingMode
        lastParams := s.pendingParams } : Window Params Spectrum).Tracked :=
      { h with
        stored := by
          rintro j spectrum' heq
          cases heq
          exact ⟨s.workers[i], List.getElem?_eq_getElem hlt, hmode, hparams⟩
        controls := fun _ => hsettled
        connects := fun hpos => absurd hconnects (Nat.pos_iff_ne_zero.1 hpos) }
    exact hstored.setControlsEnabled hsettled hconnects true

/-- **A delivery** keeps track. -/
theorem Tracked.receive (h : s.Tracked) (hq : s.queue = signal :: queue) :
    ({ s with queue := queue }.receive signal).Tracked := by
  have hpop := h.pop hq
  cases signal with
  | elapsed worker dt => exact { hpop with }
  | finished worker spectrum =>
      obtain ⟨hsettled, hconnects, hi⟩ := h.pop_outcome hq rfl
      exact hpop.onMeasureDone hsettled hconnects hi spectrum
  | error worker msg =>
      obtain ⟨hsettled, hconnects, -⟩ := h.pop_outcome hq rfl
      simp only [Window.receive, onMeasureError]
      split_ifs
      · exact hpop
      · exact hpop.onMeasureCancelled hsettled hconnects
      · exact hpop.setControlsEnabled hsettled hconnects _
  | connected =>
      obtain ⟨hsettled, hconnects⟩ := h.pop_connect hq rfl
      simp only [Window.receive, onConnected]
      split_ifs
      · exact hpop
      · exact hpop.setControlsEnabled hsettled hconnects true
  | connectError =>
      obtain ⟨hsettled, hconnects⟩ := h.pop_connect hq rfl
      simp only [Window.receive, onConnectError]
      split_ifs
      · exact hpop
      · exact hpop.setControlsEnabled hsettled hconnects false

/-- A new measurement, once the last thread has ended and its result has been delivered. -/
theorem Tracked.startMeasurement (h : s.Tracked) (hlast : s.workerRunning = false)
    (hnone : ∀ i, ¬s.Waiting i) (hmeasure : s.measureEnabled = true) (mode : Mode) (params : Params) :
    (s.startMeasurement mode params).Tracked where
  serial := by
    intro j hj
    have hlen : (s.startMeasurement mode params).workers.length = s.workers.length + 1 :=
      List.length_append
    rcases hj.of_append (s := s) rfl with hj | rfl
    · exact absurd hj (h.serial.all_ended hlast j)
    · exact hlen.symm
  waiting i hi := absurd hi (hnone i)
  outcomes := h.outcomes
  allOver i hi := absurd hi (hnone i)
  pending := by
    intro i w hw hi
    have hlen : (s.startMeasurement mode params).workers.length = s.workers.length + 1 :=
      List.length_append
    obtain rfl : i = s.workers.length := by omega
    have hnew : (s.workers ++ [{ mode := mode, params := params }])[s.workers.length]? = some w := hw
    rw [List.getElem?_concat_length] at hnew
    cases hnew
    exact ⟨rfl, rfl⟩
  stored i spectrum hlastSpectrum := by
    obtain ⟨w, hw, hmode⟩ := h.stored i spectrum hlastSpectrum
    have hlt : i < s.workers.length := (List.getElem?_eq_some_iff.1 hw).1
    exact ⟨w, (List.getElem?_append_left hlt).trans hw, hmode⟩
  controls henabled := absurd henabled Bool.false_ne_true
  connects hpos := by
    -- the button is off while a connection attempt is under way
    have hdisabled := (h.connects hpos).2.1
    exact absurd (hmeasure.symm.trans hdisabled) (by decide)

/-- A click that cancels. -/
theorem Tracked.cancelMeasurement (h : s.Tracked) : s.cancelMeasurement.Tracked :=
  { h with connects := fun hpos => ⟨(h.connects hpos).1, rfl, (h.connects hpos).2.2⟩ }

section Advance

variable {before after : Phase} {signals : List (Signal Spectrum)}

/-- The mode and the parameters of a thread stay. -/
theorem workers_advance (hs : s.advance i before after signals = some s') {j : ℕ}
    {w' : MeasureWorker Params} (hw' : s'.workers[j]? = some w') :
    ∃ w, s.workers[j]? = some w ∧ w'.mode = w.mode ∧ w'.params = w.params ∧
      (j = i ∧ w'.phase = after ∨ j ≠ i ∧ w'.phase = w.phase) := by
  obtain ⟨w, hw, -, rfl⟩ := advance_eq_some.1 hs
  rw [List.getElem?_set] at hw'
  split at hw'
  case isTrue heq =>
    subst heq
    split at hw'
    · cases hw'
      exact ⟨w, hw, rfl, rfl, Or.inl ⟨rfl, rfl⟩⟩
    · cases hw'
  case isFalse hne => exact ⟨w', hw', rfl, rfl, Or.inr ⟨fun heq => hne heq.symm, rfl⟩⟩

theorem Tracked.pending_advance (h : s.Tracked) (hs : s.advance i before after signals = some s') :
    ∀ j w', s'.workers[j]? = some w' → j + 1 = s'.workers.length →
      s'.pendingMode = w'.mode ∧ s'.pendingParams = w'.params := by
  intro j w' hw' hj
  obtain ⟨w, hw, hmode, hparams, -⟩ := workers_advance hs hw'
  obtain ⟨w₀, -, -, rfl⟩ := advance_eq_some.1 hs
  rw [hmode, hparams]
  exact h.pending j w hw (hj.trans (List.length_set ..))

theorem Tracked.stored_advance (h : s.Tracked) (hs : s.advance i before after signals = some s') :
    ∀ j spectrum, s'.lastSpectrum = some (j, spectrum) →
      ∃ w', s'.workers[j]? = some w' ∧ s'.lastMode = w'.mode ∧ s'.lastParams = w'.params := by
  intro j spectrum hlast
  have hs' := hs
  obtain ⟨w₀, -, -, rfl⟩ := advance_eq_some.1 hs
  obtain ⟨w, hw, hmode, hparams⟩ := h.stored j spectrum hlast
  have hlt : j < (s.workers.set i { w₀ with phase := after }).length := by
    rw [List.length_set]
    exact (List.getElem?_eq_some_iff.1 hw).1
  have hw' := List.getElem?_eq_getElem hlt
  obtain ⟨w₁, hw₁, hmode', hparams', -⟩ := workers_advance hs' hw'
  obtain rfl : w = w₁ := Option.some.inj (hw.symm.trans hw₁)
  exact ⟨_, hw', hmode.trans hmode'.symm, hparams.trans hparams'.symm⟩

/-- A thread that is still measuring goes on: what it emits is about itself, and a result ends the
measurement. -/
theorem Tracked.advance (h : s.Tracked) (hs : s.advance i before after signals = some s')
    (hbefore : before = .measuring ∨ before = .timed)
    (hconnect : signals.countP Signal.isConnect = 0)
    (hone : (signals.countP fun signal => signal.outcome.isSome) ≤ 1)
    (hown : ∀ signal ∈ signals, ∀ j, signal.outcome = some j → j = i ∧ after = .reported) :
    s'.Tracked := by
  have hs' := hs
  obtain ⟨w, hw, hphase, rfl⟩ := advance_eq_some.1 hs
  -- the thread has reported nothing yet, so nothing is enabled and no result waits
  have hnot : ¬w.Over := by
    rintro (hover | hover) <;> rcases hbefore with rfl | rfl <;> rw [hphase] at hover <;> cases hover
  have hended : before ≠ .ended := by rcases hbefore with rfl | rfl <;> decide
  obtain ⟨hcontrols, hconnects, hnone⟩ := h.underWay hw hnot
  have hlatest : i + 1 = s.workers.length := h.serial i ⟨w, hw, hphase ▸ hended⟩
  have hwaiting : ∀ j, ({ s with
      workers := s.workers.set i { w with phase := after }
      queue := s.queue ++ signals } : Window Params Spectrum).Waiting j → j = i ∧ after = .reported := by
    rintro j ⟨signal, hmem, hj⟩
    rcases List.mem_append.1 hmem with hmem | hmem
    · exact absurd ⟨signal, hmem, hj⟩ (hnone j)
    · exact hown signal hmem j hj
  exact
    { serial := by
        intro j hj
        rw [h.serial j (hj.of_advance hs' hended), List.length_set]
      waiting := fun j hj => by rw [(hwaiting j hj).1, List.length_set, hlatest]
      outcomes := by
        have hzero := outcomes_eq_zero hnone
        simp only [Window.outcomes, List.countP_append] at hzero ⊢
        omega
      allOver := by
        intro j hj w' hmem
        obtain ⟨k, hk⟩ := List.mem_iff_getElem?.1 hmem
        obtain ⟨w₀, hw₀, -, -, ⟨-, hphase'⟩ | ⟨hne, hphase'⟩⟩ := workers_advance hs' hk
        · exact Or.inl (hphase'.trans (hwaiting j hj).2)
        · -- any other thread would be a second one running
          refine Or.inr (hphase'.trans ?_)
          by_contra hrunning
          have hk' := h.serial k ⟨w₀, hw₀, hrunning⟩
          omega
      pending := h.pending_advance hs'
      stored := h.stored_advance hs'
      controls := fun henabled => absurd henabled hcontrols
      connects := fun hpos => by
        simp only [Window.connects, List.countP_append] at hconnects hpos
        omega }

/-- A thread ends. -/
theorem Tracked.ended (h : s.Tracked) (hs : s.advance i .reported .ended [] = some s') : s'.Tracked := by
  have hs' := hs
  obtain ⟨w, hw, hphase, rfl⟩ := advance_eq_some.1 hs
  -- an ended thread is over, and the others are as they were
  have hover : (∀ w ∈ s.workers, w.Over) → ∀ w' ∈ s.workers.set i { w with phase := .ended }, w'.Over := by
    intro hall w' hmem
    obtain ⟨k, hk⟩ := List.mem_iff_getElem?.1 hmem
    obtain ⟨w₀, hw₀, -, -, ⟨-, hphase'⟩ | ⟨-, hphase'⟩⟩ := workers_advance hs' hk
    · exact Or.inr hphase'
    · rw [MeasureWorker.Over, hphase']
      exact hall w₀ (List.mem_of_getElem? hw₀)
  have hqueue : s.queue ++ [] = s.queue := List.append_nil _
  exact
    { serial := by
        intro j hj
        rw [h.serial j (hj.of_advance hs' (by decide)), List.length_set]
      waiting := fun j hj => by
        rw [List.length_set]
        exact h.waiting j (by simpa only [Waiting, hqueue] using hj)
      outcomes := by
        simp only [Window.outcomes, hqueue]
        exact h.outcomes
      allOver := fun j hj => hover (h.allOver j (by simpa only [Waiting, hqueue] using hj))
      pending := h.pending_advance hs'
      stored := h.stored_advance hs'
      controls := fun henabled => by
        obtain ⟨hnone, hall⟩ := h.controls henabled
        exact ⟨fun j hj => hnone j (by simpa only [Waiting, hqueue] using hj), hover hall⟩
      connects := fun hpos => by
        simp only [Window.connects, hqueue] at hpos ⊢
        obtain ⟨hone, hdisabled, hnone, hall⟩ := h.connects hpos
        exact ⟨hone, hdisabled, fun j hj => hnone j (by simpa only [Waiting, hqueue] using hj),
          hover hall⟩ }

end Advance

/-- A connection attempt ends. -/
theorem Tracked.connectEnded (h : s.Tracked) (hconnecting : s.connecting = true)
    (hsignal : signal.isConnect = true) (hnone : signal.outcome = none) (connected : Bool) :
    ({ s with
        connecting := false
        connected := connected
        queue := s.queue ++ [signal] } : Window Params Spectrum).Tracked := by
  have hwaiting : ∀ i, ({ s with
      connecting := false
      connected := connected
      queue := s.queue ++ [signal] } : Window Params Spectrum).Waiting i → s.Waiting i := by
    rintro i ⟨signal', hmem, hi⟩
    rcases List.mem_append.1 hmem with hmem | hmem
    · exact ⟨signal', hmem, hi⟩
    · obtain rfl := List.mem_singleton.1 hmem
      rw [hnone] at hi
      cases hi
  exact
    { h with
      waiting := fun i hi => h.waiting i (hwaiting i hi)
      outcomes := by
        have hle := h.outcomes
        simp only [Window.outcomes, List.countP_append, List.countP_singleton, hnone,
          Option.isSome_none] at hle ⊢
        simpa using hle
      allOver := fun i hi => h.allOver i (hwaiting i hi)
      controls := fun henabled => (h.controls henabled).mono hwaiting rfl
      connects := fun hpos => by
        -- the attempt goes from the thread to the queue, so their number stays
        have hcount := h.connects
        simp only [Window.connects, hconnecting, if_true] at hcount
        obtain ⟨hone, hdisabled, hsettled⟩ := hcount (by omega)
        refine ⟨?_, hdisabled, hsettled.mono hwaiting rfl⟩
        simp only [Window.connects, List.countP_append, List.countP_singleton, hsignal, if_true,
          Bool.false_eq_true, if_false]
        omega }

/-- **One step** without an early click keeps track. -/
theorem Tracked.step {e : Event Params Spectrum} (h : s.Tracked) (hprompt : Prompt s e)
    (hs : s.step e = some s') : s'.Tracked := by
  cases e with
  | click commandsIdle mode params =>
      simp only [Window.step] at hs
      split at hs
      case isFalse => cases hs
      case isTrue hclick =>
        cases hs
        unfold onMeasure
        split
        case isTrue => exact h.cancelMeasurement
        case isFalse hlast =>
          have hlast' : s.workerRunning = false := by simpa using hlast
          split
          case isTrue hidle =>
            exact h.startMeasurement hlast' (hprompt hlast' hidle) hclick.1 mode params
          case isFalse => exact h
  | elapsed i dt =>
      refine h.advance hs (Or.inl rfl) rfl (Nat.zero_le _) ?_
      intro signal hmem j hj
      obtain rfl := List.mem_singleton.1 hmem
      cases hj
  | finished i spectrum =>
      refine h.advance hs (Or.inr rfl) rfl le_rfl ?_
      intro signal hmem j hj
      obtain rfl := List.mem_singleton.1 hmem
      cases hj
      exact ⟨rfl, rfl⟩
  | error i msg connected =>
      obtain ⟨s₁, hs₁, rfl⟩ := Option.map_eq_some_iff.1 hs
      have hnext : s₁.Tracked := by
        refine h.advance hs₁ (Or.inl rfl) rfl le_rfl ?_
        intro signal hmem j hj
        obtain rfl := List.mem_singleton.1 hmem
        cases hj
        exact ⟨rfl, rfl⟩
      exact { hnext with }
  | ended i => exact h.ended hs
  | connectEnded connected =>
      simp only [Window.step] at hs
      split at hs
      case isTrue hconnecting =>
        cases hs
        cases connected with
        | true => exact h.connectEnded hconnecting rfl rfl true
        | false => exact h.connectEnded hconnecting rfl rfl false
      case isFalse => cases hs
  | deliver =>
      simp only [Window.step] at hs
      split at hs
      case h_1 => cases hs
      case h_2 signal queue hq =>
        cases hs
        exact h.receive hq
  | close =>
      cases hs
      exact { h with }

/-- An early click is the only step that breaks the attribution. -/
theorem Tracked.attributed_iff {e : Event Params Spectrum} (h : s.Tracked) (hs : s.step e = some s') :
    s'.Attributed ↔ Prompt s e := by
  refine ⟨fun hattributed => ?_, fun hprompt => (h.step hprompt hs).attributed⟩
  cases e with
  | click commandsIdle mode params =>
      intro hlast hidle i hi
      simp only [Window.step] at hs
      split at hs
      case isFalse => cases hs
      case isTrue =>
        cases hs
        simp only [onMeasure, hlast, hidle, Bool.false_eq_true, if_true, if_false] at hattributed
        have hrunning : (s.startMeasurement mode params).Running s.workers.length :=
          ⟨_, List.getElem?_concat_length, nofun⟩
        have hsame := hattributed.alone i s.workers.length hi hrunning
        have hlatest := h.waiting i hi
        omega
  | elapsed => trivial
  | finished => trivial
  | error => trivial
  | ended => trivial
  | connectEnded => trivial
  | deliver => trivial
  | close => trivial

theorem tracked_opened [Inhabited Params] : (opened : Window Params Spectrum).Tracked where
  serial := by
    rintro i ⟨w, hw, -⟩
    cases hw
  waiting := by
    rintro i ⟨signal, hmem, -⟩
    cases hmem
  outcomes := Nat.zero_le _
  allOver := by
    rintro i ⟨signal, hmem, -⟩
    cases hmem
  pending i w hw := by cases hw
  stored i spectrum hlast := by cases hlast
  controls henabled := absurd henabled Bool.false_ne_true
  connects _ := by
    refine ⟨rfl, rfl, ?_, fun w hw => by cases hw⟩
    rintro i ⟨signal, hmem, -⟩
    cases hmem

end Window

/-! ### Runs -/

section Runs

variable [Inhabited Params]

/-- **Every run** without an early click keeps track. -/
theorem Reached.tracked {s : Window Params Spectrum} (h : Reached Prompt s) : s.Tracked := by
  induction h with
  | opened => exact Window.tracked_opened
  | step _ hprompt hs ih => exact ih.step hprompt hs

/-- **Results are attributed** to the measurements they come from in every run in which no measurement
is started while a result is waiting. -/
theorem reached_attributed {s : Window Params Spectrum} (h : Reached Prompt s) : s.Attributed :=
  h.tracked.attributed

theorem reached_attributed_once :
    ∃ s : Window ℕ ℕ, s.lastSpectrum = some (0, 7) ∧ s.Attributed := by
  have hconnected : Reached (Prompt : Window ℕ ℕ → Event ℕ ℕ → Prop) _ :=
    (Reached.opened.step (e := .connectEnded true) trivial rfl).step (e := .deliver) trivial rfl
  have hclick := hconnected.step (e := .click true .sinc 1)
    (fun _ _ i ⟨_, hmem, _⟩ => nomatch hmem) rfl
  have hdone := ((hclick.step (e := .elapsed 0 3) trivial rfl).step (e := .finished 0 7) trivial
    rfl).step (e := .ended 0) trivial rfl
  have hstored := (hdone.step (e := .deliver) trivial rfl).step (e := .deliver) trivial rfl
  exact ⟨_, rfl, reached_attributed hstored⟩

end Runs

/-- A run of the window. -/
def Window.run (s : Window Params Spectrum) (events : List (Event Params Spectrum)) :
    Option (Window Params Spectrum) :=
  events.foldlM Window.step s

/-- A run whose steps are all possible. -/
theorem Reached.run [Inhabited Params] {s s' : Window Params Spectrum}
    {events : List (Event Params Spectrum)} (h : Reached (fun _ _ => True) s)
    (hrun : s.run events = some s') : Reached (fun _ _ => True) s' := by
  induction events generalizing s with
  | nil =>
      cases hrun
      exact h
  | cons e events ih =>
      obtain ⟨s₁, hs, hrest⟩ := Option.bind_eq_some_iff.1 hrun
      exact ih (h.step trivial hs) hrest

/-- A second measurement, started when the thread of the first has ended, while its result is still
waiting. -/
def earlyClick : List (Event ℕ ℕ) :=
  [.connectEnded true, .deliver, .click true .sinc 1, .elapsed 0 3, .finished 0 7, .ended 0,
    .click true .sweep 2, .deliver, .deliver]

/-- The first spectrum is stored with the parameters of the second measurement, and the controls are
enabled while that is running. -/
theorem not_reached_attributed_early :
    ¬∀ s : Window ℕ ℕ, Reached (fun _ _ => True) s → s.Attributed := by
  intro hall
  have hrun : (Window.opened : Window ℕ ℕ).run earlyClick = some
      { workers := [⟨.sinc, 1, .ended⟩, ⟨.sweep, 2, .measuring⟩]
        connected := true
        controlsEnabled := true
        measureEnabled := true
        measureTime := 3
        pendingMode := .sweep
        pendingParams := 2
        lastMode := .sweep
        lastParams := 2
        lastSpectrum := some (0, 7) } := by
    decide +kernel
  obtain ⟨w, hw, hmode, -⟩ := (hall _ (Reached.opened.run hrun)).stored 0 7 rfl
  cases hw
  cases hmode

end Afm.Gui
