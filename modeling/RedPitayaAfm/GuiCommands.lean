/-
**The commands of the window.**

Every button of the window, and of the routing schematic, queues a call of the client.  The calls run
one after the other in threads of their own, and their handlers run in the thread of the window,
where a handler may open a dialog, queue further calls, or lose the connection.  What the user does,
what the threads do, and the delivery of their signals are the steps here, in any order; while a
handler runs anything may happen, another delivery included.

Main definitions:

* `Afm.Gui.CommandQueue`, `Afm.Gui.CommandEvent`, `Afm.Gui.CommandQueue.step` — the queue of the
  window and what can happen to it;
* `Afm.Gui.CommandQueue.Served` — what should hold of every queue reached.

Main results:

* `Afm.Gui.CommandQueue.Coherent.startNextCommand` — what the start of a command keeps;
* `Afm.Gui.CommandQueue.Coherent.step` — the step of the invariant;
* `Afm.Gui.reachable_served` — **commands are served one at a time, in order, and none is lost**.
-/

import RedPitayaAfm.Text

set_option relaxedAutoImplicit false
set_option autoImplicit false

namespace Afm.Gui

/-! ### Commands and their threads -/

/-- What `_run_command` is given: a call of the client and its two handlers. -/
structure Command (Call Handler : Type) where
  call : Call
  onDone : Option Handler := none
  onError : Option Handler := none
  deriving DecidableEq

/-- The handler for an outcome. -/
def Command.handler {Call Handler Error Result : Type} (c : Command Call Handler) :
    Except Error Result → Option Handler
  | .ok _ => c.onDone
  | .error _ => c.onError

/-- `CommandWorker`, with the number of its command among all that were queued.  When its call has
returned it has emitted `completed`. -/
structure CommandWorker (Call Handler Error Result : Type) where
  number : ℕ
  command : Command Call Handler
  outcome : Option (Except Error Result) := none
  /-- `isRunning` -/
  running : Bool := true

/-- A handler that was called, for the command with this number and the outcome of its call. -/
structure Handled (Handler Error Result : Type) where
  number : ℕ
  handler : Handler
  outcome : Except Error Result

/-- What the handler of a thread is called with, once it has emitted `completed`. -/
def CommandWorker.answer {Call Handler Error Result : Type}
    (w : CommandWorker Call Handler Error Result) : Option (Handled Handler Error Result) :=
  match w.outcome with
  | none => none
  | some o => (w.command.handler o).map fun h => ⟨w.number, h, o⟩

/-- `AFMMainWindow`, as far as commands go.  The threads are in the order of their start. -/
structure CommandQueue (Call Handler Error Result : Type) where
  closing : Bool := false
  /-- `_command_worker` -/
  commandWorker : Option ℕ := none
  /-- `_commands`, with their numbers. -/
  commands : List (ℕ × Command Call Handler) := []
  /-- `_workers` -/
  workers : List ℕ := []
  threads : List (CommandWorker Call Handler Error Result) := []
  /-- The `completed` signals Qt has queued for the window. -/
  signals : List ℕ := []
  /-- The calls of `_on_command_completed` that are in a handler. -/
  inHandlers : ℕ := 0
  /-- How many commands were queued so far. -/
  queued : ℕ := 0
  handled : List (Handled Handler Error Result) := []
  /-- The commands that were dropped with the connection. -/
  dropped : List ℕ := []

namespace CommandQueue

variable {Call Handler Error Result : Type} (s : CommandQueue Call Handler Error Result)

/-- Thread `i` is running. -/
def isRunning (i : ℕ) : Bool := (s.threads[i]?).any (·.running)

/-- `_start_next_command` -/
def startNextCommand : CommandQueue Call Handler Error Result :=
  if s.closing || s.commandWorker.isSome then s
  else
    match s.commands with
    | [] => s
    | (number, command) :: commands =>
        { s with
          commands := commands
          threads := s.threads ++ [{ number := number, command := command }]
          commandWorker := some s.threads.length
          workers := s.workers.filter s.isRunning ++ [s.threads.length] }

/-- `_run_command` -/
def runCommand (command : Command Call Handler) : CommandQueue Call Handler Error Result :=
  { s with
    commands := s.commands ++ [(s.queued, command)]
    queued := s.queued + 1 }.startNextCommand

/-- The part of `_update_connection_ui(False)` for the commands. -/
def updateConnectionUi : CommandQueue Call Handler Error Result :=
  { s with
    commands := []
    dropped := s.dropped ++ s.commands.map Prod.fst }

/-- A handler is called; without one the `finally` of `_on_command_completed` comes at once. -/
def callHandler (number : ℕ) (handler : Option Handler) (outcome : Except Error Result) :
    CommandQueue Call Handler Error Result :=
  match handler with
  | none => s.startNextCommand
  | some handler =>
      { s with
        inHandlers := s.inHandlers + 1
        handled := s.handled ++ [⟨number, handler, outcome⟩] }

/-- `_on_command_completed`, up to the call of the handler; `connected` is what
`_sync_connection_ui` finds. -/
def onCommandCompleted (number : ℕ) (command : Command Call Handler)
    (outcome : Except Error Result) (connected : Bool) : CommandQueue Call Handler Error Result :=
  let s := { s with commandWorker := none }
  if s.closing then s.startNextCommand
  else
    match outcome with
    | .ok result => s.callHandler number command.onDone (.ok result)
    | .error exc =>
        let s := if connected then s else s.updateConnectionUi
        s.callHandler number command.onError (.error exc)

end CommandQueue

/-- What can happen. -/
inductive CommandEvent (Call Handler Error Result : Type)
  /-- A slot or a handler queues a command. -/
  | runCommand (command : Command Call Handler)
  /-- The window finds itself disconnected. -/
  | disconnected
  /-- The call of a thread returns, and `completed` is emitted. -/
  | completed (worker : ℕ) (outcome : Except Error Result)
  /-- The thread ends. -/
  | ended (worker : ℕ)
  /-- Qt delivers the next `completed`. -/
  | deliver (connected : Bool)
  /-- A handler returns or raises: the `finally` of `_on_command_completed`. -/
  | handlerReturns
  /-- `closeEvent` begins. -/
  | close
  /-- `closeEvent` has waited for the threads it knows, or has terminated them. -/
  | closed

namespace CommandQueue

variable {Call Handler Error Result : Type} (s : CommandQueue Call Handler Error Result)

/-- A thread changes. -/
def setThread (i : ℕ) (w : CommandWorker Call Handler Error Result) :
    CommandQueue Call Handler Error Result :=
  { s with threads := s.threads.set i w }

/-- Some threads stop. -/
def stopThreads (which : ℕ → Bool) : CommandQueue Call Handler Error Result :=
  { s with threads := s.threads.mapIdx fun i (w : CommandWorker Call Handler Error Result) =>
      { w with running := w.running && !which i } }

/-- The next queue, when the event is possible. -/
def step : CommandEvent Call Handler Error Result → Option (CommandQueue Call Handler Error Result)
  | .runCommand command => some (s.runCommand command)
  | .disconnected => some s.updateConnectionUi
  | .completed i outcome =>
      match s.threads[i]? with
      | some w =>
          if w.running = true ∧ w.outcome.isNone = true then
            some { s.setThread i { w with outcome := some outcome } with
              signals := s.signals ++ [i] }
          else none
      | none => none
  | .ended i =>
      match s.threads[i]? with
      | some w => if w.outcome.isSome then some (s.stopThreads (· == i)) else none
      | none => none
  | .deliver connected =>
      match s.signals with
      | [] => none
      | i :: signals =>
          match s.threads[i]? with
          | some ⟨number, command, some outcome, _⟩ =>
              some ({ s with signals := signals }.onCommandCompleted number command outcome connected)
          | _ => none
  | .handlerReturns =>
      if s.inHandlers = 0 then none
      else some { s with inHandlers := s.inHandlers - 1 }.startNextCommand
  | .close => some { s with closing := true }
  | .closed => if s.closing then some (s.stopThreads fun i => decide (i ∈ s.workers)) else none

/-- The queues that are reached, whatever happens. -/
inductive Reachable : CommandQueue Call Handler Error Result → Prop
  | opened : Reachable {}
  | step {s s' : CommandQueue Call Handler Error Result}
      {e : CommandEvent Call Handler Error Result} :
      Reachable s → s.step e = some s' → Reachable s'

/-! ### What should hold -/

/-- The call of thread `i` has not returned. -/
def Calling (i : ℕ) : Prop :=
  ∃ w, s.threads[i]? = some w ∧ w.running = true ∧ w.outcome = none

/-- The threads whose `completed` was delivered: all, or all before the current one. -/
def delivered : List (CommandWorker Call Handler Error Result) :=
  match s.commandWorker with
  | none => s.threads
  | some i => s.threads.take i

/-- Commands are served one at a time, in order, and none is lost. -/
structure Served : Prop where
  /-- At most one call is running. -/
  one : ∀ i j, s.Calling i → s.Calling j → i = j
  /-- The commands were started in the order in which they were queued, and those that wait come
  after them in the same order. -/
  order : (s.threads.map (·.number) ++ s.commands.map Prod.fst).Pairwise (· < ·)
  /-- Every command that was queued was started, waits, or was dropped with the connection. -/
  accounted : (s.threads.map (·.number) ++ s.commands.map Prod.fst ++ s.dropped).Perm
    (List.range s.queued)
  /-- Up to the closing of the window, the handlers called are those of the commands delivered, in
  their order, each once and with the outcome of its own call. -/
  handled : s.closing = false → s.handled = s.delivered.filterMap CommandWorker.answer
  /-- After it no handler is called. -/
  quiet : s.handled <+: s.threads.filterMap CommandWorker.answer
  /-- While a command waits in an open window, there is a thread or a handler that will start it. -/
  served : s.closing = false → s.commands ≠ [] →
    (∃ i, s.commandWorker = some i ∧ (s.Calling i ∨ i ∈ s.signals)) ∨ 0 < s.inHandlers
  /-- The window keeps a reference to every thread that is running. -/
  kept : ∀ i, s.isRunning i = true → i ∈ s.workers

/-! ### The invariant -/

/-- What every operation of the queue keeps. -/
structure Coherent : Prop where
  order : (s.threads.map (·.number) ++ s.commands.map Prod.fst).Pairwise (· < ·)
  accounted : (s.threads.map (·.number) ++ s.commands.map Prod.fst ++ s.dropped).Perm
    (List.range s.queued)
  handled : s.closing = false → s.handled = s.delivered.filterMap CommandWorker.answer
  quiet : s.handled <+: s.threads.filterMap CommandWorker.answer
  kept : ∀ i, s.isRunning i = true → i ∈ s.workers
  /-- The current thread is the one whose `completed` was not delivered. -/
  current : ∀ i, s.commandWorker = some i ↔
    ∃ w, s.threads[i]? = some w ∧ (w.outcome = none ∨ i ∈ s.signals)
  last : ∀ i, s.commandWorker = some i → i + 1 = s.threads.length
  reported : ∀ i ∈ s.signals, ∃ w o, s.threads[i]? = some w ∧ w.outcome = some o
  nodup : s.signals.Nodup
  live : s.closing = false → ∀ (i : ℕ) (w : CommandWorker Call Handler Error Result),
    s.threads[i]? = some w → w.outcome = none → w.running = true

/-- An open window in which nothing goes on has no command waiting. -/
def Resting : Prop :=
  s.closing = false → s.commandWorker = none → s.inHandlers = 0 → s.commands = []

variable {s} {s' : CommandQueue Call Handler Error Result}

theorem coherent_opened : ({} : CommandQueue Call Handler Error Result).Coherent where
  order := List.Pairwise.nil
  accounted := List.Perm.refl _
  handled _ := rfl
  quiet := List.prefix_refl _
  kept i h := by simp [isRunning] at h
  current i := by simp
  last i h := by cases h
  reported i h := by cases h
  nodup := List.nodup_nil
  live _ i w h := by simp at h

/-- The frames of the window do not matter. -/
theorem Coherent.withHandlers (h : s.Coherent) (n : ℕ) : { s with inHandlers := n }.Coherent :=
  ⟨h.order, h.accounted, h.handled, h.quiet, h.kept, h.current, h.last, h.reported, h.nodup, h.live⟩

/-- Every number given was given to one command. -/
theorem Coherent.lt_queued (h : s.Coherent) {n : ℕ}
    (hn : n ∈ s.threads.map (·.number) ++ s.commands.map Prod.fst) : n < s.queued := by
  have hmem : n ∈ s.threads.map (·.number) ++ s.commands.map Prod.fst ++ s.dropped :=
    List.mem_append_left _ hn
  exact List.mem_range.1 (h.accounted.mem_iff.1 hmem)

/-- A command is queued. -/
theorem Coherent.queue (h : s.Coherent) (command : Command Call Handler) :
    { s with
      commands := s.commands ++ [(s.queued, command)]
      queued := s.queued + 1 }.Coherent := by
  refine ⟨?_, ?_, h.handled, h.quiet, h.kept, h.current, h.last, h.reported, h.nodup, h.live⟩
  · simp only [List.map_append, List.map_cons, List.map_nil]
    rw [← List.append_assoc, List.pairwise_append]
    refine ⟨h.order, List.pairwise_singleton _ _, fun n hn k hk => ?_⟩
    rw [List.mem_singleton.1 hk]
    exact h.lt_queued hn
  · simp only [List.map_append, List.map_cons, List.map_nil, List.range_succ]
    have hswap : ([s.queued] ++ s.dropped).Perm (s.dropped ++ [s.queued]) := List.perm_append_comm
    have hmoved := hswap.append_left (s.threads.map (·.number) ++ s.commands.map Prod.fst)
    simp only [List.append_assoc] at hmoved ⊢
    refine hmoved.trans ?_
    have hbefore := h.accounted.append_right [s.queued]
    simpa only [List.append_assoc] using hbefore

/-- The commands that wait are dropped. -/
theorem Coherent.updateConnectionUi (h : s.Coherent) : s.updateConnectionUi.Coherent := by
  refine ⟨?_, ?_, h.handled, h.quiet, h.kept, h.current, h.last, h.reported, h.nodup, h.live⟩
  · rw [CommandQueue.updateConnectionUi, List.map_nil, List.append_nil]
    exact h.order.sublist (List.sublist_append_left _ _)
  · rw [CommandQueue.updateConnectionUi, List.map_nil, List.append_nil]
    have hswap : (s.dropped ++ s.commands.map Prod.fst).Perm (s.commands.map Prod.fst ++ s.dropped) :=
      List.perm_append_comm
    have hmoved := hswap.append_left (s.threads.map (·.number))
    rw [← List.append_assoc _ (s.commands.map Prod.fst)] at hmoved
    exact hmoved.trans h.accounted

/-- **The start of a command.** -/
theorem Coherent.startNextCommand (h : s.Coherent) : s.startNextCommand.Coherent := by
  unfold CommandQueue.startNextCommand
  split
  · exact h
  rename_i hfree
  simp only [Bool.or_eq_true, not_or, Bool.not_eq_true, Option.isSome_eq_false_iff,
    Option.isNone_iff_eq_none] at hfree
  obtain ⟨hopen, hnone⟩ := hfree
  split
  · exact h
  rename_i number command commands hcommands
  -- with no current thread, every thread has reported and was delivered
  have hdone : ∀ i w, s.threads[i]? = some w → ¬(w.outcome = none ∨ i ∈ s.signals) := by
    intro i w hw hor
    have hcurrent := (h.current i).2 ⟨w, hw, hor⟩
    rw [hnone] at hcurrent
    cases hcurrent
  have hbound : ∀ i ∈ s.signals, i < s.threads.length := by
    intro i hi
    obtain ⟨w, o, hw, -⟩ := h.reported i hi
    exact (List.getElem?_eq_some_iff.1 hw).1
  have horder := h.order
  have haccounted := h.accounted
  have hhandled := h.handled hopen
  rw [hcommands] at horder haccounted
  rw [delivered, hnone] at hhandled
  refine ⟨by simpa using horder, by simpa using haccounted, fun _ => ?_, ?_, fun i hi => ?_,
    fun i => ?_, fun i hi => ?_, fun i hi => ?_, h.nodup, fun _ i w hw hout => ?_⟩
  · simpa [delivered] using hhandled
  · rw [List.filterMap_append]
    exact h.quiet.trans (List.prefix_append _ _)
  · rcases Nat.lt_trichotomy i s.threads.length with hlt | rfl | hgt
    · have hrun : s.isRunning i = true := by
        simpa [isRunning, List.getElem?_append_left hlt] using hi
      exact List.mem_append_left _ (List.mem_filter.2 ⟨h.kept i hrun, hrun⟩)
    · exact List.mem_append_right _ (List.mem_singleton_self _)
    · have hno : (s.threads ++ [{ number := number, command := command }])[i]? = none :=
        List.getElem?_eq_none (by simp; omega)
      simp [isRunning, hno] at hi
  · constructor
    · intro hi
      obtain rfl := Option.some.inj hi
      exact ⟨{ number := number, command := command }, by simp, .inl rfl⟩
    · rintro ⟨w, hw, hor⟩
      rcases Nat.lt_or_ge i s.threads.length with hlt | hge
      · rw [List.getElem?_append_left hlt] at hw
        exact (hdone i w hw hor).elim
      · have hlen := (List.getElem?_eq_some_iff.1 hw).1
        simp only [List.length_append, List.length_singleton] at hlen
        exact congrArg some (by omega)
  · obtain rfl := Option.some.inj hi
    simp
  · obtain ⟨w, o, hw, ho⟩ := h.reported i hi
    exact ⟨w, o, by rw [List.getElem?_append_left (hbound i hi)]; exact hw, ho⟩
  · rcases Nat.lt_or_ge i s.threads.length with hlt | hge
    · rw [List.getElem?_append_left hlt] at hw
      exact h.live hopen i w hw hout
    · have hlen := (List.getElem?_eq_some_iff.1 hw).1
      simp only [List.length_append, List.length_singleton] at hlen
      obtain rfl : i = s.threads.length := by omega
      simp at hw
      rw [← hw]

/-- After it nothing waits in vain. -/
theorem resting_startNextCommand : s.startNextCommand.Resting := by
  intro hopen hnone _
  unfold CommandQueue.startNextCommand at hopen hnone ⊢
  split at hopen
  · rename_i hbusy
    rw [if_pos hbusy] at hnone ⊢
    simp [hopen, hnone] at hbusy
  · rename_i hfree
    rw [if_neg hfree] at hnone ⊢
    cases hcommands : s.commands with
    | nil => exact hcommands
    | cons head commands =>
        rw [hcommands] at hnone
        cases hnone

/-- A thread that changes keeps its number. -/
theorem map_number_set {ws : List (CommandWorker Call Handler Error Result)} {i : ℕ}
    {w w' : CommandWorker Call Handler Error Result} (hw : ws[i]? = some w)
    (hn : w'.number = w.number) : (ws.set i w').map (·.number) = ws.map (·.number) := by
  refine List.ext_getElem? fun j => ?_
  rw [List.getElem?_map, List.getElem?_map, List.getElem?_set]
  split_ifs with hij hlt
  · rw [← hij, hw]
    simp [hn]
  · rw [← hij, List.getElem?_eq_none (not_lt.1 hlt)]
  · rfl

theorem getElem?_setThread {i j : ℕ} {w w' : CommandWorker Call Handler Error Result}
    (hw : s.threads[i]? = some w) : (s.threads.set i w')[j]? =
      if i = j then some w' else s.threads[j]? := by
  have hlt := (List.getElem?_eq_some_iff.1 hw).1
  rw [List.getElem?_set]
  split_ifs with hij
  · rfl
  · rfl

/-- The last thread is the current one, and all before it were delivered. -/
theorem Coherent.split_last (h : s.Coherent) {i : ℕ} (hi : s.commandWorker = some i) :
    ∃ w, s.threads[i]? = some w ∧ s.threads = s.threads.take i ++ [w] := by
  obtain ⟨w, hw, -⟩ := (h.current i).1 hi
  obtain ⟨hlt, hget⟩ := List.getElem?_eq_some_iff.1 hw
  refine ⟨w, hw, ?_⟩
  have hlast := h.last i hi
  conv_lhs => rw [← List.take_append_drop i s.threads]
  rw [List.drop_eq_getElem_cons hlt, hget, List.drop_eq_nil_of_le (by omega)]

/-- **The call of a thread returns.** -/
theorem Coherent.completed (h : s.Coherent) {i : ℕ} {w : CommandWorker Call Handler Error Result}
    (hw : s.threads[i]? = some w) (hout : w.outcome = none) (outcome : Except Error Result) :
    { s.setThread i { w with outcome := some outcome } with
      signals := s.signals ++ [i] }.Coherent := by
  have hcurrent : s.commandWorker = some i := (h.current i).2 ⟨w, hw, .inl hout⟩
  have hnot : i ∉ s.signals := by
    intro hi
    obtain ⟨w', o, hw', ho⟩ := h.reported i hi
    obtain rfl := Option.some.inj (hw.symm.trans hw')
    rw [hout] at ho
    cases ho
  obtain ⟨w', hw', hsplit⟩ := h.split_last hcurrent
  obtain rfl := Option.some.inj (hw.symm.trans hw')
  have hnumbers : (s.threads.set i { w with outcome := some outcome }).map (·.number) =
      s.threads.map (·.number) := map_number_set hw rfl
  refine ⟨?_, ?_, fun hopen => ?_, ?_, fun j hj => h.kept j ?_, fun j => ?_, fun j hj => ?_,
    fun j hj => ?_, ?_, fun hopen j v hv hnone => ?_⟩
  · show (List.map _ (s.threads.set i _) ++ _).Pairwise _
    rw [hnumbers]
    exact h.order
  · show (List.map _ (s.threads.set i _) ++ _ ++ _).Perm _
    rw [hnumbers]
    exact h.accounted
  · have hbefore := h.handled hopen
    rw [delivered, hcurrent] at hbefore
    show s.handled = List.filterMap _ (delivered _)
    rw [hbefore, delivered]
    simp only [setThread, hcurrent]
    rw [List.take_set, List.set_eq_of_length_le (by simp)]
  · -- the answer of the last thread is new
    show s.handled <+: (s.threads.set i _).filterMap CommandWorker.answer
    have hquiet := h.quiet
    rw [hsplit, List.filterMap_append] at hquiet
    have hnone : [w].filterMap CommandWorker.answer = [] := by
      simp [CommandWorker.answer, hout]
    rw [hnone, List.append_nil] at hquiet
    have hset : s.threads.set i { w with outcome := some outcome }
        = s.threads.take i ++ [{ w with outcome := some outcome }] := by
      have hlt := (List.getElem?_eq_some_iff.1 hw).1
      rw [List.set_eq_take_append_cons_drop, if_pos hlt,
        List.drop_eq_nil_of_le (by have := h.last i hcurrent; omega)]
    rw [hset, List.filterMap_append]
    exact hquiet.trans (List.prefix_append _ _)
  · simp only [isRunning, setThread, getElem?_setThread hw] at hj ⊢
    split at hj
    · rename_i hij
      rw [← hij, hw]
      exact hj
    · exact hj
  · show s.commandWorker = some j ↔ _
    rw [h.current j]
    simp only [setThread, getElem?_setThread hw, List.mem_append, List.mem_singleton]
    constructor
    · rintro ⟨v, hv, hor⟩
      by_cases hij : i = j
      · exact ⟨_, if_pos hij, .inr (.inr hij.symm)⟩
      · exact ⟨v, by rw [if_neg hij]; exact hv, hor.imp id .inl⟩
    · rintro ⟨v, hv, hor⟩
      by_cases hij : i = j
      · subst hij
        exact ⟨w, hw, .inl hout⟩
      · rw [if_neg hij] at hv
        refine ⟨v, hv, hor.imp id fun hmem => ?_⟩
        rcases hmem with hmem | rfl
        · exact hmem
        · exact (hij rfl).elim
  · show j + 1 = (s.threads.set i _).length
    rw [List.length_set]
    exact h.last j hj
  · simp only [setThread, getElem?_setThread hw]
    by_cases hij : i = j
    · exact ⟨_, outcome, if_pos hij, rfl⟩
    · rcases List.mem_append.1 hj with hmem | hmem
      · obtain ⟨v, o, hv, ho⟩ := h.reported j hmem
        exact ⟨v, o, by rw [if_neg hij]; exact hv, ho⟩
      · exact (hij (List.mem_singleton.1 hmem).symm).elim
  · refine List.nodup_append.2 ⟨h.nodup, List.nodup_singleton i, ?_⟩
    intro a ha b hb
    rw [List.mem_singleton.1 hb]
    rintro rfl
    exact hnot ha
  · simp only [setThread, getElem?_setThread hw] at hv
    split at hv
    · obtain rfl := Option.some.inj hv
      cases hnone
    · exact h.live hopen j v hv hnone

theorem getElem?_stopThreads (which : ℕ → Bool) (i : ℕ) : (s.stopThreads which).threads[i]?
    = (s.threads[i]?).map fun w => { w with running := w.running && !which i } :=
  List.getElem?_mapIdx

/-- Whether threads are running does not matter for what they have answered. -/
theorem map_stopThreads {α : Type} (which : ℕ → Bool)
    {f : CommandWorker Call Handler Error Result → α}
    (hf : ∀ (w : CommandWorker Call Handler Error Result) running,
      f { w with running := running } = f w) :
    (s.stopThreads which).threads.map f = s.threads.map f := by
  refine List.ext_getElem? fun i => ?_
  rw [List.getElem?_map, List.getElem?_map, getElem?_stopThreads, Option.map_map]
  exact congrFun (congrArg Option.map (funext fun w => hf w _)) _

theorem filterMap_eq (ws : List (CommandWorker Call Handler Error Result)) :
    ws.filterMap CommandWorker.answer = (ws.map CommandWorker.answer).filterMap id := by
  rw [List.filterMap_map]
  rfl

/-- **Threads stop.** -/
theorem Coherent.stopThreads (h : s.Coherent) {which : ℕ → Bool}
    (hlive : s.closing = false → ∀ (i : ℕ) (w : CommandWorker Call Handler Error Result),
      s.threads[i]? = some w → w.outcome = none → which i = false) :
    (s.stopThreads which).Coherent := by
  have hnumbers : (s.stopThreads which).threads.map (·.number) = s.threads.map (·.number) :=
    map_stopThreads which fun _ _ => rfl
  have hmap : (s.stopThreads which).threads.map CommandWorker.answer
      = s.threads.map CommandWorker.answer := map_stopThreads which fun _ _ => rfl
  have hanswers (n : ℕ) :
      ((s.stopThreads which).threads.take n).filterMap CommandWorker.answer
        = (s.threads.take n).filterMap CommandWorker.answer := by
    rw [filterMap_eq, filterMap_eq, List.map_take, List.map_take, hmap]
  refine ⟨?_, ?_, fun hopen => ?_, ?_, fun i hi => h.kept i ?_, fun i => ?_, fun i hi => ?_,
    fun i hi => ?_, h.nodup, fun hopen i w hw hnone => ?_⟩
  · rw [hnumbers]
    exact h.order
  · rw [hnumbers]
    exact h.accounted
  · have hbefore := h.handled hopen
    show s.handled = _
    have hsame : (s.stopThreads which).commandWorker = s.commandWorker := rfl
    cases hcurrent : s.commandWorker with
    | none =>
        simp only [delivered, hsame, hcurrent] at hbefore ⊢
        rw [hbefore, filterMap_eq, filterMap_eq, hmap]
    | some i =>
        simp only [delivered, hsame, hcurrent] at hbefore ⊢
        rw [hbefore, hanswers i]
  · show s.handled <+: _
    rw [filterMap_eq, hmap, ← filterMap_eq]
    exact h.quiet
  · simp only [isRunning, getElem?_stopThreads, Option.any_map, Option.any_eq_true,
      Bool.and_eq_true] at hi ⊢
    obtain ⟨w, hw, hrun, -⟩ := hi
    exact ⟨w, hw, hrun⟩
  · show s.commandWorker = some i ↔ _
    rw [h.current i]
    simp only [getElem?_stopThreads, Option.map_eq_some_iff]
    constructor
    · rintro ⟨w, hw, hor⟩
      exact ⟨_, ⟨w, hw, rfl⟩, hor⟩
    · rintro ⟨v, ⟨w, hw, rfl⟩, hor⟩
      exact ⟨w, hw, hor⟩
  · show i + 1 = (s.threads.mapIdx _).length
    rw [List.length_mapIdx]
    exact h.last i hi
  · obtain ⟨w, o, hw, ho⟩ := h.reported i hi
    exact ⟨{ w with running := w.running && !which i }, o,
      by rw [getElem?_stopThreads, hw]; rfl, ho⟩
  · rw [getElem?_stopThreads, Option.map_eq_some_iff] at hw
    obtain ⟨v, hv, rfl⟩ := hw
    show (v.running && !which i) = true
    rw [h.live hopen i v hv hnone, hlive hopen i v hv hnone]
    rfl

/-- **A `completed` is delivered**: its thread was the current one, and its answer comes next. -/
theorem Coherent.deliver (h : s.Coherent) {i : ℕ} {signals : List ℕ}
    {w : CommandWorker Call Handler Error Result} (hsignals : s.signals = i :: signals)
    (hw : s.threads[i]? = some w) :
    { s with
      signals := signals
      commandWorker := none
      handled := if s.closing then s.handled else s.handled ++ w.answer.toList }.Coherent := by
  have hcurrent : s.commandWorker = some i :=
    (h.current i).2 ⟨w, hw, .inr (by rw [hsignals]; exact List.mem_cons_self ..)⟩
  obtain ⟨w', hw', hsplit⟩ := h.split_last hcurrent
  obtain rfl := Option.some.inj (hw.symm.trans hw')
  have hnodup := h.nodup
  rw [hsignals, List.nodup_cons] at hnodup
  have hreported : ∃ o, w.outcome = some o := by
    obtain ⟨v, o, hv, ho⟩ := h.reported i (by rw [hsignals]; exact List.mem_cons_self ..)
    obtain rfl := Option.some.inj (hw.symm.trans hv)
    exact ⟨o, ho⟩
  have hanswers : s.closing = false →
      s.handled ++ w.answer.toList = s.threads.filterMap CommandWorker.answer := by
    intro hopen
    have hbefore := h.handled hopen
    rw [delivered, hcurrent] at hbefore
    conv_rhs => rw [hsplit, List.filterMap_append, ← hbefore]
    cases hanswer : w.answer <;> simp [hanswer]
  refine ⟨h.order, h.accounted, fun hopen => ?_, ?_, h.kept, fun j => ?_, fun j hj => ?_,
    fun j hj => h.reported j (by rw [hsignals]; exact List.mem_cons_of_mem _ hj), hnodup.2, h.live⟩
  · have hopen : s.closing = false := hopen
    rw [hopen, delivered]
    exact hanswers hopen
  · cases hclosing : s.closing with
    | true => exact h.quiet
    | false =>
        show s.handled ++ w.answer.toList <+: _
        rw [hanswers hclosing]
  · constructor
    · intro hj
      cases hj
    · rintro ⟨v, hv, hor⟩
      -- another thread that was not delivered would be the current one as well
      have hij : j = i := by
        have hj := (h.current j).2 ⟨v, hv, hor.imp id fun hmem => by
          rw [hsignals]
          exact List.mem_cons_of_mem _ hmem⟩
        exact Option.some.inj (hj.symm.trans hcurrent)
      subst hij
      obtain rfl := Option.some.inj (hw.symm.trans hv)
      obtain ⟨o, ho⟩ := hreported
      rcases hor with hnone | hmem
      · rw [ho] at hnone
        cases hnone
      · exact (hnodup.1 hmem).elim
  · cases hj

/-- The call of a handler, or the `finally` without one. -/
theorem Coherent.callHandler {number : ℕ} {handler : Option Handler}
    {outcome : Except Error Result}
    (h : { s with handled := s.handled ++ (handler.map fun handler =>
      (⟨number, handler, outcome⟩ : Handled Handler Error Result)).toList }.Coherent) :
    (s.callHandler number handler outcome).Coherent ∧
      (s.callHandler number handler outcome).Resting := by
  cases handler with
  | none =>
      have hsame : s.Coherent := by simpa using h
      exact ⟨hsame.startNextCommand, resting_startNextCommand⟩
  | some handler =>
      refine ⟨h.withHandlers (s.inHandlers + 1), fun _ _ hzero => ?_⟩
      exact absurd hzero (Nat.succ_ne_zero _)

/-- **The slot of `completed`.** -/
theorem Coherent.onCommandCompleted (h : s.Coherent) {i number : ℕ} {signals : List ℕ}
    {command : Command Call Handler} {outcome : Except Error Result} {running : Bool}
    (hsignals : s.signals = i :: signals)
    (hw : s.threads[i]? = some ⟨number, command, some outcome, running⟩) (connected : Bool) :
    ({ s with signals := signals }.onCommandCompleted number command outcome connected).Coherent ∧
      ({ s with signals := signals }.onCommandCompleted number command outcome connected).Resting := by
  have hdeliver := h.deliver hsignals hw
  cases hclosing : s.closing with
  | true =>
      rw [hclosing] at hdeliver
      simp only [CommandQueue.onCommandCompleted, if_true] at hdeliver ⊢
      exact ⟨hdeliver.startNextCommand, resting_startNextCommand⟩
  | false =>
      rw [hclosing] at hdeliver
      cases outcome with
      | ok result =>
          simp only [CommandQueue.onCommandCompleted]
          exact Coherent.callHandler hdeliver
      | error exc =>
          cases connected with
          | true =>
              simp only [CommandQueue.onCommandCompleted]
              exact Coherent.callHandler hdeliver
          | false =>
              simp only [CommandQueue.onCommandCompleted]
              exact Coherent.callHandler hdeliver.updateConnectionUi

/-- **Every step keeps the queue coherent.** -/
theorem Coherent.step (h : s.Coherent) (hresting : s.Resting)
    {e : CommandEvent Call Handler Error Result} (hs : s.step e = some s') :
    s'.Coherent ∧ s'.Resting := by
  cases e with
  | runCommand command =>
      obtain rfl := Option.some.inj hs
      exact ⟨(h.queue command).startNextCommand, resting_startNextCommand⟩
  | disconnected =>
      obtain rfl := Option.some.inj hs
      exact ⟨h.updateConnectionUi, fun _ _ _ => rfl⟩
  | completed i outcome =>
      simp only [CommandQueue.step] at hs
      split at hs
      · rename_i w hw
        obtain ⟨⟨-, hnone⟩, hs⟩ := Option.ite_none_right_eq_some.1 hs
        obtain rfl := Option.some.inj hs
        exact ⟨h.completed hw (Option.isNone_iff_eq_none.1 hnone) outcome, hresting⟩
      · cases hs
  | ended i =>
      simp only [CommandQueue.step] at hs
      split at hs
      · rename_i w hw
        obtain ⟨hsome, hs⟩ := Option.ite_none_right_eq_some.1 hs
        obtain rfl := Option.some.inj hs
        refine ⟨h.stopThreads fun _ j v hv hnone => ?_, hresting⟩
        by_contra hji
        obtain rfl : j = i := by simpa using hji
        obtain rfl := Option.some.inj (hw.symm.trans hv)
        rw [hnone] at hsome
        cases hsome
      · cases hs
  | deliver connected =>
      simp only [CommandQueue.step] at hs
      split at hs
      · cases hs
      · rename_i i signals hsignals
        split at hs
        · rename_i number command outcome running hw
          obtain rfl := Option.some.inj hs
          exact h.onCommandCompleted hsignals hw connected
        · cases hs
  | handlerReturns =>
      obtain ⟨-, hs⟩ := Option.ite_none_left_eq_some.1 hs
      obtain rfl := Option.some.inj hs
      exact ⟨(h.withHandlers _).startNextCommand, resting_startNextCommand⟩
  | close =>
      obtain rfl := Option.some.inj hs
      refine ⟨⟨h.order, h.accounted, fun hopen => ?_, h.quiet, h.kept, h.current, h.last, h.reported,
        h.nodup, fun hopen => ?_⟩, fun hopen => ?_⟩
      · cases hopen
      · cases hopen
      · cases hopen
  | closed =>
      obtain ⟨hclosing, hs⟩ := Option.ite_none_right_eq_some.1 hs
      obtain rfl := Option.some.inj hs
      refine ⟨h.stopThreads fun hopen => ?_, hresting⟩
      rw [hclosing] at hopen
      cases hopen

theorem Reachable.coherent (h : s.Reachable) : s.Coherent ∧ s.Resting := by
  induction h with
  | opened => exact ⟨coherent_opened, fun _ _ _ => rfl⟩
  | step _ hs ih => exact ih.1.step ih.2 hs

/-- What the invariant says of a queue. -/
theorem Coherent.served (h : s.Coherent) (hresting : s.Resting) : s.Served := by
  have hcalling : ∀ i, s.Calling i → s.commandWorker = some i := by
    intro i hi
    obtain ⟨w, hw, -, hnone⟩ := hi
    exact (h.current i).2 ⟨w, hw, .inl hnone⟩
  refine ⟨fun i j hi hj => ?_, h.order, h.accounted, h.handled, h.quiet, fun hopen hne => ?_, h.kept⟩
  · exact Option.some.inj ((hcalling i hi).symm.trans (hcalling j hj))
  · cases hcurrent : s.commandWorker with
    | none =>
        refine .inr (Nat.pos_of_ne_zero fun hzero => ?_)
        exact hne (hresting hopen hcurrent hzero)
    | some i =>
        obtain ⟨w, hw, hor⟩ := (h.current i).1 hcurrent
        refine .inl ⟨i, rfl, hor.imp (fun hnone => ?_) id⟩
        exact ⟨w, hw, h.live hopen i w hw hnone, hnone⟩

end CommandQueue

/-- **Commands are served one at a time, in order, and none is lost.**  Whatever the user does,
however long the calls take, whatever they return, and whatever happens while a handler runs: every
queue that is reached is served, and closing the window leaves no thread running. -/
theorem reachable_served {Call Handler Error Result : Type}
    {s : CommandQueue Call Handler Error Result} (h : s.Reachable) :
    s.Served ∧ ∀ s', s.step .closed = some s' → ∀ i, s'.isRunning i = false := by
  obtain ⟨hcoherent, hresting⟩ := h.coherent
  refine ⟨hcoherent.served hresting, fun s' hs i => ?_⟩
  obtain ⟨-, hs⟩ := Option.ite_none_right_eq_some.1 hs
  obtain rfl := Option.some.inj hs
  rw [CommandQueue.isRunning, CommandQueue.getElem?_stopThreads]
  cases hw : s.threads[i]? with
  | none => rfl
  | some w =>
      show (w.running && !decide (i ∈ s.workers)) = false
      cases hrun : w.running with
      | false => rfl
      | true =>
          have hkept := hcoherent.kept i (by simp [CommandQueue.isRunning, hw, hrun])
          simp [hkept]

/-- The queue after these events. -/
def CommandQueue.run {Call Handler Error Result : Type}
    (s : CommandQueue Call Handler Error Result)
    (events : List (CommandEvent Call Handler Error Result)) :
    Option (CommandQueue Call Handler Error Result) :=
  events.foldlM CommandQueue.step s

theorem CommandQueue.Reachable.run {Call Handler Error Result : Type}
    {s s' : CommandQueue Call Handler Error Result}
    {events : List (CommandEvent Call Handler Error Result)} (h : s.Reachable)
    (hrun : s.run events = some s') : s'.Reachable := by
  induction events generalizing s with
  | nil =>
      obtain rfl := Option.some.inj hrun
      exact h
  | cons e events ih =>
      obtain ⟨s₁, hs₁, hrest⟩ := Option.bind_eq_some_iff.1 hrun
      exact ih (h.step hs₁) hrest

/-- Two commands are queued.  While the handler of the first one shows a dialog a third one is
queued; the second one fails when the connection is lost. -/
def dialogEvents : List (CommandEvent ℕ ℕ Unit ℕ) :=
  [.runCommand ⟨7, some 70, some 71⟩, .runCommand ⟨8, some 80, some 81⟩, .completed 0 (.ok 3),
    .deliver true, .ended 0, .runCommand ⟨9, some 90, some 91⟩, .completed 1 (.error ()),
    .deliver false, .handlerReturns, .handlerReturns, .close]

/-- The handlers of the first two are called, and the third is dropped. -/
theorem reachable_served_dialog : ∃ s : CommandQueue ℕ ℕ Unit ℕ,
    CommandQueue.run {} dialogEvents = some s ∧ s.handled.map (·.handler) = [70, 81] ∧
      s.dropped = [2] ∧ s.Served := by
  have hsome : (CommandQueue.run {} dialogEvents).any (fun s =>
      decide (s.handled.map (·.handler) = [70, 81]) && decide (s.dropped = [2])) = true := by
    decide +kernel
  obtain ⟨s, hrun, hs⟩ := (Option.any_eq_true ..).1 hsome
  simp only [Bool.and_eq_true, decide_eq_true_eq] at hs
  exact ⟨s, hrun, hs.1, hs.2, (reachable_served (CommandQueue.Reachable.opened.run hrun)).1⟩

end Afm.Gui
