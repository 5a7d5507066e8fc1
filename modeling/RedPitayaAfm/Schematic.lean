/-
**The routing schematic.**

`RoutingSchematicDialog` draws the routes of the board and queues calls of the client with the main
window, which serves them one at a time while clicks go on.  The board can also change by other
means, calls can fail after they were carried out, and the connection can be lost with calls still
waiting.  This module says what the drawing shows in spite of that.

Main definitions:

* `Afm.Gui.Schematic` — the fields of the dialog, and what its nodes and paths show;
* `Afm.Gui.Schematic.refreshState`, `Afm.Gui.Schematic.onOutClicked` and the others — its methods;
* `Afm.Gui.SchematicRun`, `Afm.Gui.SchematicRun.step` — the dialog and the boards of its clients;
* `Afm.Gui.Moves`, `Afm.Gui.Current` — what an event can do, and what is up to date.

Main results:

* `Afm.Gui.Coherent.moves` — the drawing agrees with the fields after every event;
* `Afm.Gui.Tracks.moves` — what the dialog has changed itself is read again;
* `Afm.Gui.schematic_shows_board` — **at rest the drawing shows the board**.
-/

import RedPitayaAfm.InputSafety

set_option relaxedAutoImplicit false
set_option autoImplicit false

namespace Afm.Gui

/-! ### The dialog -/

/-- `OperatingMode` of the client. -/
inductive ServerMode
  | full
  | rpOnly
  | unknown
  deriving DecidableEq

/-- The input that each output shows. -/
abbrev Routes := Fin 4 → Option (Fin 4)

/-- What `get_board_state` returns, for the connectors of the board. -/
structure BoardState where
  routing : Routes
  gains : Fin 4 → Option Text

/-- The calls the dialog queues; a call captures the client of that moment, which may be `None`. -/
inductive SchematicCall (Client : Type)
  | getBoardState (client : Option Client)
  | setMux (client : Option Client) (out inp : Fin 4)
  | disconnectMux (client : Option Client) (out : Fin 4)
  deriving DecidableEq

/-- The fields of `RoutingSchematicDialog`. -/
structure Schematic (Client : Type) where
  client : Option Client
  mode : ServerMode
  routing : Routes := fun _ => none
  gains : Fin 4 → Text := fun _ => "?".toList
  selectingOut : Option (Fin 4) := none
  /-- `candidate` of the input nodes -/
  candidate : Fin 4 → Bool := fun _ => false
  /-- `active_paths`: the input from which a path is drawn, where it is visible. -/
  activePaths : Routes := fun _ => none
  /-- The output whose question is open in `_confirm_disconnect`. -/
  asking : Option (Fin 4) := none
  /-- The calls that wait with the main window. -/
  calls : List (SchematicCall Client) := []

namespace Schematic

variable {Client : Type} (s : Schematic Client)

/-- `_run_command` -/
def runCommand (call : SchematicCall Client) : Schematic Client :=
  { s with calls := s.calls ++ [call] }

/-- `_board_usable` -/
def boardUsable : Bool := s.client.isSome && s.mode != .rpOnly

/-- `cancel_selection` -/
def cancelSelection : Schematic Client :=
  { s with selectingOut := none, candidate := fun _ => false }

/-- `_redraw_routes` -/
def redrawRoutes : Schematic Client := { s with activePaths := s.routing }

/-- `refresh_state` -/
def refreshState : Schematic Client :=
  if s.boardUsable then s.runCommand (.getBoardState s.client)
  else
    { s with
      routing := fun _ => none
      gains := fun _ => "-".toList }.cancelSelection.redrawRoutes

/-- `_apply_state` -/
def applyState (state : BoardState) : Schematic Client :=
  { s with
    routing := state.routing
    gains := fun i => (state.gains i).getD "?".toList }.cancelSelection.redrawRoutes

/-- `_confirm_disconnect`, until the question is answered. -/
def confirmDisconnect (out : Fin 4) : Schematic Client := { s with asking := some out }

/-- `_confirm_disconnect`, once the question is answered. -/
def answered (out : Fin 4) (yes : Bool) : Schematic Client :=
  let s := { s with asking := none }
  if yes then s.runCommand (.disconnectMux s.client out) else s

/-- `_route` -/
def route (out inp : Fin 4) : Schematic Client :=
  s.cancelSelection.runCommand (.setMux s.client out inp)

/-- `on_node_clicked` for an output. -/
def onOutClicked (index : Fin 4) : Schematic Client :=
  if !s.boardUsable then s.cancelSelection
  else if s.selectingOut = some index then s.cancelSelection
  else if (s.routing index).isSome then s.confirmDisconnect index
  else { s with selectingOut := some index, candidate := fun _ => true }

/-- `on_node_clicked` for an input. -/
def onInClicked (index : Fin 4) : Schematic Client :=
  if !s.boardUsable then s.cancelSelection
  else
    match s.selectingOut with
    | some out => s.route out index
    | none => s

/-- `on_route_clicked` -/
def onRouteClicked (out : Fin 4) : Schematic Client :=
  if s.boardUsable then s.confirmDisconnect out else s

/-- Escape and the right button, in `keyPressEvent` and `mousePressEvent`. -/
def onCancel : Schematic Client := if s.selectingOut.isSome then s.cancelSelection else s

end Schematic

/-! ### The boards behind the clients -/

/-- What a call has returned. -/
inductive CallResult
  | state (state : BoardState)
  | done
  | failed

/-- The dialog, the boards that its clients reach, and the call that has returned but whose handler
has not run yet. -/
structure SchematicRun (Client : Type) where
  dialog : Schematic Client
  boards : Client → BoardState
  returned : Option (SchematicCall Client × CallResult) := none
  /-- Since a status was read from the board, something went wrong or was changed by others. -/
  missed : Bool := true

/-- What can happen. -/
inductive SchematicEvent (Client : Type)
  | clickOut (index : Fin 4)
  | clickIn (index : Fin 4)
  | clickRoute (out : Fin 4)
  /-- Escape, or the right button. -/
  | cancel
  /-- The question of `_confirm_disconnect` is answered. -/
  | answer (yes : Bool)
  /-- The button, or the main window. -/
  | refresh
  | setClient (client : Option Client)
  | setMode (mode : ServerMode)
  /-- Somebody else changes a board. -/
  | otherChange (client : Client) (state : BoardState)
  /-- The call that waits longest is carried out and returns. -/
  | execute
  /-- It raises, `carried` if it was carried out all the same. -/
  | fail (carried : Bool)
  /-- Its handler is called. -/
  | deliver
  /-- Its handler is not called, because the window closes. -/
  | forget
  /-- The calls that wait are dropped with the connection. -/
  | drop

namespace SchematicRun

variable {Client : Type} [DecidableEq Client] (s : SchematicRun Client)

/-- The board of a client gets other routes. -/
def reroute (client : Client) (out : Fin 4) (inp : Option (Fin 4)) : SchematicRun Client :=
  { s with
    boards := Function.update s.boards client
      { s.boards client with routing := Function.update (s.boards client).routing out inp } }

/-- What a call does to the boards. -/
def carryOut : SchematicCall Client → SchematicRun Client
  | .setMux (some client) out inp => s.reroute client out (some inp)
  | .disconnectMux (some client) out => s.reroute client out none
  | _ => s

/-- What a call returns; without a client it raises. -/
def resultOf : SchematicCall Client → Option CallResult
  | .getBoardState client => client.map fun client => .state (s.boards client)
  | .setMux client _ _ => client.map fun _ => .done
  | .disconnectMux client _ => client.map fun _ => .done

/-- A status that was read with the client of the dialog misses nothing, one that was read with
another says nothing. -/
def missedAfter : SchematicCall Client → Bool
  | .getBoardState client => decide (client ≠ s.dialog.client)
  | _ => s.missed

/-- `refresh_state`; what is unusable is not read. -/
def refresh : SchematicRun Client :=
  { s with dialog := s.dialog.refreshState, missed := s.missed || !s.dialog.boardUsable }

/-- The handler of a call. -/
def handle : CallResult → SchematicRun Client
  | .state state => { s with dialog := s.dialog.applyState state }
  | .done => s.refresh
  | .failed => s

/-- The next state, when the event is possible.  While a question is open there are no clicks. -/
def step : SchematicEvent Client → Option (SchematicRun Client)
  | .clickOut index =>
      if s.dialog.asking.isNone then some { s with dialog := s.dialog.onOutClicked index } else none
  | .clickIn index =>
      if s.dialog.asking.isNone then some { s with dialog := s.dialog.onInClicked index } else none
  | .clickRoute out =>
      if s.dialog.asking.isNone ∧ (s.dialog.activePaths out).isSome then
        some { s with dialog := s.dialog.onRouteClicked out }
      else none
  | .cancel =>
      if s.dialog.asking.isNone then some { s with dialog := s.dialog.onCancel } else none
  | .answer yes => s.dialog.asking.map fun out =>
      { s with dialog := s.dialog.answered out yes }
  | .refresh => some s.refresh
  | .setClient client =>
      some { s with dialog := { s.dialog with client := client }, missed := true }
  | .setMode mode => some { s with dialog := { s.dialog with mode := mode } }
  | .otherChange client state =>
      some { s with boards := Function.update s.boards client state, missed := true }
  | .execute =>
      match s.returned, s.dialog.calls with
      | none, call :: calls => (s.resultOf call).map fun result =>
          { s.carryOut call with
            dialog := { s.dialog with calls := calls }
            returned := some (call, result)
            missed := s.missedAfter call }
      | _, _ => none
  | .fail carried =>
      match s.returned, s.dialog.calls with
      | none, call :: calls => some
          { (if carried then s.carryOut call else s) with
            dialog := { s.dialog with calls := calls }
            returned := some (call, .failed)
            missed := true }
      | _, _ => none
  | .deliver => s.returned.map fun r => { s with returned := none }.handle r.2
  | .forget => some { s with returned := none, missed := true }
  | .drop => some { s with dialog := { s.dialog with calls := [] }, missed := true }

/-- The dialog as its constructor leaves it. -/
def start (client : Option Client) (mode : ServerMode) (boards : Client → BoardState) :
    SchematicRun Client :=
  { dialog := ({ client := client, mode := mode } : Schematic Client).refreshState
    boards := boards }

/-- The states that can come about. -/
inductive Reachable : SchematicRun Client → Prop
  | start (client : Option Client) (mode : ServerMode) (boards : Client → BoardState) :
      Reachable (start client mode boards)
  | step {s s' : SchematicRun Client} {e : SchematicEvent Client} (hs : Reachable s)
      (h : s.step e = some s') : Reachable s'

end SchematicRun

/-! ### The drawing -/

section Drawing

variable {Client : Type}

/-- The drawing agrees with the fields, and an input is looked for only for an open output. -/
structure Coherent (s : Schematic Client) : Prop where
  paths : s.activePaths = s.routing
  candidates : ∀ i, s.candidate i = s.selectingOut.isSome
  selecting : ∀ out, s.selectingOut = some out → s.routing out = none

namespace Coherent

variable {s : Schematic Client}

theorem cancelSelection (h : Coherent s) : Coherent s.cancelSelection :=
  ⟨h.paths, fun _ => rfl, fun _ hout => nomatch hout⟩

theorem runCommand (h : Coherent s) (call : SchematicCall Client) : Coherent (s.runCommand call) :=
  ⟨h.paths, h.candidates, h.selecting⟩

/-- After the routes have been drawn anew nothing is selected. -/
theorem redrawn (routing : Routes) (gains : Fin 4 → Text) :
    Coherent { s with routing := routing, gains := gains }.cancelSelection.redrawRoutes :=
  ⟨rfl, fun _ => rfl, fun _ hout => nomatch hout⟩

theorem refreshState (h : Coherent s) : Coherent s.refreshState := by
  unfold Schematic.refreshState
  split
  · exact h.runCommand _
  · exact redrawn _ _

theorem applyState (state : BoardState) : Coherent (s.applyState state) := redrawn _ _

theorem confirmDisconnect (h : Coherent s) (out : Fin 4) : Coherent (s.confirmDisconnect out) :=
  ⟨h.paths, h.candidates, h.selecting⟩

theorem answered (h : Coherent s) (out : Fin 4) (yes : Bool) : Coherent (s.answered out yes) := by
  have hclosed : Coherent { s with asking := none } := ⟨h.paths, h.candidates, h.selecting⟩
  cases yes with
  | true => exact hclosed.runCommand _
  | false => exact hclosed

theorem onOutClicked (h : Coherent s) (index : Fin 4) : Coherent (s.onOutClicked index) := by
  unfold Schematic.onOutClicked
  split
  · exact h.cancelSelection
  split
  · exact h.cancelSelection
  split
  · exact h.confirmDisconnect index
  · rename_i hrouting
    refine ⟨h.paths, fun _ => rfl, fun out hout => ?_⟩
    obtain rfl : index = out := Option.some.inj hout
    simpa using hrouting

theorem onInClicked (h : Coherent s) (index : Fin 4) : Coherent (s.onInClicked index) := by
  unfold Schematic.onInClicked
  split
  · exact h.cancelSelection
  split
  · exact h.cancelSelection.runCommand _
  · exact h

theorem onRouteClicked (h : Coherent s) (out : Fin 4) : Coherent (s.onRouteClicked out) := by
  unfold Schematic.onRouteClicked
  split
  · exact h.confirmDisconnect out
  · exact h

theorem onCancel (h : Coherent s) : Coherent s.onCancel := by
  unfold Schematic.onCancel
  split
  · exact h.cancelSelection
  · exact h

end Coherent

/-- What a click, an answer or a change of the mode makes of the dialog. -/
inductive Interaction (d : Schematic Client) : Schematic Client → Prop
  | clickOut (index : Fin 4) : Interaction d (d.onOutClicked index)
  | clickIn (index : Fin 4) : Interaction d (d.onInClicked index)
  | clickRoute (out : Fin 4) : Interaction d (d.onRouteClicked out)
  | cancel : Interaction d d.onCancel
  | answer (out : Fin 4) (yes : Bool) : Interaction d (d.answered out yes)
  | setMode (mode : ServerMode) : Interaction d { d with mode := mode }

theorem Coherent.interaction {d d' : Schematic Client} (h : Coherent d) (hd : Interaction d d') :
    Coherent d' := by
  cases hd with
  | clickOut index => exact h.onOutClicked index
  | clickIn index => exact h.onInClicked index
  | clickRoute out => exact h.onRouteClicked out
  | cancel => exact h.onCancel
  | answer out yes => exact h.answered out yes
  | setMode mode => exact ⟨h.paths, h.candidates, h.selecting⟩

variable [DecidableEq Client] {s s' : SchematicRun Client} {e : SchematicEvent Client}

/-- Everything that an event can do. -/
inductive Moves (s : SchematicRun Client) : SchematicRun Client → Prop
  | interaction {d : Schematic Client} (h : Interaction s.dialog d) : Moves s { s with dialog := d }
  | refresh : Moves s s.refresh
  | setClient (client : Option Client) :
      Moves s { s with dialog := { s.dialog with client := client }, missed := true }
  | otherChange (boards : Client → BoardState) : Moves s { s with boards := boards, missed := true }
  | execute {call : SchematicCall Client} {calls : List (SchematicCall Client)}
      {result : CallResult} (hreturned : s.returned = none)
      (hcalls : s.dialog.calls = call :: calls) (hresult : s.resultOf call = some result) :
      Moves s { s.carryOut call with
        dialog := { s.dialog with calls := calls }
        returned := some (call, result)
        missed := s.missedAfter call }
  | fail {call : SchematicCall Client} {calls : List (SchematicCall Client)}
      (boards : Client → BoardState) (hcalls : s.dialog.calls = call :: calls) :
      Moves s ⟨{ s.dialog with calls := calls }, boards, some (call, .failed), true⟩
  | deliver {call : SchematicCall Client} {result : CallResult}
      (hreturned : s.returned = some (call, result)) :
      Moves s ({ s with returned := none }.handle result)
  | forget : Moves s { s with returned := none, missed := true }
  | drop : Moves s { s with dialog := { s.dialog with calls := [] }, missed := true }

theorem moves_of_step (h : s.step e = some s') : Moves s s' := by
  cases e with
  | clickOut index =>
      obtain ⟨-, ⟨⟩⟩ := Option.ite_none_right_eq_some.1 h
      exact .interaction (.clickOut index)
  | clickIn index =>
      obtain ⟨-, ⟨⟩⟩ := Option.ite_none_right_eq_some.1 h
      exact .interaction (.clickIn index)
  | clickRoute out =>
      obtain ⟨-, ⟨⟩⟩ := Option.ite_none_right_eq_some.1 h
      exact .interaction (.clickRoute out)
  | cancel =>
      obtain ⟨-, ⟨⟩⟩ := Option.ite_none_right_eq_some.1 h
      exact .interaction .cancel
  | answer yes =>
      obtain ⟨out, -, rfl⟩ := Option.map_eq_some_iff.1 h
      exact .interaction (.answer out yes)
  | refresh =>
      cases h
      exact .refresh
  | setClient client =>
      cases h
      exact .setClient client
  | setMode mode =>
      cases h
      exact .interaction (.setMode mode)
  | otherChange client state =>
      cases h
      exact .otherChange _
  | execute =>
      simp only [SchematicRun.step] at h
      split at h
      · rename_i hreturned hcalls
        obtain ⟨result, hresult, rfl⟩ := Option.map_eq_some_iff.1 h
        exact .execute hreturned hcalls hresult
      · cases h
  | fail carried =>
      simp only [SchematicRun.step] at h
      split at h
      · rename_i hcalls
        cases h
        exact .fail _ hcalls
      · cases h
  | deliver =>
      obtain ⟨⟨call, result⟩, hreturned, rfl⟩ := Option.map_eq_some_iff.1 h
      exact .deliver hreturned
  | forget =>
      cases h
      exact .forget
  | drop =>
      cases h
      exact .drop

/-- **The drawing agrees with the fields** after every event. -/
theorem Coherent.moves (h : Coherent s.dialog) (hs : Moves s s') : Coherent s'.dialog := by
  cases hs with
  | interaction hd => exact h.interaction hd
  | refresh => exact h.refreshState
  | setClient client => exact ⟨h.paths, h.candidates, h.selecting⟩
  | otherChange boards => exact h
  | execute => exact ⟨h.paths, h.candidates, h.selecting⟩
  | fail => exact ⟨h.paths, h.candidates, h.selecting⟩
  | @deliver call result _ =>
      cases result with
      | state state => exact applyState state
      | done => exact h.refreshState
      | failed => exact h
  | forget => exact h
  | drop => exact ⟨h.paths, h.candidates, h.selecting⟩

/-! ### What the dialog follows up -/

/-- Calls are only added. -/
structure Keeps (d d' : Schematic Client) : Prop where
  client : d'.client = d.client
  routing : d'.routing = d.routing
  calls : d.calls <+: d'.calls

omit [DecidableEq Client] in
/-- No interaction changes what the dialog knows of the board. -/
theorem keeps_interaction {d d' : Schematic Client} (h : Interaction d d') : Keeps d d' := by
  cases h with
  | clickOut index =>
      unfold Schematic.onOutClicked
      split
      · exact ⟨rfl, rfl, List.prefix_rfl⟩
      split
      · exact ⟨rfl, rfl, List.prefix_rfl⟩
      split
      · exact ⟨rfl, rfl, List.prefix_rfl⟩
      · exact ⟨rfl, rfl, List.prefix_rfl⟩
  | clickIn index =>
      unfold Schematic.onInClicked
      split
      · exact ⟨rfl, rfl, List.prefix_rfl⟩
      split
      · exact ⟨rfl, rfl, List.prefix_append _ _⟩
      · exact ⟨rfl, rfl, List.prefix_rfl⟩
  | clickRoute out =>
      unfold Schematic.onRouteClicked
      split
      · exact ⟨rfl, rfl, List.prefix_rfl⟩
      · exact ⟨rfl, rfl, List.prefix_rfl⟩
  | cancel =>
      unfold Schematic.onCancel
      split
      · exact ⟨rfl, rfl, List.prefix_rfl⟩
      · exact ⟨rfl, rfl, List.prefix_rfl⟩
  | answer out yes =>
      cases yes with
      | true => exact ⟨rfl, rfl, List.prefix_append _ _⟩
      | false => exact ⟨rfl, rfl, List.prefix_rfl⟩
  | setMode mode => exact ⟨rfl, rfl, List.prefix_rfl⟩

/-- With this client nothing is missed: a status that has returned is that of its board, nothing has
failed, and what the dialog knows of the board is up to date if no call is left. -/
structure Current (s : SchematicRun Client) (k : Client) : Prop where
  client : s.dialog.client = some k
  state : ∀ call state, s.returned = some (call, .state state) → state = s.boards k
  failed : ∀ call, s.returned ≠ some (call, .failed)
  routing : s.returned = none → s.dialog.calls = [] → s.dialog.routing = (s.boards k).routing

/-- Nothing is missed, or it is known that something is. -/
def Tracks (s : SchematicRun Client) : Prop := s.missed = false → ∃ client, Current s client

omit [DecidableEq Client] in
theorem tracks_missed (h : s.missed = true) : Tracks s := fun hmissed => by
  rw [h] at hmissed
  cases hmissed

omit [DecidableEq Client] in
/-- A call that has changed the board says nothing about it. -/
theorem Current.done {call : SchematicCall Client} {client : Client}
    (hclient : s.dialog.client = some client) (hreturned : s.returned = some (call, .done)) :
    Current s client := by
  refine ⟨hclient, fun call state hstate => ?_, fun call hfailed => ?_, fun hnone => ?_⟩
  · rw [hreturned] at hstate
    cases hstate
  · rw [hreturned] at hfailed
    cases hfailed
  · rw [hreturned] at hnone
    cases hnone

omit [DecidableEq Client] in
/-- A refresh leaves a call, or what it misses is known. -/
theorem tracks_refresh (h : s.missed = false → ∃ client, s.dialog.client = some client ∧
      (∀ call state, s.returned = some (call, .state state) → state = s.boards client) ∧
      ∀ call, s.returned ≠ some (call, .failed)) : Tracks s.refresh := by
  intro hmissed
  obtain ⟨hs, husable⟩ := Bool.or_eq_false_iff.1 hmissed
  have husable' : s.dialog.boardUsable = true := by simpa using husable
  have hdialog : s.refresh.dialog = s.dialog.runCommand (.getBoardState s.dialog.client) := by
    show s.dialog.refreshState = _
    unfold Schematic.refreshState
    rw [if_pos husable']
  obtain ⟨client, hclient, hstate, hfailed⟩ := h hs
  refine ⟨client, ?_, hstate, hfailed, fun _ hcalls => ?_⟩
  · rw [hdialog]
    exact hclient
  · rw [hdialog] at hcalls
    exact absurd hcalls (by simp [Schematic.runCommand])

/-- **What the dialog has changed itself is read again.** -/
theorem Tracks.moves (h : Tracks s) (hs : Moves s s') : Tracks s' := by
  cases hs with
  | interaction hd =>
      intro hmissed
      obtain ⟨client, hcurrent⟩ := h hmissed
      have hkeeps := keeps_interaction hd
      refine ⟨client, hkeeps.client.trans hcurrent.client, hcurrent.state, hcurrent.failed,
        fun hreturned hcalls => hkeeps.routing.trans (hcurrent.routing hreturned ?_)⟩
      have hnil : s.dialog.calls <+: [] := hcalls ▸ hkeeps.calls
      exact List.prefix_nil.1 hnil
  | refresh =>
      refine tracks_refresh fun hmissed => ?_
      obtain ⟨client, hcurrent⟩ := h hmissed
      exact ⟨client, hcurrent.client, hcurrent.state, hcurrent.failed⟩
  | setClient client => exact tracks_missed rfl
  | otherChange boards => exact tracks_missed rfl
  | @execute call calls result hreturned hcalls hresult =>
      intro hmissed
      cases call with
      | getBoardState client =>
          have hsame : client = s.dialog.client := by simpa [SchematicRun.missedAfter] using hmissed
          obtain ⟨k, hk, rfl⟩ := Option.map_eq_some_iff.1 hresult
          refine ⟨k, hsame.symm.trans hk, ?_, ?_, fun hnone => nomatch hnone⟩
          · intro call state hstate
            cases hstate
            rfl
          · intro call hfailed
            cases hfailed
      | setMux client out inp =>
          obtain ⟨k, hcurrent⟩ := h hmissed
          obtain ⟨k', -, rfl⟩ := Option.map_eq_some_iff.1 hresult
          exact ⟨k, Current.done hcurrent.client rfl⟩
      | disconnectMux client out =>
          obtain ⟨k, hcurrent⟩ := h hmissed
          obtain ⟨k', -, rfl⟩ := Option.map_eq_some_iff.1 hresult
          exact ⟨k, Current.done hcurrent.client rfl⟩
  | fail boards hcalls => exact tracks_missed rfl
  | @deliver call result hreturned =>
      cases result with
      | state state =>
          intro hmissed
          obtain ⟨client, hcurrent⟩ := h hmissed
          refine ⟨client, hcurrent.client, ?_, ?_, fun _ _ => ?_⟩
          · intro call state hstate
            cases hstate
          · intro call hfailed
            cases hfailed
          · exact congrArg BoardState.routing (hcurrent.state call state hreturned)
      | done =>
          refine tracks_refresh fun hmissed => ?_
          obtain ⟨client, hcurrent⟩ := h hmissed
          refine ⟨client, hcurrent.client, ?_, ?_⟩
          · intro call state hstate
            cases hstate
          · intro call hfailed
            cases hfailed
      | failed =>
          intro hmissed
          obtain ⟨client, hcurrent⟩ := h hmissed
          exact absurd hreturned (hcurrent.failed call)
  | forget => exact tracks_missed rfl
  | drop => exact tracks_missed rfl

/-! ### The dialog at rest -/

theorem SchematicRun.Reachable.coherent (h : SchematicRun.Reachable s) : Coherent s.dialog := by
  induction h with
  | start client mode boards =>
      have hempty : Coherent ({ client := client, mode := mode } : Schematic Client) :=
        ⟨rfl, fun _ => rfl, fun _ hout => nomatch hout⟩
      exact hempty.refreshState
  | step _ hstep ih => exact ih.moves (moves_of_step hstep)

theorem SchematicRun.Reachable.tracks (h : SchematicRun.Reachable s) : Tracks s := by
  induction h with
  | start client mode boards => exact tracks_missed rfl
  | step _ hstep ih => exact ih.moves (moves_of_step hstep)

/-- **At rest the drawing shows the board.**  After any clicks, answers, calls that fail and changes
by others, a path is drawn for each route the dialog knows, the inputs are offered while an output
that is known to be open waits for one, and once no call is left the routes are those of the board,
unless something was missed since a status was read. -/
theorem schematic_shows_board (h : SchematicRun.Reachable s) :
    s.dialog.activePaths = s.dialog.routing ∧
      (∀ i, s.dialog.candidate i = s.dialog.selectingOut.isSome) ∧
      (∀ out, s.dialog.selectingOut = some out → s.dialog.activePaths out = none) ∧
      (s.missed = false → s.returned = none → s.dialog.calls = [] →
        ∃ client, s.dialog.client = some client ∧
          s.dialog.activePaths = (s.boards client).routing) := by
  have hcoherent := h.coherent
  refine ⟨hcoherent.paths, hcoherent.candidates, fun out hout => ?_,
    fun hmissed hreturned hcalls => ?_⟩
  · rw [hcoherent.paths]
    exact hcoherent.selecting out hout
  · obtain ⟨client, hcurrent⟩ := h.tracks hmissed
    refine ⟨client, hcurrent.client, ?_⟩
    rw [hcoherent.paths]
    exact hcurrent.routing hreturned hcalls

/-- Some events, one after the other. -/
def SchematicRun.run (s : SchematicRun Client) :
    List (SchematicEvent Client) → Option (SchematicRun Client)
  | [] => some s
  | e :: es => (s.step e).bind fun s' => s'.run es

theorem SchematicRun.Reachable.run {es : List (SchematicEvent Client)}
    (h : SchematicRun.Reachable s) (hrun : s.run es = some s') : SchematicRun.Reachable s' := by
  induction es generalizing s with
  | nil =>
      cases hrun
      exact h
  | cons e es ih =>
      obtain ⟨s₁, hstep, hrest⟩ := Option.bind_eq_some_iff.1 hrun
      exact ih (.step h hstep) hrest

end Drawing

/-- A route that is clicked together, beside a change of the mode. -/
def routeEvents : List (SchematicEvent Unit) :=
  [.execute, .deliver, .clickOut 1, .setMode .unknown, .clickIn 2, .execute, .deliver, .execute,
    .deliver]

/-- The dialog after it. -/
theorem schematic_shows_board_route : ∃ s : SchematicRun Unit, SchematicRun.Reachable s ∧
    (s.missed = false ∧ s.returned.isNone ∧ s.dialog.calls = []) ∧
    s.dialog.activePaths 1 = some 2 ∧
    ∃ client, s.dialog.activePaths = (s.boards client).routing := by
  let s₀ := SchematicRun.start (some ()) .full fun _ => ⟨fun _ => none, fun _ => none⟩
  have hany : (s₀.run routeEvents).any (fun s => decide ((s.missed = false ∧ s.returned.isNone ∧
      s.dialog.calls = []) ∧ s.dialog.activePaths 1 = some 2)) = true := by decide +kernel
  obtain ⟨s, hrun, hs⟩ := (Option.any_eq_true _ _).1 hany
  obtain ⟨⟨hmissed, hreturned, hcalls⟩, hroute⟩ := of_decide_eq_true hs
  have hreachable := (SchematicRun.Reachable.start _ _ _).run hrun
  obtain ⟨-, -, -, hshows⟩ := schematic_shows_board hreachable
  obtain ⟨client, -, hpaths⟩ := hshows hmissed (Option.isNone_iff_eq_none.1 hreturned) hcalls
  exact ⟨s, hreachable, ⟨hmissed, hreturned, hcalls⟩, hroute, client, hpaths⟩

end Afm.Gui
