/-
**What the clients of the server see.**

The server has one client at a time, and keeps one line buffer and one command handler for all of
them.  A client may leave in the middle of a line, and another thread may ask the server to stop at
any moment.

Main definitions:

* `Afm.TcpServer.watch` — the flag that asks for a stop, as a connection sees it;
* `Afm.TCPServer.Spoken` — what a client may see;
* `Afm.TCPServer.Orderly` — every connection is as its own client made it.

Main results:

* `Afm.TCPServer.handle_runs` — a program of a connection, carried out by the server, is a run of
  the network on that connection;
* `Afm.TcpServer.serve_punctual` — a request to stop is heard;
* `Afm.TCPServer.connections_isolated` — **what a client sees depends on that client alone**.
-/

import RedPitayaAfm.ServerLoop

set_option relaxedAutoImplicit false
set_option autoImplicit false

namespace Afm

open Effect

/-! ### One connection -/

namespace TcpServer

/-- The connection with something sent before. -/
def Net.after (w : Net) (greeting : Text) : Net := { w with sent := greeting ++ w.sent }

/-- What was sent before does not matter to the network. -/
theorem NetStep.of_after {greeting : Text} {w v' : Net} {c : Call} {r : socket.Reply c}
    (h : NetStep (w.after greeting) c r v') : ∃ w', NetStep w c r w' ∧ v' = w'.after greeting := by
  generalize hv : w.after greeting = v at h
  cases h with
  | shouldStop stop => exact ⟨w, .shouldStop w stop, hv.symm⟩
  | setShouldStop => exact ⟨w, .setShouldStop w, hv.symm⟩
  | now t => exact ⟨w, .now w t, hv.symm⟩
  | select result => exact ⟨w, .select w result, hv.symm⟩
  | recvClosed => exact ⟨w, .recvClosed w, hv.symm⟩
  | recv data hdata => exact ⟨_, .recv w data hdata, by rw [← hv]; rfl⟩
  | commandHandler cmd result => exact ⟨_, .commandHandler w cmd result, by rw [← hv]; rfl⟩
  | send data count hcount =>
      refine ⟨_, .send w data count hcount, ?_⟩
      rw [← hv]
      simp [Net.after]
  | sendInterrupted data => exact ⟨w, .sendInterrupted w data, hv.symm⟩
  | sendFailed data => exact ⟨w, .sendFailed w data, hv.symm⟩

/-! ### Requests to stop -/

/-- What a connection sees of the flag, and the commands handed over after it was raised. -/
def Watched (v v' : Bool × ℕ) : (c : Call) → socket.Reply c → Prop
  | .shouldStop, stop => v'.1 = stop ∧ (v.1 = true → v'.1 = true) ∧ v'.2 = v.2
  | .setShouldStop, _ => v'.1 = true ∧ v'.2 = v.2
  | .commandHandler _, _ => (v.1 = true → v'.1 = true) ∧ v'.2 = v.2 + v.1.toNat
  | _, _ => (v.1 = true → v'.1 = true) ∧ v'.2 = v.2

/-- The flag as an environment of a connection. -/
abbrev watch : World socket := ⟨Bool × ℕ, fun v c r v' => Watched v v' c r⟩

/-- At most one command came after the request, and only if there was one. -/
def Punctual (v : Bool × ℕ) : Prop := v.2 ≤ 1 ∧ (v.2 ≠ 0 → v.1 = true)

/-- Calls that hand nothing over. -/
def IsTransfer : Call → Prop
  | .select => True
  | .recv => True
  | .send _ => True
  | .now => True
  | _ => False

/-- Nothing was handed over, and a request that was there still is. -/
def Goes (v v' : Bool × ℕ) : Prop := v'.2 = v.2 ∧ (v.1 = true → v'.1 = true)

theorem Goes.punctual {v v' : Bool × ℕ} (h : Goes v v') (hv : Punctual v) : Punctual v' :=
  ⟨h.1.le.trans hv.1, fun hne => h.2 (hv.2 (h.1 ▸ hne))⟩

theorem goes_of_only {α : Type} {p : Prog socket α} (hp : p.Only IsTransfer) {v v' : Bool × ℕ}
    {a : α} (h : Runs watch v p a v') : Goes v v' := by
  refine Runs.invariant_of_only (P := fun v₁ => Goes v v₁) hp ?_ h ⟨rfl, id⟩
  rintro v₁ c r v₂ hc hgoes hstep
  cases c with
  | select | recv | send | now => exact ⟨hstep.2.trans hgoes.1, fun hv => hstep.1 (hgoes.2 hv)⟩
  | _ => exact hc.elim

theorem only_sendToClient (rounds : ℕ) (message : Text) :
    (sendToClient rounds message).Only IsTransfer := by
  induction rounds generalizing message with
  | zero => trivial
  | succ rounds ih =>
      unfold sendToClient
      split
      · trivial
      · refine ⟨trivial, fun result => ?_⟩
        cases result with
        | interrupted => exact ih message
        | failed => trivial
        | sent count =>
            by_cases hcount : count = 0
            · simp [hcount, Prog.Only]
            · simpa [hcount] using ih (message.drop count)

theorem only_readLine (b : LineBuffer) : (readLine b).Only IsTransfer := by
  unfold readLine
  split
  · trivial
  refine ⟨trivial, fun result => ?_⟩
  cases result with
  | failed | interrupted | timedOut => trivial
  | ready =>
      refine ⟨trivial, fun data => ?_⟩
      cases data with
      | none => trivial
      | some data =>
          rcases hadd : b.append data with ⟨outcome, b'⟩
          cases outcome with
          | overflow => simp [hadd, Prog.Only]
          | ok =>
              cases hpop : b'.popLine with
              | none => simp [hadd, hpop, Prog.Only]
              | some popped => simp [hadd, hpop, Prog.Only]

/-- **A request to stop is seen before the command after next.** -/
theorem serve_punctual {rounds last : ℕ} {b : LineBuffer} {v v' : Bool × ℕ}
    {a : Exit × LineBuffer} (hv : Punctual v) (h : Runs watch v (serve rounds b last) a v') :
    Punctual v' := by
  induction rounds generalizing b last v with
  | zero =>
      obtain ⟨rfl, rfl⟩ := runs_done.1 h
      exact hv
  | succ rounds ih =>
      simp only [serve, runs_call] at h
      obtain ⟨stop, v₁, hstop, h⟩ := h
      obtain ⟨hflag, hraised, hlate⟩ :
        v₁.1 = stop ∧ (v.1 = true → v₁.1 = true) ∧ v₁.2 = v.2 := hstop
      have hv₁ : Punctual v₁ := Goes.punctual ⟨hlate, hraised⟩ hv
      split at h
      · obtain ⟨rfl, rfl⟩ := runs_done.1 h
        exact hv₁
      rename_i hno
      -- nobody has asked yet, so no command is late
      have hzero : v₁.2 = 0 := by
        by_contra hne
        exact hno (hflag ▸ hv₁.2 hne)
      simp only [runs_bind] at h
      obtain ⟨⟨r, b₁⟩, v₂, hread, h⟩ := h
      have hgoes := goes_of_only (only_readLine b) hread
      have hv₂ : Punctual v₂ := hgoes.punctual hv₁
      cases r with
      | closed | overflow =>
          obtain ⟨rfl, rfl⟩ := runs_done.1 h
          exact hv₂
      | noData =>
          simp only [runs_call] at h
          obtain ⟨now, v₃, hnow, h⟩ := h
          have hv₃ : Punctual v₃ := Goes.punctual ⟨hnow.2, hnow.1⟩ hv₂
          split at h
          · obtain ⟨rfl, rfl⟩ := runs_done.1 h
            exact hv₃
          · exact ih hv₃ h
      | line l =>
          simp only [runs_call] at h
          obtain ⟨now, v₃, hnow, h⟩ := h
          have hv₃ : Punctual v₃ := Goes.punctual ⟨hnow.2, hnow.1⟩ hv₂
          split at h
          · exact ih hv₃ h
          split at h
          · simp only [runs_bind, runs_call] at h
            obtain ⟨_, v₄, hsend, _, v₅, hset, h⟩ := h
            obtain ⟨rfl, rfl⟩ := runs_done.1 h
            have hv₄ := (goes_of_only (only_sendToClient _ _) hsend).punctual hv₃
            exact ⟨hset.2.le.trans hv₄.1, fun _ => hset.1⟩
          · simp only [runs_bind, runs_call] at h
            obtain ⟨result, v₄, hcmd, sentAll, v₅, hsend, h⟩ := h
            have hv₄ : Punctual v₄ := by
              obtain ⟨hraise, hcount⟩ : (v₃.1 = true → v₄.1 = true) ∧ v₄.2 = v₃.2 + v₃.1.toNat :=
                hcmd
              have h₃ : v₃.2 = 0 := (hnow.2.trans hgoes.1).trans hzero
              rw [h₃, Nat.zero_add] at hcount
              refine ⟨hcount.le.trans (Bool.toNat_le _), fun hne => hraise ?_⟩
              cases hv : v₃.1 with
              | true => rfl
              | false => simp [hcount, hv] at hne
            have hv₅ := (goes_of_only (only_sendToClient _ _) hsend).punctual hv₄
            cases sentAll with
            | none =>
                obtain ⟨rfl, rfl⟩ := runs_done.1 h
                exact hv₅
            | some ok =>
                cases ok with
                | true => exact ih hv₅ h
                | false =>
                    obtain ⟨rfl, rfl⟩ := runs_done.1 h
                    exact hv₅

end TcpServer

/-! ### All connections -/

namespace TCPServer

open Act (Confined)

open TcpServer (Net NetStep network Served Serving watch Watched Punctual)

section Connections

variable {α : Type} {s s' : TCPServer} {w w' : Host}

/-- A call on a connection is one of the network, and one of the flag. -/
theorem onConnection_runs {c : TcpServer.Call} {r : Except StillRunning (TcpServer.socket.Reply c)}
    (h : Runs host w (onConnection c s) (r, s') w') :
    ∃ a, r = .ok a ∧ s' = s ∧ w'.past = w.past ∧ NetStep w.current c a w'.current ∧
      Watched (w.stop, w.late) (w'.stop, w'.late) c a := by
  cases c with
  | shouldStop =>
      obtain ⟨a, w₁, hstep, hdone⟩ := runs_call.1 h
      obtain ⟨heq, rfl⟩ := runs_done.1 hdone
      cases heq
      obtain ⟨hpast, hcurrent⟩ := hstep.traffic
      exact ⟨a, rfl, rfl, hpast, hcurrent ▸ .shouldStop w.current a, hstep.flagged⟩
  | setShouldStop =>
      obtain ⟨a, w₁, hstep, hdone⟩ := runs_call.1 h
      obtain ⟨heq, rfl⟩ := runs_done.1 hdone
      cases heq
      obtain ⟨hpast, hcurrent⟩ := hstep.traffic
      exact ⟨a, rfl, rfl, hpast, hcurrent ▸ .setShouldStop w.current, hstep.flagged⟩
  | now | select | recv | commandHandler | send =>
      obtain ⟨a, w₁, hstep, hdone⟩ := runs_call.1 h
      obtain ⟨heq, rfl⟩ := runs_done.1 hdone
      cases heq
      exact ⟨a, rfl, rfl, hstep.traffic.1, hstep.traffic.2, hstep.flagged⟩

/-- **A program of a connection**, carried out by the server, is a run of the network on the present
connection, whatever was sent on it before. -/
theorem handle_runs {p : Prog TcpServer.socket α} {r : Except StillRunning α}
    (h : Runs host w (p.handle onConnection s) (r, s') w') :
    ∃ a, r = .ok a ∧ s' = s ∧ w'.past = w.past ∧
      (∀ greeting net, w.current = net.after greeting →
        ∃ net', Runs network net p a net' ∧ w'.current = net'.after greeting) ∧
      Runs watch (w.stop, w.late) p a (w'.stop, w'.late) := by
  induction p generalizing w with
  | done a =>
      obtain ⟨heq, rfl⟩ := runs_done.1 h
      cases heq
      exact ⟨a, rfl, rfl, rfl, fun greeting net hnet => ⟨net, .done net a, hnet⟩, .done _ a⟩
  | call c next ih =>
      rcases Act.runs_bind.1 h with ⟨e, -, hcall⟩ | ⟨reply, s₁, w₁, hcall, hnext⟩
      · obtain ⟨a, heq, -⟩ := onConnection_runs hcall
        cases heq
      obtain ⟨_, heq, rfl, hpast, hnet, hwatch⟩ := onConnection_runs hcall
      cases heq
      obtain ⟨a, rfl, rfl, hpast', hnets, hwatched⟩ := ih reply hnext
      refine ⟨a, rfl, rfl, hpast'.trans hpast, fun greeting net heq => ?_, .call hwatch hwatched⟩
      rw [heq] at hnet
      obtain ⟨net₁, hstep, heq₁⟩ := hnet.of_after
      obtain ⟨net', hruns, heq'⟩ := hnets greeting net₁ heq₁
      exact ⟨net', .call hstep hruns, heq'⟩

/-- What a client may see: the greeting, or a part of it if it could not be sent, and then the
replies to its own commands. -/
def Spoken (net : Net) : Prop :=
  ∃ greeting own e, greeting <+: welcome ∧ net = Net.after own greeting ∧ Served own e

/-- A connection on which nothing has happened. -/
theorem spoken_empty : Spoken {} :=
  ⟨[], {}, .stopped, List.nil_prefix, rfl, ⟨List.nil_prefix, fun _ h => (by cases h), rfl⟩⟩

/-- The connection has been greeted, and nothing else. -/
def Greeted (net : Net) : Prop := ∃ greeting, greeting <+: welcome ∧ net = Net.after {} greeting

theorem Greeted.spoken {net : Net} (h : Greeted net) : Spoken net := by
  obtain ⟨greeting, hprefix, rfl⟩ := h
  exact ⟨greeting, {}, .stopped, hprefix, rfl, ⟨List.nil_prefix, fun _ h => (by cases h), rfl⟩⟩

/-- Every connection is as its own client made it, and a request to stop is heard. -/
structure Orderly (w : Host) : Prop where
  past : ∀ net ∈ w.past, Spoken net
  current : Spoken w.current
  punctual : Punctual (w.stop, w.late)

/-- Calls that neither begin nor end a connection, nor are made on one. -/
def IsSetup : ListenerCall → Prop
  | .accept => False
  | .closeClient => False
  | .client _ => False
  | _ => True

theorem Orderly.setup (h : Orderly w) {c : ListenerCall} {r : listener.Reply c} (hc : IsSetup c)
    (hstep : Host.Step w c r w') : Orderly w' ∧ w'.current = w.current := by
  have htraffic : w'.past = w.past ∧ w'.current = w.current := by
    have := hstep.traffic
    cases c with
    | accept | closeClient | client => exact hc.elim
    | _ => exact this
  have hpunctual : Punctual (w'.stop, w'.late) := by
    have hflagged := hstep.flagged
    cases c with
    | accept | closeClient | client => exact hc.elim
    | shouldStop => exact TcpServer.Goes.punctual ⟨hflagged.2.2, hflagged.2.1⟩ h.punctual
    | storeShouldStop stop =>
        obtain ⟨hstop, hlate⟩ := hflagged
        cases stop with
        | true => exact ⟨hlate.le.trans h.punctual.1, fun _ => hstop⟩
        | false => exact ⟨hlate.le.trans zero_le_one, fun hne => (hne hlate).elim⟩
    | _ => exact TcpServer.Goes.punctual ⟨hflagged.2, hflagged.1⟩ h.punctual
  refine ⟨⟨?_, ?_, hpunctual⟩, htraffic.2⟩
  · rw [htraffic.1]
    exact h.past
  · rw [htraffic.2]
    exact h.current

/-- The client's socket and the state of the server stay. -/
structure SameClient (s s' : TCPServer) : Prop where
  clientOpen : s'.clientOpen = s.clientOpen
  running : s'.running = s.running

instance : Std.Refl SameClient where
  refl _ := ⟨rfl, rfl⟩

instance : IsTrans TCPServer SameClient where
  trans _ _ _ h h' := ⟨h'.clientOpen.trans h.clientOpen, h'.running.trans h.running⟩

/-- Methods that set something up. -/
abbrev SetsUp (m : Method α) : Prop := Confined IsSetup SameClient m

theorem setsUp_closeServer : SetsUp closeServer :=
  Confined.bind Confined.get fun _ => Confined.ite
    (Confined.bind (Confined.call trivial) fun _ => Confined.modify fun _ => ⟨rfl, rfl⟩)
    (Confined.pure _)

theorem setsUp_fail (message : Text) : SetsUp (fail message) :=
  Confined.bind (Confined.modify fun _ => ⟨rfl, rfl⟩) fun _ => Confined.pure _

theorem setsUp_orCloseServer (message reason : Text) : SetsUp (orCloseServer message reason) :=
  Confined.bind (Confined.modify fun _ => ⟨rfl, rfl⟩) fun _ =>
    Confined.bind setsUp_closeServer fun _ => Confined.pure _

theorem setsUp_initSocket : SetsUp initSocket := by
  refine Confined.bind Confined.get fun s => Confined.bind (Confined.call trivial) fun made => ?_
  cases made with
  | error reason => exact setsUp_fail _
  | ok _ =>
      refine Confined.bind (Confined.modify fun _ => ⟨rfl, rfl⟩) fun _ => ?_
      refine Confined.bind (Confined.call trivial) fun reused => ?_
      cases reused with
      | error reason => exact setsUp_orCloseServer _ reason
      | ok _ =>
          refine Confined.bind (Confined.call trivial) fun bound => ?_
          cases bound with
          | error reason => exact setsUp_orCloseServer _ reason
          | ok _ =>
              refine Confined.bind (Confined.call trivial) fun listening => ?_
              cases listening with
              | error reason => exact setsUp_orCloseServer _ reason
              | ok _ => exact Confined.pure _

theorem setsUp_setOptions (options : List SocketOption) : SetsUp (setOptions options) := by
  induction options with
  | nil => exact Confined.pure _
  | cons option options ih => exact Confined.bind (Confined.call trivial) fun _ => ih

/-- What such methods keep. -/
theorem SetsUp.runs {m : Method α} (hm : SetsUp m) {r : Except StillRunning α}
    (h : Runs host w (m s) (r, s') w') (hw : Orderly w) :
    Orderly w' ∧ w'.current = w.current ∧ SameClient s s' := by
  have hkeeps := Runs.invariant_of_only (P := fun v : Host => Orderly v ∧ v.current = w.current)
    (hm.only s) ?_ h ⟨hw, rfl⟩
  · exact ⟨hkeeps.1, hkeeps.2, hm.moves _ _ _ _ _ _ h⟩
  · rintro v c r v' hc ⟨hv, hcurrent⟩ hstep
    obtain ⟨hv', hcurrent'⟩ := hv.setup hc hstep
    exact ⟨hv', hcurrent'.trans hcurrent⟩

/-- A new connection. -/
theorem Orderly.accepted (h : Orderly w) (hstep : Host.Step w .accept true w') :
    Orderly w' ∧ w'.current = {} := by
  obtain ⟨hpast, hcurrent⟩ := hstep.traffic
  change w'.current = {} at hcurrent
  refine ⟨⟨by rw [hpast]; exact h.past, by rw [hcurrent]; exact spoken_empty, ?_⟩, hcurrent⟩
  exact TcpServer.Goes.punctual ⟨hstep.flagged.2, hstep.flagged.1⟩ h.punctual

theorem Orderly.not_accepted (h : Orderly w) (hstep : Host.Step w .accept false w') :
    Orderly w' := by
  obtain ⟨hpast, hcurrent⟩ := hstep.traffic
  change w'.current = w.current at hcurrent
  refine ⟨by rw [hpast]; exact h.past, by rw [hcurrent]; exact h.current, ?_⟩
  exact TcpServer.Goes.punctual ⟨hstep.flagged.2, hstep.flagged.1⟩ h.punctual

/-- A connection that is over. -/
theorem Orderly.closed (h : Orderly w) (hstep : Host.Step w .closeClient () w') : Orderly w' := by
  obtain ⟨hpast, hcurrent⟩ := hstep.traffic
  refine ⟨?_, by rw [hcurrent]; exact spoken_empty, ?_⟩
  · rw [hpast]
    intro net hnet
    rcases List.mem_append.1 hnet with hnet | hnet
    · exact h.past net hnet
    · rw [List.mem_singleton.1 hnet]
      exact h.current
  · exact TcpServer.Goes.punctual ⟨hstep.flagged.2, hstep.flagged.1⟩ h.punctual

theorem triple_closeClient_orderly :
    Triple host (fun s w => Orderly w ∧ s.running = true) closeClient
      fun _ s w => Orderly w ∧ s.running = true ∧ s.clientOpen = false := by
  refine Triple.read fun v => Triple.ite (fun _ => ?_) fun hv => Triple.pure ?_
  · exact Triple.callThen (fun _ s w => Orderly w ∧ s.running = true)
      (fun s w h r w' hstep => ⟨h.2.1.closed hstep, h.2.2⟩)
      fun _ => Triple.modify fun s w h => ⟨h.1, h.2, rfl⟩
  · rintro s w ⟨rfl, h, hr⟩
    exact ⟨h, hr, by simpa using hv⟩

/-- The greeting is all or a part of the welcome. -/
theorem greet_runs {rounds : ℕ} {r : Except StillRunning Unit}
    (h : Runs host w (greet rounds s) (r, s') w') (hw : Orderly w) (hempty : w.current = {}) :
    Orderly w' ∧ Greeted w'.current ∧ s' = s := by
  have hhandle : ∃ r₁ s₁, Runs host w
      ((TcpServer.sendToClient rounds welcome).handle onConnection s) (r₁, s₁) w' ∧ s' = s₁ := by
    rcases Act.runs_bind.1 h with ⟨e, -, hsend⟩ | ⟨sent, s₁, w₁, hsend, hrest⟩
    · exact ⟨_, s', hsend, rfl⟩
    · cases sent with
      | some _ =>
          obtain ⟨heq, rfl⟩ := runs_done.1 hrest
          cases heq
          exact ⟨_, s', hsend, rfl⟩
      | none =>
          obtain ⟨heq, rfl⟩ := runs_done.1 hrest
          cases heq
          exact ⟨_, s', hsend, rfl⟩
  obtain ⟨r₁, s₁, hsend, rfl⟩ := hhandle
  obtain ⟨sent, -, rfl, hpast, hnets, hwatched⟩ := handle_runs hsend
  obtain ⟨net, hnet, hcurrent⟩ := hnets [] {} (by rw [hempty]; rfl)
  obtain ⟨greeting, hprefix, rfl, -⟩ := TcpServer.sendToClient_runs hnet
  have hgreeted : Greeted w'.current := by
    refine ⟨greeting, hprefix, ?_⟩
    rw [hcurrent]
    simp [Net.after]
  refine ⟨⟨by rw [hpast]; exact hw.past, hgreeted.spoken, ?_⟩, hgreeted, rfl⟩
  exact (TcpServer.goes_of_only (TcpServer.only_sendToClient _ _) hwatched).punctual hw.punctual

/-- The server runs, and serves nobody. -/
structure Vacant (s : TCPServer) (w : Host) : Prop extends Orderly w where
  running : s.running = true
  clientOpen : s.clientOpen = false

/-- The server runs, and the client it has, if any, has only been greeted. -/
structure Welcoming (s : TCPServer) (w : Host) : Prop extends Orderly w where
  running : s.running = true
  greeted : s.clientOpen = true → Greeted w.current

theorem triple_acceptClient_greeted (rounds : ℕ) :
    Triple host Vacant (acceptClient rounds) fun _ => Welcoming := by
  refine Triple.callThen (fun _ => Vacant) ?_ fun result => ?_
  · rintro s w h r w' hstep
    exact ⟨(h.toOrderly.setup (c := .select) trivial hstep).1, h.running, h.clientOpen⟩
  have hnobody {s : TCPServer} {w : Host} (h : Vacant s w) : Welcoming s w :=
    ⟨h.toOrderly, h.running, fun hopen => by rw [h.clientOpen] at hopen; cases hopen⟩
  refine Triple.ite (fun _ => ?_) fun _ => Triple.pure fun s w h => hnobody h
  refine Triple.callThen (fun accepted s w => Orderly w ∧ s.running = true ∧
    ((show Bool from accepted) = true → w.current = {})) ?_ fun accepted => ?_
  · rintro s w h accepted w' hstep
    cases accepted with
    | true =>
        obtain ⟨hw', hempty⟩ := h.toOrderly.accepted hstep
        exact ⟨hw', h.running, fun _ => hempty⟩
    | false => exact ⟨h.toOrderly.not_accepted hstep, h.running, fun hno => by cases hno⟩
  refine Triple.modifyThen (fun s w => Orderly w ∧ s.running = true ∧
    s.clientOpen = (show Bool from accepted) ∧ (s.clientOpen = true → w.current = {}))
    (fun s w h => ⟨h.1, h.2.1, rfl, h.2.2⟩) ?_
  cases accepted with
  | false =>
      exact Triple.pure fun s w h =>
        ⟨h.1, h.2.1, fun hopen => by rw [h.2.2.1] at hopen; cases hopen⟩
  | true =>
      rintro s w ⟨hw, hrunning, hopen, hempty⟩ r s' w' hrun
      rcases Act.runs_bind.1 hrun with ⟨e, -, hoptions⟩ | ⟨u, s₁, w₁, hoptions, hgreet⟩
      · obtain ⟨hw', hcurrent, hsame⟩ := (setsUp_setOptions _).runs hoptions hw
        refine ⟨hw', hsame.running.trans hrunning, fun _ => ?_⟩
        rw [hcurrent, hempty hopen]
        exact ⟨[], List.nil_prefix, rfl⟩
      · obtain ⟨hw₁, hcurrent, hsame⟩ := (setsUp_setOptions _).runs hoptions hw
        obtain ⟨hw', hgreeted, rfl⟩ := greet_runs hgreet hw₁ (hcurrent.trans (hempty hopen))
        exact ⟨hw', hsame.running.trans hrunning, fun _ => hgreeted⟩

/-- **A client is served by what it has sent itself.** -/
theorem triple_handleClient_orderly (rounds : ℕ) :
    Triple host (fun s w => Orderly w ∧ s.running = true ∧ Greeted w.current) (handleClient rounds)
      fun _ s w => Orderly w ∧ s.running = true := by
  refine Triple.read fun v => Triple.bind (Q := fun r s w => (∃ a, r = .ok a) ∧ Orderly w ∧
    s.running = true) ?_ (fun result => ?_) ?_
  · rintro s w ⟨rfl, hw, hrunning, greeting, hprefix, hgreeting⟩ r s' w' hrun
    obtain ⟨⟨e, b'⟩, rfl, rfl, hpast, hnets, hwatched⟩ := handle_runs hrun
    obtain ⟨own, hown, hcurrent⟩ := hnets greeting {} hgreeting
    simp only [TcpServer.handleClient, runs_call] at hown hwatched
    obtain ⟨now, own₁, hnow, hserve⟩ := hown
    cases hnow
    have hstart : Serving s'.lineBuffer.clear {} [] := ⟨.clear _, rfl, by simp, rfl⟩
    have hserved := (TcpServer.serve_runs hstart hserve).1
    obtain ⟨now', v₁, hnow', hwatched⟩ := hwatched
    have hpunctual : Punctual (w'.stop, w'.late) := by
      refine TcpServer.serve_punctual ?_ hwatched
      exact TcpServer.Goes.punctual ⟨hnow'.2, hnow'.1⟩ hw.punctual
    refine ⟨⟨_, rfl⟩, ⟨by rw [hpast]; exact hw.past, ?_, hpunctual⟩, hrunning⟩
    exact ⟨greeting, own, e, hprefix, hcurrent, hserved⟩
  · refine Triple.modifyThen (fun s w => Orderly w ∧ s.running = true) (fun s w h => h.2) ?_
    exact Triple.ite (fun _ => Triple.throw fun _ _ h => h) fun _ => Triple.pure fun _ _ h => h
  · rintro e s w ⟨⟨a, heq⟩, -⟩
    cases heq

/-- What a round leaves. -/
def RoundLeaves (r : Except StillRunning Unit) (s : TCPServer) (w : Host) : Prop :=
  Orderly w ∧ s.running = true ∧ (r = .ok () → s.clientOpen = false)

theorem triple_serveClient_orderly (rounds : ℕ) :
    Triple host Vacant (serveClient rounds) RoundLeaves := by
  refine Triple.bind (triple_acceptClient_greeted rounds) (fun _ => ?_)
    fun e s w h => ⟨h.toOrderly, h.running, fun hok => by cases hok⟩
  refine Triple.read fun v => Triple.ite (fun hv => ?_) fun hv => Triple.pure ?_
  · refine Triple.bind ((triple_handleClient_orderly rounds).conseq ?_ fun _ _ _ h => h)
      (fun _ => triple_closeClient_orderly.conseq (fun _ _ h => h)
        fun _ _ _ h => ⟨h.1, h.2.1, fun _ => h.2.2⟩)
      fun e s w h => ⟨h.1, h.2, fun hok => by cases hok⟩
    rintro s w ⟨rfl, h⟩
    exact ⟨h.toOrderly, h.running, h.greeted hv⟩
  · rintro s w ⟨rfl, h⟩
    exact ⟨h.toOrderly, h.running, fun _ => by simpa using hv⟩

theorem triple_mainLoop_orderly (rounds : ℕ) :
    Triple host Vacant (mainLoop rounds) RoundLeaves := by
  induction rounds with
  | zero => exact Triple.throw fun s w h => ⟨h.toOrderly, h.running, fun _ => h.clientOpen⟩
  | succ rounds ih =>
      refine Triple.callThen (fun _ => Vacant) ?_ fun stop => ?_
      · rintro s w h r w' hstep
        exact ⟨(h.toOrderly.setup (c := .shouldStop) trivial hstep).1, h.running, h.clientOpen⟩
      refine Triple.ite
        (fun _ => Triple.pure fun s w h => ⟨h.toOrderly, h.running, fun _ => h.clientOpen⟩)
        fun _ => ?_
      refine Triple.bind (triple_serveClient_orderly rounds) (fun _ => ?_)
        fun e s w h => ⟨h.1, h.2.1, fun hok => by cases hok⟩
      exact ih.conseq (fun s w h => ⟨h.1, h.2.1, h.2.2 rfl⟩) fun _ _ _ h => h

/-- Between two calls a server that does not run serves nobody. -/
structure Documented (s : TCPServer) (w : Host) : Prop extends Orderly w where
  closed : s.running = false → s.clientOpen = false

theorem triple_run_orderly (rounds : ℕ) :
    Triple host (fun s w => Orderly w ∧ s.clientOpen = false) (run rounds) fun _ => Documented := by
  refine Triple.modifyThen Vacant (fun s w h => ⟨h.1, rfl, h.2⟩) ?_
  refine Triple.callThen (fun _ => Vacant) ?_ fun _ => ?_
  · rintro s w h r w' hstep
    exact ⟨(h.toOrderly.setup (c := .storeShouldStop false) trivial hstep).1, h.running,
      h.clientOpen⟩
  refine Triple.bind (triple_mainLoop_orderly rounds) (fun _ => ?_)
    fun e s w h => ⟨h.1, fun hno => by rw [h.2.1] at hno; cases hno⟩
  rintro s w ⟨hw, hrunning, hclosed⟩ r s' w' hrun
  rcases Act.runs_bind.1 hrun with ⟨e, -, hclose⟩ | ⟨u, s₁, w₁, hclose, hrest⟩
  · obtain ⟨hw', -, hsame⟩ := setsUp_closeServer.runs hclose hw
    exact ⟨hw', fun _ => hsame.clientOpen.trans (hclosed rfl)⟩
  · obtain ⟨hw', -, hsame⟩ := setsUp_closeServer.runs hclose hw
    obtain ⟨heq, rfl⟩ := runs_done.1 hrest
    cases heq
    exact ⟨hw', fun _ => hsame.clientOpen.trans (hclosed rfl)⟩

theorem keepsDocumented_of_setsUp {m : Method α} (hm : SetsUp m) : Keeps host Documented m := by
  intro s w h r s' w' hrun
  obtain ⟨hw', -, hsame⟩ := hm.runs hrun h.toOrderly
  exact ⟨hw', fun hno => hsame.clientOpen.trans (h.closed (hsame.running ▸ hno))⟩

theorem keepsDocumented_start (rounds : ℕ) : Keeps host Documented (start rounds) := by
  refine Triple.read fun v => Triple.ite (fun _ => ?_) fun hrunning => Triple.ite (fun _ => ?_)
    fun _ => ?_
  · exact (keepsDocumented_of_setsUp (setsUp_fail _)).conseq (fun _ _ h => h.2) fun _ _ _ h => h
  · exact (keepsDocumented_of_setsUp (setsUp_fail _)).conseq (fun _ _ h => h.2) fun _ _ _ h => h
  rintro s w ⟨rfl, h⟩ r s' w' hrun
  have hopen : v.clientOpen = false := h.closed (by simpa using hrunning)
  rcases Act.runs_bind.1 hrun with ⟨e, -, hinit⟩ | ⟨listening, s₁, w₁, hinit, hrest⟩
  · obtain ⟨hw', -, hsame⟩ := setsUp_initSocket.runs hinit h.toOrderly
    exact ⟨hw', fun _ => hsame.clientOpen.trans hopen⟩
  obtain ⟨hw₁, -, hsame⟩ := setsUp_initSocket.runs hinit h.toOrderly
  cases listening with
  | true => exact triple_run_orderly rounds s₁ w₁ ⟨hw₁, hsame.clientOpen.trans hopen⟩ r s' w' hrest
  | false =>
      obtain ⟨heq, rfl⟩ := runs_done.1 hrest
      cases heq
      exact ⟨hw₁, fun _ => hsame.clientOpen.trans hopen⟩

theorem keepsDocumented_stop : Keeps host Documented stop := by
  refine Triple.callThen (fun _ _ w => Orderly w) ?_ fun _ => ?_
  · exact fun s w h r w' hstep =>
      (h.toOrderly.setup (c := .storeShouldStop true) trivial hstep).1
  refine Triple.bind (Q := fun _ s w => Orderly w ∧ s.clientOpen = false) ?_ (fun _ => ?_)
    fun e s w h => ⟨h.1, fun _ => h.2⟩
  · refine Triple.read fun v => Triple.ite (fun _ => ?_) fun hv => Triple.pure ?_
    · exact Triple.callThen (fun _ _ w => Orderly w) (fun s w h r w' hstep => h.2.closed hstep)
        fun _ => Triple.modify fun s w h => ⟨h, rfl⟩
    · rintro s w ⟨rfl, h⟩
      exact ⟨h, by simpa using hv⟩
  · rintro s w ⟨hw, hclosed⟩ r s' w' hrun
    rcases Act.runs_bind.1 hrun with ⟨e, -, hclose⟩ | ⟨u, s₁, w₁, hclose, hrest⟩
    · obtain ⟨hw', -, hsame⟩ := setsUp_closeServer.runs hclose hw
      exact ⟨hw', fun _ => hsame.clientOpen.trans hclosed⟩
    · obtain ⟨hw', -, hsame⟩ := setsUp_closeServer.runs hclose hw
      obtain ⟨heq, rfl⟩ := runs_done.1 hrest
      cases heq
      exact ⟨hw', fun _ => hsame.clientOpen.trans hclosed⟩

end Connections

theorem keepsDocumented_method (c : Command) : Keeps host Documented (method c) := by
  cases c with
  | setCommandHandler =>
      exact keepsDocumented_of_setsUp (Act.Confined.modify fun _ => ⟨rfl, rfl⟩)
  | start rounds => exact keepsDocumented_start rounds
  | stop => exact keepsDocumented_stop

variable {port : ℕ} {s : TCPServer} {w : Host}

/-- **What a client sees depends on that client alone.**  Over the whole life of a server, however
many clients come and go: what was sent to each of them is the greeting, or a part of it, and then
the replies to the commands in the bytes it has sent itself, in their order.  And once a stop was
requested, by a client or by another thread at any moment, at most one more command is carried
out. -/
theorem connections_isolated (h : Lives port s w) :
    (∀ net ∈ w.past ++ [w.current], Spoken net) ∧ w.late ≤ 1 := by
  have hstart : Documented ({ port := port } : TCPServer) {} := by
    refine ⟨⟨fun net hnet => (by cases hnet), spoken_empty, Nat.zero_le 1, ?_⟩, fun _ => rfl⟩
    exact fun hne => (hne rfl).elim
  have hdocumented : Documented s w := Keeps.called keepsDocumented_method h hstart
  refine ⟨fun net hnet => ?_, hdocumented.punctual.1⟩
  rcases List.mem_append.1 hnet with hnet | hnet
  · exact hdocumented.past net hnet
  · rw [List.mem_singleton.1 hnet]
    exact hdocumented.current

/-- The client of such a host. -/
theorem connections_isolated_started :
    (started.2.past.map fun net => net.sent) =
        [welcome ++ buildOkResponse "PONG".toList ++ buildOkResponse "Shutting down".toList] ∧
      (∀ net ∈ started.2.past ++ [started.2.current], Spoken net) ∧ started.2.late ≤ 1 :=
  ⟨by decide +kernel, connections_isolated lives_started⟩

end TCPServer

end Afm
