/-
**Calls of the client, carried out by the server.**

The client and the command handler together: a line that the client sends is parsed by the server
and carried out by the handler on its devices, and the reply travels back on a connection that may
fail at any moment, even after the line has arrived.  A call of the client is then carried out at
most once.  When it returns, it was carried out, and what it returns was read from the reply to it;
when it raises `AFMCommandError`, it was not sent or the server has refused it.

Main definitions:

* `Afm.RemoteServer`, `Afm.RemoteServer.Carries` — the handler with its devices, and how it answers
  a line;
* `Afm.Site`, `Afm.site` — the connection with the server behind it, and what it may do;
* `Afm.Asked`, `Afm.Ended` — how a call has ended, and what it has done at the server;
* `Afm.RemoteSession`, `Afm.Carried` — calls of the client, over any number of connections, and what
  became of them at the server.

Main results:

* `Afm.query_site` — what a call that sends a line leaves;
* `Afm.perform_ended` — a call is carried out at most once, and returns its own reply;
* `Afm.calls_at_most_once` — **so is every call of a session, in the order of the calls**.
-/

import RedPitayaAfm.ServerReplies
import RedPitayaAfm.HandlerRuns

set_option relaxedAutoImplicit false
set_option autoImplicit false

namespace Afm

open Effect Client Lines

/-! ### What the methods of the client send -/

namespace Client

/-- Everything but sending. -/
def Silent : Call → Prop
  | .sendAll _ => False
  | _ => True

section Only

variable {α : Type}

theorem silent_disconnect : Act.Only Silent disconnect := by
  refine Act.Only.bind Act.Only.get fun c => Act.Only.bind (Act.Only.modify _) fun _ => ?_
  refine Act.Only.ite ?_ (Act.Only.pure _)
  have hclose : Silent .close := trivial
  exact Act.Only.bind (Act.Only.call hclose) fun _ => Act.Only.modify _

theorem silent_abort (e : AfmError) : Act.Only Silent (abort e : Method α) :=
  Act.Only.bind silent_disconnect fun _ => Act.Only.throw e

theorem silent_recvFailed (e : SockError) : Act.Only Silent (recvFailed e : Method α) := by
  cases e with
  | timeout => exact silent_abort _
  | blocking => exact silent_abort _
  | other what => exact silent_abort _

theorem silent_drain (rounds : ℕ) : Act.Only Silent (drain rounds) := by
  have hrecv : Silent .recv := trivial
  induction rounds with
  | zero => exact Act.Only.throw _
  | succ rounds ih =>
      refine Act.Only.bind (Act.Only.call hrecv) fun reply => ?_
      cases reply with
      | ok data => exact Act.Only.ite (Act.Only.pure _) ih
      | error e => exact Act.Only.pure _

theorem silent_flushBuffer (rounds : ℕ) : Act.Only Silent (flushBuffer rounds) := by
  have hblocking : Silent .setBlocking := trivial
  have htimeout : Silent (.setTimeout none) := trivial
  refine Act.Only.bind (Act.Only.modify _) fun _ => Act.Only.bind Act.Only.get fun c =>
    Act.Only.ite ?_ (Act.Only.pure _)
  refine Act.Only.bind (Act.Only.call hblocking) fun reply => ?_
  cases reply with
  | ok u =>
      exact Act.Only.withDestructor (silent_drain rounds)
        (Act.Only.bind (Act.Only.call htimeout) fun _ => Act.Only.pure _)
  | error e => exact silent_abort _

theorem silent_requireSocket {m : Method α} (h : Act.Only Silent m) :
    Act.Only Silent (requireSocket m) := by
  intro c
  unfold requireSocket
  split
  · exact h c
  · exact Act.Only.throw (I := sock) _ c

theorem silent_withTimeout {m : Method α} (h : Act.Only Silent m) (timeout : Option ℚ) :
    Act.Only Silent (withTimeout timeout m) := by
  cases timeout with
  | none => exact h
  | some seconds =>
      have htimeout : ∀ t, Silent (.setTimeout t) := fun _ => trivial
      refine Act.Only.withDestructor (Act.Only.bind (Act.Only.call (htimeout _)) fun reply => ?_)
        (Act.Only.bind Act.Only.get fun c => Act.Only.ite
          (Act.Only.bind (Act.Only.call (htimeout _)) fun _ => Act.Only.pure _) (Act.Only.pure _))
      cases reply with
      | ok u => exact h
      | error e => exact silent_abort _

theorem silent_fillLine (rounds : ℕ) : Act.Only Silent (fillLine rounds) := by
  have hrecv : Silent .recv := trivial
  induction rounds with
  | zero =>
      intro c
      unfold fillLine
      split
      · exact Act.Only.pure (I := sock) _ c
      · exact silent_abort _ c
  | succ rounds ih =>
      intro c
      unfold fillLine
      split
      · exact Act.Only.pure (I := sock) _ c
      · refine Act.Only.bind (Act.Only.call hrecv) (fun reply => ?_) c
        cases reply with
        | error e => exact silent_recvFailed e
        | ok data =>
            exact Act.Only.ite (silent_abort _) (Act.Only.bind (Act.Only.modify _)
              fun _ => Act.Only.ite (silent_abort _) ih)

theorem silent_ofExcept (x : Except AfmError α) : Act.Only Silent (Act.ofExcept x : Method α) := by
  cases x with
  | ok a => exact Act.Only.pure a
  | error e => exact Act.Only.throw e

theorem silent_readLine (timeout : Option ℚ) : Act.Only Silent (readLine timeout) :=
  silent_requireSocket (silent_withTimeout (Act.Only.bind (silent_fillLine _) fun _ =>
    Act.Only.bind (Act.Only.modify _) fun _ => silent_ofExcept _) timeout)

theorem silent_fillExact (numBytes rounds : ℕ) : Act.Only Silent (fillExact numBytes rounds) := by
  have hrecv : Silent .recv := trivial
  induction rounds with
  | zero => exact Act.Only.pure _
  | succ rounds ih =>
      refine Act.Only.bind Act.Only.get fun c => Act.Only.ite ?_ (Act.Only.pure _)
      refine Act.Only.bind (Act.Only.call hrecv) fun reply => ?_
      cases reply with
      | error e => exact silent_recvFailed e
      | ok data =>
          exact Act.Only.ite (silent_abort _) (Act.Only.bind (Act.Only.modify _) fun _ => ih)

theorem silent_readExact (numBytes : ℤ) (timeout : Option ℚ) :
    Act.Only Silent (readExact numBytes timeout) :=
  Act.Only.ite (Act.Only.throw _) (silent_requireSocket (silent_withTimeout
    (Act.Only.bind (silent_fillExact _ _) fun _ => Act.Only.bind Act.Only.get fun _ =>
      Act.Only.bind (Act.Only.modify _) fun _ => Act.Only.pure _) timeout))

/-- **Readers send nothing.** -/
theorem silent_interpret (p : Prog reads (Except AfmError α × Unit)) :
    Act.Only Silent (interpret p) := by
  induction p with
  | done r => exact silent_ofExcept _
  | call c next ih =>
      cases c with
      | line timeout => exact Act.Only.bind (silent_readLine timeout) ih
      | exact numBytes timeout => exact Act.Only.bind (silent_readExact numBytes timeout) ih

theorem silent_run (reader : Reader α) : Act.Only Silent reader.run := silent_interpret _

end Only

/-! ### Refusals -/

/-- An error that is not the answer of the server to a command. -/
def NoRefusal (e : AfmError) : Prop := ∀ message, e ≠ .command message

theorem noRefusal_protocol (message : Text) : NoRefusal (.protocol message) := nofun

theorem noRefusal_connection (message : Text) : NoRefusal (.connection message) := nofun

section Refusals

variable {α : Type} {W : World sock}

theorem yields_disconnect : Yields W NoRefusal disconnect fun _ => True := by
  refine Yields.bind Yields.get fun c _ => Yields.bind (Yields.modify _) fun _ _ =>
    Yields.ite ?_ (Yields.pure trivial)
  exact Yields.bind (Q := fun _ => True) (Yields.call fun _ _ _ _ => trivial)
    fun _ _ => Yields.modify _

theorem yields_abort {e : AfmError} (h : NoRefusal e) :
    Yields W NoRefusal (abort e : Method α) fun _ => True :=
  Yields.bind yields_disconnect fun _ _ => Yields.throw h

theorem yields_recvFailed (e : SockError) :
    Yields W NoRefusal (recvFailed e : Method α) fun _ => True := by
  cases e with
  | timeout => exact yields_abort nofun
  | blocking => exact yields_abort nofun
  | other what => exact yields_abort nofun

theorem yields_callSock (c : Call) : Yields W NoRefusal (callSock c) fun _ => True :=
  Yields.call fun _ _ _ _ => trivial

theorem yields_requireSocket {m : Method α} (h : Yields W NoRefusal m fun _ => True) :
    Yields W NoRefusal (requireSocket m) fun _ => True := by
  intro c w _ r c' w' hrun
  unfold requireSocket at hrun
  split at hrun
  · exact h c w trivial r c' w' hrun
  · exact Yields.throw (Q := fun _ => True) (noRefusal_connection _) c w trivial r c' w' hrun

theorem yields_withTimeout {m : Method α} (h : Yields W NoRefusal m fun _ => True)
    (timeout : Option ℚ) : Yields W NoRefusal (withTimeout timeout m) fun _ => True := by
  cases timeout with
  | none => exact h
  | some seconds =>
      refine Yields.withDestructor (Yields.bind (yields_callSock _) fun reply _ => ?_)
        (Yields.bind Yields.get fun c _ => Yields.ite
          (Yields.bind (yields_callSock _) fun _ _ => Yields.pure trivial) (Yields.pure trivial))
      cases reply with
      | ok u => exact h
      | error e => exact yields_abort nofun

theorem yields_fillLine (rounds : ℕ) : Yields W NoRefusal (fillLine rounds) fun _ => True := by
  have hdone : ∀ p, Yields W NoRefusal (Act.pure p : Method (Text × Text)) fun _ => True :=
    fun p => Yields.pure trivial
  induction rounds with
  | zero =>
      intro c w _ r c' w' hrun
      unfold fillLine at hrun
      split at hrun
      · exact hdone _ c w trivial r c' w' hrun
      · exact yields_abort (noRefusal_protocol _) c w trivial r c' w' hrun
  | succ rounds ih =>
      intro c w _ r c' w' hrun
      unfold fillLine at hrun
      split at hrun
      · exact hdone _ c w trivial r c' w' hrun
      · refine Yields.bind (yields_callSock .recv) (fun reply _ => ?_) c w trivial r c' w' hrun
        cases reply with
        | error e => exact yields_recvFailed e
        | ok data =>
            exact Yields.ite (yields_abort nofun) (Yields.bind (Yields.modify _)
              fun _ _ => Yields.ite (yields_abort nofun) ih)

theorem yields_readLine (timeout : Option ℚ) :
    Yields W NoRefusal (readLine timeout) fun _ => True := by
  refine yields_requireSocket (yields_withTimeout (Yields.bind (yields_fillLine _) fun p _ =>
    Yields.bind (Yields.modify _) fun _ _ => ?_) timeout)
  unfold decodeLine
  split
  · exact Yields.pure trivial
  · exact Yields.throw (noRefusal_protocol _)

theorem yields_fillExact (numBytes rounds : ℕ) :
    Yields W NoRefusal (fillExact numBytes rounds) fun _ => True := by
  induction rounds with
  | zero => exact Yields.pure trivial
  | succ rounds ih =>
      refine Yields.bind Yields.get fun c _ => Yields.ite ?_ (Yields.pure trivial)
      refine Yields.bind (yields_callSock .recv) fun reply _ => ?_
      cases reply with
      | error e => exact yields_recvFailed e
      | ok data =>
          exact Yields.ite (yields_abort nofun) (Yields.bind (Yields.modify _) fun _ _ => ih)

theorem yields_readExact (numBytes : ℤ) (timeout : Option ℚ) :
    Yields W NoRefusal (readExact numBytes timeout) fun _ => True :=
  Yields.ite (Yields.throw (noRefusal_protocol _)) (yields_requireSocket (yields_withTimeout
    (Yields.bind (yields_fillExact _ _) fun _ _ => Yields.bind Yields.get fun _ _ =>
      Yields.bind (Yields.modify _) fun _ _ => Yields.pure trivial) timeout))

/-- A reader that raises what the server refused has kept the connection. -/
theorem interpret_refused {answers : Text → Text → Prop}
    {p : Prog reads (Except AfmError α × Unit)} {c c' : State} {w w' : Link} {message : Text}
    (hc : c.connected = true) (hroom : c.recvBuffer.length ≤ maxLineBytes)
    (h : Runs (link true answers) w (interpret p c) (.error (.command message), c') w') :
    c'.connected = true := by
  -- a primitive that returned has kept the connection, and it raises no refusal
  have hnext : ∀ {m : Method Text} {o : Text → Outcome Text} {f : Text → Method α},
      Follows true answers m o → Yields (link true answers) NoRefusal m (fun _ => True) →
      (∀ a c w, c.connected = true → c.recvBuffer.length ≤ maxLineBytes →
        Runs (link true answers) w (f a c) (.error (.command message), c') w' →
        c'.connected = true) →
      ∀ c w, c.connected = true → c.recvBuffer.length ≤ maxLineBytes →
        Runs (link true answers) w ((m >>= f) c) (.error (.command message), c') w' →
        c'.connected = true := by
    intro m o f hfollows hyields hf c w hc hroom h
    rcases Act.runs_bind.1 h with ⟨e, he, h₁⟩ | ⟨a, c₁, w₁, h₁, h₂⟩
    · cases he
      exact absurd rfl ((hyields c w trivial _ c' w' h₁).2 _ rfl message)
    · obtain ⟨-, -, hF⟩ := hfollows c w _ c₁ w₁ hc hroom (by simp) h₁
      have hc₁ : c₁.connected = true := by
        by_contra hlost
        obtain ⟨e, he⟩ := hF.error (by simpa using hlost)
        cases he
      exact hf a c₁ w₁ hc₁ (hF.room hc₁) h₂
  induction p generalizing c w with
  | done r =>
      obtain ⟨r, u⟩ := r
      cases r with
      | ok a =>
          obtain ⟨heq, -⟩ := runs_done.1 h
          cases heq
      | error e =>
          obtain ⟨heq, -⟩ := runs_done.1 h
          cases heq
          exact hc
  | call call next ih =>
      have hrest : ∀ a c w, c.connected = true → c.recvBuffer.length ≤ maxLineBytes →
          Runs (link true answers) w (interpret (next a) c) (.error (.command message), c') w' →
          c'.connected = true :=
        fun a c w hc hroom h => ih a hc hroom h
      cases call with
      | line timeout =>
          exact hnext (follows_readLine timeout) (yields_readLine timeout) hrest c w hc hroom h
      | exact numBytes timeout =>
          exact hnext (follows_readExact numBytes timeout) (yields_readExact numBytes timeout) hrest
            c w hc hroom h

end Refusals

/-! ### What readers make of a reply -/

/-- What a reader returns satisfies `P`, and what it raises satisfies `E`. -/
def Outcome.Meets {α : Type} (E : AfmError → Prop) (P : α → Prop) : Outcome α → Prop
  | .returned a _ => P a
  | .raised e _ => E e
  | .lost => True

/-- What an outcome gives, read backwards. -/
theorem Outcome.Gives.returned {α : Type} {o : Outcome α} {a : α} {rest : Text}
    (h : o.Gives (.ok a) rest) : o = .returned a rest := by
  cases o with
  | returned b s =>
      obtain ⟨hr, rfl⟩ := h
      cases hr
      rfl
  | raised e s => cases h.1
  | lost => exact h.elim

theorem Outcome.Gives.raised {α : Type} {o : Outcome α} {e : AfmError} {rest : Text}
    (h : o.Gives (.error e) rest) : o = .raised e rest := by
  cases o with
  | returned a s => cases h.1
  | raised e' s =>
      obtain ⟨hr, rfl⟩ := h
      cases hr
      rfl
  | lost => exact h.elim

section Meets

variable {α β : Type} {E : AfmError → Prop} {P : α → Prop} {Q : β → Prop}

theorem Outcome.Meets.bind {o : Outcome α} {f : α → Text → Outcome β} (ho : o.Meets E P)
    (hf : ∀ a rest, P a → (f a rest).Meets E Q) : (o.bind f).Meets E Q := by
  cases o with
  | returned a rest => exact hf a rest ho
  | raised e rest => exact ho
  | lost => trivial

theorem Outcome.Meets.mono {o : Outcome α} {P' : α → Prop} (ho : o.Meets E P)
    (h : ∀ a, P a → P' a) : o.Meets E P' := by
  cases o with
  | returned a rest => exact h a ho
  | raised e rest => exact ho
  | lost => trivial

/-- The rule for sequences of readers. -/
theorem meets_bind {m : Reader α} {f : α → Reader β} {s : Text} (hm : (m.on s).Meets E P)
    (hf : ∀ a rest, P a → ((f a).on rest).Meets E Q) : ((m >>= f).on s).Meets E Q := by
  rw [Reader.on_bind]
  exact hm.bind hf

/-- The first line of a text. -/
theorem meets_line {l : Text} (hl : '\n' ∉ l) (hE : ∀ message, E (.protocol message))
    {timeout : Option ℚ} {f : Text → Reader α} {s : Text}
    (hf : ((f (Py.rstripCr l)).on s).Meets E P) :
    ((Reader.line timeout >>= f).on (l ++ '\n' :: s)).Meets E P := by
  have hcut : cut isNewline (l ++ '\n' :: s) = some (l, s) :=
    cut_line_append isNewline (not_isNewline hl) rfl s
  rw [Reader.on_bind, Reader.on, Reader.line, Act.call_apply, consume_line, hcut]
  simp only
  by_cases hlong : maxLineBytes < l.length
  · rw [if_pos hlong]
    trivial
  · rw [if_neg hlong]
    unfold decodeLine
    by_cases ha : isAscii l = true
    · rw [if_pos ha]
      exact hf
    · rw [if_neg ha]
      exact hE _

/-- A line, wherever it comes from. -/
theorem meets_anyLine (timeout : Option ℚ) (s : Text) :
    ((Reader.line timeout).on s).Meets NoRefusal fun _ => True := by
  rw [Reader.on, Reader.line, Act.call_apply, consume_line]
  cases cut isNewline s with
  | none => trivial
  | some p =>
      obtain ⟨l, rest⟩ := p
      dsimp only
      split
      · trivial
      · unfold decodeLine
        by_cases ha : isAscii l = true
        · rw [if_pos ha]
          trivial
        · rw [if_neg ha]
          exact noRefusal_protocol _

theorem meets_exact (numBytes : ℤ) (timeout : Option ℚ) (s : Text) :
    ((Reader.exact numBytes timeout).on s).Meets NoRefusal fun _ => True := by
  rw [Reader.on, Reader.exact, Act.call_apply, consume_exact]
  split
  · exact noRefusal_protocol _
  · split
    · trivial
    · trivial

theorem meets_ofExcept {x : Except AfmError α} (h : ∀ e, x = .error e → NoRefusal e) (s : Text) :
    (Reader.on (Act.ofExcept x : Reader α) s).Meets NoRefusal fun _ => True := by
  cases x with
  | ok a => trivial
  | error e => exact h e rfl

theorem meets_readLines (timeout : Option ℚ) (count : ℕ) (s : Text) :
    ((readLines timeout count).on s).Meets NoRefusal fun _ => True := by
  induction count generalizing s with
  | zero => trivial
  | succ count ih =>
      refine meets_bind (meets_anyLine timeout s) fun l rest _ => ?_
      exact meets_bind (ih rest) fun _ _ _ => trivial

theorem meets_readAnnounced (group : Text) (timeout : Option ℚ) (s : Text) :
    ((readAnnounced group timeout).on s).Meets NoRefusal fun _ => True := by
  unfold readAnnounced
  cases Py.digits group with
  | none =>
      have hvalue : NoRefusal .value := nofun
      exact hvalue
  | some count =>
      dsimp only
      unfold readTextBlock
      split
      · exact noRefusal_protocol _
      · exact meets_bind (meets_readLines timeout count s) fun _ _ _ => trivial

theorem noRefusal_parseSpectrumHeader {header : Text} :
    ∀ e, parseSpectrumHeader header = .error e → NoRefusal e := by
  have hcheck : ∀ rows bytes e, parseSpectrumHeader.check rows bytes = .error e → NoRefusal e := by
    intro rows bytes e h
    unfold parseSpectrumHeader.check at h
    split at h
    · cases h
      exact noRefusal_protocol _
    · split at h
      · cases h
      · split at h
        · cases h
          exact noRefusal_protocol _
        · cases h
  intro e h
  unfold parseSpectrumHeader at h
  dsimp only at h
  split at h
  · cases h
    exact noRefusal_protocol _
  · split at h
    · exact hcheck _ _ e h
    · exact hcheck _ _ e h
    · cases h
      exact noRefusal_protocol _

theorem noRefusal_parseSpectrumRow {F : Type} {float : Text → Option F} {l : Text} {index : ℕ} :
    ∀ e, parseSpectrumRow float l index = .error e → NoRefusal e := by
  intro e h
  unfold parseSpectrumRow at h
  split at h
  · split at h
    · cases h
    · cases h
      exact noRefusal_protocol _
  · cases h
    exact noRefusal_protocol _

theorem noRefusal_bind {x : Except AfmError α} {f : α → Except AfmError β}
    (hx : ∀ e, x = .error e → NoRefusal e) (hf : ∀ a e, f a = .error e → NoRefusal e) :
    ∀ e, (x >>= f) = .error e → NoRefusal e := by
  intro e h
  cases x with
  | ok a => exact hf a e h
  | error e' =>
      cases h
      exact hx _ rfl

theorem noRefusal_ok {a : α} : ∀ e, (pure a : Except AfmError α) = .error e → NoRefusal e := by
  intro e h
  cases h

theorem noRefusal_parseSpectrumRows {F : Type} {float : Text → Option F} {index : ℕ}
    {ls : List Text} : ∀ e, parseSpectrumRows float index ls = .error e → NoRefusal e := by
  induction ls generalizing index with
  | nil => exact noRefusal_ok
  | cons l ls ih =>
      exact noRefusal_bind noRefusal_parseSpectrumRow fun row => noRefusal_bind ih fun rows =>
        noRefusal_ok

theorem noRefusal_parseSpectrumPayload {F : Type} {float : Text → Option F} {payload : Text}
    {numRows : ℤ} : ∀ e, parseSpectrumPayload float payload numRows = .error e → NoRefusal e := by
  intro e h
  unfold parseSpectrumPayload at h
  generalize payload.splitOn '\n' = lines at h
  dsimp only at h
  generalize (if lines.getLast? = some [] then lines.dropLast else lines) = ls at h
  split at h
  · cases h
    exact noRefusal_protocol _
  · cases hrows : parseSpectrumRows float 0 ls with
    | ok rows =>
        rw [hrows] at h
        cases h
    | error e' =>
        rw [hrows] at h
        cases h
        exact noRefusal_parseSpectrumRows _ hrows

theorem meets_readSpectrumRows {F : Type} (float : Text → Option F) (timeout : Option ℚ)
    (index count : ℕ) (s : Text) :
    ((readSpectrumRows float timeout index count).on s).Meets NoRefusal fun _ => True := by
  induction count generalizing index s with
  | zero => trivial
  | succ count ih =>
      refine meets_bind (meets_anyLine timeout s) fun l rest _ => ?_
      refine meets_bind (meets_ofExcept noRefusal_parseSpectrumRow rest) fun row rest' _ => ?_
      exact meets_bind (ih _ rest') fun _ _ _ => trivial

theorem meets_discardSpectrumPayload (data s : Text) :
    ((discardSpectrumPayload data).on s).Meets NoRefusal fun _ => True := by
  refine meets_bind (meets_ofExcept noRefusal_parseSpectrumHeader s) fun p rest _ => ?_
  obtain ⟨rows, bytes⟩ := p
  cases bytes with
  | some n => exact meets_bind (meets_exact n none rest) fun _ _ _ => trivial
  | none => exact meets_bind (meets_readLines none _ rest) fun _ _ _ => trivial

/-- The first line of a reply that is no error. -/
def IsOk (header : Text) : Prop := header = "OK".toList ∨ "OK ".toList <+: header

theorem IsOk.notErr {header : Text} (h : IsOk header) : ¬"ERR".toList.isPrefixOf header = true := by
  rcases h with rfl | ⟨data, rfl⟩
  · decide
  · simp [List.isPrefixOf]

/-- Stripping carriage returns leaves the beginning. -/
theorem prefix_rstripCr {s : Text} (hs : s.getLast? ≠ some '\r') (t : Text) :
    s <+: Py.rstripCr (s ++ t) := by
  induction t using List.reverseRecOn with
  | nil => rw [List.append_nil, Py.rstripCr_eq_self hs]
  | append_singleton t c ih =>
      by_cases hc : c = '\r'
      · have hdrop : Py.rstripCr (s ++ (t ++ [c])) = Py.rstripCr (s ++ t) := by
          simp [Py.rstripCr, hc]
        rw [hdrop]
        exact ih
      · rw [Py.rstripCr_eq_self (by simp [hc])]
        exact ⟨t ++ [c], rfl⟩

theorem IsOk.rstripCr {header : Text} (h : IsOk header) : IsOk (Py.rstripCr header) := by
  rcases h with rfl | ⟨data, rfl⟩
  · exact Or.inl (by decide)
  · exact Or.inr (prefix_rstripCr (by decide) data)

theorem isOk_iff {header : Text} :
    header = "OK".toList ∨ "OK ".toList.isPrefixOf header = true ↔ IsOk header :=
  or_congr_right List.isPrefixOf_iff_prefix

theorem meets_executeLine {header : Text} (h : IsOk header) (s : Text) :
    ((executeLine header).on s).Meets NoRefusal fun p => p.1 = true := by
  unfold executeLine
  rw [if_pos (isOk_iff.2 h)]
  generalize (if 3 < header.length then header.drop 3 else []) = data
  dsimp only
  split
  · refine meets_bind (meets_discardSpectrumPayload _ s) fun _ _ _ => ?_
    exact noRefusal_protocol _
  · split
    · exact meets_bind (meets_readAnnounced _ none s) fun _ _ _ => rfl
    · exact rfl

/-- `_execute` does not raise what a server refuses, it returns it. -/
theorem meets_executeReply (s : Text) :
    (executeReply.on s).Meets NoRefusal fun _ => True := by
  refine meets_bind (meets_anyLine none s) fun header rest _ => ?_
  by_cases h : IsOk header
  · exact (meets_executeLine h rest).mono fun _ _ => trivial
  · unfold executeLine
    rw [if_neg fun hok => h (isOk_iff.1 hok)]
    split
    · trivial
    · trivial

theorem meets_spectrumLine {F : Type} (float : Text → Option F) (timeout : Option ℚ) {header : Text}
    (h : IsOk header) (s : Text) :
    ((spectrumLine float timeout header).on s).Meets NoRefusal fun _ => True := by
  unfold spectrumLine
  rw [if_neg h.notErr]
  split
  · exact noRefusal_protocol _
  · refine meets_bind (meets_ofExcept noRefusal_parseSpectrumHeader s) fun p rest _ => ?_
    obtain ⟨rows, bytes⟩ := p
    cases bytes with
    | some n =>
        refine meets_bind (meets_exact n timeout rest) fun payload rest' _ => ?_
        split
        · exact meets_ofExcept noRefusal_parseSpectrumPayload rest'
        · exact noRefusal_protocol _
    | none =>
        exact meets_bind (meets_readSpectrumRows float timeout 0 _ rest) fun _ _ _ => trivial

/-- The first line of a reply that is no error. -/
theorem render_isOk {command : Command} {reply : Reply} (h : Suits command reply)
    (hne : ∀ status message, reply ≠ .error status message) :
    ∃ l s, '\n' ∉ l ∧ IsOk l ∧ reply.render = l ++ '\n' :: s := by
  cases reply with
  | ok data =>
      by_cases hd : data = []
      · exact ⟨"OK".toList, [], by decide, Or.inl rfl, by simp [Reply.render, buildOkResponse, hd]⟩
      · refine ⟨"OK ".toList ++ data, [], newline_not_mem_append (by decide) h.2,
          Or.inr ⟨data, rfl⟩, ?_⟩
        simp [Reply.render, buildOkResponse, hd]
  | error status message => exact absurd rfl (hne status message)
  | text body =>
      exact ⟨_, _, (lineText_linesHeader _).oneLine, Or.inr ⟨_, rfl⟩, buildTextResponse_eq body⟩
  | spectrum points =>
      exact ⟨_, _, (lineText_spectrumHeader _ _).oneLine, Or.inr ⟨_, rfl⟩,
        buildSpectrumResponse_eq _ points⟩

/-- `_execute` returns a failure for an error reply only. -/
theorem executeReply_refused {command : Command} {reply : Reply} {message rest : Text}
    (h : Suits command reply)
    (hon : executeReply.on reply.render = .returned (false, message) rest) :
    ∃ status text, reply = .error status text := by
  by_contra hne
  push Not at hne
  obtain ⟨l, s, hl, hok, heq⟩ := render_isOk h hne
  have hmeets : (executeReply.on reply.render).Meets NoRefusal fun p => p.1 = true := by
    rw [heq]
    exact meets_line hl noRefusal_protocol (meets_executeLine hok.rstripCr s)
  rw [hon] at hmeets
  cases hmeets

theorem spectrumReply_refused {F : Type} {float : Text → Option F} {timeout : Option ℚ}
    {command : Command} {reply : Reply} {message rest : Text} (h : Suits command reply)
    (hon : (spectrumReply float timeout).on reply.render = .raised (.command message) rest) :
    ∃ status text, reply = .error status text := by
  by_contra hne
  push Not at hne
  obtain ⟨l, s, hl, hok, heq⟩ := render_isOk h hne
  have hmeets : ((spectrumReply float timeout).on reply.render).Meets NoRefusal fun _ => True := by
    rw [heq]
    exact meets_line hl noRefusal_protocol (meets_spectrumLine float timeout hok.rstripCr s)
  rw [hon] at hmeets
  exact hmeets message rfl

theorem boardStatusReply_refused {timeout : Option ℚ} {reply : Reply} {message rest : Text}
    (h : Suits .boardStatus reply)
    (hon : (boardStatusReply timeout).on reply.render = .raised (.command message) rest) :
    ∃ status text, reply = .error status text := by
  cases reply with
  | ok data => exact absurd rfl h.1
  | error status text => exact ⟨status, text, rfl⟩
  | text body =>
      have hheader := lineText_linesHeader (textLines body).length
      have hmeets : ((boardStatusReply timeout).on (Reply.text body).render).Meets NoRefusal
          fun _ => True := by
        rw [Reply.render, buildTextResponse_eq]
        refine meets_line hheader.oneLine noRefusal_protocol ?_
        rw [Py.rstripCr_eq_self hheader.noCr, boardStatusLine_linesHeader]
        exact meets_readAnnounced _ timeout _
      rw [hon] at hmeets
      exact absurd rfl (hmeets message)
  | spectrum points =>
      rcases h.1 with hc | hc
      · cases hc
      · cases hc

end Meets

end Client

/-! ### The server behind the connection -/

/-- The command handler with its devices. -/
structure RemoteServer (W : World server) where
  handler : CommandHandler
  devices : W.State

/-- The reply to a command: `_handleClient` makes an error reply of an exception. -/
def replyOf : Except Fault Reply → Option Reply
  | .ok reply => some reply
  | .error (.thrown what) => some (.error .errUnknown ("Internal error: ".toList ++ what))
  | .error _ => none

section Site

variable {W : World server} {P : Platform} {F : Type} {float : Text → Option F} {α : Type}

/-- The server carries out a line and has this reply to it. -/
def RemoteServer.Carries (P : Platform) (line : Text) (s : RemoteServer W) (reply : Reply)
    (s' : RemoteServer W) : Prop :=
  ∃ r, Runs W s.devices (CommandHandler.handleCommand P (parseLine line) s.handler) (r, s'.handler)
    s'.devices ∧ replyOf r = some reply

/-- A connection and the server behind it. -/
structure Site (W : World server) where
  link : Link
  server : RemoteServer W

/-- What may happen on the connection.  The server serves its connections one after the other, so a
line is carried out before every line that is sent after it; here it is when it is sent.  A line may
arrive although `sendall` raised, and it may be lost although `sendall` returned. -/
inductive SiteStep (P : Platform) : Site W → (c : Client.Call) → sock.Reply c → Site W → Prop
  | quiet (w : Site W) {c : Client.Call} {r : sock.Reply c} {link : Link}
      (h : LinkStep true (fun _ _ => False) w.link c r link) :
      SiteStep P w c r { w with link := link }
  | lost (w : Site W) (line : Text) :
      SiteStep P w (.sendAll (line ++ ['\n'])) (.ok ()) { w with link := w.link.answer [] }
  | arrived (w : Site W) (line : Text) (r : Except SockError Unit) (reply : Reply)
      (server : RemoteServer W) (hne : line ≠ []) (hline : '\n' ∉ line)
      (hcommand : (parseLine line).command ≠ .systShutdown)
      (h : w.server.Carries P line reply server) (hfits : reply.Fits) :
      SiteStep P w (.sendAll (line ++ ['\n'])) r ⟨w.link.answer reply.render, server⟩

/-- The connection with the server behind it, as an environment of the client. -/
abbrev site (P : Platform) (W : World server) : World sock := ⟨Site W, SiteStep P⟩

/-- A connection without answers is one with answers of which there are none. -/
theorem linkStep_mono {faults : Bool} {answers answers' : Text → Text → Prop} {w w' : Link}
    {c : Client.Call} {r : sock.Reply c}
    (hanswers : ∀ line reply, answers line reply → answers' line reply)
    (h : LinkStep faults answers w c r w') : LinkStep faults answers' w c r w' := by
  cases h with
  | setBlocking => exact .setBlocking w
  | setBlockingFailed e hf => exact .setBlockingFailed _ e hf
  | setTimeout seconds => exact .setTimeout w seconds
  | setTimeoutFailed seconds e hf => exact .setTimeoutFailed _ seconds e hf
  | recv data rest hne hle hs => exact .recv w data rest hne hle hs
  | recvFailed e he => exact .recvFailed _ e he
  | recvClosed hf => exact .recvClosed _ hf
  | sendAll command reply hne ha => exact .sendAll w command reply hne (hanswers _ _ ha)
  | sendEmpty => exact .sendEmpty w
  | sendUnterminated message hlast => exact .sendUnterminated _ message hlast
  | sendFailed message e hf => exact .sendFailed _ message e hf
  | sendFailedLate command reply e hf ha =>
      exact .sendFailedLate w command reply e hf (hanswers _ _ ha)
  | close => exact .close _

/-- What sends nothing is what it is on the connection alone, and leaves the server as it was. -/
theorem site_silent {p : Prog sock α} (hp : p.Only Silent) {w w' : Site W} {a : α}
    (h : Runs (site P W) w p a w') (answers : Text → Text → Prop) :
    Runs (link true answers) w.link p a w'.link ∧ w'.server = w.server := by
  constructor
  · have hsim : ∃ v, Runs (link true answers) w.link p a v ∧ v = w'.link := by
      refine h.simulates_of_only (V := link true answers)
        (R := fun (w : Site W) (v : Link) => v = w.link) hp (fun hc hv hstep => ?_) rfl
      subst hv
      cases hstep with
      | quiet hlink => exact ⟨_, linkStep_mono (fun _ _ hf => hf.elim) hlink, rfl⟩
      | lost line => exact hc.elim
      | arrived line r reply server => exact hc.elim
    obtain ⟨v, hruns, rfl⟩ := hsim
    exact hruns
  · refine h.invariant_of_only (P := fun (v : Site W) => v.server = w.server) hp
      (fun hc hv hstep => ?_) rfl
    cases hstep with
    | quiet hlink => exact hv
    | lost line => exact hc.elim
    | arrived line r reply server => exact hc.elim

/-! ### A call that sends a line -/

/-- How a call that sends a line has ended: it has raised and the server has seen nothing of it, or
the server has carried it out, once, and the call has read the reply or lost the connection. -/
inductive Asked (P : Platform) (line : Text) (reader : Reader α) (w : Site W)
    (r : Except AfmError α) (c' : State) (w' : Site W) : Prop
  | unsent (e : AfmError) (hr : r = .error e) (hserver : w'.server = w.server)
      (hs : c'.connected = true → w'.link.stream = [])
  | carried (reply : Reply) (hne : line ≠ []) (hline : '\n' ∉ line)
      (h : w.server.Carries P line reply w'.server) (hfits : reply.Fits)
      (hgives : c'.connected = true → (reader.on reply.render).Gives r (ahead c' w'.link))
      (hlost : c'.connected = false → ∃ e, r = .error e ∧ NoRefusal e)

/-- What may become of a line that is handed to `sendall`. -/
theorem siteStep_sendAll {message line : Text} {w w' : Site W} {r : Except SockError Unit}
    (h : SiteStep P w (.sendAll message) r w') (heq : message = line ++ ['\n']) :
    (w'.server = w.server ∧ ∃ e, r = .error e) ∨
      (w'.server = w.server ∧ r = .ok () ∧ w'.link.stream = w.link.stream) ∨
      ∃ reply, line ≠ [] ∧ '\n' ∉ line ∧ w.server.Carries P line reply w'.server ∧ reply.Fits ∧
        w'.link = w.link.answer reply.render := by
  cases h with
  | quiet hlink =>
      cases hlink with
      | sendAll command reply hne ha => exact ha.elim
      | sendEmpty => exact Or.inr (Or.inl ⟨rfl, rfl, rfl⟩)
      | sendUnterminated _ hlast => simp [heq] at hlast
      | sendFailed _ e hf => exact Or.inl ⟨rfl, e, rfl⟩
      | sendFailedLate command reply e hf ha => exact ha.elim
  | lost line' =>
      exact Or.inr (Or.inl ⟨rfl, rfl, by simp [Link.answer]⟩)
  | arrived line' r reply server hne hline hcommand h hfits =>
      obtain rfl := List.append_cancel_right heq
      exact Or.inr (Or.inr ⟨reply, hne, hline, h, hfits, rfl⟩)

/-- `_send` on a connection with nothing on the way. -/
theorem send_site {line : Text} {c c' : State} {w w' : Site W} {r : Except AfmError Unit}
    (hc : c.connected = true) (hs : w.link.stream = [])
    (h : Runs (site P W) w (send line c) (r, c') w') :
    ((∃ e, r = .error e) ∧ w'.server = w.server ∧ (c'.connected = true → w'.link.stream = [])) ∨
      (r = .ok () ∧ c' = c ∧ w'.server = w.server ∧ w'.link.stream = []) ∨
      ∃ reply, line ≠ [] ∧ '\n' ∉ line ∧ w.server.Carries P line reply w'.server ∧ reply.Fits ∧
        ((r = .ok () ∧ c' = c ∧ w'.link.stream = reply.render) ∨
          (c'.connected = false ∧ ∃ e, r = .error e ∧ NoRefusal e)) := by
  -- an error of `sendall` closes the connection, whether or not the line has arrived
  have habort : ∀ {message : Text} {w₁ : Site W},
      Runs (site P W) w₁ ((abort (.connection message) : Client.Method Unit) c) (r, c') w' →
        w'.server = w₁.server ∧ c'.connected = false ∧ r = .error (.connection message) := by
    intro message w₁ h
    obtain ⟨hlink, hserver⟩ := site_silent (silent_abort _ c) h fun _ _ => True
    obtain ⟨-, hc', hr⟩ := runs_abort hc hlink
    exact ⟨hserver, hc', hr⟩
  simp only [send, Act.bind_apply, Act.get_apply, Prog.bind_done, hc, Bool.not_true,
    Bool.false_eq_true, if_false] at h
  split at h
  · obtain ⟨⟨⟩, rfl⟩ := runs_done.1 h
    exact Or.inl ⟨⟨_, rfl⟩, rfl, fun _ => hs⟩
  split at h
  · obtain ⟨⟨⟩, rfl⟩ := runs_done.1 h
    exact Or.inl ⟨⟨_, rfl⟩, rfl, fun _ => hs⟩
  simp only [Act.bind_apply, Act.call_apply, Prog.bind_call, Prog.bind_done, runs_call] at h
  obtain ⟨result, w₁, hstep, h⟩ := h
  rcases siteStep_sendAll hstep rfl with ⟨hserver, e, rfl⟩ | ⟨hserver, rfl, hstream⟩ |
    ⟨reply, hne, hline, hcarries, hfits, hlink⟩
  · obtain ⟨hsame, hc', rfl⟩ := habort h
    exact Or.inl ⟨⟨_, rfl⟩, hsame.trans hserver, by simp [hc']⟩
  · obtain ⟨⟨⟩, rfl⟩ := runs_done.1 h
    exact Or.inr (Or.inl ⟨rfl, rfl, hserver, hstream.trans hs⟩)
  · refine Or.inr (Or.inr ⟨reply, hne, hline, ?_⟩)
    cases result with
    | ok u =>
        obtain ⟨⟨⟩, rfl⟩ := runs_done.1 h
        exact ⟨hcarries, hfits, Or.inl ⟨rfl, rfl, by simp [hlink, Link.answer, hs]⟩⟩
    | error e =>
        obtain ⟨hsame, hc', rfl⟩ := habort h
        rw [hsame]
        exact ⟨hcarries, hfits, Or.inr ⟨hc', _, rfl, noRefusal_connection _⟩⟩

/-- A call on a closed connection sends nothing. -/
theorem query_site_disconnected {rounds : ℕ} {line : Text} {reader : Reader α} {c c' : State}
    {w w' : Site W} {r : Except AfmError α} (hc : c.connected = false)
    (h : Runs (site P W) w ((do
      flushBuffer rounds
      send line
      reader.run : Client.Method α) c) (r, c') w') : Asked P line reader w r c' w' := by
  simp only [flushBuffer, send, Act.bind_apply, Act.get_apply, Act.modify_apply, Prog.bind_done, hc,
    Bool.false_eq_true, if_false, Act.pure_apply, Bool.not_false, if_true, Act.throw_apply] at h
  obtain ⟨⟨⟩, rfl⟩ := runs_done.1 h
  exact .unsent _ rfl rfl (by simp)

/-- **A line that is sent is carried out at most once**, and what the call does with the reply, it
does with the reply to its own line, when nothing was on the way. -/
theorem query_site {rounds : ℕ} {line : Text} {reader : Reader α} {c c' : State} {w w' : Site W}
    {r : Except AfmError α} (hinv : c.connected = true → w.link.stream = [])
    (hnil : reader.on [] = .lost)
    (h : Runs (site P W) w ((do
      flushBuffer rounds
      send line
      reader.run : Client.Method α) c) (r, c') w') : Asked P line reader w r c' w' := by
  cases hc : c.connected with
  | false => exact query_site_disconnected hc h
  | true =>
      simp only [Act.bind_apply, runs_bind] at h
      obtain ⟨⟨x, c₁⟩, w₁, h₁, h₂⟩ := h
      obtain ⟨hflush, hserver₁⟩ := site_silent (silent_flushBuffer rounds c) h₁ fun _ _ => True
      obtain ⟨hs₁, -, -, ⟨rfl, rfl, -⟩ | ⟨e, rfl, -⟩⟩ := flushBuffer_runs hc (hinv hc) hflush
      swap
      · obtain ⟨⟨⟩, rfl⟩ := runs_done.1 h₂
        exact .unsent e rfl hserver₁ fun _ => hs₁
      simp only [runs_bind] at h₂
      obtain ⟨⟨y, c₂⟩, w₂, h₂, h₃⟩ := h₂
      -- the reader sees the bytes on the way, and those are the reply, if there is one
      have hread : ∀ {text : Text}, y = .ok () → c₂ = { c with recvBuffer := [] } →
          w₂.link.stream = text → w'.server = w₂.server ∧
            Followed true text (reader.on text) r c' w'.link ∧
            (c'.connected = false → ∃ e, r = .error e ∧ NoRefusal e) := by
        intro text hy hc₂ hstream
        subst hy hc₂
        obtain ⟨hlink, hserver⟩ := site_silent (silent_run reader _) h₃ fun _ _ => True
        obtain ⟨-, -, hF⟩ := follows_run reader { c with recvBuffer := [] } w₂.link _ _ _ hc
          (Nat.zero_le _) (by simp) hlink
        have hahead : ahead { c with recvBuffer := [] } w₂.link = text := by
          simp [ahead, hstream]
        rw [hahead] at hF
        refine ⟨hserver, hF, fun hc' => ?_⟩
        obtain ⟨e, rfl⟩ := hF.error hc'
        refine ⟨e, rfl, fun message he => ?_⟩
        subst he
        rw [interpret_refused (c := { c with recvBuffer := [] }) hc (Nat.zero_le _) hlink] at hc'
        cases hc'
      rcases send_site (c := { c with recvBuffer := [] }) hc hs₁ h₂ with
        ⟨⟨e, rfl⟩, hserver, hs⟩ | ⟨rfl, hc₂, hserver, hs⟩ |
          ⟨reply, hne, hline, hcarries, hfits, ⟨rfl, hc₂, hs⟩ | ⟨hc₂, e, rfl, he⟩⟩
      · obtain ⟨⟨⟩, rfl⟩ := runs_done.1 h₃
        exact .unsent e rfl (hserver.trans hserver₁) hs
      · obtain ⟨hsame, hF, -⟩ := hread rfl hc₂ hs
        -- the reader waits for a reply that does not come
        have hc' : c'.connected = false := by
          by_contra hc'
          have hg := hF.gives (by simpa using hc')
          rw [hnil] at hg
          exact hg
        obtain ⟨e, rfl⟩ := hF.error hc'
        exact .unsent e rfl (hsame.trans (hserver.trans hserver₁)) (by simp [hc'])
      · obtain ⟨hsame, hF, hlost⟩ := hread rfl hc₂ hs
        rw [hserver₁] at hcarries
        rw [← hsame] at hcarries
        exact .carried reply hne hline hcarries hfits hF.gives hlost
      · obtain ⟨⟨⟩, rfl⟩ := runs_done.1 h₃
        rw [hserver₁] at hcarries
        exact .carried reply hne hline hcarries hfits (by simp [hc₂]) fun _ => ⟨e, rfl, he⟩

/-! ### Calls -/

/-- The result of a call is that of its method, wrapped. -/
theorem runs_wrapped {V : World sock} {m : Client.Method α} {wrap : α → Value F} {c c' : State}
    {w w' : V.State} {r : Except AfmError (Value F)} (h : Runs V w ((do
      let data ← m
      pure (wrap data) : Client.Method (Value F)) c) (r, c') w') :
    ∃ x, Runs V w (m c) (x, c') w' ∧ r = x.map wrap := by
  obtain ⟨x, h₁, rfl⟩ := runs_bind_ofExcept (f := fun a => .ok (wrap a)) h
  refine ⟨x, h₁, ?_⟩
  cases x <;> rfl

/-- What `send_command` makes of what `_execute` returns. -/
def raiseFailure (p : Bool × Text) : Except AfmError Text :=
  if p.1 then .ok p.2 else .error (.command p.2)

theorem runs_sendCommand {V : World sock} {rounds : ℕ} {command : Text} {c c' : State}
    {w w' : V.State} {r : Except AfmError Text}
    (h : Runs V w (sendCommand rounds command c) (r, c') w') :
    ∃ x, Runs V w (execute rounds command c) (x, c') w' ∧ r = x.bind raiseFailure := by
  have hshape : sendCommand rounds command = execute rounds command >>= fun p =>
      Act.ofExcept (raiseFailure p) := by
    unfold sendCommand
    congr
    funext p
    obtain ⟨success, data⟩ := p
    cases success <;> rfl
  rw [hshape] at h
  exact runs_bind_ofExcept h

/-- The line of an error reply starts with `ERR`. -/
theorem err_prefix_errorLine {status : ResponseStatus} (hs : status ≠ .ok) (message : Text) :
    "ERR".toList.isPrefixOf (Py.rstripCr (errorLine status message)) = true := by
  have hstatus : ∃ rest, statusToString status = "ERR".toList ++ rest := by
    cases status with
    | ok => exact absurd rfl hs
    | _ => exact ⟨_, rfl⟩
  obtain ⟨rest, hrest⟩ := hstatus
  rw [errorLine, hrest, List.append_assoc]
  exact List.isPrefixOf_iff_prefix.2 (prefix_rstripCr (by decide) _)

/-- No reader returns data of an error reply. -/
theorem error_not_returned {command : Command} {status : ResponseStatus} {message : Text}
    (h : Suits command (.error status message)) (float : Text → Option F) (timeout : Option ℚ) :
    (executeReply.on (Reply.error status message).render).Meets (fun _ => True)
        (fun p => p.1 = false) ∧
      ((boardStatusReply timeout).on (Reply.error status message).render).Meets (fun _ => True)
        (fun _ => False) ∧
      ((spectrumReply float timeout).on (Reply.error status message).render).Meets (fun _ => True)
        fun _ => False := by
  have hl : '\n' ∉ errorLine status message := by
    unfold errorLine
    refine newline_not_mem_append (by cases status <;> decide) ?_
    split
    · exact List.not_mem_nil
    · exact newline_not_mem_append (by decide) h.2
  have herr := err_prefix_errorLine h.1 message
  rw [Reply.render, buildErrorResponse_eq]
  refine ⟨meets_line hl (fun _ => trivial) ?_, meets_line hl (fun _ => trivial) ?_,
    meets_line hl (fun _ => trivial) ?_⟩
  · have hnot : ¬IsOk (Py.rstripCr (errorLine status message)) := fun hok => hok.notErr herr
    unfold executeLine
    rw [if_neg fun hok => hnot (isOk_iff.1 hok), if_pos herr]
    rfl
  · unfold boardStatusLine
    rw [if_pos herr]
    trivial
  · unfold spectrumLine
    rw [if_pos herr]
    trivial

/-- A reply suits the line that it answers. -/
theorem RemoteServer.Carries.suits (hW : CommandHandler.Tidy W) {line : Text} {reply : Reply}
    {s s' : RemoteServer W} (h : s.Carries P line reply s') (hline : '\n' ∉ line) :
    Suits (parseLine line).command reply := by
  obtain ⟨r, hruns, hreply⟩ := h
  have hraw : '\n' ∉ (parseLine line).rawLine := hline
  have hanswers := CommandHandler.answers_handleCommand hW hraw s.handler s.devices trivial r
    s'.handler s'.devices hruns
  cases r with
  | ok answer =>
      cases hreply
      exact hanswers.1 _ rfl
  | error e =>
      cases e with
      | thrown what =>
          cases hreply
          exact ⟨by decide, newline_not_mem_append (by decide) (hanswers.2 _ rfl what rfl)⟩
      | nullPointer => cases hreply
      | misuse m => cases hreply
      | running => cases hreply

/-- How a call has ended, and what became of it at the server. -/
inductive Ended (P : Platform) (float : Text → Option F) (call : ClientCall)
    (r : Except AfmError (Value F)) (s : RemoteServer W) : RemoteServer W → Prop
  | skipped (hr : call.line = none ∨ ∃ e, r = .error e) : Ended P float call r s s
  | carried (line : Text) (reply : Reply) (s' : RemoteServer W) (hline : call.line = some line)
      (h : s.Carries P line reply s')
      (hreturned : ∀ v, r = .ok v → Takes float call reply.render v ∧
        ∀ status text, reply ≠ .error status text)
      (hrefused : ∀ message, r = .error (.command message) →
        ∃ status text, reply = .error status text) : Ended P float call r s s'

/-- A call that is not to stop the server. -/
structure Client.ClientCall.Ordinary (call : ClientCall) : Prop where
  proper : call.Proper
  running : ∀ line, call.line = some line → (parseLine line).command ≠ .systShutdown

theorem parseLine_shutdown : (parseLine "SYSTEM:SHUTDOWN".toList).command = .systShutdown := by
  decide

/-- What a call has read, in terms of what its reader takes from the reply. -/
theorem Asked.ended {call : ClientCall} {line : Text} {reader : Reader α} {w w' : Site W}
    {x : Except AfmError α} {c' : State} (hW : CommandHandler.Tidy W)
    (hcall : call.Proper) (hline : call.line = some line)
    (h : Asked P line reader w x c' w') {r : Except AfmError (Value F)}
    (herror : ∀ e, x = .error e → r = .error e)
    (hleaves : ∀ reply, ServerReply reply → Readable call reply →
      (reader.on reply.render).Leaves (· = []))
    (hreturned : ∀ (reply : Reply) rest a v, x = .ok a → r = .ok v →
      reader.on reply.render = .returned a rest → Takes float call reply.render v)
    (hanswered : ∀ (reply : Reply) rest a v, Suits (parseLine line).command reply → x = .ok a →
      r = .ok v → reader.on reply.render = .returned a rest →
        ∀ status text, reply ≠ .error status text)
    (hrefused : ∀ reply rest message, Suits (parseLine line).command reply →
      r = .error (.command message) → (reader.on reply.render).Gives x rest →
      ∃ status text, reply = .error status text) :
    Ended P float call r w.server w'.server ∧ (c'.connected = true → w'.link.stream = []) := by
  cases h with
  | unsent e hx hserver hs =>
      rw [hserver]
      exact ⟨.skipped (Or.inr ⟨e, herror e hx⟩), hs⟩
  | carried reply hne hnl h hfits hgives hlost =>
      have hsuits := h.suits hW hnl
      have hread := hleaves reply hsuits.serverReply (hsuits.readable hline hcall hfits)
      -- a call that lost the connection has neither returned nor reported a refusal
      have hconnected : (∃ v, r = .ok v) ∨ (∃ message, r = .error (.command message)) →
          c'.connected = true := by
        intro hr
        by_contra hc'
        obtain ⟨e, hx, he⟩ := hlost (by simpa using hc')
        rw [herror e hx] at hr
        rcases hr with ⟨v, hv⟩ | ⟨message, hm⟩
        · cases hv
        · cases hm
          exact he message rfl
      refine ⟨.carried line reply w'.server hline h (fun v hv => ?_) fun message hm => ?_, ?_⟩
      · have hg := hgives (hconnected (Or.inl ⟨v, hv⟩))
        cases x with
        | ok a =>
            exact ⟨hreturned reply _ a v rfl hv hg.returned,
              hanswered reply _ a v hsuits rfl hv hg.returned⟩
        | error e =>
            rw [herror e rfl] at hv
            cases hv
      · exact hrefused reply _ message hsuits hm (hgives (hconnected (Or.inr ⟨message, hm⟩)))
      · intro hc'
        have hahead := (hgives hc').leaves hread
        exact (List.append_eq_nil_iff.1 hahead).2

/-- A call that hands on what its reader returns. -/
theorem Asked.ended_value {call : ClientCall} {line : Text} {reader : Reader α} {wrap : α → Value F}
    {w w' : Site W} {x : Except AfmError α} {c' : State} (hW : CommandHandler.Tidy W)
    (hcall : call.Proper) (hline : call.line = some line)
    (h : Asked P line reader w x c' w')
    (hleaves : ∀ reply, ServerReply reply → Readable call reply →
      (reader.on reply.render).Leaves (· = []))
    (htakes : ∀ (reply : Reply) rest a, reader.on reply.render = .returned a rest →
      Takes float call reply.render (wrap a))
    (hnotErr : ∀ status text, Suits (parseLine line).command (.error status text) →
      (reader.on (Reply.error status text).render).Meets (fun _ => True) fun _ => False)
    (hrefused : ∀ reply message rest, Suits (parseLine line).command reply →
      reader.on reply.render = .raised (.command message) rest →
      ∃ status text, reply = .error status text) :
    Ended P float call (x.map wrap) w.server w'.server ∧
      (c'.connected = true → w'.link.stream = []) := by
  refine h.ended hW hcall hline ?_ hleaves ?_ ?_ ?_
  · intro e hx
    rw [hx]
    rfl
  · intro reply rest a v hx hv hon
    rw [hx] at hv
    cases hv
    exact htakes reply rest a hon
  · intro reply rest a v hsuits _ _ hon status text heq
    rw [heq] at hsuits hon
    have hmeets := hnotErr status text hsuits
    rw [hon] at hmeets
    exact hmeets
  · intro reply rest message hsuits hr hg
    cases x with
    | ok a => cases hr
    | error e =>
        cases hr
        exact hrefused reply message _ hsuits hg.raised

/-- A call that raises what its reader has found refused. -/
theorem Asked.ended_sendCommand {command : Text} {w w' : Site W} {x : Except AfmError (Bool × Text)}
    {c' : State} (hW : CommandHandler.Tidy W)
    (hcall : (ClientCall.sendCommand command).Proper)
    (h : Asked P command executeReply w x c' w') :
    Ended P float (.sendCommand command) ((x.bind raiseFailure).map Value.text) w.server w'.server ∧
      (c'.connected = true → w'.link.stream = []) := by
  refine h.ended hW hcall rfl ?_ ?_ ?_ ?_ ?_
  · intro e hx
    rw [hx]
    rfl
  · intro reply hserver hread
    exact readable_leaves float hserver hread
  · intro reply rest p v hx hv hon
    obtain ⟨success, data⟩ := p
    rw [hx] at hv
    cases success with
    | false => cases hv
    | true =>
        cases hv
        exact ⟨data, rest, rfl, hon⟩
  · intro reply rest p v hsuits hx hv hon status text heq
    obtain ⟨success, data⟩ := p
    rw [hx] at hv
    cases success with
    | false => cases hv
    | true =>
        rw [heq] at hsuits hon
        have hmeets := (error_not_returned hsuits float none).1
        rw [hon] at hmeets
        cases hmeets
  · intro reply rest message hsuits hr hg
    cases x with
    | error e =>
        cases hr
        have hmeets := meets_executeReply reply.render
        rw [hg.raised] at hmeets
        exact absurd rfl (hmeets message)
    | ok p =>
        obtain ⟨success, data⟩ := p
        cases success with
        | true => cases hr
        | false => exact executeReply_refused hsuits hg.returned

/-- **A call is carried out at most once**, and leaves nothing on the way. -/
theorem perform_ended {rounds : ℕ} {call : ClientCall} {c c' : State} {w w' : Site W}
    {r : Except AfmError (Value F)} (hW : CommandHandler.Tidy W) (hcall : call.Ordinary)
    (hinv : c.connected = true → w.link.stream = [])
    (h : Runs (site P W) w (perform float rounds call c) (r, c') w') :
    Ended P float call r w.server w'.server ∧ (c'.connected = true → w'.link.stream = []) := by
  cases call with
  | sendCommand command =>
      obtain ⟨y, h₁, rfl⟩ := runs_wrapped h
      obtain ⟨x, h₂, rfl⟩ := runs_sendCommand h₁
      have hasked : Asked P command executeReply w x c' w' :=
        query_site hinv (on_line_nil none _) h₂
      exact hasked.ended_sendCommand hW hcall.proper
  | getBoardStatus =>
      obtain ⟨x, h₁, rfl⟩ := runs_wrapped h
      have hasked : Asked P "BOARD:STATUS?".toList (boardStatusReply none) w x c' w' :=
        query_site hinv (on_line_nil none _) h₁
      refine hasked.ended_value hW hcall.proper rfl
        (fun reply hserver hread => readable_leaves float hserver hread)
        (fun reply rest data hon => ⟨data, rest, rfl, hon⟩)
        (fun status text hsuits => (error_not_returned hsuits float none).2.1) ?_
      intro reply message rest hsuits hon
      rw [parseLine_boardStatus] at hsuits
      exact boardStatusReply_refused hsuits hon
  | measure command timeout =>
      obtain ⟨x, h₁, rfl⟩ := runs_wrapped h
      have hasked : Asked P command (spectrumReply float timeout) w x c' w' :=
        query_site hinv (on_line_nil timeout _) h₁
      exact hasked.ended_value hW hcall.proper rfl
        (fun reply hserver hread => readable_leaves float hserver hread)
        (fun reply rest data hon => ⟨data, rest, rfl, hon⟩)
        (fun status text hsuits => (error_not_returned hsuits float timeout).2.2)
        fun reply message rest hsuits hon => spectrumReply_refused hsuits hon
  | shutdown => exact absurd parseLine_shutdown (hcall.running _ rfl)
  | disconnect =>
      obtain ⟨x, h₁, rfl⟩ := runs_wrapped h
      obtain ⟨hlink, hserver⟩ := site_silent (silent_disconnect c) h₁ fun _ _ => True
      rw [hserver]
      exact ⟨.skipped (Or.inl rfl), by simp [(disconnect_runs hlink).2]⟩

/-! ### Sessions -/

theorem silent_readWelcome (c : State) : (readWelcome c).Only Silent := by
  refine Prog.Only.bind (silent_readLine none _) fun p => ?_
  obtain ⟨r, c₁⟩ := p
  cases r with
  | ok welcome => trivial
  | error e => exact silent_abort _ c₁

/-- Nothing is on the way once `connect` is done with the welcome line. -/
theorem readWelcome_clear {answers : Text → Text → Prop} {c₀ c : State} {w w' : Link}
    {r : Except AfmError Text} (hw : w.stream = welcomeLine ++ '\n' :: [])
    (h : Runs (link true answers) w (readWelcome c₀) (r, c) w') :
    c.connected = true → w'.stream = [] := by
  cases r with
  | ok welcome => exact readWelcome_leaves lineText_welcomeLine length_welcomeLine hw h
  | error e =>
      intro hc
      obtain ⟨⟨x, c₁⟩, w₁, h₁, h₂⟩ := runs_bind.1 h
      cases x with
      | ok welcome =>
          obtain ⟨heq, -⟩ := runs_done.1 h₂
          cases heq
      | error e' =>
          cases hc₁ : c₁.connected with
          | true => simp [(runs_abort hc₁ h₂).2.1] at hc
          | false =>
              simp only [abort, disconnect, Act.bind_apply, Act.get_apply, Act.modify_apply,
                Prog.bind_done, hc₁, Bool.false_eq_true, if_false, Act.pure_apply,
                Act.throw_apply] at h₂
              obtain ⟨⟨⟩, rfl⟩ := runs_done.1 h₂
              cases hc

/-- The calls of a client with their results, oldest first, on any number of connections to one
server; the client connects again whenever it likes. -/
inductive RemoteSession (P : Platform) (float : Text → Option F) (server : RemoteServer W) :
    List (ClientCall × Except AfmError (Value F)) → State → Site W → Prop
  | start : RemoteSession P float server [] {} ⟨{}, server⟩
  | connect {past : List (ClientCall × Except AfmError (Value F))} {c₀ c : State} {w₀ w : Site W}
      {r : Except AfmError Text} (hs : RemoteSession P float server past c₀ w₀)
      (h : Runs (site P W) ⟨{ stream := welcomeLine ++ '\n' :: [] }, w₀.server⟩ (readWelcome c₀)
        (r, c) w) : RemoteSession P float server past c w
  | call {past : List (ClientCall × Except AfmError (Value F))} {c c' : State} {w w' : Site W}
      {call : ClientCall} {rounds : ℕ} {r : Except AfmError (Value F)}
      (hs : RemoteSession P float server past c w) (hcall : call.Ordinary)
      (h : Runs (site P W) w (perform float rounds call c) (r, c') w') (hr : r ≠ .error .running) :
      RemoteSession P float server (past ++ [(call, r)]) c' w'

/-- What became of the calls at the server: one after the other, each has ended in its own way, and
nothing else has happened there. -/
inductive Carried (P : Platform) (float : Text → Option F) (server : RemoteServer W) :
    List (ClientCall × Except AfmError (Value F)) → RemoteServer W → Prop
  | nil : Carried P float server [] server
  | call {past : List (ClientCall × Except AfmError (Value F))} {s s' : RemoteServer W}
      {call : ClientCall} {r : Except AfmError (Value F)} (hs : Carried P float server past s)
      (h : Ended P float call r s s') : Carried P float server (past ++ [(call, r)]) s'

variable {server : RemoteServer W} {past : List (ClientCall × Except AfmError (Value F))}
  {c : State} {w : Site W}

/-- **Between two calls nothing is on the way.** -/
theorem RemoteSession.clear (hW : CommandHandler.Tidy W)
    (h : RemoteSession P float server past c w) : c.connected = true → w.link.stream = [] := by
  induction h with
  | start => simp
  | connect _ h _ =>
      obtain ⟨hlink, -⟩ := site_silent (silent_readWelcome _) h fun _ _ => True
      exact readWelcome_clear rfl hlink
  | call _ hcall h _ ih => exact (perform_ended hW hcall ih h).2

/-- The server has seen of the calls what their results say. -/
theorem RemoteSession.carried (hW : CommandHandler.Tidy W)
    (h : RemoteSession P float server past c w) : Carried P float server past w.server := by
  induction h with
  | start => exact .nil
  | connect _ h ih =>
      obtain ⟨-, hserver⟩ := site_silent (silent_readWelcome _) h fun _ _ => True
      rw [hserver]
      exact ih
  | call hs hcall h _ ih => exact .call ih (perform_ended hW hcall (hs.clear hW) h).1

/-- **Every call is carried out at most once, in order, and returns the reply to its own command**,
whatever the connection loses, delays or cuts, and however often the client connects again; and no
byte of a reply is left for a later call. -/
theorem calls_at_most_once (hW : CommandHandler.Tidy W)
    (h : RemoteSession P float server past c w) :
    Carried P float server past w.server ∧ (c.connected = true → w.link.stream = []) :=
  ⟨h.carried hW, h.clear hW⟩

end Site

/-! ### A session -/

section Session

variable {W : World Afm.server} {P : Platform}
  (respond : Text → RemoteServer W → Option (Text × RemoteServer W))

/-- A byte of what is on the way. -/
def Site.receiveByte (w : Site W) : Except SockError Text × Site W :=
  match w.link.stream with
  | [] => (.error .blocking, w)
  | x :: rest => (.ok [x], { w with link := { w.link with stream := rest } })

/-- A line arrives, and its reply is one line. -/
def Site.arrive (w : Site W) (line : Text) : Option (Site W) :=
  if line ≠ [] ∧ '\n' ∉ line ∧ (parseLine line).command ≠ .systShutdown then
    (respond line w.server).map fun answer => ⟨w.link.answer (buildOkResponse answer.1), answer.2⟩
  else none

/-- A message arrives. -/
def Site.sendAll (w : Site W) (message : Text) : Option (Except SockError Unit × Site W) :=
  if message.getLast? = some '\n' then
    (w.arrive respond message.dropLast).map fun w' => (.ok (), w')
  else none

/-- A connection that works: it delivers byte by byte, and answers in one line. -/
def Site.deliver (w : Site W) : (c : Client.Call) → Option (sock.Reply c × Site W)
  | .setBlocking => some (.ok (), { w with link := { w.link with blocking := false } })
  | .setTimeout _ => some (.ok (), { w with link := { w.link with blocking := true } })
  | .recv => some w.receiveByte
  | .sendAll message => w.sendAll respond message
  | .close => some ((), w)

/-- It is a connection to a server that responds so. -/
theorem siteStep_deliver (hrespond : ∀ line s data s', respond line s = some (data, s') →
      s.Carries P line (.ok data) s') (w : Site W) (c : Client.Call) (r : sock.Reply c)
    (w' : Site W) (h : w.deliver respond c = some (r, w')) : SiteStep P w c r w' := by
  cases c with
  | setBlocking =>
      cases h
      exact .quiet w (.setBlocking _)
  | setTimeout seconds =>
      cases h
      exact .quiet w (.setTimeout _ seconds)
  | recv =>
      have hbyte : SiteStep P w .recv w.receiveByte.1 w.receiveByte.2 := by
        unfold Site.receiveByte
        split
        · exact .quiet w (.recvFailed _ _ (Or.inl rfl))
        · rename_i x rest hs
          exact .quiet w (.recv _ [x] rest (by simp) (by simp [recvBufferSize]) hs)
      have heq : w.receiveByte = (r, w') := Option.some.inj h
      rw [heq] at hbyte
      exact hbyte
  | sendAll message =>
      have hsend : w.sendAll respond message = some (r, w') := h
      unfold Site.sendAll at hsend
      split at hsend
      · rename_i hlast
        obtain ⟨line, rfl⟩ := List.getLast?_eq_some_iff.1 hlast
        obtain ⟨w₁, harrive, heq⟩ := Option.map_eq_some_iff.1 hsend
        cases heq
        rw [List.dropLast_concat] at harrive
        unfold Site.arrive at harrive
        split at harrive
        · rename_i hline
          obtain ⟨⟨data, s⟩, hdata, heq⟩ := Option.map_eq_some_iff.1 harrive
          cases heq
          exact .arrived w line _ (.ok data) _ hline.1 hline.2.1 hline.2.2
            (hrespond line _ data s hdata) trivial
        · cases harrive
      · cases hsend
  | close =>
      cases h
      exact .quiet w (.close _)

/-- A server that carries out a line on devices that compute, where it answers with `OK`. -/
def obey (env : W.State → (c : ServerCall) → Option (server.Reply c × W.State)) (line : Text)
    (s : RemoteServer W) : Option (Text × RemoteServer W) :=
  match (CommandHandler.handleCommand P (parseLine line) s.handler).attempt env s.devices with
  | some ((.ok (.ok data), handler), devices) => some (data, ⟨handler, devices⟩)
  | _ => none

theorem obey_carries {env : W.State → (c : ServerCall) → Option (server.Reply c × W.State)}
    (henv : ∀ w c r w', env w c = some (r, w') → W.Step w c r w') (line : Text)
    (s : RemoteServer W) (data : Text) (s' : RemoteServer W)
    (h : obey (P := P) env line s = some (data, s')) : s.Carries P line (.ok data) s' := by
  unfold obey at h
  split at h
  · rename_i hattempt
    cases h
    exact ⟨_, Prog.attempt_runs henv hattempt, rfl⟩
  · cases h

/-- Making calls on such a connection, computed; every call has to return a text. -/
def converse {F : Type} (float : Text → Option F) (rounds : ℕ) :
    List ClientCall → State → Site W → Option (List (ClientCall × Text) × State × Site W)
  | [], c, w => some ([], c, w)
  | call :: calls, c, w => do
      let x ← (perform float rounds call c).attempt (Site.deliver respond) w
      match x with
      | ((.ok (.text data), c'), w') => do
          let (later, c'', w'') ← converse float rounds calls c' w'
          some ((call, data) :: later, c'', w'')
      | _ => none

variable {F : Type} {float : Text → Option F} {s₀ : RemoteServer W}

/-- The result of a call that has returned a text. -/
def returned (call : ClientCall × Text) : ClientCall × Except AfmError (Value F) :=
  (call.1, .ok (.text call.2))

/-- The calls that `converse` makes continue the session. -/
theorem RemoteSession.converse {rounds : ℕ} (hrespond : ∀ line s data s',
      respond line s = some (data, s') → s.Carries P line (.ok data) s')
    (calls : List ClientCall) (hcalls : ∀ call ∈ calls, call.Ordinary) :
    ∀ (past : List (ClientCall × Except AfmError (Value F))) (c : State) (w : Site W)
      (results : List (ClientCall × Text)) (c' : State) (w' : Site W),
      RemoteSession P float s₀ past c w →
      Afm.converse respond float rounds calls c w = some (results, c', w') →
      RemoteSession P float s₀ (past ++ results.map returned) c' w' := by
  induction calls with
  | nil =>
      intro past c w results c' w' hs h
      cases h
      simpa using hs
  | cons call calls ih =>
      intro past c w results c' w' hs h
      unfold Afm.converse at h
      obtain ⟨x, hx, h⟩ := Option.bind_eq_some_iff.1 h
      split at h
      · rename_i data c₁ w₁
        obtain ⟨⟨later, c₂, w₂⟩, hlater, h⟩ := Option.bind_eq_some_iff.1 h
        cases h
        have hrun := Prog.attempt_runs (W := site P W) (siteStep_deliver respond hrespond) hx
        have hcall := RemoteSession.call hs (hcalls _ (by simp)) hrun (by simp)
        have hrest := ih (fun c hc => hcalls c (by simp [hc])) _ _ _ _ _ _ hcall hlater
        simpa [returned] using hrest
      · cases h

/-- Connecting to a server that nobody has used yet and making calls there. -/
def meet {F : Type} (float : Text → Option F) (rounds : ℕ) (calls : List ClientCall)
    (s : RemoteServer W) : Option (List (ClientCall × Text) × State × Site W) := do
  let ((_, c), w) ← (readWelcome {}).attempt (Site.deliver respond)
    ⟨{ stream := welcomeLine ++ '\n' :: [] }, s⟩
  converse respond float rounds calls c w

theorem RemoteSession.meet {rounds : ℕ} (hrespond : ∀ line s data s',
      respond line s = some (data, s') → s.Carries P line (.ok data) s')
    {calls : List ClientCall} (hcalls : ∀ call ∈ calls, call.Ordinary)
    {results : List (ClientCall × Text)} {c : State} {w : Site W}
    (h : Afm.meet respond float rounds calls s₀ = some (results, c, w)) :
    RemoteSession P float s₀ (results.map returned) c w := by
  unfold Afm.meet at h
  obtain ⟨⟨⟨r, c₁⟩, w₁⟩, hwelcome, hcalled⟩ := Option.bind_eq_some_iff.1 h
  have hrun := Prog.attempt_runs (W := site P W) (siteStep_deliver respond hrespond) hwelcome
  have hstart : RemoteSession P float s₀ [] c₁ w₁ := .connect .start hrun
  exact RemoteSession.converse respond hrespond calls hcalls [] c₁ w₁ results c w hstart hcalled

/-- Devices on which everything works. -/
abbrev smoothDevices : World server := ⟨Unit, fun _ c r _ => r = CommandHandler.goodReply c⟩

/-- What they reply to a call. -/
def smoothServe (devices : Unit) (c : ServerCall) : Option (server.Reply c × Unit) :=
  some (CommandHandler.goodReply c, devices)

theorem smoothServe_runs (w : Unit) (c : ServerCall) (r : server.Reply c) (w' : Unit)
    (h : smoothServe w c = some (r, w')) : smoothDevices.Step w c r w' := by
  cases h
  rfl

theorem tidy_smoothDevices : CommandHandler.Tidy smoothDevices := by
  intro w c r w' h
  subst h
  have hplain : ∀ {α : Type} (a : α), CommandHandler.Plain (.ok a : Except Text α) :=
    fun a text h => by cases h
  cases c with
  | board b =>
      cases b with
      | getStatus => exact ⟨hplain _, fun text h => by cases h; exact ⟨by decide, trivial⟩⟩
      | getLastError => exact ⟨hplain _, fun text h => by cases h; exact List.not_mem_nil⟩
      | _ => exact hplain _
  | hardwareFactory => exact hplain _
  | hardware h => cases h <;> exact hplain _
  | boardFactory => exact hplain _
  | planFft n => exact hplain _
  | _ => trivial

/-- A server that has just been started on them. -/
def newServer : RemoteServer smoothDevices := ⟨CommandHandler.make 5000 .full, ()⟩

/-- Two calls of a client that has connected to a new server. -/
theorem calls_at_most_once_meet :
    ∃ results c w, meet (obey (P := CommandHandler.flat .ieee) smoothServe) (fun _ => (none : Option ℚ)) 5
        [.sendCommand "SYSTEM:INIT".toList, .sendCommand "SYSTEM:PING".toList] newServer =
        some (results, c, w) ∧
      (results.map Prod.snd = ["Red Pitaya OK, Board OK".toList, "PONG".toList] ∧
        w.server.handler.status.hardwareInitialized = true) ∧
      Carried (CommandHandler.flat .ieee) (fun _ => (none : Option ℚ)) newServer (results.map returned)
        w.server ∧
      (c.connected = true → w.link.stream = []) := by
  have hany : (meet (obey (P := CommandHandler.flat .ieee) smoothServe) (fun _ => (none : Option ℚ)) 5
      [.sendCommand "SYSTEM:INIT".toList, .sendCommand "SYSTEM:PING".toList] newServer).any
      (fun x => decide (x.1.map Prod.snd = ["Red Pitaya OK, Board OK".toList, "PONG".toList] ∧
        x.2.2.server.handler.status.hardwareInitialized = true)) = true := by
    decide +kernel
  obtain ⟨⟨results, c, w⟩, hmeet, hresults⟩ := (Option.any_eq_true _ _).1 hany
  have hsession := RemoteSession.meet (P := CommandHandler.flat .ieee) _
    (obey_carries smoothServe_runs) (fun call hcall => ?_) hmeet
  · exact ⟨results, c, w, hmeet, of_decide_eq_true hresults,
      calls_at_most_once tidy_smoothDevices hsession⟩
  rcases List.mem_pair.1 hcall with rfl | rfl
  · exact ⟨trivial, fun line hline => by cases hline; decide⟩
  · exact ⟨trivial, fun line hline => by cases hline; decide⟩

end Session

end Afm
