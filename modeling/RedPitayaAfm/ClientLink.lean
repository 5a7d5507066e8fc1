/-
**Readers of the client on a connection.**

A connection delivers the bytes of the replies in order, in chunks and at times of its own choice.
This module relates the two meanings of a reader: on such a connection it does what it does on the
text of the bytes still to come, or else it has disconnected.  A connection without faults leaves
only two reasons to disconnect: the reader waits for bytes that no one sends, or a line is too long.

Main definitions:

* `Afm.Client.Link`, `Afm.Client.link` — the connection with a server that answers by `answers`,
  with or without faults;
* `Afm.Client.Follows` — a method does on the connection what an outcome on the text says.

Main results:

* `Afm.Client.Follows.bind` — the rule for sequences;
* `Afm.Client.follows_run` — **a reader on the connection follows its meaning on the text**.
-/

import RedPitayaAfm.AfmClient

set_option relaxedAutoImplicit false
set_option autoImplicit false

namespace Afm

namespace Client

open Effect Lines

/-! ### The connection -/

/-- A connection: the mode of the socket, the reply bytes the client has not received yet, the
number of command lines sent, and the reply to the last of them. -/
structure Link where
  /-- False between `setblocking(False)` and the next `settimeout`. -/
  blocking : Bool := true
  /-- Bytes the client has not received yet, whether or not they have arrived. -/
  stream : Text := []
  /-- Command lines sent. -/
  count : ℕ := 0
  /-- The reply to the last command line; an empty line has none. -/
  reply : Option Text := none
  deriving DecidableEq

/-- The server answers a command line. -/
def Link.answer (w : Link) (reply : Text) : Link :=
  { w with stream := w.stream ++ reply, count := w.count + 1, reply := some reply }

/-- What a connection may do.  A server answers every non-empty command line with one reply that
`answers` allows.  Without `faults`, socket methods fail only when there is nothing to receive. -/
inductive LinkStep (faults : Bool) (answers : Text → Text → Prop) :
    Link → (c : Call) → sock.Reply c → Link → Prop
  | setBlocking (w : Link) :
      LinkStep faults answers w .setBlocking (.ok ()) { w with blocking := false }
  | setBlockingFailed (w : Link) (e : SockError) (h : faults = true) :
      LinkStep faults answers w .setBlocking (.error e) w
  | setTimeout (w : Link) (seconds : Option ℚ) :
      LinkStep faults answers w (.setTimeout seconds) (.ok ()) { w with blocking := true }
  | setTimeoutFailed (w : Link) (seconds : Option ℚ) (e : SockError) (h : faults = true) :
      LinkStep faults answers w (.setTimeout seconds) (.error e) w
  | recv (w : Link) (data rest : Text) (hne : data ≠ []) (hle : data.length ≤ recvBufferSize)
      (h : w.stream = data ++ rest) :
      LinkStep faults answers w .recv (.ok data) { w with stream := rest }
  | recvFailed (w : Link) (e : SockError)
      (h : faults = true ∨ w.blocking = false ∨ w.stream = []) :
      LinkStep faults answers w .recv (.error e) w
  | recvClosed (w : Link) (h : faults = true) : LinkStep faults answers w .recv (.ok []) w
  | sendAll (w : Link) (command reply : Text) (hne : command ≠ []) (h : answers command reply) :
      LinkStep faults answers w (.sendAll (command ++ ['\n'])) (.ok ()) (w.answer reply)
  | sendEmpty (w : Link) : LinkStep faults answers w (.sendAll ['\n']) (.ok ())
      { w with count := w.count + 1, reply := none }
  | sendUnterminated (w : Link) (message : Text) (h : message.getLast? ≠ some '\n') :
      LinkStep faults answers w (.sendAll message) (.ok ()) w
  | sendFailed (w : Link) (message : Text) (e : SockError) (h : faults = true) :
      LinkStep faults answers w (.sendAll message) (.error e) w
  | sendFailedLate (w : Link) (command reply : Text) (e : SockError) (h : faults = true)
      (ha : answers command reply) :
      LinkStep faults answers w (.sendAll (command ++ ['\n'])) (.error e) (w.answer reply)
  | close (w : Link) : LinkStep faults answers w .close () w

/-- The connection as an environment of the client. -/
abbrev link (faults : Bool) (answers : Text → Text → Prop) : World sock :=
  ⟨Link, LinkStep faults answers⟩

/-- The connection answers every call. -/
theorem exists_linkStep {faults : Bool} {answers : Text → Text → Prop}
    (ha : ∀ command, ∃ reply, answers command reply) (w : Link) (c : Call) :
    ∃ r w', LinkStep faults answers w c r w' := by
  cases c with
  | setBlocking => exact ⟨_, _, .setBlocking w⟩
  | setTimeout seconds => exact ⟨_, _, .setTimeout w seconds⟩
  | recv =>
      cases hs : w.stream with
      | nil => exact ⟨_, _, .recvFailed w .timeout (.inr (.inr hs))⟩
      | cons x xs => exact ⟨_, _, .recv w [x] xs (by simp) (by simp [recvBufferSize]) hs⟩
  | sendAll message =>
      by_cases hlast : message.getLast? = some '\n'
      · obtain ⟨command, rfl⟩ := List.getLast?_eq_some_iff.1 hlast
        by_cases hne : command = []
        · subst hne
          exact ⟨_, _, .sendEmpty w⟩
        · obtain ⟨reply, hreply⟩ := ha command
          exact ⟨_, _, .sendAll w command reply hne hreply⟩
      · exact ⟨_, _, .sendUnterminated w message hlast⟩
  | close => exact ⟨_, _, .close w⟩

/-! ### Following a text -/

/-- The outcome says what was returned or raised, and what is left of the text. -/
def Outcome.Gives {α : Type} (o : Outcome α) (r : Except AfmError α) (rest : Text) : Prop :=
  match o with
  | .returned a s => r = .ok a ∧ rest = s
  | .raised e s => r = .error e ∧ rest = s
  | .lost => False

/-- Some line is so long that it may exceed the client's limit before it is complete. -/
def LongLine (s : Text) : Prop :=
  ∃ l ∈ lines isNewline s, maxLineBytes < l.length + recvBufferSize

theorem LongLine.of_suffix {s t : Text} (hs : s <:+ t) (h : LongLine s) : LongLine t := by
  obtain ⟨l, hl, hlong⟩ := h
  obtain ⟨l', hl', hle⟩ := length_le_of_suffix isNewline hs hl
  exact ⟨l', hl', by omega⟩

/-- The bytes a client is still to see: its buffer and what is on the way. -/
def ahead (c : State) (w : Link) : Text := c.recvBuffer ++ w.stream

/-- What a call of the method leaves, when the text ahead was `s` and its outcome on it is `o`:
either the method did what the outcome says, or the client has disconnected.  Without faults it
disconnects only for want of bytes or for a long line. -/
structure Followed {α : Type} (faults : Bool) (s : Text) (o : Outcome α) (r : Except AfmError α)
    (c : State) (w : Link) : Prop where
  blocking : faults = false → w.blocking = true
  suffix : c.connected = true → ahead c w <:+ s
  gives : c.connected = true → o.Gives r (ahead c w)
  error : c.connected = false → ∃ e, r = .error e
  room : c.connected = true → c.recvBuffer.length ≤ maxLineBytes
  lost : c.connected = false → faults = false → o = .lost ∨ LongLine s

/-- On a connection, the method does what `o` says of the text ahead. -/
def Follows {α : Type} (faults : Bool) (answers : Text → Text → Prop) (m : Method α)
    (o : Text → Outcome α) : Prop :=
  ∀ c w r c' w', c.connected = true → c.recvBuffer.length ≤ maxLineBytes →
    (faults = false → w.blocking = true) → Runs (link faults answers) w (m c) (r, c') w' →
    w'.count = w.count ∧ w'.reply = w.reply ∧
      Followed faults (ahead c w) (o (ahead c w)) r c' w'

section Follows

variable {α β : Type} {faults : Bool} {answers : Text → Text → Prop}

/-- A method that makes no call and does what `o` says. -/
theorem Follows.ofExcept (x : Except AfmError α) :
    Follows faults answers (Act.ofExcept x)
      fun s => match x with | .ok a => .returned a s | .error e => .raised e s := by
  intro c w r c' w' hc hroom hb h
  cases x with
  | ok a =>
      obtain ⟨⟨⟩, rfl⟩ := runs_done.1 h
      exact ⟨rfl, rfl, hb, fun _ => List.suffix_refl _, fun _ => ⟨rfl, rfl⟩, by simp [hc],
        fun _ => hroom, by simp [hc]⟩
  | error e =>
      obtain ⟨⟨⟩, rfl⟩ := runs_done.1 h
      exact ⟨rfl, rfl, hb, fun _ => List.suffix_refl _, fun _ => ⟨rfl, rfl⟩, by simp [hc],
        fun _ => hroom, by simp [hc]⟩

/-- **The rule for sequences.** -/
theorem Follows.bind {m : Method α} {f : α → Method β} {o : Text → Outcome α}
    {o' : α → Text → Outcome β} (hm : Follows faults answers m o)
    (hf : ∀ a, Follows faults answers (f a) (o' a)) :
    Follows faults answers (m >>= f) fun s => (o s).bind o' := by
  intro c w r c' w' hc hroom hb h
  beta_reduce
  simp only [Act.bind_apply, runs_bind] at h
  obtain ⟨⟨x, c₁⟩, w₁, h₁, h₂⟩ := h
  obtain ⟨hcount, hreply, hF⟩ := hm c w x c₁ w₁ hc hroom hb h₁
  cases hc₁ : c₁.connected with
  | false =>
      -- a method that loses the connection raises, so `f` never runs
      obtain ⟨e, rfl⟩ := hF.error hc₁
      obtain ⟨⟨⟩, rfl⟩ := runs_done.1 h₂
      refine ⟨hcount, hreply, hF.blocking, by simp [hc₁], by simp [hc₁], fun _ => ⟨e, rfl⟩,
        by simp [hc₁], fun _ hfaults => ?_⟩
      rcases hF.lost hc₁ hfaults with hs | hl
      · exact .inl (by rw [hs]; rfl)
      · exact .inr hl
  | true =>
      have hg := hF.gives hc₁
      have hsuf := hF.suffix hc₁
      cases ho : o (ahead c w) with
      | lost =>
          rw [ho] at hg
          exact hg.elim
      | raised e rest =>
          rw [ho] at hg
          obtain ⟨rfl, hrest⟩ := hg
          obtain ⟨⟨⟩, rfl⟩ := runs_done.1 h₂
          rw [Outcome.bind_raised]
          exact ⟨hcount, hreply, hF.blocking, fun _ => hsuf, fun _ => ⟨rfl, hrest⟩, by simp [hc₁],
            hF.room, by simp [hc₁]⟩
      | returned a rest =>
          rw [ho] at hg
          obtain ⟨rfl, hrest⟩ := hg
          obtain ⟨hcount', hreply', hF'⟩ := hf a c₁ w₁ r c' w' hc₁ (hF.room hc₁) hF.blocking h₂
          rw [hrest] at hF'
          rw [hrest] at hsuf
          rw [Outcome.bind_returned]
          refine ⟨hcount'.trans hcount, hreply'.trans hreply, hF'.blocking,
            fun hc' => (hF'.suffix hc').trans hsuf, hF'.gives, hF'.error, hF'.room,
            fun hc' hfaults => ?_⟩
          rcases hF'.lost hc' hfaults with hs | hl
          · exact .inl hs
          · exact .inr (hl.of_suffix hsuf)

/-- `disconnect` and raise. -/
theorem runs_abort {e : AfmError} {c c' : State} {w w' : Link} {r : Except AfmError α}
    (hc : c.connected = true)
    (h : Runs (link faults answers) w ((abort e : Method α) c) (r, c') w') :
    w' = w ∧ c'.connected = false ∧ r = .error e := by
  simp only [abort, disconnect, Act.bind_apply, Act.get_apply, Act.modify_apply, hc, if_true,
    Act.call_apply, Act.throw_apply, runs_done, runs_call, Prog.bind_done,
    Prog.bind_call] at h
  obtain ⟨u, w₁, hs, ⟨⟩, rfl⟩ := h
  cases hs
  exact ⟨rfl, rfl, rfl⟩

/-- `disconnect` and raise, whether or not there is a connection. -/
theorem runs_abort_error {e : AfmError} {c c' : State} {w w' : Link} {r : Except AfmError α}
    (h : Runs (link faults answers) w ((abort e : Method α) c) (r, c') w') : r = .error e := by
  cases hc : c.connected with
  | true => exact (runs_abort hc h).2.2
  | false =>
      simp only [abort, disconnect, Act.bind_apply, Act.get_apply, Act.modify_apply, hc,
        Bool.false_eq_true, if_false, Act.pure_apply, Act.throw_apply, Prog.bind_done] at h
      obtain ⟨⟨⟩, rfl⟩ := runs_done.1 h
      rfl

/-- A method that has disconnected, for a reason that counts without faults. -/
theorem Followed.of_abort {e : AfmError} {c c' : State} {w w' : Link} {r : Except AfmError α}
    {s : Text} {o : Outcome α} (hc : c.connected = true) (hb : faults = false → w.blocking = true)
    (h : Runs (link faults answers) w ((abort e : Method α) c) (r, c') w')
    (hlost : faults = false → o = .lost ∨ LongLine s) :
    w'.count = w.count ∧ w'.reply = w.reply ∧ Followed faults s o r c' w' := by
  obtain ⟨rfl, hc', rfl⟩ := runs_abort hc h
  exact ⟨rfl, rfl, hb, by simp [hc'], by simp [hc'], fun _ => ⟨e, rfl⟩, by simp [hc'],
    fun _ => hlost⟩

/-! ### The primitives -/

/-- The first line ahead is long when more than a receive buffer short of the limit arrived
without a newline. -/
theorem starved_or_long {s b t : Text} (hs : s = b ++ t) (hn : cut isNewline b = none)
    (hlen : maxLineBytes < b.length + recvBufferSize) : cut isNewline s = none ∨ LongLine s := by
  subst hs
  cases hcut : cut isNewline (b ++ t) with
  | none => exact .inl rfl
  | some p =>
      have hle := length_le_of_cut_append isNewline hn hcut
      refine .inr ⟨p.1, ?_, by omega⟩
      rw [(lines_of_cut isNewline hcut).1]
      simp

/-- The loop of `_read_line` finds the first line ahead, or disconnects. -/
theorem fillLine_runs {rounds : ℕ} {c c' : State} {w w' : Link} {r : Except AfmError (Text × Text)}
    (hc : c.connected = true) (hroom : c.recvBuffer.length ≤ maxLineBytes)
    (hb : faults = false → w.blocking = true)
    (h : Runs (link faults answers) w (fillLine rounds c) (r, c') w') :
    w'.count = w.count ∧ w'.reply = w.reply ∧ (faults = false → w'.blocking = true) ∧
      ((∃ p, r = .ok p ∧ c'.connected = true ∧ cut isNewline c'.recvBuffer = some p ∧
          c'.recvBuffer.length ≤ maxLineBytes ∧ ahead c' w' = ahead c w) ∨
        (∃ e, r = .error e ∧ c'.connected = false ∧
          (faults = false → maxLineBytes + 1 < rounds + c.recvBuffer.length →
            cut isNewline (ahead c w) = none ∨ LongLine (ahead c w)))) := by
  induction rounds generalizing c w with
  | zero =>
      unfold fillLine at h
      split at h
      · rename_i p hp
        obtain ⟨⟨⟩, rfl⟩ := runs_done.1 h
        exact ⟨rfl, rfl, hb, .inl ⟨p, rfl, hc, hp, hroom, rfl⟩⟩
      · rename_i hn
        obtain ⟨rfl, hc', rfl⟩ := runs_abort hc h
        exact ⟨rfl, rfl, hb, .inr ⟨_, rfl, hc', fun _ hr =>
          starved_or_long rfl hn (by omega)⟩⟩
  | succ rounds ih =>
      unfold fillLine at h
      split at h
      · rename_i p hp
        obtain ⟨⟨⟩, rfl⟩ := runs_done.1 h
        exact ⟨rfl, rfl, hb, .inl ⟨p, rfl, hc, hp, hroom, rfl⟩⟩
      rename_i hn
      simp only [Act.bind_apply, Act.call_apply, Prog.bind_call, Prog.bind_done, runs_call] at h
      obtain ⟨reply, w₁, hs, h⟩ := h
      cases hs with
      | recvFailed e he =>
          -- Without faults an error means that nothing is left to receive.
          have hlost : faults = false → cut isNewline (ahead c w) = none := by
            intro hfaults
            rcases he with hf | hf | hf
            · simp [hf] at hfaults
            · simp [hf] at hb
              simp [hb] at hfaults
            · rw [ahead, hf, List.append_nil]
              exact hn
          cases e with
          | timeout =>
              obtain ⟨rfl, hc', rfl⟩ := runs_abort hc h
              exact ⟨rfl, rfl, hb, .inr ⟨_, rfl, hc', fun hf _ => .inl (hlost hf)⟩⟩
          | blocking =>
              obtain ⟨rfl, hc', rfl⟩ := runs_abort hc h
              exact ⟨rfl, rfl, hb, .inr ⟨_, rfl, hc', fun hf _ => .inl (hlost hf)⟩⟩
          | other what =>
              obtain ⟨rfl, hc', rfl⟩ := runs_abort hc h
              exact ⟨rfl, rfl, hb, .inr ⟨_, rfl, hc', fun hf _ => .inl (hlost hf)⟩⟩
      | recvClosed hf =>
          obtain ⟨rfl, hc', rfl⟩ := runs_abort hc h
          exact ⟨rfl, rfl, hb, .inr ⟨_, rfl, hc', by simp [hf]⟩⟩
      | recv data rest hne hle hs =>
          have hemp : data.isEmpty = false := by simp [hne]
          have hpos : 0 < data.length := List.length_pos_of_ne_nil hne
          simp only [hemp, Bool.false_eq_true, if_false, Act.bind_apply, Act.modify_apply,
            Prog.bind_done] at h
          split at h
          · rename_i hlong
            obtain ⟨rfl, hc', rfl⟩ :=
              runs_abort (c := { c with recvBuffer := c.recvBuffer ++ data }) hc h
            refine ⟨rfl, rfl, hb, .inr ⟨_, rfl, hc', fun _ _ => ?_⟩⟩
            refine starved_or_long rfl hn ?_
            simp at hlong
            omega
          · rename_i hshort
            obtain ⟨h₁, h₂, h₃, h₄⟩ :=
              ih (c := { c with recvBuffer := c.recvBuffer ++ data })
                (w := { w with stream := rest }) hc (not_lt.1 hshort) hb h
            have hahead : ahead { c with recvBuffer := c.recvBuffer ++ data }
                { w with stream := rest } = ahead c w := by
              simp [ahead, hs]
            rw [hahead] at h₄
            refine ⟨h₁, h₂, h₃, ?_⟩
            rcases h₄ with h₄ | ⟨e, hr, hc', hl⟩
            · exact .inl h₄
            · exact .inr ⟨e, hr, hc', fun hf hrounds => hl hf (by simp; omega)⟩

/-- Nothing is raised on a socket that is there. -/
theorem Follows.requireSocket {m : Method α} {o : Text → Outcome α}
    (hm : Follows faults answers m o) : Follows faults answers (requireSocket m) o := by
  intro c w r c' w' hc hroom hb h
  rw [Client.requireSocket, if_pos hc] at h
  exact hm c w r c' w' hc hroom hb h

/-- Restoring the timeout changes nothing a reader depends on. -/
theorem restoreTimeout_runs {c c' : State} {w w' : Link} {r : Except AfmError Unit}
    (h : Runs (link faults answers) w ((do
      let c ← Act.get
      if c.connected then
        let _ ← callSock (.setTimeout none) : Method Unit) c) (r, c') w') :
    r = .ok () ∧ c' = c ∧ w'.stream = w.stream ∧ w'.count = w.count ∧ w'.reply = w.reply ∧
      (w.blocking = true → w'.blocking = true) := by
  simp only [Act.bind_apply, Act.get_apply, Prog.bind_done] at h
  split at h
  · simp only [Act.bind_apply, Act.call_apply, Prog.bind_call, Prog.bind_done, runs_call] at h
    obtain ⟨reply, w₁, hs, h⟩ := h
    obtain ⟨⟨⟩, rfl⟩ := runs_done.1 h
    cases hs with
    | setTimeout => exact ⟨rfl, rfl, rfl, rfl, rfl, fun _ => rfl⟩
    | setTimeoutFailed => exact ⟨rfl, rfl, rfl, rfl, rfl, id⟩
  · obtain ⟨⟨⟩, rfl⟩ := runs_done.1 h
    exact ⟨rfl, rfl, rfl, rfl, rfl, id⟩

/-- A temporary timeout does not change what a reader does. -/
theorem Follows.withTimeout {m : Method α} {o : Text → Outcome α}
    (hm : Follows faults answers m o) (timeout : Option ℚ) :
    Follows faults answers (withTimeout timeout m) o := by
  intro c w r c' w' hc hroom hb h
  cases timeout with
  | none => exact hm c w r c' w' hc hroom hb h
  | some seconds =>
      simp only [Client.withTimeout, Act.withDestructor, runs_bind] at h
      obtain ⟨⟨x, c₁⟩, w₁, h₁, ⟨u, c₂⟩, w₂, h₂, h₃⟩ := h
      obtain ⟨rfl, rfl, hstream, hcount, hreply, hblock⟩ := restoreTimeout_runs h₂
      obtain ⟨⟨⟩, rfl⟩ := runs_done.1 h₃
      -- The body leaves what `m` would; the restored timeout touches only the socket's mode.
      have hbody : w₁.count = w.count ∧ w₁.reply = w.reply ∧
          Followed faults (ahead c w) (o (ahead c w)) x c' w₁ := by
        simp only [Act.bind_apply, Act.call_apply, Prog.bind_call, Prog.bind_done, runs_call] at h₁
        obtain ⟨reply, w₃, hs, h₁⟩ := h₁
        cases hs with
        | setTimeout =>
            exact hm c { w with blocking := true } x c' w₁ hc hroom (fun _ => rfl) h₁
        | setTimeoutFailed e _ hf => exact Followed.of_abort hc hb h₁ (by simp [hf])
      obtain ⟨hcount₁, hreply₁, hF⟩ := hbody
      have hahead : ahead c' w' = ahead c' w₁ := by simp [ahead, hstream]
      exact ⟨hcount.trans hcount₁, hreply.trans hreply₁,
        fun hf => hblock (hF.blocking hf), hahead ▸ hF.suffix, hahead ▸ hF.gives, hF.error, hF.room,
        hF.lost⟩

/-- A primitive on a text: the program that calls it once. -/
def primitive (p : ReadCall) (s : Text) : Outcome Text :=
  consume (.call p fun l => .done (.ok l, ())) s

/-- **`_read_line` takes the first line ahead.** -/
theorem follows_readLine (timeout : Option ℚ) :
    Follows faults answers (readLine timeout) (primitive (.line timeout)) := by
  refine Follows.requireSocket (Follows.withTimeout ?_ timeout)
  intro c w r c' w' hc hroom hb h
  rw [primitive, consume_line]
  simp only [Act.bind_apply, runs_bind] at h
  obtain ⟨⟨x, c₁⟩, w₁, h₁, h₂⟩ := h
  obtain ⟨hcount, hreply, hblock, h₁ | h₁⟩ := fillLine_runs hc hroom hb h₁
  · obtain ⟨⟨line, rest⟩, rfl, hc₁, hcut, hfits, hahead⟩ := h₁
    simp only [Act.modify_apply, Prog.bind_done] at h₂
    -- a line found in the buffer is the first line of the text ahead too
    have hcut' : cut isNewline (ahead c w) = some (line, rest ++ w₁.stream) := by
      rw [← hahead]
      exact cut_append isNewline hcut _
    have hsuf : rest ++ w₁.stream <:+ ahead c w := by
      obtain ⟨t, -, heq⟩ := eq_append_of_cut isNewline hcut'
      exact ⟨line ++ [t], by simp [heq]⟩
    have hlen : line.length + rest.length < c₁.recvBuffer.length := by
      obtain ⟨t, -, heq⟩ := eq_append_of_cut isNewline hcut
      simp [heq]
    have hline : ¬maxLineBytes < line.length := by omega
    have hrest : rest.length ≤ maxLineBytes := by omega
    rw [hcut']
    cases hd : decodeLine line with
    | ok text =>
        rw [hd] at h₂
        obtain ⟨⟨⟩, rfl⟩ := runs_done.1 h₂
        exact ⟨hcount, hreply, hblock, fun _ => hsuf,
          fun _ => by simp [hd, hline, consume, Outcome.Gives, ahead], by simp [hc₁], fun _ => hrest,
          by simp [hc₁]⟩
    | error e =>
        rw [hd] at h₂
        obtain ⟨⟨⟩, rfl⟩ := runs_done.1 h₂
        exact ⟨hcount, hreply, hblock, fun _ => hsuf,
          fun _ => by simp [hd, hline, Outcome.Gives, ahead], by simp [hc₁], fun _ => hrest,
          by simp [hc₁]⟩
  · obtain ⟨e, rfl, hc₁, hlost⟩ := h₁
    obtain ⟨⟨⟩, rfl⟩ := runs_done.1 h₂
    refine ⟨hcount, hreply, hblock, by simp [hc₁], by simp [hc₁], fun _ => ⟨e, rfl⟩,
      by simp [hc₁], fun _ hfaults => ?_⟩
    rcases hlost hfaults (by omega) with hn | hl
    · exact .inl (by rw [hn])
    · exact .inr hl

/-- The loop of `_read_exact` fills the buffer, or disconnects. -/
theorem fillExact_runs {n rounds : ℕ} {c c' : State} {w w' : Link} {r : Except AfmError Unit}
    (hc : c.connected = true) (hroom : c.recvBuffer.length ≤ n + maxLineBytes)
    (hb : faults = false → w.blocking = true) (hrounds : n ≤ rounds + c.recvBuffer.length)
    (h : Runs (link faults answers) w (fillExact n rounds c) (r, c') w') :
    w'.count = w.count ∧ w'.reply = w.reply ∧ (faults = false → w'.blocking = true) ∧
      ((r = .ok () ∧ c'.connected = true ∧ n ≤ c'.recvBuffer.length ∧
          c'.recvBuffer.length ≤ n + maxLineBytes ∧ ahead c' w' = ahead c w) ∨
        (∃ e, r = .error e ∧ c'.connected = false ∧
          (faults = false → (ahead c w).length < n))) := by
  -- each round receives at least one byte, so that many rounds are enough
  induction rounds generalizing c w with
  | zero =>
      obtain ⟨⟨⟩, rfl⟩ := runs_done.1 h
      exact ⟨rfl, rfl, hb, .inl ⟨rfl, hc, by omega, hroom, rfl⟩⟩
  | succ rounds ih =>
      simp only [fillExact, Act.bind_apply, Act.get_apply, Prog.bind_done] at h
      split at h
      swap
      · rename_i hfull
        obtain ⟨⟨⟩, rfl⟩ := runs_done.1 h
        exact ⟨rfl, rfl, hb, .inl ⟨rfl, hc, by omega, hroom, rfl⟩⟩
      rename_i hshort
      simp only [Act.bind_apply, Act.call_apply, Prog.bind_call, Prog.bind_done, runs_call] at h
      obtain ⟨reply, w₁, hs, h⟩ := h
      cases hs with
      | recvFailed e he =>
          have hlost : faults = false → (ahead c w).length < n := by
            intro hfaults
            rcases he with hf | hf | hf
            · simp [hf] at hfaults
            · simp [hf] at hb
              simp [hb] at hfaults
            · rw [ahead, hf, List.append_nil]
              exact hshort
          cases e with
          | timeout =>
              obtain ⟨rfl, hc', rfl⟩ := runs_abort hc h
              exact ⟨rfl, rfl, hb, .inr ⟨_, rfl, hc', hlost⟩⟩
          | blocking =>
              obtain ⟨rfl, hc', rfl⟩ := runs_abort hc h
              exact ⟨rfl, rfl, hb, .inr ⟨_, rfl, hc', hlost⟩⟩
          | other what =>
              obtain ⟨rfl, hc', rfl⟩ := runs_abort hc h
              exact ⟨rfl, rfl, hb, .inr ⟨_, rfl, hc', hlost⟩⟩
      | recvClosed hf =>
          obtain ⟨rfl, hc', rfl⟩ := runs_abort hc h
          exact ⟨rfl, rfl, hb, .inr ⟨_, rfl, hc', by simp [hf]⟩⟩
      | recv data rest hne hle hs =>
          have hemp : data.isEmpty = false := by simp [hne]
          have hpos : 0 < data.length := List.length_pos_of_ne_nil hne
          simp only [hemp, Bool.false_eq_true, if_false, Act.bind_apply, Act.modify_apply,
            Prog.bind_done] at h
          have hchunk : recvBufferSize ≤ maxLineBytes := by decide
          obtain ⟨h₁, h₂, h₃, h₄⟩ :=
            ih (c := { c with recvBuffer := c.recvBuffer ++ data })
              (w := { w with stream := rest }) hc (by simp; omega) hb (by simp; omega) h
          have hahead : ahead { c with recvBuffer := c.recvBuffer ++ data }
              { w with stream := rest } = ahead c w := by
            simp [ahead, hs]
          rw [hahead] at h₄
          exact ⟨h₁, h₂, h₃, h₄⟩

/-- **`_read_exact` takes that many bytes of the text ahead.** -/
theorem follows_readExact (numBytes : ℤ) (timeout : Option ℚ) :
    Follows faults answers (readExact numBytes timeout) (primitive (.exact numBytes timeout)) := by
  have hprim : ∀ s, primitive (.exact numBytes timeout) s = if numBytes < 0 then
        .raised (.protocol ("Invalid byte count: ".toList ++ intToText numBytes)) s
      else if s.length < numBytes.toNat then .lost
      else .returned (s.take numBytes.toNat) (s.drop numBytes.toNat) := by
    intro s
    rw [primitive, consume_exact]
    rfl
  unfold readExact
  split
  · rename_i hneg
    intro c w r c' w' hc hroom hb h
    obtain ⟨⟨⟩, rfl⟩ := runs_done.1 h
    rw [hprim, if_pos hneg]
    exact ⟨rfl, rfl, hb, fun _ => List.suffix_refl _, fun _ => ⟨rfl, rfl⟩, by simp [hc],
      fun _ => hroom, by simp [hc]⟩
  · rename_i hneg
    refine Follows.requireSocket (Follows.withTimeout ?_ timeout)
    intro c w r c' w' hc hroom hb h
    rw [hprim, if_neg hneg]
    simp only [Act.bind_apply, runs_bind] at h
    obtain ⟨⟨x, c₁⟩, w₁, h₁, h₂⟩ := h
    obtain ⟨hcount, hreply, hblock, h₁ | h₁⟩ := fillExact_runs hc (by omega) hb (by omega) h₁
    · obtain ⟨rfl, hc₁, hfull, hfits, hahead⟩ := h₁
      simp only [Act.get_apply, Act.modify_apply, Prog.bind_done] at h₂
      obtain ⟨⟨⟩, rfl⟩ := runs_done.1 h₂
      have hlen : ¬(ahead c w).length < numBytes.toNat := by
        rw [← hahead, ahead]
        simp
        omega
      have hdrop : (ahead c w).drop numBytes.toNat
          = c₁.recvBuffer.drop numBytes.toNat ++ w'.stream := by
        rw [← hahead, ahead, List.drop_append_of_le_length hfull]
      have htake : (ahead c w).take numBytes.toNat = c₁.recvBuffer.take numBytes.toNat := by
        rw [← hahead, ahead, List.take_append_of_le_length hfull]
      rw [if_neg hlen, htake, hdrop]
      refine ⟨hcount, hreply, hblock, fun _ => ?_, fun _ => ⟨rfl, rfl⟩, by simp [hc₁],
        fun _ => ?_, by simp [hc₁]⟩
      · rw [ahead, ← hdrop]
        exact List.drop_suffix _ _
      · simp
        omega
    · obtain ⟨e, rfl, hc₁, hlost⟩ := h₁
      obtain ⟨⟨⟩, rfl⟩ := runs_done.1 h₂
      exact ⟨hcount, hreply, hblock, by simp [hc₁], by simp [hc₁], fun _ => ⟨e, rfl⟩,
        by simp [hc₁], fun _ hfaults => .inl (if_pos (hlost hfaults))⟩

/-! ### Readers -/

/-- A program of the primitives on the connection follows its meaning on the text. -/
theorem follows_interpret (p : Prog reads (Except AfmError α × Unit)) :
    Follows faults answers (interpret p) (consume p) := by
  induction p with
  | done r =>
      obtain ⟨r, -⟩ := r
      cases r with
      | ok a => exact Follows.ofExcept (.ok a)
      | error e => exact Follows.ofExcept (.error e)
  | call c next ih =>
      -- the meaning of a call is that of its primitive, and then that of the rest
      have hbind : ∀ s, consume (.call c next) s
          = (primitive c s).bind fun l => consume (next l) := by
        intro s
        cases c with
        | line timeout =>
            rw [primitive, consume_line, consume_line]
            cases cut isNewline s with
            | none => rfl
            | some q =>
                obtain ⟨line, rest⟩ := q
                simp only
                split
                · rfl
                cases decodeLine line <;> rfl
        | exact numBytes timeout =>
            rw [primitive, consume_exact, consume_exact]
            split
            · rfl
            split <;> rfl
      rw [funext hbind]
      cases c with
      | line timeout => exact Follows.bind (follows_readLine timeout) fun l => ih l
      | exact numBytes timeout => exact Follows.bind (follows_readExact numBytes timeout) fun l => ih l

/-- **A reader on the connection follows its meaning on the text.** -/
theorem follows_run (reader : Reader α) : Follows faults answers reader.run reader.on :=
  follows_interpret (reader ())

/-! ### Sending a command -/

/-- A command the client can send and the server answers: one line of ASCII, not empty. -/
def Sendable (command : Text) : Prop :=
  command ≠ [] ∧ isAscii command = true ∧ ∀ c ∈ command, c ≠ '\n' ∧ c ≠ '\r'

/-- The server received the command: it answers, unless the line is empty. -/
def Delivered (answers : Text → Text → Prop) (command : Text) (w w' : Link) : Prop :=
  (command ≠ [] ∧ ∃ reply, answers command reply ∧ w' = w.answer reply) ∨
    (command = [] ∧ w' = { w with count := w.count + 1, reply := none })

theorem linkStep_sendAll {message : Text} {w w' : Link} {r : Except SockError Unit}
    (h : LinkStep faults answers w (.sendAll message) r w') :
    (r = .ok () ∧ ∀ command, message = command ++ ['\n'] → Delivered answers command w w') ∨
      (faults = true ∧ ∃ e, r = .error e) := by
  cases h with
  | sendAll command reply hne ha =>
      refine .inl ⟨rfl, fun command' heq => ?_⟩
      obtain rfl := List.append_cancel_right heq
      exact .inl ⟨hne, reply, ha, rfl⟩
  | sendEmpty =>
      refine .inl ⟨rfl, fun command' heq => ?_⟩
      obtain rfl : [] = command' := List.append_cancel_right heq
      exact .inr ⟨rfl, rfl⟩
  | sendUnterminated _ hlast => exact .inl ⟨rfl, fun command' heq => by simp [heq] at hlast⟩
  | sendFailed _ e hf => exact .inr ⟨hf, e, rfl⟩
  | sendFailedLate _ _ e hf _ => exact .inr ⟨hf, e, rfl⟩

/-- `_send` delivers the command, or raises; without faults it raises only for a command it
cannot send. -/
theorem send_runs {command : Text} {c c' : State} {w w' : Link} {r : Except AfmError Unit}
    (hc : c.connected = true) (h : Runs (link faults answers) w (send command c) (r, c') w') :
    (r = .ok () ∧ c' = c ∧ Delivered answers command w w') ∨
      (∃ e, r = .error e ∧ (c'.connected = true → w' = w) ∧ (faults = false → ¬Sendable command)) := by
  simp only [send, Act.bind_apply, Act.get_apply, Prog.bind_done, hc, Bool.not_true,
    Bool.false_eq_true, if_false] at h
  split at h
  · rename_i hline
    obtain ⟨⟨⟩, rfl⟩ := runs_done.1 h
    refine .inr ⟨_, rfl, fun _ => rfl, fun _ hsend => ?_⟩
    obtain ⟨x, hx, hbad⟩ := List.any_eq_true.1 hline
    have := hsend.2.2 x hx
    simp [this.1, this.2] at hbad
  split at h
  · rename_i hascii
    obtain ⟨⟨⟩, rfl⟩ := runs_done.1 h
    refine .inr ⟨_, rfl, fun _ => rfl, fun _ hsend => ?_⟩
    simp [hsend.2.1] at hascii
  simp only [Act.bind_apply, Act.call_apply, Prog.bind_call, Prog.bind_done, runs_call] at h
  obtain ⟨reply, w₁, hs, h⟩ := h
  rcases linkStep_sendAll hs with ⟨rfl, hd⟩ | ⟨hf, e, rfl⟩
  · obtain ⟨⟨⟩, rfl⟩ := runs_done.1 h
    exact .inl ⟨rfl, rfl, hd command rfl⟩
  · obtain ⟨rfl, hc', rfl⟩ := runs_abort hc h
    exact .inr ⟨_, rfl, by simp [hc'], by simp [hf]⟩

/-- The loop of `_flush_buffer` when nothing is on the way. -/
theorem drain_runs {rounds : ℕ} {c c' : State} {w w' : Link} {r : Except AfmError Unit}
    (hs : w.stream = []) (h : Runs (link faults answers) w (drain rounds c) (r, c') w') :
    c' = c ∧ w' = w ∧ (r = .ok () ∨ (r = .error .running ∧ rounds = 0)) := by
  cases rounds with
  | zero =>
      obtain ⟨⟨⟩, rfl⟩ := runs_done.1 h
      exact ⟨rfl, rfl, .inr ⟨rfl, rfl⟩⟩
  | succ rounds =>
      simp only [drain, Act.bind_apply, Act.call_apply, Prog.bind_call, Prog.bind_done,
        runs_call] at h
      obtain ⟨reply, w₁, hstep, h⟩ := h
      cases hstep with
      | recv data rest hne _ hd =>
          rw [hs] at hd
          simp [hne] at hd
      | recvFailed =>
          obtain ⟨⟨⟩, rfl⟩ := runs_done.1 h
          exact ⟨rfl, rfl, .inl rfl⟩
      | recvClosed =>
          obtain ⟨⟨⟩, rfl⟩ := runs_done.1 h
          exact ⟨rfl, rfl, .inl rfl⟩

/-- `_flush_buffer` when nothing is on the way: it empties the buffer. -/
theorem flushBuffer_runs {rounds : ℕ} {c c' : State} {w w' : Link} {r : Except AfmError Unit}
    (hc : c.connected = true) (hs : w.stream = [])
    (h : Runs (link faults answers) w (flushBuffer rounds c) (r, c') w') :
    w'.stream = [] ∧ w'.count = w.count ∧ w'.reply = w.reply ∧
      ((r = .ok () ∧ c' = { c with recvBuffer := [] } ∧ (faults = false → w'.blocking = true)) ∨
        (∃ e, r = .error e ∧ (faults = false → rounds = 0))) := by
  simp only [flushBuffer, Act.bind_apply, Act.get_apply, Act.modify_apply, Prog.bind_done, hc,
    if_true, Act.call_apply, Prog.bind_call, runs_call] at h
  obtain ⟨reply, w₁, hstep, h⟩ := h
  cases hstep with
  | setBlockingFailed e hf =>
      obtain ⟨rfl, -, rfl⟩ := runs_abort (c := { connected := true }) rfl h
      exact ⟨hs, rfl, rfl, .inr ⟨_, rfl, by simp [hf]⟩⟩
  | setBlocking =>
      simp only [Act.withDestructor, runs_bind] at h
      obtain ⟨⟨x, c₁⟩, w₂, h₁, ⟨u, c₂⟩, w₃, h₂, h₃⟩ := h
      obtain ⟨rfl, rfl, hx⟩ := drain_runs (w := { w with blocking := false }) hs h₁
      simp only [Act.bind_apply, Act.call_apply, Prog.bind_call, Prog.bind_done, runs_call] at h₂
      obtain ⟨reply, w₄, hrestore, h₂⟩ := h₂
      obtain ⟨⟨⟩, rfl⟩ := runs_done.1 h₂
      obtain ⟨⟨⟩, rfl⟩ := runs_done.1 h₃
      cases hrestore with
      | setTimeout =>
          refine ⟨hs, rfl, rfl, ?_⟩
          rcases hx with rfl | ⟨rfl, hr⟩
          · exact .inl ⟨rfl, by rw [hc], fun _ => rfl⟩
          · exact .inr ⟨_, rfl, fun _ => hr⟩
      | setTimeoutFailed e _ hf =>
          refine ⟨hs, rfl, rfl, ?_⟩
          rcases hx with rfl | ⟨rfl, hr⟩
          · exact .inl ⟨rfl, by rw [hc], by simp [hf]⟩
          · exact .inr ⟨_, rfl, by simp [hf]⟩

/-- What a call that sends a command and reads its reply leaves, when nothing was on the way: it
raised before the command was delivered, or the reader worked on the reply alone. -/
inductive Queried (faults : Bool) (answers : Text → Text → Prop) (rounds : ℕ) (command : Text)
    (reader : Reader α) (w : Link) (r : Except AfmError α) (c' : State) (w' : Link) : Prop
  | unsent (e : AfmError) (hr : r = .error e) (hs : c'.connected = true → w'.stream = [])
      (hwhy : faults = false → rounds = 0 ∨ ¬Sendable command)
  | empty (hcommand : command = []) (hcount : w'.count = w.count + 1)
      (h : Followed faults [] (reader.on []) r c' w')
  | answered (reply : Text) (ha : answers command reply) (hcount : w'.count = w.count + 1)
      (hreply : w'.reply = some reply) (h : Followed faults reply (reader.on reply) r c' w')

/-- **A call reads the reply to its own command** when nothing was on the way. -/
theorem query_runs {rounds : ℕ} {command : Text} {reader : Reader α} {c c' : State} {w w' : Link}
    {r : Except AfmError α} (hc : c.connected = true) (hs : w.stream = [])
    (h : Runs (link faults answers) w ((do
      flushBuffer rounds
      send command
      reader.run : Method α) c) (r, c') w') :
    Queried faults answers rounds command reader w r c' w' := by
  simp only [Act.bind_apply, runs_bind] at h
  obtain ⟨⟨x, c₁⟩, w₁, h₁, h₂⟩ := h
  obtain ⟨hs₁, hcount₁, -, ⟨rfl, rfl, hblock⟩ | ⟨e, rfl, hwhy⟩⟩ := flushBuffer_runs hc hs h₁
  · simp only [runs_bind] at h₂
    obtain ⟨⟨y, c₂⟩, w₂, h₂, h₃⟩ := h₂
    rcases send_runs (c := { c with recvBuffer := [] }) hc h₂ with ⟨rfl, rfl, hd⟩ | ⟨e, rfl, hw, hwhy⟩
    · rcases hd with ⟨-, reply, ha, rfl⟩ | ⟨hemp, rfl⟩
      · obtain ⟨hcount, hreply, hF⟩ :=
          follows_run reader { c with recvBuffer := [] } (w₁.answer reply) _ _ _ hc
            (Nat.zero_le _) hblock h₃
        -- after the flush the reply is all there is to read
        have hahead : ahead { c with recvBuffer := [] } (w₁.answer reply) = reply := by
          simp [ahead, Link.answer, hs₁]
        rw [hahead] at hF
        refine .answered reply ha ?_ hreply hF
        rw [hcount, Link.answer, hcount₁]
      · obtain ⟨hcount, -, hF⟩ := follows_run reader { c with recvBuffer := [] }
          { w₁ with count := w₁.count + 1, reply := none } _ _ _ hc (Nat.zero_le _) hblock h₃
        have hahead : ahead { c with recvBuffer := [] }
            { w₁ with count := w₁.count + 1, reply := none } = [] := by
          simp [ahead, hs₁]
        rw [hahead] at hF
        refine .empty hemp ?_ hF
        rw [hcount, hcount₁]
    · obtain ⟨⟨⟩, rfl⟩ := runs_done.1 h₃
      exact .unsent e rfl (fun hc' => by rw [hw hc', hs₁]) fun hf => .inr (hwhy hf)
  · obtain ⟨⟨⟩, rfl⟩ := runs_done.1 h₂
    exact .unsent e rfl (fun _ => hs₁) fun hf => .inl (hwhy hf)

end Follows

end Client

end Afm
