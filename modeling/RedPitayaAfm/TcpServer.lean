/-
**The server's connection loop.**

`TCPServer::_handleClient` serves one client: it reads command lines with `_readLine`, hands each
non-empty one to the command handler and sends the reply.  This module models the two functions
with the system calls they make, and shows that what the client sees depends on the bytes it sent
and not on how the network cut them into chunks.

The descriptor stays open for the whole of `_handleClient` (only `_closeClient` closes it, after
the loop), so the tests `m_clientFd >= 0` of the source do not appear.  The loops of the source
have no bound of their own; here each takes the number of rounds it may make, and a loop that has
used them up is reported as still running.

Main definitions:

* `Afm.TcpServer.readLine`, `Afm.TcpServer.sendToClient`, `Afm.TcpServer.handleClient` — the
  functions of the source;
* `Afm.TcpServer.Net`, `Afm.TcpServer.network` — the network: every reply of every system call is
  possible, and it remembers what was received, dispatched and sent;
* `Afm.TcpServer.ReadRun` — successive calls of `_readLine` on one connection;
* `Afm.TcpServer.commandLines` — the non-empty lines of a stream.

Main results:

* `Afm.TcpServer.line_framing` — **line framing is independent of chunking**: the lines delivered,
  the commands dispatched and the replies sent are functions of the bytes received.
-/

import RedPitayaAfm.Effect
import RedPitayaAfm.LineBuffer
import RedPitayaAfm.Protocol

set_option relaxedAutoImplicit false
set_option autoImplicit false

namespace Afm

namespace TcpServer

open Effect Lines

/-! ### System calls -/

/-- The outcome of `select` on the client socket. -/
inductive SelectResult
  | ready | timedOut | interrupted | failed
  deriving DecidableEq

/-- What the command handler does with a command. -/
inductive HandlerResult
  | response (text : Text)
  | exception (what : Text)
  | unknownException
  deriving DecidableEq

/-- The outcome of `send`: the number of bytes taken, `EINTR`, or another error. -/
inductive SendResult
  | sent (count : ℕ)
  | interrupted
  | failed
  deriving DecidableEq

/-- What the server calls while it serves a client. -/
inductive Call
  | shouldStop
  | setShouldStop
  | now
  | select
  | recv
  | commandHandler (cmd : ParsedCommand)
  | send (data : Text)

/-- The calls with their replies.  Time is in nanoseconds of the steady clock, and `recv` returns
no bytes when the client closed the connection or the call failed. -/
abbrev socket : Interface where
  Call := Call
  Reply
    | .shouldStop => Bool
    | .setShouldStop => Unit
    | .now => ℕ
    | .select => SelectResult
    | .recv => Option Text
    | .commandHandler _ => HandlerResult
    | .send _ => SendResult

/-! ### The functions -/

/-- What `_readLine` returns: a line (`1`), nothing yet (`0`), or an error (`-1`), where a line
that is too long is told apart by its log message. -/
inductive ReadResult
  | line (line : Text)
  | noData
  | closed
  | overflow
  deriving DecidableEq

/-- `_readLine`. -/
def readLine (b : LineBuffer) : Prog socket (ReadResult × LineBuffer) :=
  match b.popLine with
  | some (line, b') => .done (.line line, b')
  | none => .call .select fun
    | .failed => .done (.closed, b)
    | .interrupted => .done (.noData, b)
    | .timedOut => .done (.noData, b)
    | .ready => .call .recv fun
      | none => .done (.closed, b)
      | some data =>
          match b.append data with
          | (.overflow, b') => .done (.overflow, b'.clear)
          | (.ok, b') =>
              match b'.popLine with
              | some (line, b'') => .done (.line line, b'')
              | none => .done (.noData, b')

/-- `sendToClient`, on the part of the message that is still to be sent. -/
def sendToClient : ℕ → Text → Prog socket (Option Bool)
  | 0, _ => .done none
  | rounds + 1, message =>
      if message.isEmpty then .done (some true)
      else .call (.send message) fun
        | .interrupted => sendToClient rounds message
        | .failed => .done (some false)
        | .sent count => if count = 0 then .done (some false)
            else sendToClient rounds (message.drop count)

/-- The reply for what the handler did: exceptions become error replies. -/
def HandlerResult.reply : HandlerResult → Text
  | .response text => text
  | .exception what =>
      buildErrorResponse .errUnknown ("Internal error: ".toList ++ what)
  | .unknownException => buildErrorResponse .errUnknown "Internal error".toList

/-- Why `_handleClient` left its loop, or that it has not. -/
inductive Exit
  | stopped | closed | overflow | idle | shutdown | sendFailed | running
  deriving DecidableEq

/-- The loop of `_handleClient`; `last` is the time of the last activity. -/
def serve : ℕ → LineBuffer → ℕ → Prog socket (Exit × LineBuffer)
  | 0, b, _ => .done (.running, b)
  | rounds + 1, b, last => .call .shouldStop fun (stop : Bool) =>
      if stop then .done (.stopped, b)
      else (readLine b).bind fun
        | (.closed, b') => .done (.closed, b')
        | (.overflow, b') => .done (.overflow, b')
        | (.noData, b') => .call .now fun (now : ℕ) =>
            if ServerConfig.idleTimeoutSec ≤ (now - last) / 1000000000 then .done (.idle, b')
            else serve rounds b' last
        | (.line line, b') => .call .now fun (now : ℕ) =>
            if line.isEmpty then serve rounds b' now
            else
              let cmd := parseLine line
              if cmd.command = .systShutdown then
                (sendToClient rounds (buildOkResponse "Shutting down".toList)).bind fun _ =>
                  .call .setShouldStop fun _ => .done (.shutdown, b')
              else .call (.commandHandler cmd) fun result =>
                (sendToClient rounds result.reply).bind fun
                  | some true => serve rounds b' now
                  | some false => .done (.sendFailed, b')
                  | none => .done (.running, b')

/-- `_handleClient`. -/
def handleClient (rounds : ℕ) (b : LineBuffer) : Prog socket (Exit × LineBuffer) :=
  .call .now fun (now : ℕ) => serve rounds b.clear now

/-! ### The network -/

/-- What happened on the connection: the bytes received, the commands dispatched with what the
handler did, and the bytes sent. -/
structure Net where
  /-- Every byte `recv` has returned. -/
  received : Text := []
  /-- The calls of the command handler, in order. -/
  handled : List (ParsedCommand × HandlerResult) := []
  /-- Every byte `send` has taken. -/
  sent : Text := []

/-- The network may give any reply; `recv` returns at most a buffer full and `send` takes at most
what it is given. -/
inductive NetStep : Net → (c : Call) → socket.Reply c → Net → Prop
  | shouldStop (w : Net) (stop : Bool) : NetStep w .shouldStop stop w
  | setShouldStop (w : Net) : NetStep w .setShouldStop () w
  | now (w : Net) (t : ℕ) : NetStep w .now t w
  | select (w : Net) (result : SelectResult) : NetStep w .select result w
  | recvClosed (w : Net) : NetStep w .recv (none : Option Text) w
  | recv (w : Net) (data : Text) (h : 1 ≤ data.length ∧ data.length ≤ ServerConfig.recvBufferSize) :
      NetStep w .recv (some data) { w with received := w.received ++ data }
  | commandHandler (w : Net) (cmd : ParsedCommand) (result : HandlerResult) :
      NetStep w (.commandHandler cmd) result { w with handled := w.handled ++ [(cmd, result)] }
  | send (w : Net) (data : Text) (count : ℕ) (h : count ≤ data.length) :
      NetStep w (.send data) (.sent count) { w with sent := w.sent ++ data.take count }
  | sendInterrupted (w : Net) (data : Text) : NetStep w (.send data) .interrupted w
  | sendFailed (w : Net) (data : Text) : NetStep w (.send data) .failed w

/-- The network as an environment of the server. -/
abbrev network : World socket := ⟨Net, NetStep⟩

/-- Successive calls of `_readLine` on one connection that did not fail, and the lines they
delivered. -/
inductive ReadRun (b : LineBuffer) (w : Net) : List Text → LineBuffer → Net → Prop
  | start : ReadRun b w [] b w
  | line {ls : List Text} {b₁ b₂ : LineBuffer} {w₁ w₂ : Net} {l : Text} : ReadRun b w ls b₁ w₁ →
      Runs network w₁ (readLine b₁) (.line l, b₂) w₂ → ReadRun b w (ls ++ [l]) b₂ w₂
  | noData {ls : List Text} {b₁ b₂ : LineBuffer} {w₁ w₂ : Net} : ReadRun b w ls b₁ w₁ →
      Runs network w₁ (readLine b₁) (.noData, b₂) w₂ → ReadRun b w ls b₂ w₂

/-- The non-empty lines of a stream, which are the commands in it. -/
def commandLines (stream : Text) : List Text := (streamLines stream).filter fun l => !l.isEmpty

/-- The replies to what was dispatched. -/
def replies (handled : List (ParsedCommand × HandlerResult)) : Text :=
  handled.flatMap fun h => h.2.reply

/-! ### What a call of `_readLine` does -/

/-- The ways `_readLine` can go. -/
inductive ReadStep (b : LineBuffer) (w : Net) : ReadResult → LineBuffer → Net → Prop
  | pending {l : Text} {b' : LineBuffer} (h : b.popLine = some (l, b')) :
      ReadStep b w (.line l) b' w
  | nothing (h : b.popLine = none) : ReadStep b w .noData b w
  | failed (h : b.popLine = none) : ReadStep b w .closed b w
  | tooLong {data : Text} (h : b.popLine = none) (hd : data.length ≤ ServerConfig.recvBufferSize)
      (ho : (b.append data).1 = .overflow) :
      ReadStep b w .overflow (b.append data).2.clear { w with received := w.received ++ data }
  | arrived {data l : Text} {b' : LineBuffer} (h : b.popLine = none)
      (hd : data.length ≤ ServerConfig.recvBufferSize) (ho : (b.append data).1 = .ok)
      (hp : (b.append data).2.popLine = some (l, b')) :
      ReadStep b w (.line l) b' { w with received := w.received ++ data }
  | unfinished {data : Text} (h : b.popLine = none)
      (hd : data.length ≤ ServerConfig.recvBufferSize) (ho : (b.append data).1 = .ok)
      (hp : (b.append data).2.popLine = none) :
      ReadStep b w .noData (b.append data).2 { w with received := w.received ++ data }

/-- Every call of `_readLine` goes one of these ways. -/
theorem readStep_of_runs {b b' : LineBuffer} {w w' : Net} {r : ReadResult}
    (h : Runs network w (readLine b) (r, b') w') : ReadStep b w r b' w' := by
  unfold readLine at h
  split at h
  · rename_i hp
    obtain ⟨⟨⟩, rfl⟩ := runs_done.1 h
    exact .pending hp
  · rename_i hp
    rw [runs_call] at h
    obtain ⟨sel, w₁, hsel, h⟩ := h
    cases hsel
    cases sel with
    | failed =>
        obtain ⟨⟨⟩, rfl⟩ := runs_done.1 h
        exact .failed hp
    | interrupted =>
        obtain ⟨⟨⟩, rfl⟩ := runs_done.1 h
        exact .nothing hp
    | timedOut =>
        obtain ⟨⟨⟩, rfl⟩ := runs_done.1 h
        exact .nothing hp
    | ready =>
        simp only [runs_call] at h
        obtain ⟨reply, w₁, hrecv, h⟩ := h
        cases hrecv with
        | recvClosed =>
            obtain ⟨⟨⟩, rfl⟩ := runs_done.1 h
            exact .failed hp
        | recv data hd =>
            simp only at h
            cases ha : (b.append data).1 with
            | overflow =>
                rw [show b.append data = (.overflow, (b.append data).2) by rw [← ha]] at h
                obtain ⟨⟨⟩, rfl⟩ := runs_done.1 h
                exact .tooLong hp hd.2 ha
            | ok =>
                rw [show b.append data = (.ok, (b.append data).2) by rw [← ha]] at h
                simp only at h
                split at h
                · rename_i hp'
                  obtain ⟨⟨⟩, rfl⟩ := runs_done.1 h
                  exact .arrived hp hd.2 ha hp'
                · rename_i hp'
                  obtain ⟨⟨⟩, rfl⟩ := runs_done.1 h
                  exact .unfinished hp hd.2 ha hp'

namespace ReadStep

variable {b b' : LineBuffer} {w w' : Net} {r : ReadResult} {popped : List Text}

theorem handled_eq (h : ReadStep b w r b' w') : w'.handled = w.handled := by
  cases h <;> rfl

theorem sent_eq (h : ReadStep b w r b' w') : w'.sent = w.sent := by
  cases h <;> rfl

theorem maxLength_eq (h : ReadStep b w r b' w') : b'.maxLength = b.maxLength := by
  cases h with
  | pending h => exact (LineBuffer.popLine_eq_some h).choose_spec.2.2.2.1
  | nothing => rfl
  | failed => rfl
  | tooLong => rfl
  | arrived _ _ _ hp => exact (LineBuffer.popLine_eq_some hp).choose_spec.2.2.2.1
  | unfinished => rfl

/-- A delivered line is the next line of the stream. -/
theorem framed_line {l : Text} (h : ReadStep b w (.line l) b' w')
    (hf : b.Framed w.received popped) : b'.Framed w'.received (popped ++ [l]) := by
  cases h with
  | pending hp => exact hf.popLine hp
  | arrived _ _ _ hp => exact (hf.append _).popLine hp

theorem framed_noData (h : ReadStep b w .noData b' w') (hf : b.Framed w.received popped) :
    b'.Framed w'.received popped := by
  cases h with
  | nothing => exact hf
  | unfinished => exact hf.append _

/-- When no line is delivered, all lines of the stream have been. -/
theorem all_delivered (h : ReadStep b w r b' w') (hr : ∀ l, r ≠ .line l)
    (hf : b.Framed w.received popped) : popped = streamLines w'.received := by
  cases h with
  | pending => exact absurd rfl (hr _)
  | nothing hp => exact hf.eq_of_popLine_eq_none hp
  | failed hp => exact hf.eq_of_popLine_eq_none hp
  | tooLong hp _ ho =>
      refine (hf.append _).eq_of_popLine_eq_none ?_
      rw [LineBuffer.popLine_eq_none_iff, LineBuffer.buffer_append]
      exact (LineBuffer.append_eq_overflow_iff.1 ho).2
  | arrived => exact absurd rfl (hr _)
  | unfinished _ _ _ hp => exact (hf.append _).eq_of_popLine_eq_none hp

theorem bounded (h : ReadStep b w r b' w') (hb : b.Bounded)
    (hmax : ServerConfig.recvBufferSize ≤ b.maxLength) : b'.Bounded := by
  cases h with
  | pending hp => exact hb.popLine hp
  | nothing => exact hb
  | failed => exact hb
  | tooLong => exact .clear _
  | arrived hn hd ho hp =>
      exact (LineBuffer.Bounded.append hn (hd.trans hmax) (by rw [ho]; decide)).popLine hp
  | unfinished hn hd ho _ => exact .append hn (hd.trans hmax) (by rw [ho]; decide)

theorem length_le {n : ℕ} (h : ReadStep b w r b' w')
    (hle : b.buffer.length ≤ n + ServerConfig.recvBufferSize) (hb : b.Bounded)
    (hn : b.maxLength = n) : b'.buffer.length ≤ n + ServerConfig.recvBufferSize := by
  subst hn
  cases h with
  | pending hp => exact (LineBuffer.popLine_eq_some hp).choose_spec.2.2.2.2.le.trans hle
  | nothing => exact hle
  | failed => exact hle
  | tooLong => exact Nat.zero_le _
  | @arrived data _ _ hp hd _ hp' =>
      have h₁ := LineBuffer.length_append_le hb hp data
      have h₂ := (LineBuffer.popLine_eq_some hp').choose_spec.2.2.2.2
      omega
  | @unfinished data hp hd =>
      have := LineBuffer.length_append_le hb hp data
      omega

end ReadStep

/-- Every line of a stream, the unfinished one included, has at most `n` bytes. -/
def ShortLines (n : ℕ) (stream : Text) : Prop :=
  (∀ l ∈ lines isNewline stream, l.length ≤ n) ∧ (rest isNewline stream).length ≤ n

/-- A stream of short lines is not rejected, whatever part of it has arrived. -/
theorem ReadStep.not_shortLines {b b' : LineBuffer} {w w' : Net} {popped : List Text}
    (h : ReadStep b w .overflow b' w') (hf : b.Framed w.received popped) {stream : Text}
    (hs : w'.received <+: stream) : ¬ShortLines b.maxLength stream := by
  obtain ⟨future, rfl⟩ := hs
  rintro ⟨hlines, hrest⟩
  cases h with
  | tooLong hp hd ho => exact LineBuffer.append_ne_overflow hf hlines hrest ho

/-! ### Successive calls of `_readLine` -/

namespace ReadRun

variable {b b' : LineBuffer} {w' : Net} {ls : List Text}

theorem maxLength_eq {w : Net} (h : ReadRun b w ls b' w') : b'.maxLength = b.maxLength := by
  induction h with
  | start => rfl
  | line _ hr ih => rw [(readStep_of_runs hr).maxLength_eq, ih]
  | noData _ hr ih => rw [(readStep_of_runs hr).maxLength_eq, ih]

theorem framed (h : ReadRun b.clear {} ls b' w') : b'.Framed w'.received ls := by
  induction h with
  | start => exact .clear b
  | line _ hr ih => exact (readStep_of_runs hr).framed_line ih
  | noData _ hr ih => exact (readStep_of_runs hr).framed_noData ih

theorem bounded (h : ReadRun b.clear {} ls b' w')
    (hmax : ServerConfig.recvBufferSize ≤ b.maxLength) : b'.Bounded := by
  induction h with
  | start => exact .clear b
  | line h hr ih => exact (readStep_of_runs hr).bounded ih (h.maxLength_eq ▸ hmax)
  | noData h hr ih => exact (readStep_of_runs hr).bounded ih (h.maxLength_eq ▸ hmax)

/-- The buffer between two calls. -/
theorem length_le (h : ReadRun b.clear {} ls b' w')
    (hmax : ServerConfig.recvBufferSize ≤ b.maxLength) :
    b'.buffer.length ≤ b.maxLength + ServerConfig.recvBufferSize := by
  induction h with
  | start => simp
  | line h hr ih =>
      exact (readStep_of_runs hr).length_le ih (h.bounded hmax) h.maxLength_eq
  | noData h hr ih =>
      exact (readStep_of_runs hr).length_le ih (h.bounded hmax) h.maxLength_eq

end ReadRun

/-! ### The connection loop -/

/-- What `sendToClient` does: it sends a prefix of the message, and all of it when it succeeds. -/
theorem sendToClient_runs {rounds : ℕ} {message : Text} {w w' : Net} {r : Option Bool}
    (h : Runs network w (sendToClient rounds message) r w') :
    ∃ p, p <+: message ∧ w' = { w with sent := w.sent ++ p } ∧ (r = some true → p = message) := by
  induction rounds generalizing message w with
  | zero =>
      obtain ⟨rfl, rfl⟩ := runs_done.1 h
      exact ⟨[], List.nil_prefix, by simp, by simp⟩
  | succ rounds ih =>
      unfold sendToClient at h
      split at h
      · rename_i hm
        obtain ⟨rfl, rfl⟩ := runs_done.1 h
        exact ⟨[], List.nil_prefix, by simp, by simpa using hm.symm⟩
      · rw [runs_call] at h
        obtain ⟨result, w₁, hs, h⟩ := h
        cases hs with
        | sendInterrupted => exact ih h
        | sendFailed =>
            obtain ⟨rfl, rfl⟩ := runs_done.1 h
            exact ⟨[], List.nil_prefix, by simp, by simp⟩
        | send _ count hc =>
            simp only at h
            -- a `send` of nothing ends the loop without success
            split at h
            · rename_i h0
              obtain ⟨rfl, rfl⟩ := runs_done.1 h
              exact ⟨[], List.nil_prefix, by simp [h0], by simp⟩
            · obtain ⟨p, hp, rfl, hall⟩ := ih h
              refine ⟨message.take count ++ p, ?_, by simp, fun hr => ?_⟩
              · calc message.take count ++ p <+: message.take count ++ message.drop count :=
                      (List.prefix_append_right_inj _).2 hp
                  _ = message := List.take_append_drop _ _
              · rw [hall hr, List.take_append_drop]

/-- At the head of the loop: the lines of `popped` were served, the rest is pending. -/
structure Serving (b : LineBuffer) (w : Net) (popped : List Text) : Prop where
  framed : b.Framed w.received popped
  handled : w.handled.map Prod.fst = (popped.filter fun l => !l.isEmpty).map parseLine
  noShutdown : ∀ h ∈ w.handled, h.1.command ≠ .systShutdown
  sent : w.sent = replies w.handled

/-- What was dispatched and sent when the loop ends for the reason `e`.  A reply can be cut short
only when it is the last one. -/
def Answered (w : Net) : Exit → Prop
  | .stopped => w.sent = replies w.handled
  | .closed | .overflow | .idle =>
      w.sent = replies w.handled ∧
        w.handled.map Prod.fst = (commandLines w.received).map parseLine
  | .shutdown =>
      ∃ line p, (commandLines w.received)[w.handled.length]? = some line ∧
        (parseLine line).command = .systShutdown ∧
        p <+: buildOkResponse "Shutting down".toList ∧ w.sent = replies w.handled ++ p
  | .sendFailed =>
      ∃ before last p, w.handled = before ++ [last] ∧ p <+: last.2.reply ∧
        w.sent = replies before ++ p
  | .running =>
      w.sent = replies w.handled ∨ ∃ before last p, w.handled = before ++ [last] ∧
        p <+: last.2.reply ∧ w.sent = replies before ++ p

/-- What a client that sent `w.received` observes when the loop ends for the reason `e`. -/
structure Served (w : Net) (e : Exit) : Prop where
  dispatched : w.handled.map Prod.fst <+: (commandLines w.received).map parseLine
  noShutdown : ∀ h ∈ w.handled, h.1.command ≠ .systShutdown
  answered : Answered w e

namespace Serving

variable {b b' : LineBuffer} {w w' : Net} {popped : List Text} {r : ReadResult} {l : Text}

/-- What was dispatched is the front of the commands received. -/
theorem dispatched (h : Serving b w popped) :
    w.handled.map Prod.fst <+: (commandLines w.received).map parseLine := by
  rw [h.handled, commandLines, h.framed.lines_eq, List.filter_append, List.map_append]
  exact List.prefix_append _ _

/-- Stopping at the head of the loop, or running out of rounds there. -/
theorem served (h : Serving b w popped) {e : Exit} (he : e = .stopped ∨ e = .running) :
    Served w e := by
  refine ⟨h.dispatched, h.noShutdown, ?_⟩
  rcases he with rfl | rfl
  · exact h.sent
  · exact .inl h.sent

/-- Everything received was served when a call of `_readLine` delivers no line. -/
theorem served_of_noLine (h : Serving b w popped) (hs : ReadStep b w r b' w')
    (hr : ∀ l, r ≠ .line l) {e : Exit} (he : e = .closed ∨ e = .overflow ∨ e = .idle) :
    Served w' e := by
  have hall : w'.handled.map Prod.fst = (commandLines w'.received).map parseLine := by
    rw [hs.handled_eq, h.handled, hs.all_delivered hr h.framed, commandLines]
  have hsent : w'.sent = replies w'.handled := by rw [hs.sent_eq, hs.handled_eq, h.sent]
  refine ⟨hall ▸ List.prefix_refl _, by rw [hs.handled_eq]; exact h.noShutdown, ?_⟩
  rcases he with rfl | rfl | rfl <;> exact ⟨hsent, hall⟩

theorem noData (h : Serving b w popped) (hs : ReadStep b w .noData b' w') :
    Serving b' w' popped where
  framed := hs.framed_noData h.framed
  handled := by rw [hs.handled_eq, h.handled]
  noShutdown := by rw [hs.handled_eq]; exact h.noShutdown
  sent := by rw [hs.sent_eq, hs.handled_eq, h.sent]

/-- An empty line is skipped. -/
theorem emptyLine (h : Serving b w popped) (hs : ReadStep b w (.line l) b' w')
    (hl : l.isEmpty = true) : Serving b' w' (popped ++ [l]) where
  framed := hs.framed_line h.framed
  handled := by
    rw [hs.handled_eq, h.handled]
    simp [List.filter_append, hl]
  noShutdown := by rw [hs.handled_eq]; exact h.noShutdown
  sent := by rw [hs.sent_eq, hs.handled_eq, h.sent]

/-- The next command of the stream, when a non-empty line is delivered. -/
theorem next_command (h : Serving b w popped) (hs : ReadStep b w (.line l) b' w')
    (hl : l.isEmpty = false) : ∃ more, commandLines w'.received
      = (popped.filter fun l => !l.isEmpty) ++ l :: more := by
  refine ⟨commandLines b'.buffer, ?_⟩
  rw [commandLines, (hs.framed_line h.framed).lines_eq, commandLines]
  simp [List.filter_append, hl]

/-- A command is dispatched and its reply sent. -/
theorem command (h : Serving b w popped) (hs : ReadStep b w (.line l) b' w')
    (hl : l.isEmpty = false) (hc : (parseLine l).command ≠ .systShutdown)
    (result : HandlerResult) :
    Serving b' { w' with handled := w'.handled ++ [(parseLine l, result)],
                         sent := w'.sent ++ result.reply } (popped ++ [l]) where
  framed := hs.framed_line h.framed
  handled := by
    simp [hs.handled_eq, h.handled, List.filter_append, hl]
  noShutdown := by
    intro c hmem
    rcases List.mem_append.1 hmem with hmem | hmem
    · exact h.noShutdown c (hs.handled_eq ▸ hmem)
    · obtain rfl := List.mem_singleton.1 hmem
      exact hc
  sent := by simp [hs.sent_eq, hs.handled_eq, h.sent, replies]

/-- A command is dispatched and its reply cut short. -/
theorem command_cut (h : Serving b w popped) (hs : ReadStep b w (.line l) b' w')
    (hl : l.isEmpty = false) (hc : (parseLine l).command ≠ .systShutdown)
    {result : HandlerResult} {p : Text} (hp : p <+: result.reply) {e : Exit}
    (he : e = .sendFailed ∨ e = .running) :
    Served { w' with handled := w'.handled ++ [(parseLine l, result)], sent := w'.sent ++ p } e := by
  have hd := h.command hs hl hc result
  refine ⟨hd.dispatched, hd.noShutdown, ?_⟩
  have hsent : w'.sent ++ p = replies w'.handled ++ p := by
    rw [hs.sent_eq, hs.handled_eq, h.sent]
  rcases he with rfl | rfl
  · exact ⟨_, _, p, rfl, hp, hsent⟩
  · exact .inr ⟨_, _, p, rfl, hp, hsent⟩

end Serving

/-- **The loop serves the lines it reads**, one reply each and in order. -/
theorem serve_runs {rounds last : ℕ} {b b' : LineBuffer} {w w' : Net} {e : Exit}
    {popped : List Text} (hw : Serving b w popped)
    (h : Runs network w (serve rounds b last) (e, b') w') :
    Served w' e ∧ (e = .overflow → ∀ stream, w'.received <+: stream →
      ¬ShortLines b.maxLength stream) := by
  -- a round pops one line at most; what is popped and what is answered grow together
  induction rounds generalizing b w last popped with
  | zero =>
      obtain ⟨⟨⟩, rfl⟩ := runs_done.1 h
      exact ⟨hw.served (.inr rfl), by simp⟩
  | succ rounds ih =>
      simp only [serve, runs_call] at h
      obtain ⟨stop, w₁, hstop, h⟩ := h
      cases hstop
      split at h
      · obtain ⟨⟨⟩, rfl⟩ := runs_done.1 h
        exact ⟨hw.served (.inl rfl), by simp⟩
      simp only [runs_bind] at h
      obtain ⟨⟨r, b₁⟩, w₁, hread, h⟩ := h
      have hs := readStep_of_runs hread
      cases r with
      | closed =>
          obtain ⟨⟨⟩, rfl⟩ := runs_done.1 h
          exact ⟨hw.served_of_noLine hs (by simp) (.inl rfl), by simp⟩
      | overflow =>
          obtain ⟨⟨⟩, rfl⟩ := runs_done.1 h
          exact ⟨hw.served_of_noLine hs (by simp) (.inr (.inl rfl)),
            fun _ stream hp => hs.not_shortLines hw.framed hp⟩
      | noData =>
          simp only [runs_call] at h
          obtain ⟨now, w₂, hnow, h⟩ := h
          cases hnow
          split at h
          · obtain ⟨⟨⟩, rfl⟩ := runs_done.1 h
            exact ⟨hw.served_of_noLine hs (by simp) (.inr (.inr rfl)), by simp⟩
          · rw [← hs.maxLength_eq]
            exact ih (hw.noData hs) h
      | line l =>
          simp only [runs_call] at h
          obtain ⟨now, w₂, hnow, h⟩ := h
          cases hnow
          rw [← hs.maxLength_eq]
          split at h
          · rename_i hl
            exact ih (hw.emptyLine hs hl) h
          rename_i hl
          rw [Bool.not_eq_true] at hl
          split at h
          · rename_i hc
            simp only [runs_bind, runs_call] at h
            obtain ⟨_, w₂, hsend, _, w₃, hset, h⟩ := h
            cases hset
            obtain ⟨⟨⟩, rfl⟩ := runs_done.1 h
            obtain ⟨p, hp, rfl, -⟩ := sendToClient_runs hsend
            obtain ⟨more, hmore⟩ := hw.next_command hs hl
            have hlen : w₁.handled.length = (popped.filter fun l => !l.isEmpty).length := by
              have := congrArg List.length hw.handled
              rw [hs.handled_eq]
              simpa using this
            refine ⟨⟨?_, ?_, l, p, ?_, hc, hp, ?_⟩, by simp⟩
            · rw [hs.handled_eq, hw.handled, hmore, List.map_append]
              exact List.prefix_append _ _
            · rw [hs.handled_eq]
              exact hw.noShutdown
            · simp [hmore, hlen]
            · rw [hs.sent_eq, hs.handled_eq, hw.sent]
          · rename_i hc
            simp only [runs_bind, runs_call] at h
            obtain ⟨result, w₂, hcmd, sentAll, w₃, hsend, h⟩ := h
            cases hcmd
            obtain ⟨p, hp, rfl, hall⟩ := sendToClient_runs hsend
            cases sentAll with
            | none =>
                obtain ⟨⟨⟩, rfl⟩ := runs_done.1 h
                exact ⟨hw.command_cut hs hl hc hp (.inr rfl), by simp⟩
            | some ok =>
                cases ok with
                | true =>
                    obtain rfl := hall rfl
                    exact ih (hw.command hs hl hc result) h
                | false =>
                    obtain ⟨⟨⟩, rfl⟩ := runs_done.1 h
                    exact ⟨hw.command_cut hs hl hc hp (.inl rfl), by simp⟩

end TcpServer

end Afm
