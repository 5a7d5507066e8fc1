/-
**The Python client.**

`AFMClient` sends a command line and reads one reply.  Its readers are written over two primitives:
`_read_line`, which waits for a newline, and `_read_exact`, which waits for a number of bytes.  The
model keeps that layering.  A reader is a program over the two primitives; the primitives are
programs over the socket; and a reader also has a meaning on a plain text, which is what it returns
when the text is all that ever arrives.

Main definitions:

* `Afm.Client.State`, `Afm.Client.AfmError` — the object's fields and its exceptions;
* `Afm.Client.flushBuffer`, `Afm.Client.send`, `Afm.Client.readLine`, `Afm.Client.readExact` — the
  low-level communication;
* `Afm.Client.executeReply`, `Afm.Client.boardStatusReply`, `Afm.Client.spectrumReply` — the readers;
* `Afm.Client.sendCommand`, `Afm.Client.getBoardStatus`, `Afm.Client.measure` — the calls;
* `Afm.Client.Reader.on` — what a reader makes of a text.

Main results:

* `Afm.Client.Reader.on_bind` with its companions — the meaning of a reader on a text, computed.
-/

import RedPitayaAfm.Effect
import RedPitayaAfm.LineBuffer
import RedPitayaAfm.PyText

set_option relaxedAutoImplicit false
set_option autoImplicit false

namespace Afm

namespace Client

open Effect Lines

/-! ### Constants -/

/-- `RECV_BUFFER_SIZE`. -/
def recvBufferSize : ℕ := 65536

/-- `MAX_LINE_BYTES`. -/
def maxLineBytes : ℕ := 2 ^ 20

/-- `MAX_SPECTRUM_ROWS`. -/
def maxSpectrumRows : ℕ := 65536

/-- `MAX_SPECTRUM_BYTES`. -/
def maxSpectrumBytes : ℕ := 8 * 2 ^ 20

/-- `MAX_BOARD_STATUS_LINES`. -/
def maxBoardStatusLines : ℕ := 256

/-! ### The socket -/

/-- What a socket method can raise. -/
inductive SockError
  | timeout
  | blocking
  | other (what : Text)
  deriving DecidableEq

/-- The text of an exception. -/
def SockError.text : SockError → Text
  | .timeout => "timed out".toList
  | .blocking => "Resource temporarily unavailable".toList
  | .other what => what

/-- The socket methods the client calls.  `setTimeout` is `settimeout`, with nothing for the
client's own timeout; `close` is `shutdown` and `close`, whose errors are ignored. -/
inductive Call
  | setBlocking
  | setTimeout (seconds : Option ℚ)
  | recv
  | sendAll (message : Text)
  | close

/-- The socket: `recv` returns bytes, none of them when the server closed the connection. -/
abbrev sock : Interface where
  Call := Call
  Reply
    | .setBlocking => Except SockError Unit
    | .setTimeout _ => Except SockError Unit
    | .recv => Except SockError Text
    | .sendAll _ => Except SockError Unit
    | .close => Unit

/-! ### The object -/

/-- The exceptions of the client.  `value` is a `ValueError` that the client does not catch;
`running` is none of the source, but marks a loop that has not ended within the rounds given to
it. -/
inductive AfmError
  | connection (message : Text)
  | command (response : Text)
  | protocol (message : Text)
  | timeout (message : Text)
  | value
  | running
  deriving DecidableEq

/-- The fields of `AFMClient` that change: whether `_socket` is set, and `_recv_buffer`. -/
structure State where
  /-- `_socket is not None`. -/
  connected : Bool := false
  /-- `_recv_buffer`. -/
  recvBuffer : Text := []
  deriving DecidableEq

/-- A method of the client. -/
abbrev Method (α : Type) := Act sock State AfmError α

/-- A call of the socket. -/
abbrev callSock (c : Call) : Method (sock.Reply c) := Act.call (I := sock) c

/-- `disconnect`. -/
def disconnect : Method Unit := do
  let c ← Act.get
  Act.modify fun c => { c with connected := false }
  if c.connected then
    callSock .close
    Act.modify fun c => { c with recvBuffer := [] }

/-- Disconnect and raise. -/
def abort {α : Type} (e : AfmError) : Method α := do
  disconnect
  Act.throw e

/-- The loop of `_flush_buffer`: read until the socket has nothing more. -/
def drain : ℕ → Method Unit
  | 0 => Act.throw .running
  | rounds + 1 => do
      match ← callSock .recv with
      | .ok data => if data.isEmpty then pure () else drain rounds
      | .error _ => pure ()

/-- `_flush_buffer`. -/
def flushBuffer (rounds : ℕ) : Method Unit := do
  Act.modify fun c => { c with recvBuffer := [] }
  let c ← Act.get
  if c.connected then
    match ← callSock .setBlocking with
    | .error e => abort (.connection ("Receive failed: ".toList ++ e.text))
    | .ok () => Act.withDestructor (drain rounds) do
        let _ ← callSock (.setTimeout none)

/-- `_send`. -/
def send (command : Text) : Method Unit := do
  let c ← Act.get
  if !c.connected then Act.throw (.connection "Not connected".toList)
  else if command.any fun c => c == '\n' || c == '\r' then
    Act.throw (.command "Command must be a single line".toList)
  else if !isAscii command then
    Act.throw (.command "Command contains non-ASCII characters".toList)
  else
    match ← callSock (.sendAll (command ++ ['\n'])) with
    | .ok () => pure ()
    | .error e => abort (.connection ("Send failed: ".toList ++ e.text))

/-- How a failed `recv` of the two primitives ends. -/
def recvFailed {α : Type} : SockError → Method α
  | .timeout => abort (.timeout "Read timeout (connection closed to avoid stale data)".toList)
  | e => abort (.connection ("Receive failed: ".toList ++ e.text))

/-- The first lines of the two primitives: they need a socket. -/
def requireSocket {α : Type} (m : Method α) : Method α := fun c =>
  if c.connected then m c else Act.throw (.connection "Not connected".toList) c

/-- The `try … finally` around the two primitives: a temporary timeout, if there is one, and its
restoration when the socket is still open. -/
def withTimeout {α : Type} (timeout : Option ℚ) (m : Method α) : Method α :=
  match timeout with
  | none => m
  | some _ => Act.withDestructor
      (do
        match ← callSock (.setTimeout timeout) with
        | .ok () => m
        | .error e => abort (.connection ("Receive failed: ".toList ++ e.text)))
      (do
        let c ← Act.get
        if c.connected then
          let _ ← callSock (.setTimeout none))

/-- `_read_line` gives up on a line that is too long. -/
def lineTooLong {α : Type} : Method α :=
  abort (.protocol ("Response line exceeds ".toList ++ toText maxLineBytes ++ " bytes".toList))

/-- The loop of `_read_line`: the line and what follows it, once the buffer holds a newline.  Every
round adds a byte, so with `MAX_LINE_BYTES + 2` rounds the length test ends it first. -/
def fillLine : ℕ → Method (Text × Text)
  | 0 => fun c => match cut isNewline c.recvBuffer with
      | some p => Act.pure p c
      | none => lineTooLong c
  | rounds + 1 => fun c => match cut isNewline c.recvBuffer with
      | some p => Act.pure p c
      | none => (do
          match ← callSock .recv with
          | .error e => recvFailed e
          | .ok data =>
              if data.isEmpty then abort (.connection "Connection closed by server".toList)
              else do
                Act.modify fun c => { c with recvBuffer := c.recvBuffer ++ data }
                if maxLineBytes < (c.recvBuffer ++ data).length then lineTooLong
                else fillLine rounds : Method (Text × Text)) c

/-- A line as bytes, decoded. -/
def decodeLine (line : Text) : Except AfmError Text :=
  if isAscii line then .ok (Py.rstripCr line)
  else .error (.protocol "Response line is not ASCII text".toList)

/-- `_read_line`. -/
def readLine (timeout : Option ℚ) : Method Text := requireSocket (withTimeout timeout do
  let (line, rest) ← fillLine (maxLineBytes + 2)
  Act.modify fun c => { c with recvBuffer := rest }
  Act.ofExcept (decodeLine line))

/-- The loop of `_read_exact`: every round adds a byte, so `numBytes` rounds are enough. -/
def fillExact (numBytes : ℕ) : ℕ → Method Unit
  | 0 => pure ()
  | rounds + 1 => do
      let c ← Act.get
      if c.recvBuffer.length < numBytes then
        match ← callSock .recv with
        | .error e => recvFailed e
        | .ok data =>
            if data.isEmpty then abort (.connection "Connection closed by server".toList)
            else
              Act.modify fun c => { c with recvBuffer := c.recvBuffer ++ data }
              fillExact numBytes rounds

/-- `_read_exact`. -/
def readExact (numBytes : ℤ) (timeout : Option ℚ) : Method Text :=
  if numBytes < 0 then
    Act.throw (.protocol ("Invalid byte count: ".toList ++ intToText numBytes))
  else requireSocket (withTimeout timeout do
    fillExact numBytes.toNat numBytes.toNat
    let c ← Act.get
    Act.modify fun c => { c with recvBuffer := c.recvBuffer.drop numBytes.toNat }
    pure (c.recvBuffer.take numBytes.toNat))

/-! ### Readers -/

/-- The primitives of a reader. -/
inductive ReadCall
  | line (timeout : Option ℚ)
  | exact (numBytes : ℤ) (timeout : Option ℚ)

/-- Both primitives return bytes, or do not return. -/
abbrev reads : Interface where
  Call := ReadCall
  Reply _ := Text

/-- A reader: a program over the two primitives. -/
abbrev Reader (α : Type) := Act reads Unit AfmError α

/-- `self._read_line(timeout)` in a reader. -/
def Reader.line (timeout : Option ℚ) : Reader Text := Act.call (I := reads) (.line timeout)

/-- `self._read_exact(num_bytes, timeout)` in a reader. -/
def Reader.exact (numBytes : ℤ) (timeout : Option ℚ) : Reader Text :=
  Act.call (I := reads) (.exact numBytes timeout)

/-- A reader run on the socket. -/
def interpret {α : Type} : Prog reads (Except AfmError α × Unit) → Method α
  | .done (r, _) => Act.ofExcept r
  | .call (.line timeout) next => do
      let line ← readLine timeout
      interpret (next line)
  | .call (.exact numBytes timeout) next => do
      let chunk ← readExact numBytes timeout
      interpret (next chunk)

/-- A reader as a method of the client. -/
def Reader.run {α : Type} (reader : Reader α) : Method α := interpret (reader ())

/-- The lines of a text block. -/
def readLines (timeout : Option ℚ) : ℕ → Reader (List Text)
  | 0 => pure []
  | count + 1 => do
      let line ← Reader.line timeout
      let lines ← readLines timeout count
      pure (line :: lines)

/-- `_read_text_block`. -/
def readTextBlock (count : ℕ) (timeout : Option ℚ) : Reader Text :=
  if maxBoardStatusLines < count then
    Act.throw (.protocol ("Text reply too long: ".toList ++ toText count ++ " lines".toList))
  else do
    let lines ← readLines timeout count
    pure (Py.joinLines lines)

/-- `_read_text_block(int(match.group(1)), timeout)`. -/
def readAnnounced (group : Text) (timeout : Option ℚ) : Reader Text :=
  match Py.digits group with
  | some count => readTextBlock count timeout
  | none => Act.throw .value

/-- `_parse_spectrum_header`. -/
def parseSpectrumHeader (header : Text) : Except AfmError (ℤ × Option ℤ) :=
  let parts := Py.split header
  if parts.length < 3 || parts[0]? != some "OK".toList || parts[1]? != some "DATA".toList then
    .error (.protocol ("Unexpected spectrum header: ".toList ++ header))
  else
    match parts[2]?.bind Py.int, parts[3]?.map Py.int with
    | some rows, none => check rows none
    | some rows, some (some bytes) => check rows (some bytes)
    | _, _ => .error (.protocol ("Malformed spectrum header: ".toList ++ header))
where
  /-- The ranges the header must keep. -/
  check (rows : ℤ) (bytes : Option ℤ) : Except AfmError (ℤ × Option ℤ) :=
    if rows < 0 ∨ (maxSpectrumRows : ℤ) < rows then
      .error (.protocol ("Spectrum row count out of range: ".toList ++ intToText rows))
    else
      match bytes with
      | none => .ok (rows, none)
      | some n =>
          if n < 0 ∨ (maxSpectrumBytes : ℤ) < n then
            .error (.protocol ("Spectrum byte count out of range: ".toList ++ intToText n))
          else .ok (rows, some n)

/-- `_discard_spectrum_payload`. -/
def discardSpectrumPayload (data : Text) : Reader Unit := do
  let (rows, bytes) ← Act.ofExcept (parseSpectrumHeader ("OK ".toList ++ data))
  match bytes with
  | some n => do
      let _ ← Reader.exact n none
  | none => do
      let _ ← readLines none rows.toNat

/-- What `_execute` makes of the first line of a reply. -/
def executeLine (response : Text) : Reader (Bool × Text) :=
  if response = "OK".toList ∨ "OK ".toList.isPrefixOf response then
    let data := if 3 < response.length then response.drop 3 else []
    if "DATA ".toList.isPrefixOf data then do
      discardSpectrumPayload data
      Act.throw (.protocol ("Server returned a spectrum response; use measure_sinc() ".toList
        ++ "or measure_sweep() to read it".toList))
    else
      match Py.fullmatchLines data with
      | some group => do
          let block ← readAnnounced group none
          pure (true, block)
      | none => pure (true, data)
  else if "ERR".toList.isPrefixOf response then pure (false, response)
  else pure (false, "Unexpected response: ".toList ++ response)

/-- The part of `_execute` after the command was sent. -/
def executeReply : Reader (Bool × Text) := do
  let response ← Reader.line none
  executeLine response

/-- The line that ends the status block of an old server. -/
def legacyTerminator : Text := List.replicate 18 '='

/-- The loop of `_read_legacy_board_status`; the length test ends it within the rounds. -/
def legacyLines (timeout : Option ℚ) : ℕ → List Text → Reader (List Text)
  | 0, _ => Act.throw (.protocol "Board status block has no terminator".toList)
  | rounds + 1, lines => do
      let line ← Reader.line timeout
      if "ERR".toList.isPrefixOf line then Act.throw (.command line)
      else if line = legacyTerminator then pure (lines ++ [line])
      else if maxBoardStatusLines < (lines ++ [line]).length then
        Act.throw (.protocol "Board status block has no terminator".toList)
      else legacyLines timeout rounds (lines ++ [line])

/-- `_read_legacy_board_status`. -/
def readLegacyBoardStatus (header : Text) (timeout : Option ℚ) : Reader Text := do
  let firstLine := (header.dropWhile (· != ' ')).drop 1
  let echoed := firstLine.dropWhile fun c => c == '>' || c == ' '
  let first := if firstLine ≠ [] ∧ echoed ≠ "STATUS".toList then [firstLine] else []
  let lines ← legacyLines timeout (maxBoardStatusLines + 1) first
  pure (Py.joinLines lines)

/-- What `_read_board_status_response` makes of the header. -/
def boardStatusLine (timeout : Option ℚ) (header : Text) : Reader Text :=
  if "ERR".toList.isPrefixOf header then Act.throw (.command header)
  else
    match if "OK ".toList.isPrefixOf header then Py.fullmatchLines (header.drop 3) else none with
    | some group => readAnnounced group timeout
    | none =>
        if header ≠ "OK".toList ∧ ¬"OK ".toList.isPrefixOf header then
          Act.throw (.protocol ("Unexpected board status header: ".toList ++ header))
        else readLegacyBoardStatus header timeout

/-- `_read_board_status_response`. -/
def boardStatusReply (timeout : Option ℚ) : Reader Text := do
  let header ← Reader.line timeout
  boardStatusLine timeout header

/-! ### Spectra -/

/-- `SpectrumData`: three columns. -/
structure SpectrumData (F : Type) where
  /-- `freq_kHz`. -/
  freqKHz : List F
  /-- `magnitude`. -/
  magnitude : List F
  /-- `phase_rad`. -/
  phaseRad : List F

/-- The columns of a list of rows. -/
def SpectrumData.ofRows {F : Type} (rows : List (F × F × F)) : SpectrumData F where
  freqKHz := rows.map fun r => r.1
  magnitude := rows.map fun r => r.2.1
  phaseRad := rows.map fun r => r.2.2

section Spectrum

variable {F : Type} (float : Text → Option F)

/-- `_parse_spectrum_row`; `float` is the constructor of the same name. -/
def parseSpectrumRow (line : Text) (index : ℕ) : Except AfmError (F × F × F) :=
  match line.splitOn ',' with
  | [a, b, c] =>
      match float a, float b, float c with
      | some x, some y, some z => .ok (x, y, z)
      | _, _, _ => .error (.protocol ("Malformed spectrum row ".toList ++ toText index
          ++ ": ".toList ++ Py.repr line))
  | values => .error (.protocol ("Malformed spectrum row ".toList ++ toText index
      ++ ": expected 3 values, got ".toList ++ toText values.length))

/-- The rows from number `index` on. -/
def parseSpectrumRows : ℕ → List Text → Except AfmError (List (F × F × F))
  | _, [] => .ok []
  | index, line :: lines => do
      let row ← parseSpectrumRow float line index
      let rows ← parseSpectrumRows (index + 1) lines
      pure (row :: rows)

/-- `_parse_spectrum_payload`. -/
def parseSpectrumPayload (payload : Text) (numRows : ℤ) : Except AfmError (SpectrumData F) :=
  let lines := payload.splitOn '\n'
  let lines := if lines.getLast? = some [] then lines.dropLast else lines
  if (lines.length : ℤ) ≠ numRows then
    .error (.protocol ("Spectrum payload row count mismatch: header said ".toList
      ++ intToText numRows ++ ", got ".toList ++ toText lines.length))
  else (parseSpectrumRows float 0 lines).map SpectrumData.ofRows

/-- The rows from number `index` on, read one line at a time. -/
def readSpectrumRows (timeout : Option ℚ) : ℕ → ℕ → Reader (List (F × F × F))
  | _, 0 => pure []
  | index, count + 1 => do
      let line ← Reader.line timeout
      let row ← Act.ofExcept (parseSpectrumRow float line index)
      let rows ← readSpectrumRows timeout (index + 1) count
      pure (row :: rows)

/-- What `_read_spectrum_response` makes of the header. -/
def spectrumLine (timeout : Option ℚ) (header : Text) : Reader (SpectrumData F) :=
  if "ERR".toList.isPrefixOf header then Act.throw (.command header)
  else if ¬"OK".toList.isPrefixOf header then
    Act.throw (.protocol ("Unexpected spectrum header: ".toList ++ header))
  else do
    let (numRows, numBytes) ← Act.ofExcept (parseSpectrumHeader header)
    match numBytes with
    | some n => do
        let payload ← Reader.exact n timeout
        if isAscii payload then Act.ofExcept (parseSpectrumPayload float payload numRows)
        else Act.throw (.protocol "Spectrum payload is not ASCII text".toList)
    | none => do
        let rows ← readSpectrumRows float timeout 0 numRows.toNat
        pure (SpectrumData.ofRows rows)

/-- `_read_spectrum_response`. -/
def spectrumReply (timeout : Option ℚ) : Reader (SpectrumData F) := do
  let header ← Reader.line timeout
  spectrumLine float timeout header

end Spectrum

/-! ### Calls -/

/-- `_execute`. -/
def execute (rounds : ℕ) (command : Text) : Method (Bool × Text) := do
  flushBuffer rounds
  send command
  executeReply.run

/-- `send_command`. -/
def sendCommand (rounds : ℕ) (command : Text) : Method Text := do
  let (success, data) ← execute rounds command
  if success then pure data else Act.throw (.command data)

/-- `get_board_status`. -/
def getBoardStatus (rounds : ℕ) : Method Text := do
  flushBuffer rounds
  send "BOARD:STATUS?".toList
  (boardStatusReply none).run

/-- `measure_sinc` and `measure_sweep` after they built their command and chose a timeout. -/
def measure {F : Type} (float : Text → Option F) (rounds : ℕ) (command : Text)
    (timeout : Option ℚ) : Method (SpectrumData F) := do
  flushBuffer rounds
  send command
  (spectrumReply float timeout).run

/-- `try: … except AFMError: pass`. -/
def ignoringErrors {α : Type} (m : Method α) : Method Unit := fun c =>
  (m c).bind fun r => .done (.ok (), r.2)

/-- `shutdown`: errors are ignored, and the client disconnects. -/
def shutdown : Method Unit := do
  ignoringErrors do
    send "SYSTEM:SHUTDOWN".toList
    readLine none
  disconnect

/-- `connect`, once the connection stands: the welcome line. -/
def readWelcome : Method Text := fun _ =>
  (readLine none { connected := true, recvBuffer := [] }).bind fun
    | (.ok welcome, c) => .done (.ok welcome, c)
    | (.error _, c) => abort (.connection "Failed to read welcome".toList) c

/-! ### Readers on a text -/

/-- What a reader makes of a text that is all there is: it returns or raises and leaves the rest of
the text, or the client disconnects, because it waits for more or a line is too long. -/
inductive Outcome (α : Type)
  | returned (a : α) (rest : Text)
  | raised (e : AfmError) (rest : Text)
  | lost
  deriving DecidableEq

/-- Go on with what was returned. -/
def Outcome.bind {α β : Type} : Outcome α → (α → Text → Outcome β) → Outcome β
  | .returned a rest, f => f a rest
  | .raised e rest, _ => .raised e rest
  | .lost, _ => .lost

@[simp] theorem Outcome.bind_returned {α β : Type} (a : α) (rest : Text)
    (f : α → Text → Outcome β) : (Outcome.returned a rest).bind f = f a rest := rfl

@[simp] theorem Outcome.bind_raised {α β : Type} (e : AfmError) (rest : Text)
    (f : α → Text → Outcome β) : (Outcome.raised e rest).bind f = .raised e rest := rfl

@[simp] theorem Outcome.bind_lost {α β : Type} (f : α → Text → Outcome β) :
    (Outcome.lost : Outcome α).bind f = .lost := rfl

/-- A program of the two primitives on a text. -/
def consume {α : Type} : Prog reads (Except AfmError α × Unit) → Text → Outcome α
  | .done (.ok a, _), s => .returned a s
  | .done (.error e, _), s => .raised e s
  | .call (.line _) next, s =>
      match cut isNewline s with
      | none => .lost
      | some (line, rest) =>
          if maxLineBytes < line.length then .lost
          else
            match decodeLine line with
            | .ok text => consume (next text) rest
            | .error e => .raised e rest
  | .call (.exact numBytes _) next, s =>
      if numBytes < 0 then
        .raised (.protocol ("Invalid byte count: ".toList ++ intToText numBytes)) s
      else if s.length < numBytes.toNat then .lost
      else consume (next (s.take numBytes.toNat)) (s.drop numBytes.toNat)

theorem consume_line {α : Type} (timeout : Option ℚ)
    (next : Text → Prog reads (Except AfmError α × Unit)) (s : Text) :
    consume (.call (.line timeout) next) s = match cut isNewline s with
      | none => .lost
      | some (line, rest) =>
          if maxLineBytes < line.length then .lost
          else
            match decodeLine line with
            | .ok text => consume (next text) rest
            | .error e => .raised e rest := by
  rw [consume]

theorem consume_exact {α : Type} (numBytes : ℤ) (timeout : Option ℚ)
    (next : Text → Prog reads (Except AfmError α × Unit)) (s : Text) :
    consume (.call (.exact numBytes timeout) next) s =
      if numBytes < 0 then
        .raised (.protocol ("Invalid byte count: ".toList ++ intToText numBytes)) s
      else if s.length < numBytes.toNat then .lost
      else consume (next (s.take numBytes.toNat)) (s.drop numBytes.toNat) := rfl

/-- A reader on a text. -/
def Reader.on {α : Type} (reader : Reader α) (s : Text) : Outcome α := consume (reader ()) s

namespace Reader

variable {α β : Type}

@[simp] theorem on_pure (a : α) (s : Text) : (pure a : Reader α).on s = .returned a s := rfl

@[simp] theorem on_throw (e : AfmError) (s : Text) :
    Reader.on (Act.throw e : Reader α) s = .raised e s := rfl

@[simp] theorem on_bind (m : Reader α) (f : α → Reader β) (s : Text) :
    (m >>= f).on s = (m.on s).bind fun a rest => (f a).on rest := by
  simp only [Reader.on, Act.bind_apply]
  generalize m () = p
  induction p generalizing s with
  | done r =>
      obtain ⟨r | r, -⟩ := r
      · rfl
      · rfl
  | call c next ih =>
      cases c with
      | line timeout =>
          simp only [Prog.bind_call, consume_line]
          cases cut isNewline s with
          | none => rfl
          | some p =>
              simp only
              split
              · rfl
              cases decodeLine p.1 with
              | error e => rfl
              | ok text => exact ih _ _
      | exact numBytes timeout =>
          simp only [Prog.bind_call, consume_exact]
          split
          · rfl
          split
          · rfl
          · exact ih _ _

/-- Reading a line of a text that starts with one. -/
theorem on_line_append {l : Text} (hnl : ∀ c ∈ l, isNewline c = false) (ha : isAscii l = true)
    (hcr : l.getLast? ≠ some '\r') (hlen : l.length ≤ maxLineBytes) (timeout : Option ℚ)
    (s : Text) : (line timeout).on (l ++ '\n' :: s) = .returned l s := by
  have hcut : cut isNewline (l ++ '\n' :: s) = some (l, s) := cut_line_append isNewline hnl rfl s
  have hdec : decodeLine l = .ok l := by simp [decodeLine, ha, Py.rstripCr_eq_self hcr]
  rw [Reader.on, line, Act.call_apply, consume_line, hcut]
  simp only [hdec, if_neg (not_lt.2 hlen)]
  rfl

/-- Reading a number of bytes of a text that starts with them. -/
theorem on_exact_append (chunk : Text) (timeout : Option ℚ) (s : Text) :
    (exact (chunk.length : ℤ) timeout).on (chunk ++ s) = .returned chunk s := by
  have hneg : ¬(chunk.length : ℤ) < 0 := by omega
  have hlen : ¬(chunk ++ s).length < chunk.length := by simp
  rw [Reader.on, exact, Act.call_apply, consume_exact, if_neg hneg, Int.toNat_natCast, if_neg hlen,
    List.take_left, List.drop_left]
  rfl

end Reader

end Client

end Afm
