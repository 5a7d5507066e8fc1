/-
**The board driver on the serial line.**

`ElectronicBoardUART` opens a serial device, turns its bytes into lines, and sends the commands of
the board over `BoardProtocol`.  Its model is a program over the system calls it makes.

Main definitions:

* `Afm.Uart.Call`, `Afm.Uart.device` — the system calls;
* `Afm.Uart.State` — the fields of the driver;
* `Afm.Uart.readLine`, `Afm.Uart.exchange` — reading a line, and `_sendCommand`;
* `Afm.Uart.initializeBoard` and the other methods of the interface.

Main results:

* `Afm.Uart.exchange_runs` — a command that succeeds was written after a flush, and the lines that
  arrived after the flush answer it.
-/

import RedPitayaAfm.BoardProtocol
import RedPitayaAfm.BoardStatus
import RedPitayaAfm.LineBuffer

set_option relaxedAutoImplicit false
set_option autoImplicit false

namespace Afm

namespace Uart

open Effect Board

/-! ### System calls -/

/-- What `poll` reports. -/
inductive PollResult
  | failed (reason : Text)
  | timeout
  | ready
  deriving DecidableEq

/-- What `read` reports: `again` is `EAGAIN`. -/
inductive ReadResult
  | failed (reason : Text)
  | again
  | data (bytes : Text)
  deriving DecidableEq

/-- The system calls of the driver.  `write` includes `tcdrain`. -/
inductive Call
  | openPort
  | getAttr
  | setAttr (baudRate : ℕ)
  | flush
  | close
  | write (data : Text)
  | now
  | poll (timeoutMs : ℤ)
  | read (count : ℕ)

/-- The serial device.  A call that fails reports the text of `errno`. -/
abbrev device : Interface where
  Call := Call
  Reply
    | .openPort => Except Text Unit
    | .getAttr => Except Text Unit
    | .setAttr _ => Except Text Unit
    | .flush => Unit
    | .close => Unit
    | .write _ => Except Text Unit
    | .now => ℤ
    | .poll _ => PollResult
    | .read _ => ReadResult

/-! ### The driver -/

/-- `MAX_RECV_BUFFER` -/
def maxRecvBuffer : ℕ := 4096

/-- The fields of `ElectronicBoardUART`. -/
structure State where
  devicePath : Text
  baudRate : ℕ
  /-- `m_fd >= 0` -/
  isOpen : Bool := false
  lineBuffer : LineBuffer := { maxLength := maxRecvBuffer }
  lastError : Text := []
  deriving DecidableEq

/-- A method of the driver. -/
abbrev Method (α : Type) := Act device State Stuck α

/-- Set `m_lastError`. -/
def setError (message : Text) : Method Unit := Act.modify fun u => { u with lastError := message }

/-- `m_lineBuffer.clear()` -/
def clearLines : Method Unit := Act.modify fun u => { u with lineBuffer := u.lineBuffer.clear }

/-- Report a failure. -/
def fail {α : Type} (message : Text) : Method (Option α) := do
  setError message
  pure none

/-- `steady_clock::now` -/
def now : Method ℤ := Act.call (I := device) .now

/-- `poll` -/
def poll (timeoutMs : ℤ) : Method PollResult := Act.call (I := device) (.poll timeoutMs)

/-- `read` -/
def read (count : ℕ) : Method ReadResult := Act.call (I := device) (.read count)

/-- `write` and `tcdrain` -/
def write (data : Text) : Method (Except Text Unit) := Act.call (I := device) (.write data)

/-- `tcflush` -/
def flush : Method Unit := Act.call (I := device) .flush

/-- `::close` -/
def closeDevice : Method Unit := do
  Act.call (I := device) .close
  Act.modify fun u => { u with isOpen := false }

/-- The loop of `_readLine`, for at most so many rounds. -/
def readLoop (start timeoutMs : ℤ) : ℕ → Method (Option Text)
  | 0 => Act.throw .running
  | rounds + 1 => do
      let u ← Act.get
      match u.lineBuffer.popLine with
      | some (line, lineBuffer) => do
          Act.modify fun u => { u with lineBuffer := lineBuffer }
          -- an empty line is skipped without a look at the clock
          if line.isEmpty then readLoop start timeoutMs rounds else pure (some line)
      | none => do
          let time ← now
          let elapsed := time - start
          if timeoutMs * nsPerMs < elapsed then fail "Read timeout".toList
          else
            -- less than a millisecond counts as none
            let remaining := toMs (timeoutMs * nsPerMs - elapsed)
            if remaining ≤ 0 then fail "Read timeout".toList
            else
              match ← poll remaining with
              | .failed reason => fail ("Poll failed: ".toList ++ reason)
              | .timeout => fail "Read timeout".toList
              | .ready =>
                  match ← read 64 with
                  | .again => readLoop start timeoutMs rounds
                  | .failed reason => fail ("Read failed: ".toList ++ reason)
                  | .data [] => readLoop start timeoutMs rounds
                  | .data (c :: bytes) =>
                      let u ← Act.get
                      let appended := u.lineBuffer.append (c :: bytes)
                      Act.modify fun u => { u with lineBuffer := appended.2 }
                      if appended.1 = .overflow then do
                        clearLines
                        fail "Receive buffer overflow (no line terminator)".toList
                      else readLoop start timeoutMs rounds

/-- `_readLine`: the next line that is not empty. -/
def readLine (rounds : ℕ) (timeoutMs : ℕ) : Method (Option Text) := do
  let start ← now
  readLoop start timeoutMs rounds

/-- The callbacks the driver gives to `BoardProtocol`. -/
def callback (rounds : ℕ) : (c : ProtocolCall) → Method (callbacks.Reply c)
  | .send data => do
      match ← write data with
      | .ok () => pure (.ok ())
      | .error reason => do
          setError ("Write failed: ".toList ++ reason)
          pure (.error ("Write failed: ".toList ++ reason))
  | .readLine timeoutMs => do
      match ← readLine rounds timeoutMs with
      | some line => pure (.ok line)
      | none => do
          let u ← Act.get
          pure (.error u.lastError)
  | .now => now

/-- Run the protocol with the driver's callbacks, on the driver's error string. -/
def runProtocol {α : Type} (rounds : ℕ) (m : ProtocolMethod (Option α)) : Method (Option α) := do
  let u ← Act.get
  let (result, lastError) ← (m u.lastError).handle (callback rounds)
  setError lastError
  Act.ofExcept result

/-- `_sendCommand` -/
def exchange (rounds : ℕ) (command : Text) (timeoutMs : ℕ := 1000) : Method (Option Text) := do
  let u ← Act.get
  if !u.isOpen then fail "UART not connected".toList
  else do
    -- Lines left from an earlier command never answer this one
    flush
    clearLines
    runProtocol rounds (sendCommand command timeoutMs)

/-- `_sendCommand` without a response. -/
def command (rounds : ℕ) (text : Text) : Method Bool := do
  let response ← exchange rounds text
  pure response.isSome

/-! ### The interface of the board -/

/-- `_configurePort` -/
def configurePort : Method Bool := do
  let u ← Act.get
  let attr : Except Text Unit ← Act.call (I := device) .getAttr
  match attr with
  | .error reason => do
      setError ("tcgetattr failed: ".toList ++ reason)
      pure false
  | .ok () =>
      if u.baudRate = 9600 ∨ u.baudRate = 115200 then do
        let set : Except Text Unit ← Act.call (I := device) (.setAttr u.baudRate)
        match set with
        | .error reason => do
            setError ("tcsetattr failed: ".toList ++ reason)
            pure false
        | .ok () => pure true
      else do
        setError ("Unsupported baud rate: ".toList ++ toText u.baudRate)
        pure false

/-- `initialize` -/
def initializeBoard (rounds : ℕ) : Method Bool := do
  let u ← Act.get
  let opened : Except Text Unit ← Act.call (I := device) .openPort
  match opened with
  | .error reason => do
      setError ("Failed to open ".toList ++ u.devicePath ++ ": ".toList ++ reason)
      pure false
  | .ok () => do
      Act.modify fun u => { u with isOpen := true }
      if ← configurePort then do
        flush
        clearLines
        match ← exchange rounds "STATUS".toList with
        | some _ => pure true
        | none => do
            closeDevice
            setError ("Board not responding on ".toList ++ u.devicePath)
            pure false
      else do
        closeDevice
        pure false

/-- `close` -/
def close : Method Unit := do
  let u ← Act.get
  if u.isOpen then closeDevice
  clearLines

/-- `isConnected` -/
def isConnected : Method Bool := do
  let u ← Act.get
  pure u.isOpen

/-- Report an argument that is refused. -/
def refuse (message : Text) : Method Bool := do
  setError message
  pure false

/-- `setMuxRoute` -/
def setMuxRoute (rounds : ℕ) (output input : ℕ) : Method Bool :=
  if numChannels ≤ output ∨ numChannels ≤ input then
    refuse "Invalid channel number (must be 0-3 internally)".toList
  else
    command rounds ("MUX".toList ++ toText (output + 1) ++ [','] ++ toText (input + 1))

/-- `disconnectMux` -/
def disconnectMux (rounds : ℕ) (output : ℕ) : Method Bool :=
  if numChannels ≤ output then refuse "Invalid output channel (must be 0-3 internally)".toList
  else command rounds ("MUX".toList ++ toText (output + 1) ++ ",X".toList)

/-- `setGain`; a `GainSetting` is always one of its members. -/
def setGain (rounds : ℕ) (channel : ℕ) (gain : GainSetting) : Method Bool :=
  if numChannels ≤ channel then refuse "Invalid channel number (must be 0-3 internally)".toList
  else command rounds ("GAIN".toList ++ toText (channel + 1) ++ [','] ++ toText gain.toIndex)

/-- `getStatus` -/
def getStatus (rounds : ℕ) : Method (Option Text) := exchange rounds "STATUS".toList

/-- An array of the caller and its valid flags, from what a status shows of each channel. -/
def fillChannels {β : Type} (held : β) (found : List (Option β)) (i : Fin 4) : β × Bool :=
  match (found[i.val]?).join with
  | some value => (value, true)
  | none => (held, false)

/-- `queryGains`, on an array that the caller has filled with x1. -/
def queryGains (rounds : ℕ) :
    Method (Except StringScan.Misuse (Option (Fin 4 → GainSetting × Bool))) := do
  match ← exchange rounds "STATUS".toList with
  | none => pure (.ok none)
  | some status =>
      pure ((parseGainStatus status numChannels).map (Option.map (fillChannels .gain1)))

/-- `queryRouting`, on an array that the caller has filled with `DISCONNECTED`. -/
def queryRouting (rounds : ℕ) :
    Method (Except StringScan.Misuse (Option (Fin 4 → ℕ × Bool))) := do
  match ← exchange rounds "STATUS".toList with
  | none => pure (.ok none)
  | some status =>
      pure ((parseRoutingStatus status numChannels).map (Option.map (fillChannels disconnected)))

/-- `reset` -/
def reset (rounds : ℕ) : Method Bool := command rounds "RESET".toList

/-- `getLastError` -/
def getLastError : Method Text := do
  let u ← Act.get
  pure u.lastError

/-! ### Lines of the board -/

/-- The lines `_readLine` makes of a text: without carriage returns, and without the empty ones. -/
def boardLines (text : Text) : List Text := (streamLines text).filter (!·.isEmpty)

/-- A line in the buffer is the first of all that is still to come. -/
theorem streamLines_of_popLine {b b' : LineBuffer} {l : Text} (h : b.popLine = some (l, b'))
    (text : Text) : streamLines (b.buffer ++ text) = l :: streamLines (b'.buffer ++ text) := by
  obtain ⟨⟨raw, tail⟩, hcut, heq⟩ := Option.map_eq_some_iff.1 h
  cases heq
  have hlines := (Lines.lines_of_cut isNewline (Lines.cut_append isNewline hcut text)).1
  rw [streamLines, hlines]
  rfl

section Runs

variable {β : Type} {W : World device} {text : W.State → Text} {kept : W.State → β}

/-- The world holds the bytes that are still to be read, and something that reading keeps. -/
structure Carries (W : World device) (text : W.State → Text) (kept : W.State → β) : Prop where
  read : ∀ {w n bytes w'}, W.Step w (.read n) (.data bytes) w' →
    text w = bytes ++ text w' ∧ kept w' = kept w
  again : ∀ {w n w'}, W.Step w (.read n) .again w' → text w' = text w ∧ kept w' = kept w
  poll : ∀ {w t r w'}, W.Step w (.poll t) r w' → text w' = text w ∧ kept w' = kept w
  now : ∀ {w t w'}, W.Step w .now t w' → text w' = text w ∧ kept w' = kept w

theorem fail_runs {α : Type} {message : Text} {u u' : State} {w w' : W.State}
    {r : Except Stuck (Option α)} (h : Runs W w (fail message u) (r, u') w') : r = .ok none := by
  simp only [fail, setError, Act.bind_apply, Act.modify_apply, Prog.bind_done] at h
  obtain ⟨⟨⟩, rfl⟩ := runs_done.1 h
  rfl

/-- **`_readLine` takes the first line** of those still to come. -/
theorem readLoop_runs (hW : Carries W text kept) {start timeoutMs : ℤ} {rounds : ℕ} {u u' : State}
    {w w' : W.State} {line : Text}
    (h : Runs W w (readLoop start timeoutMs rounds u) (.ok (some line), u') w') :
    boardLines (u.lineBuffer.buffer ++ text w)
      = line :: boardLines (u'.lineBuffer.buffer ++ text w') ∧ kept w' = kept w := by
  -- a round moves bytes from the world into the buffer, or takes a line out of it
  induction rounds generalizing u w with
  | zero =>
      obtain ⟨heq, -⟩ := runs_done.1 h
      cases heq
  | succ rounds ih =>
      simp only [readLoop, Act.bind_apply, Act.get_apply, Prog.bind_done] at h
      cases hpop : u.lineBuffer.popLine with
      | some p =>
          obtain ⟨l, lineBuffer⟩ := p
          simp only [hpop, Act.bind_apply, Act.modify_apply, Prog.bind_done] at h
          rw [boardLines, streamLines_of_popLine hpop]
          split at h
          · rename_i hempty
            rw [List.filter_cons_of_neg (by simp [hempty])]
            exact ih h
          · rename_i hne
            obtain ⟨⟨⟩, rfl⟩ := runs_done.1 h
            rw [List.filter_cons_of_pos (by simpa using hne)]
            exact ⟨rfl, rfl⟩
      | none =>
          simp only [hpop, now, Act.bind_apply, Act.call_apply, Prog.bind_call, Prog.bind_done,
            runs_call] at h
          obtain ⟨time, w₁, hnow, h⟩ := h
          split at h
          · cases fail_runs h
          split at h
          · cases fail_runs h
          simp only [poll, Act.bind_apply, Act.call_apply, Prog.bind_call, Prog.bind_done,
            runs_call] at h
          obtain ⟨polled, w₂, hpoll, h⟩ := h
          have htext₂ : text w₂ = text w := by rw [(hW.poll hpoll).1, (hW.now hnow).1]
          have hkept₂ : kept w₂ = kept w := by rw [(hW.poll hpoll).2, (hW.now hnow).2]
          cases polled with
          | failed reason => cases fail_runs h
          | timeout => cases fail_runs h
          | ready =>
              simp only [read, Act.bind_apply, Act.call_apply, Prog.bind_call, Prog.bind_done,
                runs_call] at h
              obtain ⟨result, w₃, hread, h⟩ := h
              cases result with
              | again =>
                  rw [← htext₂, ← hkept₂, ← (hW.again hread).1, ← (hW.again hread).2]
                  exact ih h
              | failed reason => cases fail_runs h
              | data bytes =>
                  have htext₃ : text w = bytes ++ text w₃ := by rw [← htext₂, (hW.read hread).1]
                  have hkept₃ : kept w₃ = kept w := by rw [(hW.read hread).2, hkept₂]
                  rw [← hkept₃]
                  cases bytes with
                  | nil =>
                      rw [htext₃]
                      exact ih h
                  | cons c bytes =>
                      simp only [Act.bind_apply, Act.get_apply, Act.modify_apply,
                        Prog.bind_done] at h
                      split at h
                      · simp only [clearLines, Act.bind_apply, Act.modify_apply,
                          Prog.bind_done] at h
                        cases fail_runs h
                      · rw [htext₃, ← List.append_assoc]
                        exact ih h

/-- What `BoardProtocol` sees through the driver holds the lines still to be read. -/
theorem feeds_through (hW : Carries W text kept) (rounds : ℕ) :
    Feeds (W.through (callback rounds))
      (fun p : State × W.State => boardLines (p.1.lineBuffer.buffer ++ text p.2))
      (fun p => kept p.2) := by
  constructor
  · rintro ⟨u, w⟩ t l ⟨u', w'⟩ h
    have hrun : Runs W w (callback rounds (.readLine t) u) (.ok (.ok l), u') w' := h
    simp only [callback, readLine, now, Act.bind_apply, Act.call_apply, Prog.bind_call,
      Prog.bind_done, runs_call, runs_bind] at hrun
    obtain ⟨start, w₁, hnow, ⟨x, u₁⟩, w₂, hloop, hrun⟩ := hrun
    cases x with
    | error e =>
        obtain ⟨heq, -⟩ := runs_done.1 hrun
        cases heq
    | ok found =>
        cases found with
        | none =>
            simp only [Act.bind_apply, Act.get_apply, Prog.bind_done] at hrun
            obtain ⟨heq, -⟩ := runs_done.1 hrun
            cases heq
        | some line =>
            obtain ⟨heq, rfl⟩ := runs_done.1 hrun
            cases heq
            simp only
            rw [← (hW.now hnow).1, ← (hW.now hnow).2]
            exact readLoop_runs hW hloop
  · rintro ⟨u, w⟩ t ⟨u', w'⟩ h
    have hrun : Runs W w (callback rounds .now u) (.ok t, u') w' := h
    simp only [callback, now, Act.call_apply, runs_call] at hrun
    obtain ⟨time, w₁, hnow, hrun⟩ := hrun
    obtain ⟨heq, rfl⟩ := runs_done.1 hrun
    cases heq
    simp only
    rw [(hW.now hnow).1, (hW.now hnow).2]
    exact ⟨rfl, rfl⟩

/-- **A command that succeeds** was written after a flush, and the lines that come after the flush
answer it. -/
theorem exchange_runs (hW : Carries W text kept) {rounds : ℕ} {command : Text} {timeoutMs : ℕ}
    {u u' : State} {w w' : W.State} {response : Text}
    (h : Runs W w (exchange rounds command timeoutMs u) (.ok (some response), u') w') :
    u.isOpen = true ∧ ∃ w₁ w₂, W.Step w .flush () w₁ ∧
      W.Step w₁ (.write (command ++ ['\n'])) (.ok ()) w₂ ∧ kept w' = kept w₂ ∧
      ∃ used, used.length ≤ maxReplyLines ∧
        boardLines (text w₂) = used ++ boardLines (u'.lineBuffer.buffer ++ text w') ∧
        scan command .waiting used = .ok response := by
  simp only [exchange, Act.bind_apply, Act.get_apply, Prog.bind_done] at h
  split at h
  · cases fail_runs h
  · rename_i hopen
    simp only [flush, clearLines, runProtocol, Act.bind_apply, Act.call_apply, Act.modify_apply,
      Act.get_apply, Prog.bind_call, Prog.bind_done, runs_call, runs_bind] at h
    obtain ⟨⟨⟩, w₁, hflush, ⟨x, u₁⟩, w₂, hrun, h⟩ := h
    cases x with
    | error e =>
        obtain ⟨heq, -⟩ := runs_done.1 h
        cases heq
    | ok p =>
        obtain ⟨result, lastError⟩ := p
        simp only [setError, Act.modify_apply, Prog.bind_done] at h
        cases result with
        | error e =>
            obtain ⟨heq, -⟩ := runs_done.1 h
            cases heq
        | ok found =>
            obtain ⟨heq, rfl⟩ := runs_done.1 h
            cases heq
            obtain ⟨⟨u₃, w₃⟩, hsend, hkept, used, hlen, hlines, hscan⟩ :=
              sendCommand_runs (feeds_through hW rounds) (runs_handle.1 hrun)
            have hwrite : Runs W w₁ (callback rounds (.send (command ++ ['\n']))
              { u with lineBuffer := u.lineBuffer.clear }) (.ok (.ok ()), u₃) w₃ := hsend
            simp only [callback, write, Act.bind_apply, Act.call_apply, Prog.bind_call,
              Prog.bind_done, runs_call] at hwrite
            obtain ⟨reply, w₄, hstep, hwrite⟩ := hwrite
            cases reply with
            | error reason =>
                simp only [setError, Act.bind_apply, Act.modify_apply, Prog.bind_done] at hwrite
                obtain ⟨heq, -⟩ := runs_done.1 hwrite
                cases heq
            | ok done =>
                obtain ⟨heq, rfl⟩ := runs_done.1 hwrite
                cases heq
                exact ⟨by simpa using hopen, w₁, w₃, hflush, hstep, hkept, used, hlen, hlines,
                  hscan⟩

end Runs

end Uart

end Afm
