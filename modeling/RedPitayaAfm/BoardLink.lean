/-
**Which transmission a reply of the board answers.**

The board's replies carry no number.  The driver discards what has arrived before it sends a
command, and takes the first line that echoes the command for the start of its reply.  Bytes that
were still on their way stay, so the reply to an earlier transmission of the same text may be taken
for the reply to this one.  This module follows sequences of exchanges over a serial line with
arbitrary delays, on which every byte of the board is marked with the transmission it answers.

Main definitions:

* `Afm.Uart.Serial`, `Afm.Uart.serial` — the line, and what it may do;
* `Afm.Uart.Session` — sequences of exchanges;
* `Afm.Uart.OwnAnswer` — a response was made by the board's execution of one transmission;
* `Afm.Uart.Unambiguous` — no earlier reply on its way can pass for the reply to a command.

Main results:

* `Afm.Uart.ownAnswer_of_unambiguous` — an exchange that starts unambiguously gets its own answer;
* `Afm.Uart.session_own_answer` — **in a session of unambiguous exchanges every answer is its own**;
* `Afm.Uart.late_reply_answers_repetition` — a repeated command takes the late reply to its first
  transmission.
-/

import RedPitayaAfm.BoardUart

set_option relaxedAutoImplicit false
set_option autoImplicit false

namespace Afm

namespace Uart

open Effect Board Lines

/-! ### The serial line -/

/-- The bytes of the board on their way to the driver, in order, each with the number of the
transmission it answers; the number of transmissions; and all bytes that came after the last flush,
read or not. -/
structure Serial where
  wire : List (Char × ℕ) := []
  count : ℕ := 0
  sinceFlush : List (Char × ℕ) := []
  deriving DecidableEq

/-- The bytes without their marks. -/
def Serial.text (w : Serial) : Text := w.wire.map Prod.fst

/-- The bytes of one reply. -/
def marked (id : ℕ) (reply : Text) : List (Char × ℕ) := reply.map fun c => (c, id)

/-- The board emits a reply to the next transmission. -/
def Serial.emit (w : Serial) (reply : Text) : Serial where
  wire := w.wire ++ marked w.count reply
  count := w.count + 1
  sinceFlush := w.sinceFlush ++ marked w.count reply

/-- What the line may do.  The board answers what was written with bytes that `answers` allows, in
the order of the transmissions; they take any time to arrive, and a flush discards those that have
arrived.  A write that fails may have reached the board. -/
inductive SerialStep (answers : Text → Text → Prop) :
    Serial → (c : Call) → device.Reply c → Serial → Prop
  | openPort (w : Serial) (r : Except Text Unit) : SerialStep answers w .openPort r w
  | getAttr (w : Serial) (r : Except Text Unit) : SerialStep answers w .getAttr r w
  | setAttr (w : Serial) (baudRate : ℕ) (r : Except Text Unit) :
      SerialStep answers w (.setAttr baudRate) r w
  | flush (w : Serial) (arrived left : List (Char × ℕ)) (h : w.wire = arrived ++ left) :
      SerialStep answers w .flush () { w with wire := left, sinceFlush := left }
  | close (w : Serial) : SerialStep answers w .close () w
  | write (w : Serial) (data reply : Text) (h : answers data reply) :
      SerialStep answers w (.write data) (.ok ()) (w.emit reply)
  | writeFailed (w : Serial) (data reason bytes : Text) :
      SerialStep answers w (.write data) (.error reason) (w.emit bytes)
  | now (w : Serial) (time : ℤ) : SerialStep answers w .now time w
  | poll (w : Serial) (timeoutMs : ℤ) (r : PollResult) : SerialStep answers w (.poll timeoutMs) r w
  | read (w : Serial) (count : ℕ) (bytes left : List (Char × ℕ)) (hle : bytes.length ≤ count)
      (h : w.wire = bytes ++ left) :
      SerialStep answers w (.read count) (.data (bytes.map Prod.fst)) { w with wire := left }
  | readAgain (w : Serial) (count : ℕ) : SerialStep answers w (.read count) .again w
  | readFailed (w : Serial) (count : ℕ) (reason : Text) :
      SerialStep answers w (.read count) (.failed reason) w

/-- The line as an environment of the driver. -/
abbrev serial (answers : Text → Text → Prop) : World device := ⟨Serial, SerialStep answers⟩

/-- An exchange: the command, the state of the line before and after, and the response. -/
structure Exchange where
  command : Text
  before : Serial
  after : Serial
  response : Option Text

/-- Sequences of exchanges on one driver, whatever their timeouts and results. -/
inductive Session (answers : Text → Text → Prop) : State → Serial → List Exchange → Prop
  | start (u : State) : Session answers u {} []
  | exchange {u u' : State} {w w' : Serial} {log : List Exchange} {rounds timeoutMs : ℕ}
      {command : Text} {response : Option Text} (hs : Session answers u w log)
      (h : Runs (serial answers) w (exchange rounds command timeoutMs u) (.ok response, u') w') :
      Session answers u' w' (log ++ [⟨command, w, w', response⟩])

/-! ### Answers -/

/-- The text of a line, as the driver hands it out. -/
def lineText (line : List (Char × ℕ)) : Text := stripCr (line.map Prod.fst)

/-- The lines of marked bytes. -/
def markedLines (stream : List (Char × ℕ)) : List (List (Char × ℕ)) :=
  lines (fun b => isNewline b.1) stream

/-- The response to `command` was made by the board's execution of transmission `id`.  After the
first line that echoes the command come data lines and an `OK`; the response consists of the data
lines, and every byte of them and of the `OK` answers that transmission. -/
def OwnAnswer (id : ℕ) (command response : Text) (stream : List (Char × ℕ)) : Prop :=
  ∃ before echo answer after data, markedLines stream = before ++ echo :: (answer ++ after) ∧
    (∀ l ∈ (before.map lineText).filter (!·.isEmpty), isEcho l command = false) ∧
    isEcho (lineText echo) command = true ∧
    (answer.map lineText).filter (!·.isEmpty) = data ++ ["OK".toList] ∧ (∀ l ∈ data, IsData l) ∧
    response = responseOf data ∧ ∀ line ∈ answer, ∀ b ∈ line, b.2 = id

/-- An exchange that returned a response got it from its own transmission. -/
def Exchange.Own (e : Exchange) : Prop :=
  ∀ response, e.response = some response →
    OwnAnswer e.before.count e.command response e.after.sinceFlush

/-- No earlier reply on its way can pass for the reply to the command: whatever part of the bytes a
flush leaves, no complete line in it echoes the command, unless an error follows. -/
def Unambiguous (command : Text) (w : Serial) : Prop :=
  ∀ left, left <:+ w.wire → scan command .waiting (boardLines (left.map Prod.fst)) = .waiting ∨
    ∃ message, scan command .waiting (boardLines (left.map Prod.fst)) = .err message

section Answers

variable {answers : Text → Text → Prop}

theorem carries_serial : Carries (serial answers) Serial.text Serial.sinceFlush where
  read := by
    intro w n bytes w' h
    cases h with
    | read _ bytes left hle hwire => simp [Serial.text, hwire]
  again := by
    rintro w n w' ⟨⟩
    exact ⟨rfl, rfl⟩
  poll := by
    rintro w t r w' ⟨⟩
    exact ⟨rfl, rfl⟩
  now := by
    rintro w t w' ⟨⟩
    exact ⟨rfl, rfl⟩

/-- The lines handed out are those of the marked bytes. -/
theorem boardLines_map (stream : List (Char × ℕ)) :
    boardLines (stream.map Prod.fst) = ((markedLines stream).map lineText).filter (!·.isEmpty) := by
  rw [boardLines, streamLines, lines_map, List.map_map]
  rfl

/-- A line handed out comes from a marked line. -/
theorem exists_markedLines {ls : List (List (Char × ℕ))} {xs ys : List Text}
    (h : (ls.map lineText).filter (!·.isEmpty) = xs ++ ys) :
    ∃ ls₁ ls₂, ls = ls₁ ++ ls₂ ∧ (ls₁.map lineText).filter (!·.isEmpty) = xs ∧
      (ls₂.map lineText).filter (!·.isEmpty) = ys := by
  obtain ⟨ms₁, ms₂, hms, rfl, rfl⟩ := List.filter_eq_append_iff.1 h
  obtain ⟨ls₁, ls₂, rfl, rfl, rfl⟩ := List.map_eq_append_iff.1 hms
  exact ⟨ls₁, ls₂, rfl, rfl, rfl⟩

/-- A line handed out first comes from the first marked line that is not empty. -/
theorem exists_markedLine {ls : List (List (Char × ℕ))} {x : Text} {ys : List Text}
    (h : (ls.map lineText).filter (!·.isEmpty) = x :: ys) :
    ∃ ls₁ l ls₂, ls = ls₁ ++ l :: ls₂ ∧ (ls₁.map lineText).filter (!·.isEmpty) = [] ∧
      lineText l = x ∧ (ls₂.map lineText).filter (!·.isEmpty) = ys := by
  obtain ⟨ms₁, ms₂, hms, hnone, -, hys⟩ := List.filter_eq_cons_iff.1 h
  obtain ⟨ls₁, ls', rfl, rfl, hls'⟩ := List.map_eq_append_iff.1 hms
  obtain ⟨l, ls₂, rfl, rfl, rfl⟩ := List.map_eq_cons_iff.1 hls'
  exact ⟨ls₁, l, ls₂, rfl, List.filter_eq_nil_iff.2 hnone, rfl, hys⟩

/-- The scan that ends in an answer has not ended in the bytes of earlier transmissions. -/
theorem scan_unambiguous {command response : Text} {old used after new : List Text}
    (hold : scan command .waiting old = .waiting ∨
      ∃ message, scan command .waiting old = .err message)
    (hlines : old ++ new = used ++ after) (hscan : scan command .waiting used = .ok response) :
    scan command .waiting old = .waiting ∧ ∃ used', used = old ++ used' ∧ new = used' ++ after ∧
      scan command .waiting used' = .ok response := by
  rcases List.append_eq_append_iff.1 hlines with ⟨ms, rfl, hnew⟩ | ⟨ms, rfl, hafter⟩
  · rw [scan_append] at hscan
    rcases hold with h | ⟨message, h⟩
    · rw [h] at hscan
      exact ⟨h, ms, rfl, hnew, hscan⟩
    · rw [h, scan_err] at hscan
      cases hscan
  · -- otherwise the earlier bytes would hold an answer
    rw [scan_append, hscan, scan_ok] at hold
    rcases hold with h | ⟨message, h⟩
    · cases h
    · cases h

/-- **Lines of the reply answer its transmission**: an answer that is not found in earlier bytes
is made of bytes of the last reply. -/
theorem ownAnswer_of_lines {command response reply : Text} {id : ℕ} {left : List (Char × ℕ)}
    {used after : List Text}
    (hold : scan command .waiting (boardLines (left.map Prod.fst)) = .waiting ∨
      ∃ message, scan command .waiting (boardLines (left.map Prod.fst)) = .err message)
    (hlines : boardLines ((left ++ marked id reply).map Prod.fst) = used ++ after)
    (hscan : scan command .waiting used = .ok response) :
    OwnAnswer id command response (left ++ marked id reply) := by
  have hsplit : markedLines (left ++ marked id reply) = markedLines left
      ++ markedLines (rest (fun b => isNewline b.1) left ++ marked id reply) := lines_append _ _ _
  obtain ⟨tail, htail⟩ : ∃ tail, tail = rest (fun b : Char × ℕ => isNewline b.1) left := ⟨_, rfl⟩
  have hno : ∀ b ∈ tail, isNewline b.1 = false := by
    rw [htail]
    exact rest_no_nl _ left
  rw [← htail] at hsplit
  rw [boardLines_map, hsplit, List.map_append, List.filter_append, ← boardLines_map] at hlines
  obtain ⟨hwaiting, used', rfl, hnew, hscan'⟩ := scan_unambiguous hold hlines hscan
  obtain ⟨skipped, echo, data, more, rfl, hskipped, hecho, hdata, hresponse⟩ :=
    scan_waiting_eq_ok hscan'
  -- find the lines among the marked ones
  rw [List.append_assoc, List.cons_append] at hnew
  obtain ⟨ls₁, ls₂, hls, hls₁, hls₂⟩ := exists_markedLines hnew
  obtain ⟨ls₃, e, ls₄, rfl, hls₃, rfl, hls₄⟩ := exists_markedLine hls₂
  rw [← List.singleton_append (l := more), ← List.append_assoc, List.append_assoc] at hls₄
  obtain ⟨answer, ls₅, rfl, hanswer, -⟩ := exists_markedLines hls₄
  refine ⟨markedLines left ++ ls₁ ++ ls₃, e, answer, ls₅, data, ?_, ?_, hecho, hanswer, hdata,
    hresponse, ?_⟩
  · rw [hsplit, hls]
    simp
  · intro l hl
    rw [List.map_append, List.map_append, List.filter_append, List.filter_append, hls₁, hls₃,
      List.append_nil, ← boardLines_map] at hl
    rcases List.mem_append.1 hl with hl | hl
    · exact isEcho_of_scan_waiting hwaiting l hl
    · exact hskipped l hl
  · -- only the first line can begin with earlier bytes, and the echo comes first
    intro line hline b hb
    have hmem : b ∈ marked id reply := by
      cases hfirst : ls₁ ++ ls₃ with
      | nil =>
          obtain ⟨rfl, rfl⟩ := List.append_eq_nil_iff.1 hfirst
          exact mem_of_mem_lines_append _ hno hls (by simp [hline]) hb
      | cons l ls =>
          have hcons : markedLines (tail ++ marked id reply)
              = l :: (ls ++ e :: (answer ++ ls₅)) := by
            rw [hls, ← List.append_assoc, hfirst]
            rfl
          exact mem_of_mem_lines_append _ hno hcons (by simp [hline]) hb
    obtain ⟨c, -, rfl⟩ := List.mem_map.1 hmem
    rfl

/-- **An exchange that starts unambiguously gets its own answer.** -/
theorem ownAnswer_of_unambiguous {rounds timeoutMs : ℕ} {command : Text} {response : Option Text}
    {u u' : State} {w w' : Serial} (hw : Unambiguous command w)
    (h : Runs (serial answers) w (exchange rounds command timeoutMs u) (.ok response, u') w') :
    Exchange.Own ⟨command, w, w', response⟩ := by
  rintro response rfl
  obtain ⟨-, w₁, w₂, hflush, hwrite, hkept, used, -, hlines, hscan⟩ :=
    exchange_runs carries_serial h
  cases hflush with
  | flush arrived left hwire =>
      cases hwrite with
      | write _ reply hanswers =>
          have hleft : left <:+ w.wire := ⟨arrived, hwire.symm⟩
          show OwnAnswer w.count command response w'.sinceFlush
          rw [hkept]
          exact ownAnswer_of_lines (hw left hleft) hlines hscan

/-- **In a session of unambiguous exchanges every answer is its own**: the `OK` and the data lines
that an exchange returns were produced by the board's execution of its own transmission. -/
theorem session_own_answer {u : State} {w : Serial} {log : List Exchange}
    (hs : Session answers u w log) (hlog : ∀ e ∈ log, Unambiguous e.command e.before) :
    ∀ e ∈ log, e.Own := by
  induction hs with
  | start u => simp
  | exchange hs h ih =>
      intro e he
      rcases List.mem_append.1 he with he | he
      · exact ih (fun e he => hlog e (List.mem_append_left _ he)) e he
      · have hw := hlog _ (List.mem_append_right _ List.mem_cons_self)
        rw [List.mem_singleton.1 he]
        exact ownAnswer_of_unambiguous hw h

end Answers

/-! ### A late reply -/

/-- What the board emits for a line: its echo, data lines, the result, and the prompt. -/
def BoardReply (data reply : Text) : Prop :=
  ∃ command ls result, data = command ++ ['\n'] ∧ (∀ l ∈ ls, IsData l ∧ '\n' ∉ l) ∧
    (result = "OK".toList ∨ "ERR:".toList <+: result ∧ '\n' ∉ result) ∧
    reply = (command :: (ls ++ [result])).flatMap (· ++ "\r\n".toList) ++ "> ".toList

/-- A line on which nothing arrives before transmission `patience`, to a board that answers `OK`. -/
def lateStep (patience : ℕ) (w : Serial) : (c : Call) → device.Reply c × Serial
  | .openPort => (.ok (), w)
  | .getAttr => (.ok (), w)
  | .setAttr _ => (.ok (), w)
  | .flush => ((), { w with sinceFlush := w.wire })
  | .close => ((), w)
  | .write data =>
      if data.getLast? = some '\n' then
        (.ok (), w.emit ((data.dropLast :: ([] ++ ["OK".toList])).flatMap (· ++ "\r\n".toList)
          ++ "> ".toList))
      else (.error [], w.emit [])
  | .now => ((0 : ℤ), w)
  | .poll _ => (if patience ≤ w.count then .ready else .timeout, w)
  | .read count => (.data ((w.wire.take count).map Prod.fst), { w with wire := w.wire.drop count })

theorem serialStep_lateStep (patience : ℕ) (w : Serial) (c : Call) :
    SerialStep BoardReply w c (lateStep patience w c).1 (lateStep patience w c).2 := by
  cases c with
  | openPort => exact .openPort w _
  | getAttr => exact .getAttr w _
  | setAttr baudRate => exact .setAttr w baudRate _
  | flush => exact .flush w [] w.wire rfl
  | close => exact .close w
  | write data =>
      by_cases hlast : data.getLast? = some '\n'
      · obtain ⟨command, rfl⟩ := List.getLast?_eq_some_iff.1 hlast
        simp only [lateStep, if_pos hlast, List.dropLast_concat]
        exact .write w _ _ ⟨command, [], "OK".toList, rfl, by simp, .inl rfl, rfl⟩
      · simp only [lateStep, if_neg hlast]
        exact .writeFailed w data [] []
  | now => exact .now w 0
  | poll timeoutMs => exact .poll w timeoutMs _
  | read count =>
      exact .read w count _ _ (List.length_take_le _ _) (List.take_append_drop count w.wire).symm

/-- A computed exchange of a session. -/
theorem session_late {u u' : State} {w w' : Serial} {log : List Exchange} {rounds : ℕ}
    {command : Text} {response : Option Text} (hs : Session BoardReply u w log) (patience : ℕ)
    (h : (exchange rounds command 1000 u).eval (lateStep patience) w = ((.ok response, u'), w')) :
    Session BoardReply u' w' (log ++ [⟨command, w, w', response⟩]) := by
  have hrun := Prog.eval_runs (W := serial BoardReply) (serialStep_lateStep patience)
    (exchange rounds command 1000 u) w
  rw [h] at hrun
  exact hs.exchange hrun

/-- A driver that has opened its port. -/
def openDriver : State := { devicePath := "/dev/ttyPS1".toList, baudRate := 9600, isOpen := true }

/-- The reply to `GAIN1,2`. -/
def gainReply : Text := "GAIN1,2\r\nOK\r\n> ".toList

/-- The reply to `MUX1,2`. -/
def muxReply : Text := "MUX1,2\r\nOK\r\n> ".toList

/-- `MUX1,2` has timed out, and the reply to it is on its way. -/
theorem session_late_mux : Session BoardReply
    { openDriver with lastError := "No response from board (Read timeout)".toList }
    { wire := marked 0 muxReply, count := 1, sinceFlush := marked 0 muxReply }
    [⟨"MUX1,2".toList, {},
      { wire := marked 0 muxReply, count := 1, sinceFlush := marked 0 muxReply }, none⟩] :=
  session_late (.start openDriver) 2 (show (exchange 10 "MUX1,2".toList 1000 openDriver).eval _ _ = _
    by decide +kernel)

/-- Nothing in that reply looks like the echo of another command. -/
theorem unambiguous_late_mux : Unambiguous "GAIN1,2".toList
    { wire := marked 0 muxReply, count := 1, sinceFlush := marked 0 muxReply } := by
  have hall : ∀ left ∈ (marked 0 muxReply).tails,
      scan "GAIN1,2".toList .waiting (boardLines (left.map Prod.fst)) = .waiting := by
    decide +kernel
  exact fun left hleft => .inl (hall left ((List.mem_tails _ _).2 hleft))

/-- `GAIN1,2` gets its own answer, though the late reply to `MUX1,2` comes first. -/
theorem session_own_answer_late_mux : Exchange.Own ⟨"GAIN1,2".toList,
    { wire := marked 0 muxReply, count := 1, sinceFlush := marked 0 muxReply },
    { count := 2, sinceFlush := marked 0 muxReply ++ marked 1 gainReply }, some "OK".toList⟩ := by
  have hs : Session BoardReply _ _ _ := session_late session_late_mux 2
    (show (exchange 10 "GAIN1,2".toList 1000
        { openDriver with lastError := "No response from board (Read timeout)".toList }).eval
        (lateStep 2) { wire := marked 0 muxReply, count := 1, sinceFlush := marked 0 muxReply }
      = ((.ok (some "OK".toList), { openDriver with
          lineBuffer := { buffer := "> ".toList, maxLength := maxRecvBuffer } }),
        { count := 2, sinceFlush := marked 0 muxReply ++ marked 1 gainReply })
      by decide +kernel)
  refine session_own_answer hs ?_ _ (List.mem_append_right _ List.mem_cons_self)
  intro e he
  rcases List.mem_append.1 he with he | he
  · rw [List.mem_singleton.1 he]
    intro left hleft
    rw [List.suffix_nil.1 hleft]
    exact .inl rfl
  · rw [List.mem_singleton.1 he]
    exact unambiguous_late_mux

/-- **A repeated command takes the late reply to its first transmission.**  `GAIN1,2` times out and
is sent again while the first reply is on its way: the second exchange returns the `OK` of the
first transmission. -/
theorem late_reply_answers_repetition :
    ¬∀ u w log, Session BoardReply u w log → ∀ e ∈ log, e.Own := by
  intro hown
  have hs₁ : Session BoardReply _ _ _ := session_late (.start openDriver) 2
    (show (exchange 10 "GAIN1,2".toList 1000 openDriver).eval (lateStep 2) {}
      = ((.ok none, { openDriver with lastError := "No response from board (Read timeout)".toList }),
        { wire := marked 0 gainReply, count := 1, sinceFlush := marked 0 gainReply })
      by decide +kernel)
  have hs₂ := session_late hs₁ 2
    (show (exchange 10 "GAIN1,2".toList 1000
        { openDriver with lastError := "No response from board (Read timeout)".toList }).eval
        (lateStep 2)
        { wire := marked 0 gainReply, count := 1, sinceFlush := marked 0 gainReply }
      = ((.ok (some "OK".toList), { openDriver with
          lineBuffer := { buffer := "> GAIN1,2\r\nOK\r\n> ".toList, maxLength := maxRecvBuffer } }),
        { count := 2, sinceFlush := marked 0 gainReply ++ marked 1 gainReply })
      by decide +kernel)
  obtain ⟨before, echo, answer, after, data, hlines, hbefore, -, hanswer, hdata, -, hmarks⟩ :=
    hown _ _ _ hs₂ _ (List.mem_append_right _ List.mem_cons_self) _ rfl
  -- the first line on the way is an echo already, and the second is an `OK`
  have hall : markedLines (marked 0 gainReply ++ marked 1 gainReply)
      = [marked 0 "GAIN1,2\r".toList, marked 0 "OK\r".toList,
        marked 0 "> ".toList ++ marked 1 "GAIN1,2\r".toList, marked 1 "OK\r".toList] := by
    decide +kernel
  rw [hall] at hlines
  cases before with
  | cons first before =>
      obtain ⟨hfirst, -⟩ := List.cons.inj hlines
      have hecho := hbefore "GAIN1,2".toList (by rw [← hfirst]; simp [lineText, marked, stripCr])
      exact absurd hecho (by decide)
  | nil =>
      obtain ⟨-, hrest⟩ := List.cons.inj hlines
      cases answer with
      | nil => simp at hanswer
      | cons second answer =>
          obtain ⟨hsecond, -⟩ := List.cons.inj hrest
          have hmark := hmarks second List.mem_cons_self ('O', 0) (by rw [← hsecond]; decide)
          cases hmark

end Uart

end Afm
