/-
**Commands and replies of the board.**

`BoardProtocol::sendCommand` writes a command line and reads lines until the board has echoed the
command and answered `OK` or `ERR:`.  It knows the serial line only through three callbacks, and
reports failures in a string that the callbacks share.

Main definitions:

* `Afm.Board.callbacks`, `Afm.Board.sendCommand` — the callbacks, and the exchange;
* `Afm.Board.Scan`, `Afm.Board.scan` — what a list of lines says about a command.

Main results:

* `Afm.Board.scan_waiting_eq_ok` — an answer is the lines between the first echo and `OK`;
* `Afm.Board.replyLoop_runs`, `Afm.Board.sendCommand_runs` — the loop computes the scan of the
  lines it reads.
-/

import RedPitayaAfm.Effect
import RedPitayaAfm.Board

set_option relaxedAutoImplicit false
set_option autoImplicit false

namespace Afm

namespace Board

open Effect

/-! ### The exchange -/

/-- The callbacks of `BoardProtocol`. -/
inductive ProtocolCall
  | send (data : Text)
  | readLine (timeoutMs : ℕ)
  | now

/-- What the callbacks return.  One that fails leaves its reason in the error string. -/
abbrev callbacks : Interface where
  Call := ProtocolCall
  Reply
    | .send _ => Except Text Unit
    | .readLine _ => Except Text Text
    | .now => ℤ

/-- No exception of the source: a loop has not ended within the rounds given to it. -/
inductive Stuck
  | running
  deriving DecidableEq

/-- A method over the callbacks; its field is `m_lastError`. -/
abbrev ProtocolMethod (α : Type) := Act callbacks Text Stuck α

/-- `m_send` -/
def send (data : Text) : ProtocolMethod (Except Text Unit) :=
  Act.call (I := callbacks) (.send data)

/-- `m_readLine` -/
def readLine (timeoutMs : ℕ) : ProtocolMethod (Except Text Text) :=
  Act.call (I := callbacks) (.readLine timeoutMs)

/-- `m_now` -/
def now : ProtocolMethod ℤ := Act.call (I := callbacks) .now

/-- `MAX_REPLY_LINES` -/
def maxReplyLines : ℕ := 64

/-- Nanoseconds in a millisecond; the clock counts nanoseconds. -/
def nsPerMs : ℤ := 1000000

/-- `duration_cast<milliseconds>` -/
def toMs (ns : ℤ) : ℤ := ns.tdiv nsPerMs

/-- `_isEcho`: the echo follows the prompt left by the previous command. -/
def isEcho (line command : Text) : Bool := line.dropWhile (fun c => c == '>' || c == ' ') == command

/-- The end of `sendCommand` without an answer. -/
def giveUp (command : Text) (lineCount : ℕ) (echoSeen : Bool) : ProtocolMethod (Option Text) := do
  let reason : Text :=
    if maxReplyLines ≤ lineCount then
      "Board reply exceeds ".toList ++ toText maxReplyLines ++ " lines".toList
    else if echoSeen then "No OK or ERR from board after ".toList ++ command
    else if 0 < lineCount then "Board did not echo ".toList ++ command
    else "No response from board".toList
  Act.modify fun lastError =>
    if lastError.isEmpty then reason else reason ++ " (".toList ++ lastError ++ ")".toList
  pure none

/-- The loop of `sendCommand`, with the lines it may still read. -/
def replyLoop (command : Text) (deadline : ℤ) :
    ℕ → Bool → Text → ProtocolMethod (Option Text)
  | 0, echoSeen, _ => giveUp command maxReplyLines echoSeen
  | left + 1, echoSeen, payload => do
      let lineCount := maxReplyLines - (left + 1)
      let time ← now
      let remaining := toMs (deadline - time)
      if remaining ≤ 0 then giveUp command lineCount echoSeen
      else
        match ← readLine (remaining.toNat % 2 ^ 32) with
        | .error reason => do
            Act.modify fun _ => reason
            giveUp command lineCount echoSeen
        | .ok line =>
            if !echoSeen then replyLoop command deadline left (isEcho line command) payload
            else if line = "OK".toList then
              pure (some (if payload.isEmpty then line else payload))
            else if "ERR:".toList.isPrefixOf line then do
              Act.modify fun _ => line.drop 4
              pure none
            else
              replyLoop command deadline left true
                (payload ++ (if payload.isEmpty then [] else ['\n']) ++ line)

/-- `sendCommand`: the response, when the board answered `OK`. -/
def sendCommand (command : Text) (timeoutMs : ℕ) : ProtocolMethod (Option Text) := do
  match ← send (command ++ ['\n']) with
  | .error reason => do
      Act.modify fun _ => reason
      pure none
  | .ok () => do
      let start ← now
      Act.modify fun _ => []
      replyLoop command (start + timeoutMs * nsPerMs) maxReplyLines false []

/-! ### What lines say -/

/-- How far the lines read answer the command. -/
inductive Scan
  | waiting
  | collecting (payload : Text)
  | ok (response : Text)
  | err (message : Text)
  deriving DecidableEq

/-- One line more. -/
def Scan.line (command : Text) : Scan → Text → Scan
  | .waiting, line => if isEcho line command then .collecting [] else .waiting
  | .collecting payload, line =>
      if line = "OK".toList then .ok (if payload.isEmpty then line else payload)
      else if "ERR:".toList.isPrefixOf line then .err (line.drop 4)
      else .collecting (payload ++ (if payload.isEmpty then [] else ['\n']) ++ line)
  | s, _ => s

/-- What the lines say about the command. -/
def scan (command : Text) (s : Scan) (ls : List Text) : Scan := ls.foldl (Scan.line command) s

@[simp] theorem scan_nil (command : Text) (s : Scan) : scan command s [] = s := rfl

@[simp] theorem scan_cons (command : Text) (s : Scan) (l : Text) (ls : List Text) :
    scan command s (l :: ls) = scan command (s.line command l) ls := rfl

theorem scan_append (command : Text) (s : Scan) (ls ms : List Text) :
    scan command s (ls ++ ms) = scan command (scan command s ls) ms := List.foldl_append

/-- An answer stays. -/
@[simp] theorem scan_ok (command response : Text) (ls : List Text) :
    scan command (.ok response) ls = .ok response := by
  induction ls with
  | nil => rfl
  | cons l ls ih => exact ih

@[simp] theorem scan_err (command message : Text) (ls : List Text) :
    scan command (.err message) ls = .err message := by
  induction ls with
  | nil => rfl
  | cons l ls ih => exact ih

/-- Lines are never waited for again once the echo was seen. -/
theorem scan_collecting_ne_waiting (command payload : Text) (ls : List Text) :
    scan command (.collecting payload) ls ≠ .waiting := by
  induction ls generalizing payload with
  | nil => simp
  | cons l ls ih =>
      rw [scan_cons, Scan.line]
      split
      · simp
      · split
        · simp
        · exact ih _

/-- While the scan waits there was no echo. -/
theorem isEcho_of_scan_waiting {command : Text} {ls : List Text}
    (h : scan command .waiting ls = .waiting) : ∀ l ∈ ls, isEcho l command = false := by
  induction ls with
  | nil => simp
  | cons l ls ih =>
      rw [scan_cons, Scan.line] at h
      by_cases hecho : isEcho l command = true
      · rw [if_pos hecho] at h
        exact absurd h (scan_collecting_ne_waiting _ _ _)
      · rw [if_neg hecho] at h
        intro x hx
        rcases List.mem_cons.1 hx with rfl | hx
        · simpa using hecho
        · exact ih h x hx

/-- A data line of a reply: it ends no reply. -/
def IsData (line : Text) : Prop := line ≠ "OK".toList ∧ "ERR:".toList.isPrefixOf line = false

instance (line : Text) : Decidable (IsData line) := inferInstanceAs (Decidable (_ ∧ _))

/-- The response a payload grows to. -/
def payloadAfter (payload : Text) (data : List Text) : Text :=
  data.foldl (fun p line => p ++ (if p.isEmpty then [] else ['\n']) ++ line) payload

/-- The response to data lines. -/
def responseOf (data : List Text) : Text :=
  if (payloadAfter [] data).isEmpty then "OK".toList else payloadAfter [] data

/-- While lines are collected, an answer is data lines and an `OK`. -/
theorem scan_collecting_eq_ok {command payload response : Text} {ls : List Text}
    (h : scan command (.collecting payload) ls = .ok response) :
    ∃ data more, ls = data ++ "OK".toList :: more ∧ (∀ l ∈ data, IsData l) ∧
      response = if (payloadAfter payload data).isEmpty then "OK".toList
        else payloadAfter payload data := by
  induction ls generalizing payload with
  | nil => cases h
  | cons l ls ih =>
      rw [scan_cons, Scan.line] at h
      by_cases hok : l = "OK".toList
      · rw [if_pos hok, scan_ok] at h
        obtain ⟨rfl⟩ := h
        exact ⟨[], ls, by rw [hok]; rfl, by simp, by rw [hok]; rfl⟩
      · rw [if_neg hok] at h
        by_cases herr : "ERR:".toList.isPrefixOf l = true
        · rw [if_pos herr, scan_err] at h
          cases h
        · rw [if_neg herr] at h
          obtain ⟨data, more, rfl, hdata, hresponse⟩ := ih h
          refine ⟨l :: data, more, rfl, ?_, hresponse⟩
          intro x hx
          rcases List.mem_cons.1 hx with rfl | hx
          · exact ⟨hok, Bool.eq_false_iff.2 herr⟩
          · exact hdata x hx

/-- **An answer** is the lines between the first echo and the `OK` after it. -/
theorem scan_waiting_eq_ok {command response : Text} {ls : List Text}
    (h : scan command .waiting ls = .ok response) :
    ∃ skipped echo data more, ls = skipped ++ echo :: (data ++ "OK".toList :: more) ∧
      (∀ l ∈ skipped, isEcho l command = false) ∧ isEcho echo command = true ∧
      (∀ l ∈ data, IsData l) ∧ response = responseOf data := by
  induction ls with
  | nil => cases h
  | cons l ls ih =>
      rw [scan_cons, Scan.line] at h
      by_cases hecho : isEcho l command = true
      · rw [if_pos hecho] at h
        obtain ⟨data, more, rfl, hdata, hresponse⟩ := scan_collecting_eq_ok h
        exact ⟨[], l, data, more, rfl, by simp, hecho, hdata, hresponse⟩
      · rw [if_neg hecho] at h
        obtain ⟨skipped, echo, data, more, rfl, hskipped, hecho', hdata, hresponse⟩ := ih h
        refine ⟨l :: skipped, echo, data, more, rfl, ?_, hecho', hdata, hresponse⟩
        intro x hx
        rcases List.mem_cons.1 hx with rfl | hx
        · simpa using hecho
        · exact hskipped x hx

/-- Data lines are collected. -/
theorem scan_data {command : Text} {data : List Text} (hdata : ∀ l ∈ data, IsData l) :
    ∀ payload, scan command (.collecting payload) data = .collecting (payloadAfter payload data) := by
  induction data with
  | nil => exact fun _ => rfl
  | cons l ls ih =>
      intro payload
      obtain ⟨hok, herr⟩ := hdata l (by simp)
      rw [scan_cons, Scan.line, if_neg hok, if_neg (Bool.eq_false_iff.1 herr)]
      exact ih (fun x hx => hdata x (by simp [hx])) _

/-- The scan of a whole reply. -/
theorem scan_reply {command : Text} {skipped data more : List Text} {echo : Text}
    (hskipped : ∀ l ∈ skipped, isEcho l command = false) (hecho : isEcho echo command = true)
    (hdata : ∀ l ∈ data, IsData l) :
    scan command .waiting (skipped ++ echo :: (data ++ "OK".toList :: more))
      = .ok (responseOf data) := by
  have hskip : scan command .waiting skipped = .waiting := by
    induction skipped with
    | nil => rfl
    | cons l ls ih =>
        rw [scan_cons, Scan.line, if_neg (by simp [hskipped l (by simp)])]
        exact ih fun x hx => hskipped x (by simp [hx])
  rw [scan_append, hskip, scan_cons, Scan.line, if_pos hecho, scan_append, scan_data hdata, scan_cons,
    Scan.line, if_pos rfl, scan_ok]
  rfl

/-! ### Runs -/

section Runs

variable {β : Type} {W : World callbacks} {ahead : W.State → List Text} {kept : W.State → β}

/-- The world holds the lines that are still to be read, and something that reading keeps. -/
structure Feeds (W : World callbacks) (ahead : W.State → List Text) (kept : W.State → β) :
    Prop where
  line : ∀ {w t l w'}, W.Step w (.readLine t) (.ok l) w' →
    ahead w = l :: ahead w' ∧ kept w' = kept w
  now : ∀ {w t w'}, W.Step w .now t w' → ahead w' = ahead w ∧ kept w' = kept w

/-- `sendCommand` without an answer. -/
theorem giveUp_runs {command : Text} {n : ℕ} {b : Bool} {e e' : Text} {w w' : W.State}
    {r : Except Stuck (Option Text)} (h : Runs W w (giveUp command n b e) (r, e') w') :
    r = .ok none := by
  simp only [giveUp, Act.bind_apply, Act.modify_apply, Prog.bind_done] at h
  obtain ⟨⟨⟩, rfl⟩ := runs_done.1 h
  rfl

/-- Where the loop stands. -/
def standing (echoSeen : Bool) (payload : Text) : Scan :=
  if echoSeen then .collecting payload else .waiting

/-- **The loop computes the scan** of the lines it reads. -/
theorem replyLoop_runs (hW : Feeds W ahead kept) {command : Text} {deadline : ℤ} {left : ℕ}
    {echoSeen : Bool} {payload response e e' : Text} {w w' : W.State}
    (hp : echoSeen = false → payload = [])
    (h : Runs W w (replyLoop command deadline left echoSeen payload e) (.ok (some response), e')
      w') : kept w' = kept w ∧ ∃ used, used.length ≤ left ∧ ahead w = used ++ ahead w' ∧
        scan command (standing echoSeen payload) used = .ok response := by
  induction left generalizing w echoSeen payload e with
  | zero =>
      have := giveUp_runs h
      cases this
  | succ left ih =>
      simp only [replyLoop, now, Act.bind_apply, Act.call_apply, Prog.bind_call,
        Prog.bind_done, runs_call] at h
      obtain ⟨time, w₁, hnow, h⟩ := h
      split at h
      · have := giveUp_runs h
        cases this
      simp only [readLine, Act.bind_apply, Act.call_apply, Prog.bind_call, Prog.bind_done,
        runs_call] at h
      obtain ⟨reply, w₂, hread, h⟩ := h
      cases reply with
      | error reason =>
          simp only [Act.bind_apply, Act.modify_apply, Prog.bind_done] at h
          have := giveUp_runs h
          cases this
      | ok line =>
          have hahead : ahead w = line :: ahead w₂ := by rw [← (hW.now hnow).1, (hW.line hread).1]
          have hkept : kept w₂ = kept w := by rw [(hW.line hread).2, (hW.now hnow).2]
          -- one line more, and the rest of the loop
          have hmore : ∀ {b p}, (b = false → p = []) →
              Runs W w₂ (replyLoop command deadline left b p e) (.ok (some response), e') w' →
              (standing echoSeen payload).line command line = standing b p →
              kept w' = kept w ∧ ∃ used, used.length ≤ left + 1 ∧ ahead w = used ++ ahead w' ∧
                scan command (standing echoSeen payload) used = .ok response := by
            intro b p hb hrun hline
            obtain ⟨hkept', used, hlen, heq, hscan⟩ := ih hb hrun
            refine ⟨hkept'.trans hkept, line :: used, Nat.succ_le_succ hlen, by rw [hahead, heq]; rfl, ?_⟩
            rw [scan_cons, hline, hscan]
          simp only at h
          cases echoSeen with
          | false =>
              obtain rfl := hp rfl
              exact hmore (fun _ => rfl) h rfl
          | true =>
              simp only [Bool.not_true, Bool.false_eq_true, if_false] at h
              split at h
              · rename_i hok
                obtain ⟨⟨⟩, rfl⟩ := runs_done.1 h
                refine ⟨hkept, [line], by simp, by rw [hahead]; rfl, ?_⟩
                exact if_pos hok
              · rename_i hok
                split at h
                · simp only [Act.bind_apply, Act.modify_apply, Prog.bind_done] at h
                  obtain ⟨heq, -⟩ := runs_done.1 h
                  cases heq
                · rename_i herr
                  refine hmore (by simp) h ?_
                  show (if line = "OK".toList then _ else _) = standing true _
                  rw [if_neg hok, if_neg herr]
                  rfl

/-- **A command that succeeds** was sent, and the lines read after that answer it. -/
theorem sendCommand_runs (hW : Feeds W ahead kept) {command : Text} {timeoutMs : ℕ}
    {response e e' : Text} {w w' : W.State}
    (h : Runs W w (sendCommand command timeoutMs e) (.ok (some response), e') w') :
    ∃ w₁, W.Step w (.send (command ++ ['\n'])) (.ok ()) w₁ ∧ kept w' = kept w₁ ∧
      ∃ used, used.length ≤ maxReplyLines ∧ ahead w₁ = used ++ ahead w' ∧
        scan command .waiting used = .ok response := by
  simp only [sendCommand, send, Act.bind_apply, Act.call_apply, Prog.bind_call, Prog.bind_done,
    runs_call] at h
  obtain ⟨reply, w₁, hsend, h⟩ := h
  cases reply with
  | error reason =>
      simp only [Act.bind_apply, Act.modify_apply, Prog.bind_done] at h
      obtain ⟨heq, -⟩ := runs_done.1 h
      cases heq
  | ok u =>
      simp only [now, Act.bind_apply, Act.call_apply, Act.modify_apply, Prog.bind_call,
        Prog.bind_done, runs_call] at h
      obtain ⟨time, w₂, hnow, h⟩ := h
      obtain ⟨hkept, used, hlen, heq, hscan⟩ := replyLoop_runs hW (fun _ => rfl) h
      exact ⟨w₁, hsend, hkept.trans (hW.now hnow).2, used, hlen, by rw [← (hW.now hnow).1, heq],
        hscan⟩

end Runs

end Board

end Afm
