/-
**The driver with the firmware behind it.**

The serial line between `ElectronicBoardUART` and the board, when it loses and alters nothing: what
the driver writes is processed by the firmware byte by byte, and what the firmware sends arrives in
order after any delay, in pieces of any size.  A flush discards what has arrived.  Every reply ends
before its timeout.

Main definitions:

* `Afm.Uart.Cable`, `Afm.Uart.cable` — the line with the firmware at its end, and what it may do;
* `Afm.Uart.Cable.Idle` — the firmware waits for a command, and no line is on its way;
* `Afm.Uart.Answers` — the lines a command is answered with.

Main results:

* `Afm.Firmware.Board.run_line` — the firmware on a line that is written to it;
* `Afm.Uart.exchange_cable` — **an exchange returns the answer of the firmware**;
* `Afm.Uart.command_cable`, `Afm.Uart.status_cable` — settings and status reports.
-/

import RedPitayaAfm.BoardGrammar
import RedPitayaAfm.StatusText

set_option relaxedAutoImplicit false
set_option autoImplicit false

namespace Afm

/-! ### A line written to the firmware -/

namespace Firmware

open CString

/-- Characters that are stored and echoed as they are. -/
def IsPlain (c : Char) : Prop := ¬IsLineEnd c ∧ ¬IsBackspace c ∧ c ≠ nul

instance (c : Char) : Decidable (IsPlain c) := inferInstanceAs (Decidable (_ ∧ _ ∧ _))

/-- The firmware on the rest of a line and its end. -/
theorem Board.run_line {typed : Text} (htyped : ∀ c ∈ typed, IsPlain c) :
    ∀ {b : Board} {line : Text} (locals : ℕ → Memory), b.Editing line → nul ∉ line →
      line ++ typed ≠ [] → (line ++ typed).length < cmdMaxLength →
      ∃ outcomes, b.run locals (typed ++ ['\n']) =
          .ok (⟨cmdInit, b.switches.performAll (execute b.switches (line ++ typed)).changes⟩,
            outcomes) ∧
        outcomes.flatMap Outcome.sent =
          typed ++ newLine ++ (execute b.switches (line ++ typed)).sent ++ "> ".toList := by
  induction typed with
  | nil =>
      intro b line locals hediting hline hne _
      rw [List.append_nil] at hne ⊢
      have hstep := Board.step_end hediting hline hne (c := '\n') (by decide) (locals 0)
      refine ⟨_, Board.run_cons hstep [], ?_⟩
      simp
  | cons c typed ih =>
      intro b line locals hediting hline hne hlen
      obtain ⟨hend, hback, hnul⟩ := htyped c (List.mem_cons_self ..)
      have hsplit : line ++ c :: typed = line ++ [c] ++ typed := by simp
      have hfits : line.length < cmdMaxLength - 1 := by
        rw [List.length_append, List.length_cons] at hlen
        omega
      have hedit : edit line c = line ++ [c] := by
        unfold edit
        rw [if_neg hback, if_pos hfits]
      have hecho : echo line c = [c] := by
        unfold echo
        rw [if_neg hback, if_pos hfits]
      obtain ⟨b₁, hstep, hediting₁, hswitches⟩ := Board.step_edit hediting hend (locals 0)
      rw [hedit] at hediting₁
      rw [hsplit] at hne hlen ⊢
      obtain ⟨outcomes, hrun, hsent⟩ := ih (fun x hx => htyped x (List.mem_cons_of_mem _ hx))
        (fun n => locals (n + 1)) hediting₁ (hedit ▸ nul_not_mem_edit hline hnul) hne hlen
      rw [hswitches] at hrun hsent
      refine ⟨{ sent := echo line c } :: outcomes, ?_, ?_⟩
      · rw [List.cons_append, Board.run_cons hstep, hrun]
        rfl
      · rw [List.flatMap_cons, hsent, hecho]
        simp

end Firmware

namespace Uart

open Effect Board Firmware CString

/-! ### The line -/

/-- The timeout of a command, in nanoseconds. -/
def replyTime : ℤ := 1000 * nsPerMs

/-- The firmware, the bytes it has sent that were not read yet, the last reading of the clock, and
the time of the last write. -/
structure Cable where
  board : Firmware.Board
  wire : Text := []
  clock : ℤ := 0
  written : ℤ := 0

/-- What the line may do.  What is written is processed by the firmware, whatever its local arrays
hold.  While something is still to be read, a poll reports it and a read does not fail.  The clock
never goes back; until the next write it stays two milliseconds below the timeout, which is what
the driver loses by rounding to milliseconds twice. -/
inductive CableStep : Cable → (c : Call) → device.Reply c → Cable → Prop
  | openPort (w : Cable) (r : Except Text Unit) : CableStep w .openPort r w
  | getAttr (w : Cable) (r : Except Text Unit) : CableStep w .getAttr r w
  | setAttr (w : Cable) (baudRate : ℕ) (r : Except Text Unit) :
      CableStep w (.setAttr baudRate) r w
  | flush (w : Cable) (arrived left : Text) (h : w.wire = arrived ++ left) :
      CableStep w .flush () { w with wire := left }
  | close (w : Cable) (arrived left : Text) (h : w.wire = arrived ++ left) :
      CableStep w .close () { w with wire := left }
  | write (w : Cable) (data : Text) (locals : ℕ → Memory) (board : Firmware.Board)
      (outcomes : List Outcome) (time : ℤ) (hrun : w.board.run locals data = .ok (board, outcomes))
      (htime : w.clock ≤ time) :
      CableStep w (.write data) (.ok ())
        { board := board, wire := w.wire ++ outcomes.flatMap Outcome.sent, clock := time,
          written := time }
  | now (w : Cable) (time : ℤ) (hclock : w.clock ≤ time)
      (htime : time + 2 * nsPerMs ≤ w.written + replyTime) :
      CableStep w .now time { w with clock := time }
  | poll (w : Cable) (timeoutMs : ℤ) (r : PollResult) (h : w.wire ≠ [] → r = .ready) :
      CableStep w (.poll timeoutMs) r w
  | read (w : Cable) (count : ℕ) (bytes left : Text) (hle : bytes.length ≤ count)
      (h : w.wire = bytes ++ left) : CableStep w (.read count) (.data bytes) { w with wire := left }
  | readAgain (w : Cable) (count : ℕ) : CableStep w (.read count) .again w

/-- The line as an environment of the driver. -/
abbrev cable : World device := ⟨Cable, CableStep⟩

/-- The firmware waits for a command, and no line is on its way: at most the end of the last one,
and the prompt. -/
structure Cable.Idle (w : Cable) (s : Switches) : Prop where
  board : w.board = ⟨cmdInit, s⟩
  wire : w.wire <:+ "\r\n> ".toList

theorem carries_cable : Carries cable Cable.wire fun w => (w.board, w.written) where
  read := by
    intro w n bytes w' h
    cases h with
    | read _ _ left _ hwire => exact ⟨hwire, rfl⟩
  again := by
    rintro w n w' ⟨⟩
    exact ⟨rfl, rfl⟩
  poll := by
    rintro w t r w' ⟨⟩
    exact ⟨rfl, rfl⟩
  now := by
    rintro w t w' ⟨⟩
    exact ⟨rfl, rfl⟩

/-! ### Reading a line -/

theorem nsPerMs_pos : 0 < nsPerMs := by decide

/-- Rounding to milliseconds loses less than one. -/
theorem lt_toMs {t : ℤ} (h : 0 ≤ t) : t < (toMs t + 1) * nsPerMs := by
  rw [toMs, Int.tdiv_eq_ediv_of_nonneg h]
  exact Int.lt_ediv_add_one_mul_self t nsPerMs_pos

theorem toMs_pos {t : ℤ} (h : nsPerMs ≤ t) : 0 < toMs t := by
  have hlt := lt_toMs (nsPerMs_pos.le.trans h)
  by_contra hneg
  have hle : (toMs t + 1) * nsPerMs ≤ 1 * nsPerMs :=
    mul_le_mul_of_nonneg_right (by omega) nsPerMs_pos.le
  omega

/-- How reading changes the driver and the line. -/
structure Reads (p p' : State × Cable) : Prop where
  isOpen : p'.1.isOpen = p.1.isOpen
  maxLength : p'.1.lineBuffer.maxLength = p.1.lineBuffer.maxLength
  wire : p'.2.wire <:+ p.2.wire
  clock : p.2.clock ≤ p'.2.clock
  written : p'.2.written = p.2.written
  length : (p'.1.lineBuffer.buffer ++ p'.2.wire).length ≤ (p.1.lineBuffer.buffer ++ p.2.wire).length

theorem Reads.trans {p q r : State × Cable} (h : Reads p q) (h' : Reads q r) : Reads p r :=
  ⟨h'.isOpen.trans h.isOpen, h'.maxLength.trans h.maxLength, h'.wire.trans h.wire,
    h.clock.trans h'.clock, h'.written.trans h.written, h'.length.trans h.length⟩

/-- The lines still to come fit the buffer. -/
def Fits (p : State × Cable) : Prop :=
  (p.1.lineBuffer.buffer ++ p.2.wire).length ≤ p.1.lineBuffer.maxLength

theorem Fits.of_reads {p p' : State × Cable} (h : Fits p) (hr : Reads p p') : Fits p' := by
  have hlen := hr.length
  unfold Fits at h ⊢
  rw [hr.maxLength]
  omega

/-- **A line that is still to come is read**, before the timeout. -/
theorem readLoop_cable {start timeoutMs : ℤ} {rounds : ℕ} {u u' : State} {w w' : Cable}
    {x : Option Text} (hfits : Fits (u, w)) (hmore : boardLines (u.lineBuffer.buffer ++ w.wire) ≠ [])
    (htime : w.written + replyTime ≤ start + (timeoutMs + 1) * nsPerMs)
    (h : Runs cable w (readLoop start timeoutMs rounds u) (.ok x, u') w') :
    x.isSome = true ∧ Reads (u, w) (u', w') := by
  -- induction on the rounds; a round pops a line, or takes bytes off the wire
  induction rounds generalizing u w with
  | zero =>
      obtain ⟨heq, -⟩ := runs_done.1 h
      cases heq
  | succ rounds ih =>
      simp only [readLoop, Act.bind_apply, Act.get_apply, Prog.bind_done] at h
      cases hpop : u.lineBuffer.popLine with
      | some p =>
          obtain ⟨l, lineBuffer⟩ := p
          obtain ⟨-, -, -, -, hmax, hless⟩ := LineBuffer.popLine_eq_some hpop
          have hreads : Reads (u, w) ({ u with lineBuffer := lineBuffer }, w) := by
            refine ⟨rfl, hmax, List.suffix_rfl, le_refl _, rfl, ?_⟩
            simp only [List.length_append]
            omega
          simp only [hpop, Act.bind_apply, Act.modify_apply, Prog.bind_done] at h
          rw [boardLines, streamLines_of_popLine hpop] at hmore
          by_cases hempty : l.isEmpty = true
          · rw [if_pos hempty] at h
            rw [List.filter_cons_of_neg (by simp [hempty])] at hmore
            obtain ⟨hx, hrest⟩ := ih (hfits.of_reads hreads) hmore htime h
            exact ⟨hx, hreads.trans hrest⟩
          · rw [if_neg hempty] at h
            obtain ⟨heq, rfl⟩ := runs_done.1 h
            cases heq
            exact ⟨rfl, hreads⟩
      | none =>
          -- the buffer holds no line, so the one still to come is on the wire
          have hwire : w.wire ≠ [] := by
            intro hnil
            rw [hnil, List.append_nil, boardLines, LineBuffer.popLine_eq_none hpop] at hmore
            exact hmore rfl
          simp only [hpop, now, Act.bind_apply, Act.call_apply, Prog.bind_call, Prog.bind_done,
            runs_call] at h
          obtain ⟨time, w₁, hnow, h⟩ := h
          cases hnow with
          | now _ hclock hbound =>
              -- the reply is there in time, so neither timeout of this round fires
              have hspare : nsPerMs ≤ timeoutMs * nsPerMs - (time - start) := by linarith
              have hns := nsPerMs_pos
              rw [if_neg (by omega), if_neg (not_le.2 (toMs_pos hspare))] at h
              have hreads : Reads (u, w) (u, { w with clock := time }) :=
                ⟨rfl, rfl, List.suffix_rfl, hclock, rfl, le_refl _⟩
              simp only [poll, Act.bind_apply, Act.call_apply, Prog.bind_call, Prog.bind_done,
                runs_call] at h
              obtain ⟨polled, w₂, hpoll, h⟩ := h
              cases hpoll with
              | poll _ _ hready =>
                  obtain rfl := hready hwire
                  simp only [read, Act.bind_apply, Act.call_apply, Prog.bind_call, Prog.bind_done,
                    runs_call] at h
                  obtain ⟨result, w₃, hread, h⟩ := h
                  cases hread with
                  | readAgain =>
                      obtain ⟨hx, hrest⟩ := ih (w := { w with clock := time }) hfits hmore htime h
                      exact ⟨hx, hreads.trans hrest⟩
                  | read _ bytes left hle hsplit =>
                      have hwire₁ : w.wire = bytes ++ left := hsplit
                      have hleft : left <:+ w.wire := ⟨bytes, hwire₁.symm⟩
                      cases bytes with
                      | nil =>
                          obtain rfl : w.wire = left := hwire₁
                          obtain ⟨hx, hrest⟩ := ih (w := { w with clock := time }) hfits hmore htime h
                          exact ⟨hx, hreads.trans hrest⟩
                      | cons c bytes =>
                          have hstream : u.lineBuffer.buffer ++ w.wire
                              = (u.lineBuffer.append (c :: bytes)).2.buffer ++ left := by
                            rw [hwire₁, LineBuffer.buffer_append, List.append_assoc]
                          have hroom : (u.lineBuffer.append (c :: bytes)).1 ≠ .overflow := by
                            rw [Ne, LineBuffer.append_eq_overflow_iff]
                            rintro ⟨hlong, -⟩
                            have hlen : (u.lineBuffer.buffer ++ w.wire).length
                                ≤ u.lineBuffer.maxLength := hfits
                            rw [hstream, LineBuffer.buffer_append, List.length_append] at hlen
                            omega
                          simp only [Act.bind_apply, Act.get_apply, Act.modify_apply,
                            Prog.bind_done] at h
                          rw [if_neg hroom] at h
                          have htaken : Reads (u, { w with clock := time })
                              ({ u with lineBuffer := (u.lineBuffer.append (c :: bytes)).2 },
                                { w with clock := time, wire := left }) := by
                            refine ⟨rfl, rfl, hleft, le_refl _, rfl, ?_⟩
                            simp only [hstream, le_refl]
                          obtain ⟨hx, hrest⟩ := ih (Fits.of_reads (Fits.of_reads hfits hreads) htaken)
                            (by simp only [← hstream]; exact hmore) htime h
                          exact ⟨hx, (hreads.trans htaken).trans hrest⟩

/-! ### A command and its answer -/

/-- The driver, as `BoardProtocol` sees it. -/
abbrev listening (rounds : ℕ) : World callbacks := cable.through (callback rounds)

/-- The lines still to come. -/
def ahead (p : State × Cable) : List Text := boardLines (p.1.lineBuffer.buffer ++ p.2.wire)

theorem feeds_cable (rounds : ℕ) :
    Feeds (listening rounds) ahead fun p => (p.2.board, p.2.written) :=
  feeds_through carries_cable rounds

/-- A reading of the clock. -/
theorem now_cable {rounds : ℕ} {p p' : State × Cable} {time : ℤ}
    (h : (listening rounds).Step p .now time p') :
    Reads p p' ∧ p.2.clock ≤ time ∧ p'.2.clock = time ∧
      time + 2 * nsPerMs ≤ p.2.written + replyTime := by
  obtain ⟨u, w⟩ := p
  obtain ⟨u', w'⟩ := p'
  have hrun : Runs cable w (callback rounds .now u) (.ok time, u') w' := h
  simp only [callback, now, Act.call_apply, runs_call] at hrun
  obtain ⟨time', w₁, hnow, hrun⟩ := hrun
  obtain ⟨heq, rfl⟩ := runs_done.1 hrun
  cases heq
  cases hnow with
  | now _ hclock hbound =>
      exact ⟨⟨rfl, rfl, List.suffix_rfl, hclock, rfl, le_refl _⟩, hclock, rfl, hbound⟩

/-- A line that is still to come is read, if the timeout is not before that of the command. -/
theorem readLine_cable {rounds timeoutMs : ℕ} {p p' : State × Cable} {x : Except Text Text}
    (hfits : Fits p) (hmore : ahead p ≠ [])
    (htime : p.2.written + replyTime ≤ p.2.clock + (timeoutMs + 1) * nsPerMs)
    (h : (listening rounds).Step p (.readLine timeoutMs) x p') : x.isOk = true ∧ Reads p p' := by
  obtain ⟨u, w⟩ := p
  obtain ⟨u', w'⟩ := p'
  have hrun : Runs cable w (callback rounds (.readLine timeoutMs) u) (.ok x, u') w' := h
  simp only [callback, readLine, now, Act.bind_apply, Act.call_apply, Prog.bind_call,
    Prog.bind_done, runs_call, runs_bind] at hrun
  obtain ⟨start, w₁, hnow, ⟨found, u₁⟩, w₂, hloop, hrun⟩ := hrun
  cases hnow with
  | now _ hclock hbound =>
      have hstart : w.written + replyTime ≤ start + ((timeoutMs : ℤ) + 1) * nsPerMs := by
        have hle : w.clock ≤ start := hclock
        have hfirst : w.written + replyTime ≤ w.clock + ((timeoutMs : ℤ) + 1) * nsPerMs := htime
        omega
      have hreads : Reads (u, w) (u, { w with clock := start }) :=
        ⟨rfl, rfl, List.suffix_rfl, hclock, rfl, le_refl _⟩
      cases found with
      | error e =>
          obtain ⟨heq, -⟩ := runs_done.1 hrun
          cases heq
      | ok line =>
          obtain ⟨hsome, hrest⟩ := readLoop_cable (w := { w with clock := start }) hfits hmore hstart
            hloop
          obtain ⟨l, rfl⟩ := Option.isSome_iff_exists.1 hsome
          obtain ⟨heq, rfl⟩ := runs_done.1 hrun
          cases heq
          exact ⟨rfl, hreads.trans hrest⟩

/-- The loop gets its answer. -/
theorem replyLoop_cable {rounds left : ℕ} {command payload response e e' : Text} {deadline : ℤ}
    {echoSeen : Bool} {p p' : State × Cable} {r : Except Stuck (Option Text)} (hfits : Fits p)
    (hclock : p.2.written ≤ p.2.clock) (hlong : p.2.written + replyTime ≤ deadline)
    (hshort : deadline ≤ p.2.written + 2 * replyTime) (hleft : (ahead p).length ≤ left)
    (hscan : scan command (standing echoSeen payload) (ahead p) = .ok response)
    (hp : echoSeen = false → payload = [])
    (h : Runs (listening rounds) p (replyLoop command deadline left echoSeen payload e) (r, e') p') :
    (∃ found, r = .ok (some found)) ∧ Reads p p' := by
  have hmore : ∀ {b : Bool} {t : Text} {ls : List Text},
      scan command (standing b t) ls = .ok response → ls ≠ [] := by
    rintro b t ls hok rfl
    cases b with
    | false => cases hok
    | true => cases hok
  induction left generalizing p echoSeen payload e with
  | zero => exact absurd (List.length_eq_zero_iff.1 (by omega)) (hmore hscan)
  | succ left ih =>
      simp only [replyLoop, Board.now, Act.bind_apply, Act.call_apply, Prog.bind_call,
        Prog.bind_done] at h
      obtain ⟨time, p₁, hnow, h⟩ := runs_call.1 h
      obtain ⟨hreads₁, hle, htime, hbound⟩ := now_cable hnow
      have hns := nsPerMs_pos
      have hspare : nsPerMs ≤ deadline - time := by omega
      have hremaining : 0 < toMs (deadline - time) := toMs_pos hspare
      rw [if_neg (not_le.2 hremaining)] at h
      simp only [Board.readLine, Act.bind_apply, Act.call_apply, Prog.bind_call,
        Prog.bind_done] at h
      obtain ⟨reply, p₂, hread, h⟩ := runs_call.1 h
      have hsame : ahead p₁ = ahead p := ((feeds_cable rounds).now hnow).1
      have hms : (((toMs (deadline - time)).toNat % 2 ^ 32 : ℕ) : ℤ) = toMs (deadline - time) := by
        have hsmall : toMs (deadline - time) ≤ 2 * replyTime := by
          have hself : toMs (deadline - time) ≤ deadline - time := by
            rw [toMs, Int.tdiv_eq_ediv_of_nonneg (by omega)]
            exact Int.ediv_le_self _ (by omega)
          omega
        have hbits : (2 * replyTime : ℤ) < 2 ^ 32 := by decide
        omega
      have hlast : p₁.2.written + replyTime
          ≤ p₁.2.clock + (((toMs (deadline - time)).toNat % 2 ^ 32 : ℕ) + 1) * nsPerMs := by
        have hlt := lt_toMs (t := deadline - time) (by omega)
        rw [hms, htime, hreads₁.written]
        omega
      obtain ⟨hok, hreads₂⟩ := readLine_cable (hfits.of_reads hreads₁) (hsame ▸ hmore hscan) hlast hread
      have hreads := hreads₁.trans hreads₂
      cases reply with
      | error reason => cases hok
      | ok line =>
          have hahead : ahead p = line :: ahead p₂ := by
            rw [← hsame, ((feeds_cable rounds).line hread).1]
          -- one line more, and the rest of the loop
          have hrest : ∀ {b : Bool} {t : Text}, (b = false → t = []) →
              (standing echoSeen payload).line command line = standing b t →
              Runs (listening rounds) p₂ (replyLoop command deadline left b t e) (r, e') p' →
              (∃ found, r = .ok (some found)) ∧ Reads p p' := by
            intro b t hb hline hrun
            rw [hahead, scan_cons, hline] at hscan
            rw [hahead, List.length_cons] at hleft
            have hw := hreads.written
            have hc := hreads.clock
            obtain ⟨hfound, hreads'⟩ := ih (hfits.of_reads hreads) (by omega) (by omega) (by omega)
              (by omega) hscan hb hrun
            exact ⟨hfound, hreads.trans hreads'⟩
          simp only at h
          cases echoSeen with
          | false =>
              obtain rfl := hp rfl
              exact hrest (fun _ => rfl) rfl h
          | true =>
              simp only [Bool.not_true, Bool.false_eq_true, if_false] at h
              by_cases hend : line = "OK".toList
              · rw [if_pos hend] at h
                obtain ⟨heq, rfl⟩ := runs_done.1 h
                cases heq
                exact ⟨⟨_, rfl⟩, hreads⟩
              · rw [if_neg hend] at h
                have hline : (standing true payload).line command line
                    = if "ERR:".toList.isPrefixOf line then .err (line.drop 4)
                      else .collecting (payload ++ (if payload.isEmpty then [] else ['\n']) ++ line) :=
                  if_neg hend
                by_cases herr : "ERR:".toList.isPrefixOf line = true
                · rw [hahead, scan_cons, hline, if_pos herr, scan_err] at hscan
                  cases hscan
                · rw [if_neg herr] at h hline
                  exact hrest (b := true) (by simp) hline h

/-! ### Replies -/

/-- The firmware answers a command with these data lines and `OK`. -/
structure Answers (sent : Text) (data : List Text) : Prop where
  lines : boardLines sent = data ++ ["OK".toList]
  isData : ∀ l ∈ data, IsData l
  ends : "OK\r\n".toList <:+ sent
  short : sent.length ≤ 4000
  few : data.length ≤ 60

/-- A line that the board ends with a carriage return and a line feed. -/
theorem boardLines_line {l : Text} (hl : '\n' ∉ l) (s : Text) :
    boardLines (l ++ newLine ++ s) = (if l.isEmpty then [] else [l]) ++ boardLines s := by
  have hno : ∀ c ∈ l ++ ['\r'], isNewline c = false := by
    intro c hc
    rw [isNewline, beq_eq_false_iff_ne]
    rintro rfl
    rcases List.mem_append.1 hc with hc | hc
    · exact hl hc
    · exact absurd hc (by decide)
  have hsplit : l ++ newLine ++ s = (l ++ ['\r']) ++ '\n' :: s := by simp [newLine]
  have hstrip : stripCr (l ++ ['\r']) = l := by simp [stripCr]
  rw [boardLines, streamLines, hsplit, Lines.lines_line_append _ hno (by decide), List.map_cons, hstrip]
  cases hempty : l.isEmpty with
  | true => rw [List.filter_cons_of_neg (by simp [hempty])]; rfl
  | false => rw [List.filter_cons_of_pos (by simp [hempty])]; rfl

/-- What follows the last line end makes no line. -/
theorem boardLines_prompt {sent : Text} (h : "OK\r\n".toList <:+ sent) :
    boardLines (sent ++ "> ".toList) = boardLines sent := by
  obtain ⟨front, rfl⟩ := h
  have hrest : Lines.rest isNewline (front ++ "OK\r\n".toList) = [] := by
    have hsplit : front ++ "OK\r\n".toList = (front ++ "OK\r".toList) ++ ['\n'] := by
      rw [List.append_assoc]
      rfl
    rw [hsplit, Lines.rest_append, Lines.rest_line_append _ (Lines.rest_no_nl _ _) (by decide)]
    rfl
  rw [boardLines, streamLines, Lines.lines_append, hrest, List.map_append, List.filter_append]
  exact List.append_nil _

/-- **The reply in the stream**: after what was left of the last one, the echo and the answer. -/
theorem boardLines_reply {left command sent : Text} {data : List Text}
    (hleft : left <:+ "\r\n> ".toList) (hcommand : ∀ c ∈ command, IsPlain c) (hne : command ≠ [])
    (hecho : isEcho command command = true) (h : Answers sent data) :
    ∃ echo, isEcho echo command = true ∧
      boardLines (left ++ (command ++ newLine ++ sent ++ "> ".toList))
        = echo :: (data ++ ["OK".toList]) := by
  have hno : ∀ pre ∈ ["> ".toList, " ".toList, []], '\n' ∉ pre ++ command := by
    have hprompt : ∀ pre ∈ ["> ".toList, " ".toList, []], '\n' ∉ pre := by decide
    intro pre hpre hmem
    rcases List.mem_append.1 hmem with hmem | hmem
    · exact hprompt pre hpre hmem
    · exact (hcommand _ hmem).1 (.inr rfl)
  have hline : ∀ pre ∈ ["> ".toList, " ".toList, []], isEcho (pre ++ command) command = true ∧
      boardLines (pre ++ (command ++ newLine ++ sent ++ "> ".toList))
        = (pre ++ command) :: (data ++ ["OK".toList]) := by
    intro pre hpre
    constructor
    · have hskip : (pre ++ command).dropWhile (fun c => c == '>' || c == ' ')
          = command.dropWhile fun c => c == '>' || c == ' ' := by
        simp only [List.mem_cons, List.not_mem_nil, or_false] at hpre
        rcases hpre with rfl | rfl | rfl <;> rfl
      rw [isEcho, hskip]
      exact hecho
    · have hsplit : pre ++ (command ++ newLine ++ sent ++ "> ".toList)
          = (pre ++ command) ++ newLine ++ (sent ++ "> ".toList) := by simp
      rw [hsplit, boardLines_line (hno pre hpre), boardLines_prompt h.ends, h.lines]
      simp [hne]
  have hskip : ∀ s, boardLines ('\r' :: '\n' :: s) = boardLines s ∧
      boardLines ('\n' :: s) = boardLines s := by
    intro s
    have h₁ := boardLines_line (l := []) List.not_mem_nil s
    have h₂ : boardLines ('\n' :: s) = boardLines s := by
      rw [boardLines, streamLines, Lines.lines_cons_nl _ (by decide)]
      rfl
    exact ⟨h₁, h₂⟩
  obtain ⟨h₁, h₁'⟩ := hline "> ".toList (by simp)
  obtain ⟨h₂, h₂'⟩ := hline " ".toList (by simp)
  obtain ⟨h₃, h₃'⟩ := hline [] (by simp)
  -- what is left of the last reply is one of five texts
  have htails : "\r\n> ".toList.tails = ['\r' :: '\n' :: "> ".toList, '\n' :: "> ".toList,
      "> ".toList, " ".toList, []] := by decide
  have hmem : left ∈ "\r\n> ".toList.tails := (List.mem_tails _ _).2 hleft
  rw [htails] at hmem
  simp only [List.mem_cons, List.not_mem_nil, or_false] at hmem
  rcases hmem with rfl | rfl | rfl | rfl | rfl
  · exact ⟨_, h₁, (hskip _).1.trans h₁'⟩
  · exact ⟨_, h₁, (hskip _).2.trans h₁'⟩
  · exact ⟨_, h₁, h₁'⟩
  · exact ⟨_, h₂, h₂'⟩
  · exact ⟨_, h₃, h₃'⟩

/-- When no line is left, at most the end of one is, and the prompt. -/
theorem suffix_of_no_line {buffer wire front : Text}
    (hwire : wire <:+ front ++ "OK\r\n> ".toList) (hnone : boardLines (buffer ++ wire) = []) :
    wire <:+ "\r\n> ".toList := by
  have hprompt : "\r\n> ".toList <:+ front ++ "OK\r\n> ".toList :=
    (show "\r\n> ".toList <:+ "OK\r\n> ".toList from ⟨"OK".toList, by decide⟩).trans
      (List.suffix_append _ _)
  by_cases hlen : wire.length ≤ 4
  · exact List.suffix_of_suffix_length_le hwire hprompt hlen
  · -- a longer rest holds the last letter of a line
    have hletter : "K\r\n> ".toList <:+ wire := by
      refine List.suffix_of_suffix_length_le ?_ hwire ?_
      · exact (show "K\r\n> ".toList <:+ "OK\r\n> ".toList from ⟨"O".toList, by decide⟩).trans
          (List.suffix_append _ _)
      · have hfive : "K\r\n> ".toList.length = 5 := by decide
        omega
    obtain ⟨w, rfl⟩ := hletter
    have hline : boardLines (buffer ++ (w ++ "K\r\n> ".toList))
        = boardLines (buffer ++ w) ++ boardLines (Lines.rest isNewline (buffer ++ w)
          ++ "K\r\n> ".toList) := by
      rw [← List.append_assoc, boardLines, streamLines, Lines.lines_append, List.map_append,
        List.filter_append]
      rfl
    have hrest : '\n' ∉ Lines.rest isNewline (buffer ++ w) ++ ['K'] := by
      intro hmem
      rcases List.mem_append.1 hmem with hmem | hmem
      · exact absurd (Lines.rest_no_nl isNewline _ _ hmem) (by decide)
      · exact absurd hmem (by decide)
    have hlast := boardLines_line hrest "> ".toList
    have hsplit : Lines.rest isNewline (buffer ++ w) ++ ['K'] ++ newLine ++ "> ".toList
        = Lines.rest isNewline (buffer ++ w) ++ "K\r\n> ".toList := by
      simp only [List.append_assoc]
      rfl
    rw [hsplit] at hlast
    rw [hline, hlast] at hnone
    simp at hnone

/-! ### Exchanges -/

/-- A command that the firmware takes as it is written. -/
structure Writable (text : Text) : Prop where
  plain : ∀ c ∈ text, IsPlain c
  ne_nil : text ≠ []
  short : text.length < cmdMaxLength
  echo : isEcho text text = true

theorem writable_iff {text : Text} : Writable text ↔
    text.all (fun c => decide (IsPlain c)) = true ∧ text ≠ [] ∧ text.length < cmdMaxLength ∧
      isEcho text text = true := by
  rw [List.all_eq_true]
  simp only [decide_eq_true_eq]
  exact ⟨fun h => ⟨h.plain, h.ne_nil, h.short, h.echo⟩, fun h => ⟨h.1, h.2.1, h.2.2.1, h.2.2.2⟩⟩

instance (text : Text) : Decidable (Writable text) := decidable_of_iff _ writable_iff.symm

/-- The driver is open, and its buffer has the size it was made with. -/
structure State.Ready (u : State) : Prop where
  isOpen : u.isOpen = true
  maxLength : u.lineBuffer.maxLength = maxRecvBuffer

/-- What is written to an idle firmware, and what is on its way then. -/
theorem write_cable {w w' : Cable} {s : Switches} {text : Text} {r : Except Text Unit}
    (hw : w.Idle s) (htext : Writable text)
    (h : cable.Step w (.write (text ++ ['\n'])) r w') :
    r = .ok () ∧ w'.board = ⟨cmdInit, s.performAll (execute s text).changes⟩ ∧
      w'.wire = w.wire ++ (text ++ newLine ++ (execute s text).sent ++ "> ".toList) ∧
      w'.clock = w'.written := by
  cases h with
  | write _ locals board outcomes time hrun htime =>
      obtain ⟨outcomes', hrun', hsent⟩ := Board.run_line htext.plain locals
        (cmdInit_editing s) List.not_mem_nil htext.ne_nil htext.short
      rw [hw.board, hrun'] at hrun
      cases hrun
      refine ⟨rfl, rfl, ?_, rfl⟩
      rw [hsent]
      rfl

/-- The command is written to the idle firmware. -/
theorem send_cable {rounds : ℕ} {text : Text} {s : Switches} {p p' : State × Cable}
    {reply : Except Text Unit} (hw : p.2.Idle s) (htext : Writable text)
    (h : (listening rounds).Step p (.send (text ++ ['\n'])) reply p') :
    reply = .ok () ∧ p'.1 = p.1 ∧
      p'.2.board = ⟨cmdInit, s.performAll (execute s text).changes⟩ ∧
      p'.2.wire = p.2.wire ++ (text ++ newLine ++ (execute s text).sent ++ "> ".toList) ∧
      p'.2.clock = p'.2.written := by
  obtain ⟨u, w⟩ := p
  obtain ⟨u', w'⟩ := p'
  have hrun : Runs cable w (callback rounds (.send (text ++ ['\n'])) u) (.ok reply, u') w' := h
  simp only [callback, write, Act.bind_apply, Act.call_apply, Prog.bind_call, Prog.bind_done,
    runs_call] at hrun
  obtain ⟨written, w₁, hstep, hrun⟩ := hrun
  obtain ⟨rfl, hrest⟩ := write_cable hw htext hstep
  obtain ⟨heq, rfl⟩ := runs_done.1 hrun
  cases heq
  exact ⟨rfl, rfl, hrest⟩

/-- **A command to the idle firmware** gets its answer, and leaves it idle. -/
theorem sendCommand_cable {rounds : ℕ} {text e e' : Text} {data : List Text} {s : Switches}
    {p p' : State × Cable} {r : Except Stuck (Option Text)} (hbuffer : p.1.lineBuffer.buffer = [])
    (hmax : p.1.lineBuffer.maxLength = maxRecvBuffer) (hw : p.2.Idle s) (htext : Writable text)
    (hanswers : Answers (execute s text).sent data)
    (h : Runs (listening rounds) p (sendCommand text 1000 e) (r, e') p') :
    r = .ok (some (responseOf data)) ∧ p'.1.isOpen = p.1.isOpen ∧
      p'.1.lineBuffer.maxLength = maxRecvBuffer ∧
      p'.2.Idle (s.performAll (execute s text).changes) := by
  simp only [sendCommand, send, Board.now, Act.bind_apply, Act.call_apply, Prog.bind_call,
    Prog.bind_done] at h
  obtain ⟨reply, p₁, hsend, h⟩ := runs_call.1 h
  obtain ⟨rfl, hdriver, hboard, hstream, hclock⟩ := send_cable hw htext hsend
  simp only [Act.bind_apply, Act.call_apply, Act.modify_apply, Prog.bind_call, Prog.bind_done] at h
  obtain ⟨start, p₂, hnow, hloop⟩ := runs_call.1 h
  obtain ⟨hreads₁, hle, htime, hbound⟩ := now_cable hnow
  obtain ⟨echo, hecho, hlines⟩ := boardLines_reply hw.wire htext.plain htext.ne_nil htext.echo hanswers
  have hahead : ahead p₂ = echo :: (data ++ ["OK".toList]) := by
    rw [((feeds_cable rounds).now hnow).1]
    show boardLines (p₁.1.lineBuffer.buffer ++ p₁.2.wire) = _
    rw [hdriver, hbuffer, hstream]
    exact hlines
  have hscan : scan text .waiting (ahead p₂) = .ok (responseOf data) := by
    rw [hahead]
    exact @scan_reply text [] data [] echo (by simp) hecho hanswers.isData
  have hfits : Fits p₂ := by
    have hfits₁ : Fits p₁ := by
      have hleft := hw.wire.length_le
      have hfour : "\r\n> ".toList.length = 4 := by decide
      have htwo : "> ".toList.length = 2 := by decide
      have hline : newLine.length = 2 := by decide
      have hshort := htext.short
      have hsent := hanswers.short
      unfold Fits
      rw [hdriver, hbuffer, hstream, hmax]
      simp only [List.length_append, List.nil_append, maxRecvBuffer, cmdMaxLength] at *
      omega
    exact hfits₁.of_reads hreads₁
  have hwritten : p₂.2.written = p₁.2.written := hreads₁.written
  have hreply : replyTime = 1000 * nsPerMs := rfl
  have hns := nsPerMs_pos
  obtain ⟨⟨found, rfl⟩, hreads₂⟩ := replyLoop_cable hfits (by omega)
    (show p₂.2.written + replyTime ≤ start + ((1000 : ℕ) : ℤ) * nsPerMs by omega) (by omega)
    (by
      have hfew := hanswers.few
      rw [hahead, List.length_cons, List.length_append, List.length_singleton, maxReplyLines]
      omega)
    hscan (fun _ => rfl) hloop
  -- all lines were read
  obtain ⟨hkept, used, -, hused, hfound⟩ := replyLoop_runs (feeds_cable rounds) (fun _ => rfl) hloop
  have hfound' : scan text .waiting used = .ok found := hfound
  have hnone : ahead p' = [] := by
    by_contra hne
    have hsplit : used ++ (ahead p').dropLast ++ [(ahead p').getLast hne]
        = echo :: data ++ ["OK".toList] := by
      rw [List.append_assoc, List.dropLast_append_getLast hne, ← hused, hahead]
      rfl
    have hfront : used ++ (ahead p').dropLast = echo :: data := (List.append_inj' hsplit rfl).1
    have hcollected : scan text .waiting (echo :: data) = .collecting (payloadAfter [] data) := by
      rw [scan_cons, Scan.line, if_pos hecho]
      exact scan_data hanswers.isData []
    rw [← hfront, scan_append, hfound', scan_ok] at hcollected
    cases hcollected
  have hresponse : found = responseOf data := by
    rw [hused, scan_append, hfound', scan_ok] at hscan
    cases hscan
    rfl
  have hreads := hreads₁.trans hreads₂
  refine ⟨by rw [hresponse], ?_, ?_, ?_, ?_⟩
  · rw [hreads.isOpen, hdriver]
  · rw [hreads.maxLength, hdriver, hmax]
  · have hboard' : p'.2.board = p₂.2.board := congrArg Prod.fst hkept
    have hboard₂ : p₂.2.board = p₁.2.board := congrArg Prod.fst ((feeds_cable rounds).now hnow).2
    rw [hboard', hboard₂, hboard]
  · obtain ⟨front, hfront⟩ := hanswers.ends
    have hwire := hreads.wire
    rw [hstream, ← hfront] at hwire
    refine @suffix_of_no_line p'.1.lineBuffer.buffer _ (p.2.wire ++ (text ++ newLine ++ front)) ?_
      hnone
    have hend : "OK\r\n> ".toList = "OK\r\n".toList ++ "> ".toList := by decide
    rw [hend]
    simpa only [List.append_assoc] using hwire

/-- **An exchange** with the idle firmware returns its answer, and leaves it idle. -/
theorem exchange_cable {rounds : ℕ} {text : Text} {data : List Text} {u u' : State} {w w' : Cable}
    {s : Switches} {x : Option Text} (hu : u.Ready) (hw : w.Idle s) (htext : Writable text)
    (hanswers : Answers (execute s text).sent data)
    (h : Runs cable w (exchange rounds text 1000 u) (.ok x, u') w') :
    x = some (responseOf data) ∧ u'.Ready ∧ w'.Idle (s.performAll (execute s text).changes) := by
  simp only [exchange, Act.bind_apply, Act.get_apply, Prog.bind_done] at h
  rw [if_neg (by simp [hu.isOpen])] at h
  simp only [flush, clearLines, runProtocol, Act.bind_apply, Act.call_apply, Act.get_apply,
    Act.modify_apply, Prog.bind_call, Prog.bind_done, runs_call, runs_bind] at h
  obtain ⟨⟨⟩, w₁, hflush, ⟨y, u₁⟩, w₂, hrun, h⟩ := h
  cases hflush with
  | flush arrived left hwire =>
      have hleft : left <:+ w.wire := ⟨arrived, hwire.symm⟩
      cases y with
      | error e =>
          obtain ⟨heq, -⟩ := runs_done.1 h
          cases heq
      | ok result =>
          obtain ⟨r, lastError⟩ := result
          obtain ⟨rfl, hopen, hmax, hidle⟩ := sendCommand_cable rfl hu.maxLength
            (show Cable.Idle { w with wire := left } s from ⟨hw.board, hleft.trans hw.wire⟩) htext
            hanswers (runs_handle.1 hrun)
          obtain ⟨heq, rfl⟩ := runs_done.1 h
          cases heq
          exact ⟨rfl, ⟨hopen.trans hu.isOpen, hmax⟩, hidle⟩

/-! ### The commands of the driver -/

section Commands

variable {rounds : ℕ} {u u' : State} {w w' : Cable} {s : Switches} {b : Bool}

/-- A command without a response. -/
theorem command_cable {text : Text} {data : List Text} (hu : u.Ready) (hw : w.Idle s)
    (htext : Writable text) (hanswers : Answers (execute s text).sent data)
    (h : Runs cable w (command rounds text u) (.ok b, u') w') :
    b = true ∧ u'.Ready ∧ w'.Idle (s.performAll (execute s text).changes) := by
  obtain ⟨x, u₁, w₁, hrun, hdone⟩ := Act.runs_bind_ok.1 h
  obtain ⟨rfl, hready, hidle⟩ := exchange_cable hu hw htext hanswers hrun
  obtain ⟨heq, rfl⟩ := runs_done.1 hdone
  cases heq
  exact ⟨rfl, hready, hidle⟩

theorem answers_ok : Answers sendOK [] where
  lines := by decide
  isData := by simp
  ends := List.suffix_rfl
  short := by decide
  few := by decide

/-- A command that the firmware answers with `OK` alone. -/
theorem setting_cable {text : Text} {changes : List Change} (hu : u.Ready) (hw : w.Idle s)
    (htext : Writable text) (hexecute : execute s text = { changes := changes, sent := sendOK })
    (h : Runs cable w (command rounds text u) (.ok b, u') w') :
    b = true ∧ u'.Ready ∧ w'.Idle (s.performAll changes) := by
  have hanswers : Answers (execute s text).sent [] := by
    rw [hexecute]
    exact answers_ok
  have hdone := command_cable hu hw htext hanswers h
  rwa [hexecute] at hdone

/-- The command of `setMuxRoute`. -/
def routeCommand (output input : Fin 4) : Text :=
  "MUX".toList ++ toText (output.val + 1) ++ [','] ++ toText (input.val + 1)

/-- The command of `disconnectMux`. -/
def openCommand (output : Fin 4) : Text := "MUX".toList ++ toText (output.val + 1) ++ ",X".toList

/-- The command of `setGain`. -/
def levelCommand (channel : Fin 4) (index : Fin 8) : Text :=
  "GAIN".toList ++ toText (channel.val + 1) ++ [','] ++ toText index.val

theorem execute_routeCommand (s : Switches) (output input : Fin 4) :
    execute s (routeCommand output input)
      = { changes := [.route output (some input)], sent := sendOK } := by
  have hkey : ∀ output input, keyword (routeCommand output input) = .mux := by decide
  have hargs : ∀ output input, muxCommand ((routeCommand output input).drop 3)
      = { changes := [.route output (some input)], sent := sendOK } := by decide
  unfold execute
  rw [hkey]
  exact hargs output input

theorem execute_openCommand (s : Switches) (output : Fin 4) :
    execute s (openCommand output) = { changes := [.route output none], sent := sendOK } := by
  have hkey : ∀ output, keyword (openCommand output) = .mux := by decide
  have hargs : ∀ output, muxCommand ((openCommand output).drop 3)
      = { changes := [.route output none], sent := sendOK } := by decide
  unfold execute
  rw [hkey]
  exact hargs output

theorem execute_levelCommand (s : Switches) (channel : Fin 4) (index : Fin 8) :
    execute s (levelCommand channel index)
      = { changes := [.gain channel index], sent := sendOK } := by
  have hkey : ∀ channel index, keyword (levelCommand channel index) = .gain := by decide
  have hargs : ∀ channel index, gainCommand ((levelCommand channel index).drop 4)
      = { changes := [.gain channel index], sent := sendOK } := by decide
  unfold execute
  rw [hkey]
  exact hargs channel index

/-- `setMuxRoute` connects. -/
theorem setMuxRoute_cable {output input : Fin 4} (hu : u.Ready) (hw : w.Idle s)
    (h : Runs cable w (setMuxRoute rounds output input u) (.ok b, u') w') :
    b = true ∧ u'.Ready ∧ w'.Idle (s.performAll [.route output (some input)]) := by
  have htext : ∀ output input, Writable (routeCommand output input) := by decide
  have hin : ¬(numChannels ≤ output.val ∨ numChannels ≤ input.val) := by
    have ho := output.isLt
    have hi := input.isLt
    unfold numChannels
    omega
  unfold setMuxRoute at h
  rw [if_neg hin] at h
  exact setting_cable hu hw (htext output input) (execute_routeCommand s output input) h

/-- `disconnectMux` disconnects. -/
theorem disconnectMux_cable {output : Fin 4} (hu : u.Ready) (hw : w.Idle s)
    (h : Runs cable w (disconnectMux rounds output u) (.ok b, u') w') :
    b = true ∧ u'.Ready ∧ w'.Idle (s.performAll [.route output none]) := by
  have htext : ∀ output, Writable (openCommand output) := by decide
  have hin : ¬numChannels ≤ output.val := not_le.2 output.isLt
  unfold disconnectMux at h
  rw [if_neg hin] at h
  exact setting_cable hu hw (htext output) (execute_openCommand s output) h

/-- The index of a gain, as the firmware stores it. -/
def storedGain (gain : GainSetting) : Fin 8 := ⟨gain.toIndex, Nat.lt_succ_of_le gain.toIndex_le⟩

/-- `setGain` sets the gain. -/
theorem setGain_cable {channel : Fin 4} {gain : GainSetting} (hu : u.Ready) (hw : w.Idle s)
    (h : Runs cable w (setGain rounds channel gain u) (.ok b, u') w') :
    b = true ∧ u'.Ready ∧ w'.Idle (s.performAll [.gain channel (storedGain gain)]) := by
  have htext : ∀ channel index, Writable (levelCommand channel index) := by decide
  have hin : ¬numChannels ≤ channel.val := not_le.2 channel.isLt
  unfold setGain at h
  rw [if_neg hin] at h
  exact setting_cable hu hw (htext channel (storedGain gain))
    (execute_levelCommand s channel (storedGain gain)) h

/-- `reset` resets. -/
theorem reset_cable (hu : u.Ready) (hw : w.Idle s)
    (h : Runs cable w (reset rounds u) (.ok b, u') w') :
    b = true ∧ u'.Ready ∧ w'.Idle (s.performAll muxInit) := by
  have hkey : keyword "RESET".toList = .reset := by decide
  have hexecute : execute s "RESET".toList = handleResetCommand := by
    unfold execute
    rw [hkey]
  have hanswers : Answers (execute s "RESET".toList).sent ["Reset complete".toList] := by
    rw [hexecute]
    exact
      { lines := by decide
        isData := by decide
        ends := ⟨"Reset complete\r\n".toList, rfl⟩
        short := by decide
        few := by decide }
  have hdone := command_cable hu hw (by decide) hanswers h
  rwa [hexecute] at hdone

/-- Lines as the board prints them. -/
theorem boardLines_flatMap {ls : List Text} (hls : ∀ l ∈ ls, '\n' ∉ l ∧ l ≠ []) (rest : Text) :
    boardLines (ls.flatMap (· ++ newLine) ++ rest) = ls ++ boardLines rest := by
  induction ls with
  | nil => rfl
  | cons l ls ih =>
      obtain ⟨hl, hne⟩ := hls l (List.mem_cons_self ..)
      have hrest := ih fun x hx => hls x (List.mem_cons_of_mem _ hx)
      have hempty : l.isEmpty = false := List.isEmpty_eq_false_iff.2 hne
      rw [List.flatMap_cons, List.append_assoc, boardLines_line hl, hrest, hempty]
      rfl

/-- The status is answered with its lines. -/
theorem answers_status (s : Switches) :
    Answers (handleStatusCommand s).sent (statusLines s) := by
  have hrouting : ∀ output input, IsData (routingText output input) ∧
      '\n' ∉ routingText output input ∧ routingText output input ≠ [] ∧
        (routingText output input).length ≤ 40 := by decide
  have hgain : ∀ channel gain, IsData (gainText channel gain) ∧ '\n' ∉ gainText channel gain ∧
      gainText channel gain ≠ [] ∧ (gainText channel gain).length ≤ 40 := by decide
  have htitle : ∀ l ∈ ["=== MUX Status ===".toList, "Routing:".toList, "Gains:".toList,
      "==================".toList], IsData l ∧ '\n' ∉ l ∧ l ≠ [] ∧ l.length ≤ 40 := by decide
  have hall : ∀ l ∈ statusLines s, IsData l ∧ '\n' ∉ l ∧ l ≠ [] ∧ l.length ≤ 40 :=
    forall_mem_statusLines htitle hrouting hgain s
  have hcount : (statusLines s).length = 12 := rfl
  have hsent : (handleStatusCommand s).sent
      = newLine ++ ((statusLines s).flatMap (· ++ newLine) ++ sendOK) := by
    show muxPrintStatus s ++ sendOK = _
    rw [muxPrintStatus_eq, List.append_assoc]
  have hbody : ((statusLines s).flatMap (· ++ newLine)).length ≤ 12 * 42 := by
    rw [List.length_flatMap]
    refine (List.sum_le_card_nsmul _ 42 ?_).trans (by simp [hcount])
    intro n hn
    obtain ⟨l, hl, rfl⟩ := List.mem_map.1 hn
    have hline : newLine.length = 2 := by decide
    have hle := (hall l hl).2.2.2
    rw [List.length_append]
    omega
  constructor
  · rw [hsent]
    have hfirst := boardLines_line (l := []) List.not_mem_nil
      ((statusLines s).flatMap (· ++ newLine) ++ sendOK)
    rw [List.nil_append] at hfirst
    have hok : boardLines sendOK = ["OK".toList] := by decide
    rw [hfirst, boardLines_flatMap fun l hl => ⟨(hall l hl).2.1, (hall l hl).2.2.1⟩, hok]
    rfl
  · exact fun l hl => (hall l hl).1
  · rw [hsent, ← List.append_assoc]
    exact List.suffix_append _ _
  · have hfour : sendOK.length = 4 := by decide
    have hline : newLine.length = 2 := by decide
    rw [hsent, List.length_append, List.length_append]
    omega
  · omega

/-- Behind a line, the lines that follow are joined with line feeds. -/
theorem payloadAfter_of_ne_nil {payload : Text} (h : payload ≠ []) (data : List Text) :
    payloadAfter payload data = payload ++ behindNewlines data := by
  induction data generalizing payload with
  | nil => exact (List.append_nil _).symm
  | cons l ls ih =>
      have hempty : payload.isEmpty = false := List.isEmpty_eq_false_iff.2 h
      have hstep : payloadAfter payload (l :: ls) = payloadAfter (payload ++ ['\n'] ++ l) ls := by
        show payloadAfter (payload ++ (if payload.isEmpty then [] else ['\n']) ++ l) ls = _
        rw [hempty]
        rfl
      rw [hstep, ih (by simp [h]), behindNewlines, behindNewlines, List.flatMap_cons]
      simp

theorem payloadAfter_nil (l : Text) (ls : List Text) :
    payloadAfter [] (l :: ls) = payloadAfter l ls := rfl

/-- What the driver makes of the lines is the text of the status. -/
theorem responseOf_statusLines (s : Switches) : responseOf (statusLines s) = statusText s := by
  have hne : "=== MUX Status ===".toList ≠ [] := by decide
  have hpayload : payloadAfter [] (statusLines s) = statusText s := by
    rw [Py.BoardStatus.statusText_eq, statusLines, payloadAfter_nil, payloadAfter_of_ne_nil hne,
      List.tail_cons]
  have hempty : (statusText s).isEmpty = false := by
    rw [Py.BoardStatus.statusText_eq, List.isEmpty_eq_false_iff]
    exact fun h => hne (List.append_eq_nil_iff.1 h).1
  rw [responseOf, hpayload, hempty]
  rfl

/-- An array whose every value is shown. -/
theorem fillChannels_all {β : Type} (held : β) (value : Fin 4 → β) :
    fillChannels held ((List.finRange 4).map fun i => some (value i)) = fun i => (value i, true) := by
  funext i
  simp [fillChannels]

/-- **A status report** is the text of the state of the firmware, which stays. -/
theorem status_cable {x : Option Text} (hu : u.Ready) (hw : w.Idle s)
    (h : Runs cable w (exchange rounds "STATUS".toList 1000 u) (.ok x, u') w') :
    x = some (statusText s) ∧ u'.Ready ∧ w'.Idle s := by
  have hkey : keyword "STATUS".toList = .status := by decide
  have hexecute : execute s "STATUS".toList = handleStatusCommand s := by
    unfold execute
    rw [hkey]
  have hdone := exchange_cable hu hw (by decide) (by rw [hexecute]; exact answers_status s) h
  rwa [hexecute, responseOf_statusLines] at hdone

/-- `getStatus` -/
theorem getStatus_cable {x : Option Text} (hu : u.Ready) (hw : w.Idle s)
    (h : Runs cable w (getStatus rounds u) (.ok x, u') w') :
    x = some (statusText s) ∧ u'.Ready ∧ w'.Idle s := status_cable hu hw h

/-- `queryGains` shows the gain of every channel. -/
theorem queryGains_cable {x : Except StringScan.Misuse (Option (Fin 4 → GainSetting × Bool))}
    (hu : u.Ready) (hw : w.Idle s)
    (h : Runs cable w (queryGains rounds u) (.ok x, u') w') :
    x = .ok (some fun i => (GainSetting.ofIndex (s.ampGains i), true)) ∧ u'.Ready ∧ w'.Idle s := by
  obtain ⟨status, u₁, w₁, hrun, hdone⟩ := Act.runs_bind_ok.1 h
  obtain ⟨rfl, hready, hidle⟩ := status_cable hu hw hrun
  simp only [parseGainStatus_statusText] at hdone
  obtain ⟨heq, rfl⟩ := runs_done.1 hdone
  cases heq
  refine ⟨?_, hready, hidle⟩
  rw [← fillChannels_all .gain1]
  rfl

/-- `queryRouting` shows the connection of every output. -/
theorem queryRouting_cable {x : Except StringScan.Misuse (Option (Fin 4 → ℕ × Bool))}
    (hu : u.Ready) (hw : w.Idle s)
    (h : Runs cable w (queryRouting rounds u) (.ok x, u') w') :
    x = .ok (some fun i => (((s.muxRouting i).map Fin.val).getD disconnected, true)) ∧ u'.Ready ∧
      w'.Idle s := by
  obtain ⟨status, u₁, w₁, hrun, hdone⟩ := Act.runs_bind_ok.1 h
  obtain ⟨rfl, hready, hidle⟩ := status_cable hu hw hrun
  simp only [parseRoutingStatus_statusText] at hdone
  obtain ⟨heq, rfl⟩ := runs_done.1 hdone
  cases heq
  refine ⟨?_, hready, hidle⟩
  rw [← fillChannels_all disconnected]
  rfl

/-! ### Opening and closing -/

/-- What has arrived may be discarded. -/
theorem Cable.Idle.discard {arrived left : Text} (hw : w.Idle s) (h : w.wire = arrived ++ left) :
    Cable.Idle { w with wire := left } s :=
  ⟨hw.board, (show left <:+ w.wire from ⟨arrived, h.symm⟩).trans hw.wire⟩

/-- `::close` -/
theorem closeDevice_cable {x : Except Stuck Unit} (hw : w.Idle s)
    (h : Runs cable w (closeDevice u) (x, u') w') :
    x = .ok () ∧ u' = { u with isOpen := false } ∧ w'.Idle s := by
  simp only [closeDevice, Act.bind_apply, Act.call_apply, Act.modify_apply, Prog.bind_call,
    Prog.bind_done, runs_call] at h
  obtain ⟨⟨⟩, w₁, hclose, h⟩ := h
  obtain ⟨heq, rfl⟩ := runs_done.1 h
  cases heq
  cases hclose with
  | close arrived left hwire => exact ⟨rfl, rfl, hw.discard hwire⟩

/-- `close` -/
theorem close_cable (hw : w.Idle s) (h : Runs cable w (close u) (.ok (), u') w') : w'.Idle s := by
  simp only [close, Act.bind_apply, Act.get_apply, Prog.bind_done] at h
  by_cases hopen : u.isOpen = true
  · rw [if_pos hopen] at h
    obtain ⟨⟨x, u₁⟩, w₁, hclose, h⟩ := runs_bind.1 h
    obtain ⟨rfl, -, hidle⟩ := closeDevice_cable hw hclose
    obtain ⟨-, rfl⟩ := runs_done.1 h
    exact hidle
  · rw [if_neg hopen] at h
    obtain ⟨-, rfl⟩ := runs_done.1 h
    exact hw

/-- `_configurePort` does not touch the line. -/
theorem configurePort_cable (h : Runs cable w (configurePort u) (.ok b, u') w') :
    w' = w ∧ u'.isOpen = u.isOpen ∧ u'.lineBuffer = u.lineBuffer := by
  simp only [configurePort, Act.bind_apply, Act.get_apply, Act.call_apply, Prog.bind_call,
    Prog.bind_done, runs_call] at h
  obtain ⟨attr, w₁, hattr, h⟩ := h
  cases hattr with
  | getAttr =>
      cases attr with
      | error reason =>
          obtain ⟨heq, rfl⟩ := runs_done.1 h
          cases heq
          exact ⟨rfl, rfl, rfl⟩
      | ok done =>
          by_cases hrate : u.baudRate = 9600 ∨ u.baudRate = 115200
          · simp only [if_pos hrate, Act.bind_apply, Act.call_apply, Prog.bind_call, Prog.bind_done,
              runs_call] at h
            obtain ⟨set, w₂, hset, h⟩ := h
            cases hset with
            | setAttr =>
                cases set with
                | error reason =>
                    obtain ⟨heq, rfl⟩ := runs_done.1 h
                    cases heq
                    exact ⟨rfl, rfl, rfl⟩
                | ok done =>
                    obtain ⟨heq, rfl⟩ := runs_done.1 h
                    cases heq
                    exact ⟨rfl, rfl, rfl⟩
          · simp only [if_neg hrate] at h
            obtain ⟨heq, rfl⟩ := runs_done.1 h
            cases heq
            exact ⟨rfl, rfl, rfl⟩

/-- `initialize` opens the line or does not, and changes nothing on the board. -/
theorem initializeBoard_cable (hmax : u.lineBuffer.maxLength = maxRecvBuffer) (hw : w.Idle s)
    (h : Runs cable w (initializeBoard rounds u) (.ok b, u') w') :
    (b = true → u'.Ready) ∧ w'.Idle s := by
  simp only [initializeBoard, Act.bind_apply, Act.get_apply, Act.call_apply, Prog.bind_call,
    Prog.bind_done, runs_call] at h
  obtain ⟨opened, w₁, hopened, h⟩ := h
  cases hopened with
  | openPort =>
      cases opened with
      | error reason =>
          obtain ⟨heq, rfl⟩ := runs_done.1 h
          cases heq
          exact ⟨fun hb => absurd hb Bool.false_ne_true, hw⟩
      | ok done =>
          simp only [Act.bind_apply, Act.modify_apply, Prog.bind_done] at h
          obtain ⟨⟨y, u₁⟩, w₂, hconf, h⟩ := runs_bind.1 h
          cases y with
          | error e =>
              obtain ⟨heq, rfl⟩ := runs_done.1 h
              cases heq
          | ok configured =>
              -- opening and configuring do not touch the line, so the board is as it was
              obtain ⟨rfl, hopen, hline⟩ := configurePort_cable hconf
              cases configured with
              | false =>
                  obtain ⟨⟨z, u₂⟩, w₃, hclose, h⟩ := runs_bind.1 h
                  obtain ⟨rfl, rfl, hidle⟩ := closeDevice_cable hw hclose
                  obtain ⟨heq, rfl⟩ := runs_done.1 h
                  cases heq
                  exact ⟨fun hb => absurd hb Bool.false_ne_true, hidle⟩
              | true =>
                  simp only [if_true, flush, clearLines, Act.bind_apply, Act.call_apply,
                    Act.modify_apply, Prog.bind_call, Prog.bind_done, runs_call] at h
                  obtain ⟨⟨⟩, w₃, hflush, h⟩ := h
                  cases hflush with
                  | flush arrived left hwire =>
                      obtain ⟨⟨z, u₂⟩, w₄, hexchange, h⟩ := runs_bind.1 h
                      have hready : State.Ready { u₁ with lineBuffer := u₁.lineBuffer.clear } :=
                        ⟨hopen, (congrArg LineBuffer.maxLength hline).trans hmax⟩
                      cases z with
                      | error e =>
                          obtain ⟨heq, rfl⟩ := runs_done.1 h
                          cases heq
                      | ok status =>
                          obtain ⟨rfl, hready₂, hidle⟩ :=
                            status_cable hready (hw.discard hwire) hexchange
                          obtain ⟨heq, rfl⟩ := runs_done.1 h
                          cases heq
                          exact ⟨fun _ => hready₂, hidle⟩

end Commands

end Uart

end Afm
