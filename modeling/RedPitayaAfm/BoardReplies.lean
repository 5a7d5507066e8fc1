/-
**What a reply of the board comes to.**

`BoardProtocol` follows the lines of a reply with a loop that skips, collects, counts lines and watches
the clock.  This module says what the loop comes to, for all lines, failures and clocks: the lines
behind the first echo up to the first one that ends a reply are the reply, and nothing else matters.

Main definitions:

* `Afm.Board.afterEcho`, `Afm.Board.verdict`, `Afm.Board.reply` — the lines behind the echo, what they
  answer, and the answer to a command;
* `Afm.Board.Journal`, `Afm.Board.journaling` — what a caller of the callbacks can see, and callbacks
  that return anything while their clock does not go back.

Main results:

* `Afm.Board.scan_reply_eq` — the scan of lines is this answer;
* `Afm.Board.replyLoop_journal` — the loop reads at most as many lines as are left to it, each within
  the time that is left;
* `Afm.Board.sendCommand_reply` — **a command is answered by the lines behind its echo**.
-/

import RedPitayaAfm.BoardProtocol

set_option relaxedAutoImplicit false
set_option autoImplicit false

namespace Afm

namespace Board

open Effect

/-! ### The answer in a list of lines -/

/-- The lines behind the first echo of the command. -/
def afterEcho (command : Text) (ls : List Text) : Option (List Text) :=
  match ls.dropWhile fun l => !isEcho l command with
  | [] => none
  | _ :: behind => some behind

/-- The lines in front of the first one that ends a reply, joined by line feeds; `OK` when there is
none. -/
def joined (behind : List Text) : Text :=
  match behind.takeWhile fun l => decide (IsData l) with
  | [] => "OK".toList
  | data => ['\n'].intercalate data

/-- What the lines behind an echo answer: the first that is `OK` or begins with `ERR:` decides. -/
def verdict (behind : List Text) : Option (Except Text Text) :=
  match behind.dropWhile fun l => decide (IsData l) with
  | [] => none
  | l :: _ => some (if l = "OK".toList then .ok (joined behind) else .error (l.drop 4))

/-- The answer to a command in the lines that were read. -/
def reply (command : Text) (ls : List Text) : Option (Except Text Text) :=
  (afterEcho command ls).bind verdict

/-- The lines before the echo do not matter. -/
theorem reply_skipped {command echo : Text} {skipped : List Text}
    (hskipped : ∀ l ∈ skipped, isEcho l command = false) (hecho : isEcho echo command = true)
    (behind : List Text) : reply command (skipped ++ echo :: behind) = verdict behind := by
  have hdrop : (skipped ++ echo :: behind).dropWhile (fun l => !isEcho l command)
      = echo :: behind := by
    rw [List.dropWhile_append_of_pos (by simpa using hskipped)]
    simp [hecho]
  rw [reply, afterEcho, hdrop]
  rfl

theorem intercalate_cons {l : Text} {ls : List Text} (h : ls ≠ []) :
    ['\n'].intercalate (l :: ls) = l ++ '\n' :: ['\n'].intercalate ls := by
  cases ls with
  | nil => exact absurd rfl h
  | cons m ls => simp [List.intercalate, List.intersperse]

/-- The payload that lines grow to. -/
theorem payloadAfter_eq {payload : Text} (hpayload : payload ≠ []) (data : List Text) :
    payloadAfter payload data = ['\n'].intercalate (payload :: data) := by
  induction data generalizing payload with
  | nil => simp [payloadAfter, List.intercalate]
  | cons l data ih =>
      have hne : (payload ++ '\n' :: l) ≠ [] := by simp
      have hempty : payload.isEmpty = false := by simpa using hpayload
      have hstep : payloadAfter payload (l :: data) = payloadAfter (payload ++ '\n' :: l) data := by
        simp only [payloadAfter, List.foldl_cons, hempty]
        simp
      rw [hstep, ih hne, intercalate_cons (by simp : l :: data ≠ [])]
      cases data with
      | nil => simp [List.intercalate]
      | cons m data =>
          rw [intercalate_cons (by simp : m :: data ≠ []), intercalate_cons (by simp : m :: data ≠ [])]
          simp

/-- What the scan has found. -/
def Scan.answer : Scan → Option (Except Text Text)
  | .ok response => some (.ok response)
  | .err message => some (.error message)
  | _ => none

/-- The response to the data lines. -/
theorem joined_eq {behind : List Text} (hbehind : ∀ l ∈ behind, l ≠ []) :
    joined behind = responseOf (behind.takeWhile fun l => decide (IsData l)) := by
  rw [joined, responseOf]
  cases hdata : behind.takeWhile fun l => decide (IsData l) with
  | nil => rfl
  | cons l data =>
      have hl : l ≠ [] := by
        refine hbehind l (List.takeWhile_subset (fun l => decide (IsData l)) ?_)
        rw [hdata]
        exact List.mem_cons_self ..
      have hpayload : payloadAfter [] (l :: data) = payloadAfter l data := by
        simp [payloadAfter]
      have hne : ['\n'].intercalate (l :: data) ≠ [] := by
        cases data with
        | nil => simpa [List.intercalate] using hl
        | cons m data =>
            rw [intercalate_cons (by simp)]
            simp
      rw [hpayload, payloadAfter_eq hl, if_neg (by simpa using hne)]

/-- The scan of the lines behind an echo. -/
theorem scan_behind {command : Text} {behind : List Text} (hbehind : ∀ l ∈ behind, l ≠ []) :
    (scan command (.collecting []) behind).answer = verdict behind := by
  obtain ⟨data, hdata⟩ : ∃ data, data = behind.takeWhile fun l => decide (IsData l) := ⟨_, rfl⟩
  have hall : ∀ l ∈ data, IsData l := by
    intro l hl
    rw [hdata] at hl
    simpa using List.mem_takeWhile_imp hl
  have hsplit := List.takeWhile_append_dropWhile (p := fun l => decide (IsData l)) (l := behind)
  rw [verdict, joined_eq hbehind, ← hdata]
  conv_lhs => rw [← hsplit, ← hdata, scan_append, scan_data hall]
  cases hrest : behind.dropWhile fun l => decide (IsData l) with
  | nil => rfl
  | cons l more =>
      -- the line that ends the reply
      have hends : ¬IsData l := by
        have h := List.head?_dropWhile_not (fun l => decide (IsData l)) behind
        rw [hrest] at h
        simpa using h
      rw [scan_cons, Scan.line]
      by_cases hok : l = "OK".toList
      · rw [if_pos hok, scan_ok, Scan.answer, responseOf]
        simp only [hok, if_true]
      · have herr : "ERR:".toList.isPrefixOf l = true := by
          by_contra h
          exact hends ⟨hok, Bool.eq_false_iff.2 h⟩
        rw [if_neg hok, if_pos herr, scan_err, Scan.answer]
        simp only [if_neg hok]

/-- **The scan of lines** finds the answer to the command in them. -/
theorem scan_reply_eq {command : Text} {ls : List Text} (hls : ∀ l ∈ ls, l ≠ []) :
    (scan command .waiting ls).answer = reply command ls := by
  induction ls with
  | nil => rfl
  | cons l ls ih =>
      have hls' : ∀ m ∈ ls, m ≠ [] := fun m hm => hls m (List.mem_cons_of_mem _ hm)
      rw [scan_cons, Scan.line]
      by_cases hecho : isEcho l command = true
      · rw [if_pos hecho, scan_behind hls']
        have hnone : ∀ m ∈ ([] : List Text), isEcho m command = false := by
          intro m hm
          cases hm
        exact (reply_skipped hnone hecho ls).symm
      · rw [if_neg hecho, ih hls', reply, reply, afterEcho, afterEcho, List.dropWhile_cons]
        simp [hecho]

/-! ### What a caller can see -/

/-- A read: the last time that was seen before it, its timeout, and what it gave. -/
structure LineRead where
  time : ℤ
  timeoutMs : ℕ
  result : Except Text Text

/-- The time that was last seen, the sends with what they gave, and the reads. -/
structure Journal where
  clock : ℤ
  sends : List (Text × Except Text Unit) := []
  reads : List LineRead := []

/-- Callbacks that may return anything, but no empty line, and a clock that does not go back. -/
inductive JournalStep : Journal → (c : ProtocolCall) → callbacks.Reply c → Journal → Prop
  | send (w : Journal) (data : Text) (r : Except Text Unit) :
      JournalStep w (.send data) r { w with sends := w.sends ++ [(data, r)] }
  | readLine (w : Journal) (timeoutMs : ℕ) (r : Except Text Text) (h : r ≠ .ok []) :
      JournalStep w (.readLine timeoutMs) r
        { w with reads := w.reads ++ [⟨w.clock, timeoutMs, r⟩] }
  | now (w : Journal) (time : ℤ) (h : w.clock ≤ time) : JournalStep w .now time { w with clock := time }

/-- These callbacks as an environment. -/
abbrev journaling : World callbacks := ⟨Journal, JournalStep⟩

/-- The lines that reads gave. -/
def linesOf (reads : List LineRead) : List Text := reads.filterMap fun read => read.result.toOption

/-- A read waits at most as long as there is time until the deadline. -/
def LineRead.InTime (start deadline : ℤ) (read : LineRead) : Prop :=
  start ≤ read.time ∧ 0 < read.timeoutMs ∧ read.timeoutMs * nsPerMs ≤ deadline - read.time

/-- The response that an answer carries. -/
def response (answer : Option (Except Text Text)) : Option Text := answer.bind Except.toOption

theorem nonneg_of_toMs_pos {ns : ℤ} (h : 0 < toMs ns) : 0 ≤ ns := by
  by_contra hlt
  have hneg : toMs ns = -toMs (-ns) := by
    rw [toMs, toMs, Int.neg_tdiv, neg_neg]
  have hle : 0 ≤ toMs (-ns) := Int.tdiv_nonneg (by omega) (by decide)
  omega

theorem toMs_mul_le {ns : ℤ} (h : 0 < toMs ns) : toMs ns * nsPerMs ≤ ns := by
  rw [toMs, Int.tdiv_eq_ediv_of_nonneg (nonneg_of_toMs_pos h)]
  exact Int.ediv_mul_le ns (by decide)

theorem toMs_le_toMs {ns ns' : ℤ} (h : 0 < toMs ns) (hle : ns ≤ ns') : toMs ns ≤ toMs ns' := by
  have hns := nonneg_of_toMs_pos h
  rw [toMs, toMs, Int.tdiv_eq_ediv_of_nonneg hns, Int.tdiv_eq_ediv_of_nonneg (hns.trans hle)]
  exact Int.ediv_le_ediv (by decide) hle

/-- A loop that gives up reads no more, and returns nothing. -/
theorem giveUp_journal {command : Text} {lineCount : ℕ} {echoSeen : Bool} {e e' : Text} {w w' : Journal}
    {r : Except Stuck (Option Text)}
    (h : Runs journaling w (giveUp command lineCount echoSeen e) (r, e') w') :
    r = .ok none ∧ w' = w := by
  simp only [giveUp, Act.bind_apply, Act.modify_apply, Prog.bind_done] at h
  obtain ⟨heq, rfl⟩ := runs_done.1 h
  cases heq
  exact ⟨rfl, rfl⟩

/-- What a loop has done that had read up to `s` and could read `left` lines: it has read lines in
time, and returns what the scan of them has found. -/
def LoopEnds (command : Text) (start deadline : ℤ) (left : ℕ) (s : Scan) (w w' : Journal)
    (r : Except Stuck (Option Text)) (error : Text) : Prop :=
  ∃ reads, w'.reads = w.reads ++ reads ∧ w'.sends = w.sends ∧ reads.length ≤ left ∧
    (∀ read ∈ reads, read.InTime start deadline) ∧ (∀ l ∈ linesOf reads, l ≠ []) ∧
    r = .ok (response (scan command s (linesOf reads)).answer) ∧
    ∀ message, (scan command s (linesOf reads)).answer = some (.error message) → error = message

section LoopEnds

variable {command : Text} {start deadline : ℤ} {left : ℕ} {s : Scan} {w w' : Journal}
  {r : Except Stuck (Option Text)} {error : Text}

/-- Nothing more was read. -/
theorem loopEnds_nothing (hs : s.answer = none) (hreads : w'.reads = w.reads)
    (hsends : w'.sends = w.sends) :
    LoopEnds command start deadline left s w w' (.ok none) error := by
  refine ⟨[], by rw [hreads, List.append_nil], hsends, Nat.zero_le _, by simp, by simp [linesOf], ?_, ?_⟩
  · rw [linesOf, List.filterMap_nil, scan_nil, hs]
    rfl
  · intro message hmessage
    rw [linesOf, List.filterMap_nil, scan_nil, hs] at hmessage
    cases hmessage

/-- A read, and what came of the rest. -/
theorem LoopEnds.read {read : LineRead} {w₁ : Journal} {s' : Scan}
    (h : LoopEnds command start deadline left s' w₁ w' r error) (hreads : w₁.reads = w.reads ++ [read])
    (hsends : w₁.sends = w.sends) (htime : read.InTime start deadline) (hnonempty : read.result ≠ .ok [])
    (hs : scan command s (linesOf [read]) = s') :
    LoopEnds command start deadline (left + 1) s w w' r error := by
  obtain ⟨reads, hreads', hsends', hlen, htimes, hlines, hr, herror⟩ := h
  have hcons : linesOf (read :: reads) = linesOf [read] ++ linesOf reads := by
    rw [linesOf, linesOf, linesOf, ← List.filterMap_append, List.singleton_append]
  -- the read gave one line or none, and no empty one
  have hline : ∀ l ∈ linesOf [read], l ≠ [] := by
    rintro l hl rfl
    obtain ⟨read', hread', hgave⟩ := List.mem_filterMap.1 hl
    obtain rfl := List.mem_singleton.1 hread'
    cases hresult : read'.result with
    | error reason =>
        rw [hresult] at hgave
        cases hgave
    | ok line =>
        rw [hresult] at hgave hnonempty
        cases hgave
        exact hnonempty rfl
  refine ⟨read :: reads, by rw [hreads', hreads]; simp, hsends'.trans hsends, Nat.succ_le_succ hlen,
    ?_, ?_, ?_, ?_⟩
  · intro x hx
    rcases List.mem_cons.1 hx with rfl | hx
    · exact htime
    · exact htimes x hx
  · intro l hl
    rcases List.mem_append.1 (hcons ▸ hl) with hl | hl
    · exact hline l hl
    · exact hlines l hl
  · rw [hcons, scan_append, hs]
    exact hr
  · rw [hcons, scan_append, hs]
    exact herror

/-- The scan has come to an end. -/
theorem loopEnds_scanned (hs : ∀ ls, scan command s ls = s) (hreads : w'.reads = w.reads)
    (hsends : w'.sends = w.sends) (hr : r = .ok (response s.answer))
    (herror : ∀ message, s.answer = some (.error message) → error = message) :
    LoopEnds command start deadline left s w w' r error := by
  refine ⟨[], by rw [hreads, List.append_nil], hsends, Nat.zero_le _, by simp, by simp [linesOf], ?_, ?_⟩
  · rw [hs]
    exact hr
  · rw [hs]
    exact herror

end LoopEnds

theorem standing_answer (echoSeen : Bool) (payload : Text) : (standing echoSeen payload).answer = none := by
  cases echoSeen <;> rfl

/-- **The loop on any callbacks**: it reads at most as many lines as are left to it, each within the
time that is left, and ends with what the scan of these lines has found. -/
theorem replyLoop_journal {command : Text} {start deadline : ℤ} (hdeadline : toMs (deadline - start) < 2 ^ 32)
    {left : ℕ} {echoSeen : Bool} {payload e e' : Text} {r : Except Stuck (Option Text)}
    {w w' : Journal} (hclock : start ≤ w.clock) (hpayload : echoSeen = false → payload = [])
    (h : Runs journaling w (replyLoop command deadline left echoSeen payload e) (r, e') w') :
    LoopEnds command start deadline left (standing echoSeen payload) w w' r e' := by
  -- induction on the lines left; the clock never runs back, which keeps every read in time
  induction left generalizing w echoSeen payload e with
  | zero =>
      obtain ⟨rfl, rfl⟩ := giveUp_journal h
      exact loopEnds_nothing (standing_answer _ _) rfl rfl
  | succ left ih =>
      simp only [replyLoop, now, Act.bind_apply, Act.call_apply, Prog.bind_call,
        Prog.bind_done, runs_call] at h
      obtain ⟨time, w₁, hnow, h⟩ := h
      cases hnow with
      | now _ htime =>
      split at h
      · -- the time is over
        obtain ⟨rfl, rfl⟩ := giveUp_journal h
        exact loopEnds_nothing (standing_answer _ _) rfl rfl
      rename_i hremaining
      have hpos : 0 < toMs (deadline - time) := by omega
      have hlt : toMs (deadline - time) < 2 ^ 32 :=
        lt_of_le_of_lt (toMs_le_toMs hpos (by omega)) hdeadline
      -- the cast to an unsigned timeout loses nothing before the deadline
      have hcast : (toMs (deadline - time)).toNat % 2 ^ 32 = (toMs (deadline - time)).toNat :=
        Nat.mod_eq_of_lt (by omega)
      rw [hcast] at h
      simp only [readLine, Act.bind_apply, Act.call_apply, Prog.bind_call, Prog.bind_done,
        runs_call] at h
      obtain ⟨result, w₂, hread, h⟩ := h
      cases hread with
      | readLine _ _ hnonempty =>
      have hintime : LineRead.InTime start deadline ⟨time, (toMs (deadline - time)).toNat, result⟩ := by
        refine ⟨hclock.trans htime, by simp only; omega, ?_⟩
        have hle := toMs_mul_le hpos
        rwa [← Int.toNat_of_nonneg hpos.le] at hle
      have hclock' : start ≤ time := hclock.trans htime
      cases result with
      | error reason =>
          simp only [Act.bind_apply, Act.modify_apply, Prog.bind_done] at h
          obtain ⟨rfl, rfl⟩ := giveUp_journal h
          exact (loopEnds_nothing (standing_answer _ _) rfl rfl).read rfl rfl hintime hnonempty rfl
      | ok line =>
          simp only at h
          -- before the echo no line counts, and the payload stays empty
          cases echoSeen with
          | false =>
              obtain rfl := hpayload rfl
              exact (ih hclock' (fun _ => rfl) h).read rfl rfl hintime hnonempty rfl
          | true =>
              simp only [Bool.not_true, Bool.false_eq_true, if_false] at h
              split at h
              · rename_i hok
                obtain ⟨heq, rfl⟩ := runs_done.1 h
                cases heq
                exact (loopEnds_scanned (scan_ok _ _) rfl rfl rfl (by rintro message ⟨⟩)).read rfl rfl
                  hintime hnonempty (if_pos hok)
              · rename_i hok
                split at h
                · rename_i herr
                  simp only [Act.bind_apply, Act.modify_apply, Prog.bind_done] at h
                  obtain ⟨heq, rfl⟩ := runs_done.1 h
                  cases heq
                  exact (loopEnds_scanned (scan_err _ _) rfl rfl rfl (by rintro message ⟨⟩; rfl)).read
                    rfl rfl hintime hnonempty ((if_neg hok).trans (if_pos herr))
                · rename_i herr
                  exact (ih hclock' (by simp) h).read rfl rfl hintime hnonempty
                    ((if_neg hok).trans (if_neg herr))

/-- **A command is answered by the lines behind its echo**: after a send that worked at most 64 lines
are read, each with a timeout within the time that is left, and the result is the answer in them. -/
theorem sendCommand_reply {command : Text} {timeoutMs : ℕ} (htimeout : timeoutMs < 2 ^ 32) {e e' : Text}
    {r : Except Stuck (Option Text)} {w w' : Journal}
    (h : Runs journaling w (sendCommand command timeoutMs e) (r, e') w')
    (hsent : w'.sends = w.sends ++ [(command ++ ['\n'], .ok ())]) :
    ∃ start reads, w.clock ≤ start ∧ w'.reads = w.reads ++ reads ∧ reads.length ≤ 64 ∧
      (∀ read ∈ reads, read.InTime start (start + timeoutMs * nsPerMs)) ∧
      r = .ok (response (reply command (linesOf reads))) ∧
      (∀ message, reply command (linesOf reads) = some (.error message) → e' = message) ∧
      ∀ skipped echo behind, linesOf reads = skipped ++ echo :: behind →
        (∀ l ∈ skipped, isEcho l command = false) → isEcho echo command = true →
        r = .ok (response (verdict behind)) := by
  simp only [sendCommand, send, Act.bind_apply, Act.call_apply, Prog.bind_call, Prog.bind_done,
    runs_call] at h
  obtain ⟨result, w₁, hsend, h⟩ := h
  cases hsend with
  | send _ =>
  cases result with
  | error reason =>
      simp only [Act.bind_apply, Act.modify_apply, Prog.bind_done] at h
      -- a send that failed is not the one of the hypothesis
      obtain ⟨-, rfl⟩ := runs_done.1 h
      simp at hsent
  | ok u =>
      simp only [now, Act.bind_apply, Act.call_apply, Act.modify_apply, Prog.bind_call,
        Prog.bind_done, runs_call] at h
      obtain ⟨start, w₂, hnow, h⟩ := h
      cases hnow with
      | now _ hstart =>
      have hdeadline : toMs (start + timeoutMs * nsPerMs - start) < 2 ^ 32 := by
        rw [toMs, add_sub_cancel_left, Int.mul_tdiv_cancel _ (by decide)]
        omega
      obtain ⟨reads, hreads, -, hlen, htimes, hlines, hr, herror⟩ :=
        replyLoop_journal hdeadline (le_refl start) (fun _ => rfl) h
      have hscan : (scan command (standing false []) (linesOf reads)).answer
          = reply command (linesOf reads) := scan_reply_eq hlines
      rw [hscan] at hr herror
      refine ⟨start, reads, hstart, hreads, hlen, htimes, hr, herror, ?_⟩
      intro skipped echo behind hsplit hskipped hecho
      rw [hr, hsplit, reply_skipped hskipped hecho]

/-- Callbacks that read the lines of a script, with a clock that runs a millisecond a call. -/
def scripted (script : List Text) (w : Journal) : (c : ProtocolCall) → callbacks.Reply c × Journal
  | .send data => (.ok (), { w with sends := w.sends ++ [(data, .ok ())] })
  | .now => (w.clock + nsPerMs, { w with clock := w.clock + nsPerMs })
  | .readLine timeoutMs =>
      let result : Except Text Text := match script[w.reads.length]? with
        | some (c :: line) => .ok (c :: line)
        | _ => .error "timeout".toList
      (result, { w with reads := w.reads ++ [⟨w.clock, timeoutMs, result⟩] })

theorem scripted_step (script : List Text) (w : Journal) (c : ProtocolCall) :
    JournalStep w c (scripted script w c).1 (scripted script w c).2 := by
  cases c with
  | send data => exact .send w data _
  | now => exact .now w (w.clock + nsPerMs) (by simp [nsPerMs])
  | readLine timeoutMs =>
      refine .readLine w timeoutMs _ ?_
      simp only [scripted]
      split <;> simp

/-- A reply between other lines. -/
theorem sendCommand_reply_status :
    ∃ w', Runs journaling ⟨0, [], []⟩ (sendCommand "STATUS".toList 1000 [])
        (.ok (some "a\nb".toList), []) w' ∧
      ∃ start reads, (0 : ℤ) ≤ start ∧ w'.reads = [] ++ reads ∧ reads.length ≤ 64 ∧
        (∀ read ∈ reads, read.InTime start (start + (1000 : ℕ) * nsPerMs)) ∧
        (Except.ok (some "a\nb".toList) : Except Stuck _)
          = .ok (response (reply "STATUS".toList (linesOf reads))) := by
  have hrun := Prog.eval_runs (W := journaling) (scripted_step ["boot".toList, "> STATUS".toList,
    "a".toList, "b".toList, "OK".toList]) (sendCommand "STATUS".toList 1000 []) ⟨0, [], []⟩
  have hresult : ((sendCommand "STATUS".toList 1000 []).eval (scripted ["boot".toList,
      "> STATUS".toList, "a".toList, "b".toList, "OK".toList]) ⟨0, [], []⟩).1
        = (.ok (some "a\nb".toList), []) := by rfl
  rw [hresult] at hrun
  obtain ⟨start, reads, hstart, hreads, hlen, htimes, hr, -⟩ :=
    sendCommand_reply (by norm_num) hrun rfl
  exact ⟨_, hrun, start, reads, hstart, hreads, hlen, htimes, hr⟩

end Board

end Afm
