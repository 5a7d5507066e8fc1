/-
**What the board executes, and what is on its stack.**

`CMD_Execute` copies the line up to its first zero byte, but puts the terminator at the end of the
line.  When the line contains a zero byte, the cells between the two keep what the stack held, and
the comparisons can run into them: the command that is executed, and so the switches and the answer,
then depend on leftovers of earlier calls.  This module says for which lines the comparisons stay
inside what was copied; it uses a local array without values, in which looking further is a fault.

Main definitions:

* `Afm.Firmware.Undecided` — texts after which a comparison goes on;
* `Afm.Firmware.Decided` — lines whose execution looks at copied cells only;
* `Afm.Firmware.DependsOnLines` — a stream is executed the same whatever the stack holds.

Main results:

* `Afm.Firmware.Board.run_extends` — a run without faults does not depend on unwritten cells;
* `Afm.Firmware.Board.run_inBounds` — no access is ever outside an array;
* `Afm.Firmware.dependsOnLines_iff` — the condition for every stream.
-/

import RedPitayaAfm.BoardGrammar

set_option relaxedAutoImplicit false
set_option autoImplicit false

namespace Afm

namespace Firmware

open CString

/-! ### Cells that were never written -/

/-- A choice between going on and stopping gives the same result on a memory with more cells. -/
theorem ite_extends {x x' : Except AccessFault Bool} (h : ∀ b, x = .ok b → x' = .ok b)
    {yes no no' : Except AccessFault Keyword} (hno : ∀ k, no = .ok k → no' = .ok k) {k : Keyword}
    (hrun : (x >>= fun b => if b = true then yes else no) = .ok k) :
    (x' >>= fun b => if b = true then yes else no') = .ok k := by
  obtain ⟨b, hb, hrest⟩ := bind_ok hrun
  rw [h b hb]
  show (if b = true then yes else no') = _
  cases b with
  | true => exact hrest
  | false => exact hno k hrest

theorem recognise_extends {m m' : Memory} (h : Extends m m') {k : Keyword}
    (hrun : recognise m = .ok k) : recognise m' = .ok k := by
  have hagrees : ∀ lit b, agrees cmdMaxLength m 0 lit = .ok b → agrees cmdMaxLength m' 0 lit = .ok b :=
    fun _ _ => agrees_extends h
  exact ite_extends (hagrees _) (fun _ => ite_extends (hagrees _) fun _ => ite_extends (hagrees _)
    fun _ => ite_extends (hagrees _) fun _ => ite_extends (hagrees _) fun _ =>
      ite_extends (hagrees _) fun _ hk => hk) hrun

theorem upperCmd_extends {p : Parser} {l l' m : Memory} (h : Extends l l')
    (hrun : upperCmd p l = .ok m) : ∃ m', upperCmd p l' = .ok m' ∧ Extends m m' := by
  obtain ⟨copied, hcopy, hstore⟩ := bind_ok hrun
  obtain ⟨copied', hcopy', hext⟩ := copyWith_extends h hcopy
  unfold upperCmd
  rw [hcopy']
  show ∃ m', store _ copied' _ _ = _ ∧ _
  unfold store at hstore ⊢
  split at hstore
  next hi =>
    cases hstore
    rw [if_pos hi]
    exact ⟨_, rfl, hext.update _ _⟩
  next => cases hstore

theorem cmdExecute_extends {p : Parser} {s : Switches} {l l' : Memory} (h : Extends l l')
    {r : Parser × Outcome} (hrun : cmdExecute p s l = .ok r) : cmdExecute p s l' = .ok r := by
  unfold cmdExecute at hrun ⊢
  split at hrun
  next hready =>
    obtain ⟨m, hm, hrest⟩ := bind_ok hrun
    obtain ⟨k, hk, houtcome⟩ := bind_ok hrest
    obtain ⟨m', hm', hext⟩ := upperCmd_extends h hm
    rw [if_pos hready, hm']
    show (recognise m' >>= _) = _
    rw [recognise_extends hext hk]
    exact houtcome
  next hready =>
    rw [if_neg hready]
    exact hrun

namespace Board

theorem step_extends {b : Board} {l l' : Memory} (h : Extends l l') {c : Char}
    {r : Board × Outcome} (hrun : b.step l c = .ok r) : b.step l' c = .ok r := by
  obtain ⟨⟨p, echoed⟩, hp, hrest⟩ := bind_ok hrun
  unfold step
  rw [hp]
  show (if p.cmdReady then _ else _) = _
  change (if p.cmdReady then _ else _) = _ at hrest
  by_cases hready : p.cmdReady = true
  · rw [if_pos hready] at hrest
    obtain ⟨executed, hexec, hout⟩ := bind_ok hrest
    rw [if_pos hready, cmdExecute_extends h hexec]
    exact hout
  · rw [if_neg hready] at hrest ⊢
    exact hrest

/-- **Unwritten cells do not matter** to a run that does not look at them. -/
theorem run_extends {stream : List Char} :
    ∀ {b : Board} {locals locals' : ℕ → Memory}, (∀ n, Extends (locals n) (locals' n)) →
      ∀ {r}, b.run locals stream = .ok r → b.run locals' stream = .ok r := by
  induction stream with
  | nil =>
      intro b locals locals' _ r hrun
      exact hrun
  | cons c cs ih =>
      intro b locals locals' h r hrun
      obtain ⟨⟨b₁, outcome⟩, hstep, hrest⟩ := bind_ok hrun
      obtain ⟨⟨b', outcomes⟩, hcs, heq⟩ := bind_ok hrest
      cases heq
      rw [run_cons (step_extends (h 0) hstep), ih (fun n => h (n + 1)) hcs]
      rfl

end Board

/-! ### Bounds -/

/-- In a buffer that ends in a zero byte a string has a length. -/
theorem strlen_written {m : Memory} (hm : ∀ i < cmdMaxLength, m i ≠ none)
    (hlast : m (cmdMaxLength - 1) = some nul) :
    ∀ {fuel i : ℕ}, i < cmdMaxLength → cmdMaxLength < fuel + i →
      ∃ len, strlen cmdMaxLength m fuel i = .ok len := by
  intro fuel
  induction fuel with
  | zero =>
      intro i hi hfuel
      omega
  | succ fuel ih =>
      intro i hi hfuel
      obtain ⟨c, hc⟩ := Option.ne_none_iff_exists'.1 (hm i hi)
      rw [strlen_succ (load_ok hi hc)]
      by_cases hnul : c = nul
      · exact ⟨0, if_pos hnul⟩
      · have hne : i ≠ cmdMaxLength - 1 := by
          rintro rfl
          exact hnul (Option.some.inj (hc.symm.trans hlast))
        obtain ⟨len, hlen⟩ := ih (i := i + 1) (by omega) (by omega)
        rw [if_neg hnul, hlen]
        exact ⟨len + 1, rfl⟩

/-- The handlers stay inside the buffer. -/
theorem carryOut_inBounds {p : Parser} {line : Text} (hp : p.Holds line) (s : Switches)
    (k : Keyword) : ∃ outcome, carryOut p s k = .ok outcome := by
  -- every cell of the buffer has been written, so no read of it faults
  have hload : ∀ i < cmdMaxLength, ∃ c, load cmdMaxLength p.cmdBuffer i = .ok c := by
    intro i hi
    obtain ⟨c, hc⟩ := Option.ne_none_iff_exists'.1 (hp.written i hi)
    exact ⟨c, load_ok hi hc⟩
  cases k with
  | mux =>
      have hstrlen : ∃ len, strlen cmdMaxLength p.cmdBuffer (cmdMaxLength + 1) 3 = .ok len :=
        strlen_written hp.written hp.last (by decide) (by decide)
      obtain ⟨len, hlen⟩ := hstrlen
      obtain ⟨a, ha⟩ := hload 3 (by decide)
      obtain ⟨b, hb⟩ := hload 4 (by decide)
      obtain ⟨c, hc⟩ := hload 5 (by decide)
      unfold carryOut handleMuxCommand
      rw [hlen, ha, hb, hc]
      simp only [bind, Except.bind]
      split_ifs
      · exact ⟨_, rfl⟩
      · exact ⟨_, rfl⟩
      · exact ⟨_, rfl⟩
      · cases muxInput c with
        | none => exact ⟨_, rfl⟩
        | some input =>
            simp only
            cases muxSetRoute (a.toNat - '1'.toNat) input <;> exact ⟨_, rfl⟩
  | gain =>
      have hstrlen : ∃ len, strlen cmdMaxLength p.cmdBuffer (cmdMaxLength + 1) 4 = .ok len :=
        strlen_written hp.written hp.last (by decide) (by decide)
      obtain ⟨len, hlen⟩ := hstrlen
      obtain ⟨a, ha⟩ := hload 4 (by decide)
      obtain ⟨b, hb⟩ := hload 5 (by decide)
      obtain ⟨c, hc⟩ := hload 6 (by decide)
      unfold carryOut handleGainCommand
      rw [hlen, ha, hb, hc]
      simp only [bind, Except.bind]
      split_ifs
      · exact ⟨_, rfl⟩
      · exact ⟨_, rfl⟩
      · exact ⟨_, rfl⟩
      · exact ⟨_, rfl⟩
      · cases ampSetGain (a.toNat - '1'.toNat) (c.toNat - '0'.toNat) <;> exact ⟨_, rfl⟩
  | status => exact ⟨_, rfl⟩
  | reset => exact ⟨_, rfl⟩
  | help => exact ⟨_, rfl⟩
  | unknown => exact ⟨_, rfl⟩

/-! ### The comparisons after a zero byte -/

/-- What the comparisons go on after: `MUX` and `GAIN` are compared up to their last letter, the
others with the zero byte after it. -/
def openWords : List Text :=
  ["MU".toList, "GAI".toList, "STATUS".toList, "RESET".toList, "HELP".toList, "?".toList]

/-- A text that is the start of a keyword, so that a comparison goes on after it. -/
def Undecided (head : Text) : Prop := ∃ word ∈ openWords, upper head <+: word

instance (head : Text) : Decidable (Undecided head) :=
  inferInstanceAs (Decidable (∃ word ∈ openWords, upper head <+: word))

/-- The line has no zero byte, or what is before the first one already tells the command. -/
def Decided (line : Text) : Prop := nul ∉ line ∨ ¬Undecided (line.takeWhile (· ≠ nul))

instance (line : Text) : Decidable (Decided line) := inferInstanceAs (Decidable (_ ∨ _))

theorem isPrefixOf_append_nul {u word : Text} (hu : nul ∉ u) :
    u.isPrefixOf (word ++ [nul]) = u.isPrefixOf word := by
  induction u generalizing word with
  | nil => simp
  | cons c u ih =>
      have hc : c ≠ nul := fun h => hu (h ▸ List.mem_cons_self ..)
      cases word with
      | nil => simp [List.isPrefixOf, hc]
      | cons d word =>
          rw [List.cons_append, List.isPrefixOf, List.isPrefixOf,
            ih fun h => hu (List.mem_cons_of_mem _ h)]

section Steps

variable {u : Text} {f : Bool → Except AccessFault Keyword}

theorem not_ok_of_fault : ¬∃ k, ((Except.error .uninitialised : Except AccessFault Bool) >>= f) = .ok k := by
  rintro ⟨k, hk⟩
  cases hk

/-- Comparing with a whole word goes on when the text is no part of it. -/
theorem equals_step {word : Text} (hopen : word ∈ openWords)
    (hrest : ¬u <+: word → ((∃ k, f false = .ok k) ↔ ¬∃ w ∈ openWords, u <+: w)) :
    (∃ k, ((if u <+: word then .error .uninitialised else .ok false : Except AccessFault Bool) >>= f)
        = .ok k) ↔ ¬∃ w ∈ openWords, u <+: w := by
  by_cases hstarts : u <+: word
  · rw [if_pos hstarts]
    exact iff_of_false not_ok_of_fault (not_not.2 ⟨word, hopen, hstarts⟩)
  · rw [if_neg hstarts]
    exact hrest hstarts

/-- Looking for a word at the start decides when the text begins with it, and goes on when the text
is no part of it. -/
theorem starts_step {word : Text} {last : Char} (hopen : word ∈ openWords)
    (hclosed : ∀ w ∈ openWords, ¬word ++ [last] <+: w) (htrue : ∃ k, f true = .ok k)
    (hrest : ¬u <+: word ++ [last] → ((∃ k, f false = .ok k) ↔ ¬∃ w ∈ openWords, u <+: w)) :
    (∃ k, ((if word ++ [last] <+: u then .ok true
        else if u <+: word ++ [last] then .error .uninitialised
        else .ok false : Except AccessFault Bool) >>= f) = .ok k)
      ↔ ¬∃ w ∈ openWords, u <+: w := by
  by_cases hword : word ++ [last] <+: u
  · rw [if_pos hword]
    refine iff_of_true htrue ?_
    rintro ⟨w, hw, hstarts⟩
    exact hclosed w hw (hword.trans hstarts)
  rw [if_neg hword]
  by_cases hpart : u <+: word ++ [last]
  · rw [if_pos hpart]
    refine iff_of_false not_ok_of_fault (not_not.2 ⟨word, hopen, ?_⟩)
    have hor : u = word ++ [last] ∨ u <+: word := List.prefix_concat_iff.1 hpart
    exact hor.resolve_left fun heq => hword (heq ▸ List.prefix_rfl)
  · rw [if_neg hpart]
    exact hrest hpart

end Steps

/-- The comparisons on a text that ends in a cell that was never written. -/
theorem recognise_cut {m : Memory} {u : Text} (hu : nul ∉ u) (hm : Holds m 0 u)
    (hcut : m u.length = none) (hlen : u.length < cmdMaxLength) :
    (∃ k, recognise m = .ok k) ↔ ¬∃ word ∈ openWords, u <+: word := by
  have hagrees : ∀ lit, agrees cmdMaxLength m 0 lit =
      if lit.isPrefixOf u then .ok true
      else if u.isPrefixOf lit then .error .uninitialised else .ok false := fun lit =>
    agrees_cut hm (by rw [Nat.zero_add]; exact hcut) (by rw [Nat.zero_add]; exact hlen)
  have hequals : ∀ lit, agrees cmdMaxLength m 0 (lit ++ [nul]) =
      if u.isPrefixOf lit then .error .uninitialised else .ok false := by
    intro lit
    have hno : ¬((lit ++ [nul]).isPrefixOf u = true) := by
      rw [List.isPrefixOf_iff_prefix]
      exact fun h => hu (h.subset (List.mem_append_right _ (List.mem_singleton_self _)))
    rw [hagrees, if_neg hno, isPrefixOf_append_nul hu]
  unfold recognise startsWith equals
  rw [hagrees, hagrees, hequals, hequals, hequals, hequals]
  simp only [List.isPrefixOf_iff_prefix]
  -- the comparisons one after the other, in the order of the source
  refine starts_step (show "MU".toList ∈ openWords by decide) (by decide) ⟨.mux, rfl⟩ fun hmux => ?_
  refine starts_step (show "GAI".toList ∈ openWords by decide) (by decide) ⟨.gain, rfl⟩ fun hgain => ?_
  refine equals_step (by decide) fun hstatus => ?_
  refine equals_step (by decide) fun hreset => ?_
  refine equals_step (by decide) fun hhelp => ?_
  refine equals_step (by decide) fun hquestion => ?_
  refine iff_of_true ⟨.unknown, rfl⟩ ?_
  rintro ⟨word, hword, hstarts⟩
  simp only [openWords, List.mem_cons, List.not_mem_nil, or_false] at hword
  rcases hword with rfl | rfl | rfl | rfl | rfl | rfl
  · exact hmux (hstarts.trans (List.prefix_append "MU".toList ['X']))
  · exact hgain (hstarts.trans (List.prefix_append "GAI".toList ['N']))
  · exact hstatus hstarts
  · exact hreset hstarts
  · exact hhelp hstarts
  · exact hquestion hstarts

/-! ### A line -/

/-- An execution succeeds when its comparisons do, and leaves an empty parser. -/
theorem cmdExecute_of_recognise {p : Parser} {line : Text} (hp : p.Holds line)
    (hready : p.cmdReady = true) {l upper₁ : Memory} (hcopy : upperCmd p l = .ok upper₁)
    (s : Switches) {k : Keyword} (hk : recognise upper₁ = .ok k) :
    ∃ outcome, cmdExecute p s l = .ok (cmdInit, outcome) := by
  obtain ⟨outcome, houtcome⟩ := carryOut_inBounds hp s k
  unfold cmdExecute
  rw [if_pos hready, hcopy]
  show ∃ outcome', (recognise upper₁ >>= _) = .ok (cmdInit, outcome')
  rw [hk]
  show ∃ outcome', (carryOut p s k >>= _) = .ok (cmdInit, outcome')
  rw [houtcome]
  exact ⟨_, rfl⟩

/-- A line with a zero byte, split at the first one. -/
theorem exists_head {line : Text} (hline : nul ∈ line) :
    ∃ head rest, line.takeWhile (· ≠ nul) = head ∧ nul ∉ head ∧ line = head ++ nul :: rest := by
  obtain ⟨head, rest, hsplit, hhead⟩ := List.eq_append_cons_of_mem hline
  refine ⟨head, rest, ?_, hhead, hsplit⟩
  have hall : ∀ c ∈ head, decide (c ≠ nul) = true := by
    intro c hc
    rw [decide_eq_true_eq]
    rintro rfl
    exact hhead hc
  rw [hsplit, List.takeWhile_append_of_pos hall, List.takeWhile_cons_of_neg (by simp),
    List.append_nil]

/-- The copy of a line with a zero byte in it: the part before that byte, then nothing. -/
theorem upperCmd_cut {p : Parser} {line : Text} (hp : p.Holds line) (hline : nul ∈ line) :
    ∃ upper₁, upperCmd p .fresh = .ok upper₁ ∧
      Holds upper₁ 0 (upper (line.takeWhile (· ≠ nul))) ∧
      upper₁ (upper (line.takeWhile (· ≠ nul))).length = none ∧
      (upper (line.takeWhile (· ≠ nul))).length < cmdMaxLength := by
  have hlen := hp.length_lt
  obtain ⟨head, rest, htake, hnul, hrest⟩ := exists_head hline
  rw [htake]
  have hshort : head.length < line.length := by
    rw [hrest, List.length_append, List.length_cons]
    omega
  have hheld : Holds p.cmdBuffer 0 (head ++ [nul]) := by
    have hholds := hp.holds
    have hassoc : line = (head ++ [nul]) ++ rest := by rw [hrest, List.append_assoc]; rfl
    rw [hassoc, holds_append] at hholds
    exact hholds.1
  have hcopy : copyWith Char.toUpper cmdMaxLength p.cmdBuffer cmdMaxLength 0 .fresh
      = .ok (put .fresh 0 (upper head)) :=
    copyWith_line Char.toUpper hnul hheld (by omega) (by omega)
  unfold upperCmd
  rw [hcopy, hp.cmdIndex]
  refine ⟨_, store_ok _ hlen nul, ?_, ?_, ?_⟩
  · refine (holds_put .fresh 0 (upper head)).congr fun j _ hj => Function.update_of_ne ?_ _ _
    rw [length_upper] at hj
    omega
  · rw [length_upper, Function.update_of_ne (by omega), put_outside]
    · rfl
    · rw [length_upper]
      omega
  · rw [length_upper]
    omega

/-- **One line**: it is executed without looking at unwritten cells exactly when it is decided. -/
theorem cmdExecute_fresh_iff {p : Parser} {line : Text} (hp : p.Holds line) (hne : line ≠ [])
    (hready : p.cmdReady = true) (hm : Holds p.cmdBuffer 0 (line ++ [nul])) (s : Switches) :
    (∃ outcome, cmdExecute p s .fresh = .ok (cmdInit, outcome)) ↔ Decided line := by
  by_cases hline : nul ∈ line
  · obtain ⟨upper₁, hcopy, hheld, hcut, hlen⟩ := upperCmd_cut hp hline
    have hhead : nul ∉ upper (line.takeWhile (· ≠ nul)) := by
      obtain ⟨head, _, htake, hnul, -⟩ := exists_head hline
      rw [htake]
      exact nul_not_mem_upper hnul
    have hiff := recognise_cut hhead hheld hcut hlen
    have hdecided : Decided line ↔ ¬Undecided (line.takeWhile (· ≠ nul)) :=
      or_iff_right (not_not.2 hline)
    rw [hdecided]
    constructor
    · rintro ⟨outcome, hexec⟩
      unfold cmdExecute at hexec
      rw [if_pos hready, hcopy] at hexec
      obtain ⟨_, hcopied, hrest⟩ := bind_ok hexec
      cases hcopied
      obtain ⟨k, hk, -⟩ := bind_ok hrest
      exact hiff.1 ⟨k, hk⟩
    · intro hno
      obtain ⟨k, hk⟩ := hiff.2 hno
      exact cmdExecute_of_recognise hp hready hcopy s hk
  · exact iff_of_true ⟨_, cmdExecute_line hline hne hp hready hm s .fresh⟩ (.inl hline)

/-- After an execution the parser is empty. -/
theorem cmdExecute_fst {p : Parser} {s : Switches} {l : Memory} {r : Parser × Outcome}
    (hready : p.cmdReady = true) (h : cmdExecute p s l = .ok r) : r.1 = cmdInit := by
  unfold cmdExecute at h
  rw [if_pos hready] at h
  obtain ⟨_, -, hrest⟩ := bind_ok h
  obtain ⟨_, -, hrest⟩ := bind_ok hrest
  obtain ⟨_, -, hrest⟩ := bind_ok hrest
  exact (congrArg Prod.fst (Except.ok.inj hrest)).symm

/-- The end of a line on a local array without values. -/
theorem Board.step_fresh {b : Board} {line : Text} (h : b.Editing line) {c : Char}
    (hc : IsLineEnd c) :
    Decided line ∧ (∃ b' outcome, b.step .fresh c = .ok (b', outcome) ∧ b'.Editing []) ∨
      ¬Decided line ∧ ∀ r, b.step .fresh c ≠ .ok r := by
  by_cases hne : line = []
  · subst hne
    exact .inl ⟨.inl List.not_mem_nil, b, {}, b.step_nil h hc .fresh, h⟩
  · obtain ⟨p', hp, hholds, hready, hm⟩ := h.holds.processChar_end hne hc
    have hiff := cmdExecute_fresh_iff hholds hne hready hm b.switches
    have hstep : b.step .fresh c = cmdExecute p' b.switches .fresh >>= fun r =>
        .ok ({ parser := r.1, switches := b.switches.performAll r.2.changes },
          { r.2 with sent := [] ++ r.2.sent ++ "> ".toList }) := by
      unfold step
      rw [hp]
      show (if p'.cmdReady then _ else _) = _
      rw [if_pos hready]
    rw [hstep]
    by_cases hdecided : Decided line
    · obtain ⟨outcome, hexec⟩ := hiff.2 hdecided
      left
      rw [hexec]
      exact ⟨hdecided, _, _, rfl, cmdInit_editing _⟩
    · right
      refine ⟨hdecided, fun r hr => hdecided (hiff.1 ?_)⟩
      obtain ⟨⟨p'', outcome⟩, hexec, -⟩ := bind_ok hr
      have hinit : p'' = cmdInit := cmdExecute_fst hready hexec
      rw [hinit] at hexec
      exact ⟨outcome, hexec⟩

/-! ### Streams -/

/-- A byte that goes well does not change whether the rest does. -/
theorem run_fresh_cons {b b₁ : Board} {c : Char} {outcome : Outcome}
    (hstep : b.step .fresh c = .ok (b₁, outcome)) (cs : List Char) :
    (∃ r, b.run (fun _ => .fresh) (c :: cs) = .ok r) ↔ ∃ r, b₁.run (fun _ => .fresh) cs = .ok r := by
  have hrun := @Board.run_cons b b₁ (fun _ => .fresh) c outcome hstep cs
  rw [hrun]
  cases b₁.run (fun _ => .fresh) cs with
  | error e =>
      refine iff_of_false ?_ ?_
      · rintro ⟨r, hr⟩
        cases hr
      · rintro ⟨r, hr⟩
        cases hr
  | ok r => exact iff_of_true ⟨_, rfl⟩ ⟨_, rfl⟩

theorem run_fresh_iff {stream : List Char} :
    ∀ {b : Board} {stored typed : Text}, b.Editing stored →
      ((∃ r, b.run (fun _ => .fresh) stream = .ok r) ↔
        ∀ l ∈ terminated stored typed stream, Decided l.1) := by
  induction stream with
  | nil =>
      intro b stored typed _
      exact iff_of_true ⟨_, rfl⟩ fun l hl => absurd hl List.not_mem_nil
  | cons c cs ih =>
      intro b stored typed hediting
      by_cases hend : IsLineEnd c
      · rw [terminated, if_pos hend, List.forall_mem_cons]
        rcases b.step_fresh hediting hend with ⟨hdecided, b₁, outcome, hstep, hediting₁⟩ | ⟨hno, hfault⟩
        · rw [run_fresh_cons hstep, ih hediting₁]
          exact (and_iff_right hdecided).symm
        · refine iff_of_false ?_ fun h => hno h.1
          rintro ⟨r, hr⟩
          obtain ⟨_, hstep, -⟩ := bind_ok hr
          exact hfault _ hstep
      · obtain ⟨b₁, hstep, hediting₁, -⟩ := b.step_edit hediting hend .fresh
        rw [terminated, if_neg hend, run_fresh_cons hstep, ih hediting₁]

/-! ### A local array with values -/

theorem put_written {n : ℕ} (s : Text) {m : Memory} (hm : ∀ i < n, m i ≠ none) {j : ℕ} :
    ∀ i < n, put m j s i ≠ none := by
  induction s generalizing m j with
  | nil => exact hm
  | cons c s ih =>
      refine ih fun i hi => ?_
      by_cases hij : i = j
      · rw [hij, Function.update_self]
        exact Option.some_ne_none c
      · rw [Function.update_of_ne hij]
        exact hm i hi

theorem upperCmd_written {p : Parser} {line : Text} (hp : p.Holds line)
    (hm : Holds p.cmdBuffer 0 (line ++ [nul])) {l : Memory} (hl : ∀ i < cmdMaxLength, l i ≠ none) :
    ∃ upper₁, upperCmd p l = .ok upper₁ ∧ ∀ i < cmdMaxLength, upper₁ i ≠ none := by
  have hmem : nul ∈ line ++ [nul] := List.mem_append_right _ (List.mem_singleton_self _)
  obtain ⟨head, rest, -, hnul, hsplit⟩ := exists_head hmem
  have hlen : head.length + rest.length = line.length := by
    have hlength := congrArg List.length hsplit
    simp only [List.length_append, List.length_cons, List.length_nil] at hlength
    omega
  have hheld : Holds p.cmdBuffer 0 (head ++ [nul]) := by
    have hassoc : line ++ [nul] = (head ++ [nul]) ++ rest := by
      rw [hsplit, List.append_assoc]
      rfl
    rw [hassoc, holds_append] at hm
    exact hm.1
  have hlt := hp.length_lt
  unfold upperCmd
  rw [copyWith_line Char.toUpper hnul hheld (by omega) (by omega), hp.cmdIndex]
  exact ⟨_, store_ok _ hlt nul, written_update (put_written _ hl) _ _⟩

theorem recognise_written {m : Memory} (hm : ∀ i < cmdMaxLength, m i ≠ none) :
    ∃ k, recognise m = .ok k := by
  have hagrees : ∀ lit : Text, lit.length ≤ cmdMaxLength → ∃ b, agrees cmdMaxLength m 0 lit = .ok b :=
    fun lit hlit => agrees_written hm (by omega)
  obtain ⟨mux, hmux⟩ := hagrees "MUX".toList (by decide)
  obtain ⟨gain, hgain⟩ := hagrees "GAIN".toList (by decide)
  obtain ⟨status, hstatus⟩ := hagrees ("STATUS".toList ++ [nul]) (by decide)
  obtain ⟨reset, hreset⟩ := hagrees ("RESET".toList ++ [nul]) (by decide)
  obtain ⟨help, hhelp⟩ := hagrees ("HELP".toList ++ [nul]) (by decide)
  obtain ⟨question, hquestion⟩ := hagrees ("?".toList ++ [nul]) (by decide)
  unfold recognise startsWith equals
  rw [hmux, hgain, hstatus, hreset, hhelp, hquestion]
  simp only [bind, Except.bind]
  split_ifs <;> exact ⟨_, rfl⟩

/-- **Bounds.**  When every cell of the local array has some value, no access faults on any stream:
none is outside an array. -/
theorem Board.run_inBounds {stream : List Char} :
    ∀ {b : Board} {stored : Text} {locals : ℕ → Memory}, b.Editing stored →
      (∀ n, ∀ i < cmdMaxLength, locals n i ≠ none) → ∃ r, b.run locals stream = .ok r := by
  induction stream with
  | nil =>
      intro b stored locals _ _
      exact ⟨_, rfl⟩
  | cons c cs ih =>
      intro b stored locals hediting hlocals
      have hstep : ∃ b₁ outcome line, b.step (locals 0) c = .ok (b₁, outcome) ∧ b₁.Editing line := by
        -- only the end of a line uses the local array
        by_cases hend : IsLineEnd c
        · by_cases hne : stored = []
          · subst hne
            exact ⟨b, {}, [], b.step_nil hediting hend _, hediting⟩
          · obtain ⟨p', hp, hholds, hready, hm⟩ := hediting.holds.processChar_end hne hend
            obtain ⟨upper₁, hcopy, hwritten⟩ := upperCmd_written hholds hm (hlocals 0)
            obtain ⟨k, hk⟩ := recognise_written hwritten
            obtain ⟨outcome, hexec⟩ := cmdExecute_of_recognise hholds hready hcopy b.switches hk
            have hdone : b.step (locals 0) c =
                .ok (⟨cmdInit, b.switches.performAll outcome.changes⟩,
                  { outcome with sent := [] ++ outcome.sent ++ "> ".toList }) := by
              unfold step
              rw [hp]
              show (if p'.cmdReady then _ else _) = _
              rw [if_pos hready, hexec]
              rfl
            exact ⟨_, _, [], hdone, cmdInit_editing _⟩
        · obtain ⟨b₁, hstep, hediting₁, -⟩ := b.step_edit hediting hend (locals 0)
          exact ⟨b₁, _, _, hstep, hediting₁⟩
      obtain ⟨b₁, outcome, line, hstep, hediting₁⟩ := hstep
      obtain ⟨r, hr⟩ := ih hediting₁ fun n => hlocals (n + 1)
      rw [Board.run_cons hstep, hr]
      exact ⟨_, rfl⟩

/-! ### The condition -/

/-- A stream is executed the same whatever the stack holds: no comparison looks at a cell that was
not written in the same call, and every run gives the same changes, answers and final state. -/
def DependsOnLines (b : Board) (stream : List Char) : Prop :=
  ∃ r, b.run (fun _ => .fresh) stream = .ok r ∧
    ∀ contents : ℕ → ℕ → Char, b.run (fun n => .filled (contents n)) stream = .ok r

/-- **Every stream.**  From the start, a stream of any bytes is executed the same whatever the stack
holds exactly when every line of it is decided. -/
theorem dependsOnLines_iff (s : Switches) (stream : List Char) :
    DependsOnLines ⟨cmdInit, s⟩ stream ↔ ∀ l ∈ terminated [] [] stream, Decided l.1 := by
  rw [← run_fresh_iff (cmdInit_editing s)]
  constructor
  · rintro ⟨r, hr, -⟩
    exact ⟨r, hr⟩
  · rintro ⟨r, hr⟩
    exact ⟨r, hr, fun contents => Board.run_extends (fun _ => fresh_extends _) hr⟩

/-- Five zero bytes and a line end reset the board when the stack still holds `RESET`, and are an
unknown command when it holds zeros. -/
theorem zero_bytes_reset :
    (idleBoard.run (fun _ => .filled fun i => "RESET".toList.getD i nul)
        (List.replicate 5 nul ++ ['\n'])).toOption.map (fun r => r.2.map Outcome.changes)
      = some [[], [], [], [], [], muxInit] ∧
    (idleBoard.run (fun _ => .filled fun _ => nul)
        (List.replicate 5 nul ++ ['\n'])).toOption.map (fun r => r.2.map Outcome.changes)
      = some [[], [], [], [], [], []] ∧
    ¬DependsOnLines idleBoard (List.replicate 5 nul ++ ['\n']) := by
  have hreset : (idleBoard.run (fun _ => .filled fun i => "RESET".toList.getD i nul)
      (List.replicate 5 nul ++ ['\n'])).toOption.map (fun r => r.2.map Outcome.changes)
        = some [[], [], [], [], [], muxInit] := by decide
  have hunknown : (idleBoard.run (fun _ => .filled fun _ => nul)
      (List.replicate 5 nul ++ ['\n'])).toOption.map (fun r => r.2.map Outcome.changes)
        = some [[], [], [], [], [], []] := by decide
  refine ⟨hreset, hunknown, ?_⟩
  rintro ⟨r, -, hr⟩
  have hfirst := hr fun _ i => "RESET".toList.getD i nul
  have hsecond := hr fun _ _ => nul
  rw [hfirst] at hreset
  rw [hsecond] at hunknown
  exact absurd (hreset.symm.trans hunknown) (by decide)

end Firmware

end Afm
