/-
**Scanning a string by position.**

The library a scanner over `std::string` needs: reading a character, searching, comparing and
subtracting positions.  Each operation is checked, so that a scanner that reads or writes out of
bounds, or subtracts a larger position from a smaller one, ends with a fault instead of a result.
Nothing here mentions a particular format.

Main definitions:

* `StringScan.Misuse` — what a scanner must not do;
* `StringScan.charAt`, `StringScan.diff`, `StringScan.write` — the checked operations;
* `StringScan.find`, `StringScan.skip`, `StringScan.trimEnd` — searching and moving;
* `StringScan.lineLoop` — the loop over the lines of a section;
* `StringScan.LastOf`, `StringScan.Settled` — what the last line that can be read says, and two ways to
  read lines whose differences do not matter.

Main results:

* `StringScan.charAt_mid`, `StringScan.skip_mid`, `StringScan.trimEnd_mid`,
  `StringScan.find_mid` — inside a part of a string a scanner sees that part alone;
* `StringScan.lineLoop_eq` — the loop treats the lines of its section one after the other;
* `StringScan.skip_eq`, `StringScan.trimEnd_eq`, `StringScan.find_eq_some_iff` — where moving and
  searching end;
* `StringScan.lastOf_iff_settled` — **two ways to read lines** give the same result exactly when their
  differences are settled.
-/

import RedPitayaAfm.Lines

set_option relaxedAutoImplicit false
set_option autoImplicit false

namespace StringScan

open Lines

/-- What a scanner must not do. -/
inductive Misuse
  /-- Read at or past the end of the string. -/
  | index
  /-- Subtract a position from a smaller one. -/
  | difference
  /-- Write outside an array. -/
  | write
  /-- Go round a loop without end. -/
  | endless
  deriving DecidableEq

section Operations

variable {α β : Type}

/-- `s[i]` -/
def charAt (s : List α) (i : ℕ) : Except Misuse α :=
  match s[i]? with
  | some c => .ok c
  | none => .error .index

/-- `a - b` of unsigned positions. -/
def diff (a b : ℕ) : Except Misuse ℕ := if b ≤ a then .ok (a - b) else .error .difference

/-- `out[i] = v` -/
def write (out : List β) (i : ℕ) (v : β) : Except Misuse (List β) :=
  if i < out.length then .ok (out.set i v) else .error .write

/-- `s.substr(pos, count)` -/
def substr (s : List α) (pos count : ℕ) : Except Misuse (List α) :=
  if pos ≤ s.length then .ok ((s.drop pos).take count) else .error .index

/-- `s.find(needle, pos)` for a needle that is not empty. -/
def find [BEq α] (needle s : List α) (pos : ℕ) : Option ℕ :=
  ((s.drop pos).tails.findIdx? needle.isPrefixOf).map (pos + ·)

/-- Move forward over characters of a kind, but not past `stop`; `n` bounds the steps. -/
def skip (kind : α → Bool) (s : List α) (stop : ℕ) : ℕ → ℕ → Except Misuse ℕ
  | 0, i => .ok i
  | n + 1, i =>
      if i < stop then do
        let c ← charAt s i
        if kind c then skip kind s stop n (i + 1) else .ok i
      else .ok i

/-- Move an end position back over characters of a kind, but not before `start`. -/
def trimEnd (kind : α → Bool) (s : List α) (start : ℕ) : ℕ → Except Misuse ℕ
  | 0 => .ok 0
  | stop + 1 =>
      if start < stop + 1 then do
        let c ← charAt s stop
        if kind c then trimEnd kind s start stop else .ok (stop + 1)
      else .ok (stop + 1)

/-- The loop over the lines between `pos` and `stop`; `n` bounds the rounds. -/
def lineLoop [BEq α] (newline : α) (s : List α) (stop : ℕ) (body : ℕ → ℕ → β → Except Misuse β) :
    ℕ → ℕ → β → Except Misuse β
  | 0, pos, out => if pos < stop then .error .endless else .ok out
  | n + 1, pos, out =>
      if pos < stop then do
        let found := (find [newline] s pos).getD s.length
        let lineEnd := if stop < found then stop else found
        let out ← body pos lineEnd out
        lineLoop newline s stop body n (lineEnd + 1) out
      else .ok out

end Operations

/-! ### A part of a string -/

section Mid

variable {α β : Type} (before : List α) {mid : List α} (after : List α)

theorem charAt_mid {i : ℕ} (h : i < mid.length) :
    charAt (before ++ mid ++ after) (before.length + i) = charAt mid i := by
  have hget : (before ++ mid ++ after)[before.length + i]? = mid[i]? := by
    rw [List.append_assoc, List.getElem?_append_right (Nat.le_add_right _ _),
      Nat.add_sub_cancel_left, List.getElem?_append_left h]
  rw [charAt, charAt, hget]

theorem charAt_eq_ok {s : List α} {i : ℕ} (h : i < s.length) : charAt s i = .ok s[i] := by
  rw [charAt, List.getElem?_eq_getElem h]

theorem diff_add (n a b : ℕ) : diff (n + a) (n + b) = diff a b := by
  unfold diff
  by_cases h : b ≤ a
  · rw [if_pos h, if_pos (by omega), Nat.add_sub_add_left]
  · rw [if_neg h, if_neg (by omega)]

theorem substr_mid {pos count : ℕ} (h : pos + count ≤ mid.length) :
    substr (before ++ mid ++ after) (before.length + pos) count = substr mid pos count := by
  unfold substr
  rw [if_pos (by simp; omega), if_pos (by omega), List.append_assoc, List.drop_length_add_append,
    List.drop_append_of_le_length (by omega), List.take_append_of_le_length (by simp; omega)]

/-- Moving forward inside the string never fails. -/
theorem skip_ok (kind : α → Bool) {s : List α} {stop : ℕ} (h : stop ≤ s.length) {i : ℕ}
    (hi : i ≤ stop) (n : ℕ) : ∃ j, skip kind s stop n i = .ok j ∧ i ≤ j ∧ j ≤ stop := by
  induction n generalizing i with
  | zero => exact ⟨i, rfl, le_refl i, hi⟩
  | succ n ih =>
      by_cases hlt : i < stop
      · simp only [skip, if_pos hlt, charAt_eq_ok (show i < s.length by omega)]
        by_cases hk : kind s[i] = true
        · obtain ⟨j, hj, h₁, h₂⟩ := ih (i := i + 1) (by omega)
          exact ⟨j, by simpa [hk, bind, Except.bind] using hj, by omega, h₂⟩
        · exact ⟨i, by simp [hk, bind, Except.bind], le_refl i, hi⟩
      · exact ⟨i, if_neg hlt, le_refl i, hi⟩

/-- Moving back inside the string never fails. -/
theorem trimEnd_ok (kind : α → Bool) {s : List α} (start : ℕ) {stop : ℕ} (h : stop ≤ s.length) :
    ∃ e, trimEnd kind s start stop = .ok e ∧ e ≤ stop ∧ (start ≤ stop → start ≤ e) := by
  induction stop with
  | zero => exact ⟨0, rfl, le_refl 0, id⟩
  | succ stop ih =>
      by_cases hlt : start < stop + 1
      · simp only [trimEnd, if_pos hlt, charAt_eq_ok (show stop < s.length by omega)]
        by_cases hk : kind s[stop] = true
        · obtain ⟨e, he, h₁, h₂⟩ := ih (by omega)
          exact ⟨e, by simpa [hk, bind, Except.bind] using he, by omega, fun _ => h₂ (by omega)⟩
        · exact ⟨stop + 1, by simp [hk, bind, Except.bind], le_refl _, id⟩
      · exact ⟨stop + 1, if_neg hlt, le_refl _, id⟩

theorem diff_eq_ok {a b : ℕ} (h : b ≤ a) : diff a b = .ok (a - b) := if_pos h

theorem skip_mid (kind : α → Bool) {stop : ℕ} (h : stop ≤ mid.length) (n i : ℕ) :
    skip kind (before ++ mid ++ after) (before.length + stop) n (before.length + i)
      = (before.length + ·) <$> skip kind mid stop n i := by
  induction n generalizing i with
  | zero => rfl
  | succ n ih =>
      by_cases hi : i < stop
      · have hc : charAt (before ++ mid ++ after) (before.length + i) = charAt mid i :=
          charAt_mid before after (by omega)
        simp only [skip, if_pos hi, if_pos (Nat.add_lt_add_left hi before.length), hc]
        rw [charAt_eq_ok (by omega)]
        by_cases hk : kind mid[i] = true
        · simpa [hk, Except.bind, bind, Nat.add_assoc] using ih (i + 1)
        · simp [hk, Except.bind, bind, Functor.map, Except.map]
      · have hi' : ¬before.length + i < before.length + stop := by omega
        simp only [skip, if_neg hi, if_neg hi']
        rfl

theorem trimEnd_mid (kind : α → Bool) {stop : ℕ} (h : stop ≤ mid.length) :
    trimEnd kind (before ++ mid ++ after) before.length (before.length + stop)
      = (before.length + ·) <$> trimEnd kind mid 0 stop := by
  induction stop with
  | zero =>
      have h₀ : trimEnd kind (before ++ mid ++ after) before.length before.length
          = .ok before.length := by
        cases before with
        | nil => rfl
        | cons c before => simp [trimEnd]
      exact h₀
  | succ stop ih =>
      have hc : charAt (before ++ mid ++ after) (before.length + stop) = charAt mid stop :=
        charAt_mid before after (by omega)
      have hlt : before.length < before.length + stop + 1 := by omega
      rw [← Nat.add_assoc]
      simp only [trimEnd, if_pos hlt, if_pos (Nat.succ_pos stop), hc]
      rw [charAt_eq_ok (by omega)]
      by_cases hk : kind mid[stop] = true
      · simpa [hk, Except.bind, bind] using ih (by omega)
      · simp [hk, Except.bind, bind, Functor.map, Except.map, Nat.add_assoc]

end Mid

/-! ### Searching -/

section Find

variable {α : Type} [BEq α]

theorem find_eq_add (needle s : List α) (pos : ℕ) :
    find needle s pos = (find needle (s.drop pos) 0).map (pos + ·) := by
  simp [find]

theorem find_nil_zero {needle : List α} (h : needle ≠ []) : find needle ([] : List α) 0 = none := by
  cases needle with
  | nil => exact absurd rfl h
  | cons c needle => simp [find, List.isPrefixOf]

theorem find_cons_zero (needle s : List α) (c : α) :
    find needle (c :: s) 0
      = if needle.isPrefixOf (c :: s) then some 0 else (find needle s 0).map (· + 1) := by
  simp only [find, List.drop_zero, List.tails_cons, List.findIdx?_cons, Nat.zero_add]
  split
  · rfl
  · simp [Option.map_map, Function.comp_def]

/-- Searching behind a part of a string. -/
theorem find_append_left (needle before s : List α) (pos : ℕ) :
    find needle (before ++ s) (before.length + pos)
      = (find needle s pos).map (before.length + ·) := by
  rw [find_eq_add, find_eq_add needle s, List.drop_length_add_append, Option.map_map]
  congr 1
  funext p
  simp only [Function.comp_apply]
  omega

/-- An occurrence that starts in `mid` does not reach into what follows. -/
def Fits (needle mid after : List α) : Prop :=
  ∀ p < mid.length, needle.isPrefixOf (mid.drop p ++ after) = needle.isPrefixOf (mid.drop p)

theorem Fits.drop {needle mid after : List α} (h : Fits needle mid after) (n : ℕ) :
    Fits needle (mid.drop n) after := by
  intro p hp
  rw [List.length_drop] at hp
  rw [List.drop_drop]
  exact h _ (by omega)

theorem fits_singleton (c : α) (mid after : List α) : Fits [c] mid after := by
  intro p hp
  rw [List.drop_eq_getElem_cons hp, List.cons_append]
  rfl

theorem fits_pair [LawfulBEq α] (c d : α) (mid : List α) {after : List α}
    (h : after.head? ≠ some d) : Fits [c, d] mid after := by
  intro p hp
  rw [List.drop_eq_getElem_cons hp, List.cons_append]
  cases hr : mid.drop (p + 1) with
  | cons x r => rfl
  | nil =>
      -- the pair could only end in what follows
      cases after with
      | nil => rfl
      | cons x after =>
          have hx : (d == x) = false := by
            rw [beq_eq_false_iff_ne]
            rintro rfl
            exact h rfl
          simp [List.isPrefixOf, hx]

private theorem find_filter_zero {needle mid after : List α} (hne : needle ≠ [])
    (h : Fits needle mid after) :
    (find needle (mid ++ after) 0).filter (· < mid.length) = find needle mid 0 := by
  induction mid with
  | nil => rw [find_nil_zero hne]; simp
  | cons c mid ih =>
      have h₀ := h 0 (by simp)
      rw [List.drop_zero, List.cons_append] at h₀
      rw [List.cons_append, find_cons_zero, find_cons_zero, h₀]
      by_cases hp : needle.isPrefixOf (c :: mid) = true
      · simp [hp]
      · simp only [hp, Bool.false_eq_true, if_false]
        rw [← ih (h.drop 1)]
        cases find needle (mid ++ after) 0 <;> simp [Option.filter_some, apply_ite]

/-- Searching in a part of a string finds what starts in it. -/
theorem find_filter {needle mid after : List α} (hne : needle ≠ []) (h : Fits needle mid after)
    {pos : ℕ} (hpos : pos ≤ mid.length) :
    (find needle (mid ++ after) pos).filter (· < mid.length) = find needle mid pos := by
  have hdrop := find_filter_zero hne (h.drop pos)
  rw [find_eq_add, find_eq_add needle mid, ← hdrop, List.drop_append_of_le_length hpos]
  rw [List.length_drop]
  cases find needle (mid.drop pos ++ after) 0 with
  | none => rfl
  | some p =>
      by_cases hp : pos + p < mid.length
      · have hp' : p < mid.length - pos := by omega
        simp [Option.filter_some, hp, hp']
      · have hp' : ¬p < mid.length - pos := by omega
        simp [Option.filter_some, hp, hp']

theorem find_mid {needle mid after : List α} (before : List α) (hne : needle ≠ [])
    (h : Fits needle mid after) {pos stop : ℕ} (hpos : pos ≤ mid.length) (hstop : stop ≤ mid.length) :
    (find needle (before ++ mid ++ after) (before.length + pos)).filter (· < before.length + stop)
      = ((find needle mid pos).filter (· < stop)).map (before.length + ·) := by
  rw [List.append_assoc, find_append_left, ← find_filter hne h hpos]
  cases find needle (mid ++ after) pos with
  | none => rfl
  | some p =>
      by_cases hp : p < stop
      · have hp' : p < mid.length := by omega
        simp [Option.filter_some, hp, hp']
      · by_cases hp' : p < mid.length <;> simp [Option.filter_some, hp, hp']

/-- What is searched for is found where its first character first occurs. -/
theorem find_of_not_mem [LawfulBEq α] {needle before : List α} {c : α}
    (hc : needle.head? = some c) (h : c ∉ before) (after : List α) :
    find needle (before ++ (needle ++ after)) 0 = some before.length := by
  induction before with
  | nil =>
      obtain ⟨needle', rfl⟩ : ∃ needle', needle = c :: needle' := List.head?_eq_some_iff.1 hc
      have hstarts : (c :: needle').isPrefixOf (c :: needle' ++ after) = true :=
        List.isPrefixOf_iff_prefix.2 (List.prefix_append _ _)
      rw [List.nil_append, List.cons_append, find_cons_zero, ← List.cons_append, if_pos hstarts]
      rfl
  | cons x before ih =>
      have hne : c ≠ x := fun heq => h (heq ▸ List.mem_cons_self ..)
      have hno : needle.isPrefixOf (x :: (before ++ (needle ++ after))) = false := by
        obtain ⟨needle', rfl⟩ : ∃ needle', needle = c :: needle' := List.head?_eq_some_iff.1 hc
        simp [List.isPrefixOf, hne]
      rw [List.cons_append, find_cons_zero, hno, ih fun hx => h (List.mem_cons_of_mem _ hx)]
      rfl

/-- An occurrence ends within the string. -/
theorem find_le [LawfulBEq α] {needle s : List α} (hne : needle ≠ []) {pos p : ℕ}
    (h : find needle s pos = some p) : p + needle.length ≤ s.length := by
  obtain ⟨k, hk, rfl⟩ := Option.map_eq_some_iff.1 h
  obtain ⟨hlt, hpre, -⟩ := List.findIdx?_eq_some_iff_getElem.1 hk
  rw [List.getElem_tails, List.drop_drop] at hpre
  rw [List.length_tails, List.length_drop] at hlt
  have hlen := (List.isPrefixOf_iff_prefix.1 hpre).length_le
  rw [List.length_drop] at hlen
  have := List.length_pos_iff.2 hne
  omega

/-- The first terminator after a line without one. -/
theorem find_terminator {newline : α} {l : List α} (hl : ∀ c ∈ l, (newline == c) = false)
    (hn : (newline == newline) = true) (after : List α) :
    find [newline] (l ++ newline :: after) 0 = some l.length := by
  induction l with
  | nil => rw [List.nil_append, find_cons_zero]; simp [List.isPrefixOf, hn]
  | cons c l ih =>
      have hc := hl c (by simp)
      rw [List.cons_append, find_cons_zero, ih fun x hx => hl x (List.mem_cons_of_mem _ hx)]
      simp [List.isPrefixOf, hc]

/-- A line without a terminator has none before its end. -/
theorem find_no_terminator {newline : α} {l : List α} (hl : ∀ c ∈ l, (newline == c) = false) :
    find [newline] l 0 = none := by
  induction l with
  | nil => exact find_nil_zero (by simp)
  | cons c l ih =>
      have hc := hl c (by simp)
      rw [find_cons_zero, ih fun x hx => hl x (List.mem_cons_of_mem _ hx)]
      simp [List.isPrefixOf, hc]

end Find

/-! ### The lines of a section -/

section LineLoop

variable {α β : Type} [BEq α] {newline : α} {s : List α} {stop : ℕ}
  {body : ℕ → ℕ → β → Except Misuse β}

/-- The lines of a section; the last one may lack its terminator. -/
def sectionLines (newline : α) (xs : List α) : List (List α) :=
  lines (newline == ·) xs ++
    if (rest (newline == ·) xs).isEmpty then [] else [rest (newline == ·) xs]

theorem lineLoop_done {n pos : ℕ} (h : ¬pos < stop) (out : β) :
    lineLoop newline s stop body n pos out = .ok out := by
  cases n with
  | zero => exact if_neg h
  | succ n => exact if_neg h

/-- **The loop over a section** treats its lines one after the other, and never runs out of
rounds. -/
theorem lineLoop_eq [LawfulBEq α] {line : List α → β → Except Misuse β} (after : List α) {n : ℕ}
    {before sec : List α} {out : β} (hs : s = before ++ sec ++ after)
    (hstop : stop = before.length + sec.length) (hn : sec.length ≤ n)
    (hbody : ∀ before l tail out, s = before ++ l ++ tail → (∀ c ∈ l, (newline == c) = false) →
      (tail = after ∨ ∃ t, tail = newline :: t) →
      body before.length (before.length + l.length) out = line l out) :
    lineLoop newline s stop body n before.length out
      = (sectionLines newline sec).foldlM (fun out l => line l out) out := by
  induction n generalizing before sec out with
  | zero =>
      obtain rfl : sec = [] := List.length_eq_zero_iff.1 (by omega)
      rw [lineLoop_done (by simp [hstop])]
      rfl
  | succ n ih =>
      by_cases hsec : sec = []
      · subst hsec
        rw [lineLoop_done (by simp [hstop])]
        rfl
      have hpos : before.length < stop := by
        have := List.length_pos_iff.2 hsec
        omega
      have hfind : find [newline] s before.length
          = (find [newline] (sec ++ after) 0).map (before.length + ·) := by
        have h := find_append_left [newline] before (sec ++ after) 0
        rwa [Nat.add_zero, ← List.append_assoc, ← hs] at h
      cases hcut : cut (newline == ·) sec with
      | none =>
          -- the section ends in the middle of a line
          have hno := (cut_eq_none_iff _).1 hcut
          have hl : ∀ c ∈ sec, (newline == c) = false := (lines_eq_nil_iff _).1 hno
          have hend : (if stop < (find [newline] s before.length).getD s.length then stop
              else (find [newline] s before.length).getD s.length) = stop := by
            have hlt := find_filter (by simp) (fits_singleton newline sec after)
              (Nat.zero_le sec.length)
            rw [find_no_terminator hl] at hlt
            rw [hfind]
            cases hp : find [newline] (sec ++ after) 0 with
            | none =>
                simp only [Option.map_none, Option.getD_none]
                have hlen : s.length = stop + after.length := by
                  rw [hs, hstop]; simp; omega
                split <;> omega
            | some p =>
                rw [hp, Option.filter_some] at hlt
                have hp' : ¬p < sec.length := by
                  intro h
                  simp [h] at hlt
                simp only [Option.map_some, Option.getD_some]
                split <;> omega
          have hb := hbody before sec after out hs hl (Or.inl rfl)
          have hlines : sectionLines newline sec = [sec] := by
            rw [sectionLines, hno, rest_of_no_nl _ hl]
            simp [hsec]
          simp only [lineLoop, if_pos hpos, hend]
          rw [hlines, hstop, hb]
          simp only [List.foldlM_cons, List.foldlM_nil]
          congr 1
          funext out'
          rw [lineLoop_done (by omega)]
          rfl
      | some p =>
          -- a whole line, then the rest of the section
          obtain ⟨l, ys⟩ := p
          obtain ⟨t, ht, hsplit⟩ := eq_append_of_cut _ hcut
          obtain rfl : newline = t := by simpa using ht
          have hl : ∀ c ∈ l, (newline == c) = false := by
            intro c hc
            have hmem : l ∈ lines (newline == ·) sec := by
              rw [(lines_of_cut _ hcut).1]
              exact List.mem_cons_self
            exact lines_no_nl _ _ l hmem c hc
          have hend : (if stop < (find [newline] s before.length).getD s.length then stop
              else (find [newline] s before.length).getD s.length) = before.length + l.length := by
            rw [hfind, hsplit, List.append_assoc, List.cons_append,
              find_terminator hl (by simp)]
            simp only [Option.map_some, Option.getD_some]
            have hlen : sec.length = l.length + ys.length + 1 := by
              rw [hsplit]; simp; omega
            rw [if_neg (by omega)]
          have hb := hbody before l (newline :: (ys ++ after)) out
            (by rw [hs, hsplit]; simp) hl (Or.inr ⟨_, rfl⟩)
          have hlines : sectionLines newline sec = l :: sectionLines newline ys := by
            rw [sectionLines, (lines_of_cut _ hcut).1, (lines_of_cut _ hcut).2, sectionLines]
            rfl
          simp only [lineLoop, if_pos hpos, hend]
          rw [hlines, hb]
          simp only [List.foldlM_cons]
          congr 1
          funext out'
          have hlen : (before ++ l ++ [newline]).length = before.length + l.length + 1 := by
            simp; omega
          rw [← hlen]
          exact ih (by rw [hs, hsplit]; simp) (by rw [hstop, hsplit]; simp; omega)
            (by rw [hsplit] at hn; simp at hn; omega)

end LineLoop

/-! ### Positions of parts -/

section Parts

variable {α β : Type}

theorem substr_eq_ok {s : List α} {pos : ℕ} (h : pos ≤ s.length) (count : ℕ) :
    substr s pos count = .ok ((s.drop pos).take count) := if_pos h

theorem write_eq_ok {out : List β} {i : ℕ} (h : i < out.length) (v : β) :
    write out i v = .ok (out.set i v) := if_pos h

/-- Moving forward ends behind the characters of the kind. -/
theorem skip_eq (kind : α → Bool) {xs ys : List α} (hxs : ∀ c ∈ xs, kind c = true)
    (hys : ∀ c ∈ ys.head?, kind c = false) (before after : List α) {n : ℕ} (hn : xs.length ≤ n) :
    skip kind (before ++ (xs ++ ys) ++ after) (before.length + (xs ++ ys).length) n before.length
      = .ok (before.length + xs.length) := by
  -- each character of the kind moves to the part behind the position
  induction xs generalizing before n with
  | nil =>
      cases n with
      | zero => rfl
      | succ n =>
          cases ys with
          | nil => simp [skip]
          | cons y ys =>
              have hc : charAt (before ++ y :: (ys ++ after)) before.length = .ok y := by
                rw [charAt_eq_ok (by simp)]
                simp
              have hy : kind y = false := hys y rfl
              simp [skip, hc, bind, Except.bind, hy]
  | cons x xs ih =>
      obtain ⟨n, rfl⟩ : ∃ m, n = m + 1 := ⟨n - 1, by simp at hn; omega⟩
      have hc : charAt (before ++ (x :: xs ++ ys) ++ after) before.length = .ok x := by
        rw [charAt_eq_ok (by simp)]
        simp
      have hx : kind x = true := hxs x (List.mem_cons_self ..)
      have hrest := ih (fun c hc => hxs c (List.mem_cons_of_mem _ hc)) (before ++ [x]) (n := n)
        (by simp at hn; omega)
      have hs : before ++ [x] ++ (xs ++ ys) ++ after = before ++ (x :: xs ++ ys) ++ after := by simp
      have hstop : (before ++ [x]).length + (xs ++ ys).length
          = before.length + (x :: xs ++ ys).length := by
        simp
        omega
      rw [hs, hstop] at hrest
      have hlt : before.length < before.length + (x :: xs ++ ys).length := by simp
      have hlen : before.length + (x :: xs).length = (before ++ [x]).length + xs.length := by
        simp
        omega
      rw [skip, if_pos hlt, hc, hlen, ← hrest]
      simp only [bind, Except.bind, hx, if_true, List.length_append, List.length_singleton]

/-- Moving back ends before the characters of the kind. -/
theorem trimEnd_eq (kind : α → Bool) {xs ys : List α} (hxs : ∀ c ∈ xs.getLast?, kind c = false)
    (hys : ∀ c ∈ ys, kind c = true) :
    trimEnd kind (xs ++ ys) 0 (xs ++ ys).length = .ok xs.length := by
  -- induction from the last character, which is the first to go
  induction ys using List.reverseRecOn with
  | nil =>
      rw [List.append_nil]
      rcases List.eq_nil_or_concat xs with rfl | ⟨xs, x, rfl⟩
      · rfl
      · rw [List.concat_eq_append] at hxs ⊢
        have hx : kind x = false := hxs x (by simp)
        have hc : charAt (xs ++ [x]) xs.length = .ok x := by
          rw [charAt_eq_ok (by simp)]
          simp
        rw [List.length_append, List.length_singleton, trimEnd, if_pos (Nat.succ_pos _), hc]
        simp only [bind, Except.bind, hx]
        rfl
  | append_singleton ys y ih =>
      have hy : kind y = true := hys y (by simp)
      have hc : charAt (xs ++ (ys ++ [y])) (xs ++ ys).length = .ok y := by
        rw [charAt_eq_ok (by simp)]
        simp
      have hrest := ih fun c hc => hys c (List.mem_append_left _ hc)
      have hmore := trimEnd_mid ([] : List α) [y] kind (le_refl (xs ++ ys).length)
      rw [List.nil_append, List.length_nil, Nat.zero_add, hrest] at hmore
      have hlen : (xs ++ (ys ++ [y])).length = (xs ++ ys).length + 1 := by simp; omega
      rw [hlen, trimEnd, if_pos (Nat.succ_pos _), hc]
      simp only [bind, Except.bind, hy, if_true]
      rw [← List.append_assoc, hmore]
      simp [Functor.map, Except.map]

/-- A string without the characters of a kind at its end. -/
theorem exists_trimEnd (kind : α → Bool) (l : List α) :
    ∃ xs ys, l = xs ++ ys ∧ (∀ c ∈ xs.getLast?, kind c = false) ∧ ∀ c ∈ ys, kind c = true := by
  induction l using List.reverseRecOn with
  | nil => exact ⟨[], [], rfl, by simp, by simp⟩
  | append_singleton l c ih =>
      by_cases hc : kind c = true
      · obtain ⟨xs, ys, rfl, hxs, hys⟩ := ih
        refine ⟨xs, ys ++ [c], by simp, hxs, ?_⟩
        intro d hd
        rcases List.mem_append.1 hd with hd | hd
        · exact hys d hd
        · rwa [List.mem_singleton.1 hd]
      · exact ⟨l ++ [c], [], by simp, by simpa using hc, by simp⟩

/-- A string without the characters of a kind at its start. -/
theorem exists_skip (kind : α → Bool) (l : List α) :
    ∃ xs ys, l = xs ++ ys ∧ (∀ c ∈ xs, kind c = true) ∧ ∀ c ∈ ys.head?, kind c = false := by
  refine ⟨l.takeWhile kind, l.dropWhile kind, (List.takeWhile_append_dropWhile).symm,
    fun c hc => List.mem_takeWhile_imp hc, ?_⟩
  intro c hc
  have h := List.head?_dropWhile_not kind l
  rw [Option.mem_def.1 hc] at h
  simpa using h

/-- What is found is an occurrence, the first one. -/
theorem find_eq_some_iff [BEq α] [LawfulBEq α] {needle s : List α} {p : ℕ} :
    find needle s 0 = some p ↔
      ∃ before after, s = before ++ (needle ++ after) ∧ before.length = p ∧
        ∀ k < p, ¬needle <+: s.drop k := by
  have hfind : find needle s 0 = s.tails.findIdx? needle.isPrefixOf := by
    simp [find]
  rw [hfind, List.findIdx?_eq_some_iff_getElem]
  constructor
  · rintro ⟨hp, hpre, hfirst⟩
    rw [List.getElem_tails, List.isPrefixOf_iff_prefix] at hpre
    obtain ⟨after, hafter⟩ := hpre
    rw [List.length_tails] at hp
    refine ⟨s.take p, after, by rw [hafter, List.take_append_drop], by simp; omega, ?_⟩
    intro k hk hpre
    have h := hfirst k hk
    rw [List.getElem_tails, Bool.not_eq_true, ← Bool.not_eq_true, List.isPrefixOf_iff_prefix] at h
    exact h hpre
  · rintro ⟨before, after, rfl, rfl, hfirst⟩
    refine ⟨by rw [List.length_tails]; simp, ?_, ?_⟩
    · rw [List.getElem_tails, List.isPrefixOf_iff_prefix, List.drop_left]
      exact List.prefix_append _ _
    · intro k hk
      rw [List.getElem_tails, Bool.not_eq_true, ← Bool.not_eq_true, List.isPrefixOf_iff_prefix]
      exact hfirst k hk

/-- A character is found where it first occurs. -/
theorem find_singleton_eq_some_iff [BEq α] [LawfulBEq α] {c : α} {s : List α} {p : ℕ} :
    find [c] s 0 = some p ↔ ∃ before after, s = before ++ c :: after ∧ before.length = p ∧ c ∉ before := by
  constructor
  · intro h
    obtain ⟨before, after, rfl, hp, hfirst⟩ := find_eq_some_iff.1 h
    refine ⟨before, after, rfl, hp, ?_⟩
    intro hc
    obtain ⟨k, hk, rfl⟩ := List.getElem_of_mem hc
    refine hfirst k (by omega) ?_
    rw [List.drop_append_of_le_length (by omega), List.drop_eq_getElem_cons hk]
    exact ⟨_, rfl⟩
  · rintro ⟨before, after, rfl, rfl, hc⟩
    exact find_of_not_mem rfl hc after

/-- A pair of different characters is found where it first occurs. -/
theorem find_pair_eq_some_iff [BEq α] [LawfulBEq α] {c d : α} (hcd : c ≠ d) {s : List α} {p : ℕ} :
    find [c, d] s 0 = some p ↔
      ∃ before after, s = before ++ c :: d :: after ∧ before.length = p ∧ ¬[c, d] <:+: before := by
  rw [find_eq_some_iff]
  constructor
  · rintro ⟨before, after, rfl, hp, hfirst⟩
    refine ⟨before, after, rfl, hp, ?_⟩
    rintro ⟨a, b, rfl⟩
    refine hfirst a.length (by rw [← hp]; simp) ?_
    rw [List.append_assoc, List.append_assoc, List.drop_left]
    exact List.prefix_append _ _
  · rintro ⟨before, after, rfl, hp, hno⟩
    refine ⟨before, after, rfl, hp, ?_⟩
    intro k hk hpre
    rw [List.drop_append_of_le_length (by omega), List.drop_eq_getElem_cons (by omega)] at hpre
    obtain ⟨t, ht⟩ := hpre
    obtain ⟨rfl, ht⟩ := List.cons.inj ht
    cases hrest : before.drop (k + 1) with
    | nil =>
        -- the pair would start with the last character before its occurrence
        rw [hrest] at ht
        exact hcd (List.cons.inj ht).1.symm
    | cons x xs =>
        rw [hrest] at ht
        obtain ⟨rfl, -⟩ := List.cons.inj ht
        refine hno ⟨before.take k, xs, ?_⟩
        have hdrop := List.drop_eq_getElem_cons (l := before) (i := k) (by omega)
        rw [hrest] at hdrop
        rw [List.append_assoc]
        exact (congrArg (before.take k ++ ·) hdrop.symm).trans (List.take_append_drop k before)

end Parts

/-! ### The last reading -/

section LastOf

variable {α β : Type}

/-- What the last line that can be read says. -/
def LastOf (reads : α → β → Prop) (ls : List α) (v : β) : Prop :=
  ∃ before l after, ls = before ++ l :: after ∧ reads l v ∧ ∀ m ∈ after, ∀ w, ¬reads m w

theorem not_lastOf_nil (reads : α → β → Prop) (v : β) : ¬LastOf reads [] v := by
  rintro ⟨before, l, after, h, -⟩
  simp at h

/-- One line more. -/
theorem lastOf_concat {reads : α → β → Prop} {ls : List α} {l : α} {v : β} :
    LastOf reads (ls ++ [l]) v ↔ reads l v ∨ (∀ w, ¬reads l w) ∧ LastOf reads ls v := by
  constructor
  · rintro ⟨before, k, after, h, hk, hafter⟩
    rcases List.eq_nil_or_concat after with rfl | ⟨after, m, rfl⟩
    · obtain ⟨rfl, heq⟩ := List.append_inj' h rfl
      obtain rfl := (List.cons.inj heq).1
      exact .inl hk
    · rw [List.concat_eq_append, ← List.cons_append, ← List.append_assoc] at h
      obtain ⟨rfl, heq⟩ := List.append_inj' h rfl
      obtain rfl := (List.cons.inj heq).1
      rw [List.concat_eq_append] at hafter
      exact .inr ⟨hafter l (by simp), before, k, after, rfl, hk,
        fun m hm => hafter m (List.mem_append_left _ hm)⟩
  · rintro (hl | ⟨hl, before, k, after, rfl, hk, hafter⟩)
    · exact ⟨ls, l, [], rfl, hl, by simp⟩
    · refine ⟨before, k, after ++ [l], by simp, hk, ?_⟩
      intro m hm
      rcases List.mem_append.1 hm with hm | hm
      · exact hafter m hm
      · rw [List.mem_singleton.1 hm]
        exact hl

/-- Where two ways to read a line differ, it does not matter: the last line that one of them reads
is read by the other too, or the other has read the same before. -/
def Settled (reads reads' : α → β → Prop) (ls : List α) : Prop :=
  ∀ before l after v, ls = before ++ l :: after → (∀ m ∈ after, ∀ w, ¬reads m w ∧ ¬reads' m w) →
    (reads l v → (∀ w, ¬reads' l w) → LastOf reads' before v) ∧
      (reads' l v → (∀ w, ¬reads l w) → LastOf reads before v)

theorem Settled.swap {reads reads' : α → β → Prop} {ls : List α} (h : Settled reads reads' ls) :
    Settled reads' reads ls := by
  intro before l after v hls hafter
  exact (h before l after v hls fun m hm w => (hafter m hm w).symm).symm

/-- A line of neither kind does not matter. -/
theorem settled_concat {reads reads' : α → β → Prop} {ls : List α} {l : α}
    (hl : ∀ w, ¬reads l w ∧ ¬reads' l w) : Settled reads reads' (ls ++ [l]) ↔ Settled reads reads' ls := by
  constructor
  · intro h before k after v hls hafter
    refine h before k (after ++ [l]) v (by simp [hls]) ?_
    intro m hm
    rcases List.mem_append.1 hm with hm | hm
    · exact hafter m hm
    · rw [List.mem_singleton.1 hm]
      exact hl
  · intro h before k after v hls hafter
    rcases List.eq_nil_or_concat after with rfl | ⟨after, m, rfl⟩
    · obtain ⟨rfl, heq⟩ := List.append_inj' hls rfl
      obtain rfl := (List.cons.inj heq).1
      exact ⟨fun hk => absurd hk (hl v).1, fun hk => absurd hk (hl v).2⟩
    · rw [List.concat_eq_append, ← List.cons_append, ← List.append_assoc] at hls
      obtain ⟨rfl, -⟩ := List.append_inj' hls rfl
      rw [List.concat_eq_append] at hafter
      exact h before k after v rfl fun m hm => hafter m (List.mem_append_left _ hm)

/-- The last line, when one of the two reads it. -/
theorem settled_concat_iff {reads reads' : α → β → Prop} {ls : List α} {l : α} {v : β}
    (hl : reads l v) :
    Settled reads reads' (ls ++ [l]) ↔
      ∀ w, (reads l w → (∀ u, ¬reads' l u) → LastOf reads' ls w) := by
  constructor
  · intro h w
    exact (h ls l [] w rfl (by simp)).1
  · intro h before k after w hls hafter
    rcases List.eq_nil_or_concat after with rfl | ⟨after, m, rfl⟩
    · obtain ⟨rfl, heq⟩ := List.append_inj' hls rfl
      obtain rfl := (List.cons.inj heq).1
      exact ⟨h w, fun _ hno => absurd hl (hno v)⟩
    · rw [List.concat_eq_append, ← List.cons_append, ← List.append_assoc] at hls
      obtain ⟨rfl, heq⟩ := List.append_inj' hls rfl
      obtain rfl := (List.cons.inj heq).1
      rw [List.concat_eq_append] at hafter
      exact absurd hl (hafter l (by simp) v).1

/-- Two ways to read lines that agree on each line. -/
theorem settled_of_iff {reads reads' : α → β → Prop} {ls : List α}
    (h : ∀ l ∈ ls, ∀ v, reads l v ↔ reads' l v) : Settled reads reads' ls := by
  intro before l after v hls _
  have hl : l ∈ ls := by
    rw [hls]
    simp
  exact ⟨fun hv hno => absurd ((h l hl v).1 hv) (hno v), fun hv hno => absurd ((h l hl v).2 hv) (hno v)⟩

theorem lastOf_unique {reads : α → β → Prop} (hreads : ∀ l v w, reads l v → reads l w → v = w)
    {ls : List α} {v w : β} (hv : LastOf reads ls v) (hw : LastOf reads ls w) : v = w := by
  induction ls using List.reverseRecOn with
  | nil => exact absurd hv (not_lastOf_nil _ _)
  | append_singleton ls l ih =>
      rcases lastOf_concat.1 hv with hv | ⟨hv, hv'⟩
      · rcases lastOf_concat.1 hw with hw | ⟨hw, -⟩
        · exact hreads l v w hv hw
        · exact absurd hv (hw v)
      · rcases lastOf_concat.1 hw with hw | ⟨-, hw'⟩
        · exact absurd hw (hv w)
        · exact ih hv' hw'

/-- **Two ways to read lines** give the same result exactly when their differences are settled. -/
theorem lastOf_iff_settled {reads reads' : α → β → Prop}
    (hreads : ∀ l v w, reads l v → reads l w → v = w)
    (hreads' : ∀ l v w, reads' l v → reads' l w → v = w)
    (hboth : ∀ l v w, reads l v → reads' l w → v = w) {ls : List α} :
    (∀ v, LastOf reads ls v ↔ LastOf reads' ls v) ↔ Settled reads reads' ls := by
  induction ls using List.reverseRecOn with
  | nil => simp [Settled, not_lastOf_nil]
  | append_singleton ls l ih =>
      by_cases hl : ∃ v, reads l v
      · obtain ⟨v, hv⟩ := hl
        rw [settled_concat_iff hv]
        by_cases hl' : ∃ w, reads' l w
        · -- both read the line
          obtain ⟨w, hw⟩ := hl'
          refine iff_of_true ?_ (fun u _ hno => absurd hw (hno w))
          intro u
          rw [lastOf_concat, lastOf_concat]
          obtain rfl := hboth l v w hv hw
          refine or_congr ⟨fun hu => ?_, fun hu => ?_⟩ ⟨fun hu => absurd hv (hu.1 v),
            fun hu => absurd hw (hu.1 v)⟩
          · rwa [hreads l u v hu hv]
          · rwa [hreads' l u v hu hw]
        · -- only the first reads it
          have hno : ∀ w, ¬reads' l w := fun w hw => hl' ⟨w, hw⟩
          constructor
          · intro h u hu _
            have h' := (h u).1 (lastOf_concat.2 (.inl hu))
            rcases lastOf_concat.1 h' with hw | hw
            · exact absurd hw (hno u)
            · exact hw.2
          · intro h u
            have hlast := h v hv hno
            rw [lastOf_concat, lastOf_concat]
            constructor
            · rintro (hu | hu)
              · rw [hreads l u v hu hv]
                exact .inr ⟨hno, hlast⟩
              · exact absurd hv (hu.1 v)
            · rintro (hu | hu)
              · exact absurd hu (hno u)
              · rw [lastOf_unique hreads' hu.2 hlast]
                exact .inl hv
      · have hno : ∀ w, ¬reads l w := fun w hw => hl ⟨w, hw⟩
        by_cases hl' : ∃ w, reads' l w
        · -- only the second reads it
          obtain ⟨w, hw⟩ := hl'
          have hswap : Settled reads reads' (ls ++ [l]) ↔ Settled reads' reads (ls ++ [l]) :=
            ⟨Settled.swap, Settled.swap⟩
          rw [hswap, settled_concat_iff hw]
          constructor
          · intro h u hu _
            have h' := (h u).2 (lastOf_concat.2 (.inl hu))
            rcases lastOf_concat.1 h' with hw | hw
            · exact absurd hw (hno u)
            · exact hw.2
          · intro h u
            have hlast := h w hw hno
            rw [lastOf_concat, lastOf_concat]
            constructor
            · rintro (hu | hu)
              · exact absurd hu (hno u)
              · rw [lastOf_unique hreads hu.2 hlast]
                exact .inl hw
            · rintro (hu | hu)
              · rw [hreads' l u w hu hw]
                exact .inr ⟨hno, hlast⟩
              · exact absurd hw (hu.1 w)
        · have hno' : ∀ w, ¬reads' l w := fun w hw => hl' ⟨w, hw⟩
          rw [settled_concat fun w => ⟨hno w, hno' w⟩, ← ih]
          refine forall_congr' fun u => ?_
          rw [lastOf_concat, lastOf_concat]
          simp [hno, hno']

end LastOf
end StringScan
