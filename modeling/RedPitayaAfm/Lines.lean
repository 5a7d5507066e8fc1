/-
**Terminated lines of a stream.**

Every link of this system is line based: TCP commands, UART commands and their replies are cut at
a terminator, and the bytes arrive in chunks that have nothing to do with the lines.  This module
is the general theory of that: the complete lines of a stream, the unterminated rest, and how both
grow when more of the stream arrives.  It is stated for an arbitrary type of symbols with an
arbitrary terminator predicate, so that it applies to plain bytes and to bytes that carry a tag.

Main definitions:

* `Lines.lines`, `Lines.rest` — the complete lines of a stream, without their terminators, and the
  symbols after the last terminator;
* `Lines.cut` — the first complete line and what follows it, if there is one.

Main results:

* `Lines.lines_append`, `Lines.rest_append` — **the lines do not depend on how the stream was cut
  into chunks**: only the rest has to be kept between two chunks;
* `Lines.lines_of_cut`, `Lines.cut_eq_none_iff` — taking lines off the front one at a time yields
  exactly the lines;
* `Lines.lines_map` — relabelling the symbols relabels the lines.
-/

import Mathlib

set_option relaxedAutoImplicit false
set_option autoImplicit false

namespace Lines

variable {α β : Type} (nl : α → Bool)

/-! ### Lines and rest -/

/-- The complete lines of a stream and the symbols after the last terminator. -/
def split : List α → List (List α) × List α
  | [] => ([], [])
  | x :: xs =>
      if nl x then ([] :: (split xs).1, (split xs).2)
      else match (split xs).1 with
        | [] => ([], x :: (split xs).2)
        | l :: ls => ((x :: l) :: ls, (split xs).2)

/-- The complete lines of a stream, without their terminators. -/
def lines (xs : List α) : List (List α) := (split nl xs).1

/-- The symbols after the last terminator. -/
def rest (xs : List α) : List α := (split nl xs).2

@[simp] theorem lines_nil : lines nl ([] : List α) = [] := rfl

@[simp] theorem rest_nil : rest nl ([] : List α) = [] := rfl

theorem lines_cons_nl {x : α} (h : nl x = true) (xs : List α) :
    lines nl (x :: xs) = [] :: lines nl xs := by
  simp [lines, split, h]

theorem rest_cons_nl {x : α} (h : nl x = true) (xs : List α) :
    rest nl (x :: xs) = rest nl xs := by
  simp [rest, split, h]

theorem lines_cons {x : α} (h : nl x = false) (xs : List α) :
    lines nl (x :: xs) = match lines nl xs with
      | [] => []
      | l :: ls => (x :: l) :: ls := by
  simp only [lines, split, h, Bool.false_eq_true, if_false]
  cases (split nl xs).1 <;> rfl

theorem rest_cons {x : α} (h : nl x = false) (xs : List α) :
    rest nl (x :: xs) = match lines nl xs with
      | [] => x :: rest nl xs
      | _ :: _ => rest nl xs := by
  simp only [rest, lines, split, h, Bool.false_eq_true, if_false]
  cases (split nl xs).1 <;> rfl

/-- A stream without a terminator has no complete line. -/
theorem lines_eq_nil_iff {xs : List α} : lines nl xs = [] ↔ ∀ x ∈ xs, nl x = false := by
  induction xs with
  | nil => simp
  | cons x xs ih =>
      cases h : nl x with
      | true => simp [lines_cons_nl nl h, h]
      | false =>
          rw [lines_cons nl h]
          simp only [List.mem_cons, forall_eq_or_imp, h, true_and, ← ih]
          cases lines nl xs <;> simp

theorem lines_of_no_nl {xs : List α} (h : ∀ x ∈ xs, nl x = false) : lines nl xs = [] :=
  (lines_eq_nil_iff nl).2 h

theorem rest_of_no_nl {xs : List α} (h : ∀ x ∈ xs, nl x = false) : rest nl xs = xs := by
  induction xs with
  | nil => rfl
  | cons x xs ih =>
      have hx : nl x = false := h x (by simp)
      have hxs : ∀ y ∈ xs, nl y = false := fun y hy => h y (by simp [hy])
      rw [rest_cons nl hx, lines_of_no_nl nl hxs, ih hxs]

/-- The rest has no terminator. -/
theorem rest_no_nl (xs : List α) : ∀ x ∈ rest nl xs, nl x = false := by
  induction xs with
  | nil => simp
  | cons x xs ih =>
      cases h : nl x with
      | true => rwa [rest_cons_nl nl h]
      | false =>
          rw [rest_cons nl h]
          cases lines nl xs with
          | nil => simpa [h] using ih
          | cons l ls => exact ih

/-- No line contains a terminator. -/
theorem lines_no_nl (xs : List α) : ∀ l ∈ lines nl xs, ∀ x ∈ l, nl x = false := by
  induction xs with
  | nil => simp
  | cons x xs ih =>
      cases h : nl x with
      | true => simpa [lines_cons_nl nl h] using ih
      | false =>
          rw [lines_cons nl h]
          cases hl : lines nl xs with
          | nil => simp
          | cons l ls =>
              rw [hl] at ih
              simpa [h] using ih

@[simp] theorem lines_rest (xs : List α) : lines nl (rest nl xs) = [] :=
  lines_of_no_nl nl (rest_no_nl nl xs)

@[simp] theorem rest_rest (xs : List α) : rest nl (rest nl xs) = rest nl xs :=
  rest_of_no_nl nl (rest_no_nl nl xs)

private theorem split_append (xs ys : List α) :
    lines nl (xs ++ ys) = lines nl xs ++ lines nl (rest nl xs ++ ys) ∧
      rest nl (xs ++ ys) = rest nl (rest nl xs ++ ys) := by
  induction xs with
  | nil => simp
  | cons x xs ih =>
      obtain ⟨ihl, ihr⟩ := ih
      cases h : nl x with
      | true =>
          simp only [List.cons_append, lines_cons_nl nl h, rest_cons_nl nl h, ihl, ihr, and_self]
      | false =>
          rw [List.cons_append, lines_cons nl h, rest_cons nl h, lines_cons nl h, rest_cons nl h]
          cases hl : lines nl xs with
          | nil =>
              rw [hl, List.nil_append] at ihl
              simp only [List.nil_append, List.cons_append, lines_cons nl h, rest_cons nl h,
                ← ihl, ← ihr, and_self]
          | cons l ls =>
              rw [hl] at ihl
              rw [ihl, ihr]
              simp

/-- **The lines do not depend on the chunks**: when more of the stream arrives, the new lines are
those of the kept rest followed by what arrived. -/
theorem lines_append (xs ys : List α) :
    lines nl (xs ++ ys) = lines nl xs ++ lines nl (rest nl xs ++ ys) :=
  (split_append nl xs ys).1

theorem rest_append (xs ys : List α) : rest nl (xs ++ ys) = rest nl (rest nl xs ++ ys) :=
  (split_append nl xs ys).2

/-- A terminated line in front of a stream. -/
theorem lines_line_append {l : List α} (hl : ∀ x ∈ l, nl x = false) {t : α} (ht : nl t = true)
    (ys : List α) : lines nl (l ++ t :: ys) = l :: lines nl ys := by
  induction l with
  | nil => exact lines_cons_nl nl ht ys
  | cons x l ih =>
      have hx : nl x = false := hl x (by simp)
      rw [List.cons_append, lines_cons nl hx, ih fun y hy => hl y (by simp [hy])]

theorem rest_line_append {l : List α} (hl : ∀ x ∈ l, nl x = false) {t : α} (ht : nl t = true)
    (ys : List α) : rest nl (l ++ t :: ys) = rest nl ys := by
  induction l with
  | nil => exact rest_cons_nl nl ht ys
  | cons x l ih =>
      have hl' : ∀ y ∈ l, nl y = false := fun y hy => hl y (by simp [hy])
      rw [List.cons_append, rest_cons nl (hl x (by simp)), lines_line_append nl hl' ht, ih hl']

/-- The rest is never longer than what arrived after the last terminator. -/
theorem length_rest_append_le {xs ys : List α} (h : lines nl (xs ++ ys) ≠ lines nl xs) :
    (rest nl (xs ++ ys)).length < ys.length := by
  rw [lines_append] at h
  rw [rest_append]
  -- a line that is new ends in what arrived
  have hex : ∃ y ∈ ys, nl y = true := by
    by_contra hno
    push Not at hno
    have hnone : ∀ x ∈ rest nl xs ++ ys, nl x = false := by
      intro x hx
      rcases List.mem_append.1 hx with hx | hx
      · exact rest_no_nl nl xs x hx
      · simpa using hno x hx
    rw [lines_of_no_nl nl hnone, List.append_nil] at h
    exact h rfl
  clear h
  generalize rest nl xs = r
  obtain ⟨y, hy, hny⟩ := hex
  obtain ⟨a, b, rfl⟩ := List.append_of_mem hy
  have hsplit : r ++ (a ++ y :: b) = (r ++ a ++ [y]) ++ b := by simp
  rw [hsplit, rest_append]
  have hr : rest nl (r ++ a ++ [y]) = [] := by
    rw [rest_append nl (r ++ a) [y], rest_line_append nl (rest_no_nl nl _) hny]
    rfl
  rw [hr, List.nil_append]
  have hle : ∀ zs : List α, (rest nl zs).length ≤ zs.length := by
    intro zs
    induction zs with
    | nil => simp
    | cons z zs ih =>
        cases hz : nl z with
        | true => rw [rest_cons_nl nl hz]; simp; omega
        | false =>
            rw [rest_cons nl hz]
            cases lines nl zs <;> simp <;> omega
  have := hle b
  simp
  omega

/-! ### Taking lines off the front -/

/-- The first complete line and what follows it. -/
def cut : List α → Option (List α × List α)
  | [] => none
  | x :: xs => if nl x then some ([], xs) else (cut xs).map fun p => (x :: p.1, p.2)

@[simp] theorem cut_nil : cut nl ([] : List α) = none := rfl

theorem cut_cons_nl {x : α} (h : nl x = true) (xs : List α) :
    cut nl (x :: xs) = some ([], xs) := by
  simp [cut, h]

theorem cut_cons {x : α} (h : nl x = false) (xs : List α) :
    cut nl (x :: xs) = (cut nl xs).map fun p => (x :: p.1, p.2) := by
  simp [cut, h]

theorem cut_eq_none_iff {xs : List α} : cut nl xs = none ↔ lines nl xs = [] := by
  induction xs with
  | nil => simp
  | cons x xs ih =>
      cases h : nl x with
      | true => simp [cut_cons_nl nl h, lines_cons_nl nl h]
      | false =>
          rw [cut_cons nl h, lines_cons nl h, Option.map_eq_none_iff, ih]
          cases lines nl xs <;> simp

/-- **Cutting yields the first line** and leaves the other lines and the rest. -/
theorem lines_of_cut {xs l ys : List α} (h : cut nl xs = some (l, ys)) :
    lines nl xs = l :: lines nl ys ∧ rest nl xs = rest nl ys := by
  induction xs generalizing l with
  | nil => simp at h
  | cons x xs ih =>
      cases hx : nl x with
      | true =>
          rw [cut_cons_nl nl hx] at h
          cases h
          exact ⟨lines_cons_nl nl hx _, rest_cons_nl nl hx _⟩
      | false =>
          rw [cut_cons nl hx] at h
          obtain ⟨⟨l', ys'⟩, hc, he⟩ := Option.map_eq_some_iff.1 h
          cases he
          obtain ⟨hl, hr⟩ := ih hc
          exact ⟨by rw [lines_cons nl hx, hl], by rw [rest_cons nl hx, hl, hr]⟩

/-- A stream with a complete line can be cut there. -/
theorem exists_cut {xs l : List α} {ls : List (List α)} (h : lines nl xs = l :: ls) :
    ∃ ys, cut nl xs = some (l, ys) ∧ lines nl ys = ls ∧ rest nl xs = rest nl ys := by
  cases hc : cut nl xs with
  | none => rw [(cut_eq_none_iff nl).1 hc] at h; cases h
  | some p =>
      obtain ⟨l', ys⟩ := p
      obtain ⟨hl, hr⟩ := lines_of_cut nl hc
      rw [hl] at h
      cases h
      exact ⟨ys, rfl, rfl, hr⟩

/-- The cut stream is the line, its terminator and what follows. -/
theorem eq_append_of_cut {xs l ys : List α} (h : cut nl xs = some (l, ys)) :
    ∃ t, nl t = true ∧ xs = l ++ t :: ys := by
  induction xs generalizing l with
  | nil => simp at h
  | cons x xs ih =>
      cases hx : nl x with
      | true =>
          rw [cut_cons_nl nl hx] at h
          cases h
          exact ⟨x, hx, rfl⟩
      | false =>
          rw [cut_cons nl hx] at h
          obtain ⟨⟨l', ys'⟩, hc, he⟩ := Option.map_eq_some_iff.1 h
          cases he
          obtain ⟨t, ht, rfl⟩ := ih hc
          exact ⟨t, ht, rfl⟩

theorem cut_line_append {l : List α} (hl : ∀ x ∈ l, nl x = false) {t : α} (ht : nl t = true)
    (ys : List α) : cut nl (l ++ t :: ys) = some (l, ys) := by
  induction l with
  | nil => exact cut_cons_nl nl ht ys
  | cons x l ih =>
      rw [List.cons_append, cut_cons nl (hl x (by simp)), ih fun y hy => hl y (by simp [hy])]
      rfl

/-- More of the stream does not change the first line. -/
theorem cut_append {xs l zs : List α} (h : cut nl xs = some (l, zs)) (ys : List α) :
    cut nl (xs ++ ys) = some (l, zs ++ ys) := by
  induction xs generalizing l with
  | nil => simp at h
  | cons x xs ih =>
      cases hx : nl x with
      | true =>
          rw [cut_cons_nl nl hx] at h
          cases h
          exact cut_cons_nl nl hx _
      | false =>
          rw [cut_cons nl hx] at h
          obtain ⟨⟨l', zs'⟩, hc, he⟩ := Option.map_eq_some_iff.1 h
          cases he
          rw [List.cons_append, cut_cons nl hx, ih hc]
          rfl

/-- What arrived without a terminator is no longer than the first line. -/
theorem length_le_of_cut_append {xs ys l zs : List α} (hn : cut nl xs = none)
    (h : cut nl (xs ++ ys) = some (l, zs)) : xs.length ≤ l.length := by
  have hxs : ∀ x ∈ xs, nl x = false := (lines_eq_nil_iff nl).1 ((cut_eq_none_iff nl).1 hn)
  clear hn
  induction xs generalizing l with
  | nil => simp
  | cons x xs ih =>
      rw [List.cons_append, cut_cons nl (hxs x (by simp))] at h
      obtain ⟨⟨l', zs'⟩, hc, he⟩ := Option.map_eq_some_iff.1 h
      cases he
      have := ih hc fun y hy => hxs y (by simp [hy])
      simpa using this

/-- The lines of a suffix are not longer than those of the stream. -/
theorem length_le_of_suffix {xs ys : List α} (h : xs <:+ ys) {l : List α} (hl : l ∈ lines nl xs) :
    ∃ l' ∈ lines nl ys, l.length ≤ l'.length := by
  obtain ⟨zs, rfl⟩ := h
  induction zs with
  | nil => exact ⟨l, hl, le_rfl⟩
  | cons z zs ih =>
      obtain ⟨l', hl', hle⟩ := ih
      rw [List.cons_append]
      cases hz : nl z with
      | true => exact ⟨l', by simp [lines_cons_nl nl hz, hl'], hle⟩
      | false =>
          rw [lines_cons nl hz]
          cases hc : lines nl (zs ++ xs) with
          | nil => simp [hc] at hl'
          | cons m ms =>
              rw [hc] at hl'
              rcases List.mem_cons.1 hl' with rfl | hm
              · exact ⟨z :: l', by simp, by simp; omega⟩
              · exact ⟨l', by simp [hm], hle⟩

/-- What has arrived of an unfinished line is a prefix of that line: of a line the stream
completes later, or of its rest. -/
theorem rest_prefix (xs ys : List α) :
    (∃ l ∈ lines nl (xs ++ ys), rest nl xs <+: l) ∨ rest nl xs <+: rest nl (xs ++ ys) := by
  rw [lines_append, rest_append]
  cases hl : lines nl (rest nl xs ++ ys) with
  | nil =>
      right
      rw [rest_of_no_nl nl ((lines_eq_nil_iff nl).1 hl)]
      exact List.prefix_append _ _
  | cons l ls =>
      left
      refine ⟨l, by simp, ?_⟩
      obtain ⟨zs, hc, -, -⟩ := exists_cut nl hl
      obtain ⟨t, ht, heq⟩ := eq_append_of_cut nl hc
      have hlen : (rest nl xs).length ≤ l.length := by
        by_contra hlt
        have hmem : t ∈ rest nl xs := by
          have hget : (rest nl xs)[l.length]? = some t := by
            have := congrArg (·[l.length]?) heq
            simpa [List.getElem?_append_left (show l.length < (rest nl xs).length by omega)]
              using this
          exact List.mem_of_getElem? hget
        rw [rest_no_nl nl xs t hmem] at ht
        cases ht
      exact List.prefix_of_prefix_length_le (List.prefix_append _ ys)
        (heq ▸ List.prefix_append l (t :: zs)) hlen

/-! ### Relabelled symbols -/

private theorem split_map (f : β → α) (xs : List β) :
    lines nl (xs.map f) = (lines (nl ∘ f) xs).map (List.map f) ∧
      rest nl (xs.map f) = (rest (nl ∘ f) xs).map f := by
  induction xs with
  | nil => simp
  | cons x xs ih =>
      obtain ⟨ihl, ihr⟩ := ih
      cases h : nl (f x) with
      | true =>
          have h' : (nl ∘ f) x = true := h
          simp [lines_cons_nl nl h, rest_cons_nl nl h, lines_cons_nl _ h', rest_cons_nl _ h', ihl,
            ihr]
      | false =>
          have h' : (nl ∘ f) x = false := h
          rw [List.map_cons, lines_cons nl h, rest_cons nl h, lines_cons _ h', rest_cons _ h', ihl,
            ihr]
          cases lines (nl ∘ f) xs <;> simp

theorem lines_map (f : β → α) (xs : List β) :
    lines nl (xs.map f) = (lines (nl ∘ f) xs).map (List.map f) :=
  (split_map nl f xs).1

/-- The symbols of a line are symbols of the stream. -/
theorem mem_of_mem_lines {xs l : List α} (hl : l ∈ lines nl xs) {x : α} (hx : x ∈ l) : x ∈ xs := by
  induction xs generalizing l with
  | nil => cases hl
  | cons y ys ih =>
      cases h : nl y with
      | true =>
          rw [lines_cons_nl nl h] at hl
          rcases List.mem_cons.1 hl with rfl | hl
          · cases hx
          · exact List.mem_cons_of_mem _ (ih hl hx)
      | false =>
          rw [lines_cons nl h] at hl
          cases hls : lines nl ys with
          | nil =>
              rw [hls] at hl
              cases hl
          | cons m ms =>
              rw [hls] at hl ih
              rcases List.mem_cons.1 hl with rfl | hl
              · rcases List.mem_cons.1 hx with rfl | hx
                · exact List.mem_cons_self
                · exact List.mem_cons_of_mem _ (ih List.mem_cons_self hx)
              · exact List.mem_cons_of_mem _ (ih (List.mem_cons_of_mem _ hl) hx)

/-- After an unfinished line, all lines but the first come from what follows. -/
theorem mem_of_mem_lines_append {xs ys l : List α} {ls : List (List α)}
    (hxs : ∀ x ∈ xs, nl x = false) (h : lines nl (xs ++ ys) = l :: ls) {m : List α} (hm : m ∈ ls)
    {x : α} (hx : x ∈ m) : x ∈ ys := by
  obtain ⟨zs, hcut, hls, -⟩ := exists_cut nl h
  have hnone : cut nl xs = none := (cut_eq_none_iff nl).2 (lines_of_no_nl nl hxs)
  have hlen := length_le_of_cut_append nl hnone hcut
  obtain ⟨t, -, heq⟩ := eq_append_of_cut nl hcut
  have hmem : x ∈ zs := mem_of_mem_lines nl (hls ▸ hm) hx
  have hzs : zs = ys.drop (l.length + 1 - xs.length) := by
    have hdrop : (xs ++ ys).drop (l.length + 1) = zs := by
      rw [heq, ← List.singleton_append, ← List.append_assoc]
      exact List.drop_left' (by simp)
    rw [← hdrop, List.drop_append, List.drop_eq_nil_of_le (by omega), List.nil_append]
  rw [hzs] at hmem
  exact List.mem_of_mem_drop hmem

end Lines
