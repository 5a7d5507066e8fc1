/-
**Scanning an array: the first largest entry and the run around a position.**

Two small searches over positions.  The first looks for the largest entry of a stretch and takes the
first of several; the second walks outward from a position for as long as a property holds.  Each is
characterised by what it finds: the first largest position is unique, and the walk ends on the
largest interval around its start on which the property holds.

Main definitions:

* `ArrayScan.argmax`, `ArrayScan.slice` — the first largest entry, and a stretch of a list;
* `ArrayScan.FirstLargest` — a position that holds the first largest entry of a stretch;
* `ArrayScan.walkDown`, `ArrayScan.walkUp` — walking outward while a property holds;
* `ArrayScan.MaximalRun` — the largest interval around a position on which a property holds.

Main results:

* `ArrayScan.firstLargest_argmax`, `ArrayScan.FirstLargest.unique` — the search finds the position;
* `ArrayScan.maximalRun_walk` — **the two walks end on the maximal run**.
-/

import Mathlib

set_option relaxedAutoImplicit false
set_option autoImplicit false

namespace ArrayScan

/-! ### The first largest entry -/

section Largest

variable {K : Type} [LinearOrder K] {f : ℕ → K} {a b i j : ℕ}

/-- Position `i` holds the first largest entry among those from `a` up to `b`. -/
structure FirstLargest (f : ℕ → K) (a b i : ℕ) : Prop where
  low : a ≤ i
  high : i < b
  le : ∀ j, a ≤ j → j < b → f j ≤ f i
  lt : ∀ j, a ≤ j → j < i → f j < f i

/-- There is one first largest position. -/
theorem FirstLargest.unique (hi : FirstLargest f a b i) (hj : FirstLargest f a b j) : i = j := by
  rcases lt_trichotomy i j with h | h | h
  · exact absurd (hi.le j hj.low hj.high) (not_le.2 (hj.lt i hi.low h))
  · exact h
  · exact absurd (hj.le i hi.low hi.high) (not_le.2 (hi.lt j hj.low h))

/-- The position of the first largest entry of a list. -/
def argmax (xs : List K) : ℕ := xs.findIdx fun x => xs.all fun y => y ≤ x

/-- The entries from position `a` up to position `b`. -/
def slice {α : Type} (xs : List α) (a b : ℕ) : List α := (xs.drop a).take (b - a)

theorem length_slice {α : Type} (xs : List α) (a : ℕ) {b : ℕ} (h : b ≤ xs.length) :
    (slice xs a b).length = b - a := by
  rw [slice, List.length_take, List.length_drop]
  omega

theorem getD_slice {α : Type} (xs : List α) (a : ℕ) {b i : ℕ} (d : α) (h : i < b - a) :
    (slice xs a b).getD i d = xs.getD (a + i) d := by
  rw [slice, List.getD_eq_getElem?_getD, List.getElem?_take_of_lt h, List.getElem?_drop,
    ← List.getD_eq_getElem?_getD]

/-- A list with an entry has a largest one. -/
theorem exists_largest {xs : List K} (h : xs ≠ []) : ∃ x ∈ xs, ∀ y ∈ xs, y ≤ x := by
  obtain ⟨x, hx⟩ := List.exists_mem_of_ne_nil xs h
  obtain ⟨m, hm, hmax⟩ := xs.toFinset.exists_max_image id ⟨x, List.mem_toFinset.2 hx⟩
  exact ⟨m, List.mem_toFinset.1 hm, fun y hy => hmax y (List.mem_toFinset.2 hy)⟩

theorem argmax_lt {xs : List K} (h : xs ≠ []) : argmax xs < xs.length := by
  obtain ⟨x, hx, hmax⟩ := exists_largest h
  rw [argmax, List.findIdx_lt_length]
  exact ⟨x, hx, by simpa using hmax⟩

/-- The search over a whole list. -/
theorem firstLargest_argmax_self {xs : List K} (h : xs ≠ []) (d : K) :
    FirstLargest (fun i => xs.getD i d) 0 xs.length (argmax xs) := by
  have hlt := argmax_lt h
  have hmax : ∀ y ∈ xs, y ≤ xs[argmax xs] := by
    have hfound := List.findIdx_getElem (p := fun x => xs.all fun y => y ≤ x) (w := hlt)
    simp only [List.all_eq_true, decide_eq_true_eq] at hfound
    exact hfound
  refine ⟨Nat.zero_le _, hlt, fun j _ hj => ?_, fun j _ hj => ?_⟩
  · rw [List.getD_eq_getElem _ _ hj, List.getD_eq_getElem _ _ hlt]
    exact hmax _ (List.getElem_mem hj)
  · have hj' : j < xs.length := hj.trans hlt
    rw [List.getD_eq_getElem _ _ hj', List.getD_eq_getElem _ _ hlt]
    -- an entry that is not the largest is below one that is in the list
    have hnot := List.not_of_lt_findIdx hj
    simp only [List.all_eq_false, decide_eq_true_eq, not_le] at hnot
    obtain ⟨y, hy, hbelow⟩ := hnot
    exact hbelow.trans_le (hmax y hy)

/-- **The search over a stretch** finds its first largest entry. -/
theorem firstLargest_argmax {xs : List K} (hab : a < b) (hb : b ≤ xs.length) (d : K) :
    FirstLargest (fun i => xs.getD i d) a b (a + argmax (slice xs a b)) := by
  have hlen := length_slice xs a hb
  have hne : slice xs a b ≠ [] := by
    intro hnil
    rw [hnil] at hlen
    simp only [List.length_nil] at hlen
    omega
  have hself := firstLargest_argmax_self hne d
  have hlt : argmax (slice xs a b) < b - a := hlen ▸ hself.high
  have hat : ∀ k, k < b - a → (slice xs a b).getD k d = xs.getD (a + k) d :=
    fun k hk => getD_slice xs a d hk
  refine ⟨by omega, by omega, fun j haj hjb => ?_, fun j haj hj => ?_⟩
  · have hle := hself.le (j - a) (Nat.zero_le _) (by omega)
    simp only [hat _ hlt, hat (j - a) (by omega)] at hle
    rwa [Nat.add_sub_cancel' haj] at hle
  · have hbelow := hself.lt (j - a) (Nat.zero_le _) (by omega)
    simp only [hat _ hlt, hat (j - a) (by omega)] at hbelow
    rwa [Nat.add_sub_cancel' haj] at hbelow

end Largest

/-! ### Walking outward -/

section Walk

variable {p : ℕ → Prop} {n c l r : ℕ}

/-- The largest interval around position `c`, among the positions below `n`, on which `p` holds. -/
structure MaximalRun (p : ℕ → Prop) (n c l r : ℕ) : Prop where
  left : l ≤ c
  right : c ≤ r
  bound : r < n
  holds : ∀ j, l ≤ j → j ≤ r → p j
  largest : ∀ l' r', l' ≤ c → c ≤ r' → r' < n → (∀ j, l' ≤ j → j ≤ r' → p j) → l ≤ l' ∧ r' ≤ r

/-- An interval that cannot grow by one position is maximal. -/
theorem MaximalRun.of_stops (hl : l ≤ c) (hr : c ≤ r) (hn : r < n)
    (hp : ∀ j, l ≤ j → j ≤ r → p j) (hleft : 0 < l → ¬ p (l - 1)) (hright : r + 1 < n → ¬ p (r + 1)) :
    MaximalRun p n c l r := by
  refine ⟨hl, hr, hn, hp, fun l' r' hl' hr' hn' hp' => ⟨?_, ?_⟩⟩
  · by_contra hlt
    exact hleft (by omega) (hp' (l - 1) (by omega) (by omega))
  · by_contra hlt
    exact hright (by omega) (hp' (r + 1) (by omega) (by omega))

/-- Left of a maximal run the property fails. -/
theorem MaximalRun.not_left (h : MaximalRun p n c l r) (hl : 0 < l) : ¬ p (l - 1) := by
  intro hp
  have hgrown : ∀ j, l - 1 ≤ j → j ≤ r → p j := by
    intro j hj hjr
    rcases hj.eq_or_lt with rfl | hlt
    · exact hp
    · exact h.holds j (by omega) hjr
  have hle := (h.largest (l - 1) r (by have := h.left; omega) h.right h.bound hgrown).1
  omega

/-- Right of a maximal run the property fails. -/
theorem MaximalRun.not_right (h : MaximalRun p n c l r) (hr : r + 1 < n) : ¬ p (r + 1) := by
  intro hp
  have hgrown : ∀ j, l ≤ j → j ≤ r + 1 → p j := by
    intro j hj hjr
    rcases hjr.eq_or_lt with rfl | hlt
    · exact hp
    · exact h.holds j hj (by omega)
  have hle := (h.largest l (r + 1) h.left (by have := h.right; omega) hr hgrown).2
  omega

variable (p) [DecidablePred p]

/-- Walks down while the next position has the property. -/
def walkDown : ℕ → ℕ
  | 0 => 0
  | i + 1 => if p i then walkDown i else i + 1

/-- Walks up, below `n`, while the next position has the property. -/
def walkUp (n i : ℕ) : ℕ := if i + 1 < n ∧ p (i + 1) then walkUp n (i + 1) else i
termination_by n - i

variable {p}

theorem walkDown_le (i : ℕ) : walkDown p i ≤ i := by
  induction i with
  | zero => exact le_rfl
  | succ i ih =>
    unfold walkDown
    split
    · exact ih.trans (Nat.le_succ i)
    · exact le_rfl

theorem walkDown_holds {i j : ℕ} (hj : walkDown p i ≤ j) (hi : j < i) : p j := by
  induction i with
  | zero => exact absurd hi (Nat.not_lt_zero j)
  | succ i ih =>
    unfold walkDown at hj
    split at hj
    case isTrue hp =>
      rcases (Nat.lt_succ_iff.1 hi).eq_or_lt with rfl | hlt
      · exact hp
      · exact ih hj hlt
    case isFalse => exact absurd hi (not_lt.2 hj)

theorem walkDown_stops {i : ℕ} (h : 0 < walkDown p i) : ¬ p (walkDown p i - 1) := by
  induction i with
  | zero => exact absurd h (Nat.lt_irrefl 0)
  | succ i ih =>
    unfold walkDown at h ⊢
    split
    case isTrue hp =>
      rw [if_pos hp] at h
      exact ih h
    case isFalse hp => exact hp

theorem le_walkUp (n i : ℕ) : i ≤ walkUp p n i := by
  induction i using walkUp.induct (p := p) (n := n) with
  | case1 i hp ih =>
    rw [walkUp, if_pos hp]
    exact (Nat.le_succ i).trans ih
  | case2 i hp =>
    rw [walkUp, if_neg hp]

theorem walkUp_lt {n i : ℕ} (h : i < n) : walkUp p n i < n := by
  induction i using walkUp.induct (p := p) (n := n) with
  | case1 i hp ih =>
    rw [walkUp, if_pos hp]
    exact ih hp.1
  | case2 i hp =>
    rw [walkUp, if_neg hp]
    exact h

theorem walkUp_holds {n i j : ℕ} (hi : i < j) (hj : j ≤ walkUp p n i) : p j := by
  induction i using walkUp.induct (p := p) (n := n) with
  | case1 i hp ih =>
    rw [walkUp, if_pos hp] at hj
    rcases (Nat.succ_le_of_lt hi).eq_or_lt with rfl | hlt
    · exact hp.2
    · exact ih hlt hj
  | case2 i hp =>
    rw [walkUp, if_neg hp] at hj
    exact absurd hi (not_lt.2 hj)

theorem walkUp_stops {n i : ℕ} (h : walkUp p n i + 1 < n) : ¬ p (walkUp p n i + 1) := by
  induction i using walkUp.induct (p := p) (n := n) with
  | case1 i hp ih =>
    rw [walkUp, if_pos hp] at h ⊢
    exact ih h
  | case2 i hp =>
    rw [walkUp, if_neg hp] at h ⊢
    exact fun hnext => hp ⟨h, hnext⟩

/-- **The two walks** from a position with the property end on the maximal run around it. -/
theorem maximalRun_walk (hc : c < n) (hp : p c) : MaximalRun p n c (walkDown p c) (walkUp p n c) := by
  refine .of_stops (walkDown_le c) (le_walkUp n c) (walkUp_lt hc) (fun j hl hr => ?_)
    walkDown_stops walkUp_stops
  rcases lt_trichotomy j c with h | rfl | h
  · exact walkDown_holds hl h
  · exact hp
  · exact walkUp_holds h hr

end Walk

end ArrayScan
