/-
**Strings in C memory.**

A C string is a stretch of memory up to the first zero byte.  The memory here is an array of cells;
a cell that was never written has no value, and reading it, or reading or writing outside the array,
is a fault.  The functions of the string library are given on that memory, so that a run without
faults is a run in which every byte looked at was written before, inside the array.

Main definitions:

* `CString.Memory`, `CString.load`, `CString.store` — cells, and access to them;
* `CString.agrees`, `CString.strlen`, `CString.copyWith` — comparison with a literal, length, and
  the loop that copies a string;
* `CString.Extends` — more cells are written;
* `CString.Holds` — a stretch of memory holds a text.

Main results:

* `CString.agrees_extends`, `CString.copyWith_extends` — what a string function returns without a
  fault does not depend on the cells that were never written;
* `CString.agrees_line`, `CString.strcmp_line`, `CString.strlen_line`, `CString.copyWith_line` —
  what it returns on a stretch that holds a string.
-/

import Mathlib

set_option relaxedAutoImplicit false
set_option autoImplicit false

namespace CString

/-- The zero byte. -/
def nul : Char := Char.ofNat 0

/-- What can go wrong with an access. -/
inductive AccessFault
  | outOfBounds
  | uninitialised
  deriving DecidableEq

/-- Cells; one that was never written has no value. -/
abbrev Memory := ℕ → Option Char

/-- Every cell has been written. -/
def Memory.filled (f : ℕ → Char) : Memory := fun i => some (f i)

/-- No cell has been written. -/
def Memory.fresh : Memory := fun _ => none

/-- Read a cell of an array of `n`. -/
def load (n : ℕ) (m : Memory) (i : ℕ) : Except AccessFault Char :=
  if i < n then
    match m i with
    | some c => .ok c
    | none => .error .uninitialised
  else .error .outOfBounds

/-- Write a cell of an array of `n`. -/
def store (n : ℕ) (m : Memory) (i : ℕ) (c : Char) : Except AccessFault Memory :=
  if i < n then .ok (Function.update m i (some c)) else .error .outOfBounds

/-- The string from cell `i` on agrees with a literal: `strncmp` with the length of the literal, and
`strcmp` when the literal is given with its zero byte. -/
def agrees (n : ℕ) (m : Memory) : ℕ → List Char → Except AccessFault Bool
  | _, [] => .ok true
  | i, c :: lit => do
      let d ← load n m i
      if d = c then agrees n m (i + 1) lit else .ok false

/-- `strncmp(s, lit, |lit|) == 0` -/
def startsWith (n : ℕ) (m : Memory) (lit : List Char) : Except AccessFault Bool := agrees n m 0 lit

/-- `strcmp(s, lit) == 0` -/
def equals (n : ℕ) (m : Memory) (lit : List Char) : Except AccessFault Bool := agrees n m 0 (lit ++ [nul])

/-- `strlen`, of the string from cell `i` on; `fuel` is the number of cells it may look at. -/
def strlen (n : ℕ) (m : Memory) : ℕ → ℕ → Except AccessFault ℕ
  | 0, _ => .error .outOfBounds
  | fuel + 1, i => do
      let c ← load n m i
      if c = nul then .ok 0 else do
        let len ← strlen n m fuel (i + 1)
        .ok (len + 1)

/-- Copy a string from cell `i` on, at most `fuel` bytes, without its zero byte. -/
def copyWith (f : Char → Char) (n : ℕ) (src : Memory) : ℕ → ℕ → Memory → Except AccessFault Memory
  | 0, _, dst => .ok dst
  | fuel + 1, i, dst => do
      let c ← load n src i
      if c = nul then .ok dst else do
        let dst ← store n dst i (f c)
        copyWith f n src fuel (i + 1) dst

/-! ### Cells that were never written -/

/-- The first memory with more cells written. -/
def Extends (m m' : Memory) : Prop := ∀ i c, m i = some c → m' i = some c

theorem fresh_extends (m : Memory) : Extends .fresh m := by
  intro i c h
  cases h

theorem Extends.update {m m' : Memory} (h : Extends m m') (i : ℕ) (c : Char) :
    Extends (Function.update m i (some c)) (Function.update m' i (some c)) := by
  intro j d hd
  by_cases hj : j = i
  · subst hj
    rw [Function.update_self] at hd ⊢
    exact hd
  · rw [Function.update_of_ne hj] at hd ⊢
    exact h j d hd

theorem load_ok {n : ℕ} {m : Memory} {i : ℕ} {c : Char} (hi : i < n) (h : m i = some c) :
    load n m i = .ok c := by
  rw [load, if_pos hi, h]

theorem load_ok_iff {n : ℕ} {m : Memory} {i : ℕ} {c : Char} :
    load n m i = .ok c ↔ i < n ∧ m i = some c := by
  constructor
  · intro h
    unfold load at h
    split at h
    · rename_i hi
      cases hm : m i with
      | none => rw [hm] at h; cases h
      | some d => rw [hm] at h; cases h; exact ⟨hi, rfl⟩
    · cases h
  · rintro ⟨hi, h⟩
    exact load_ok hi h

theorem load_extends {n : ℕ} {m m' : Memory} (h : Extends m m') {i : ℕ} {c : Char}
    (hload : load n m i = .ok c) : load n m' i = .ok c := by
  obtain ⟨hi, hm⟩ := load_ok_iff.1 hload
  exact load_ok hi (h i c hm)

theorem store_ok {n : ℕ} (m : Memory) {i : ℕ} (hi : i < n) (c : Char) :
    store n m i c = .ok (Function.update m i (some c)) := if_pos hi

theorem agrees_cons {n : ℕ} {m : Memory} {i : ℕ} {d : Char} (hload : load n m i = .ok d) (c : Char)
    (lit : List Char) :
    agrees n m i (c :: lit) = if d = c then agrees n m (i + 1) lit else .ok false := by
  rw [agrees, hload]
  rfl

theorem strlen_succ {n : ℕ} {m : Memory} {i : ℕ} {c : Char} (hload : load n m i = .ok c)
    (fuel : ℕ) :
    strlen n m (fuel + 1) i =
      if c = nul then .ok 0 else (strlen n m fuel (i + 1)).map (· + 1) := by
  rw [strlen, hload]
  rfl

theorem copyWith_succ (f : Char → Char) {n : ℕ} {m : Memory} {i : ℕ} {c : Char}
    (hload : load n m i = .ok c) (fuel : ℕ) (dst : Memory) :
    copyWith f n m (fuel + 1) i dst =
      if c = nul then .ok dst
      else copyWith f n m fuel (i + 1) (Function.update dst i (some (f c))) := by
  rw [copyWith, hload]
  show (if c = nul then _ else _) = _
  rw [store_ok dst (load_ok_iff.1 hload).1]
  rfl

/-- What a computation returns is what its parts return. -/
theorem bind_ok {α β : Type} {x : Except AccessFault α} {f : α → Except AccessFault β} {b : β}
    (h : (x >>= f) = .ok b) : ∃ a, x = .ok a ∧ f a = .ok b := by
  cases x with
  | error e => cases h
  | ok a => exact ⟨a, rfl, h⟩

theorem agrees_extends {n : ℕ} {m m' : Memory} (h : Extends m m') {lit : List Char} :
    ∀ {i : ℕ} {b : Bool}, agrees n m i lit = .ok b → agrees n m' i lit = .ok b := by
  induction lit with
  | nil =>
      intro i b hrun
      exact hrun
  | cons c lit ih =>
      intro i b hrun
      obtain ⟨d, hd, hrest⟩ := bind_ok hrun
      rw [agrees_cons (load_extends h hd)]
      split at hrest
      next hdc => rw [if_pos hdc]; exact ih hrest
      next hdc => rw [if_neg hdc]; exact hrest

/-- Copying into a memory with more cells written gives a memory with more cells written. -/
theorem copyWith_extends {f : Char → Char} {n : ℕ} {src : Memory} :
    ∀ {fuel i : ℕ} {dst dst' m : Memory}, Extends dst dst' → copyWith f n src fuel i dst = .ok m →
      ∃ m', copyWith f n src fuel i dst' = .ok m' ∧ Extends m m' := by
  intro fuel
  induction fuel with
  | zero =>
      intro i dst dst' m h hrun
      cases hrun
      exact ⟨dst', rfl, h⟩
  | succ fuel ih =>
      intro i dst dst' m h hrun
      obtain ⟨c, hc, hrest⟩ := bind_ok hrun
      rw [copyWith_succ f hc]
      split at hrest
      next hnul =>
        rw [if_pos hnul]
        cases hrest
        exact ⟨dst', rfl, h⟩
      next hnul =>
        obtain ⟨stored, hstore, hcopy⟩ := bind_ok hrest
        rw [store_ok dst (load_ok_iff.1 hc).1] at hstore
        cases hstore
        rw [if_neg hnul]
        exact ih (h.update i (f c)) hcopy

/-! ### Stretches of memory -/

/-- The cells from `i` on hold a text. -/
def Holds (m : Memory) : ℕ → List Char → Prop
  | _, [] => True
  | i, c :: s => m i = some c ∧ Holds m (i + 1) s

theorem holds_append {m : Memory} {s t : List Char} {i : ℕ} :
    Holds m i (s ++ t) ↔ Holds m i s ∧ Holds m (i + s.length) t := by
  induction s generalizing i with
  | nil => simp [Holds]
  | cons c s ih =>
      have hindex : i + 1 + s.length = i + (s.length + 1) := by omega
      rw [List.cons_append, Holds, Holds, ih, List.length_cons, hindex, and_assoc]

theorem Holds.congr {m m' : Memory} {s : List Char} {i : ℕ} (h : Holds m i s)
    (hsame : ∀ j, i ≤ j → j < i + s.length → m' j = m j) : Holds m' i s := by
  induction s generalizing i with
  | nil => trivial
  | cons c s ih =>
      refine ⟨?_, ih h.2 fun j hj hlt => hsame j (by omega) (by rw [List.length_cons]; omega)⟩
      rw [hsame i le_rfl (by rw [List.length_cons]; omega)]
      exact h.1

/-- The memory with a text written from cell `i` on. -/
def put (m : Memory) : ℕ → List Char → Memory
  | _, [] => m
  | i, c :: s => put (Function.update m i (some c)) (i + 1) s

theorem put_outside (s : List Char) {m : Memory} {i j : ℕ} (h : j < i ∨ i + s.length ≤ j) :
    put m i s j = m j := by
  induction s generalizing m i with
  | nil => rfl
  | cons c s ih =>
      rw [List.length_cons] at h
      have hne : j ≠ i := by omega
      rw [put, ih (by omega), Function.update_of_ne hne]

theorem holds_put (m : Memory) (i : ℕ) (s : List Char) : Holds (put m i s) i s := by
  induction s generalizing m i with
  | nil => trivial
  | cons c s ih =>
      refine ⟨?_, ih _ _⟩
      rw [put, put_outside s (by omega), Function.update_self]

/-! ### What the functions return on a stretch that holds a string -/

variable {n : ℕ} {m : Memory}

/-- Comparing a string with a literal: the string starts with it. -/
theorem agrees_line {lit : List Char} (hlit : nul ∉ lit) :
    ∀ {i : ℕ} {line : List Char}, Holds m i (line ++ [nul]) → i + line.length < n →
      agrees n m i lit = .ok (lit.isPrefixOf line) := by
  induction lit with
  | nil =>
      intro i line _ _
      rw [List.isPrefixOf_nil_left]
      rfl
  | cons c lit ih =>
      intro i line hm hi
      cases line with
      | nil =>
          have hne : nul ≠ c := fun h => hlit (h ▸ List.mem_cons_self ..)
          rw [agrees_cons (load_ok (by omega) hm.1), if_neg hne]
          rfl
      | cons d line =>
          rw [List.length_cons] at hi
          rw [agrees_cons (load_ok (by omega) hm.1)]
          by_cases hdc : d = c
          · rw [if_pos hdc, ih (fun h => hlit (List.mem_cons_of_mem _ h)) hm.2 (by omega), hdc,
              List.isPrefixOf_cons_cons_self]
          · have hcd : ¬((c == d) = true) := by simpa using Ne.symm hdc
            simp [hdc, List.isPrefixOf, Ne.symm hdc]

/-- Comparing a string with a literal and its zero byte: they are the same. -/
theorem strcmp_line {lit : List Char} (hlit : nul ∉ lit) :
    ∀ {i : ℕ} {line : List Char}, nul ∉ line → Holds m i (line ++ [nul]) → i + line.length < n →
      agrees n m i (lit ++ [nul]) = .ok (decide (line = lit)) := by
  -- the zero byte ends whichever of the two is shorter
  induction lit with
  | nil =>
      intro i line hline hm hi
      cases line with
      | nil =>
          rw [List.nil_append, agrees_cons (load_ok (by simpa using hi) hm.1)]
          rfl
      | cons d line =>
          have hne : d ≠ nul := fun h => hline (h ▸ List.mem_cons_self ..)
          rw [List.length_cons] at hi
          rw [List.nil_append, agrees_cons (load_ok (by omega) hm.1)]
          simp [hne]
  | cons c lit ih =>
      intro i line hline hm hi
      have hc : nul ≠ c := fun h => hlit (h ▸ List.mem_cons_self ..)
      cases line with
      | nil =>
          rw [List.cons_append, agrees_cons (load_ok (by simpa using hi) hm.1)]
          simp [hc]
      | cons d line =>
          rw [List.length_cons] at hi
          rw [List.cons_append, agrees_cons (load_ok (by omega) hm.1)]
          by_cases hdc : d = c
          · rw [if_pos hdc, ih (fun h => hlit (List.mem_cons_of_mem _ h))
              (fun h => hline (List.mem_cons_of_mem _ h)) hm.2 (by omega)]
            simp [hdc]
          · simp [hdc]

/-- Comparing a literal with a text that ends in a cell that was never written. -/
theorem agrees_cut {lit : List Char} :
    ∀ {i : ℕ} {head : List Char}, Holds m i head → m (i + head.length) = none →
      i + head.length < n →
      agrees n m i lit =
        if lit.isPrefixOf head then .ok true
        else if head.isPrefixOf lit then .error .uninitialised else .ok false := by
  induction lit with
  | nil =>
      intro i head _ _ _
      simp [agrees]
  | cons c lit ih =>
      intro i head hm hcut hi
      cases head with
      | nil =>
          have hload : load n m i = .error .uninitialised := by
            rw [List.length_nil, Nat.add_zero] at hcut hi
            rw [load, if_pos hi, hcut]
          rw [agrees, hload]
          simp [bind, Except.bind]
      | cons d head =>
          rw [List.length_cons] at hi hcut
          have hindex : i + 1 + head.length = i + (head.length + 1) := by omega
          rw [agrees_cons (load_ok (by omega) hm.1)]
          by_cases hdc : d = c
          · rw [if_pos hdc, ih hm.2 (by rw [hindex]; exact hcut) (by omega), hdc,
              List.isPrefixOf_cons_cons_self, List.isPrefixOf_cons_cons_self]
          · simp [hdc, Ne.symm hdc, List.isPrefixOf]

theorem strlen_line {line : List Char} (hline : nul ∉ line) :
    ∀ {fuel i : ℕ}, Holds m i (line ++ [nul]) → i + line.length < n → line.length < fuel →
      strlen n m fuel i = .ok line.length := by
  induction line with
  | nil =>
      intro fuel i hm hi hfuel
      cases fuel with
      | zero => exact absurd hfuel (by omega)
      | succ fuel =>
          rw [strlen_succ (load_ok (by simpa using hi) hm.1), if_pos rfl]
          rfl
  | cons c line ih =>
      intro fuel i hm hi hfuel
      have hc : c ≠ nul := fun h => hline (h ▸ List.mem_cons_self ..)
      rw [List.length_cons] at hi hfuel
      cases fuel with
      | zero => exact absurd hfuel (by omega)
      | succ fuel =>
          rw [strlen_succ (load_ok (by omega) hm.1), if_neg hc, ih (fun h => hline (List.mem_cons_of_mem _ h)) hm.2 (by omega) (by omega)]
          rfl

theorem copyWith_line (f : Char → Char) {line : List Char} (hline : nul ∉ line) :
    ∀ {fuel i : ℕ} {dst : Memory}, Holds m i (line ++ [nul]) → i + line.length < n →
      line.length < fuel → copyWith f n m fuel i dst = .ok (put dst i (line.map f)) := by
  induction line with
  | nil =>
      intro fuel i dst hm hi hfuel
      cases fuel with
      | zero => exact absurd hfuel (by omega)
      | succ fuel =>
          rw [copyWith_succ f (load_ok (by simpa using hi) hm.1), if_pos rfl]
          rfl
  | cons c line ih =>
      intro fuel i dst hm hi hfuel
      have hc : c ≠ nul := fun h => hline (h ▸ List.mem_cons_self ..)
      rw [List.length_cons] at hi hfuel
      cases fuel with
      | zero => exact absurd hfuel (by omega)
      | succ fuel =>
          rw [copyWith_succ f (load_ok (by omega) hm.1), if_neg hc]
          exact ih (fun h => hline (List.mem_cons_of_mem _ h)) hm.2 (by omega) (by omega)

/-! ### Bounds -/

/-- Comparing with a literal stays inside an array that is long enough. -/
theorem agrees_written (hm : ∀ i < n, m i ≠ none) {lit : List Char} :
    ∀ {i : ℕ}, i + lit.length ≤ n → ∃ b, agrees n m i lit = .ok b := by
  induction lit with
  | nil =>
      intro i _
      exact ⟨true, rfl⟩
  | cons c lit ih =>
      intro i hi
      rw [List.length_cons] at hi
      obtain ⟨d, hd⟩ := Option.ne_none_iff_exists'.1 (hm i (by omega))
      rw [agrees_cons (load_ok (by omega) hd)]
      split
      next => exact ih (by omega)
      next => exact ⟨false, rfl⟩

end CString
