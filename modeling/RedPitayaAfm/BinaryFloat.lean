/-
**Rounding to a binary floating-point format.**

A number of a format is an integer of so many bits, times a power of two that is not too small.  A
result that lies between two of them is rounded to the nearer one, and to the even one where it lies
half way.  There is no largest number here: a result that would overflow is left to the caller.

Main definitions:

* `BinaryFloat.roundHalfEven` — the nearest integer, ties to even;
* `BinaryFloat.Format`, `BinaryFloat.Format.Represents` — a format and its numbers;
* `BinaryFloat.Format.round` — a number rounded to the format;
* `BinaryFloat.binary32`, `BinaryFloat.binary64` — single and double precision.

Main results:

* `BinaryFloat.Format.round_of_represents` — the numbers of the format are kept;
* `BinaryFloat.Format.round_mono` — **rounding keeps the order**.
-/

import Mathlib

set_option relaxedAutoImplicit false
set_option autoImplicit false

namespace BinaryFloat

/-! ### The nearest integer -/

/-- Round to the nearest integer, ties to even. -/
def roundHalfEven (x : ℚ) : ℤ :=
  let n := ⌊x⌋
  if x - n < 1 / 2 then n
  else if 1 / 2 < x - n then n + 1
  else if n % 2 = 0 then n else n + 1

theorem floor_le_roundHalfEven (x : ℚ) : ⌊x⌋ ≤ roundHalfEven x := by
  unfold roundHalfEven
  dsimp only
  split_ifs <;> omega

theorem roundHalfEven_le_floor_add_one (x : ℚ) : roundHalfEven x ≤ ⌊x⌋ + 1 := by
  unfold roundHalfEven
  dsimp only
  split_ifs <;> omega

@[simp] theorem roundHalfEven_intCast (n : ℤ) : roundHalfEven (n : ℚ) = n := by
  simp [roundHalfEven]

/-- Rounding adds at most a half. -/
theorem roundHalfEven_le (x : ℚ) : (roundHalfEven x : ℚ) ≤ x + 1 / 2 := by
  have hfloor := Int.floor_le x
  unfold roundHalfEven
  simp only
  split_ifs with hlow hhigh heven
  · linarith
  · push_cast
    linarith
  · linarith
  · push_cast
    linarith

theorem roundHalfEven_mono {x y : ℚ} (h : x ≤ y) : roundHalfEven x ≤ roundHalfEven y := by
  rcases (Int.floor_le_floor h).lt_or_eq with hlt | heq
  · calc roundHalfEven x ≤ ⌊x⌋ + 1 := roundHalfEven_le_floor_add_one x
      _ ≤ ⌊y⌋ := hlt
      _ ≤ roundHalfEven y := floor_le_roundHalfEven y
  · -- between the same two integers only the distance from the lower one counts
    have hsub : x - (⌊y⌋ : ℚ) ≤ y - ⌊y⌋ := sub_le_sub_right h _
    unfold roundHalfEven
    simp only [heq]
    split_ifs with hx hy hy' heven hx' hy hy' heven heven hy hy'
    all_goals first | omega | (exfalso; linarith)

theorem roundHalfEven_neg (x : ℚ) : roundHalfEven (-x) = -roundHalfEven x := by
  by_cases hint : ((⌊x⌋ : ℤ) : ℚ) = x
  · rw [← hint, ← Int.cast_neg, roundHalfEven_intCast, roundHalfEven_intCast]
  · -- the two neighbours of `-x` are the negatives of those of `x`
    have hfloor : ⌊-x⌋ = -⌊x⌋ - 1 := by
      have hlt : (⌊x⌋ : ℚ) < x := lt_of_le_of_ne (Int.floor_le x) hint
      rw [Int.floor_eq_iff]
      push_cast
      constructor
      · linarith [Int.lt_floor_add_one x]
      · linarith
    have hpar : (-⌊x⌋ - 1) % 2 = 0 ↔ ¬⌊x⌋ % 2 = 0 := by omega
    unfold roundHalfEven
    simp only [hfloor, hpar]
    push_cast
    split_ifs
    all_goals first | omega | (exfalso; linarith)

/-! ### Formats -/

/-- A binary format: the bits of an integer, and the exponent of the smallest positive number. -/
structure Format where
  precision : ℕ
  precision_pos : 0 < precision
  minExponent : ℤ

namespace Format

variable (F : Format)

/-- The numbers of a format. -/
def Represents (x : ℚ) : Prop :=
  ∃ n e : ℤ, |n| < 2 ^ F.precision ∧ F.minExponent ≤ e ∧ x = n * 2 ^ e

/-- The exponent of the last bit of a number. -/
def place (x : ℚ) : ℤ := max (Int.log 2 |x| + 1 - F.precision) F.minExponent

/-- A number, rounded to the format. -/
def round (x : ℚ) : ℚ := roundHalfEven (x / 2 ^ F.place x) * 2 ^ F.place x

variable {F} {x y : ℚ}

theorem two_zpow_pos (e : ℤ) : (0 : ℚ) < 2 ^ e := zpow_pos (by norm_num) e

/-- A power of two is an integer in units of a smaller one. -/
theorem zpow_div_zpow {e k : ℤ} (h : e ≤ k) :
    (2 : ℚ) ^ k / 2 ^ e = ((2 ^ (k - e).toNat : ℤ) : ℚ) := by
  rw [← zpow_sub₀ (by norm_num : (2 : ℚ) ≠ 0)]
  push_cast
  rw [← zpow_natCast, Int.toNat_of_nonneg (by omega)]

theorem round_zero : F.round (0 : ℚ) = 0 := by
  have h := roundHalfEven_intCast 0
  rw [Int.cast_zero] at h
  rw [round, zero_div, h, Int.cast_zero, zero_mul]

theorem round_neg (x : ℚ) : F.round (-x) = -F.round x := by
  simp only [round, place, abs_neg, neg_div, roundHalfEven_neg]
  push_cast
  ring

/-- **The numbers of the format are kept.** -/
theorem round_of_represents (h : F.Represents x) : F.round x = x := by
  obtain ⟨n, e, hn, he, rfl⟩ := h
  rcases eq_or_ne n 0 with rfl | hzero
  · rw [Int.cast_zero, zero_mul, round_zero]
  -- the last bit of the number is not below that of its integer
  have hplace : F.place ((n : ℚ) * 2 ^ e) ≤ e := by
    have hpos : 0 < |(n : ℚ) * 2 ^ e| := by
      rw [abs_pos]
      exact mul_ne_zero (by exact_mod_cast hzero) (two_zpow_pos e).ne'
    have hlt : |(n : ℚ) * 2 ^ e| < (2 : ℚ) ^ (F.precision + e : ℤ) := by
      rw [abs_mul, abs_of_pos (two_zpow_pos e), zpow_add₀ (by norm_num), zpow_natCast]
      refine mul_lt_mul_of_pos_right ?_ (two_zpow_pos e)
      exact_mod_cast hn
    have hlog : Int.log 2 |(n : ℚ) * 2 ^ e| < F.precision + e := by
      have hle := Int.zpow_log_le_self (b := 2) one_lt_two hpos
      rw [Nat.cast_ofNat] at hle
      exact (zpow_lt_zpow_iff_right₀ (one_lt_two (α := ℚ))).1 (hle.trans_lt hlt)
    exact max_le (by omega) he
  rw [round, mul_div_assoc, zpow_div_zpow hplace, ← Int.cast_mul, roundHalfEven_intCast, Int.cast_mul,
    ← zpow_div_zpow hplace, mul_assoc, div_mul_cancel₀ _ (two_zpow_pos _).ne']

theorem round_nonneg (h : 0 ≤ x) : 0 ≤ F.round x := by
  have hle := roundHalfEven_mono (div_nonneg h (two_zpow_pos (F.place x)).le)
  have hzero := roundHalfEven_intCast 0
  rw [Int.cast_zero] at hzero
  rw [hzero] at hle
  exact mul_nonneg (by exact_mod_cast hle) (two_zpow_pos _).le

/-- A power of two is not passed over. -/
theorem round_le_zpow {k : ℤ} (hplace : F.place x ≤ k) (h : x ≤ 2 ^ k) : F.round x ≤ 2 ^ k := by
  have hdiv : x / 2 ^ F.place x ≤ ((2 ^ (k - F.place x).toNat : ℤ) : ℚ) := by
    rw [← zpow_div_zpow hplace]
    exact div_le_div_of_nonneg_right h (two_zpow_pos _).le
  have hround := roundHalfEven_mono hdiv
  rw [roundHalfEven_intCast] at hround
  calc F.round x ≤ ((2 ^ (k - F.place x).toNat : ℤ) : ℚ) * 2 ^ F.place x :=
        mul_le_mul_of_nonneg_right (by exact_mod_cast hround) (two_zpow_pos _).le
    _ = 2 ^ k := by rw [← zpow_div_zpow hplace, div_mul_cancel₀ _ (two_zpow_pos _).ne']

theorem zpow_le_round {k : ℤ} (hplace : F.place x ≤ k) (h : 2 ^ k ≤ x) : 2 ^ k ≤ F.round x := by
  have hdiv : ((2 ^ (k - F.place x).toNat : ℤ) : ℚ) ≤ x / 2 ^ F.place x := by
    rw [← zpow_div_zpow hplace]
    exact div_le_div_of_nonneg_right h (two_zpow_pos _).le
  have hround := roundHalfEven_mono hdiv
  rw [roundHalfEven_intCast] at hround
  calc (2 : ℚ) ^ k = ((2 ^ (k - F.place x).toNat : ℤ) : ℚ) * 2 ^ F.place x := by
        rw [← zpow_div_zpow hplace, div_mul_cancel₀ _ (two_zpow_pos _).ne']
    _ ≤ F.round x := mul_le_mul_of_nonneg_right (by exact_mod_cast hround) (two_zpow_pos _).le

/-- Rounding keeps the order of positive numbers. -/
theorem round_mono_of_pos (hx : 0 < x) (h : x ≤ y) : F.round x ≤ F.round y := by
  have hy : 0 < y := hx.trans_le h
  have hlog : Int.log 2 |x| ≤ Int.log 2 |y| :=
    Int.log_mono_right (abs_pos.2 hx.ne') (abs_le_abs_of_nonneg hx.le h)
  rcases eq_or_ne (F.place x) (F.place y) with heq | hne
  · -- both are rounded to the same multiples
    have hdiv : x / 2 ^ F.place y ≤ y / 2 ^ F.place y :=
      div_le_div_of_nonneg_right h (two_zpow_pos _).le
    rw [round, round, heq]
    exact mul_le_mul_of_nonneg_right (by exact_mod_cast roundHalfEven_mono hdiv) (two_zpow_pos _).le
  · -- a power of two lies between them
    have hpos := F.precision_pos
    have hplaces : F.place x < Int.log 2 |y| ∧ F.place y ≤ Int.log 2 |y| ∧
        Int.log 2 |x| + 1 ≤ Int.log 2 |y| := by
      unfold place at hne ⊢
      omega
    have hlow : x ≤ 2 ^ Int.log 2 |y| := by
      have hlt := Int.lt_zpow_succ_log_self (b := 2) one_lt_two |x|
      rw [Nat.cast_ofNat, abs_of_pos hx] at hlt
      rw [abs_of_pos hx] at hplaces
      exact hlt.le.trans (zpow_le_zpow_right₀ one_le_two hplaces.2.2)
    have hhigh : (2 : ℚ) ^ Int.log 2 |y| ≤ y := by
      have hle := Int.zpow_log_le_self (b := 2) one_lt_two (abs_pos.2 hy.ne')
      rw [Nat.cast_ofNat] at hle
      exact hle.trans_eq (abs_of_pos hy)
    exact (round_le_zpow hplaces.1.le hlow).trans (zpow_le_round hplaces.2.1 hhigh)

/-- **Rounding keeps the order.** -/
theorem round_mono : Monotone (F.round) := by
  intro x y h
  rcases lt_or_ge 0 x with hx | hx
  · exact round_mono_of_pos hx h
  rcases lt_or_ge y 0 with hy | hy
  · have hneg := round_mono_of_pos (F := F) (neg_pos.2 hy) (neg_le_neg h)
    rw [round_neg, round_neg] at hneg
    exact neg_le_neg_iff.1 hneg
  · have hlow := round_nonneg (F := F) (neg_nonneg.2 hx)
    rw [round_neg] at hlow
    exact (neg_nonneg.1 hlow).trans (round_nonneg hy)

end Format

/-- Single precision. -/
def binary32 : Format := ⟨24, by decide, -149⟩

/-- Double precision. -/
def binary64 : Format := ⟨53, by decide, -1074⟩

/-- A tenth is not a number of either format. -/
example : binary32.round (1 / 10 : ℚ) = 13421773 / 134217728 := by decide +kernel

end BinaryFloat
