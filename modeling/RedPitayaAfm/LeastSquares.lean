/-
**Linear least squares by Cramer's rule.**

A record is fitted by a combination of columns.  The coefficients that Cramer's rule gives for the
matrix of the products of the columns leave a remainder that is orthogonal to all of them; that makes it the
smallest remainder there is, and recovers the coefficients of a record that is a combination of the
columns.  Nothing here mentions a particular set of columns.

Main definitions:

* `LeastSquares.remainder`, `LeastSquares.normalMatrix`, `LeastSquares.moments` — what a fit leaves, and its
  normal equations;
* `LeastSquares.solution` — the coefficients by Cramer's rule.

Main results:

* `LeastSquares.orthogonal_iff` — the remainder is orthogonal exactly when the normal equations hold;
* `LeastSquares.solution_orthogonal`, `LeastSquares.solution_unique` — **Cramer's rule** solves them,
  and nothing else does;
* `LeastSquares.solution_combination` — a combination of the columns is recovered;
* `LeastSquares.solution_least` — no other remainder is smaller.
-/

import Mathlib

set_option relaxedAutoImplicit false
set_option autoImplicit false

namespace LeastSquares

open Matrix

section Fit

variable {K ι κ : Type} [Field K] [Fintype ι] [Fintype κ] (F : κ → ι → K) (x : ι → K)

/-- What is left of a record when a combination of the columns is taken away. -/
def remainder (a : κ → K) : ι → K := x - ∑ k, a k • F k

/-- The products of the columns. -/
def normalMatrix : Matrix κ κ K := .of fun j k => F j ⬝ᵥ F k

/-- The products of the record with the columns. -/
def moments : κ → K := fun k => F k ⬝ᵥ x

variable {F x}

theorem dotProduct_remainder (a : κ → K) (k : κ) :
    F k ⬝ᵥ remainder F x a = moments F x k - (normalMatrix F *ᵥ a) k := by
  rw [remainder, dotProduct_sub, moments, dotProduct_sum]
  congr 1
  refine Finset.sum_congr rfl fun j _ => ?_
  rw [dotProduct_smul, smul_eq_mul, mul_comm]
  rfl

/-- **The normal equations**: the remainder is orthogonal to the columns exactly when they hold. -/
theorem orthogonal_iff {a : κ → K} :
    (∀ k, F k ⬝ᵥ remainder F x a = 0) ↔ normalMatrix F *ᵥ a = moments F x := by
  constructor
  · intro h
    funext k
    have hk := h k
    rw [dotProduct_remainder, sub_eq_zero] at hk
    exact hk.symm
  · intro h k
    rw [dotProduct_remainder, h, sub_self]

section Cramer

variable [DecidableEq κ]

variable (F x) in
/-- The coefficients by Cramer's rule. -/
def solution : κ → K := fun k => (normalMatrix F).cramer (moments F x) k / (normalMatrix F).det

/-- **Cramer's rule** leaves an orthogonal remainder. -/
theorem solution_orthogonal (h : (normalMatrix F).det ≠ 0) (k : κ) : F k ⬝ᵥ remainder F x (solution F x) = 0 := by
  have hsolution : solution F x = (normalMatrix F).det⁻¹ • (normalMatrix F).cramer (moments F x) := by
    funext j
    rw [solution, Pi.smul_apply, smul_eq_mul, div_eq_inv_mul]
  refine orthogonal_iff.2 ?_ k
  rw [hsolution, mulVec_smul, mulVec_cramer, smul_smul, inv_mul_cancel₀ h, one_smul]

/-- Nothing else does. -/
theorem solution_unique (h : (normalMatrix F).det ≠ 0) {a : κ → K} (ha : ∀ k, F k ⬝ᵥ remainder F x a = 0) :
    solution F x = a := by
  have hunit : IsUnit (normalMatrix F) := (isUnit_iff_isUnit_det _).2 (isUnit_iff_ne_zero.2 h)
  refine mulVec_injective_of_isUnit hunit ?_
  rw [orthogonal_iff.1 ha, orthogonal_iff.1 (solution_orthogonal h)]

/-- **A combination of the columns is recovered.** -/
theorem solution_combination (h : (normalMatrix F).det ≠ 0) {a : κ → K} (hx : x = ∑ k, a k • F k) :
    solution F x = a := by
  refine solution_unique h fun k => ?_
  rw [remainder, hx, sub_self, dotProduct_zero]

/-- **Least squares**: no combination leaves less. -/
theorem solution_least [LinearOrder K] [IsStrictOrderedRing K] (h : (normalMatrix F).det ≠ 0) (a : κ → K) :
    remainder F x (solution F x) ⬝ᵥ remainder F x (solution F x) ≤ remainder F x a ⬝ᵥ remainder F x a := by
  obtain ⟨d, hd⟩ : ∃ d, d = ∑ k, (solution F x - a) k • F k := ⟨_, rfl⟩
  have hsplit : remainder F x a = remainder F x (solution F x) + d := by
    rw [hd, remainder, remainder]
    simp only [Pi.sub_apply, sub_smul, Finset.sum_sub_distrib]
    abel
  -- the difference is a combination of the columns
  have hcross : d ⬝ᵥ remainder F x (solution F x) = 0 := by
    rw [hd, sum_dotProduct]
    refine Finset.sum_eq_zero fun k _ => ?_
    rw [smul_dotProduct, solution_orthogonal h, smul_zero]
  have hnonneg : 0 ≤ d ⬝ᵥ d := Finset.sum_nonneg fun i _ => mul_self_nonneg (d i)
  rw [hsplit, add_dotProduct, dotProduct_add, dotProduct_add, hcross, dotProduct_comm _ d, hcross]
  linarith

end Cramer

end Fit

end LeastSquares
