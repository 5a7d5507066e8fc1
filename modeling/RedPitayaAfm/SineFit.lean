/-
**The sine fit of the sweep.**

`SineFit::fit` sums the products of a record with a sine, a cosine and the constant, and takes the
coefficients from four determinants, or from three when the window holds less than a period.  Both are
Cramer's rule for the normal equations of these columns.

Main definitions:

* `Afm.SineFit.offsetDet`, `Afm.SineFit.sineDet` — the determinants that select the branch;
* `Afm.SineFit.Orthogonal` — two sequences have no correlation in the window;
* `Afm.SineFit.OffsetFit`, `Afm.SineFit.PlainFit` — what the coefficients of a fit are.

Main results:

* `Afm.SineFit.coefficients_eq_solution`, `Afm.SineFit.coefficients_eq_solution_sine` — the
  determinants are Cramer's rule;
* `Afm.SineFit.coefficients_least` — no other coefficients leave less of a record;
* `Afm.SineFit.coefficients_solve` — **the fit solves its least-squares problem**.
-/

import RedPitayaAfm.SignalProcessing
import RedPitayaAfm.LeastSquares

set_option relaxedAutoImplicit false
set_option autoImplicit false

namespace Afm

namespace SineFit

open LeastSquares Matrix

variable {K : Type} [Field K] [LinearOrder K]

/-! ### Columns -/

/-- The columns of a fit with an offset. -/
def offsetColumns (n : ℕ) (s c : ℕ → K) : Fin 3 → Fin n → K :=
  ![fun i => s i, fun i => c i, fun _ => 1]

/-- The columns of a fit without one. -/
def sineColumns (n : ℕ) (s c : ℕ → K) : Fin 2 → Fin n → K := ![fun i => s i, fun i => c i]

/-- The determinant of a fit with an offset, as the source writes it. -/
def offsetDet (n : ℕ) (s c : ℕ → K) : K :=
  det3 (∑ i ∈ Finset.range n, s i * s i) (∑ i ∈ Finset.range n, s i * c i) (∑ i ∈ Finset.range n, s i)
    (∑ i ∈ Finset.range n, s i * c i) (∑ i ∈ Finset.range n, c i * c i) (∑ i ∈ Finset.range n, c i)
    (∑ i ∈ Finset.range n, s i) (∑ i ∈ Finset.range n, c i) n

/-- The determinant of a fit without one. -/
def sineDet (n : ℕ) (s c : ℕ → K) : K :=
  (∑ i ∈ Finset.range n, s i * s i) * (∑ i ∈ Finset.range n, c i * c i)
    - (∑ i ∈ Finset.range n, s i * c i) * ∑ i ∈ Finset.range n, s i * c i

/-- Two sequences are orthogonal in a window. -/
def Orthogonal (n : ℕ) (f g : ℕ → K) : Prop := ∑ i ∈ Finset.range n, f i * g i = 0

omit [LinearOrder K] in
/-- The products of the columns. -/
theorem normalMatrix_offset (n : ℕ) (s c : ℕ → K) :
    normalMatrix (offsetColumns n s c) = !![∑ i ∈ Finset.range n, s i * s i,
        ∑ i ∈ Finset.range n, s i * c i, ∑ i ∈ Finset.range n, s i;
      ∑ i ∈ Finset.range n, s i * c i, ∑ i ∈ Finset.range n, c i * c i, ∑ i ∈ Finset.range n, c i;
      ∑ i ∈ Finset.range n, s i, ∑ i ∈ Finset.range n, c i, (n : K)] := by
  ext j k
  fin_cases j <;> fin_cases k <;>
    simp [normalMatrix, offsetColumns, dotProduct, Finset.sum_range, mul_comm]

omit [LinearOrder K] in
theorem moments_offset (n : ℕ) (s c x : ℕ → K) :
    moments (offsetColumns n s c) (fun i => x i) = ![∑ i ∈ Finset.range n, x i * s i,
      ∑ i ∈ Finset.range n, x i * c i, ∑ i ∈ Finset.range n, x i] := by
  ext k
  fin_cases k <;> simp [moments, offsetColumns, dotProduct, Finset.sum_range, mul_comm]

omit [LinearOrder K] in
theorem normalMatrix_sine (n : ℕ) (s c : ℕ → K) :
    normalMatrix (sineColumns n s c) = !![∑ i ∈ Finset.range n, s i * s i,
        ∑ i ∈ Finset.range n, s i * c i;
      ∑ i ∈ Finset.range n, s i * c i, ∑ i ∈ Finset.range n, c i * c i] := by
  ext j k
  fin_cases j <;> fin_cases k <;>
    simp [normalMatrix, sineColumns, dotProduct, Finset.sum_range, mul_comm]

omit [LinearOrder K] in
theorem moments_sine (n : ℕ) (s c x : ℕ → K) :
    moments (sineColumns n s c) (fun i => x i)
      = ![∑ i ∈ Finset.range n, x i * s i, ∑ i ∈ Finset.range n, x i * c i] := by
  ext k
  fin_cases k <;> simp [moments, sineColumns, dotProduct, Finset.sum_range, mul_comm]

omit [LinearOrder K] in
theorem det_normalMatrix_offset (n : ℕ) (s c : ℕ → K) :
    (normalMatrix (offsetColumns n s c)).det = offsetDet n s c := by
  rw [normalMatrix_offset, det_fin_three, offsetDet, det3]
  simp only [of_apply, cons_val', cons_val_zero, cons_val_one, cons_val, cons_val_fin_one]
  ring

omit [LinearOrder K] in
theorem det_normalMatrix_sine (n : ℕ) (s c : ℕ → K) :
    (normalMatrix (sineColumns n s c)).det = sineDet n s c := by
  rw [normalMatrix_sine, det_fin_two, sineDet]
  simp

/-! ### The determinants are Cramer's rule -/

/-- The fit with an offset. -/
theorem coefficients_eq_solution {n : ℕ} {periods : K} {s c : ℕ → K}
    (hbranch : minPeriodsForOffset ≤ periods ∧ offsetDet n s c ≠ 0) (x : ℕ → K) :
    ![(coefficients n periods s c x).a, (coefficients n periods s c x).b,
        (coefficients n periods s c x).offset]
      = solution (offsetColumns n s c) fun i => x i := by
  have hcoefficients : coefficients n periods s c x
      = { a := det3 _ _ _ _ _ _ _ _ _ / offsetDet n s c
          b := det3 _ _ _ _ _ _ _ _ _ / offsetDet n s c
          offset := det3 _ _ _ _ _ _ _ _ _ / offsetDet n s c } := if_pos hbranch
  rw [hcoefficients]
  ext k
  rw [solution, det_normalMatrix_offset, cramer_apply, normalMatrix_offset, moments_offset,
    det_fin_three]
  -- one equation a coefficient: the determinants of the code are those of `cramer`
  fin_cases k <;> simp [det3] <;> ring

/-- The fit without one. -/
theorem coefficients_eq_solution_sine {n : ℕ} {periods : K} {s c : ℕ → K}
    (hbranch : ¬(minPeriodsForOffset ≤ periods ∧ offsetDet n s c ≠ 0)) (hdet : sineDet n s c ≠ 0)
    (x : ℕ → K) :
    (coefficients n periods s c x).offset = 0 ∧
      ![(coefficients n periods s c x).a, (coefficients n periods s c x).b]
        = solution (sineColumns n s c) fun i => x i := by
  have hcoefficients : coefficients n periods s c x
      = { a := ((∑ i ∈ Finset.range n, x i * s i) * (∑ i ∈ Finset.range n, c i * c i)
            - (∑ i ∈ Finset.range n, x i * c i) * ∑ i ∈ Finset.range n, s i * c i) / sineDet n s c
          b := ((∑ i ∈ Finset.range n, s i * s i) * (∑ i ∈ Finset.range n, x i * c i)
            - (∑ i ∈ Finset.range n, s i * c i) * ∑ i ∈ Finset.range n, x i * s i) / sineDet n s c
          offset := 0 } := (if_neg hbranch).trans (if_pos hdet)
  refine ⟨by rw [hcoefficients], ?_⟩
  rw [hcoefficients]
  ext k
  rw [solution, det_normalMatrix_sine, cramer_apply, normalMatrix_sine, moments_sine, det_fin_two]
  fin_cases k <;> simp <;> ring

/-! ### What the fit leaves -/

omit [LinearOrder K] in
theorem remainder_offset {n : ℕ} {s c x : ℕ → K} {a b offset : K} {a' : Fin 3 → K}
    (ha : ![a, b, offset] = a') (k : Fin 3) :
    offsetColumns n s c k ⬝ᵥ remainder (offsetColumns n s c) (fun i => x i) a'
      = ∑ i ∈ Finset.range n, (x i - a * s i - b * c i - offset) * ![s i, c i, 1] k := by
  rw [← ha, Finset.sum_range]
  refine Finset.sum_congr rfl fun i _ => ?_
  fin_cases k <;> simp [remainder, offsetColumns, Fin.sum_univ_three] <;> ring

omit [LinearOrder K] in
theorem remainder_sine {n : ℕ} {s c x : ℕ → K} {a b : K} {a' : Fin 2 → K} (ha : ![a, b] = a')
    (k : Fin 2) :
    sineColumns n s c k ⬝ᵥ remainder (sineColumns n s c) (fun i => x i) a'
      = ∑ i ∈ Finset.range n, (x i - a * s i - b * c i) * ![s i, c i] k := by
  rw [← ha, Finset.sum_range]
  refine Finset.sum_congr rfl fun i _ => ?_
  fin_cases k <;> simp [remainder, sineColumns] <;> ring

omit [Field K] [LinearOrder K] in
theorem coefficients_ext {r r' : Coefficients K} (ha : r.a = r'.a) (hb : r.b = r'.b)
    (hoffset : r.offset = r'.offset) : r = r' := by
  cases r
  cases r'
  simp only at ha hb hoffset
  rw [ha, hb, hoffset]

/-- **Least squares**: no other coefficients leave less of the record. -/
theorem coefficients_least [IsStrictOrderedRing K] {n : ℕ} {periods : K} {s c : ℕ → K}
    (hbranch : minPeriodsForOffset ≤ periods ∧ offsetDet n s c ≠ 0) (x : ℕ → K) (a b offset : K) :
    let r := coefficients n periods s c x
    ∑ i ∈ Finset.range n, (x i - r.a * s i - r.b * c i - r.offset) ^ 2
      ≤ ∑ i ∈ Finset.range n, (x i - a * s i - b * c i - offset) ^ 2 := by
  intro r
  have hdet : (normalMatrix (offsetColumns n s c)).det ≠ 0 := by
    rw [det_normalMatrix_offset]
    exact hbranch.2
  -- the sum of the squares is the remainder times itself
  have hsquares : ∀ a b offset : K, ∑ i ∈ Finset.range n, (x i - a * s i - b * c i - offset) ^ 2
      = remainder (offsetColumns n s c) (fun i => x i) ![a, b, offset]
          ⬝ᵥ remainder (offsetColumns n s c) (fun i => x i) ![a, b, offset] := by
    intro a b offset
    rw [Finset.sum_range]
    refine Finset.sum_congr rfl fun i _ => ?_
    simp [remainder, offsetColumns, Fin.sum_univ_three]
    ring
  rw [hsquares, hsquares, coefficients_eq_solution hbranch x]
  exact solution_least hdet _

/-- What the coefficients of a fit with an offset are to a record. -/
structure OffsetFit (n : ℕ) (s c x : ℕ → K) (r : Coefficients K) : Prop where
  sine : Orthogonal n (fun i => x i - r.a * s i - r.b * c i - r.offset) s
  cosine : Orthogonal n (fun i => x i - r.a * s i - r.b * c i - r.offset) c
  constant : Orthogonal n (fun i => x i - r.a * s i - r.b * c i - r.offset) 1
  recovers : ∀ a b k, (∀ i < n, x i = a * s i + b * c i + k) → r = ⟨a, b, k⟩

/-- What the coefficients of a fit without an offset are to a record. -/
structure PlainFit (n : ℕ) (s c x : ℕ → K) (r : Coefficients K) : Prop where
  sine : Orthogonal n (fun i => x i - r.a * s i - r.b * c i) s
  cosine : Orthogonal n (fun i => x i - r.a * s i - r.b * c i) c
  recovers : ∀ a b, (∀ i < n, x i = a * s i + b * c i) → r = ⟨a, b, 0⟩

omit [LinearOrder K] in
/-- The fit with an offset, from the orthogonality of what it leaves. -/
theorem offsetFit_of_solution {n : ℕ} {s c x : ℕ → K} {r : Coefficients K} (hdet : offsetDet n s c ≠ 0)
    (hsolution : ![r.a, r.b, r.offset] = solution (offsetColumns n s c) fun i => x i) :
    OffsetFit n s c x r := by
  have hdet' : (normalMatrix (offsetColumns n s c)).det ≠ 0 := by
    rw [det_normalMatrix_offset]
    exact hdet
  have horthogonal : ∀ k, ∑ i ∈ Finset.range n,
      (x i - r.a * s i - r.b * c i - r.offset) * ![s i, c i, 1] k = 0 := by
    intro k
    rw [← remainder_offset hsolution k]
    exact solution_orthogonal hdet' k
  refine ⟨horthogonal 0, horthogonal 1, horthogonal 2, ?_⟩
  intro a b k hx
  -- a record that is a combination has no remainder, so the solution is its coefficients
  have hcombination : (fun i : Fin n => x i) = ∑ j, ![a, b, k] j • offsetColumns n s c j := by
    funext i
    simp [hx i i.isLt, Fin.sum_univ_three, offsetColumns]
  have heq := hsolution.trans (solution_combination hdet' hcombination)
  exact coefficients_ext (congrFun heq 0) (congrFun heq 1) (congrFun heq 2)

omit [LinearOrder K] in
/-- The fit without one, in the same way. -/
theorem plainFit_of_solution {n : ℕ} {s c x : ℕ → K} {r : Coefficients K} (hdet : sineDet n s c ≠ 0)
    (hoffset : r.offset = 0) (hsolution : ![r.a, r.b] = solution (sineColumns n s c) fun i => x i) :
    PlainFit n s c x r := by
  have hdet' : (normalMatrix (sineColumns n s c)).det ≠ 0 := by
    rw [det_normalMatrix_sine]
    exact hdet
  have horthogonal : ∀ k, ∑ i ∈ Finset.range n,
      (x i - r.a * s i - r.b * c i) * ![s i, c i] k = 0 := by
    intro k
    rw [← remainder_sine hsolution k]
    exact solution_orthogonal hdet' k
  refine ⟨horthogonal 0, horthogonal 1, ?_⟩
  intro a b hx
  have hcombination : (fun i : Fin n => x i) = ∑ j, ![a, b] j • sineColumns n s c j := by
    funext i
    simp [hx i i.isLt, sineColumns]
  have heq := hsolution.trans (solution_combination hdet' hcombination)
  exact coefficients_ext (congrFun heq 0) (congrFun heq 1) hoffset

/-- **The sine fit solves its least-squares problem**: what it leaves of the record is orthogonal to
its columns, and a record that is a combination of them is recovered, whatever follows the window. -/
theorem coefficients_solve (samples : List K) (count : ℕ) (periods : K) (s c : ℕ → K) :
    (minPeriodsForOffset ≤ periods ∧ offsetDet (min count samples.length) s c ≠ 0 →
      OffsetFit (min count samples.length) s c (fun i => samples.getD i 0)
        (coefficients (min count samples.length) periods s c fun i => samples.getD i 0)) ∧
    (¬(minPeriodsForOffset ≤ periods ∧ offsetDet (min count samples.length) s c ≠ 0) →
      sineDet (min count samples.length) s c ≠ 0 →
      PlainFit (min count samples.length) s c (fun i => samples.getD i 0)
        (coefficients (min count samples.length) periods s c fun i => samples.getD i 0)) := by
  constructor
  · intro hbranch
    exact offsetFit_of_solution hbranch.2 (coefficients_eq_solution hbranch _)
  · intro hbranch hsine
    obtain ⟨hoffset, hsolution⟩ := coefficients_eq_solution_sine hbranch hsine
      fun i => samples.getD i 0
    exact plainFit_of_solution hsine hoffset hsolution

/-- The samples behind the window do not matter. -/
theorem coefficients_solve_window :
    coefficients 3 1 (fun i => if i = 0 then 1 else 0) (fun i => if i = 1 then 1 else 0)
      (fun i => ([9, 10, 7, 100] : List ℚ).getD i 0) = ⟨2, 3, 7⟩ := by
  refine ((coefficients_solve [9, 10, 7, 100] 3 1 (fun i => if i = 0 then 1 else 0)
    (fun i => if i = 1 then 1 else 0)).1 ⟨le_refl _, ?_⟩).recovers 2 3 7 ?_
  · simp [offsetDet, det3]
    norm_num
  · intro i hi
    have h3 : i < 3 := hi
    interval_cases i <;> norm_num

end SineFit

end Afm
