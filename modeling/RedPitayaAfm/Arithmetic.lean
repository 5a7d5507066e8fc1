/-
**The arithmetic of the server.**

The values of `float` and `double` are rational numbers, and so are the results of their operations
before they are rounded.  What rounding makes of them is a parameter: on the Red Pitaya it is that of
IEEE 754, and some properties of the server are about its formulas in exact arithmetic.

Main definitions:

* `Afm.Arithmetic` — what becomes of a result that is stored as a `float` or as a `double`;
* `Afm.Arithmetic.exact`, `Afm.Arithmetic.ieee` — exact arithmetic, and that of the processor.

Main results:

* `Afm.Arithmetic.single_nonneg`, `Afm.Arithmetic.double_nonneg` — the sign survives rounding.
-/

import RedPitayaAfm.BinaryFloat

set_option relaxedAutoImplicit false
set_option autoImplicit false

namespace Afm

open BinaryFloat

/-- What becomes of a result that is stored.  Overflow is left to where it can happen. -/
structure Arithmetic where
  /-- Stored as a `float`. -/
  single : ℚ → ℚ
  /-- Stored as a `double`. -/
  double : ℚ → ℚ
  single_mono : Monotone single
  double_mono : Monotone double
  single_eq : ∀ {x}, binary32.Represents x → single x = x
  double_eq : ∀ {x}, binary64.Represents x → double x = x

namespace Arithmetic

/-- Nothing is rounded. -/
def exact : Arithmetic where
  single := id
  double := id
  single_mono := monotone_id
  double_mono := monotone_id
  single_eq _ := rfl
  double_eq _ := rfl

/-- Every result is rounded to the nearest number of its format. -/
def ieee : Arithmetic where
  single := binary32.round
  double := binary64.round
  single_mono := Format.round_mono
  double_mono := Format.round_mono
  single_eq := Format.round_of_represents
  double_eq := Format.round_of_represents

@[simp] theorem exact_single (x : ℚ) : exact.single x = x := rfl

@[simp] theorem exact_double (x : ℚ) : exact.double x = x := rfl

variable (A : Arithmetic)

@[simp] theorem single_zero : A.single 0 = 0 :=
  A.single_eq ⟨0, 0, by decide, by decide, by norm_num⟩

@[simp] theorem double_zero : A.double 0 = 0 :=
  A.double_eq ⟨0, 0, by decide, by decide, by norm_num⟩

theorem single_nonneg {x : ℚ} (h : 0 ≤ x) : 0 ≤ A.single x := by
  rw [← A.single_zero]
  exact A.single_mono h

theorem double_nonneg {x : ℚ} (h : 0 ≤ x) : 0 ≤ A.double x := by
  rw [← A.double_zero]
  exact A.double_mono h

end Arithmetic

end Afm
