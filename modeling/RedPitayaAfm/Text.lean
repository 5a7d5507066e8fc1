/-
**Texts, and the numbers in them.**

Commands, replies and UART lines are byte strings.  A text is the list of its bytes, each byte
written as the character with that code.  The conversions between numbers and texts are those of
the C++ standard library: `std::to_string` and `std::from_chars` on integers, `strtof`, and the
three floating-point formats of `std::ostream`.  A floating-point value is the rational number that
it stands for.

Main definitions:

* `Afm.Text`, `Afm.upper`, `Afm.isAscii` — byte strings, `toupper` on each byte, 7-bit text;
* `Afm.toText`, `Afm.fromChars` — integers as decimal text and back;
* `Afm.strtof` — the value of a finite decimal floating-point text;
* `Afm.fixed`, `Afm.scientific`, `Afm.general` — `std::fixed`, `std::scientific` and the default
  format at a given precision.

Main results:

* `Afm.natOfDigits_toText` — a printed number reads back as itself;
* `Afm.csvSafe_fixed`, `Afm.csvSafe_scientific` — printed numbers contain no separator.
-/

import RedPitayaAfm.Arithmetic

set_option relaxedAutoImplicit false
set_option autoImplicit false

namespace Afm

open BinaryFloat

/-- A byte string; a byte is the character with its code. -/
abbrev Text := List Char

/-- `std::transform(…, ::toupper)`. -/
def upper (s : Text) : Text := s.map Char.toUpper

/-- Every byte is below 128. -/
def isAscii (s : Text) : Bool := s.all fun c => c.toNat < 128

@[simp] theorem isAscii_nil : isAscii [] = true := rfl

@[simp] theorem isAscii_append (s t : Text) : isAscii (s ++ t) = (isAscii s && isAscii t) := by
  simp [isAscii]

/-! ### Integers -/

/-- `std::to_string` of an unsigned integer. -/
def toText (n : ℕ) : Text := Nat.toDigits 10 n

/-- `std::to_string` of a signed integer. -/
def intToText (n : ℤ) : Text := if n < 0 then '-' :: toText n.natAbs else toText n.natAbs

/-- The value of a text that consists of decimal digits, at least one. -/
def natOfDigits (s : Text) : Option ℕ :=
  if s.isEmpty || !s.all Char.isDigit then none else some (Nat.ofDigitChars 10 s 0)

theorem toText_ne_nil (n : ℕ) : toText n ≠ [] := Nat.toDigits_ne_nil

theorem isDigit_of_mem_toText {n : ℕ} {c : Char} (h : c ∈ toText n) : c.isDigit = true :=
  Nat.isDigit_of_mem_toDigits (by decide) (by decide) h

/-- A printed number reads back as itself. -/
@[simp] theorem natOfDigits_toText (n : ℕ) : natOfDigits (toText n) = some n := by
  have hall : (toText n).all Char.isDigit = true := by
    rw [List.all_eq_true]
    exact fun c hc => isDigit_of_mem_toText hc
  have hne : (toText n).isEmpty = false := by
    simp [toText_ne_nil]
  rw [natOfDigits, hne, hall]
  simp [toText, Nat.ofDigitChars_ten_toDigits]

/-- `std::from_chars` into an `int` over the whole text: an optional minus sign and digits, with a
value that fits. -/
def fromChars (s : Text) : Option ℤ :=
  let value : Option ℤ := match s with
    | '-' :: ds => (natOfDigits ds).map fun n => -(n : ℤ)
    | ds => (natOfDigits ds).map fun n => (n : ℤ)
  value.filter fun v => -2 ^ 31 ≤ v ∧ v < 2 ^ 31

/-! ### Reading a floating-point number -/

/-- `isspace` in the C locale. -/
def isSpace (c : Char) : Bool :=
  c == ' ' || c == '\t' || c == '\n' || c == '\r' || c == Char.ofNat 11 || c == Char.ofNat 12

/-- The digits at the front of a text and what follows them. -/
def takeDigits (s : Text) : Text × Text := s.span Char.isDigit

/-- The exponent part of a number, which must reach the end of the text: nothing, or `e`, a sign
and at least one digit. -/
def exponentOf : Text → Option ℤ
  | [] => some 0
  | e :: s =>
      if e == 'e' || e == 'E' then
        match s with
        | '-' :: ds => (natOfDigits ds).map fun n => -(n : ℤ)
        | '+' :: ds => (natOfDigits ds).map fun n => (n : ℤ)
        | ds => (natOfDigits ds).map fun n => (n : ℤ)
      else none

/-- The value of an unsigned decimal number: digits, an optional fraction, an optional exponent. -/
def decimalOf (s : Text) : Option ℚ :=
  let (whole, s₁) := takeDigits s
  let (frac, s₂) := match s₁ with
    | '.' :: t => takeDigits t
    | t => ([], t)
  if whole.isEmpty && frac.isEmpty then none
  else (exponentOf s₂).map fun e =>
    (Nat.ofDigitChars 10 (whole ++ frac) 0 : ℚ) * 10 ^ (e - (frac.length : ℤ))

/-- From here on a decimal value rounds to infinity as a `float`. -/
def floatOverflow : ℚ := 2 ^ 128 - 2 ^ 103

/-- `strtof` over the whole text when it is a finite decimal number, stored as a `float`.  Infinities
and NaN are not finite, and a value that overflows reads as infinity. -/
def strtof (A : Arithmetic) (s : Text) : Option ℚ :=
  let value : Option ℚ := match s.dropWhile isSpace with
    | '-' :: t => (decimalOf t).map fun q => -q
    | '+' :: t => decimalOf t
    | t => decimalOf t
  (value.filter fun q => |q| < floatOverflow).map A.single

/-! ### Writing a floating-point number -/

/-- `n` with at least `width` digits. -/
def padded (width n : ℕ) : Text := List.replicate (width - (toText n).length) '0' ++ toText n

/-- Digits with a decimal point `k` places from the right. -/
def withPoint (k n : ℕ) : Text :=
  let ds := padded (k + 1) n
  if k = 0 then ds else ds.take (ds.length - k) ++ '.' :: ds.drop (ds.length - k)

/-- The sign of a printed number. -/
def signText (q : ℚ) : Text := if q < 0 then ['-'] else []

/-- `std::fixed << std::setprecision(k)`. -/
def fixed (k : ℕ) (q : ℚ) : Text :=
  signText q ++ withPoint k (roundHalfEven (|q| * 10 ^ k)).toNat

/-- The decimal exponent of a positive number below `10 ^ 40`, found by trying all of them. -/
def decimalExponent (q : ℚ) : ℤ :=
  ((List.range 80).map fun (i : ℕ) => (i : ℤ) - 40).foldl
    (fun (e x : ℤ) => if (10 : ℚ) ^ x ≤ q then x else e) (-40 : ℤ)

/-- Mantissa digits (`k + 1` of them) and exponent of a number after rounding. -/
def mantissa (k : ℕ) (q : ℚ) : ℕ × ℤ :=
  if q = 0 then (0, 0)
  else
    let e := decimalExponent |q|
    let m := (roundHalfEven (|q| * 10 ^ ((k : ℤ) - e))).toNat
    if m = 10 ^ (k + 1) then (10 ^ k, e + 1) else (m, e)

/-- The exponent as `e`, a sign and at least two digits. -/
def exponentText (e : ℤ) : Text :=
  'e' :: (if e < 0 then '-' else '+') :: padded 2 e.natAbs

/-- `std::scientific << std::setprecision(k)`. -/
def scientific (k : ℕ) (q : ℚ) : Text :=
  signText q ++ withPoint k (mantissa k q).1 ++ exponentText (mantissa k q).2

/-- Drop trailing zeros and a trailing point, as the default format does. -/
def stripZeros (s : Text) : Text :=
  if s.contains '.' then
    let t := (s.reverse.dropWhile (· == '0')).reverse
    if t.getLast? = some '.' then t.dropLast else t
  else s

/-- The default format at precision `k`: fixed notation for moderate exponents, else scientific,
without trailing zeros. -/
def general (k : ℕ) (q : ℚ) : Text :=
  let (m, e) := mantissa (k - 1) q
  if -4 ≤ e ∧ e < k then
    signText q ++ stripZeros (withPoint (k - 1 - e).toNat m)
  else signText q ++ stripZeros (withPoint (k - 1) m) ++ exponentText e

/-! ### Printed numbers carry no separator -/

/-- A field of a comma-separated row: ASCII, not empty, with no comma, return or newline in it. -/
def CsvSafe (s : Text) : Prop :=
  s ≠ [] ∧ ∀ c ∈ s, c.toNat < 128 ∧ c ≠ ',' ∧ c ≠ '\r' ∧ c ≠ '\n'

/-- The characters a number can be printed with. -/
def numberChar (c : Char) : Bool :=
  c.isDigit || c == '-' || c == '+' || c == '.' || c == 'e'

theorem csvSafe_of_numberChar {s : Text} (hne : s ≠ []) (h : ∀ c ∈ s, numberChar c = true) :
    CsvSafe s := by
  refine ⟨hne, fun c hc => ?_⟩
  have hn := h c hc
  simp only [numberChar, Char.isDigit, Bool.or_eq_true, Bool.and_eq_true, decide_eq_true_eq,
    beq_iff_eq] at hn
  rcases hn with (((⟨h₁, h₂⟩ | rfl) | rfl) | rfl) | rfl
  · have h₁' : 48 ≤ c.toNat := h₁
    have h₂' : c.toNat ≤ 57 := h₂
    refine ⟨by omega, ?_, ?_, ?_⟩ <;> rintro rfl <;> simp at h₁' h₂'
  all_goals decide

theorem numberChar_of_mem_padded {w n : ℕ} {c : Char} (h : c ∈ padded w n) :
    numberChar c = true := by
  rcases List.mem_append.1 h with h | h
  · obtain rfl := List.eq_of_mem_replicate h
    rfl
  · simp [numberChar, isDigit_of_mem_toText h]

theorem padded_ne_nil (w n : ℕ) : padded w n ≠ [] := by
  simp [padded, toText_ne_nil]

theorem numberChar_of_mem_withPoint {k n : ℕ} {c : Char} (h : c ∈ withPoint k n) :
    numberChar c = true := by
  unfold withPoint at h
  split at h
  · exact numberChar_of_mem_padded h
  · rcases List.mem_append.1 h with h | h
    · exact numberChar_of_mem_padded (List.mem_of_mem_take h)
    · rcases List.mem_cons.1 h with rfl | h
      · rfl
      · exact numberChar_of_mem_padded (List.mem_of_mem_drop h)

theorem withPoint_ne_nil (k n : ℕ) : withPoint k n ≠ [] := by
  unfold withPoint
  split
  · exact padded_ne_nil _ _
  · simp

theorem numberChar_of_mem_signText {q : ℚ} {c : Char} (h : c ∈ signText q) :
    numberChar c = true := by
  unfold signText at h
  split at h
  · obtain rfl := List.mem_singleton.1 h
    rfl
  · cases h

theorem numberChar_of_mem_fixed {k : ℕ} {q : ℚ} {c : Char} (h : c ∈ fixed k q) :
    numberChar c = true := by
  rcases List.mem_append.1 h with h | h
  · exact numberChar_of_mem_signText h
  · exact numberChar_of_mem_withPoint h

theorem csvSafe_fixed (k : ℕ) (q : ℚ) : CsvSafe (fixed k q) :=
  csvSafe_of_numberChar (by simp [fixed, withPoint_ne_nil]) fun _ hc => numberChar_of_mem_fixed hc

theorem csvSafe_scientific (k : ℕ) (q : ℚ) : CsvSafe (scientific k q) := by
  refine csvSafe_of_numberChar (by simp [scientific, withPoint_ne_nil]) fun c hc => ?_
  rcases List.mem_append.1 hc with hc | hc
  · rcases List.mem_append.1 hc with hc | hc
    · exact numberChar_of_mem_signText hc
    · exact numberChar_of_mem_withPoint hc
  · unfold exponentText at hc
    rcases List.mem_cons.1 hc with rfl | hc
    · rfl
    rcases List.mem_cons.1 hc with rfl | hc
    · split <;> rfl
    · exact numberChar_of_mem_padded hc

end Afm
