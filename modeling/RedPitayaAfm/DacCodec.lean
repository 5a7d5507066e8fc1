/-
**Codes and voltages.**

`DacCodec` turns the voltages of an excitation into codes of the converter, and the words of an
acquisition back into voltages.  A word holds a 14-bit code and, below it, the precision gained by
averaging; how many bits that are is computed by the averager from the decimation, and hard-coded in
the driver.  Voltages are numbers of an ordered field, so that the only thing missing from them is
the rounding of the binary formats; there is no NaN among them.

Main definitions:

* `Afm.DacCodec.voltageToDac`, `Afm.DacCodec.adcToVoltage` — the two conversions;
* `Afm.DacCodec.lround` — rounding to the nearest integer, halves away from zero.

Main results:

* `Afm.DacCodec.voltageToDac_bounds`, `Afm.DacCodec.toInt_code` — a code is as large as its voltage,
  up to half a step, and reaches the converter;
* `Afm.DacCodec.signedValue_setWidth` — the driver extends the sign of a code;
* `Afm.DacCodec.adcToVoltage_word` — the voltage of a word is its signed value, scaled;
* `Afm.DacCodec.adcToVoltage_average` — **the driver reads what the averager has written**, at every
  decimation.
-/

import RedPitayaAfm.Averaging

set_option relaxedAutoImplicit false
set_option autoImplicit false

namespace Afm

namespace DacCodec

open Fpga

/-- `MAX_DAC_VALUE` -/
def maxDacValue : ℤ := 8191

/-- `MIN_DAC_VALUE` -/
def minDacValue : ℤ := -8192

section Voltages

variable {K : Type} [Field K] [LinearOrder K] [FloorRing K]

/-- `std::lround` -/
def lround (v : K) : ℤ := if 0 ≤ v then ⌊v + 1 / (2 : ℕ)⌋ else -⌊1 / (2 : ℕ) - v⌋

/-- `voltageToDAC` -/
def voltageToDac (voltage : K) : BitVec 16 :=
  let voltage := if 1 < voltage then 1 else voltage
  let voltage := if voltage < -1 then -1 else voltage
  let scale : K := ((maxDacValue - minDacValue : ℤ) : K) / (2 : ℕ)
  let value := lround (voltage * scale)
  let value := if maxDacValue < value then maxDacValue else value
  let value := if value < minDacValue then minDacValue else value
  BitVec.ofInt 16 value

/-- What `loadGenerationSignal` writes for a sample: the code, converted to an unsigned word. -/
def bramWord (voltage : K) : BitVec 32 := (voltageToDac voltage).signExtend 32

/-- The 14-bit code in the upper bits, with its sign. -/
def signedValue (value14bit : BitVec 16) : BitVec 16 :=
  if value14bit &&& 0x2000 ≠ 0 then value14bit ||| 0xC000 else value14bit

/-- The number of precision bits the driver expects. -/
def precisionBits (decimation : ℕ) : ℕ := if decimation < 64 then 2 else 3

/-- `adcToVoltage` -/
def adcToVoltage (rawValue : BitVec 32) (decimation : ℕ) : K :=
  let precisionMask : BitVec 8 := (1 <<< precisionBits decimation) - 1
  let precision : BitVec 8 := (rawValue &&& precisionMask.setWidth 32).setWidth 8
  let value14bit : BitVec 16 := ((rawValue >>> precisionBits decimation) &&& 0x3FFF).setWidth 16
  let voltage : K := ((signedValue value14bit).toInt : K) / (maxDacValue : K)
  let lsbVoltage : K := 1 / (maxDacValue : K)
  let precisionFraction : K := (precision.toNat : K) / (1 <<< precisionBits decimation : ℕ)
  voltage + precisionFraction * lsbVoltage

end Voltages

/-! ### Codes -/

section Codes

variable {K : Type} [Field K] [LinearOrder K] [IsStrictOrderedRing K] [FloorRing K]

/-- Rounding adds at most a half. -/
theorem abs_lround_le (v : K) : |(lround v : K)| ≤ |v| + 1 / 2 := by
  simp only [lround, Nat.cast_ofNat]
  -- rounding goes away from zero on both sides
  split
  · rename_i hv
    have hfloor : (0 : ℤ) ≤ ⌊v + 1 / 2⌋ := Int.floor_nonneg.2 (by positivity)
    rw [abs_of_nonneg (by exact_mod_cast hfloor), abs_of_nonneg hv]
    exact Int.floor_le _
  · rename_i hv
    have hv : v < 0 := not_le.1 hv
    have hfloor : (0 : ℤ) ≤ ⌊1 / 2 - v⌋ := Int.floor_nonneg.2 (by linarith)
    rw [Int.cast_neg, abs_neg, abs_of_nonneg (by exact_mod_cast hfloor), abs_of_neg hv]
    calc (⌊1 / 2 - v⌋ : K) ≤ 1 / 2 - v := Int.floor_le _
      _ = -v + 1 / 2 := by ring

/-- The code of a voltage that is not clamped. -/
theorem toInt_voltageToDac {v : K} (h : |v| ≤ 1) :
    (voltageToDac v).toInt
      = max minDacValue (min maxDacValue (lround (v * (16383 / 2)))) := by
  obtain ⟨hlow, hhigh⟩ := abs_le.1 h
  have hscale : ((maxDacValue - minDacValue : ℤ) : K) / (2 : ℕ) = 16383 / 2 := by
    norm_num [maxDacValue, minDacValue]
  have hclamp : ∀ value : ℤ,
      (let value := if maxDacValue < value then maxDacValue else value
        if value < minDacValue then minDacValue else value)
        = max minDacValue (min maxDacValue value) := by
    intro value
    simp only [maxDacValue, minDacValue]
    split_ifs <;> omega
  simp only [voltageToDac, if_neg (not_lt.2 hhigh), if_neg (not_lt.2 hlow), hscale]
  rw [BitVec.toInt_ofInt, hclamp]
  -- the clamped value fits the signed word, so the cast keeps it
  refine Int.bmod_eq_of_le ?_ ?_
  · simp only [maxDacValue, minDacValue]
    omega
  · simp only [maxDacValue, minDacValue]
    omega

/-- **Codes stay in their range**: a voltage of at most the amplitude gives a code of at most the
amplitude in steps of the converter, up to half a step. -/
theorem voltageToDac_bounds {v amplitude : K} (hv : |v| ≤ amplitude) (hamplitude : amplitude ≤ 1) :
    minDacValue ≤ (voltageToDac v).toInt ∧ (voltageToDac v).toInt ≤ maxDacValue ∧
      |((voltageToDac v).toInt : K)| ≤ amplitude * (16383 / 2) + 1 / 2 := by
  have hround := abs_lround_le (v * (16383 / 2))
  rw [abs_mul, abs_of_pos (show (0 : K) < 16383 / 2 by norm_num)] at hround
  have hle : |v| * (16383 / 2) ≤ amplitude * (16383 / 2) :=
    mul_le_mul_of_nonneg_right hv (by norm_num)
  have hclamp : |max minDacValue (min maxDacValue (lround (v * (16383 / 2))))|
      ≤ |lround (v * (16383 / 2))| := by
    have hself := le_abs_self (lround (v * (16383 / 2)))
    have hneg := neg_abs_le (lround (v * (16383 / 2)))
    simp only [maxDacValue, minDacValue]
    rw [abs_le]
    omega
  rw [toInt_voltageToDac (hv.trans hamplitude)]
  refine ⟨le_max_left _ _, max_le (by decide) (min_le_left _ _), ?_⟩
  calc |((max minDacValue (min maxDacValue (lround (v * (16383 / 2)))) : ℤ) : K)|
      = ((|max minDacValue (min maxDacValue (lround (v * (16383 / 2))))| : ℤ) : K) := by
        rw [Int.cast_abs]
    _ ≤ ((|lround (v * (16383 / 2))| : ℤ) : K) := by exact_mod_cast hclamp
    _ ≤ amplitude * (16383 / 2) + 1 / 2 := by
        rw [Int.cast_abs]
        linarith

omit [IsStrictOrderedRing K] in
/-- The way to the converter keeps a code: the memory holds 17 bits of a word, and the converter
takes 14 of them. -/
theorem toInt_code {v : K} (h : minDacValue ≤ (voltageToDac v).toInt ∧ (voltageToDac v).toInt ≤ maxDacValue) :
    (((bramWord v).setWidth 17).setWidth 14).toInt = (voltageToDac v).toInt := by
  obtain ⟨hlow, hhigh⟩ := h
  simp only [maxDacValue, minDacValue] at hlow hhigh
  have hlt := (voltageToDac v).isLt
  have hextend : (bramWord v).toInt = (voltageToDac v).toInt :=
    BitVec.toInt_signExtend_of_le (by decide)
  rw [BitVec.toInt_eq_toNat_cond] at hextend hlow hhigh ⊢
  rw [BitVec.toInt_eq_toNat_cond (voltageToDac v)] at hextend ⊢
  rw [BitVec.toNat_setWidth, BitVec.toNat_setWidth]
  have hlt' := (bramWord v).isLt
  -- the sign of the code is in bit 13, which both cuts leave in place
  omega

end Codes

/-! ### Words -/

/-- The driver extends the sign of a code. -/
theorem signedValue_setWidth (code : BitVec 14) :
    signedValue (code.setWidth 16) = code.signExtend 16 := by
  -- the bit that is tested is the sign of the code
  have hand : code.setWidth 16 &&& (0x2000 : BitVec 16)
      = if code.msb then BitVec.twoPow 16 13 else 0 := by
    have htwo : (0x2000 : BitVec 16) = BitVec.twoPow 16 13 := by decide
    have hmsb : (code.setWidth 16).getLsbD 13 = code.msb := by
      simp [BitVec.msb_eq_getLsbD_last]
    rw [htwo, BitVec.and_twoPow, hmsb]
    rfl
  rw [signedValue, hand]
  by_cases hmsb : code.msb = true
  · have hne : BitVec.twoPow 16 13 ≠ 0 := by decide
    rw [if_pos hmsb, if_pos hne]
    ext i hi
    interval_cases i <;> simp [BitVec.getElem_signExtend, hmsb]
  · rw [if_neg hmsb, if_neg (by simp)]
    ext i hi
    interval_cases i <;> simp [BitVec.getElem_signExtend, hmsb]

/-- The code above the precision bits of a word. -/
def upperCode (word : BitVec 17) (p : ℕ) : BitVec 14 := (word >>> p).setWidth 14

/-- The code the driver takes out of a word that the bus has extended with zeros. -/
theorem value14bit_word (word : BitVec 17) {p : ℕ} (hp : p = 2 ∨ p = 3) :
    ((word.setWidth 32 >>> p) &&& (0x3FFF : BitVec 32)).setWidth 16
      = (upperCode word p).setWidth 16 := by
  unfold upperCode
  rcases hp with rfl | rfl
  · ext i hi
    interval_cases i <;> simp
  · ext i hi
    interval_cases i <;> simp

/-- The precision bits the driver takes out of a word. -/
theorem precision_word (word : BitVec 17) {p : ℕ} (hp : p = 2 ∨ p = 3) :
    ((word.setWidth 32 &&& ((1 <<< p - 1 : BitVec 8).setWidth 32)).setWidth 8).toNat
      = word.toNat % 2 ^ p := by
  rcases hp with rfl | rfl
  · have hmask : ((1 <<< 2 - 1 : BitVec 8).setWidth 32).toNat = 2 ^ 2 - 1 := by decide
    have hlt := word.isLt
    rw [BitVec.toNat_setWidth, BitVec.toNat_and, hmask, Nat.and_two_pow_sub_one_eq_mod,
      BitVec.toNat_setWidth]
    omega
  · have hmask : ((1 <<< 3 - 1 : BitVec 8).setWidth 32).toNat = 2 ^ 3 - 1 := by decide
    have hlt := word.isLt
    rw [BitVec.toNat_setWidth, BitVec.toNat_and, hmask, Nat.and_two_pow_sub_one_eq_mod,
      BitVec.toNat_setWidth]
    omega

/-- A word is its code and its precision bits. -/
theorem toInt_word {word : BitVec 17} {p : ℕ} (hp : p = 2 ∨ p = 3)
    (hlow : -(2 ^ 13 * 2 ^ p) ≤ word.toInt) (hhigh : word.toInt < 2 ^ 13 * 2 ^ p) :
    word.toInt = (upperCode word p).toInt * 2 ^ p + (word.toNat % 2 ^ p : ℕ) := by
  have hlt := word.isLt
  have hcode : (upperCode word p).toNat = word.toNat / 2 ^ p % 2 ^ 14 := by
    rw [upperCode, BitVec.toNat_setWidth, BitVec.toNat_ushiftRight, Nat.shiftRight_eq_div_pow]
  rw [BitVec.toInt_eq_toNat_cond] at hlow hhigh ⊢
  rw [BitVec.toInt_eq_toNat_cond, hcode]
  -- with the precision a number, both sides are quotient and rest of one division
  rcases hp with rfl | rfl <;> omega

/-- **The voltage of a word** is its signed value in steps of the precision gained. -/
theorem adcToVoltage_word {word : BitVec 17} {decimation : ℕ}
    (hlow : -(2 ^ 13 * 2 ^ precisionBits decimation) ≤ word.toInt)
    (hhigh : word.toInt < 2 ^ 13 * 2 ^ precisionBits decimation) :
    (adcToVoltage (word.setWidth 32) decimation : ℚ)
      = word.toInt / (2 ^ precisionBits decimation * 8191) := by
  obtain ⟨p, hp⟩ : ∃ p, p = precisionBits decimation := ⟨_, rfl⟩
  have hp' : p = 2 ∨ p = 3 := by
    rw [hp, precisionBits]
    split
    · exact .inl rfl
    · exact .inr rfl
  rw [← hp] at hlow hhigh ⊢
  have hsign : ((signedValue ((upperCode word p).setWidth 16)).toInt : ℚ) = (upperCode word p).toInt := by
    rw [signedValue_setWidth, BitVec.toInt_signExtend_of_le (by decide)]
  have hpow : (0 : ℚ) < 2 ^ p := by positivity
  simp only [adcToVoltage, ← hp, value14bit_word word hp', precision_word word hp', hsign]
  rw [toInt_word hp' hlow hhigh, Nat.one_shiftLeft, maxDacValue]
  generalize word.toNat % 2 ^ p = rest
  push_cast
  field_simp

/-- The precision the driver expects is the precision the averager gains. -/
theorem precisionBits_eq {decimation : ℕ} (h : isValidDecimation decimation = true) :
    precisionBits decimation = Nat.log 2 decimation - shiftAmount decimation ∧
      decimation = 2 ^ precisionBits decimation * 2 ^ shiftAmount decimation := by
  -- the valid decimations end at 1024, so they are tried one by one
  have hall : ∀ d ∈ List.range 1025, isValidDecimation d = true →
      precisionBits d = Nat.log2 d - shiftAmount d ∧ d = 2 ^ precisionBits d * 2 ^ shiftAmount d := by
    decide +kernel
  have hrange := le_of_isValidDecimation h
  rw [← Nat.log2_eq_log_two]
  exact hall decimation (List.mem_range.2 (by omega)) h

/-- **The driver reads what the averager has written**: the shifted accumulator, as a word of the
memory extended with zeros by the bus, is decoded to its value in volts. -/
theorem adcToVoltage_average {decimation : ℕ} (h : isValidDecimation decimation = true)
    {acc : BitVec 24} (hlow : -8192 * (decimation : ℤ) ≤ acc.toInt)
    (hhigh : acc.toInt ≤ 8191 * (decimation : ℤ)) :
    (adcToVoltage (((acc.sshiftRight (shiftAmount decimation)).setWidth 17).setWidth 32) decimation : ℚ)
      = ⌊(acc.toInt : ℚ) / 2 ^ shiftAmount decimation⌋
        / (2 ^ (Nat.log 2 decimation - shiftAmount decimation) * 8191) := by
  obtain ⟨hbits, hsize⟩ := precisionBits_eq h
  have hrange := le_of_isValidDecimation h
  have hpos : (0 : ℤ) < 2 ^ shiftAmount decimation := by positivity
  have hsize' : (decimation : ℤ) = 2 ^ precisionBits decimation * 2 ^ shiftAmount decimation := by
    exact_mod_cast hsize
  have hfloor : ⌊(acc.toInt : ℚ) / 2 ^ shiftAmount decimation⌋ = acc.toInt / 2 ^ shiftAmount decimation := by
    have hcast := Rat.floor_intCast_div_natCast acc.toInt (2 ^ shiftAmount decimation)
    push_cast at hcast
    exact hcast
  have hword : ((acc.sshiftRight (shiftAmount decimation)).setWidth 17).toInt
      = acc.toInt / 2 ^ shiftAmount decimation := toInt_average h (by omega) (by omega)
  rw [hfloor, ← hbits, ← hword]
  refine adcToVoltage_word ?_ ?_
  · rw [hword, Int.le_ediv_iff_mul_le hpos, neg_mul, mul_assoc, ← hsize']
    omega
  · rw [hword, Int.ediv_lt_iff_lt_mul hpos, mul_assoc, ← hsize']
    omega

/-- The most negative sum at the smallest decimation is minus the full scale, in steps of the
converter. -/
theorem adcToVoltage_average_min :
    (adcToVoltage ((((BitVec.ofInt 24 (-131072)).sshiftRight (shiftAmount 16)).setWidth 17).setWidth 32)
      16 : ℚ) = -8192 / 8191 := by
  rw [adcToVoltage_average (show isValidDecimation 16 = true by decide) (by decide) (by decide)]
  have hint : (BitVec.ofInt 24 (-131072)).toInt = -131072 := by decide
  have hshift : shiftAmount 16 = 2 := by decide
  have hlog : Nat.log 2 16 = 4 := by
    rw [← Nat.log2_eq_log_two]
    decide
  rw [hint, hshift, hlog]
  norm_num

end DacCodec

end Afm
