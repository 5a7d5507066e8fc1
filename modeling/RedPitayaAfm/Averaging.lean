/-
**What the averager averages.**

The averager adds the codes of a window of `D` and writes the sum, shifted, at the end of the
window.  At the last code of the window the register that is shifted does not hold that code yet,
and the addition of it is overridden by the assignment that clears the register: the word is made of
the first `D - 1` codes.  So a window is averaged as a whole only when its last code is absorbed by
the rounding.  Nothing overflows, and each word is written once.

Main definitions:

* `Afm.Fpga.windowSum` — the sum of consecutive codes;
* `Afm.Fpga.Averager.Acquires` — the registers of the averager after some enabled cycles;
* `Afm.Fpga.Averager.Averages` — a window is averaged as a whole.

Main results:

* `Afm.Fpga.Averager.acquires_acquisition` — the accumulator is exact, and what is written;
* `Afm.Fpga.Averager.averages_iff` — when a window is averaged as a whole.
-/

import RedPitayaAfm.MeasureCtrl

set_option relaxedAutoImplicit false
set_option autoImplicit false

namespace Afm

namespace Fpga

open Clocked

/-! ### Sums of codes -/

/-- The sum of `len` codes from position `start` on. -/
def windowSum (codes : ℕ → Code) (start len : ℕ) : ℤ :=
  ∑ i ∈ Finset.range len, (codes (start + i)).toInt

@[simp] theorem windowSum_zero (codes : ℕ → Code) (start : ℕ) : windowSum codes start 0 = 0 := rfl

theorem windowSum_succ (codes : ℕ → Code) (start len : ℕ) :
    windowSum codes start (len + 1) = windowSum codes start len + (codes (start + len)).toInt :=
  Finset.sum_range_succ _ _

theorem Code.bounds (c : Code) : -2 ^ 13 ≤ c.toInt ∧ c.toInt < 2 ^ 13 := by
  have hle := c.le_toInt
  have hlt := c.toInt_lt
  norm_num at hle hlt ⊢
  exact ⟨hle, hlt⟩

theorem windowSum_bounds (codes : ℕ → Code) (start len : ℕ) :
    -(2 ^ 13 * len : ℤ) ≤ windowSum codes start len ∧ windowSum codes start len ≤ 2 ^ 13 * len := by
  induction len with
  | zero => simp
  | succ len ih =>
      have hcode := Code.bounds (codes (start + len))
      rw [windowSum_succ]
      push_cast
      constructor <;> omega

/-! ### Registers wide enough -/

/-- A sum that fits a register is what the register holds. -/
theorem toInt_add_signExtend {acc : BitVec 24} {c : Code}
    (hlo : -2 ^ 23 ≤ acc.toInt + c.toInt) (hhi : acc.toInt + c.toInt < 2 ^ 23) :
    (acc + c.signExtend 24).toInt = acc.toInt + c.toInt := by
  have hext : (c.signExtend 24).toInt = c.toInt := BitVec.toInt_signExtend_of_le (by omega)
  rw [BitVec.toInt_add, hext]
  exact Int.bmod_eq_of_le (by omega) (by omega)

/-- Dropping the upper bits of a small number does not change it. -/
theorem toInt_setWidth_of_small {x : BitVec 24} (hlo : -2 ^ 16 ≤ x.toInt) (hhi : x.toInt < 2 ^ 16) :
    (x.setWidth 17).toInt = x.toInt := by
  have hmod : (x.toNat : ℤ).bmod (2 ^ 17) = x.toInt.bmod (2 ^ 17) := by
    rw [BitVec.toInt_eq_toNat_bmod, Int.bmod_bmod_of_dvd (by decide)]
  rw [BitVec.toInt_setWidth, hmod]
  exact Int.bmod_eq_of_le (by omega) (by omega)

/-- The precision gained is at most three bits. -/
theorem decimation_le_shift {decimation : ℕ} (h : isValidDecimation decimation = true) :
    decimation ≤ 8 * 2 ^ shiftAmount decimation := by
  have hall : ∀ d ∈ List.range 1025, isValidDecimation d = true → d ≤ 8 * 2 ^ shiftAmount d := by
    decide +kernel
  have hrange := le_of_isValidDecimation h
  exact hall decimation (List.mem_range.2 (by omega)) h

/-- The shifted sum of fewer than `D` codes, as a word. -/
theorem toInt_average {decimation : ℕ} (h : isValidDecimation decimation = true) {acc : BitVec 24}
    (hlo : -(2 ^ 13 * decimation : ℤ) ≤ acc.toInt) (hhi : acc.toInt < 2 ^ 13 * decimation) :
    ((acc.sshiftRight (shiftAmount decimation)).setWidth 17).toInt
      = acc.toInt / 2 ^ shiftAmount decimation := by
  have hshift : (acc.sshiftRight (shiftAmount decimation)).toInt
      = acc.toInt / 2 ^ shiftAmount decimation := by
    rw [BitVec.toInt_sshiftRight, Int.shiftRight_eq_div_pow]
    push_cast
    rfl
  have hpos : (0 : ℤ) < 2 ^ shiftAmount decimation := by positivity
  have hle : (decimation : ℤ) ≤ 8 * 2 ^ shiftAmount decimation := by
    exact_mod_cast decimation_le_shift h
  have hlow : -2 ^ 16 ≤ acc.toInt / 2 ^ shiftAmount decimation := by
    rw [Int.le_ediv_iff_mul_le hpos]
    omega
  have hhigh : acc.toInt / 2 ^ shiftAmount decimation < 2 ^ 16 := by
    rw [Int.ediv_lt_iff_lt_mul hpos]
    omega
  rw [toInt_setWidth_of_small (by rw [hshift]; exact hlow) (by rw [hshift]; exact hhigh), hshift]

namespace Averager

/-! ### An acquisition -/

/-- The states of an averager that is enabled from cycle 0 on, after a disabled cycle. -/
def acquisition (w decimation : ℕ) (x : Averager) (adcData : Code) (codes : ℕ → Code) :
    ℕ → Averager :=
  Clocked.run (fun x code => x.tickWidth w true decimation code)
    (x.tickWidth w false decimation adcData) codes

/-- The registers after `e` enabled cycles: the accumulator holds the codes of the current window,
and the last word written is made of all but the last code of its window. -/
structure Acquires (w decimation : ℕ) (codes : ℕ → Code) (e : ℕ) (x : Averager) : Prop where
  counts : x.Counts w decimation e
  accumulator :
    x.currentAccumulator.toInt = windowSum codes (e / decimation * decimation) (e % decimation)
  bramIn : x.bramWe = true →
    x.bramIn.toInt = windowSum codes ((e / decimation - 1) * decimation) (decimation - 1)
      / 2 ^ shiftAmount decimation

theorem acquires_disabled (w decimation : ℕ) (x : Averager) (adcData : Code) (codes : ℕ → Code) :
    Acquires w decimation codes 0 (x.tickWidth w false decimation adcData) where
  counts := counts_zero w decimation
  accumulator := by
    rw [Nat.zero_mod, windowSum_zero]
    rfl
  bramIn hwe := by cases hwe

/-- One enabled cycle. -/
theorem Acquires.tick {w decimation e : ℕ} {codes : ℕ → Code} {x : Averager}
    (hvalid : isValidDecimation decimation = true) (h : Acquires w decimation codes e x) :
    Acquires w decimation codes (e + 1) (x.tickWidth w true decimation (codes e)) := by
  have hcounts := h.counts.tick hvalid (codes e)
  have hrange := le_of_isValidDecimation hvalid
  have hpos : 0 < decimation := by omega
  have hlt := Nat.mod_lt e hpos
  have hsum := windowSum_bounds codes (e / decimation * decimation) (e % decimation)
  have hcode := Code.bounds (codes e)
  refine ⟨hcounts, ?_, ?_⟩
  · -- The accumulator: cleared at the end of the window, one code more before.
    unfold tickWidth
    rw [if_pos rfl, lastCount_of_valid hvalid, h.counts.sampleCount]
    by_cases hlast : e % decimation = decimation - 1
    · have hmod : (e + 1) % decimation = 0 := by rw [succ_mod hpos, if_pos hlast]
      rw [if_pos hlast, hmod, windowSum_zero]
      rfl
    · have hmod : (e + 1) % decimation = e % decimation + 1 := by rw [succ_mod hpos, if_neg hlast]
      have hdiv : (e + 1) / decimation = e / decimation := by rw [succ_div hpos, if_neg hlast]
      have hindex : e / decimation * decimation + e % decimation = e := Nat.div_add_mod' e decimation
      have hstep : windowSum codes (e / decimation * decimation) (e % decimation + 1)
          = x.currentAccumulator.toInt + (codes e).toInt := by
        rw [windowSum_succ, hindex, h.accumulator]
      rw [if_neg hlast, hmod, hdiv, hstep]
      refine toInt_add_signExtend ?_ ?_ <;> rw [h.accumulator] <;> omega
  · -- The word: what the accumulator held before this edge.
    intro hwe
    rw [hcounts.bramWe, decide_eq_true_eq] at hwe
    have hlast : e % decimation = decimation - 1 := by
      by_contra hne
      have hmod : (e + 1) % decimation = e % decimation + 1 := by rw [succ_mod hpos, if_neg hne]
      omega
    have hdiv : (e + 1) / decimation = e / decimation + 1 := by rw [succ_div hpos, if_pos hlast]
    rw [hlast] at hsum
    have hacc := h.accumulator
    rw [hlast] at hacc
    have hlo : -(2 ^ 13 * decimation : ℤ) ≤ x.currentAccumulator.toInt := by
      rw [hacc]
      omega
    have hhi : x.currentAccumulator.toInt < 2 ^ 13 * decimation := by
      rw [hacc]
      omega
    unfold tickWidth
    rw [if_pos rfl, lastCount_of_valid hvalid, h.counts.sampleCount, if_pos hlast, hdiv,
      Nat.add_sub_cancel, ← hacc]
    exact toInt_average hvalid hlo hhi

/-- **The registers, cycle by cycle.**  In every cycle the accumulator is the exact sum of the codes
it has taken, and every word is exact. -/
theorem acquires_acquisition (w : ℕ) {decimation : ℕ} (hvalid : isValidDecimation decimation = true)
    (x : Averager) (adcData : Code) (codes : ℕ → Code) (e : ℕ) :
    Acquires w decimation codes e (acquisition w decimation x adcData codes e) :=
  (follows_run _ codes).invariant (m := e) (acquires_disabled w decimation x adcData codes)
    (fun _ _ h => h.tick hvalid) e le_rfl

/-! ### A window -/

/-- Window `k` is averaged: no sum overflows, one word is written at the end of the window, at
address `k` modulo the size of the memory, and it is the shifted sum of all codes of the window. -/
structure Averages (w decimation : ℕ) (codes : ℕ → Code) (trace : ℕ → Averager) (k : ℕ) :
    Prop where
  accumulator : ∀ r < decimation,
    (trace (k * decimation + r)).currentAccumulator.toInt = windowSum codes (k * decimation) r
  idle : (trace 0).bramWe = false
  written : ∀ r, 0 < r → r ≤ decimation →
    ((trace (k * decimation + r)).bramWe = true ↔ r = decimation)
  address : (trace ((k + 1) * decimation)).bramAddr = k % 2 ^ w
  word : (trace ((k + 1) * decimation)).bramIn.toInt
    = windowSum codes (k * decimation) decimation / 2 ^ shiftAmount decimation

/-- The last code of window `k` is absorbed when the sum of the others is rounded down. -/
def LastCodeAbsorbed (decimation : ℕ) (codes : ℕ → Code) (k : ℕ) : Prop :=
  let rest := windowSum codes (k * decimation) (decimation - 1) % 2 ^ shiftAmount decimation
  let last := (codes (k * decimation + (decimation - 1))).toInt
  0 ≤ rest + last ∧ rest + last < 2 ^ shiftAmount decimation

instance (decimation : ℕ) (codes : ℕ → Code) (k : ℕ) :
    Decidable (LastCodeAbsorbed decimation codes k) :=
  inferInstanceAs (Decidable (_ ∧ _))

/-- Adding a number does not change a quotient exactly when it stays within the remainder. -/
theorem add_ediv_eq_iff {a b m : ℤ} (hm : 0 < m) :
    (a + b) / m = a / m ↔ 0 ≤ a % m + b ∧ a % m + b < m := by
  have hsplit := Int.mul_ediv_add_emod a m
  have hquot : (a + b) / m = a / m + (a % m + b) / m := by
    have heq : a + b = a % m + b + m * (a / m) := by omega
    rw [heq, Int.add_mul_ediv_left _ _ (by omega), Int.add_comm]
  rw [hquot]
  constructor
  · intro h
    have hzero : (a % m + b) / m = 0 := by omega
    have hmod := Int.mul_ediv_add_emod (a % m + b) m
    have hnonneg := Int.emod_nonneg (a % m + b) (by omega : m ≠ 0)
    have hlt := Int.emod_lt_of_pos (a % m + b) hm
    rw [hzero] at hmod
    omega
  · rintro ⟨hnonneg, hlt⟩
    rw [Int.ediv_eq_zero_of_lt hnonneg hlt]
    omega

/-- **When a window is averaged as a whole.**  After a disabled cycle, window `k` is averaged
exactly when its last code is absorbed by the rounding. -/
theorem averages_iff (w : ℕ) {decimation : ℕ} (hvalid : isValidDecimation decimation = true)
    (x : Averager) (adcData : Code) (codes : ℕ → Code) (k : ℕ) :
    Averages w decimation codes (acquisition w decimation x adcData codes) k
      ↔ LastCodeAbsorbed decimation codes k := by
  have hacquires := acquires_acquisition w hvalid x adcData codes
  have hrange := le_of_isValidDecimation hvalid
  have hpos : 0 < decimation := by omega
  have hend : (k + 1) * decimation / decimation = k + 1 := Nat.mul_div_cancel _ hpos
  have hwe : (acquisition w decimation x adcData codes ((k + 1) * decimation)).bramWe = true := by
    rw [(hacquires _).counts.bramWe, decide_eq_true_eq]
    exact ⟨Nat.mul_pos (Nat.succ_pos k) hpos, Nat.mul_mod_left _ _⟩
  have hword := (hacquires _).bramIn hwe
  have haddr := (hacquires _).counts.bramAddr hwe
  rw [hend, Nat.add_sub_cancel] at hword haddr
  -- the hardware sums all codes but the last one of the window
  have hlen : decimation - 1 + 1 = decimation := by omega
  have hsum : windowSum codes (k * decimation) decimation
      = windowSum codes (k * decimation) (decimation - 1)
        + (codes (k * decimation + (decimation - 1))).toInt := by
    have hsucc := windowSum_succ codes (k * decimation) (decimation - 1)
    rwa [hlen] at hsucc
  have hiff := add_ediv_eq_iff (a := windowSum codes (k * decimation) (decimation - 1))
    (b := (codes (k * decimation + (decimation - 1))).toInt)
    (m := 2 ^ shiftAmount decimation) (by positivity)
  rw [← hsum] at hiff
  refine ⟨fun h => hiff.1 (h.word.symm.trans hword), fun h => ⟨?_, rfl, ?_, haddr, ?_⟩⟩
  · intro r hr
    have hdivmod := (mod_div_eq_iff hr (k * decimation + r) k).2 rfl
    have hacc := (hacquires (k * decimation + r)).accumulator
    rwa [hdivmod.1, hdivmod.2] at hacc
  · intro r hr hle
    rw [(hacquires _).counts.bramWe, decide_eq_true_eq, Nat.mul_add_mod_self_right]
    constructor
    · rintro ⟨-, hmod⟩
      by_contra hne
      rw [Nat.mod_eq_of_lt (by omega)] at hmod
      omega
    · rintro rfl
      exact ⟨by omega, Nat.mod_self _⟩
  · rw [hword, hiff.2 h]

/-- A pulse at the start of a window is averaged as it should be. -/
theorem averages_pulse :
    Averages 16 16 (fun n => if n % 16 = 0 then 1000 else 0)
      (acquisition 16 16 {} 0 fun n => if n % 16 = 0 then 1000 else 0) 3 :=
  (averages_iff 16 (by decide) {} 0 (fun n => if n % 16 = 0 then 1000 else 0) 3).2
    (by decide +kernel)

/-- A constant input of 1000 is averaged to 937.5 instead: the word has two fractional bits. -/
theorem constant_attenuated :
    (acquisition 16 16 {} 0 (fun _ => 1000) 16).bramIn.toInt = 3750 ∧
      windowSum (fun _ => 1000) 0 16 / 2 ^ shiftAmount 16 = 4000 ∧
      ¬Averages 16 16 (fun _ => 1000) (acquisition 16 16 {} 0 fun _ => 1000) 0 := by
  have hword : (acquisition 16 16 {} 0 (fun _ => 1000) 16).bramIn.toInt = 3750 := by
    decide +kernel
  have hsum : windowSum (fun _ => 1000) 0 16 / 2 ^ shiftAmount 16 = 4000 := by decide +kernel
  refine ⟨hword, hsum, ?_⟩
  intro h
  have hbad := h.word
  rw [Nat.zero_add, Nat.one_mul, Nat.zero_mul, hword, hsum] at hbad
  omega

end Averager

end Fpga

end Afm
