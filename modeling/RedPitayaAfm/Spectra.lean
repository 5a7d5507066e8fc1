/-
**What the signal chain computes.**

`MEASURE:SINC` removes the linear phase that its own pulse has in the record.  Two functions must
agree on where the pulse sits: the one that generates it, and the one that corrects the phase.

Main definitions:

* `Afm.RemovesPhase` — the correction of a bin removes the phase of a pulse at a sample.

Main results:

* `Afm.SignalGenerator.sincTime_eq_zero` — where the pulse sits;
* `Afm.removesPhase_iff` — the phase is removed for records of an even size only, up to the bin at
  zero frequency.
-/

import RedPitayaAfm.CommandHandler

set_option relaxedAutoImplicit false
set_option autoImplicit false

namespace Afm

open CommandHandler

/-! ### The linear phase of the pulse -/

theorem cPi_pos : (0 : ℚ) < cPi := by
  unfold cPi
  norm_num

/-- The centre of the pulse. -/
theorem SignalGenerator.sincTime_eq_zero {g : SignalGenerator ℚ} (hf : g.samplingFrequency ≠ 0)
    (hd : g.decimationFactor ≠ 0) (numSamples i : ℕ) :
    g.sincTime numSamples i = 0 ↔ i = numSamples / 2 := by
  have hd' : (g.decimationFactor : ℚ) ≠ 0 := by exact_mod_cast hd
  unfold SignalGenerator.sincTime
  rw [div_eq_zero_iff, mul_eq_zero, mul_eq_zero, sub_eq_zero]
  simp [hf, hd, Nat.cast_inj]

/-- The correction of a bin removes the phase that a pulse at sample `centre` of the excitation has
in the record, up to whole turns. -/
def RemovesPhase (numSamples centre bin : ℕ) : Prop :=
  ∃ turns : ℤ, sincCorrection numSamples bin / (2 * cPi)
    = bin * ((centre : ℚ) - acquisitionDelaySamples) / numSamples + turns

/-- The correction in turns. -/
theorem sincCorrection_turns (numSamples bin : ℕ) :
    sincCorrection numSamples bin / (2 * cPi)
      = bin / 2 - bin * acquisitionDelaySamples / numSamples := by
  have hpi := cPi_pos.ne'
  unfold sincCorrection
  field_simp

/-- What is left of the phase. -/
theorem removesPhase_iff_turns {numSamples centre : ℕ} (hn : 0 < numSamples) (bin : ℕ) :
    RemovesPhase numSamples centre bin ↔
      ∃ turns : ℤ, (bin * (numSamples - 2 * centre) : ℤ) = 2 * numSamples * turns := by
  have hn' : (numSamples : ℚ) ≠ 0 := by exact_mod_cast hn.ne'
  unfold RemovesPhase
  refine exists_congr fun turns => ?_
  rw [sincCorrection_turns]
  have hcast : ((bin * (numSamples - 2 * centre) : ℤ) = 2 * numSamples * turns) ↔
      ((bin : ℚ) * (numSamples - 2 * centre) = 2 * numSamples * turns) := by
    constructor
    · intro h
      exact_mod_cast h
    · intro h
      exact_mod_cast h
  rw [hcast]
  constructor
  · intro h
    field_simp at h
    linarith
  · intro h
    field_simp
    linarith

/-- **The phase is removed** for records of an even size, and otherwise only at zero frequency. -/
theorem removesPhase_iff {g : SignalGenerator ℚ} (hf : 0 < g.samplingFrequency)
    (hd : g.decimationFactor ≠ 0) {numSamples centre bin : ℕ} (hn : 0 < numSamples)
    (hcentre : g.sincTime numSamples centre = 0) (hbin : bin ≤ numSamples / 2) :
    RemovesPhase numSamples centre bin ↔ numSamples % 2 = 0 ∨ bin = 0 := by
  rw [SignalGenerator.sincTime_eq_zero hf.ne' hd] at hcentre
  rw [removesPhase_iff_turns hn, hcentre]
  constructor
  · rintro ⟨turns, hturns⟩
    by_cases heven : numSamples % 2 = 0
    · exact Or.inl heven
    · right
      have hodd : (numSamples : ℤ) - 2 * ((numSamples / 2 : ℕ) : ℤ) = 1 := by omega
      rw [hodd, mul_one] at hturns
      by_contra hzero
      have hpos : 0 < turns := by
        by_contra hle
        have hneg : 2 * (numSamples : ℤ) * turns ≤ 0 :=
          mul_nonpos_of_nonneg_of_nonpos (by omega) (by omega)
        omega
      have hlarge : 2 * (numSamples : ℤ) * 1 ≤ 2 * numSamples * turns :=
        mul_le_mul_of_nonneg_left (by omega) (by omega)
      omega
  · rintro (heven | rfl)
    · refine ⟨0, ?_⟩
      have hzero : (numSamples : ℤ) - 2 * ((numSamples / 2 : ℕ) : ℤ) = 0 := by omega
      rw [hzero, mul_zero, mul_zero]
    · exact ⟨0, by simp⟩

theorem removesPhase_iff_default :
    RemovesPhase 8192 4096 100 ↔ 8192 % 2 = 0 ∨ 100 = 0 :=
  removesPhase_iff (g := ⟨125000000 / 64, 64⟩) (by norm_num) (by norm_num) (by norm_num)
    ((SignalGenerator.sincTime_eq_zero (by norm_num) (by norm_num) _ _).2 rfl)
    (by norm_num)

/-- `MEASURE:SINC` with three samples leaves a sixth of a turn in its second bin. -/
theorem odd_record_keeps_phase :
    (⟨125000000 / 64, 64⟩ : SignalGenerator ℚ).sincTime 3 1 = 0 ∧ ¬RemovesPhase 3 1 1 := by
  refine ⟨by norm_num [SignalGenerator.sincTime], ?_⟩
  rw [removesPhase_iff_turns (by norm_num)]
  rintro ⟨turns, hturns⟩
  omega

end Afm
