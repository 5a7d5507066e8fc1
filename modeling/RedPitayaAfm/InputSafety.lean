/-
**The peak at the ADC input.**

The excitation leaves the DAC, passes the amplifier of the board input it is connected to, comes
back from the sample scaled by the declared sample gain, passes a second amplifier and reaches the
ADC.  `InputSafety.h` estimates the peak there; both stages clip at the rails of the board.

Main definitions:

* `Afm.InputSafety.boardDrivePeak`, `Afm.InputSafety.estimateAdcPeak` — the estimate;
* `Afm.InputSafety.highestSafe` and its members — the highest gain that does not overdrive;
* `Afm.InputSafety.loopPeak` — the peak of a loop, direct or through the sample.

Main results:

* `Afm.InputSafety.loopPeak_mono` — the peak grows with both gains;
* `Afm.InputSafety.highestSafe_spec` — the search finds the highest gain of all.
-/

import RedPitayaAfm.Arithmetic
import RedPitayaAfm.Board

set_option relaxedAutoImplicit false
set_option autoImplicit false

namespace Afm

/-- A channel of the board, from zero. -/
abbrev Channel := Fin 4

instance neZero_channels : NeZero 4 := ⟨by decide⟩

namespace InputSafety

/-- `ADC_FULL_SCALE` -/
def adcFullScale : ℚ := 1

/-- `DAC_FULL_SCALE` -/
def dacFullScale : ℚ := 1

/-- `BOARD_RAIL_VOLTAGE` -/
def boardRailVoltage : ℚ := 105 / 10

/-- `DAC_LINK_INPUT`: board input IN1. -/
def dacLinkInput : Channel := 0

/-- `ADC_LINK_OUTPUT`: board output OUT1. -/
def adcLinkOutput : Channel := 0

section Estimate

variable (A : Arithmetic)

/-- `MIN_SAMPLE_GAIN`, a constant that is no number of its format. -/
def minSampleGain : ℚ := A.single (1 / 1000000)

/-- `MAX_SAMPLE_GAIN` -/
def maxSampleGain : ℚ := 1000

/-- A stage of the board clips at its rail. -/
def clip (peak : ℚ) : ℚ := if boardRailVoltage < peak then boardRailVoltage else peak

/-- `boardDrivePeak` -/
def boardDrivePeak (amplitude : ℚ) (exciteGain : GainSetting) : ℚ :=
  clip (A.single (A.single (amplitude * dacFullScale) * exciteGain.factor))

/-- `estimateAdcPeak` -/
def estimateAdcPeak (amplitude : ℚ) (exciteGain returnGain : GainSetting) (sampleGain : ℚ) : ℚ :=
  clip (A.single (A.single (boardDrivePeak A amplitude exciteGain * sampleGain) * returnGain.factor))

/-- `isOverdrive` -/
def isOverdrive (amplitude : ℚ) (exciteGain returnGain : GainSetting) (sampleGain : ℚ) : Bool :=
  adcFullScale < estimateAdcPeak A amplitude exciteGain returnGain sampleGain

/-- The search for the highest gain: up from the lowest index, to the first that overdrives. -/
def highestSafe (overdrives : GainSetting → Bool) : Option GainSetting :=
  (((List.range (maxGainIndex + 1)).map GainSetting.ofIndex).takeWhile
    fun g => !overdrives g).getLast?

/-- `maxSafeReturnGain` -/
def maxSafeReturnGain (amplitude : ℚ) (exciteGain : GainSetting) (sampleGain : ℚ) :
    Option GainSetting :=
  highestSafe fun candidate => isOverdrive A amplitude exciteGain candidate sampleGain

/-- `maxSafeExciteGain` -/
def maxSafeExciteGain (amplitude : ℚ) (returnGain : GainSetting) (sampleGain : ℚ) :
    Option GainSetting :=
  highestSafe fun candidate => isOverdrive A amplitude candidate returnGain sampleGain

/-- `maxSafeDirectGain` -/
def maxSafeDirectGain (amplitude : ℚ) : Option GainSetting :=
  highestSafe fun candidate => adcFullScale < boardDrivePeak A amplitude candidate

/-- The peak of the loop from one input back to another.  An input that is connected to the ADC
directly passes one stage only. -/
def loopPeak (amplitude sampleGain : ℚ) (gains : Channel → GainSetting)
    (exciteChannel returnChannel : Channel) : ℚ :=
  if exciteChannel = returnChannel then boardDrivePeak A amplitude (gains exciteChannel)
  else estimateAdcPeak A amplitude (gains exciteChannel) (gains returnChannel) sampleGain

end Estimate

/-! ### The estimate grows with the gains -/

theorem clip_eq_min (peak : ℚ) : clip peak = min peak boardRailVoltage := by
  unfold clip
  by_cases h : boardRailVoltage < peak
  · rw [if_pos h, min_eq_right (le_of_lt h)]
  · rw [if_neg h, min_eq_left (not_lt.1 h)]

theorem clip_mono {p q : ℚ} (h : p ≤ q) : clip p ≤ clip q := by
  rw [clip_eq_min, clip_eq_min]
  exact min_le_min_right _ h

theorem clip_nonneg {p : ℚ} (h : 0 ≤ p) : 0 ≤ clip p := by
  rw [clip_eq_min]
  exact le_min h (by unfold boardRailVoltage; norm_num)

section Monotone

variable {A : Arithmetic} {amplitude sampleGain : ℚ}

theorem drive_nonneg (h : 0 ≤ amplitude) : 0 ≤ A.single (amplitude * dacFullScale) :=
  A.single_nonneg (mul_nonneg h (by unfold dacFullScale; norm_num))

theorem boardDrivePeak_nonneg (h : 0 ≤ amplitude) (g : GainSetting) :
    0 ≤ boardDrivePeak A amplitude g :=
  clip_nonneg (A.single_nonneg (mul_nonneg (drive_nonneg h) (le_of_lt g.factor_pos)))

theorem boardDrivePeak_mono (h : 0 ≤ amplitude) {g g' : GainSetting}
    (hg : g.factor ≤ g'.factor) : boardDrivePeak A amplitude g ≤ boardDrivePeak A amplitude g' :=
  clip_mono (A.single_mono (mul_le_mul_of_nonneg_left hg (drive_nonneg h)))

theorem estimateAdcPeak_nonneg (h : 0 ≤ amplitude) (hs : 0 ≤ sampleGain) (e r : GainSetting) :
    0 ≤ estimateAdcPeak A amplitude e r sampleGain := by
  have hdrive := A.single_nonneg (mul_nonneg (boardDrivePeak_nonneg (A := A) h e) hs)
  exact clip_nonneg (A.single_nonneg (mul_nonneg hdrive (le_of_lt r.factor_pos)))

theorem estimateAdcPeak_mono (h : 0 ≤ amplitude) (hs : 0 ≤ sampleGain)
    {e e' r r' : GainSetting} (he : e.factor ≤ e'.factor) (hr : r.factor ≤ r'.factor) :
    estimateAdcPeak A amplitude e r sampleGain ≤ estimateAdcPeak A amplitude e' r' sampleGain := by
  have hdrive : A.single (boardDrivePeak A amplitude e * sampleGain)
      ≤ A.single (boardDrivePeak A amplitude e' * sampleGain) :=
    A.single_mono (mul_le_mul_of_nonneg_right (boardDrivePeak_mono h he) hs)
  have hpos : 0 ≤ A.single (boardDrivePeak A amplitude e' * sampleGain) :=
    A.single_nonneg (mul_nonneg (boardDrivePeak_nonneg h e') hs)
  exact clip_mono (A.single_mono (mul_le_mul hdrive hr (le_of_lt r.factor_pos) hpos))

/-- **The peak grows with both gains.** -/
theorem loopPeak_mono (h : 0 ≤ amplitude) (hs : 0 ≤ sampleGain)
    {gains gains' : Channel → GainSetting} {e r : Channel}
    (he : (gains e).factor ≤ (gains' e).factor) (hr : (gains r).factor ≤ (gains' r).factor) :
    loopPeak A amplitude sampleGain gains e r ≤ loopPeak A amplitude sampleGain gains' e r := by
  unfold loopPeak
  by_cases her : e = r
  · rw [if_pos her, if_pos her]
    exact boardDrivePeak_mono h he
  · rw [if_neg her, if_neg her]
    exact estimateAdcPeak_mono h hs he hr

theorem loopPeak_nonneg (h : 0 ≤ amplitude) (hs : 0 ≤ sampleGain)
    (gains : Channel → GainSetting) (e r : Channel) :
    0 ≤ loopPeak A amplitude sampleGain gains e r := by
  unfold loopPeak
  by_cases her : e = r
  · rw [if_pos her]
    exact boardDrivePeak_nonneg h _
  · rw [if_neg her]
    exact estimateAdcPeak_nonneg h hs _ _

end Monotone

theorem clip_le (peak : ℚ) : clip peak ≤ peak := by
  rw [clip_eq_min]
  exact min_le_left _ _

theorem boardDrivePeak_le (amplitude : ℚ) (g : GainSetting) :
    boardDrivePeak .exact amplitude g ≤ amplitude * (dacFullScale * g.factor) := by
  have h : boardDrivePeak .exact amplitude g ≤ amplitude * dacFullScale * g.factor := clip_le _
  rwa [mul_assoc] at h

/-- Without clipping the peak would be the product of all gains. -/
theorem estimateAdcPeak_le {sampleGain : ℚ} (hs : 0 ≤ sampleGain) (amplitude : ℚ)
    (e r : GainSetting) :
    estimateAdcPeak .exact amplitude e r sampleGain
      ≤ amplitude * (dacFullScale * e.factor * (sampleGain * r.factor)) := by
  have hgain : 0 ≤ sampleGain * r.factor := mul_nonneg hs r.factor_pos.le
  calc estimateAdcPeak .exact amplitude e r sampleGain
      ≤ boardDrivePeak .exact amplitude e * sampleGain * r.factor := clip_le _
    _ = boardDrivePeak .exact amplitude e * (sampleGain * r.factor) := by ring
    _ ≤ amplitude * (dacFullScale * e.factor) * (sampleGain * r.factor) :=
        mul_le_mul_of_nonneg_right (boardDrivePeak_le amplitude e) hgain
    _ = amplitude * (dacFullScale * e.factor * (sampleGain * r.factor)) := by ring

/-! ### The search for the highest gain -/

/-- The last element of a list before the test fails for the first time, where it fails for good. -/
theorem getLast?_takeWhile {α : Type} {index : α → ℕ} {p : α → Bool} {l : List α}
    (hl : l.Pairwise fun a b => index a ≤ index b)
    (hp : ∀ a b, index a ≤ index b → p b = true → p a = true) :
    match (l.takeWhile p).getLast? with
    | some g => p g = true ∧ ∀ g' ∈ l, p g' = true → index g' ≤ index g
    | none => ∀ g' ∈ l, p g' = false := by
  induction l with
  | nil => simp
  | cons a l ih =>
      obtain ⟨ha, hl⟩ := List.pairwise_cons.1 hl
      have ih := ih hl
      by_cases h : p a = true
      · rw [List.takeWhile_cons_of_pos h, List.getLast?_cons]
        cases hlast : (l.takeWhile p).getLast? with
        | none =>
            rw [hlast] at ih
            refine ⟨h, ?_⟩
            intro g' hg' hpg'
            rcases List.mem_cons.1 hg' with rfl | hg'
            · exact le_refl _
            · rw [ih g' hg'] at hpg'
              cases hpg'
        | some g =>
            rw [hlast] at ih
            -- the first element is in order before the last one that passes
            have hmem : g ∈ l := (List.takeWhile_sublist p).subset (List.mem_of_getLast? hlast)
            refine ⟨ih.1, ?_⟩
            intro g' hg' hpg'
            rcases List.mem_cons.1 hg' with rfl | hg'
            · exact ha g hmem
            · exact ih.2 g' hg' hpg'
      · rw [List.takeWhile_cons_of_neg h]
        intro g' hg'
        by_contra hpg'
        rcases List.mem_cons.1 hg' with rfl | hg'
        · exact h (by simpa using hpg')
        · exact h (hp a g' (ha g' hg') (by simpa using hpg'))

/-- **The search finds the highest gain of all** that does not overdrive, if a higher gain is never
better. -/
theorem highestSafe_spec {overdrives : GainSetting → Bool}
    (hmono : ∀ g g' : GainSetting, g.toIndex ≤ g'.toIndex → overdrives g = true →
      overdrives g' = true) :
    match highestSafe overdrives with
    | some g => overdrives g = false ∧ ∀ g', overdrives g' = false → g'.toIndex ≤ g.toIndex
    | none => ∀ g, overdrives g = true := by
  have hsorted : ((List.range (maxGainIndex + 1)).map GainSetting.ofIndex).Pairwise
      fun a b => a.toIndex ≤ b.toIndex := by decide
  have hall : ∀ g : GainSetting, g ∈ (List.range (maxGainIndex + 1)).map GainSetting.ofIndex := by
    intro g
    cases g <;> decide
  have hspec := getLast?_takeWhile (p := fun g => !overdrives g) hsorted ?_
  · unfold highestSafe
    cases hlast : (((List.range (maxGainIndex + 1)).map GainSetting.ofIndex).takeWhile
        fun g => !overdrives g).getLast? with
    | some g =>
        rw [hlast] at hspec
        exact ⟨by simpa using hspec.1, fun g' hg' => hspec.2 g' (hall g') (by simpa using hg')⟩
    | none =>
        rw [hlast] at hspec
        exact fun g => by simpa using hspec g (hall g)
  · intro a b hab hb
    by_contra ha
    have hover := hmono a b hab (by simpa using ha)
    simp [hover] at hb

end InputSafety

end Afm
