/-
**The excitation stays within its amplitude.**

The overdrive check looks at the amplitude of an excitation and at nothing else.  This module says
that this is enough: no sample of a pulse or of a sine is larger than the amplitude, whatever the
other parameters are, and neither is the code that reaches the converter, up to half a step.

Main definitions:

* `Afm.Numerics.overReals` — the elementary functions over the reals;
* `Afm.Excites` — a sample, and its code, within an amplitude.

Main results:

* `Afm.hann_bounds` — the window only attenuates;
* `Afm.SignalGenerator.abs_sincSample_le` — a pulse is largest in its centre;
* `Afm.excitation_bounded` — **every excitation stays within its amplitude**.
-/

import RedPitayaAfm.SignalProcessing
import RedPitayaAfm.DacCodec

set_option relaxedAutoImplicit false
set_option autoImplicit false

namespace Afm

/-- The elementary functions over the reals, with any transform. -/
noncomputable def Numerics.overReals (fft : List ℝ → ℕ → ℝ × ℝ) : Numerics ℝ where
  sin := Real.sin
  cos := Real.cos
  sqrt := Real.sqrt
  atan2 y x := Complex.arg ⟨x, y⟩
  fft := fft

variable {fft : List ℝ → ℕ → ℝ × ℝ}

/-- The window only attenuates. -/
theorem hann_bounds (size i : ℕ) :
    0 ≤ hann (Numerics.overReals fft) size i ∧ hann (Numerics.overReals fft) size i ≤ 1 := by
  obtain ⟨hlow, hhigh⟩ := abs_le.1 (Real.abs_cos_le_one (2 * cPi * i / ((size : ℝ) - 1)))
  have heq : hann (Numerics.overReals fft) size i
      = 1 / 2 * (1 - Real.cos (2 * cPi * i / ((size : ℝ) - 1))) := rfl
  rw [heq]
  constructor <;> linarith

/-- A record under the window stays within a bound. -/
theorem abs_applyHannWindow_le {signal : List ℝ} {bound : ℝ} (h : ∀ v ∈ signal, |v| ≤ bound) :
    ∀ v ∈ applyHannWindow (Numerics.overReals fft) signal, |v| ≤ bound := by
  unfold applyHannWindow
  split
  · exact h
  · intro v hv
    obtain ⟨i, hi, rfl⟩ := List.mem_mapIdx.1 hv
    have hbounds : 0 ≤ hann (Numerics.overReals fft) signal.length i ∧ _ := hann_bounds _ _
    obtain ⟨hlow, hhigh⟩ := hbounds
    have hsample := h signal[i] (List.getElem_mem hi)
    rw [abs_mul, abs_of_nonneg hlow]
    exact (mul_le_of_le_one_right (abs_nonneg _) hhigh).trans hsample

namespace SignalGenerator

variable {g : SignalGenerator ℝ} {amplitude : ℝ}

/-- A pulse is largest in its centre. -/
theorem abs_sincSample_le (h : 0 ≤ amplitude) (numSamples centralFreq bandwidth i : ℕ) :
    |g.sincSample (Numerics.overReals fft) numSamples centralFreq bandwidth amplitude i|
      ≤ amplitude := by
  simp only [sincSample]
  -- the centre has a case of its own in the source
  split
  · rw [abs_of_nonneg h]
  · have hsinc : ∀ x : ℝ, |Real.sin x / x| ≤ 1 := by
      intro x
      rw [abs_div]
      exact div_le_one_of_le₀ Real.abs_sin_le_abs (abs_nonneg x)
    have hproduct : ∀ x y : ℝ, |Real.sin x / x * Real.cos y| ≤ 1 := by
      intro x y
      rw [abs_mul]
      exact mul_le_one₀ (hsinc x) (abs_nonneg _) (Real.abs_cos_le_one y)
    rw [abs_mul, abs_of_nonneg h]
    exact mul_le_of_le_one_right h (hproduct _ _)

/-- The samples of a pulse. -/
theorem abs_sincSignal_le (h : 0 ≤ amplitude) {numSamples centralFreq bandwidth : ℕ}
    {signal : List ℝ} (hsignal : g.generateSincSignal (Numerics.overReals fft) numSamples centralFreq
      bandwidth amplitude = .ok signal) : ∀ v ∈ signal, |v| ≤ amplitude := by
  unfold generateSincSignal at hsignal
  split_ifs at hsignal
  cases hsignal
  refine abs_applyHannWindow_le fun v hv => ?_
  obtain ⟨i, -, rfl⟩ := List.mem_map.1 hv
  exact abs_sincSample_le h _ _ _ _

/-- The samples of a sine. -/
theorem abs_sineWave_le (h : 0 ≤ amplitude) {numSamples : ℕ} {frequency : ℝ} {signal : List ℝ}
    (hsignal : g.generateSineWave (Numerics.overReals fft) numSamples frequency amplitude = .ok signal) :
    ∀ v ∈ signal, |v| ≤ amplitude := by
  unfold generateSineWave at hsignal
  split_ifs at hsignal
  cases hsignal
  intro v hv
  obtain ⟨i, -, rfl⟩ := List.mem_map.1 hv
  rw [abs_mul, abs_of_nonneg h]
  exact mul_le_of_le_one_right h (Real.abs_sin_le_one _)

end SignalGenerator

/-- A sample within an amplitude, whose code is in range, is within the amplitude up to half a step,
and reaches the converter as it is. -/
structure Excites (amplitude v : ℝ) : Prop where
  low : -amplitude ≤ v
  high : v ≤ amplitude
  code_low : -8192 ≤ (DacCodec.voltageToDac v).toInt
  code_high : (DacCodec.voltageToDac v).toInt ≤ 8191
  code : |((DacCodec.voltageToDac v).toInt : ℝ)| ≤ amplitude * 8191.5 + 1 / 2
  converted : (((DacCodec.bramWord v).setWidth 17).setWidth 14).toInt = (DacCodec.voltageToDac v).toInt

theorem excites_of_abs_le {amplitude v : ℝ} (hv : |v| ≤ amplitude) (hamplitude : amplitude ≤ 1) :
    Excites amplitude v := by
  obtain ⟨hlow, hhigh, hcode⟩ := DacCodec.voltageToDac_bounds hv hamplitude
  refine ⟨(abs_le.1 hv).1, (abs_le.1 hv).2, hlow, hhigh, ?_, DacCodec.toInt_code ⟨hlow, hhigh⟩⟩
  have hscale : (16383 : ℝ) / 2 = 8191.5 := by norm_num
  rwa [hscale] at hcode

/-- **Every excitation stays within its amplitude**, whatever its other parameters: no sample of a
pulse or of a sine, and no code that reaches the converter, is larger. -/
theorem excitation_bounded (fft : List ℝ → ℕ → ℝ × ℝ) {g : SignalGenerator ℝ} {numSamples : ℕ} {amplitude : ℝ}
    (hsamples : 1 ≤ numSamples) (hamplitude : 0 < amplitude ∧ amplitude ≤ 1) :
    (∀ centralFreq bandwidth : ℕ, (centralFreq : ℝ) < g.samplingFrequency / 2 → 1 ≤ bandwidth →
      ∃ signal, g.generateSincSignal (Numerics.overReals fft) numSamples centralFreq bandwidth amplitude
          = .ok signal ∧ signal.length = numSamples ∧ ∀ v ∈ signal, Excites amplitude v) ∧
    ∀ frequency : ℝ, 0 ≤ frequency → frequency < g.samplingFrequency / 2 →
      ∃ signal, g.generateSineWave (Numerics.overReals fft) numSamples frequency amplitude
          = .ok signal ∧ signal.length = numSamples ∧ ∀ v ∈ signal, Excites amplitude v := by
  have hpos : numSamples ≠ 0 := by omega
  have hrange : 0 ≤ amplitude ∧ amplitude ≤ 1 := ⟨hamplitude.1.le, hamplitude.2⟩
  constructor
  · intro centralFreq bandwidth hfreq hbandwidth
    obtain ⟨signal, hsignal, hlen⟩ := SignalGenerator.generateSincSignal_eq_ok
      (Numerics.overReals fft) hpos (by omega : bandwidth ≠ 0) hfreq hrange
    exact ⟨signal, hsignal, hlen, fun v hv =>
      excites_of_abs_le (SignalGenerator.abs_sincSignal_le hrange.1 hsignal v hv) hrange.2⟩
  · intro frequency hnonneg hfreq
    obtain ⟨signal, hsignal, hlen⟩ := SignalGenerator.generateSineWave_eq_ok
      (Numerics.overReals fft) hpos hnonneg hfreq hrange
    exact ⟨signal, hsignal, hlen, fun v hv =>
      excites_of_abs_le (SignalGenerator.abs_sineWave_le hrange.1 hsignal v hv) hrange.2⟩

/-- A pulse and a sine of 8192 samples at half the amplitude. -/
theorem excitation_bounded_half :
    (∃ signal, (⟨1953125, 64⟩ : SignalGenerator ℝ).generateSincSignal
        (Numerics.overReals fun _ _ => (0, 0)) 8192 100000 1000 (1 / 2) = .ok signal ∧
      signal.length = 8192 ∧ ∀ v ∈ signal, Excites (1 / 2) v) ∧
    ∃ signal, (⟨1953125, 64⟩ : SignalGenerator ℝ).generateSineWave
        (Numerics.overReals fun _ _ => (0, 0)) 8192 132800 (1 / 2) = .ok signal ∧
      signal.length = 8192 ∧ ∀ v ∈ signal, Excites (1 / 2) v := by
  have hsamples : 1 ≤ 8192 := by norm_num
  have hamplitude : 0 < (1 / 2 : ℝ) ∧ (1 / 2 : ℝ) ≤ 1 := by norm_num
  obtain ⟨hpulse, hsine⟩ :=
    excitation_bounded (g := ⟨1953125, 64⟩) (fun _ _ => (0, 0)) hsamples hamplitude
  exact ⟨hpulse 100000 1000 (by norm_num) (by norm_num),
    hsine 132800 (by norm_num) (by norm_num)⟩

end Afm
