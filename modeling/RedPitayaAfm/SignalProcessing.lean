/-
**Excitation signals and spectra.**

The signal chain of the server: `SignalGenerator`, `FFTProcessor`, `SaturationDetector` and
`SineFit`.  The numbers are an arbitrary ordered field; the elementary functions and the transform
of the FFT library are parameters.

Main definitions:

* `Afm.Numerics` — the elementary functions and the transform;
* `Afm.SignalGenerator`, `Afm.SignalGenerator.generateSincSignal`,
  `Afm.SignalGenerator.generateSineWave` — the excitation;
* `Afm.FFTProcessor.frequencyAxis`, `Afm.magnitudeSpectrum`, `Afm.phaseSpectrum` — the spectrum;
* `Afm.SaturationDetector.analyze`, `Afm.SineFit.fit` — what else is read from a record.

Main results:

* `Afm.SignalGenerator.generateSincSignal_eq_ok`, `Afm.SignalGenerator.generateSineWave_eq_ok` —
  the generators accept what their checks allow.
-/

import RedPitayaAfm.Text

set_option relaxedAutoImplicit false
set_option autoImplicit false

namespace Afm

/-! ### Numbers -/

/-- What the signal chain takes from the mathematical library and from the FFT library. -/
structure Numerics (K : Type) where
  sin : K → K
  cos : K → K
  sqrt : K → K
  atan2 : K → K → K
  /-- `fftwf_execute`: real and imaginary part of a bin of a record. -/
  fft : List K → ℕ → K × K

section Chain

variable {K : Type} [Field K] [LinearOrder K] (N : Numerics K)

/-- `c_Pi` -/
def cPi : K := 314159265358979323846 / 100000000000000000000

/-- The Hann window at sample `i` of `size`. -/
def hann (size i : ℕ) : K := 1 / 2 * (1 - N.cos (2 * cPi * i / ((size : K) - 1)))

/-- A record under the Hann window; a record of one sample is left alone. -/
def applyHannWindow (signal : List K) : List K :=
  if signal.length < 2 then signal
  else signal.mapIdx fun i x => x * hann N signal.length i

omit [LinearOrder K] in
@[simp] theorem length_applyHannWindow (signal : List K) :
    (applyHannWindow N signal).length = signal.length := by
  unfold applyHannWindow
  split <;> simp

/-! ### Excitation -/

/-- `SignalGenerator` -/
structure SignalGenerator (K : Type) where
  samplingFrequency : K
  decimationFactor : ℕ
  deriving DecidableEq

namespace SignalGenerator

/-- The constructor.  The sampling frequency belonging to decimation zero is infinite in the
source, so that the check of the decimation is the one that fails. -/
def make (samplingFrequency : K) (decimationFactor : ℕ) : Except Text (SignalGenerator K) :=
  if decimationFactor = 0 then .error "Decimation factor must be non-zero".toList
  else if samplingFrequency ≤ 0 then .error "Sampling frequency must be positive".toList
  else .ok { samplingFrequency := samplingFrequency, decimationFactor := decimationFactor }

variable (g : SignalGenerator K)

/-- The time of sample `i`, seen from the centre of the pulse. -/
def sincTime (numSamples i : ℕ) : K :=
  ((i : K) - ((numSamples / 2 : ℕ) : K)) * g.decimationFactor
    / (g.samplingFrequency * g.decimationFactor)

/-- Sample `i` of the pulse, before the window. -/
def sincSample (numSamples centralFreq bandwidth : ℕ) (amplitude : K) (i : ℕ) : K :=
  let t := g.sincTime numSamples i
  if t = 0 then amplitude
  else
    let sincArg := cPi * t * bandwidth
    let carrierArg := 2 * cPi * centralFreq * t
    amplitude * (N.sin sincArg / sincArg * N.cos carrierArg)

/-- `generateSincSignal` -/
def generateSincSignal (numSamples centralFreq bandwidth : ℕ) (amplitude : K) :
    Except Text (List K) :=
  if numSamples = 0 then .error "Number of samples must be positive".toList
  else if bandwidth = 0 then .error "Bandwidth must be positive".toList
  else if g.samplingFrequency / 2 ≤ centralFreq then
    .error "Central frequency must be less than Nyquist frequency".toList
  else if amplitude < 0 ∨ 1 < amplitude then .error "Amplitude must be between 0.0 and 1.0".toList
  else .ok (applyHannWindow N
    ((List.range numSamples).map (g.sincSample N numSamples centralFreq bandwidth amplitude)))

/-- `generateSineWave` -/
def generateSineWave (numSamples : ℕ) (frequency amplitude : K) : Except Text (List K) :=
  if numSamples = 0 then .error "Number of samples must be positive".toList
  else if frequency < 0 then .error "Frequency must be non-negative".toList
  else if g.samplingFrequency / 2 ≤ frequency then
    .error "Frequency must be less than Nyquist frequency".toList
  else if amplitude < 0 ∨ 1 < amplitude then .error "Amplitude must be between 0.0 and 1.0".toList
  else .ok ((List.range numSamples).map fun i =>
    amplitude * N.sin (2 * cPi * frequency * (i / g.samplingFrequency)))

variable {g}

theorem make_eq_ok {samplingFrequency : K} {decimationFactor : ℕ} (hd : decimationFactor ≠ 0)
    (hs : 0 < samplingFrequency) :
    make samplingFrequency decimationFactor = .ok ⟨samplingFrequency, decimationFactor⟩ := by
  rw [make, if_neg hd, if_neg (not_le.2 hs)]

/-- The generator accepts what its checks allow. -/
theorem generateSincSignal_eq_ok {numSamples centralFreq bandwidth : ℕ} {amplitude : K}
    (hn : numSamples ≠ 0) (hb : bandwidth ≠ 0) (hc : (centralFreq : K) < g.samplingFrequency / 2)
    (ha : 0 ≤ amplitude ∧ amplitude ≤ 1) :
    ∃ signal, g.generateSincSignal N numSamples centralFreq bandwidth amplitude = .ok signal ∧
      signal.length = numSamples := by
  have hamp : ¬(amplitude < 0 ∨ 1 < amplitude) := by
    rintro (h | h)
    · exact absurd ha.1 (not_le.2 h)
    · exact absurd ha.2 (not_le.2 h)
  rw [generateSincSignal, if_neg hn, if_neg hb, if_neg (not_le.2 hc), if_neg hamp]
  exact ⟨_, rfl, by simp⟩

/-- The generator accepts what its checks allow. -/
theorem generateSineWave_eq_ok {numSamples : ℕ} {frequency amplitude : K} (hn : numSamples ≠ 0)
    (h₀ : 0 ≤ frequency) (hf : frequency < g.samplingFrequency / 2)
    (ha : 0 ≤ amplitude ∧ amplitude ≤ 1) :
    ∃ signal, g.generateSineWave N numSamples frequency amplitude = .ok signal ∧
      signal.length = numSamples := by
  have hamp : ¬(amplitude < 0 ∨ 1 < amplitude) := by
    rintro (h | h)
    · exact absurd ha.1 (not_le.2 h)
    · exact absurd ha.2 (not_le.2 h)
  rw [generateSineWave, if_neg hn, if_neg (not_lt.2 h₀), if_neg (not_le.2 hf), if_neg hamp]
  exact ⟨_, rfl, by simp⟩

end SignalGenerator

/-! ### Spectra -/

/-- `FFTProcessor`; a plan is kept for records of one size. -/
structure FFTProcessor (K : Type) where
  samplingFrequency : K
  /-- `m_planSize` -/
  planSize : ℕ := 0
  deriving DecidableEq

namespace FFTProcessor

/-- The constructor. -/
def make (samplingFrequency : K) : Except Text (FFTProcessor K) :=
  if samplingFrequency ≤ 0 then .error "Sampling frequency must be positive".toList
  else .ok { samplingFrequency := samplingFrequency }

/-- Bin `i` of `getFrequencyAxis`: computed as a `double`, stored as a `float`. -/
def frequency (A : Arithmetic) (p : FFTProcessor ℚ) (numSamples i : ℕ) : ℚ :=
  A.single (A.double (A.double (A.single i * p.samplingFrequency) / numSamples))

/-- `getFrequencyAxis`: the bins from zero to half the sampling frequency. -/
def frequencyAxis (A : Arithmetic) (p : FFTProcessor ℚ) (numSamples : ℕ) : List ℚ :=
  (List.range (numSamples / 2 + 1)).map (p.frequency A numSamples)

theorem make_eq_ok {samplingFrequency : K} (h : 0 < samplingFrequency) :
    make samplingFrequency = .ok { samplingFrequency := samplingFrequency } :=
  if_neg (not_le.2 h)

end FFTProcessor

/-- The bins `computeFFT` returns: half of those of the record, scaled by its size. -/
def computeFFT (record : List K) : List (K × K) :=
  (List.range (record.length / 2 + 1)).map fun i =>
    ((N.fft record i).1 / record.length, (N.fft record i).2 / record.length)

/-- `computeMagnitudeSpectrum` -/
def magnitudeSpectrum (bins : List (K × K)) : List K :=
  bins.map fun z => N.sqrt (z.1 * z.1 + z.2 * z.2)

/-- `computePhaseSpectrum` -/
def phaseSpectrum (bins : List (K × K)) : List K := bins.map fun z => N.atan2 z.2 z.1

/-! ### Saturation -/

/-- `SaturationDetector::Report` -/
structure SaturationReport (K : Type) where
  saturated : Bool
  saturatedSamples : ℕ
  saturatedRatio : K

/-- `SaturationDetector::analyze` with its default full scale and threshold. -/
def SaturationDetector.analyze (samples : List K) : SaturationReport K :=
  let count := (samples.filter fun x => (99 / 100 : K) ≤ |x|).length
  if samples.isEmpty then { saturated := false, saturatedSamples := 0, saturatedRatio := 0 }
  else { saturated := decide (0 < count)
         saturatedSamples := count
         saturatedRatio := count / samples.length }

/-! ### Sine fit -/

namespace SineFit

/-- `detail::det3` -/
def det3 (a b c d e f g h k : K) : K :=
  a * (e * k - f * h) - b * (d * k - f * g) + c * (d * h - e * g)

/-- `c_MinPeriodsForOffset` -/
def minPeriodsForOffset : K := 1

/-- `SineFit::Result`, before it is turned into amplitude and phase. -/
structure Coefficients (K : Type) where
  a : K
  b : K
  offset : K

/-- The least-squares coefficients of `x` over the base `s`, `c` and the constants. -/
def coefficients (n : ℕ) (periods : K) (s c x : ℕ → K) : Coefficients K :=
  let sum (f : ℕ → K) : K := ∑ i ∈ Finset.range n, f i
  let ss := sum fun i => s i * s i
  let cc := sum fun i => c i * c i
  let sc := sum fun i => s i * c i
  let s1 := sum s
  let c1 := sum c
  let xs := sum fun i => x i * s i
  let xc := sum fun i => x i * c i
  let x1 := sum x
  let det := det3 ss sc s1 sc cc c1 s1 c1 n
  if minPeriodsForOffset ≤ periods ∧ det ≠ 0 then
    { a := det3 xs sc s1 xc cc c1 x1 c1 n / det
      b := det3 ss xs s1 sc xc c1 s1 x1 n / det
      offset := det3 ss sc xs sc cc xc s1 c1 x1 / det }
  else
    let det2 := ss * cc - sc * sc
    if det2 ≠ 0 then
      { a := (xs * cc - xc * sc) / det2, b := (ss * xc - sc * xs) / det2, offset := 0 }
    else { a := 0, b := 0, offset := 0 }

/-- `SineFit::fit`: amplitude and phase. -/
def fit (samples : List K) (count : ℕ) (omega : K) : K × K :=
  let n := min count samples.length
  let periods := omega * n / (2 * cPi)
  let r := coefficients n periods (fun i => N.sin (omega * i)) (fun i => N.cos (omega * i))
    fun i => samples.getD i 0
  (N.sqrt (r.a * r.a + r.b * r.b), N.atan2 r.b r.a)

end SineFit

end Chain

end Afm
