/-
**The resonance peak and its half-power edges.**

The window looks for the resonance in three steps: it smooths the magnitude with a running median,
takes the largest smoothed value away from the two ends of the band, and snaps back to the largest
value nearby.  Around the peak it then measures the band where the magnitude stays above half the
power.

The third step looks at a stretch that may reach into the margin the second step left out, so the
reported peak can be a bin of the margin.  It is a bin of the interior exactly when none of the bins
of the margin within reach beats the interior.

Main definitions:

* `Afm.Gui.medianFilter`, `Afm.Gui.findPeakIndex` — the search for the peak;
* `Afm.Gui.find3dbRegion`, `Afm.Gui.halfPowerEdges` — the band around it;
* `Afm.Gui.segmentAt` — the straight line between two neighbouring points;
* `Afm.Gui.HalfPowerBand` — what the edges of the band are.

Main results:

* `Afm.Gui.SmoothedPeak.unique`, `Afm.Gui.findPeakIndex_firstLargest` — the peak is the first largest
  value within reach of the smoothed peak;
* `Afm.Gui.findPeakIndex_interior_iff` — **when the peak is a bin of the interior**;
* `Afm.Gui.halfPowerEdges_bracket` — **the half-power edges bracket the peak**.
-/

import RedPitayaAfm.ArrayScan
import RedPitayaAfm.Excitation
import RedPitayaAfm.Text

set_option relaxedAutoImplicit false
set_option autoImplicit false

namespace Afm.Gui

open ArrayScan BinaryFloat

/-! ### The search for the peak -/

section Peak

variable {K : Type} [Field K] [LinearOrder K]

/-- The median of a window: the middle value, or the mean of the two in the middle. -/
def median (window : List K) : K :=
  let sorted := window.insertionSort (· ≤ ·)
  if window.length % 2 = 1 then sorted.getD (window.length / 2) 0
  else (sorted.getD (window.length / 2 - 1) 0 + sorted.getD (window.length / 2) 0) / (2 : ℕ)

/-- A list with its ends repeated. -/
def padEdge (x : List K) (pad : ℕ) : List K :=
  List.replicate pad (x.headD 0) ++ x ++ List.replicate pad (x.getLastD 0)

/-- All the windows of a list. -/
def slidingWindows (x : List K) (k : ℕ) : List (List K) :=
  (List.range (x.length + 1 - k)).map fun i => slice x i (i + k)

/-- The running median over an odd window. -/
def medianFilter (x : List K) (k : ℕ) : List K :=
  if k ≤ 1 ∨ x.length < k then x else (slidingWindows (padEdge x (k / 2)) k).map median

/-- The part of a band left out at each end. -/
def peakEdgeMarginFrac : ℚ := 0.02

/-- The number of bins left out at each end. -/
def edgeMargin (n : ℕ) : ℕ := max 3 (roundHalfEven (n * peakEdgeMarginFrac)).toNat

/-- The bin of the resonance. -/
def findPeakIndex (mag : List K) : ℕ :=
  let n := mag.length
  if n = 0 then 0
  else if n < 16 then argmax mag
  else
    let smooth := medianFilter mag 5
    let margin := edgeMargin n
    let (lo, hi) := if n - margin < margin + 1 then (0, n) else (margin, n - margin)
    let regionIdx := lo + argmax (slice smooth lo hi)
    -- the stretch to snap back in is cut to the array and not to the interior
    let a := regionIdx - 5
    let b := min n (regionIdx + 5 + 1)
    a + argmax (slice mag a b)

theorem length_medianFilter (x : List K) (k : ℕ) (hodd : k % 2 = 1) : (medianFilter x k).length = x.length := by
  unfold medianFilter
  split
  · rfl
  · simp only [slidingWindows, padEdge, List.length_map, List.length_range, List.length_append,
      List.length_replicate]
    omega

/-- The margins leave an interior. -/
theorem edgeMargin_lt {n : ℕ} (h : 16 ≤ n) : 2 * edgeMargin n < n := by
  have hround := roundHalfEven_le (n * peakEdgeMarginFrac)
  have hfrac : (n : ℚ) * peakEdgeMarginFrac = n / 50 := by
    rw [peakEdgeMarginFrac]
    ring
  rw [hfrac] at hround
  have hbound : 50 * roundHalfEven (n * peakEdgeMarginFrac) ≤ n + 25 := by
    have hscaled : (50 * roundHalfEven (n * peakEdgeMarginFrac) : ℚ) ≤ n + 25 := by
      rw [hfrac]
      linarith
    exact_mod_cast hscaled
  unfold edgeMargin
  omega

/-- The bins away from the two margins. -/
def Interior (n i : ℕ) : Prop := edgeMargin n ≤ i ∧ i < n - edgeMargin n

/-- The bins within reach of a bin. -/
def Near (c i : ℕ) : Prop := c ≤ i + 5 ∧ i ≤ c + 5

/-- The first largest smoothed value of the interior. -/
def SmoothedPeak (mag : List K) (c : ℕ) : Prop :=
  FirstLargest (fun i => (medianFilter mag 5).getD i 0) (edgeMargin mag.length)
    (mag.length - edgeMargin mag.length) c

/-- A bin of the interior that is largest among those of the interior near `c`. -/
structure InteriorPeak (mag : List K) (c i : ℕ) : Prop where
  inside : Interior mag.length i
  near : Near c i
  le : ∀ j, Interior mag.length j → Near c j → mag.getD j 0 ≤ mag.getD i 0

/-- No bin of the margin near `c` beats the interior. -/
def InteriorWins (mag : List K) (c : ℕ) : Prop :=
  ∃ j, Interior mag.length j ∧ Near c j ∧ ∀ i < mag.length, ¬ Interior mag.length i → Near c i →
    (i < j → mag.getD i 0 < mag.getD j 0) ∧ (j < i → mag.getD i 0 ≤ mag.getD j 0)

/-- There is one smoothed peak. -/
theorem SmoothedPeak.unique {mag : List K} {c c' : ℕ} (h : SmoothedPeak mag c)
    (h' : SmoothedPeak mag c') : c = c' :=
  FirstLargest.unique h h'

/-- The reported bin is the first largest one near the smoothed peak, margins included. -/
theorem findPeakIndex_firstLargest {mag : List K} (h : 16 ≤ mag.length) :
    ∃ c, SmoothedPeak mag c ∧
      FirstLargest (fun i => mag.getD i 0) (c - 5) (min mag.length (c + 6)) (findPeakIndex mag) := by
  have hmargin := edgeMargin_lt h
  have hsmooth : SmoothedPeak mag (edgeMargin mag.length + argmax (slice (medianFilter mag 5)
      (edgeMargin mag.length) (mag.length - edgeMargin mag.length))) := by
    refine firstLargest_argmax (by omega) ?_ 0
    rw [length_medianFilter mag 5 rfl]
    exact Nat.sub_le _ _
  refine ⟨_, hsmooth, ?_⟩
  have hhigh := hsmooth.high
  unfold findPeakIndex
  rw [if_neg (by omega), if_neg (by omega)]
  simp only [if_neg (show ¬ mag.length - edgeMargin mag.length < edgeMargin mag.length + 1 by omega)]
  exact firstLargest_argmax (by omega) (min_le_left _ _) 0

/-- **When the reported bin is a bin of the interior**: exactly when no bin of the margin within
reach of the smoothed peak beats the interior. -/
theorem findPeakIndex_interior_iff {mag : List K} (h : 16 ≤ mag.length) :
    (∃! c, SmoothedPeak mag c) ∧
      ∀ c, SmoothedPeak mag c → (InteriorPeak mag c (findPeakIndex mag) ↔ InteriorWins mag c) := by
  obtain ⟨c, hc, hres⟩ := findPeakIndex_firstLargest h
  have hlow := hres.low
  have hhigh := hres.high
  have hnear : Near c (findPeakIndex mag) := ⟨by omega, by omega⟩
  have hle : ∀ j < mag.length, Near c j → mag.getD j 0 ≤ mag.getD (findPeakIndex mag) 0 :=
    fun j hj hcj => hres.le j (by have := hcj.1; omega) (by have := hcj.2; omega)
  have hlt : ∀ j < findPeakIndex mag, Near c j → mag.getD j 0 < mag.getD (findPeakIndex mag) 0 :=
    fun j hj hcj => hres.lt j (by have := hcj.1; omega) hj
  refine ⟨⟨c, hc, fun c' hc' => hc'.unique hc⟩, fun c' hc' => ?_⟩
  obtain rfl := hc'.unique hc
  refine ⟨fun hpeak => ?_, fun ⟨j, hj, hcj, hbeats⟩ => ?_⟩
  · exact ⟨_, hpeak.inside, hnear, fun i hi _ hci => ⟨fun hij => hlt i hij hci, fun _ => hle i hi hci⟩⟩
  · have hjlen : j < mag.length := hj.2.trans_le (Nat.sub_le _ _)
    refine ⟨?_, hnear, fun i hi hci => hle i (hi.2.trans_le (Nat.sub_le _ _)) hci⟩
    by_contra hout
    obtain ⟨hbefore, hafter⟩ := hbeats _ (by omega) hout hnear
    -- a reported bin of the margin is the first largest, so it beats the bin that beats the margin
    rcases lt_trichotomy (findPeakIndex mag) j with hij | rfl | hji
    · exact absurd (hle j hjlen hcj) (not_le.2 (hbefore hij))
    · exact hout hj
    · exact absurd (hafter hji) (not_le.2 (hlt j hji hcj))

/-- A magnitude with a spike in the margin. -/
def marginSpike : List ℚ := [0, 0, 9, 5, 5, 5, 0, 0, 0, 0, 0, 0, 0, 0, 0, 0]

/-- The spike is reported. -/
theorem not_findPeakIndex_interior_spike :
    ¬ ∀ mag : List ℚ, 16 ≤ mag.length →
      ∃ c, SmoothedPeak mag c ∧ InteriorPeak mag c (findPeakIndex mag) := by
  intro h
  obtain ⟨c, -, hpeak⟩ := h marginSpike (by decide)
  have hres : findPeakIndex marginSpike = 2 := by decide +kernel
  have hinside := hpeak.inside.1
  rw [hres] at hinside
  have hmargin : edgeMargin marginSpike.length = 3 := by decide +kernel
  omega

theorem findPeakIndex_interior_iff_spike :
    (∃! c, SmoothedPeak marginSpike c) ∧ ∀ c, SmoothedPeak marginSpike c →
      (InteriorPeak marginSpike c (findPeakIndex marginSpike) ↔ InteriorWins marginSpike c) :=
  findPeakIndex_interior_iff (by decide)

end Peak

/-! ### The band around the peak -/

section Band

variable {K : Type} [Field K] [LinearOrder K]

/-- The first and last bin of the band around the peak. -/
def find3dbRegion (N : Numerics K) (mag : List K) (peakIdx : ℕ) : ℕ × ℕ :=
  if mag.length = 0 then (0, 0)
  else
    let thr := mag.getD peakIdx 0 / N.sqrt (2 : ℕ)
    (walkDown (fun i => thr ≤ mag.getD i 0) peakIdx,
      walkUp (fun i => thr ≤ mag.getD i 0) mag.length peakIdx)

/-- Where the line from a point inside to a point outside crosses the threshold; there is nothing to
divide by when both are equal. -/
def crossing (freq mag : List K) (threshold : K) (inside outside : ℕ) : Option K :=
  let fall := mag.getD inside 0 - mag.getD outside 0
  if fall = 0 then none
  else
    let t := (mag.getD inside 0 - threshold) / fall
    some (freq.getD inside 0 + t * (freq.getD outside 0 - freq.getD inside 0))

/-- The frequencies at which the magnitude crosses the threshold. -/
def halfPowerEdges (N : Numerics K) (freq mag : List K) (peakIdx : ℕ) : Option (K × K) := do
  let (li, ri) := find3dbRegion N mag peakIdx
  let threshold := mag.getD peakIdx 0 / N.sqrt (2 : ℕ)
  let low ← (if 0 < li then crossing freq mag threshold li (li - 1) else some (freq.getD li 0))
  let high ← (if ri < mag.length - 1 then crossing freq mag threshold ri (ri + 1)
    else some (freq.getD ri 0))
  return (low, high)

/-- The straight line through points `i` and `i + 1`. -/
def segmentAt (freq mag : List K) (i : ℕ) (x : K) : K :=
  mag.getD i 0 + (x - freq.getD i 0) / (freq.getD (i + 1) 0 - freq.getD i 0)
    * (mag.getD (i + 1) 0 - mag.getD i 0)

/-- What the band from `li` to `ri`, with edges `low` and `high`, is to a peak. -/
structure HalfPowerBand (freq mag : List K) (peakIdx : ℕ) (threshold : K) (li ri : ℕ)
    (low high : K) : Prop where
  run : MaximalRun (fun i => threshold ≤ mag.getD i 0) mag.length peakIdx li ri
  le_peak : low ≤ freq.getD peakIdx 0
  peak_le : freq.getD peakIdx 0 ≤ high
  low_end : li = 0 → low = freq.getD 0 0
  low_between : 0 < li → freq.getD (li - 1) 0 ≤ low ∧ low ≤ freq.getD li 0
  low_value : 0 < li → segmentAt freq mag (li - 1) low = threshold
  high_end : ri + 1 = mag.length → high = freq.getD (mag.length - 1) 0
  high_between : ri + 1 < mag.length → freq.getD ri 0 ≤ high ∧ high ≤ freq.getD (ri + 1) 0
  high_value : ri + 1 < mag.length → segmentAt freq mag ri high = threshold

end Band

section Edges

variable {fft : List ℝ → ℕ → ℝ × ℝ} {freq mag : List ℝ} {p : ℕ}

/-- A crossing from a point inside to one outside exists, and lies on the way. -/
theorem crossing_eq (freq : List ℝ) {threshold : ℝ} {inside outside : ℕ} (hin : threshold ≤ mag.getD inside 0)
    (hout : mag.getD outside 0 < threshold) :
    ∃ t : ℝ, 0 ≤ t ∧ t < 1 ∧
      mag.getD inside 0 + t * (mag.getD outside 0 - mag.getD inside 0) = threshold ∧
      crossing freq mag threshold inside outside
        = some (freq.getD inside 0 + t * (freq.getD outside 0 - freq.getD inside 0)) := by
  have hfall : 0 < mag.getD inside 0 - mag.getD outside 0 := sub_pos.2 (hout.trans_le hin)
  refine ⟨(mag.getD inside 0 - threshold) / (mag.getD inside 0 - mag.getD outside 0),
    div_nonneg (sub_nonneg.2 hin) hfall.le, ?_, ?_, ?_⟩
  · rw [div_lt_one hfall]
    exact sub_lt_sub_left hout _
  · field_simp
    ring
  · rw [crossing, if_neg hfall.ne']

theorem sqrt_two : (Numerics.overReals fft).sqrt ((2 : ℕ) : ℝ) = √2 := by
  rw [Nat.cast_ofNat]
  rfl

/-- The threshold is below the peak. -/
theorem threshold_le (h : 0 < mag.getD p 0) : mag.getD p 0 / √2 ≤ mag.getD p 0 := by
  have hsqrt : 1 ≤ √2 := Real.one_le_sqrt.2 one_le_two
  exact div_le_self h.le hsqrt

/-- The band around a peak is a maximal run. -/
theorem find3dbRegion_maximalRun (hp : p < mag.length) (hpeak : 0 < mag.getD p 0) :
    MaximalRun (fun i => mag.getD p 0 / √2 ≤ mag.getD i 0) mag.length p
      (find3dbRegion (Numerics.overReals fft) mag p).1
      (find3dbRegion (Numerics.overReals fft) mag p).2 := by
  rw [find3dbRegion, if_neg (by omega), sqrt_two]
  exact maximalRun_walk hp (threshold_le hpeak)

/-- Frequencies grow with the position. -/
theorem freq_lt (hfreq : freq.Pairwise (· < ·)) {i j : ℕ} (hij : i < j) (hj : j < freq.length) :
    freq.getD i 0 < freq.getD j 0 := by
  have hi : i < freq.length := hij.trans hj
  rw [List.getD_eq_getElem _ _ hi, List.getD_eq_getElem _ _ hj]
  exact List.pairwise_iff_getElem.1 hfreq i j hi hj hij

theorem freq_le (hfreq : freq.Pairwise (· < ·)) {i j : ℕ} (hij : i ≤ j) (hj : j < freq.length) :
    freq.getD i 0 ≤ freq.getD j 0 := by
  rcases hij.eq_or_lt with rfl | hlt
  · exact le_rfl
  · exact (freq_lt hfreq hlt hj).le

/-- The line at a part of the way between its two points. -/
theorem segmentAt_part {i : ℕ} (h : freq.getD i 0 < freq.getD (i + 1) 0) (s : ℝ) :
    segmentAt freq mag i (freq.getD i 0 + s * (freq.getD (i + 1) 0 - freq.getD i 0))
      = mag.getD i 0 + s * (mag.getD (i + 1) 0 - mag.getD i 0) := by
  have hstep : freq.getD (i + 1) 0 - freq.getD i 0 ≠ 0 := (sub_pos.2 h).ne'
  rw [segmentAt, add_sub_cancel_left, mul_div_assoc, div_self hstep, mul_one]

/-- The lower edge, when there is a point outside below the band. -/
theorem crossing_below {threshold : ℝ} {i : ℕ} (hfreq : freq.getD i 0 < freq.getD (i + 1) 0)
    (hin : threshold ≤ mag.getD (i + 1) 0) (hout : mag.getD i 0 < threshold) :
    ∃ low, crossing freq mag threshold (i + 1) i = some low ∧ freq.getD i 0 ≤ low ∧
      low ≤ freq.getD (i + 1) 0 ∧ segmentAt freq mag i low = threshold := by
  obtain ⟨t, hnonneg, hlt, hvalue, hcross⟩ := crossing_eq freq hin hout
  have hstep : 0 < freq.getD (i + 1) 0 - freq.getD i 0 := sub_pos.2 hfreq
  -- the crossing walks down from the inside, the segment counts up from below
  have hpart : freq.getD (i + 1) 0 + t * (freq.getD i 0 - freq.getD (i + 1) 0)
      = freq.getD i 0 + (1 - t) * (freq.getD (i + 1) 0 - freq.getD i 0) := by ring
  rw [hpart] at hcross
  refine ⟨_, hcross, ?_, ?_, ?_⟩
  · exact le_add_of_nonneg_right (mul_nonneg (sub_nonneg.2 hlt.le) hstep.le)
  · have hback : 0 ≤ t * (freq.getD (i + 1) 0 - freq.getD i 0) := mul_nonneg hnonneg hstep.le
    linarith
  · rw [segmentAt_part hfreq]
    linarith

/-- The upper edge, when there is a point outside above the band. -/
theorem crossing_above {threshold : ℝ} {i : ℕ} (hfreq : freq.getD i 0 < freq.getD (i + 1) 0)
    (hin : threshold ≤ mag.getD i 0) (hout : mag.getD (i + 1) 0 < threshold) :
    ∃ high, crossing freq mag threshold i (i + 1) = some high ∧ freq.getD i 0 ≤ high ∧
      high ≤ freq.getD (i + 1) 0 ∧ segmentAt freq mag i high = threshold := by
  obtain ⟨t, hnonneg, hlt, hvalue, hcross⟩ := crossing_eq freq hin hout
  have hstep : 0 < freq.getD (i + 1) 0 - freq.getD i 0 := sub_pos.2 hfreq
  refine ⟨_, hcross, ?_, ?_, ?_⟩
  · exact le_add_of_nonneg_right (mul_nonneg hnonneg hstep.le)
  · have hrest : 0 ≤ (1 - t) * (freq.getD (i + 1) 0 - freq.getD i 0) :=
      mul_nonneg (sub_nonneg.2 hlt.le) hstep.le
    linarith
  · rw [segmentAt_part hfreq]
    exact hvalue

variable {threshold : ℝ} {li ri : ℕ}

/-- The lower edge is the end of the span or a crossing towards the first point outside. -/
theorem exists_low (hlen : freq.length = mag.length) (hfreq : freq.Pairwise (· < ·))
    (hrun : MaximalRun (fun i => threshold ≤ mag.getD i 0) mag.length p li ri) :
    ∃ low, (if 0 < li then crossing freq mag threshold li (li - 1)
        else some (freq.getD li 0)) = some low ∧ low ≤ freq.getD li 0 ∧
      (li = 0 → low = freq.getD 0 0) ∧ (0 < li → freq.getD (li - 1) 0 ≤ low) ∧
      (0 < li → segmentAt freq mag (li - 1) low = threshold) := by
  have hle : li ≤ ri := hrun.left.trans hrun.right
  have hbound := hrun.bound
  cases li with
  | zero =>
    exact ⟨_, rfl, le_rfl, fun _ => rfl, fun h => absurd h (lt_irrefl 0), fun h => absurd h (lt_irrefl 0)⟩
  | succ i =>
    obtain ⟨low, hcross, hge, hle, hvalue⟩ := crossing_below
      (freq_lt hfreq (Nat.lt_succ_self i) (by omega)) (hrun.holds (i + 1) le_rfl hle)
      (not_le.1 (hrun.not_left (Nat.succ_pos i)))
    exact ⟨low, hcross, hle, fun h => absurd h (Nat.succ_ne_zero i), fun _ => hge, fun _ => hvalue⟩

/-- The upper edge is the end of the span or a crossing towards the first point outside. -/
theorem exists_high (hlen : freq.length = mag.length) (hfreq : freq.Pairwise (· < ·))
    (hrun : MaximalRun (fun i => threshold ≤ mag.getD i 0) mag.length p li ri) :
    ∃ high, (if ri < mag.length - 1 then crossing freq mag threshold ri (ri + 1)
        else some (freq.getD ri 0)) = some high ∧ freq.getD ri 0 ≤ high ∧
      (ri + 1 = mag.length → high = freq.getD (mag.length - 1) 0) ∧
      (ri + 1 < mag.length → high ≤ freq.getD (ri + 1) 0) ∧
      (ri + 1 < mag.length → segmentAt freq mag ri high = threshold) := by
  have hle : li ≤ ri := hrun.left.trans hrun.right
  have hbound := hrun.bound
  by_cases hend : ri + 1 < mag.length
  · obtain ⟨high, hcross, hge, hhigh, hvalue⟩ := crossing_above
      (freq_lt hfreq (Nat.lt_succ_self ri) (by omega)) (hrun.holds ri hle le_rfl)
      (not_le.1 (hrun.not_right hend))
    rw [if_pos (by omega)]
    exact ⟨high, hcross, hge, fun h => absurd h (by omega), fun _ => hhigh, fun _ => hvalue⟩
  · have hlast : mag.length - 1 = ri := by omega
    rw [if_neg (by omega), hlast]
    exact ⟨_, rfl, le_rfl, fun _ => rfl, fun h => absurd h hend, fun h => absurd h hend⟩

/-- **The half-power edges bracket the peak.** -/
theorem halfPowerEdges_bracket (hlen : freq.length = mag.length) (hfreq : freq.Pairwise (· < ·))
    (hp : p < mag.length) (hpeak : 0 < mag.getD p 0) :
    ∃ li ri low high, find3dbRegion (Numerics.overReals fft) mag p = (li, ri) ∧
      halfPowerEdges (Numerics.overReals fft) freq mag p = some (low, high) ∧
      HalfPowerBand freq mag p (mag.getD p 0 / √2) li ri low high := by
  have hrun : MaximalRun _ _ _ (find3dbRegion (Numerics.overReals fft) mag p).1 _ :=
    find3dbRegion_maximalRun hp hpeak
  -- name both ends of the band once, so that the edges are about the same two bins
  generalize hregion : find3dbRegion (Numerics.overReals fft) mag p = region at hrun
  obtain ⟨li, ri⟩ := region
  simp only at hrun
  obtain ⟨low, hloweq, hlowle, hlowend, hlowge, hlowvalue⟩ := exists_low hlen hfreq hrun
  obtain ⟨high, hhigheq, hhighge, hhighend, hhighle, hhighvalue⟩ := exists_high hlen hfreq hrun
  refine ⟨li, ri, low, high, rfl, ?_, ?_⟩
  · unfold halfPowerEdges
    simp only [hregion, sqrt_two, hloweq, hhigheq]
    rfl
  · have hpend : p < freq.length := hlen ▸ hp
    have hrend : ri < freq.length := hlen ▸ hrun.bound
    exact
      { run := hrun
        le_peak := hlowle.trans (freq_le hfreq hrun.left hpend)
        peak_le := (freq_le hfreq hrun.right hrend).trans hhighge
        low_end := hlowend
        low_between := fun h => ⟨hlowge h, hlowle⟩
        low_value := hlowvalue
        high_end := hhighend
        high_between := fun h => ⟨hhighge, hhighle h⟩
        high_value := hhighvalue }

theorem halfPowerEdges_bracket_triangle :
    ∃ li ri low high,
      find3dbRegion (Numerics.overReals fun _ _ => (0, 0)) [0, 1, 0] 1 = (li, ri) ∧
      halfPowerEdges (Numerics.overReals fun _ _ => (0, 0)) [1, 2, 3] [0, 1, 0] 1 = some (low, high) ∧
      HalfPowerBand [1, 2, 3] [0, 1, 0] 1 (1 / √2) li ri low high :=
  halfPowerEdges_bracket rfl (by norm_num) (by decide) zero_lt_one

end Edges

end Afm.Gui
