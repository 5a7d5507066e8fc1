/-
**The advice of a refused measurement.**

A measurement that would overdrive the ADC is refused with a remedy: a lower gain of the return or
of the excitation channel, or a lower amplitude.  The remedies work, with one exception: the advised
amplitude is rounded down to four decimals, and for a loop with a very high gain this leaves zero.

Main definitions:

* `Afm.CommandHandler.Remedy`, `Afm.CommandHandler.remedies` — what the text of a refusal suggests;
* `Afm.CommandHandler.Remedy.Works` — the server accepts the remedy and lets the measurement pass;
* `Afm.CommandHandler.AdvisesZero` — the exception.

Main results:

* `Afm.CommandHandler.overdriveAdvice_eq` — the text of a refusal ends with its remedies;
* `Afm.CommandHandler.remedies_work_iff` — every remedy works unless zero is advised.
-/

import RedPitayaAfm.HandlerRuns

set_option relaxedAutoImplicit false
set_option autoImplicit false

namespace Afm

namespace CommandHandler

open Effect InputSafety

/-! ### Remedies -/

/-- What the text of a refusal suggests. -/
inductive Remedy
  | gain (channel : Channel) (gain : GainSetting)
  | amplitude (atMost : ℚ)
  deriving DecidableEq

section Remedies

variable (A : Arithmetic) (s : CommandHandler) (estimate : AdcLoopEstimate)

/-- The remedies in the order of the text. -/
def remedies (amplitude : ℚ) : List Remedy :=
  let exciteGain := s.channelGains estimate.exciteChannel
  let returnGain := s.channelGains estimate.returnChannel
  let reduce := Remedy.amplitude (s.maxAmplitude A estimate)
  if estimate.exciteChannel = estimate.returnChannel then
    match maxSafeDirectGain A amplitude with
    | some safeGain => [.gain estimate.exciteChannel safeGain, reduce]
    | none => [reduce]
  else
    match maxSafeReturnGain A amplitude exciteGain s.status.adcSampleGain with
    | some safeGain => [.gain estimate.returnChannel safeGain]
    | none =>
        match maxSafeExciteGain A amplitude returnGain s.status.adcSampleGain with
        | some safeGain => [.gain estimate.exciteChannel safeGain, reduce]
        | none => [reduce]

/-- The command of a gain remedy. -/
def gainCommand (channel : Channel) (gain : GainSetting) : Text :=
  "BOARD:GAIN ".toList ++ toText (channel + 1) ++ [','] ++ toText gain.toIndex

/-- The remedies as the text gives them. -/
def remediesText : List Remedy → Text
  | [.gain channel gain] => "; suggested: ".toList ++ gainCommand channel gain
  | [.gain channel gain, .amplitude atMost] =>
      "; suggested: ".toList ++ gainCommand channel gain
        ++ " or excitation amplitude <= ".toList ++ fixed 4 atMost
  | [.amplitude atMost] => "; reduce excitation amplitude to <= ".toList ++ fixed 4 atMost
  | _ => []

theorem suggested_gain (channel : Channel) (gain : GainSetting) :
    "; suggested: BOARD:GAIN ".toList ++ toText (channel + 1) ++ [','] ++ toText gain.toIndex
      = "; suggested: ".toList ++ gainCommand channel gain := by
  have hsuggested : "; suggested: BOARD:GAIN ".toList
      = "; suggested: ".toList ++ "BOARD:GAIN ".toList := by decide +kernel
  have hassoc (a b c d e : Text) : a ++ b ++ c ++ d ++ e = a ++ (b ++ c ++ d ++ e) := by
    simp only [List.append_assoc]
  rw [hsuggested]
  exact hassoc _ _ _ _ _

/-- **The text of a refusal ends with its remedies.** -/
theorem overdriveAdvice_eq (amplitude : ℚ) :
    s.overdriveAdvice A estimate amplitude = remediesText (s.remedies A estimate amplitude) := by
  have hassoc (a b c : Text) : a ++ (b ++ c) = a ++ b ++ c := (List.append_assoc a b c).symm
  unfold overdriveAdvice remedies
  by_cases hdirect : estimate.exciteChannel = estimate.returnChannel
  · rw [if_pos hdirect, if_pos hdirect]
    cases maxSafeDirectGain A amplitude with
    | some safeGain =>
        refine (congrArg (· ++ _) (suggested_gain _ safeGain)).trans ?_
        exact hassoc _ _ _
    | none => rfl
  rw [if_neg hdirect, if_neg hdirect]
  cases maxSafeReturnGain A amplitude (s.channelGains estimate.exciteChannel)
      s.status.adcSampleGain with
  | some safeGain => exact suggested_gain _ safeGain
  | none =>
      cases maxSafeExciteGain A amplitude (s.channelGains estimate.returnChannel)
          s.status.adcSampleGain with
      | some safeGain =>
          refine (congrArg (· ++ _) (suggested_gain _ safeGain)).trans ?_
          exact hassoc _ _ _
      | none => rfl

end Remedies

/-! ### What a remedy is good for -/

/-- The server accepts the remedy, and lets a measurement with this amplitude pass when it is
applied.  A gain is moreover the highest of its channel with which the measurement passes. -/
def Remedy.Works (s : CommandHandler) (amplitude : ℚ) : Remedy → Prop
  | .gain channel safeGain =>
      (parseLine (gainCommand channel safeGain)).command = .boardGain ∧
        s.gainArgs (parseLine (gainCommand channel safeGain)) = .ok (channel, safeGain) ∧
        (s.setChannelGain channel safeGain).checkAdcProtection .exact amplitude = .ok () ∧
        ∀ higher, (s.setChannelGain channel higher).checkAdcProtection .exact amplitude = .ok () →
          higher.toIndex ≤ safeGain.toIndex
  | .amplitude atMost =>
      validateAmplitude atMost = .ok () ∧
        ∀ amplitude', 0 < amplitude' → amplitude' ≤ atMost →
          s.checkAdcProtection .exact amplitude' = .ok ()

/-- Every remedy of a refused measurement works. -/
def RemediesWork (s : CommandHandler) (amplitude : ℚ) : Prop :=
  ∀ remedy ∈ s.remedies .exact (s.estimateAdcLoop .exact amplitude) amplitude,
    remedy.Works s amplitude

/-- Not even the lowest gain of the return channel would do, and the product of the gains of the
loop is so high that the advised amplitude is rounded down to zero. -/
def AdvisesZero (s : CommandHandler) (amplitude : ℚ) : Prop :=
  let estimate := s.estimateAdcLoop .exact amplitude
  estimate.exciteChannel ≠ estimate.returnChannel ∧
    isOverdrive .exact amplitude (s.channelGains estimate.exciteChannel) .gain1_8
      s.status.adcSampleGain = true ∧
    10000 < s.gainProduct .exact estimate

/-! ### The loop of a refused measurement -/

section Loop

variable {s : CommandHandler} {amplitude : ℚ}

/-- The monitor watches one loop, or none that is closed. -/
structure Watches (s : CommandHandler) (excite ret : Channel) : Prop where
  initialized : s.status.hardwareInitialized = true
  connected : s.status.boardConnected = true
  sampleGain : 0 ≤ s.status.adcSampleGain
  loop : ∀ gains amplitude, ({ s with channelGains := gains }).estimateAdcLoop .exact amplitude =
    { active := true
      exciteChannel := excite
      returnChannel := ret
      peak := InputSafety.loopPeak .exact amplitude s.status.adcSampleGain gains excite ret }

theorem check_eq_ok_iff (hprotect : s.status.adcProtectEnabled = true) :
    s.checkAdcProtection .exact amplitude = .ok () ↔
      (s.estimateAdcLoop .exact amplitude).active = false ∨
        (s.estimateAdcLoop .exact amplitude).peak ≤ adcFullScale := by
  unfold checkAdcProtection
  rw [if_neg (by simp [hprotect])]
  by_cases h : (s.estimateAdcLoop .exact amplitude).active = false ∨
      (s.estimateAdcLoop .exact amplitude).peak ≤ adcFullScale
  · simp [h]
  · simp [h]

/-- A refusal with known routing is about one loop. -/
theorem exists_watches (hinit : s.status.hardwareInitialized = true)
    (hgain : 0 ≤ s.status.adcSampleGain) (hprotect : s.status.adcProtectEnabled = true)
    (hknown : s.status.loopMode = .auto → s.muxRoutingKnown adcLinkOutput = true)
    (hrefused : s.checkAdcProtection .exact amplitude ≠ .ok ()) :
    ∃ excite ret, s.Watches excite ret := by
  rw [Ne, check_eq_ok_iff hprotect, not_or] at hrefused
  obtain ⟨hactive, hpeak⟩ := hrefused
  have hconnected : s.status.boardConnected = true := by
    by_contra hoff
    exact hactive (by simp [estimateAdcLoop, hoff])
  have hfull : ¬(0 : ℚ) > adcFullScale := by unfold adcFullScale; norm_num
  cases hmode : s.status.loopMode with
  | off => exact absurd (by simp [estimateAdcLoop, hmode]) hactive
  | manual =>
      refine ⟨s.status.loopExciteChannel, s.status.loopReturnChannel, hinit, hconnected, hgain,
        fun gains amplitude => ?_⟩
      simp only [estimateAdcLoop, hmode, hconnected]
      rfl
  | auto =>
      have hk := hknown hmode
      by_cases hroute : s.muxRouting adcLinkOutput < 4
      · refine ⟨dacLinkInput, ⟨_, hroute⟩, hinit, hconnected, hgain, fun gains amplitude => ?_⟩
        simp only [estimateAdcLoop, hmode, hconnected, hk, dif_pos hroute]
        rfl
      · refine absurd ?_ hpeak
        simp only [estimateAdcLoop, hmode, hconnected, hk, dif_neg hroute]
        exact not_lt.1 hfull

variable {excite ret : Channel}

theorem Watches.estimate (h : s.Watches excite ret) (amplitude : ℚ) :
    s.estimateAdcLoop .exact amplitude =
      { active := true
        exciteChannel := excite
        returnChannel := ret
        peak := InputSafety.loopPeak .exact amplitude s.status.adcSampleGain s.channelGains
          excite ret } :=
  h.loop s.channelGains amplitude

/-- With other gains, too, the measurement passes as long as the peak of the loop allows it. -/
theorem Watches.check_iff (h : s.Watches excite ret) (hprotect : s.status.adcProtectEnabled = true)
    (gains : Channel → GainSetting) (amplitude : ℚ) :
    ({ s with channelGains := gains }).checkAdcProtection .exact amplitude = .ok () ↔
      InputSafety.loopPeak .exact amplitude s.status.adcSampleGain gains excite ret ≤ adcFullScale := by
  have hprotect' : ({ s with channelGains := gains }).status.adcProtectEnabled = true := hprotect
  rw [check_eq_ok_iff hprotect', h.loop gains amplitude]
  simp

/-- The command of a gain remedy is read as it was meant. -/
theorem parseLine_gainCommand (channel : Channel) (g : GainSetting) :
    (parseLine (gainCommand channel g)).command = .boardGain ∧
      (parseLine (gainCommand channel g)).getArgInt 0 = some ((channel : ℤ) + 1) ∧
      (parseLine (gainCommand channel g)).getArgInt 1 = some (g.toIndex : ℤ) := by
  have hall : ∀ channel ∈ List.finRange 4, ∀ i ∈ List.range 8,
      (parseLine (gainCommand channel (.ofIndex i))).command = .boardGain ∧
        (parseLine (gainCommand channel (.ofIndex i))).getArgInt 0 = some ((channel : ℤ) + 1) ∧
        (parseLine (gainCommand channel (.ofIndex i))).getArgInt 1
          = some ((GainSetting.ofIndex i).toIndex : ℤ) := by decide +kernel
  have h := hall channel (List.mem_finRange channel) g.toIndex
    (List.mem_range.2 (Nat.lt_succ_of_le g.toIndex_le))
  rwa [GainSetting.ofIndex_toIndex] at h

/-- The server accepts the command of a gain remedy. -/
theorem gainArgs_gainCommand (hinit : s.status.hardwareInitialized = true)
    (hconnected : s.status.boardConnected = true) (channel : Channel) (g : GainSetting) :
    s.gainArgs (parseLine (gainCommand channel g)) = .ok (channel, g) := by
  obtain ⟨-, h₀, h₁⟩ := parseLine_gainCommand channel g
  have hchannel : validateChannel1Based ((channel : ℤ) + 1) "channel" = .ok channel := by
    unfold validateChannel1Based
    rw [dif_pos (by omega)]
    exact congrArg Except.ok (Fin.ext (by simp))
  have hindex : (0 : ℤ) ≤ g.toIndex ∧ (g.toIndex : ℤ) ≤ maxGainIndex := by
    have hle := g.toIndex_le
    omega
  have hrequire : s.requireBoard = .ok () := requireBoard_eq_ok.2 ⟨hinit, hconnected⟩
  simp only [gainArgs, bind_eq_ok, require_eq_ok, h₀, h₁, needed, hrequire]
  refine ⟨(), trivial, _, rfl, _, rfl, channel, hchannel, (), hindex, ?_⟩
  simp [pure, Except.pure]

/-- The highest gain of a channel with which the measurement passes works as a remedy. -/
theorem Watches.gain_works (h : s.Watches excite ret)
    (hprotect : s.status.adcProtectEnabled = true) {channel : Channel} {safeGain : GainSetting}
    {overdrives : GainSetting → Bool}
    (hover : ∀ g, overdrives g = false ↔ InputSafety.loopPeak .exact amplitude s.status.adcSampleGain
      (Function.update s.channelGains channel g) excite ret ≤ adcFullScale)
    (hsafe : overdrives safeGain = false)
    (hhighest : ∀ g, overdrives g = false → g.toIndex ≤ safeGain.toIndex) :
    (Remedy.gain channel safeGain).Works s amplitude := by
  refine ⟨(parseLine_gainCommand channel safeGain).1,
    gainArgs_gainCommand h.initialized h.connected channel safeGain, ?_, ?_⟩
  · exact (h.check_iff hprotect _ amplitude).2 ((hover safeGain).1 hsafe)
  · intro higher hpass
    exact hhighest higher ((hover higher).2 ((h.check_iff hprotect _ amplitude).1 hpass))

theorem toIndex_factor_mono {g g' : GainSetting} (h : g.toIndex ≤ g'.toIndex) :
    g.factor ≤ g'.factor := by
  have hall : ∀ i ∈ List.range 8, ∀ j ∈ List.range 8, i ≤ j →
      (GainSetting.ofIndex i).factor ≤ (GainSetting.ofIndex j).factor := by decide +kernel
  have hle := hall g.toIndex (List.mem_range.2 (Nat.lt_succ_of_le g.toIndex_le)) g'.toIndex
    (List.mem_range.2 (Nat.lt_succ_of_le g'.toIndex_le)) h
  rwa [GainSetting.ofIndex_toIndex, GainSetting.ofIndex_toIndex] at hle

/-- The peak without clipping. -/
theorem Watches.peak_le (h : s.Watches excite ret) (amplitude : ℚ) :
    InputSafety.loopPeak .exact amplitude s.status.adcSampleGain s.channelGains excite ret
      ≤ amplitude * s.gainProduct .exact (s.estimateAdcLoop .exact amplitude) := by
  rw [h.estimate]
  unfold InputSafety.loopPeak gainProduct
  by_cases hdirect : excite = ret
  · rw [if_pos hdirect, if_pos hdirect]
    exact boardDrivePeak_le _ _
  · rw [if_neg hdirect, if_neg hdirect]
    exact estimateAdcPeak_le h.sampleGain _ _ _

theorem maxAmplitude_exact (estimate : AdcLoopEstimate) : s.maxAmplitude .exact estimate =
    ⌊adcFullScale / s.gainProduct .exact estimate * 10000⌋ / 10000 := rfl

/-- The advised amplitude works as a remedy, unless it is zero. -/
theorem Watches.amplitude_works_iff (h : s.Watches excite ret)
    (hprotect : s.status.adcProtectEnabled = true) (ha : 0 < amplitude ∧ amplitude ≤ 1)
    (hrefused : s.checkAdcProtection .exact amplitude ≠ .ok ()) :
    (Remedy.amplitude (s.maxAmplitude .exact (s.estimateAdcLoop .exact amplitude))).Works s amplitude ↔
      s.gainProduct .exact (s.estimateAdcLoop .exact amplitude) ≤ 10000 := by
  set product := s.gainProduct .exact (s.estimateAdcLoop .exact amplitude) with hproduct
  have hproduct' : ∀ amplitude',
      s.gainProduct .exact (s.estimateAdcLoop .exact amplitude') = product := by
    intro amplitude'
    rw [hproduct, h.estimate, h.estimate]
    rfl
  have hfull : adcFullScale = 1 := rfl
  have hpass : ∀ amplitude', s.checkAdcProtection .exact amplitude' = .ok () ↔
      InputSafety.loopPeak .exact amplitude' s.status.adcSampleGain s.channelGains excite ret ≤ 1 :=
    fun amplitude' => h.check_iff hprotect s.channelGains amplitude'
  have hover : 1 < amplitude * product :=
    lt_of_lt_of_le (not_le.1 (mt (hpass amplitude).2 hrefused)) (h.peak_le amplitude)
  -- a refused amplitude of at most 1 means a product above 1
  have hone : 1 < product := by nlinarith [ha.1, ha.2]
  have hpos : 0 < product := by linarith
  -- the advice is rounded down to four decimals, so it is safe, but it may be zero
  have hbound : s.maxAmplitude .exact (s.estimateAdcLoop .exact amplitude) ≤ 1 / product := by
    have hfloor := Int.floor_le (1 / product * 10000)
    rw [maxAmplitude_exact, hfull, ← hproduct, div_le_iff₀ (by norm_num)]
    exact hfloor
  constructor
  · rintro ⟨haccept, -⟩
    have hvalid : 0 < s.maxAmplitude .exact (s.estimateAdcLoop .exact amplitude) :=
      (require_eq_ok.1 haccept).1
    have hquotient := hvalid.trans_le hbound
    rw [maxAmplitude_exact, hfull, ← hproduct, div_pos_iff_of_pos_right (by norm_num)] at hvalid
    have hfloor : 1 ≤ ⌊1 / product * 10000⌋ := by
      have hcast : 0 < ⌊1 / product * 10000⌋ := by exact_mod_cast hvalid
      omega
    have hle : (1 : ℚ) ≤ 1 / product * 10000 := by
      have hcast := Int.le_floor.1 hfloor
      exact_mod_cast hcast
    rw [div_mul_eq_mul_div, le_div_iff₀ hpos] at hle
    linarith
  · intro hle
    have hquotient : 1 ≤ 1 / product * 10000 := by
      rw [div_mul_eq_mul_div, le_div_iff₀ hpos]
      linarith
    have hfloor : 1 ≤ ⌊1 / product * 10000⌋ := Int.le_floor.2 (by exact_mod_cast hquotient)
    have hmax : 0 < s.maxAmplitude .exact (s.estimateAdcLoop .exact amplitude) := by
      have hcast : (0 : ℚ) < ⌊1 / product * 10000⌋ := by exact_mod_cast hfloor
      rw [maxAmplitude_exact, hfull, ← hproduct]
      positivity
    refine ⟨require_eq_ok.2 ⟨hmax, ?_⟩, ?_⟩
    · refine hbound.trans ?_
      rw [div_le_one hpos]
      exact hone.le
    · intro amplitude' hpos' hle'
      refine (hpass amplitude').2 ((h.peak_le amplitude').trans ?_)
      rw [hproduct' amplitude']
      have hsmall := hle'.trans hbound
      rwa [le_div_iff₀ hpos] at hsmall

/-- The tests of the three searches fail for good once they have failed. -/
theorem directOverdrive_mono (ha : 0 ≤ amplitude) (g g' : GainSetting) (h : g.toIndex ≤ g'.toIndex)
    (hover : decide (adcFullScale < boardDrivePeak .exact amplitude g) = true) :
    decide (adcFullScale < boardDrivePeak .exact amplitude g') = true := by
  rw [decide_eq_true_eq] at hover ⊢
  exact hover.trans_le (boardDrivePeak_mono ha (toIndex_factor_mono h))

theorem isOverdrive_mono {sampleGain : ℚ} (ha : 0 ≤ amplitude) (hs : 0 ≤ sampleGain)
    {e e' r r' : GainSetting} (he : e.toIndex ≤ e'.toIndex) (hr : r.toIndex ≤ r'.toIndex)
    (hover : isOverdrive .exact amplitude e r sampleGain = true) :
    isOverdrive .exact amplitude e' r' sampleGain = true := by
  unfold isOverdrive at hover ⊢
  rw [decide_eq_true_eq] at hover ⊢
  exact hover.trans_le
    (estimateAdcPeak_mono ha hs (toIndex_factor_mono he) (toIndex_factor_mono hr))

theorem isOverdrive_eq_false {e r : GainSetting} {sampleGain : ℚ} :
    isOverdrive .exact amplitude e r sampleGain = false ↔
      estimateAdcPeak .exact amplitude e r sampleGain ≤ adcFullScale := by
  rw [isOverdrive, decide_eq_false_iff_not, not_lt]

theorem direct_product_le (g : GainSetting) : dacFullScale * g.factor ≤ 10000 := by
  have hle := g.factor_le
  unfold dacFullScale
  linarith

/-- The remedies for a direct loop work. -/
theorem Watches.direct_remedies_work (h : s.Watches excite ret) (hdirect : excite = ret)
    (hprotect : s.status.adcProtectEnabled = true) (ha : 0 < amplitude ∧ amplitude ≤ 1)
    (hrefused : s.checkAdcProtection .exact amplitude ≠ .ok ()) : RemediesWork s amplitude := by
  -- the gains of a direct loop are too small to push the advised amplitude down to zero
  have hproduct : s.gainProduct .exact (s.estimateAdcLoop .exact amplitude) ≤ 10000 := by
    rw [h.estimate]
    unfold gainProduct
    rw [if_pos hdirect]
    exact direct_product_le _
  have hreduce := (h.amplitude_works_iff hprotect ha hrefused).2 hproduct
  have hspec := highestSafe_spec (directOverdrive_mono ha.1.le)
  have hexcite : (s.estimateAdcLoop .exact amplitude).exciteChannel = excite := by rw [h.estimate]
  have hret : (s.estimateAdcLoop .exact amplitude).returnChannel = ret := by rw [h.estimate]
  unfold RemediesWork remedies
  rw [if_pos (by rw [hexcite, hret, hdirect])]
  unfold maxSafeDirectGain
  cases hsearch : highestSafe fun candidate =>
      decide (adcFullScale < boardDrivePeak .exact amplitude candidate) with
  | none =>
      intro remedy hremedy
      rw [List.mem_singleton.1 hremedy]
      exact hreduce
  | some safeGain =>
      rw [hsearch] at hspec
      have hgain : (Remedy.gain excite safeGain).Works s amplitude := by
        refine h.gain_works hprotect (fun g => ?_) hspec.1 hspec.2
        rw [decide_eq_false_iff_not, not_lt, InputSafety.loopPeak, if_pos hdirect,
          Function.update_self]
      rw [hexcite]
      intro remedy hremedy
      rcases List.mem_cons.1 hremedy with rfl | hremedy
      · exact hgain
      · rw [List.mem_singleton.1 hremedy]
        exact hreduce

/-- The remedies for a loop through the sample work, unless the advised amplitude is zero. -/
theorem Watches.loop_remedies_work_iff (h : s.Watches excite ret) (hloop : excite ≠ ret)
    (hprotect : s.status.adcProtectEnabled = true) (ha : 0 < amplitude ∧ amplitude ≤ 1)
    (hrefused : s.checkAdcProtection .exact amplitude ≠ .ok ()) :
    RemediesWork s amplitude ↔ ¬AdvisesZero s amplitude := by
  have hreduce := h.amplitude_works_iff hprotect ha hrefused
  have hexcite : (s.estimateAdcLoop .exact amplitude).exciteChannel = excite := by rw [h.estimate]
  have hret : (s.estimateAdcLoop .exact amplitude).returnChannel = ret := by rw [h.estimate]
  have hreturns := highestSafe_spec fun g g' hg =>
    isOverdrive_mono ha.1.le h.sampleGain (le_refl (s.channelGains excite).toIndex) hg
  have hexcites := highestSafe_spec fun g g' hg =>
    isOverdrive_mono ha.1.le h.sampleGain hg (le_refl (s.channelGains ret).toIndex)
  unfold RemediesWork remedies AdvisesZero
  simp only [hexcite, hret, if_neg hloop]
  unfold maxSafeReturnGain maxSafeExciteGain
  cases hsearch : highestSafe fun candidate =>
      isOverdrive .exact amplitude (s.channelGains excite) candidate s.status.adcSampleGain with
  | some safeGain =>
      rw [hsearch] at hreturns
      have hgain : (Remedy.gain ret safeGain).Works s amplitude := by
        refine h.gain_works hprotect (fun g => ?_) hreturns.1 hreturns.2
        rw [isOverdrive_eq_false, InputSafety.loopPeak, if_neg hloop, Function.update_self,
          Function.update_of_ne hloop]
      -- with a safe return gain the lowest one is safe too, so the amplitude is not advised
      have hlowest : isOverdrive .exact amplitude (s.channelGains excite) .gain1_8
          s.status.adcSampleGain ≠ true := by
        intro hover
        have hzero : GainSetting.gain1_8.toIndex ≤ safeGain.toIndex := Nat.zero_le _
        have hsafe := isOverdrive_mono ha.1.le h.sampleGain
          (le_refl (s.channelGains excite).toIndex) hzero hover
        rw [hreturns.1] at hsafe
        cases hsafe
      constructor
      · rintro - ⟨-, hover, -⟩
        exact hlowest hover
      · intro _ remedy hremedy
        rw [List.mem_singleton.1 hremedy]
        exact hgain
  | none =>
      rw [hsearch] at hreturns
      have hzero : (Remedy.amplitude
          (s.maxAmplitude .exact (s.estimateAdcLoop .exact amplitude))).Works s amplitude
          ↔ ¬(excite ≠ ret ∧ isOverdrive .exact amplitude (s.channelGains excite) .gain1_8
            s.status.adcSampleGain = true ∧
              10000 < s.gainProduct .exact (s.estimateAdcLoop .exact amplitude)) := by
        rw [hreduce]
        constructor
        · rintro hle ⟨-, -, hlt⟩
          exact absurd hle (not_le.2 hlt)
        · intro hnot
          by_contra hlt
          exact hnot ⟨hloop, hreturns _, not_le.1 hlt⟩
      rw [← hzero]
      cases hsearch' : highestSafe fun candidate =>
          isOverdrive .exact amplitude candidate (s.channelGains ret) s.status.adcSampleGain with
      | none => exact List.forall_mem_singleton
      | some safeGain =>
          rw [hsearch'] at hexcites
          have hgain : (Remedy.gain excite safeGain).Works s amplitude := by
            refine h.gain_works hprotect (fun g => ?_) hexcites.1 hexcites.2
            rw [isOverdrive_eq_false, InputSafety.loopPeak, if_neg hloop, Function.update_self,
              Function.update_of_ne (Ne.symm hloop)]
          constructor
          · intro hall
            exact hall _ (List.mem_cons_of_mem _ (List.mem_singleton.2 rfl))
          · intro hamplitude remedy hremedy
            rcases List.mem_cons.1 hremedy with rfl | hremedy
            · exact hgain
            · rw [List.mem_singleton.1 hremedy]
              exact hamplitude

/-- What a refusal says, with its remedies. -/
theorem refusal_eq {reply : Reply} (h : s.checkAdcProtection .exact amplitude = .error reply) :
    ∃ finding, reply = .error .errParam ("ADC overdrive: ".toList ++ (finding ++
      remediesText (s.remedies .exact (s.estimateAdcLoop .exact amplitude) amplitude)) ++
        "; BOARD:ADC:PROTECT OFF overrides".toList) := by
  rw [← overdriveAdvice_eq]
  unfold checkAdcProtection at h
  dsimp only at h
  split_ifs at h with hoff hwithin
  obtain rfl := Except.error.inj h
  exact ⟨_, rfl⟩

/-- **Every remedy works unless zero is advised**, and these are the remedies that are printed. -/
theorem remedies_work_iff {P : Platform} (hreach : Reachable P s)
    (hinit : s.status.hardwareInitialized = true) (hprotect : s.status.adcProtectEnabled = true)
    (hknown : s.status.loopMode = .auto → s.muxRoutingKnown adcLinkOutput = true)
    (ha : 0 < amplitude ∧ amplitude ≤ 1) {reply : Reply}
    (hrefused : s.checkAdcProtection .exact amplitude = .error reply) :
    (∃ finding, reply = .error .errParam ("ADC overdrive: ".toList ++ (finding ++
      remediesText (s.remedies .exact (s.estimateAdcLoop .exact amplitude) amplitude)) ++
        "; BOARD:ADC:PROTECT OFF overrides".toList)) ∧
      (RemediesWork s amplitude ↔ ¬AdvisesZero s amplitude) := by
  refine ⟨refusal_eq hrefused, ?_⟩
  have hnot : s.checkAdcProtection .exact amplitude ≠ .ok () := by
    rw [hrefused]
    exact fun h => by cases h
  obtain ⟨excite, ret, h⟩ :=
    exists_watches hinit hreach.wellFormed.sampleGain hprotect hknown hnot
  by_cases hdirect : excite = ret
  · constructor
    · rintro - ⟨hne, -⟩
      rw [h.estimate] at hne
      exact hne hdirect
    · intro _
      exact h.direct_remedies_work hdirect hprotect ha hnot
  · exact h.loop_remedies_work_iff hdirect hprotect ha hnot

end Loop

/-! ### A loop with a very high gain -/

/-- After `BOARD:ADC:LOOP 1,2`, `BOARD:GAIN 2,7` and `BOARD:ADC:SAMPLEGAIN 1000`. -/
def sensitive : CommandHandler :=
  ((initialized.carriedOut .exact (parseLine "BOARD:ADC:LOOP 1,2".toList)).carriedOut .exact
    (parseLine "BOARD:GAIN 2,7".toList)).carriedOut .exact
      (parseLine "BOARD:ADC:SAMPLEGAIN 1000".toList)

theorem reachable_sensitive : Reachable (flat .exact) sensitive :=
  (((reachable_initialized (flat .exact)).carriedOut _).carriedOut _).carriedOut _

/-- The refusal of a measurement with this loop. -/
def refusal : Reply :=
  errorReply .errParam ("ADC overdrive: expected ADC peak ~10.50 V exceeds 1.00 V full scale" ++
    " at sample gain 1000; reduce excitation amplitude to <= 0.0000" ++
    "; BOARD:ADC:PROTECT OFF overrides")

theorem check_sensitive : sensitive.checkAdcProtection .exact 1 = .error refusal := by
  decide +kernel

theorem remedies_work_iff_sensitive :
    (∃ finding, refusal = .error .errParam ("ADC overdrive: ".toList ++ (finding ++
      remediesText (sensitive.remedies .exact (sensitive.estimateAdcLoop .exact 1) 1)) ++
        "; BOARD:ADC:PROTECT OFF overrides".toList)) ∧
      (RemediesWork sensitive 1 ↔ ¬AdvisesZero sensitive 1) :=
  remedies_work_iff reachable_sensitive (by decide +kernel) (by decide +kernel) (by decide +kernel)
    (by norm_num) check_sensitive

/-- **An amplitude of zero is advised**, which no measurement may have. -/
theorem zero_amplitude_advised :
    Reachable (flat .exact) sensitive ∧ sensitive.checkAdcProtection .exact 1 = .error refusal ∧
      ¬RemediesWork sensitive 1 := by
  refine ⟨reachable_sensitive, check_sensitive, ?_⟩
  intro hwork
  have hremedies : sensitive.remedies .exact (sensitive.estimateAdcLoop .exact 1) 1
      = [.amplitude 0] := by decide +kernel
  have hzero := hwork (.amplitude 0) (by rw [hremedies]; exact List.mem_singleton.2 rfl)
  have hpos := (require_eq_ok.1 hzero.1).1
  exact lt_irrefl 0 hpos

end CommandHandler

end Afm
