/-
**Rejected commands.**

A command that is refused as invalid should have no effect.  All checks of arguments come before
anything else, so a reply that stems from them leaves everything as it was.  One refusal comes
late: a sinc measurement finds out that its band holds no frequency bin only after it has measured.

Main definitions:

* `Afm.CommandHandler.RejectsCleanly`, `Afm.CommandHandler.EmptyBand` — a rejection without effect,
  and the late refusal.

Main results:

* `Afm.CommandHandler.rejectsCleanly_iff` — the late refusal is the only rejection with an effect.
-/

import RedPitayaAfm.HandlerRuns

set_option relaxedAutoImplicit false
set_option autoImplicit false

namespace Afm

namespace CommandHandler

open Effect

/-! ### Rejections -/

/-- The calls of the two devices and of their factories. -/
def IsDeviceCall : ServerCall → Prop
  | .cancelCheck => False
  | .now => False
  | .sleep _ => False
  | .planFft _ => False
  | _ => True

/-- The command is refused as invalid. -/
def Rejected (reply : Reply) : Prop :=
  reply.status = .errSyntax ∨ reply.status = .errParam ∨ reply.status = .errNotInit

/-- Whenever the command is refused as invalid, no device was called and nothing has changed. -/
def RejectsCleanly (P : Platform) (s : CommandHandler) (cmd : ParsedCommand) : Prop :=
  ∀ reply s' (calls : Calls), Runs journal [] (handleCommand P cmd s) (.ok reply, s') calls →
    Rejected reply → (∀ call ∈ calls, ¬IsDeviceCall call.1) ∧ s' = s

/-- Bin `i` of the record of a sinc measurement. -/
def binFrequency (A : Arithmetic) (a : SincArgs) (i : ℕ) : ℚ :=
  ({ samplingFrequency := ServerConfig.adcSampleRateHz / a.decimation } : FFTProcessor ℚ).frequency
    A a.numSamples i

/-- A sinc measurement passes every check, but its band holds none of the bins. -/
def EmptyBand (P : Platform) (s : CommandHandler) (cmd : ParsedCommand) : Prop :=
  cmd.command = .measSinc ∧ cmd.args.length ≤ maxArgCount .measSinc ∧
    ∃ a, s.sincArgs P.arithmetic cmd = .ok a ∧
      ∀ i ≤ a.numSamples / 2, inBand P.arithmetic a (binFrequency P.arithmetic a i) = false

/-! ### Commands that have passed their checks -/

/-- The method never refuses. -/
abbrev Accepts (m : Method Reply) : Prop := m.Returns fun reply => ¬Rejected reply

theorem not_rejected_ok (data : Text) : ¬Rejected (.ok data) := by
  rintro (h | h | h) <;> cases h

theorem not_rejected_hardware (message : Text) : ¬Rejected (.error .errHardware message) := by
  rintro (h | h | h) <;> cases h

theorem not_rejected_timeout (message : Text) : ¬Rejected (.error .errTimeout message) := by
  rintro (h | h | h) <;> cases h

theorem not_rejected_aborted (message : Text) : ¬Rejected (.error .errAborted message) := by
  rintro (h | h | h) <;> cases h

theorem not_rejected_text (body : Text) : ¬Rejected (.text body) := by
  rintro (h | h | h) <;> cases h

theorem not_rejected_spectrum (points : List SpectrumPoint) : ¬Rejected (.spectrum points) := by
  rintro (h | h | h) <;> cases h

open Act (Returns)

variable {A : Arithmetic}

theorem accepts_okWithSuffix (data : Text) : Accepts (okWithSuffix A data) :=
  Returns.bind fun _ => Returns.bind fun _ => Returns.pure (not_rejected_ok _)

theorem accepts_okWithWarning : Accepts (okWithWarning A) :=
  Returns.bind fun _ => Returns.bind fun _ => Returns.pure (not_rejected_ok _)

theorem accepts_boardError : Accepts boardError :=
  Returns.bind fun _ => Returns.pure (not_rejected_hardware _)

theorem accepts_boardCommand {c : BoardSetting} {done : Method Reply} (h : Accepts done) :
    Accepts (boardCommand c done) :=
  Returns.bind fun _ => Returns.ite (Returns.bind fun _ => h) accepts_boardError

theorem accepts_handleRst : Accepts handleRst :=
  Returns.bind fun _ => Returns.bind fun _ => Returns.bind fun _ =>
    Returns.pure (not_rejected_ok _)

theorem not_rejected_initReply (s : CommandHandler) : ¬Rejected s.initReply := by
  unfold initReply
  by_cases h : s.status.mode = .rpOnly
  · rw [if_pos h]
    exact not_rejected_ok _
  · rw [if_neg h]
    exact not_rejected_ok _

theorem accepts_finishInit : Accepts finishInit := by
  refine Returns.bind fun _ => Returns.bind fun _ => Returns.bind fun _ => ?_
  exact Returns.bind fun s => Returns.pure (not_rejected_initReply s)

theorem accepts_handleSystInit : Accepts handleSystInit := by
  refine Returns.bind fun s => Returns.ite (Returns.pure (not_rejected_ok _)) ?_
  refine Returns.bind fun opened => ?_
  cases opened with
  | false => exact Returns.bind fun _ => Returns.pure (not_rejected_hardware _)
  | true => exact accepts_finishInit

theorem accepts_handleSystDeinit : Accepts handleSystDeinit :=
  Returns.bind fun _ => Returns.ite
    (Returns.bind fun _ => Returns.bind fun _ => Returns.bind fun _ =>
      Returns.pure (not_rejected_ok _))
    (Returns.pure (not_rejected_ok _))

theorem accepts_sweepLoop (P : Platform) (a : SweepArgs) (points : List ℕ)
    (spectrum : List SpectrumPoint) : Accepts (sweepLoop P a points spectrum) := by
  induction points generalizing spectrum with
  | nil => exact Returns.pure (not_rejected_spectrum _)
  | cons point points ih =>
      refine Returns.bind fun cancelled => Returns.ite (Returns.pure (not_rejected_aborted _)) ?_
      refine Returns.bind fun signal => Returns.bind fun loaded => ?_
      refine Returns.ite ?_ (Returns.pure (not_rejected_hardware _))
      refine Returns.bind fun acquisition => ?_
      cases acquisition with
      | notStarted => exact Returns.pure (not_rejected_hardware _)
      | timeout => exact Returns.pure (not_rejected_timeout _)
      | notRead => exact Returns.pure (not_rejected_hardware _)
      | samples record => exact Returns.bind fun _ => Returns.bind fun _ => ih _

theorem accepts_measureSweep (P : Platform) (a : SweepArgs) : Accepts (measureSweep P a) := by
  refine Returns.bind fun applied => Returns.ite ?_ (Returns.pure (not_rejected_hardware _))
  refine Returns.bind fun _ => Returns.bind fun _ => ?_
  exact Returns.withDestructor (accepts_sweepLoop P a _ _)

/-! ### The late refusal -/

section Sinc

variable {P : Platform} {a : SincArgs} {W : World server} {s s' : CommandHandler}
  {w w' : W.State} {reply : Reply}

theorem sincSpectrum_eq_nil {axis magnitude phase : List ℚ}
    (hlen : axis.length = magnitude.length) :
    sincSpectrum A a axis magnitude phase = [] ↔
      ∀ i < axis.length, inBand A a (axis.getD i 0) = false := by
  simp only [sincSpectrum, ← hlen, min_self, List.filterMap_eq_nil_iff, List.mem_range]
  constructor
  · intro h i hi
    by_cases hin : inBand A a (axis.getD i 0) = true
    · have hi' := h i hi
      rw [if_pos hin] at hi'
      cases hi'
    · exact Bool.not_eq_true _ ▸ hin
  · intro h i hi
    have hin : ¬inBand A a (axis.getD i 0) = true := by
      rw [h i hi]
      exact Bool.false_ne_true
    exact if_neg hin

/-- The bins of a record of the size that was asked for. -/
theorem sincSpectrum_eq_nil_iff {p : FFTProcessor ℚ} {record : List ℚ}
    (hfs : p.samplingFrequency = ServerConfig.adcSampleRateHz / a.decimation)
    (hlen : record.length = a.numSamples) :
    sincSpectrum A a (p.frequencyAxis A a.numSamples)
        (magnitudeSpectrum P.numerics (computeFFT P.numerics record))
        (phaseSpectrum P.numerics (computeFFT P.numerics record)) = [] ↔
      ∀ i ≤ a.numSamples / 2, inBand A a (binFrequency A a i) = false := by
  have haxis : (p.frequencyAxis A a.numSamples).length = a.numSamples / 2 + 1 := by
    simp [FFTProcessor.frequencyAxis]
  have hget : ∀ i ≤ a.numSamples / 2, (p.frequencyAxis A a.numSamples).getD i 0
      = binFrequency A a i := by
    intro i hi
    have hi' : i < a.numSamples / 2 + 1 := by omega
    simp [FFTProcessor.frequencyAxis, FFTProcessor.frequency, binFrequency, hfs, hi',
      List.getD_eq_getElem?_getD]
  rw [sincSpectrum_eq_nil (by simp [haxis, magnitudeSpectrum, computeFFT, hlen]), haxis]
  constructor
  · intro h i hi
    rw [← hget i hi]
    exact h i (by omega)
  · intro h i hi
    rw [hget i (by omega)]
    exact h i (by omega)

theorem rejected_sincReply_iff {spectrum : List SpectrumPoint} :
    Rejected (sincReply spectrum) ↔ spectrum = [] := by
  unfold sincReply
  by_cases h : spectrum = []
  · simp [h, Rejected, errorReply, Reply.status]
  · have hne : spectrum.isEmpty = false := by simpa using h
    simp [hne, h, not_rejected_spectrum]

theorem transform_runs {p : FFTProcessor ℚ} {record : List ℚ} {bins : List (ℚ × ℚ)}
    (h : Runs W w (transform P p record s) (.ok bins, s') w') :
    bins = computeFFT P.numerics record := by
  unfold transform at h
  by_cases hempty : record.isEmpty = true
  · rw [if_pos hempty] at h
    obtain ⟨heq, -⟩ := runs_done.1 h
    cases heq
  · rw [if_neg hempty] at h
    by_cases hplan : p.planSize = record.length
    · rw [if_pos hplan] at h
      obtain ⟨heq, -⟩ := runs_done.1 h
      cases heq
      rfl
    · rw [if_neg hplan] at h
      obtain ⟨planned, s₁, w₁, -, h⟩ := Act.runs_bind_ok.1 h
      obtain ⟨u, s₂, w₂, -, h⟩ := Act.runs_bind_ok.1 h
      obtain ⟨u', s₃, w₃, -, h⟩ := Act.runs_bind_ok.1 h
      obtain ⟨heq, -⟩ := runs_done.1 h
      cases heq
      rfl

/-- A measured record is refused only when the band holds no bin. -/
theorem analyzeSinc_rejected {p : FFTProcessor ℚ} {record : List ℚ}
    (hp : s.fftProcessor = some p)
    (hfs : p.samplingFrequency = ServerConfig.adcSampleRateHz / a.decimation)
    (hlen : record.length = a.numSamples)
    (h : Runs W w (analyzeSinc P a record s) (.ok reply, s') w') (hrej : Rejected reply) :
    ∀ i ≤ a.numSamples / 2, inBand P.arithmetic a (binFrequency P.arithmetic a i) = false := by
  have hp' : (s.setSaturation (SaturationDetector.analyze record)).fftProcessor = some p := hp
  simp only [analyzeSinc, Act.bind_apply, Act.modify_apply, Act.get_apply, Prog.bind_done,
    hp'] at h
  obtain ⟨bins, s₁, w₁, htransform, h⟩ := Act.runs_bind_ok.1 h
  obtain ⟨heq, -⟩ := runs_done.1 h
  cases heq
  rw [transform_runs htransform] at hrej
  have hnil := rejected_sincReply_iff.1 hrej
  have hwindow : (applyHannWindow P.numerics record).length = a.numSamples := by simp [hlen]
  exact (sincSpectrum_eq_nil_iff hfs hwindow).1 hnil

theorem runSinc_rejected {p : FFTProcessor ℚ} (hp : s.fftProcessor = some p)
    (hfs : p.samplingFrequency = ServerConfig.adcSampleRateHz / a.decimation)
    (h : Runs W w (runSinc P a s) (.ok reply, s') w') (hrej : Rejected reply) :
    ∀ i ≤ a.numSamples / 2, inBand P.arithmetic a (binFrequency P.arithmetic a i) = false := by
  obtain ⟨acquisition, s₁, w₁, hacquire, h⟩ := Act.runs_bind_ok.1 h
  have hs₁ : s = s₁ := (acquire_reads P a.numSamples).moves W _ _ _ _ _ hacquire
  subst hs₁
  cases acquisition with
  | notStarted =>
      obtain ⟨heq, -⟩ := runs_done.1 h
      cases heq
      exact absurd hrej (not_rejected_hardware _)
  | timeout =>
      obtain ⟨heq, -⟩ := runs_done.1 h
      cases heq
      exact absurd hrej (not_rejected_timeout _)
  | notRead =>
      obtain ⟨heq, -⟩ := runs_done.1 h
      cases heq
      exact absurd hrej (not_rejected_hardware _)
  | samples record => exact analyzeSinc_rejected hp hfs (by simp) h hrej

theorem measureSinc_rejected (hhw : s.hardware = true) (hd : a.decimation ≠ 0)
    (h : Runs W w (measureSinc P a s) (.ok reply, s') w') (hrej : Rejected reply) :
    ∀ i ≤ a.numSamples / 2, inBand P.arithmetic a (binFrequency P.arithmetic a i) = false := by
  obtain ⟨applied, s₁, w₁, happly, h⟩ := Act.runs_bind_ok.1 h
  obtain ⟨taken, -, htaken, rfl⟩ := (applyDecimation_runs hhw hd).1 happly
  cases applied with
  | false =>
      obtain ⟨heq, -⟩ := runs_done.1 h
      cases heq
      exact absurd hrej (not_rejected_hardware _)
  | true =>
      obtain rfl : taken = .ok true := by
        cases taken with
        | error what => cases htaken
        | ok b => cases htaken; rfl
      simp only [if_true] at h
      obtain ⟨u, s₂, w₂, htrack, h⟩ := Act.runs_bind_ok.1 h
      obtain ⟨heq, rfl⟩ := runs_done.1 htrack
      cases heq
      obtain ⟨signal, s₃, w₃, hgenerate, h⟩ := Act.runs_bind_ok.1 h
      have hs₃ := (generate_reads (C := fun _ => True) _).moves W _ _ _ _ _ hgenerate
      subst hs₃
      obtain ⟨loaded, s₄, w₄, hload, h⟩ := Act.runs_bind_ok.1 h
      have hs₄ := (hardwareCall_reads (C := fun _ => True) trivial).moves W _ _ _ _ _ hload
      subst hs₄
      cases loaded with
      | false =>
          obtain ⟨heq, -⟩ := runs_done.1 h
          cases heq
          exact absurd hrej (not_rejected_hardware _)
      | true =>
          obtain ⟨u, s₅, w₅, hmodify, h⟩ := Act.runs_bind_ok.1 h
          obtain ⟨heq, rfl⟩ := runs_done.1 hmodify
          cases heq
          obtain ⟨s₆, w₆, hrun⟩ := Act.runs_withDestructor_ok h
          exact runSinc_rejected (p := { samplingFrequency := _ }) rfl rfl hrun hrej

end Sinc

/-! ### Every other refusal is clean -/

/-- A refusal makes no call and leaves the fields as they were. -/
def Clean (m : Method Reply) : Prop :=
  ∀ s reply s' (calls : Calls), Runs journal [] (m s) (.ok reply, s') calls → Rejected reply →
    calls = [] ∧ s' = s

theorem clean_of_accepts {m : Method Reply} (h : Accepts m) : Clean m :=
  fun _ reply _ _ hrun hrej => absurd hrej (h journal _ _ reply _ _ hrun)

theorem clean_pure (reply : Reply) : Clean (pure reply) := by
  intro s reply' s' calls hrun _
  obtain ⟨heq, rfl⟩ := runs_done.1 hrun
  cases heq
  exact ⟨rfl, rfl⟩

/-- Checks refuse cleanly, so only what comes after them matters. -/
theorem clean_checked {α : Type} {check : CommandHandler → Except Reply α} {body : α → Method Reply}
    (h : ∀ a, Accepts (body a)) : Clean (checked check body) := by
  intro s reply s' calls hrun hrej
  rcases checked_runs.1 hrun with ⟨reply', -, -, rfl, rfl⟩ | ⟨a, -, hbody⟩
  · exact ⟨rfl, rfl⟩
  · exact absurd hrej (h a journal _ _ _ _ _ hbody)

theorem accepts_get {f : CommandHandler → Reply} (h : ∀ s, ¬Rejected (f s)) :
    Accepts (do let s ← Act.get; pure (f s)) :=
  Returns.bind fun s => Returns.pure (h s)

theorem clean_handleBoardStatus : Clean handleBoardStatus := by
  refine clean_checked fun _ => Returns.bind fun text => ?_
  cases text with
  | none => exact accepts_boardError
  | some statusText =>
      refine Returns.bind fun s => ?_
      cases s.refreshFromStatus statusText with
      | error m => exact Returns.throw
      | ok s' => exact Returns.bind fun _ => Returns.pure (not_rejected_text _)

theorem clean_handleBoardAdcLoop (cmd : ParsedCommand) : Clean (handleBoardAdcLoop A cmd) := by
  refine clean_checked fun request => ?_
  cases request with
  | query => exact accepts_get fun _ => not_rejected_ok _
  | off => exact Returns.bind fun _ => Returns.pure (not_rejected_ok _)
  | auto => exact Returns.bind fun _ => accepts_okWithSuffix _
  | manual excite ret => exact Returns.bind fun _ => accepts_okWithSuffix _

theorem clean_handleBoardAdcProtect (cmd : ParsedCommand) :
    Clean (handleBoardAdcProtect A cmd) := by
  refine clean_checked fun request => ?_
  cases request with
  | none => exact accepts_get fun _ => not_rejected_ok _
  | some enabled => exact Returns.bind fun _ => accepts_okWithSuffix _

theorem clean_handleBoardAdcSampleGain (cmd : ParsedCommand) :
    Clean (handleBoardAdcSampleGain A cmd) := by
  refine clean_checked fun request => ?_
  cases request with
  | none => exact accepts_get fun _ => not_rejected_ok _
  | some sampleGain => exact Returns.bind fun _ => accepts_okWithSuffix _

/-- Every command but the sinc measurement refuses cleanly. -/
theorem clean_dispatch (P : Platform) {cmd : ParsedCommand} (hne : cmd.command ≠ .measSinc) :
    Clean (dispatch P cmd) := by
  unfold dispatch
  cases hc : cmd.command with
  | idn => exact clean_pure _
  | rst => exact clean_of_accepts accepts_handleRst
  | opc => exact clean_pure _
  | systPing => exact clean_pure _
  | systVersion => exact clean_pure _
  | systStatus =>
      exact clean_of_accepts (Returns.bind fun _ => accepts_get fun _ => not_rejected_ok _)
  | systInit => exact clean_of_accepts accepts_handleSystInit
  | systDeinit => exact clean_of_accepts accepts_handleSystDeinit
  | systMode => exact clean_of_accepts (accepts_get fun _ => not_rejected_ok _)
  | systShutdown => exact clean_pure _
  | boardMuxRoute => exact clean_checked fun _ => accepts_boardCommand accepts_okWithWarning
  | boardMuxDisconnect => exact clean_checked fun _ => accepts_boardCommand accepts_okWithWarning
  | boardGain => exact clean_checked fun _ => accepts_boardCommand (accepts_okWithSuffix _)
  | boardAdcLoop => exact clean_handleBoardAdcLoop cmd
  | boardAdcProtect => exact clean_handleBoardAdcProtect cmd
  | boardAdcSampleGain => exact clean_handleBoardAdcSampleGain cmd
  | boardReset => exact clean_checked fun _ => accepts_boardCommand (accepts_okWithSuffix _)
  | boardStatus => exact clean_handleBoardStatus
  | measSinc => exact absurd hc hne
  | measSweep => exact clean_checked fun a => accepts_measureSweep P a
  | unknown => exact clean_pure _

/-- A sinc measurement refuses cleanly unless its band is empty. -/
theorem clean_of_not_emptyBand {P : Platform} {s : CommandHandler} {cmd : ParsedCommand}
    (h : WellFormed s) (hband : ¬EmptyBand P s cmd) : RejectsCleanly P s cmd := by
  intro reply s' calls hrun hrej
  suffices hclean : calls = [] ∧ s' = s by
    obtain ⟨rfl, rfl⟩ := hclean
    exact ⟨by simp, rfl⟩
  unfold handleCommand at hrun
  by_cases hargs : cmd.command ≠ .unknown ∧ maxArgCount cmd.command < cmd.args.length
  · rw [if_pos hargs] at hrun
    exact clean_pure _ s reply s' calls hrun hrej
  rw [if_neg hargs] at hrun
  by_cases hc : cmd.command = .measSinc
  · have hdispatch : dispatch P cmd = handleMeasSinc P cmd := by simp [dispatch, hc]
    rw [hdispatch] at hrun
    rcases checked_runs.1 hrun with ⟨reply', -, -, rfl, rfl⟩ | ⟨a, ha, hbody⟩
    · exact ⟨rfl, rfl⟩
    · have hvalid := sincArgs_valid ha
      have hempty := measureSinc_rejected (h.hardware hvalid.initialized)
        (Fpga.ne_zero_of_isValidDecimation hvalid.validDecimation) hbody hrej
      have hlen : cmd.args.length ≤ maxArgCount .measSinc := by
        by_contra hlt
        exact hargs ⟨by simp [hc], by rw [hc]; omega⟩
      exact absurd ⟨hc, hlen, a, ha, hempty⟩ hband
  · exact clean_dispatch P hc s reply s' calls hrun hrej

/-! ### The late refusal happens -/

section Late

variable {P : Platform} {a : SincArgs} {s : CommandHandler}

/-- The hardware may give any answer. -/
theorem exists_hardwareCall (h : s.hardware = true) (c : HardwareCall) (v : c.Result)
    (calls : Calls) :
    Runs journal calls (hardwareCall c s) (.ok v, s) (calls ++ [⟨.hardware c, .ok v⟩]) :=
  (hardwareCall_runs h).2 ⟨.ok v, rfl, rfl, rfl⟩

/-- A measurement may come to its end at once. -/
theorem exists_acquire (hr : 0 < P.rounds) (h : s.hardware = true) (numSamples : ℕ)
    (calls : Calls) : ∃ record, ∃ calls' : Calls,
      Runs journal calls (acquire P numSamples s) (.ok (.samples record), s) calls' := by
  obtain ⟨rounds, hrounds⟩ : ∃ rounds, P.rounds = rounds + 1 := ⟨P.rounds - 1, by omega⟩
  have hwait : ∀ calls : Calls, ∃ calls' : Calls,
      Runs journal calls (waitForMeasurement P s) (.ok true, s) calls' := by
    intro calls
    have hcomplete := exists_hardwareCall h .isMeasurementComplete true
      (calls ++ [⟨.now, (0 : ℤ)⟩])
    refine ⟨calls ++ [⟨.now, (0 : ℤ)⟩] ++ [⟨.hardware .isMeasurementComplete, .ok true⟩], ?_⟩
    refine Act.runs_bind_ok.2 ⟨(0 : ℤ), s, _, Runs.call rfl (Runs.done _ _), ?_⟩
    refine Act.runs_bind_ok.2 ⟨s, s, _, Runs.done _ _, ?_⟩
    rw [hrounds]
    exact Act.runs_bind_ok.2 ⟨true, s, _, hcomplete, Runs.done _ _⟩
  have hstart := exists_hardwareCall h (.startMeasurement numSamples acquisitionDelaySamples) true
    calls
  obtain ⟨calls₁, hwait₁⟩ := hwait (calls ++ [⟨.hardware
    (.startMeasurement numSamples acquisitionDelaySamples), .ok true⟩])
  have hread := exists_hardwareCall h (.getAcquiredSignal numSamples) (some fun _ => 0) calls₁
  refine ⟨fun _ => 0, calls₁ ++ [⟨.hardware (.getAcquiredSignal numSamples),
    .ok (some fun _ => 0)⟩], Act.runs_bind_ok.2 ⟨true, s, _, hstart, ?_⟩⟩
  refine Act.runs_bind_ok.2 ⟨true, s, _, hwait₁, ?_⟩
  exact Act.runs_bind_ok.2 ⟨some fun _ => 0, s, _, hread, Runs.done _ _⟩

theorem exists_transform {p : FFTProcessor ℚ} {record : List ℚ} (hne : record ≠ []) (calls : Calls) :
    ∃ s', ∃ calls' : Calls, Runs journal calls (transform P p record s)
      (.ok (computeFFT P.numerics record), s') calls' ∧ s'.hardware = s.hardware := by
  have hempty : ¬record.isEmpty = true := by simpa using hne
  unfold transform
  rw [if_neg hempty]
  by_cases hplan : p.planSize = record.length
  · rw [if_pos hplan]
    exact ⟨s, calls, Runs.done _ _, rfl⟩
  · rw [if_neg hplan]
    refine ⟨{ s with fftProcessor := some { p with planSize := record.length } },
      calls ++ [⟨.planFft record.length, .ok ()⟩], ?_, rfl⟩
    refine Act.runs_bind_ok.2
      ⟨(.ok () : Except Text Unit), s, _, Runs.call rfl (Runs.done _ _), ?_⟩
    refine Act.runs_bind_ok.2 ⟨(), s, _, Runs.done _ _, ?_⟩
    exact Act.runs_bind_ok.2 ⟨(), _, _, Runs.done _ _, Runs.done _ _⟩

/-- A record of an empty band is refused. -/
theorem exists_analyzeSinc {p : FFTProcessor ℚ} {record : List ℚ}
    (hp : s.fftProcessor = some p)
    (hfs : p.samplingFrequency = ServerConfig.adcSampleRateHz / a.decimation)
    (hlen : record.length = a.numSamples) (hpos : 0 < a.numSamples)
    (hempty : ∀ i ≤ a.numSamples / 2,
      inBand P.arithmetic a (binFrequency P.arithmetic a i) = false) (calls : Calls) :
    ∃ s', ∃ calls' : Calls,
      Runs journal calls (analyzeSinc P a record s) (.ok (sincReply []), s') calls' ∧
        s'.hardware = s.hardware := by
  have hp' : (s.setSaturation (SaturationDetector.analyze record)).fftProcessor = some p := hp
  have hwindow : (applyHannWindow P.numerics record).length = a.numSamples := by simp [hlen]
  have hne : applyHannWindow P.numerics record ≠ [] := by
    rintro hnil
    rw [hnil] at hwindow
    simp only [List.length_nil] at hwindow
    omega
  obtain ⟨s', calls', htransform, hh⟩ := exists_transform (P := P) (p := p)
    (s := s.setSaturation (SaturationDetector.analyze record)) hne calls
  refine ⟨s', calls', ?_, hh⟩
  simp only [analyzeSinc, Act.bind_apply, Act.modify_apply, Act.get_apply, Prog.bind_done, hp']
  refine Act.runs_bind_ok.2 ⟨_, s', calls', htransform, ?_⟩
  rw [(sincSpectrum_eq_nil_iff hfs hwindow).2 hempty]
  exact Runs.done _ _

theorem exists_resetMeasurement (h : s.hardware = true) (calls : Calls) :
    Runs journal calls (resetMeasurement s) (.ok (), s) (calls ++ [⟨.resetMeasurement, true⟩]) := by
  simp only [resetMeasurement, Act.bind_apply, Act.get_apply, Prog.bind_done, h, if_true]
  exact Runs.call (r := true) rfl (Runs.done _ _)

/-- A measurement that replies ends in its destructor. -/
theorem exists_scopedMeasurement {body : Method Reply} {reply : Reply} {s₁ : CommandHandler}
    {calls calls₁ : Calls}
    (hbody : Runs journal calls (body { s with status.measurementInProgress := true })
      (.ok reply, s₁) calls₁) (h : s₁.hardware = true) :
    ∃ s', ∃ calls' : Calls,
      Runs journal calls (scopedMeasurement body s) (.ok reply, s') calls' := by
  have hreset := exists_resetMeasurement
    (s := { s₁ with status.measurementInProgress := false }) h calls₁
  refine ⟨{ s₁ with status.measurementInProgress := false },
    calls₁ ++ [⟨.resetMeasurement, true⟩], Act.runs_bind_ok.2 ⟨(), _, _, Runs.done _ _, ?_⟩⟩
  refine Effect.runs_bind.2 ⟨_, _, hbody, ?_⟩
  refine Effect.runs_bind.2 ⟨(.ok (), { s₁ with status.measurementInProgress := false }), _, ?_,
    Runs.done _ _⟩
  exact Act.runs_bind_ok.2 ⟨(), _, _, Runs.done _ _, hreset⟩

theorem exists_runSinc {p : FFTProcessor ℚ} (hr : 0 < P.rounds) (h : s.hardware = true)
    (hp : s.fftProcessor = some p)
    (hfs : p.samplingFrequency = ServerConfig.adcSampleRateHz / a.decimation)
    (hpos : 0 < a.numSamples)
    (hempty : ∀ i ≤ a.numSamples / 2,
      inBand P.arithmetic a (binFrequency P.arithmetic a i) = false) (calls : Calls) :
    ∃ s', ∃ calls' : Calls, Runs journal calls (scopedMeasurement (runSinc P a) s)
      (.ok (sincReply []), s') calls' := by
  obtain ⟨record, calls₁, hacquire⟩ := exists_acquire (P := P)
    (s := { s with status.measurementInProgress := true }) hr h a.numSamples calls
  have hlen : (List.ofFn record).length = a.numSamples := List.length_ofFn
  obtain ⟨s₂, calls₂, hanalyze, hh⟩ := exists_analyzeSinc (P := P)
    (s := { s with status.measurementInProgress := true }) hp hfs hlen hpos hempty calls₁
  have hbody : Runs journal calls (runSinc P a { s with status.measurementInProgress := true })
      (.ok (sincReply []), s₂) calls₂ := Act.runs_bind_ok.2 ⟨_, _, _, hacquire, hanalyze⟩
  exact exists_scopedMeasurement hbody (hh.trans h)

/-- The record of a run only grows. -/
theorem journal_extends {α : Type} {p : Prog server α} {x : α} {calls calls' : Calls}
    (h : Runs journal calls p x calls') : calls <+: calls' := by
  refine h.invariant (P := fun v => calls <+: v) ?_ (List.prefix_refl _)
  rintro (w : Calls) c r (w' : Calls) hw hstep
  have hstep' : w' = w ++ [⟨c, r⟩] := hstep
  rw [hstep']
  exact hw.trans (List.prefix_append _ _)

/-- **The late refusal** of a sinc measurement comes after calls of the hardware. -/
theorem exists_measureSinc (hr : 0 < P.rounds) (h : s.hardware = true) (hvalid : a.Valid P.arithmetic s)
    (hempty : ∀ i ≤ a.numSamples / 2,
      inBand P.arithmetic a (binFrequency P.arithmetic a i) = false) :
    ∃ s', ∃ calls : Calls, Runs journal [] (measureSinc P a s) (.ok (sincReply []), s') calls ∧
      ⟨.hardware (.setDecimation a.decimation), .ok true⟩ ∈ calls := by
  have hd := Fpga.ne_zero_of_isValidDecimation hvalid.validDecimation
  have happly : Runs journal [] (applyDecimation a.decimation s)
      (.ok true, s.withDecimation a.decimation)
      [⟨.hardware (.setDecimation a.decimation), .ok true⟩] :=
    (applyDecimation_runs h hd).2 ⟨.ok true, rfl, rfl, by simp⟩
  -- the checks that were passed are those of the generator, after rounding down
  have hcentral : ((⌊a.centerHz⌋.toNat : ℕ) : ℚ) < ServerConfig.adcSampleRateHz / a.decimation / 2 := by
    have hfloor : ((⌊a.centerHz⌋.toNat : ℕ) : ℚ) ≤ a.centerHz := by
      have hnonneg : 0 ≤ ⌊a.centerHz⌋ := Int.floor_nonneg.2 hvalid.center_nonneg
      have hcast : ((⌊a.centerHz⌋.toNat : ℕ) : ℚ) = (⌊a.centerHz⌋ : ℚ) := by
        exact_mod_cast Int.toNat_of_nonneg hnonneg
      rw [hcast]
      exact Int.floor_le _
    exact hfloor.trans_lt hvalid.center_lt
  have hband : ⌊a.bandwidthHz⌋.toNat ≠ 0 := by
    have hone : 1 ≤ ⌊a.bandwidthHz⌋ := Int.le_floor.2 (by exact_mod_cast hvalid.bandwidth_ge)
    omega
  obtain ⟨signal, hsignal, -⟩ := SignalGenerator.generateSincSignal_eq_ok (N := P.numerics)
    (g := ⟨ServerConfig.adcSampleRateHz / a.decimation, a.decimation⟩) hvalid.pos.ne' hband
    hcentral ⟨le_of_lt hvalid.amplitude_pos, hvalid.amplitude_le⟩
  obtain ⟨s', calls', hscope⟩ := exists_runSinc (P := P) (a := a)
    (s := (s.withDecimation a.decimation).trackExcitationAmplitude a.amplitude) hr h rfl rfl
    hvalid.pos hempty
    ([⟨.hardware (.setDecimation a.decimation), .ok true⟩] ++
      [⟨.hardware (.loadGenerationSignal signal), .ok true⟩])
  refine ⟨s', calls', ?_, (journal_extends hscope).subset (by simp)⟩
  refine Act.runs_bind_ok.2 ⟨true, _, _, happly, ?_⟩
  refine Act.runs_bind_ok.2 ⟨(), _, _, Runs.done _ _, ?_⟩
  refine Act.runs_bind_ok.2 ⟨signal,
    (s.withDecimation a.decimation).trackExcitationAmplitude a.amplitude,
    [⟨.hardware (.setDecimation a.decimation), .ok true⟩], ?_, ?_⟩
  · simp only [generate, Act.bind_apply, Act.get_apply, Prog.bind_done, trackExcitationAmplitude,
      withDecimation, hsignal]
    exact Runs.done _ _
  · have hload := exists_hardwareCall
      (s := (s.withDecimation a.decimation).trackExcitationAmplitude a.amplitude) h
      (.loadGenerationSignal signal) true [⟨.hardware (.setDecimation a.decimation), .ok true⟩]
    exact Act.runs_bind_ok.2 ⟨true, _, _, hload, hscope⟩

end Late

/-- An empty band is refused late. -/
theorem not_rejectsCleanly {P : Platform} (hr : 0 < P.rounds) {s : CommandHandler}
    {cmd : ParsedCommand} (h : WellFormed s) (hband : EmptyBand P s cmd) :
    ¬RejectsCleanly P s cmd := by
  obtain ⟨hc, hlen, a, ha, hempty⟩ := hband
  intro hclean
  have hvalid := sincArgs_valid ha
  obtain ⟨s', calls, hrun, hmem⟩ :=
    exists_measureSinc hr (h.hardware hvalid.initialized) hvalid hempty
  have hcommand : Runs journal [] (handleCommand P cmd s) (.ok (sincReply []), s') calls := by
    have hdispatch : handleCommand P cmd = handleMeasSinc P cmd := by
      simp [handleCommand, dispatch, hc, hlen]
    rw [hdispatch]
    exact checked_runs.2 (Or.inr ⟨a, ha, hrun⟩)
  exact (hclean _ s' calls hcommand (rejected_sincReply_iff.2 rfl)).1 _ hmem trivial

/-- **The late refusal is the only one with an effect.** -/
theorem rejectsCleanly_iff {P : Platform} (hr : 0 < P.rounds) {s : CommandHandler}
    (h : Reachable P s) (cmd : ParsedCommand) : RejectsCleanly P s cmd ↔ ¬EmptyBand P s cmd :=
  ⟨fun hclean hband => not_rejectsCleanly hr h.wellFormed hband hclean,
    clean_of_not_emptyBand h.wellFormed⟩

/-- `MEASURE:SINC 132.7998046875,0.0012969970703125`: in exact arithmetic the nearest bin lies below
this narrow band, as a `float` it lies in it. -/
theorem rejectsCleanly_at_bin : RejectsCleanly (flat .ieee) initialized
    { command := .measSinc
      args := ["132.7998046875".toList, "0.0012969970703125".toList] } := by
  refine (rejectsCleanly_iff Nat.one_pos (reachable_initialized (flat .ieee)) _).2 ?_
  rintro ⟨-, -, a, ha, hempty⟩
  have hargs : initialized.sincArgs .ieee
      { command := .measSinc
        args := ["132.7998046875".toList, "0.0012969970703125".toList] }
      = .ok ⟨8192, 64, 1, 16998375 / 128, 10625 / 8192⟩ := by
    decide +kernel
  obtain rfl : ⟨8192, 64, 1, 16998375 / 128, 10625 / 8192⟩ = a := Except.ok.inj (hargs.symm.trans ha)
  have hbin : inBand .ieee ⟨8192, 64, 1, 16998375 / 128, 10625 / 8192⟩
      (binFrequency .ieee ⟨8192, 64, 1, 16998375 / 128, 10625 / 8192⟩ 557) = true := by
    decide +kernel
  exact Bool.false_ne_true ((hempty 557 (by decide)).symm.trans hbin)

/-- A higher bin has no lower frequency. -/
theorem binFrequency_mono (A : Arithmetic) (a : SincArgs) : Monotone (binFrequency A a) := by
  intro i j hij
  have hcast : (i : ℚ) ≤ j := by exact_mod_cast hij
  have hfs : 0 ≤ ServerConfig.adcSampleRateHz / (a.decimation : ℚ) :=
    div_nonneg (by unfold ServerConfig.adcSampleRateHz; norm_num) (Nat.cast_nonneg _)
  unfold binFrequency FFTProcessor.frequency
  refine A.single_mono (A.double_mono ?_)
  exact div_le_div_of_nonneg_right
    (A.double_mono (mul_le_mul_of_nonneg_right (A.single_mono hcast) hfs)) (Nat.cast_nonneg _)

/-- `MEASURE:SINC 100,0.1`: the bins next to 100 kHz are some 240 Hz apart. -/
theorem narrow_band_rejected_late :
    Reachable (flat .ieee) initialized ∧ ¬RejectsCleanly (flat .ieee) initialized
      { command := .measSinc, args := ["100".toList, "0.1".toList] } := by
  have hreach := reachable_initialized (flat .ieee)
  refine ⟨hreach, not_rejectsCleanly Nat.one_pos hreach.wellFormed
    ⟨rfl, by decide, ⟨8192, 64, 1, 100000, 1677721625 / 16777216⟩, ?_, ?_⟩⟩
  · decide +kernel
  · intro i _
    have hmono := binFrequency_mono .ieee ⟨8192, 64, 1, 100000, 1677721625 / 16777216⟩
    simp only [inBand, Bool.and_eq_false_iff, decide_eq_false_iff_not, not_le]
    by_cases h : i ≤ 419
    · left
      refine (hmono h).trans_lt ?_
      decide +kernel
    · right
      refine lt_of_lt_of_le ?_ (hmono (Nat.lt_of_not_le h))
      decide +kernel

end CommandHandler

end Afm
