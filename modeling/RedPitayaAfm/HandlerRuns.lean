/-
**What a command can do.**

For each method of the handler: which calls it makes, which fields it writes, and for the commands
how a run changes the fields.  Everything that is proved about the handler rests on these facts
instead of the definitions.

Main definitions:

* `Afm.CommandHandler.Quiet`, `Afm.CommandHandler.Measures` — methods that touch no device, and
  methods that measure;
* `Afm.CommandHandler.BoardOutcome`, `Afm.CommandHandler.InitOutcome`,
  `Afm.CommandHandler.CommandOutcome` — what became of a command;
* `Afm.CommandHandler.journal`, `Afm.CommandHandler.Reachable` — the world that only records the
  calls, with any replies, and the states a handler can be in between two commands.

Main results:

* `Afm.CommandHandler.hardwareCall_runs`, `Afm.CommandHandler.boardCall_runs` — one call;
* `Afm.CommandHandler.checked_runs` — what does not pass the checks is the reply;
* `Afm.CommandHandler.applyDecimation_runs` — a new decimation;
* `Afm.CommandHandler.handleCommand_runs` — what a command can do, by what it is about;
* `Afm.CommandHandler.Reachable.wellFormed` — what holds between two commands.
-/

import RedPitayaAfm.CommandHandler

set_option relaxedAutoImplicit false
set_option autoImplicit false

namespace Afm

namespace CommandHandler

open Effect

open Act (Confined)

/-! ### Methods that only read -/

section Reads

variable {C : ServerCall → Prop}

theorem orThrow_reads {α : Type} (x : Except Text α) : Confined C Eq (orThrow x) := by
  cases x with
  | ok a => exact Confined.pure a
  | error what => exact Confined.throw _

theorem hardwareCall_reads {c : HardwareCall} (h : C (.hardware c)) :
    Confined C Eq (hardwareCall c) :=
  Confined.bind Confined.get fun _ =>
    Confined.ite (Confined.bind (Confined.call h) fun _ => orThrow_reads _) (Confined.throw _)

theorem boardCall_reads {c : BoardCall} (h : C (.board c)) : Confined C Eq (boardCall c) :=
  Confined.bind Confined.get fun _ =>
    Confined.ite (Confined.bind (Confined.call h) fun _ => orThrow_reads _) (Confined.throw _)

theorem resetMeasurement_reads (h : C .resetMeasurement) : Confined C Eq resetMeasurement :=
  Confined.bind Confined.get fun _ =>
    Confined.ite (Confined.bind (Confined.call h) fun _ => Confined.pure _) (Confined.throw _)

theorem generate_reads (signal : SignalGenerator ℚ → Except Text (List ℚ)) :
    Confined C Eq (generate signal) := by
  refine Confined.bind Confined.get fun s => ?_
  cases s.signalGen with
  | none => exact Confined.throw _
  | some g => exact orThrow_reads _

end Reads

/-- The calls of a measurement. -/
def IsMeasureCall : ServerCall → Prop
  | .hardware _ => True
  | .resetMeasurement => True
  | .cancelCheck => True
  | .now => True
  | .sleep _ => True
  | .planFft _ => True
  | _ => False

section Wait

variable {C : ServerCall → Prop} (hcomplete : C (.hardware .isMeasurementComplete)) (hnow : C .now)
  (hsleep : ∀ ms, C (.sleep ms))

include hcomplete hnow hsleep

theorem waitLoop_reads (start timeoutMs : ℤ) (rounds : ℕ) :
    Confined C Eq (waitLoop start timeoutMs rounds) := by
  induction rounds with
  | zero => exact Confined.throw _
  | succ rounds ih =>
      refine Confined.bind (hardwareCall_reads hcomplete) fun complete => ?_
      refine Confined.ite (Confined.pure _) (Confined.bind (Confined.call hnow) fun time => ?_)
      refine Confined.ite (Confined.pure _) (Confined.bind (Confined.call (hsleep 10)) fun _ => ih)

theorem waitForMeasurement_reads (P : Platform) : Confined C Eq (waitForMeasurement P) := by
  refine Confined.bind (Confined.call hnow) fun _ => ?_
  exact Confined.bind Confined.get fun _ => waitLoop_reads hcomplete hnow hsleep _ _ _

end Wait

theorem acquire_reads (P : Platform) (numSamples : ℕ) :
    Confined IsMeasureCall Eq (acquire P numSamples) := by
  refine Confined.bind (hardwareCall_reads trivial) fun started => ?_
  refine Confined.ite (Confined.bind ?_ fun complete => ?_) (Confined.pure _)
  · exact waitForMeasurement_reads trivial trivial (fun _ => trivial) P
  · refine Confined.ite (Confined.bind (hardwareCall_reads trivial) fun record => ?_)
      (Confined.pure _)
    cases record with
    | none => exact Confined.pure _
    | some record => exact Confined.pure _

/-! ### Runs of the calls -/

section Runs

variable {W : World server} {s s' : CommandHandler} {w w' : W.State}

/-- How the handler sees a reply that may be an exception. -/
def caught {α : Type} (reply : Except Text α) : Except Fault α :=
  match reply with
  | .ok a => .ok a
  | .error what => .error (.thrown what)

theorem orThrow_apply {α : Type} (reply : Except Text α) (s : CommandHandler) :
    orThrow reply s = .done (caught reply, s) := by
  cases reply <;> rfl

/-- A call of a method of the hardware, which must be there. -/
theorem hardwareCall_runs (h : s.hardware = true) {c : HardwareCall} {r : Except Fault c.Result} :
    Runs W w (hardwareCall c s) (r, s') w' ↔
      ∃ reply, W.Step w (.hardware c) reply w' ∧ r = caught reply ∧ s' = s := by
  simp only [hardwareCall, Act.bind_apply, Act.get_apply, Prog.bind_done, h, if_true,
    Act.call_apply, Prog.bind_call, orThrow_apply, runs_call, runs_done, Prod.mk.injEq]
  constructor
  · rintro ⟨reply, w₁, hstep, ⟨rfl, rfl⟩, rfl⟩
    exact ⟨reply, hstep, rfl, rfl⟩
  · rintro ⟨reply, hstep, rfl, rfl⟩
    exact ⟨reply, w', hstep, ⟨rfl, rfl⟩, rfl⟩

/-- A call of a method of the board, which must be there. -/
theorem boardCall_runs (h : s.board = true) {c : BoardCall} {r : Except Fault c.Result} :
    Runs W w (boardCall c s) (r, s') w' ↔
      ∃ reply, W.Step w (.board c) reply w' ∧ r = caught reply ∧ s' = s := by
  simp only [boardCall, Act.bind_apply, Act.get_apply, Prog.bind_done, h, if_true,
    Act.call_apply, Prog.bind_call, orThrow_apply, runs_call, runs_done, Prod.mk.injEq]
  constructor
  · rintro ⟨reply, w₁, hstep, ⟨rfl, rfl⟩, rfl⟩
    exact ⟨reply, hstep, rfl, rfl⟩
  · rintro ⟨reply, hstep, rfl, rfl⟩
    exact ⟨reply, w', hstep, ⟨rfl, rfl⟩, rfl⟩

/-- The handler after a change of decimation. -/
def withDecimation (s : CommandHandler) (decimation : ℕ) : CommandHandler :=
  { s with
    status.currentDecimation := decimation
    signalGen := some ⟨ServerConfig.adcSampleRateHz / decimation, decimation⟩
    fftProcessor := some { samplingFrequency := ServerConfig.adcSampleRateHz / decimation } }

theorem samplingFrequency_pos {decimation : ℕ} (h : decimation ≠ 0) :
    0 < ServerConfig.adcSampleRateHz / (decimation : ℚ) := by
  have hd : (0 : ℚ) < decimation := by exact_mod_cast Nat.pos_of_ne_zero h
  exact div_pos (by unfold ServerConfig.adcSampleRateHz; norm_num) hd

/-- A new decimation: the hardware takes it and the signal chain follows, or nothing changes. -/
theorem applyDecimation_runs (h : s.hardware = true) {decimation : ℕ} (hd : decimation ≠ 0)
    {r : Except Fault Bool} :
    Runs W w (applyDecimation decimation s) (r, s') w' ↔
      ∃ reply : Except Text Bool, W.Step w (.hardware (.setDecimation decimation)) reply w' ∧
        r = caught reply ∧ s' = if reply = .ok true then s.withDecimation decimation else s := by
  -- with a decimation that is not zero neither constructor throws
  have hpos := samplingFrequency_pos hd
  rw [applyDecimation, Act.runs_bind]
  constructor
  · rintro (⟨e, rfl, h₁⟩ | ⟨taken, s₁, w₁, h₁, h₂⟩)
    · obtain ⟨reply, hstep, hr, rfl⟩ := (hardwareCall_runs h).1 h₁
      cases reply with
      | ok b => cases hr
      | error what => exact ⟨_, hstep, hr, by simp⟩
    · obtain ⟨reply, hstep, hr, rfl⟩ := (hardwareCall_runs h).1 h₁
      cases reply with
      | error what => cases hr
      | ok b =>
          cases hr
          cases taken with
          | false =>
              obtain ⟨heq, rfl⟩ := runs_done.1 h₂
              cases heq
              exact ⟨_, hstep, rfl, by simp⟩
          | true =>
              simp only [if_true, makeSignalGen, makeFftProcessor,
                SignalGenerator.make_eq_ok hd hpos, FFTProcessor.make_eq_ok hpos,
                Act.bind_apply, Act.modify_apply, Prog.bind_done] at h₂
              obtain ⟨heq, rfl⟩ := runs_done.1 h₂
              cases heq
              exact ⟨_, hstep, rfl, by simp [withDecimation]⟩
  · rintro ⟨reply, hstep, rfl, rfl⟩
    cases reply with
    | error what =>
        exact Or.inl ⟨_, rfl, (hardwareCall_runs h).2 ⟨_, hstep, rfl, by simp⟩⟩
    | ok b =>
        refine Or.inr ⟨b, s, w', (hardwareCall_runs h).2 ⟨_, hstep, rfl, rfl⟩, ?_⟩
        cases b with
        | false =>
            have hif : ¬(Except.ok false : Except Text Bool) = .ok true := by simp
            rw [if_neg hif]
            exact Runs.done _ _
        | true =>
            simp only [if_true, makeSignalGen, makeFftProcessor,
              SignalGenerator.make_eq_ok hd hpos, FFTProcessor.make_eq_ok hpos,
              Act.bind_apply, Act.modify_apply, Prog.bind_done]
            exact Runs.done _ _

end Runs

/-! ### Commands that are checked first -/

section Checked

variable {α : Type} {W : World server} {check : CommandHandler → Except Reply α}
  {body : α → Method Reply} {s s' : CommandHandler} {w w' : W.State} {r : Except Fault Reply}

/-- What does not pass the checks is the reply, and nothing else happens. -/
theorem checked_runs :
    Runs W w (checked check body s) (r, s') w' ↔
      (∃ reply, check s = .error reply ∧ r = .ok reply ∧ s' = s ∧ w' = w) ∨
        ∃ a, check s = .ok a ∧ Runs W w (body a s) (r, s') w' := by
  simp only [checked, Act.bind_apply, Act.get_apply, Prog.bind_done]
  cases hcheck : check s with
  | error reply =>
      constructor
      · intro h
        obtain ⟨heq, rfl⟩ := runs_done.1 h
        cases heq
        exact Or.inl ⟨reply, rfl, rfl, rfl, rfl⟩
      · rintro (⟨reply', heq, rfl, rfl, rfl⟩ | ⟨a, heq, -⟩)
        · cases heq
          exact Runs.done _ _
        · cases heq
  | ok a =>
      constructor
      · intro h
        exact Or.inr ⟨a, rfl, h⟩
      · rintro (⟨reply', heq, -⟩ | ⟨b, heq, h⟩)
        · cases heq
        · cases heq
          exact h

end Checked

/-! ### Commands that leave the devices alone -/

/-- The devices and what is known of them stay; the sample gain stays a gain. -/
structure SameDevices (s s' : CommandHandler) : Prop where
  hardware : s'.hardware = s.hardware
  board : s'.board = s.board
  initialized : s'.status.hardwareInitialized = s.status.hardwareInitialized
  connected : s'.status.boardConnected = s.status.boardConnected
  channelGains : s'.channelGains = s.channelGains
  muxRouting : s'.muxRouting = s.muxRouting
  muxRoutingKnown : s'.muxRoutingKnown = s.muxRoutingKnown
  sampleGain : 0 ≤ s.status.adcSampleGain → 0 ≤ s'.status.adcSampleGain

instance : Std.Refl SameDevices where
  refl _ := ⟨rfl, rfl, rfl, rfl, rfl, rfl, rfl, id⟩

instance : IsTrans CommandHandler SameDevices where
  trans _ _ _ h h' :=
    ⟨h'.hardware.trans h.hardware, h'.board.trans h.board, h'.initialized.trans h.initialized,
      h'.connected.trans h.connected, h'.channelGains.trans h.channelGains,
      h'.muxRouting.trans h.muxRouting, h'.muxRoutingKnown.trans h.muxRoutingKnown,
      fun hs => h'.sampleGain (h.sampleGain hs)⟩

/-- Methods that neither touch a device nor forget what is known of it. -/
abbrev Quiet {α : Type} (m : Method α) : Prop := Confined (fun _ => False) SameDevices m

theorem sameDevices_of_eq {s s' : CommandHandler} (h : s = s') : SameDevices s s' :=
  h ▸ refl_of SameDevices s

theorem quiet_pure (reply : Reply) : Quiet (pure reply) := Confined.pure _

theorem sameDevices_overdrive (A : Arithmetic) (s : CommandHandler) :
    SameDevices s (s.updateAdcOverdriveEstimate A) :=
  ⟨rfl, rfl, rfl, rfl, rfl, rfl, rfl, id⟩

theorem quiet_get {f : CommandHandler → Reply} : Quiet (do let s ← Act.get; pure (f s)) :=
  Confined.bind Confined.get fun _ => Confined.pure _

theorem quiet_modify {f : CommandHandler → CommandHandler} {m : Method Reply}
    (h : ∀ s, SameDevices s (f s)) (hm : Quiet m) : Quiet (do Act.modify f; m) :=
  Confined.bind (Confined.modify h) fun _ => hm

variable {A : Arithmetic}

theorem quiet_okWithSuffix (data : Text) : Quiet (okWithSuffix A data) :=
  quiet_modify (sameDevices_overdrive A) quiet_get

theorem quiet_handleSystStatus : Quiet (handleSystStatus A) :=
  quiet_modify (sameDevices_overdrive A) quiet_get

/-- A command is quiet if what follows its checks is. -/
theorem quiet_checked {α : Type} {check : CommandHandler → Except Reply α}
    {body : α → Method Reply} (h : ∀ s a, check s = .ok a → Quiet (body a)) :
    Quiet (checked check body) := by
  constructor
  · intro s
    cases hcheck : check s with
    | error reply => simp [checked, hcheck, Prog.Only]
    | ok a => simpa [checked, hcheck] using (h s a hcheck).only s
  · intro W s w r s' w' hr
    rcases checked_runs.1 hr with ⟨reply, -, -, rfl, -⟩ | ⟨a, hcheck, hr⟩
    · exact refl_of SameDevices _
    · exact (h s a hcheck).moves W _ _ _ _ _ hr

theorem quiet_handleBoardAdcLoop (cmd : ParsedCommand) : Quiet (handleBoardAdcLoop A cmd) := by
  refine quiet_checked ?_
  intro s request _
  cases request with
  | query => exact quiet_get
  | off => exact quiet_modify (fun s => ⟨rfl, rfl, rfl, rfl, rfl, rfl, rfl, id⟩) (quiet_pure _)
  | auto =>
      exact quiet_modify (fun s => ⟨rfl, rfl, rfl, rfl, rfl, rfl, rfl, id⟩) (quiet_okWithSuffix _)
  | manual excite ret =>
      exact quiet_modify (fun s => ⟨rfl, rfl, rfl, rfl, rfl, rfl, rfl, id⟩) (quiet_okWithSuffix _)

theorem quiet_handleBoardAdcProtect (cmd : ParsedCommand) :
    Quiet (handleBoardAdcProtect A cmd) := by
  refine quiet_checked ?_
  intro s request _
  cases request with
  | none => exact quiet_get
  | some enabled =>
      exact quiet_modify (fun s => ⟨rfl, rfl, rfl, rfl, rfl, rfl, rfl, id⟩) (quiet_okWithSuffix _)

/-- An accepted sample gain is in its range. -/
theorem adcSampleGainArgs_range {A : Arithmetic} {s : CommandHandler} {cmd : ParsedCommand}
    {sampleGain : ℚ} (h : s.adcSampleGainArgs A cmd = .ok (some sampleGain)) :
    InputSafety.minSampleGain A ≤ sampleGain ∧ sampleGain ≤ InputSafety.maxSampleGain := by
  simp only [adcSampleGainArgs, bind_eq_ok] at h
  obtain ⟨-, -, h⟩ := h
  cases hargs : cmd.args with
  | nil =>
      rw [hargs] at h
      simp only at h
      split at h <;> cases h
  | cons arg args =>
      rw [hargs] at h
      cases args with
      | nil =>
          simp only [bind_eq_ok, require_eq_ok] at h
          obtain ⟨q, -, -, hrange, h⟩ := h
          cases h
          exact hrange
      | cons arg' args => cases h

theorem quiet_handleBoardAdcSampleGain (cmd : ParsedCommand) :
    Quiet (handleBoardAdcSampleGain A cmd) := by
  refine quiet_checked ?_
  intro s request hcheck
  cases request with
  | none => exact quiet_get
  | some sampleGain =>
      have hpos : 0 ≤ sampleGain :=
        (A.single_nonneg (by norm_num)).trans (adcSampleGainArgs_range hcheck).1
      exact quiet_modify (fun s => ⟨rfl, rfl, rfl, rfl, rfl, rfl, rfl, fun _ => hpos⟩)
        (quiet_okWithSuffix _)

/-! ### Commands that call the board -/

section Board

variable {A : Arithmetic} {W : World server} {s s' : CommandHandler} {w w' : W.State}

theorem okWithSuffix_runs {data : Text} {r : Except Fault Reply} :
    Runs W w (okWithSuffix A data s) (r, s') w' ↔
      r = .ok (.ok (data ++ (s.updateAdcOverdriveEstimate A).overdriveSuffix A)) ∧
        s' = s.updateAdcOverdriveEstimate A ∧ w' = w := by
  simp only [okWithSuffix, Act.bind_apply, Act.modify_apply, Act.get_apply, Prog.bind_done,
    Act.pure_apply, runs_done, Prod.mk.injEq, and_assoc]

theorem okWithWarning_runs {r : Except Fault Reply} :
    Runs W w (okWithWarning A s) (r, s') w' ↔
      r = .ok (.ok (((s.updateAdcOverdriveEstimate A).overdriveSuffix A).drop 1)) ∧
        s' = s.updateAdcOverdriveEstimate A ∧ w' = w := by
  simp only [okWithWarning, Act.bind_apply, Act.modify_apply, Act.get_apply, Prog.bind_done,
    Act.pure_apply, runs_done, Prod.mk.injEq, and_assoc]

/-- A call of the board: the reply of the board, or nothing when there is no board. -/
theorem boardCall_cases {c : BoardCall} {r : Except Fault c.Result}
    (h : Runs W w (boardCall c s) (r, s') w') :
    s' = s ∧ ((∃ reply, W.Step w (.board c) reply w' ∧ r = caught reply) ∨
      r = .error .nullPointer ∧ w' = w) := by
  by_cases hb : s.board = true
  · obtain ⟨reply, hstep, rfl, rfl⟩ := (boardCall_runs hb).1 h
    exact ⟨rfl, Or.inl ⟨reply, hstep, rfl⟩⟩
  · simp only [boardCall, Act.bind_apply, Act.get_apply, Prog.bind_done, hb] at h
    obtain ⟨heq, rfl⟩ := runs_done.1 h
    cases heq
    exact ⟨rfl, Or.inr ⟨rfl, rfl⟩⟩

/-- A failure is answered with the last error of the board, when there is a board to ask. -/
theorem boardError_cases {r : Except Fault Reply} (h : Runs W w (boardError s) (r, s') w') :
    s' = s ∧ ((∃ explanation, W.Step w (.board .getLastError) explanation w') ∨ w' = w) := by
  rw [boardError, Act.runs_bind] at h
  rcases h with ⟨e, -, h⟩ | ⟨lastError, s₁, w₁, h, hreply⟩
  · obtain ⟨rfl, ⟨explanation, hstep, -⟩ | ⟨-, rfl⟩⟩ := boardCall_cases h
    · exact ⟨rfl, .inl ⟨explanation, hstep⟩⟩
    · exact ⟨rfl, .inr rfl⟩
  · obtain ⟨heq, rfl⟩ := runs_done.1 hreply
    cases heq
    obtain ⟨rfl, ⟨explanation, hstep, -⟩ | ⟨-, rfl⟩⟩ := boardCall_cases h
    · exact ⟨rfl, .inl ⟨explanation, hstep⟩⟩
    · exact ⟨rfl, .inr rfl⟩

/-- What became of a setting: the board confirmed it and the fields followed, or it was not
confirmed and the fields stay. -/
inductive BoardOutcome (A : Arithmetic) (W : World server) (c : BoardSetting)
    (s : CommandHandler) (w : W.State) : CommandHandler → W.State → Prop
  | confirmed {w' : W.State} : W.Step w (.board (.set c)) (.ok true) w' →
      BoardOutcome A W c s w ((s.follow c).updateAdcOverdriveEstimate A) w'
  | failed {reply : Except Text Bool} {w' : W.State} : reply ≠ .ok true →
      W.Step w (.board (.set c)) reply w' → BoardOutcome A W c s w s w'
  | explained {reply : Except Text Bool} {explanation : Except Text Text} {w₁ w' : W.State} :
      reply ≠ .ok true → W.Step w (.board (.set c)) reply w₁ →
      W.Step w₁ (.board .getLastError) explanation w' → BoardOutcome A W c s w s w'
  | noBoard : BoardOutcome A W c s w s w

/-- Methods that report the new estimate. -/
abbrev Reports (A : Arithmetic) (done : Method Reply) : Prop :=
  ∀ (W : World server) s w r s' w', Runs W w (done s) (r, s') w' →
    s' = s.updateAdcOverdriveEstimate A ∧ w' = w

theorem reports_okWithSuffix (data : Text) : Reports A (okWithSuffix A data) :=
  fun _ _ _ _ _ _ h => (okWithSuffix_runs.1 h).2

theorem reports_okWithWarning : Reports A (okWithWarning A) :=
  fun _ _ _ _ _ _ h => (okWithWarning_runs.1 h).2

theorem boardCommand_runs {c : BoardSetting} {done : Method Reply} (hdone : Reports A done)
    {r : Except Fault Reply} (h : Runs W w (boardCommand c done s) (r, s') w') :
    BoardOutcome A W c s w s' w' := by
  rw [boardCommand, Act.runs_bind] at h
  rcases h with ⟨e, rfl, h⟩ | ⟨confirmed, s₁, w₁, h₁, h₂⟩
  · obtain ⟨rfl, ⟨reply, hstep, hr⟩ | ⟨-, rfl⟩⟩ := boardCall_cases h
    · have hfailed : reply ≠ .ok true := by
        rintro rfl
        cases hr
      exact .failed hfailed hstep
    · exact .noBoard
  · obtain ⟨rfl, ⟨reply, hstep, hr⟩ | ⟨hr, -⟩⟩ := boardCall_cases h₁
    · obtain rfl : reply = .ok confirmed := by
        cases reply with
        | ok b => cases hr; rfl
        | error what => cases hr
      cases confirmed with
      | true =>
          obtain ⟨rfl, rfl⟩ := hdone W _ _ _ _ _ h₂
          exact .confirmed hstep
      | false =>
          have hne : (Except.ok false : Except Text Bool) ≠ .ok true := by simp
          obtain ⟨rfl, ⟨explanation, hstep'⟩ | rfl⟩ := boardError_cases h₂
          · exact .explained hne hstep hstep'
          · exact .failed hne hstep
    · cases hr

end Board

/-! ### Measurements -/

section Measure

/-- Methods that only measure. -/
abbrev Measures {α : Type} (m : Method α) : Prop := Confined IsMeasureCall SameDevices m

theorem measures_of_reads {α : Type} {m : Method α} (h : Confined IsMeasureCall Eq m) : Measures m :=
  h.mono (fun _ hc => hc) fun _ _ => sameDevices_of_eq

theorem measures_makeSignalGen (decimation : ℕ) : Measures (makeSignalGen decimation) := by
  unfold makeSignalGen
  cases SignalGenerator.make (ServerConfig.adcSampleRateHz / decimation) decimation with
  | ok g => exact Confined.modify fun _ => ⟨rfl, rfl, rfl, rfl, rfl, rfl, rfl, id⟩
  | error what => exact Confined.throw _

theorem measures_makeFftProcessor (samplingFrequency : ℚ) :
    Measures (makeFftProcessor samplingFrequency) := by
  unfold makeFftProcessor
  cases FFTProcessor.make samplingFrequency with
  | ok p => exact Confined.modify fun _ => ⟨rfl, rfl, rfl, rfl, rfl, rfl, rfl, id⟩
  | error what => exact Confined.throw _

theorem measures_applyDecimation (decimation : ℕ) : Measures (applyDecimation decimation) := by
  refine Confined.bind (measures_of_reads (hardwareCall_reads trivial)) fun taken => ?_
  refine Confined.ite ?_ (Confined.pure _)
  refine Confined.bind (Confined.modify fun _ => ⟨rfl, rfl, rfl, rfl, rfl, rfl, rfl, id⟩) fun _ => ?_
  refine Confined.bind (measures_makeSignalGen _) fun _ => ?_
  exact Confined.bind (measures_makeFftProcessor _) fun _ => Confined.pure _

theorem measures_scopedMeasurement {α : Type} {body : Method α} (h : Measures body) :
    Measures (scopedMeasurement body) :=
  Confined.bind (Confined.modify fun _ => ⟨rfl, rfl, rfl, rfl, rfl, rfl, rfl, id⟩) fun _ =>
    Confined.withDestructor h
      (Confined.bind (Confined.modify fun _ => ⟨rfl, rfl, rfl, rfl, rfl, rfl, rfl, id⟩) fun _ =>
        measures_of_reads (resetMeasurement_reads trivial))

theorem measures_transform (P : Platform) (p : FFTProcessor ℚ) (record : List ℚ) :
    Measures (transform P p record) := by
  refine Confined.ite (Confined.throw _) (Confined.ite (Confined.pure _) ?_)
  refine Confined.bind (Confined.call trivial) fun _ => ?_
  refine Confined.bind (measures_of_reads (orThrow_reads _)) fun _ => ?_
  exact Confined.bind (Confined.modify fun _ => ⟨rfl, rfl, rfl, rfl, rfl, rfl, rfl, id⟩) fun _ =>
    Confined.pure _

theorem measures_analyzeSinc (P : Platform) (a : SincArgs) (record : List ℚ) :
    Measures (analyzeSinc P a record) := by
  refine Confined.bind (Confined.modify fun _ => ⟨rfl, rfl, rfl, rfl, rfl, rfl, rfl, id⟩) fun _ => ?_
  refine Confined.bind Confined.get fun s => ?_
  cases s.fftProcessor with
  | none => exact Confined.throw _
  | some p => exact Confined.bind (measures_transform P p _) fun _ => Confined.pure _

theorem measures_runSinc (P : Platform) (a : SincArgs) : Measures (runSinc P a) := by
  refine Confined.bind (measures_of_reads (acquire_reads P _)) fun acquisition => ?_
  cases acquisition with
  | notStarted => exact Confined.pure _
  | timeout => exact Confined.pure _
  | notRead => exact Confined.pure _
  | samples record => exact measures_analyzeSinc P a _

theorem measures_measureSinc (P : Platform) (a : SincArgs) : Measures (measureSinc P a) := by
  refine Confined.bind (measures_applyDecimation _) fun applied => ?_
  refine Confined.ite ?_ (Confined.pure _)
  refine Confined.bind (Confined.modify fun _ => ⟨rfl, rfl, rfl, rfl, rfl, rfl, rfl, id⟩) fun _ => ?_
  refine Confined.bind (measures_of_reads (generate_reads _)) fun signal => ?_
  refine Confined.bind (measures_of_reads (hardwareCall_reads trivial)) fun loaded => ?_
  exact Confined.ite (measures_scopedMeasurement (measures_runSinc P a)) (Confined.pure _)

theorem measures_sweepLoop (P : Platform) (a : SweepArgs) (points : List ℕ)
    (spectrum : List SpectrumPoint) : Measures (sweepLoop P a points spectrum) := by
  induction points generalizing spectrum with
  | nil => exact Confined.pure _
  | cons point points ih =>
      refine Confined.bind (Confined.call trivial) fun cancelled => ?_
      refine Confined.ite (Confined.pure _) ?_
      refine Confined.bind (measures_of_reads (generate_reads _)) fun signal => ?_
      refine Confined.bind (measures_of_reads (hardwareCall_reads trivial)) fun loaded => ?_
      refine Confined.ite ?_ (Confined.pure _)
      refine Confined.bind (measures_of_reads (acquire_reads P _)) fun acquisition => ?_
      cases acquisition with
      | notStarted => exact Confined.pure _
      | timeout => exact Confined.pure _
      | notRead => exact Confined.pure _
      | samples record =>
          refine Confined.bind
            (Confined.modify fun _ => ⟨rfl, rfl, rfl, rfl, rfl, rfl, rfl, id⟩) fun _ => ?_
          exact Confined.bind (measures_of_reads (resetMeasurement_reads trivial)) fun _ => ih _

theorem measures_measureSweep (P : Platform) (a : SweepArgs) : Measures (measureSweep P a) := by
  refine Confined.bind (measures_applyDecimation _) fun applied => ?_
  refine Confined.ite ?_ (Confined.pure _)
  refine Confined.bind (Confined.modify fun _ => ⟨rfl, rfl, rfl, rfl, rfl, rfl, rfl, id⟩) fun _ => ?_
  exact measures_scopedMeasurement (measures_sweepLoop P a _ _)

end Measure

/-! ### Releasing the devices -/

/-- The calls that release the devices. -/
def IsReleaseCall : ServerCall → Prop
  | .cleanup => True
  | .deleteHardware => True
  | .closeBoard => True
  | .deleteBoard => True
  | _ => False

theorem only_deleteHardware : Act.Only IsReleaseCall deleteHardware := by
  refine Act.Only.bind Act.Only.get fun s => Act.Only.ite ?_ (Act.Only.pure _)
  exact Act.Only.bind (Act.Only.call trivial) fun _ => Act.Only.modify _

theorem only_releaseHardware : Act.Only IsReleaseCall releaseHardware := by
  refine Act.Only.bind Act.Only.get fun s => Act.Only.ite ?_ (Act.Only.pure _)
  exact Act.Only.bind (Act.Only.call trivial) fun _ => only_deleteHardware

theorem only_releaseBoard : Act.Only IsReleaseCall releaseBoard := by
  refine Act.Only.bind Act.Only.get fun s => Act.Only.ite ?_ (Act.Only.pure _)
  refine Act.Only.bind (Act.Only.call trivial) fun _ => ?_
  exact Act.Only.bind (Act.Only.call trivial) fun _ => Act.Only.modify _

theorem only_handleRst : Act.Only IsReleaseCall handleRst :=
  Act.Only.bind only_releaseHardware fun _ => Act.Only.bind only_releaseBoard fun _ =>
    Act.Only.bind (Act.Only.modify _) fun _ => Act.Only.pure _

theorem only_handleSystDeinit : Act.Only IsReleaseCall handleSystDeinit := by
  refine Act.Only.bind Act.Only.get fun s => Act.Only.ite ?_ (Act.Only.pure _)
  refine Act.Only.bind only_releaseHardware fun _ => Act.Only.bind only_releaseBoard fun _ => ?_
  exact Act.Only.bind (Act.Only.modify _) fun _ => Act.Only.pure _

section Release

variable {W : World server} {s s' : CommandHandler} {w w' : W.State}

theorem releaseHardware_runs {r : Except Fault Unit}
    (h : Runs W w (releaseHardware s) (r, s') w') : r = .ok () ∧ s' = { s with hardware := false } := by
  by_cases hh : s.hardware = true
  · simp only [releaseHardware, deleteHardware, Act.bind_apply, Act.get_apply, Prog.bind_done, hh,
      if_true, Act.call_apply, Prog.bind_call, Act.modify_apply, runs_call] at h
    obtain ⟨-, w₁, -, -, w₂, -, h⟩ := h
    obtain ⟨heq, -⟩ := runs_done.1 h
    cases heq
    exact ⟨rfl, rfl⟩
  · simp only [releaseHardware, Act.bind_apply, Act.get_apply, Prog.bind_done, hh] at h
    obtain ⟨heq, -⟩ := runs_done.1 h
    cases heq
    have hf : s.hardware = false := by simpa using hh
    refine ⟨rfl, ?_⟩
    rw [← hf]

theorem releaseBoard_runs {r : Except Fault Unit}
    (h : Runs W w (releaseBoard s) (r, s') w') : r = .ok () ∧ s' = { s with board := false } := by
  by_cases hb : s.board = true
  · simp only [releaseBoard, Act.bind_apply, Act.get_apply, Prog.bind_done, hb, if_true,
      Act.call_apply, Prog.bind_call, Act.modify_apply, runs_call] at h
    obtain ⟨-, w₁, -, -, w₂, -, h⟩ := h
    obtain ⟨heq, -⟩ := runs_done.1 h
    cases heq
    exact ⟨rfl, rfl⟩
  · simp only [releaseBoard, Act.bind_apply, Act.get_apply, Prog.bind_done, hb] at h
    obtain ⟨heq, -⟩ := runs_done.1 h
    cases heq
    have hf : s.board = false := by simpa using hb
    refine ⟨rfl, ?_⟩
    rw [← hf]

/-- The hardware and the board are released, one after the other. -/
theorem releaseAll_runs {α : Type} {rest : Method α} {r : Except Fault α}
    (h : Runs W w ((releaseHardware >>= fun _ => releaseBoard >>= fun _ => rest) s) (r, s') w') :
    ∃ w₁, Runs W w₁ (rest { s with hardware := false, board := false }) (r, s') w' := by
  rcases Act.runs_bind.1 h with ⟨e, -, h⟩ | ⟨u, s₁, w₁, h₁, h⟩
  · cases (releaseHardware_runs h).1
  obtain ⟨-, rfl⟩ := releaseHardware_runs h₁
  rcases Act.runs_bind.1 h with ⟨e, -, h⟩ | ⟨u, s₂, w₂, h₂, h⟩
  · cases (releaseBoard_runs h).1
  obtain ⟨-, rfl⟩ := releaseBoard_runs h₂
  exact ⟨w₂, h⟩

/-- A reset leaves the handler as its constructor made it. -/
theorem handleRst_runs {r : Except Fault Reply} (h : Runs W w (handleRst s) (r, s') w') :
    r = .ok (.ok []) ∧ s' = make s.measurementTimeoutMs s.status.mode := by
  obtain ⟨w₁, h⟩ := releaseAll_runs h
  obtain ⟨heq, -⟩ := runs_done.1 h
  cases heq
  exact ⟨rfl, rfl⟩

/-- The handler after a shutdown of the hardware. -/
def deinitialized (s : CommandHandler) : CommandHandler :=
  { s with
    hardware := false
    board := false
    signalGen := none
    status.hardwareInitialized := false
    status.boardConnected := false
    status.adcOverdrive := false
    status.adcSaturated := false
    status.adcSaturationRatio := 0 }

theorem handleSystDeinit_runs {r : Except Fault Reply}
    (h : Runs W w (handleSystDeinit s) (r, s') w') :
    s' = if s.status.hardwareInitialized then s.deinitialized else s := by
  simp only [handleSystDeinit, Act.bind_apply, Act.get_apply, Prog.bind_done] at h
  by_cases hi : s.status.hardwareInitialized = true
  · rw [if_pos hi] at h ⊢
    obtain ⟨w₁, h⟩ := releaseAll_runs h
    obtain ⟨heq, -⟩ := runs_done.1 h
    cases heq
    rfl
  · rw [if_neg hi] at h ⊢
    obtain ⟨heq, -⟩ := runs_done.1 h
    cases heq
    rfl

end Release

/-! ### Initialization -/

/-- The calls of an initialization, before the board is read. -/
def IsOpenCall : ServerCall → Prop
  | .hardwareFactory => True
  | .hardware _ => True
  | .deleteHardware => True
  | .boardFactory => True
  | .board c => c = .initializeBoard
  | _ => False

/-- The initialization of the handler and its sample gain stay. -/
structure SameStage (s s' : CommandHandler) : Prop where
  initialized : s'.status.hardwareInitialized = s.status.hardwareInitialized
  sampleGain : s'.status.adcSampleGain = s.status.adcSampleGain

instance : Std.Refl SameStage where
  refl _ := ⟨rfl, rfl⟩

instance : IsTrans CommandHandler SameStage where
  trans _ _ _ h h' := ⟨h'.initialized.trans h.initialized, h'.sampleGain.trans h.sampleGain⟩

/-- Methods that open a device or learn about it. -/
abbrev Opens {α : Type} (C : ServerCall → Prop) (m : Method α) : Prop := Confined C SameStage m

section Init

theorem opens_of_reads {α : Type} {C : ServerCall → Prop} {m : Method α} (h : Confined C Eq m) :
    Opens C m :=
  h.mono (fun _ hc => hc) fun s _ heq => heq ▸ refl_of SameStage s

theorem opens_openHardware : Opens IsOpenCall openHardware := by
  refine Confined.bind ?_ fun _ => Confined.bind Confined.get fun s => ?_
  · refine Confined.bind (Confined.call trivial) fun _ => ?_
    refine Confined.bind (opens_of_reads (orThrow_reads _)) fun _ => ?_
    exact Confined.modify fun _ => ⟨rfl, rfl⟩
  · exact Confined.ite (opens_of_reads (hardwareCall_reads trivial)) (Confined.pure _)

theorem opens_connectBoard : Opens IsOpenCall connectBoard := by
  refine Confined.bind Confined.get fun s => Confined.ite ?_ ?_
  · exact Confined.modify fun _ => ⟨rfl, rfl⟩
  refine Confined.bind ?_ fun connected => Confined.modify fun _ => ⟨rfl, rfl⟩
  refine Confined.bind ?_ fun _ => Confined.bind Confined.get fun s => ?_
  · refine Confined.bind (Confined.call trivial) fun _ => ?_
    refine Confined.bind (opens_of_reads (orThrow_reads _)) fun _ => ?_
    exact Confined.modify fun _ => ⟨rfl, rfl⟩
  · exact Confined.ite (opens_of_reads (boardCall_reads rfl)) (Confined.pure _)

theorem opens_makeSignalGen {C : ServerCall → Prop} (decimation : ℕ) :
    Opens C (makeSignalGen decimation) := by
  unfold makeSignalGen
  cases SignalGenerator.make (ServerConfig.adcSampleRateHz / decimation) decimation with
  | ok g => exact Confined.modify fun _ => ⟨rfl, rfl⟩
  | error what => exact Confined.throw _

theorem opens_prepareInit : Opens IsOpenCall prepareInit := by
  refine Confined.bind opens_connectBoard fun _ => ?_
  refine Confined.bind (opens_of_reads (hardwareCall_reads trivial)) fun decimation => ?_
  exact Confined.bind (Confined.modify fun _ => ⟨rfl, rfl⟩) fun _ => opens_makeSignalGen _

/-- The calls that read the board. -/
def IsReadCall : ServerCall → Prop
  | .board .queryGains => True
  | .board .queryRouting => True
  | _ => False

/-- Reading the board changes nothing but the cache. -/
structure SameButCache (s s' : CommandHandler) : Prop where
  hardware : s'.hardware = s.hardware
  board : s'.board = s.board
  status : s'.status = s.status

instance : Std.Refl SameButCache where
  refl _ := ⟨rfl, rfl, rfl⟩

instance : IsTrans CommandHandler SameButCache where
  trans _ _ _ h h' :=
    ⟨h'.hardware.trans h.hardware, h'.board.trans h.board, h'.status.trans h.status⟩

theorem refreshBoardCacheFromBoard_confined :
    Confined IsReadCall SameButCache refreshBoardCacheFromBoard := by
  have hread {α : Type} {m : Method α} (h : Confined IsReadCall Eq m) :
      Confined IsReadCall SameButCache m :=
    h.mono (fun _ hc => hc) fun s _ heq => heq ▸ refl_of SameButCache s
  refine Confined.bind (Confined.modify fun _ => ⟨rfl, rfl, rfl⟩) fun _ => ?_
  refine Confined.bind Confined.get fun s => Confined.ite ?_ (Confined.pure _)
  refine Confined.bind ?_ fun _ => ?_
  · refine Confined.bind (hread (boardCall_reads trivial)) fun gains => ?_
    cases gains with
    | none => exact Confined.pure _
    | some gains => exact Confined.modify fun _ => ⟨rfl, rfl, rfl⟩
  · refine Confined.bind (hread (boardCall_reads trivial)) fun routing => ?_
    cases routing with
    | none => exact Confined.pure _
    | some routing => exact Confined.modify fun _ => ⟨rfl, rfl, rfl⟩

theorem refreshIfConnected_confined : Confined IsReadCall SameButCache refreshIfConnected :=
  Confined.bind Confined.get fun _ =>
    Confined.ite refreshBoardCacheFromBoard_confined (Confined.pure _)

variable {W : World server} {s s' : CommandHandler} {w w' : W.State}

/-- A call of the hardware: its reply, or nothing when there is no hardware. -/
theorem hardwareCall_cases {c : HardwareCall} {r : Except Fault c.Result}
    (h : Runs W w (hardwareCall c s) (r, s') w') :
    s' = s ∧ ((s.hardware = true ∧ ∃ reply, W.Step w (.hardware c) reply w' ∧ r = caught reply) ∨
      r = .error .nullPointer ∧ w' = w) := by
  by_cases hh : s.hardware = true
  · obtain ⟨reply, hstep, rfl, rfl⟩ := (hardwareCall_runs hh).1 h
    exact ⟨rfl, Or.inl ⟨hh, reply, hstep, rfl⟩⟩
  · simp only [hardwareCall, Act.bind_apply, Act.get_apply, Prog.bind_done, hh] at h
    obtain ⟨heq, rfl⟩ := runs_done.1 h
    cases heq
    exact ⟨rfl, Or.inr ⟨rfl, rfl⟩⟩

theorem makeSignalGen_hardware (decimation : ℕ) :
    Act.Moves (fun s s' : CommandHandler => s'.hardware = s.hardware) (makeSignalGen decimation) := by
  unfold makeSignalGen
  cases SignalGenerator.make (ServerConfig.adcSampleRateHz / decimation) decimation with
  | ok g => exact Act.Moves.modify fun _ => rfl
  | error what =>
      intro W s w r s' w' h
      obtain ⟨heq, -⟩ := runs_done.1 h
      cases heq
      rfl

/-- The signal chain can only be made for hardware that is there. -/
theorem prepareInit_hardware (h : Runs W w (prepareInit s) (.ok (), s') w') :
    s'.hardware = true := by
  rw [prepareInit, Act.runs_bind_ok] at h
  obtain ⟨u, s₁, w₁, -, hrest⟩ := h
  obtain ⟨decimation, s₂, w₂, hcall, hgen⟩ := Act.runs_bind_ok.1 hrest
  obtain ⟨rfl, ⟨hh, -⟩ | ⟨hr, -⟩⟩ := hardwareCall_cases hcall
  · obtain ⟨u, s₃, w₃, hmodify, hgen⟩ := Act.runs_bind_ok.1 hgen
    obtain ⟨heq, -⟩ := runs_done.1 hmodify
    cases heq
    exact ((makeSignalGen_hardware _ W _ _ _ _ _ hgen).trans hh)
  · cases hr

/-- What became of an initialization: there was nothing to do, it did not come to its end, or the
board was read last. -/
inductive InitOutcome (W : World server) (s : CommandHandler) (w : W.State) :
    CommandHandler → W.State → Prop
  | already : s.status.hardwareInitialized = true → InitOutcome W s w s w
  | unfinished {s' : CommandHandler} {w' : W.State} : SameStage s s' →
      s.status.hardwareInitialized = false → InitOutcome W s w s' w'
  | finished {s₁ s₂ : CommandHandler} {w₁ w' : W.State} : SameStage s s₁ →
      s.status.hardwareInitialized = false → s₁.hardware = true →
      Runs W w₁ (refreshIfConnected s₁) (.ok (), s₂) w' →
      InitOutcome W s w { s₂ with status.hardwareInitialized := true } w'

theorem finishInit_runs {s₀ : CommandHandler} {r : Except Fault Reply}
    (hstage : SameStage s₀ s) (hinit : s₀.status.hardwareInitialized = false)
    (h : Runs W w (finishInit s) (r, s') w') {w₀ : W.State} : InitOutcome W s₀ w₀ s' w' := by
  rw [finishInit, Act.runs_bind] at h
  rcases h with ⟨e, -, h⟩ | ⟨u, s₁, w₁, hprepare, h₁⟩
  · exact .unfinished (trans_of SameStage hstage (opens_prepareInit.moves W _ _ _ _ _ h)) hinit
  have hs₁ := trans_of SameStage hstage (opens_prepareInit.moves W _ _ _ _ _ hprepare)
  rcases Act.runs_bind.1 h₁ with ⟨e, -, h₂⟩ | ⟨u, s₂, w₂, hrefresh, h₂⟩
  · have hcache := refreshIfConnected_confined.moves W _ _ _ _ _ h₂
    refine .unfinished (trans_of SameStage hs₁ ⟨?_, ?_⟩) hinit
    · rw [hcache.status]
    · rw [hcache.status]
  · obtain ⟨heq, rfl⟩ := runs_done.1 h₂
    cases heq
    exact .finished hs₁ hinit (prepareInit_hardware hprepare) hrefresh

theorem handleSystInit_runs {r : Except Fault Reply} (h : Runs W w (handleSystInit s) (r, s') w') :
    InitOutcome W s w s' w' := by
  simp only [handleSystInit, Act.bind_apply, Act.get_apply, Prog.bind_done] at h
  by_cases hi : s.status.hardwareInitialized = true
  · rw [if_pos hi] at h
    obtain ⟨heq, rfl⟩ := runs_done.1 h
    cases heq
    exact .already hi
  · rw [if_neg hi] at h
    have hf : s.status.hardwareInitialized = false := by simpa using hi
    rcases Act.runs_bind.1 h with ⟨e, -, hopen⟩ | ⟨opened, s₁, w₁, hopen, h₁⟩
    · exact .unfinished (opens_openHardware.moves W _ _ _ _ _ hopen) hf
    have hs₁ := opens_openHardware.moves W _ _ _ _ _ hopen
    cases opened with
    | false =>
        have hdelete : Opens (fun _ => True) deleteHardware :=
          Confined.bind Confined.get fun _ => Confined.ite
            (Confined.bind (Confined.call trivial) fun _ => Confined.modify fun _ => ⟨rfl, rfl⟩)
            (Confined.pure _)
        rcases Act.runs_bind.1 h₁ with ⟨e, -, h₂⟩ | ⟨u, s₂, w₂, h₂, h₃⟩
        · exact .unfinished (trans_of SameStage hs₁ (hdelete.moves W _ _ _ _ _ h₂)) hf
        · obtain ⟨heq, -⟩ := runs_done.1 h₃
          cases heq
          exact .unfinished (trans_of SameStage hs₁ (hdelete.moves W _ _ _ _ _ h₂)) hf
    | true => exact finishInit_runs hs₁ hf h₁

end Init

/-! ### Runs of the handler -/

/-- The calls of a run with their replies. -/
abbrev Calls := List (Σ c : ServerCall, server.Reply c)

/-- The world that records the calls and allows every reply. -/
def journal : World server where
  State := Calls
  Step calls c reply calls' := calls' = calls ++ [⟨c, reply⟩]

/-- The states of a handler between two commands: after construction, and after any command that
replied or was left by an exception. -/
inductive Reachable (P : Platform) : CommandHandler → Prop
  | start (measurementTimeoutMs : ℤ) (mode : OperatingMode) :
      Reachable P (make measurementTimeoutMs mode)
  | command {s s' : CommandHandler} {cmd : ParsedCommand} {r : Except Fault Reply}
      {calls : Calls} :
      Reachable P s → Runs journal [] (handleCommand P cmd s) (r, s') calls → Reachable P s'

/-! ### Devices that work -/

/-- The replies of devices on which everything works: all gains are x1, and every output shows the
input of its own number. -/
def goodReply : (c : ServerCall) → server.Reply c
  | .hardwareFactory => .ok true
  | .hardware .initializeHardware => .ok true
  | .hardware (.loadGenerationSignal _) => .ok true
  | .hardware (.setDecimation _) => .ok true
  | .hardware .getDecimation => .ok (64 : ℕ)
  | .hardware (.startMeasurement _ _) => .ok true
  | .hardware .isMeasurementComplete => .ok true
  | .hardware (.getAcquiredSignal _) => .ok (some fun _ => (0 : ℚ))
  | .resetMeasurement => true
  | .cleanup => ()
  | .deleteHardware => ()
  | .boardFactory => .ok true
  | .board .initializeBoard => .ok true
  | .board (.set _) => .ok true
  | .board .getStatus => .ok (some [])
  | .board .queryGains => .ok (some fun _ => (GainSetting.gain1, true))
  | .board .queryRouting => .ok (some fun i => ((i : ℕ), true))
  | .board .getLastError => .ok []
  | .closeBoard => ()
  | .deleteBoard => ()
  | .cancelCheck => false
  | .now => (0 : ℤ)
  | .sleep _ => ()
  | .planFft _ => .ok ()

/-- The environment of such devices. -/
def smooth (calls : Calls) (c : ServerCall) : server.Reply c × Calls :=
  (goodReply c, calls ++ [⟨c, goodReply c⟩])

theorem smooth_runs {α : Type} (p : Prog server α) (calls : Calls) :
    Runs journal calls p (p.eval smooth calls).1 (p.eval smooth calls).2 := by
  have henv : ∀ calls c, journal.Step calls c (smooth calls c).1 (smooth calls c).2 :=
    fun _ _ => rfl
  exact Prog.eval_runs henv p calls

/-- Numbers that are all zero, and one round for each loop. -/
def flat (A : Arithmetic) : Platform where
  arithmetic := A
  numerics :=
    { sin := fun _ => 0
      cos := fun _ => 0
      sqrt := fun _ => 0
      atan2 := fun _ _ => 0
      fft := fun _ _ => (0, 0) }
  rounds := 1

/-- The handler that `SYSTEM:INIT` leaves on such devices. -/
def initialized : CommandHandler :=
  { make 5000 .full with
    hardware := true
    board := true
    signalGen := some ⟨ServerConfig.adcSampleRateHz / 64, 64⟩
    muxRouting := fun i => i
    status.hardwareInitialized := true
    status.boardConnected := true }

theorem reachable_initialized (P : Platform) : Reachable P initialized := by
  have hcommand : handleCommand P { command := .systInit } = handleSystInit := by
    simp [handleCommand, dispatch]
  have hrun := smooth_runs (handleSystInit (make 5000 .full)) []
  have hs : ((handleSystInit (make 5000 .full)).eval smooth []).1.2 = initialized := by
    decide +kernel
  have hrun' : Runs journal [] (handleCommand P { command := .systInit } (make 5000 .full))
      (((handleSystInit (make 5000 .full)).eval smooth []).1.1, initialized)
      ((handleSystInit (make 5000 .full)).eval smooth []).2 := by
    rw [hcommand, ← hs]
    exact hrun
  exact .command (.start 5000 .full) hrun'

/-- The handler after a command on such devices. -/
def carriedOut (A : Arithmetic) (s : CommandHandler) (cmd : ParsedCommand) : CommandHandler :=
  ((handleCommand (flat A) cmd s).eval smooth []).1.2

theorem Reachable.carriedOut {A : Arithmetic} {s : CommandHandler} (h : Reachable (flat A) s)
    (cmd : ParsedCommand) : Reachable (flat A) (s.carriedOut A cmd) :=
  .command h (smooth_runs (handleCommand (flat A) cmd s) [])

/-! ### What holds between two commands -/

/-- What holds of a handler between two commands. -/
structure WellFormed (s : CommandHandler) : Prop where
  hardware : s.status.hardwareInitialized = true → s.hardware = true
  sampleGain : 0 ≤ s.status.adcSampleGain

theorem wellFormed_make (measurementTimeoutMs : ℤ) (mode : OperatingMode) :
    WellFormed (make measurementTimeoutMs mode) :=
  ⟨fun h => (Bool.false_ne_true h).elim, by simp [make]⟩

section WellFormed

variable {A : Arithmetic} {W : World server} {s s' : CommandHandler} {w w' : W.State}

theorem WellFormed.of_sameDevices (h : WellFormed s) (hs : SameDevices s s') : WellFormed s' where
  hardware hi := hs.hardware.trans (h.hardware (hs.initialized ▸ hi))
  sampleGain := hs.sampleGain h.sampleGain

theorem follow_fields (s : CommandHandler) (c : BoardSetting) :
    (s.follow c).hardware = s.hardware ∧ (s.follow c).board = s.board ∧
      (s.follow c).status = s.status := by
  cases c <;> exact ⟨rfl, rfl, rfl⟩

theorem WellFormed.of_boardOutcome {c : BoardSetting} (h : WellFormed s)
    (ho : BoardOutcome A W c s w s' w') : WellFormed s' := by
  cases ho with
  | confirmed =>
      obtain ⟨hh, -, hstatus⟩ := follow_fields s c
      refine ⟨fun hi => hh.trans (h.hardware ?_), ?_⟩
      · exact (congrArg SystemStatus.hardwareInitialized hstatus).symm.trans hi
      · exact (congrArg SystemStatus.adcSampleGain hstatus) ▸ h.sampleGain
  | failed => exact h
  | explained => exact h
  | noBoard => exact h

/-- A status report changes the cache only. -/
theorem refreshFromStatus_eq {statusText : Text} (h : s.refreshFromStatus statusText = .ok s') :
    ∃ gains routing known, s' =
      { s with channelGains := gains, muxRouting := routing, muxRoutingKnown := known } := by
  unfold refreshFromStatus at h
  cases hg : Board.parseGainStatus statusText numChannels with
  | error m => rw [hg] at h; cases h
  | ok gains =>
      cases hr : Board.parseRoutingStatus statusText numChannels with
      | error m => rw [hg, hr] at h; cases h
      | ok routing =>
          rw [hg, hr] at h
          cases h
          exact ⟨_, _, _, rfl⟩

theorem refreshFromStatus_fields {statusText : Text}
    (h : s.refreshFromStatus statusText = .ok s') :
    s'.hardware = s.hardware ∧ s'.board = s.board ∧ s'.status = s.status := by
  obtain ⟨gains, routing, known, rfl⟩ := refreshFromStatus_eq h
  exact ⟨rfl, rfl, rfl⟩

/-- What became of `BOARD:STATUS?` after its checks. -/
inductive StatusOutcome (W : World server) (s : CommandHandler) (w : W.State) :
    CommandHandler → W.State → Prop
  | read {statusText : Text} {s' : CommandHandler} {w' : W.State} :
      W.Step w (.board .getStatus) (.ok (some statusText)) w' →
      s.refreshFromStatus statusText = .ok s' → StatusOutcome W s w s' w'
  | unread {reply : Except Text (Option Text)} {w' : W.State} :
      W.Step w (.board .getStatus) reply w' → StatusOutcome W s w s w'
  | explained {reply : Except Text (Option Text)} {explanation : Except Text Text}
      {w₁ w' : W.State} : W.Step w (.board .getStatus) reply w₁ →
      W.Step w₁ (.board .getLastError) explanation w' → StatusOutcome W s w s w'
  | noBoard : StatusOutcome W s w s w

theorem handleBoardStatus_runs {r : Except Fault Reply}
    (h : Runs W w (handleBoardStatus s) (r, s') w') : StatusOutcome W s w s' w' := by
  rcases checked_runs.1 h with ⟨reply, -, -, rfl, rfl⟩ | ⟨a, -, h⟩
  · exact .noBoard
  rcases Act.runs_bind.1 h with ⟨e, -, hget⟩ | ⟨text, s₁, w₁, hget, hrest⟩
  · obtain ⟨rfl, ⟨reply, hstep, -⟩ | ⟨-, rfl⟩⟩ := boardCall_cases hget
    · exact .unread hstep
    · exact .noBoard
  · obtain ⟨rfl, ⟨reply, hstep, hr⟩ | ⟨hr, -⟩⟩ := boardCall_cases hget
    · obtain rfl : reply = .ok text := by
        cases reply with
        | ok b => cases hr; rfl
        | error what => cases hr
      cases text with
      | none =>
          obtain ⟨rfl, ⟨explanation, hstep'⟩ | rfl⟩ := boardError_cases hrest
          · exact .explained hstep hstep'
          · exact .unread hstep
      | some statusText =>
          simp only [Act.bind_apply, Act.get_apply, Prog.bind_done] at hrest
          cases hparse : s₁.refreshFromStatus statusText with
          | error m =>
              rw [hparse] at hrest
              obtain ⟨heq, rfl⟩ := runs_done.1 hrest
              cases heq
              exact .unread hstep
          | ok s₂ =>
              rw [hparse] at hrest
              obtain ⟨heq, rfl⟩ := runs_done.1 hrest
              cases heq
              exact .read hstep hparse
    · cases hr

theorem WellFormed.of_statusOutcome (h : WellFormed s) (ho : StatusOutcome W s w s' w') :
    WellFormed s' := by
  cases ho with
  | read hstep hparse =>
      obtain ⟨hh, -, hstatus⟩ := refreshFromStatus_fields hparse
      refine ⟨fun hi => hh.trans (h.hardware (hstatus ▸ hi)), hstatus ▸ h.sampleGain⟩
  | unread => exact h
  | explained => exact h
  | noBoard => exact h

theorem WellFormed.of_initOutcome (h : WellFormed s) (ho : InitOutcome W s w s' w') :
    WellFormed s' := by
  cases ho with
  | already => exact h
  | unfinished hstage hinit =>
      refine ⟨fun hi => ?_, hstage.sampleGain ▸ h.sampleGain⟩
      rw [hstage.initialized, hinit] at hi
      cases hi
  | finished hstage hinit hh hrefresh =>
      have hcache := refreshIfConnected_confined.moves W _ _ _ _ _ hrefresh
      refine ⟨fun _ => hcache.hardware.trans hh, ?_⟩
      have hgain := congrArg SystemStatus.adcSampleGain hcache.status
      exact (hgain.trans hstage.sampleGain) ▸ h.sampleGain

/-- What a command can do, by what it is about. -/
inductive CommandOutcome (P : Platform) (W : World server) (cmd : ParsedCommand)
    (s : CommandHandler) (w : W.State) (r : Except Fault Reply) :
    CommandHandler → W.State → Prop
  /-- The devices are not touched. -/
  | quiet {s' : CommandHandler} : SameDevices s s' → CommandOutcome P W cmd s w r s' w
  | rst {w' : W.State} : Runs W w (handleRst s) (r, make s.measurementTimeoutMs s.status.mode) w' →
      CommandOutcome P W cmd s w r (make s.measurementTimeoutMs s.status.mode) w'
  | init {s' : CommandHandler} {w' : W.State} : cmd.command = .systInit →
      Runs W w (handleSystInit s) (r, s') w' →
      InitOutcome W s w s' w' → CommandOutcome P W cmd s w r s' w'
  | deinit {w' : W.State} : Runs W w (handleSystDeinit s) (r, s.deinitialized) w' →
      CommandOutcome P W cmd s w r s.deinitialized w'
  | setting {c : BoardSetting} {s' : CommandHandler} {w' : W.State} : s.requireBoard = .ok () →
      BoardOutcome P.arithmetic W c s w s' w' → CommandOutcome P W cmd s w r s' w'
  | status {s' : CommandHandler} {w' : W.State} :
      StatusOutcome W s w s' w' → CommandOutcome P W cmd s w r s' w'
  | sinc {a : SincArgs} {s' : CommandHandler} {w' : W.State} : s.sincArgs P.arithmetic cmd = .ok a →
      Runs W w (measureSinc P a s) (r, s') w' → SameDevices s s' →
      CommandOutcome P W cmd s w r s' w'
  | sweep {a : SweepArgs} {s' : CommandHandler} {w' : W.State} : s.sweepArgs P.arithmetic cmd = .ok a →
      Runs W w (measureSweep P a s) (r, s') w' → SameDevices s s' →
      CommandOutcome P W cmd s w r s' w'

variable {P : Platform} {cmd : ParsedCommand} {r : Except Fault Reply}

theorem Quiet.outcome {m : Method Reply} (hm : Quiet m) (h : Runs W w (m s) (r, s') w') :
    CommandOutcome P W cmd s w r s' w' := by
  obtain rfl := Runs.eq_of_only_false (hm.only s) h
  exact .quiet (hm.moves W _ _ _ _ _ h)

theorem setting_outcome {α : Type} {check : CommandHandler → Except Reply α}
    {c : α → BoardSetting} {done : α → Method Reply} (hdone : ∀ a, Reports P.arithmetic (done a))
    (hcheck : ∀ a, check s = .ok a → s.requireBoard = .ok ())
    (h : Runs W w (checked check (fun a => boardCommand (c a) (done a)) s) (r, s') w') :
    CommandOutcome P W cmd s w r s' w' := by
  rcases checked_runs.1 h with ⟨reply, -, -, rfl, rfl⟩ | ⟨a, ha, h⟩
  · exact .quiet (refl_of SameDevices _)
  · exact .setting (hcheck a ha) (boardCommand_runs (hdone a) h)

theorem requireBoard_of_muxRouteArgs {a : Channel × Channel} (h : s.muxRouteArgs cmd = .ok a) :
    s.requireBoard = .ok () := by
  obtain ⟨⟨⟩, hb, -⟩ := bind_eq_ok.1 h
  exact hb

theorem requireBoard_of_muxDisconnectArgs {a : Channel} (h : s.muxDisconnectArgs cmd = .ok a) :
    s.requireBoard = .ok () := by
  obtain ⟨⟨⟩, hb, -⟩ := bind_eq_ok.1 h
  exact hb

theorem requireBoard_of_gainArgs {a : Channel × GainSetting} (h : s.gainArgs cmd = .ok a) :
    s.requireBoard = .ok () := by
  obtain ⟨⟨⟩, hb, -⟩ := bind_eq_ok.1 h
  exact hb

/-- **What a command can do.** -/
theorem dispatch_runs (h : Runs W w (dispatch P cmd s) (r, s') w') :
    CommandOutcome P W cmd s w r s' w' := by
  unfold dispatch at h
  cases hc : cmd.command with
  | idn => rw [hc] at h; exact (quiet_pure _).outcome h
  | rst =>
      rw [hc] at h
      obtain ⟨-, rfl⟩ := handleRst_runs h
      exact .rst h
  | opc => rw [hc] at h; exact (quiet_pure _).outcome h
  | systPing => rw [hc] at h; exact (quiet_pure _).outcome h
  | systVersion => rw [hc] at h; exact (quiet_pure _).outcome h
  | systStatus => rw [hc] at h; exact quiet_handleSystStatus.outcome h
  | systInit => rw [hc] at h; exact .init hc h (handleSystInit_runs h)
  | systDeinit =>
      rw [hc] at h
      by_cases hi : s.status.hardwareInitialized = true
      · have hs' := handleSystDeinit_runs h
        rw [if_pos hi] at hs'
        subst hs'
        exact .deinit h
      · have hdone : handleSystDeinit s = .done (.ok (.ok "Not initialized".toList), s) := by
          simp only [handleSystDeinit, Act.bind_apply, Act.get_apply, Prog.bind_done, if_neg hi]
          rfl
        have h' : Runs W w (handleSystDeinit s) (r, s') w' := h
        rw [hdone] at h'
        obtain ⟨heq, rfl⟩ := runs_done.1 h'
        cases heq
        exact .quiet (refl_of SameDevices _)
  | systMode =>
      rw [hc] at h
      have hquiet : Quiet handleSystMode := quiet_get
      exact hquiet.outcome h
  | systShutdown => rw [hc] at h; exact (quiet_pure _).outcome h
  | boardMuxRoute =>
      rw [hc] at h
      exact setting_outcome (fun _ => reports_okWithWarning)
        (fun _ ha => requireBoard_of_muxRouteArgs ha) h
  | boardMuxDisconnect =>
      rw [hc] at h
      exact setting_outcome (fun _ => reports_okWithWarning)
        (fun _ ha => requireBoard_of_muxDisconnectArgs ha) h
  | boardGain =>
      rw [hc] at h
      exact setting_outcome (fun _ => reports_okWithSuffix _)
        (fun _ ha => requireBoard_of_gainArgs ha) h
  | boardAdcLoop => rw [hc] at h; exact (quiet_handleBoardAdcLoop cmd).outcome h
  | boardAdcProtect => rw [hc] at h; exact (quiet_handleBoardAdcProtect cmd).outcome h
  | boardAdcSampleGain => rw [hc] at h; exact (quiet_handleBoardAdcSampleGain cmd).outcome h
  | boardReset =>
      rw [hc] at h
      exact setting_outcome (fun _ => reports_okWithSuffix _) (fun _ ha => ha) h
  | boardStatus => rw [hc] at h; exact .status (handleBoardStatus_runs h)
  | measSinc =>
      rw [hc] at h
      rcases checked_runs.1 h with ⟨reply, -, -, rfl, rfl⟩ | ⟨a, ha, hm⟩
      · exact .quiet (refl_of SameDevices _)
      · exact .sinc ha hm ((measures_measureSinc P a).moves W _ _ _ _ _ hm)
  | measSweep =>
      rw [hc] at h
      rcases checked_runs.1 h with ⟨reply, -, -, rfl, rfl⟩ | ⟨a, ha, hm⟩
      · exact .quiet (refl_of SameDevices _)
      · exact .sweep ha hm ((measures_measureSweep P a).moves W _ _ _ _ _ hm)
  | unknown => rw [hc] at h; exact (quiet_pure _).outcome h

theorem handleCommand_runs (h : Runs W w (handleCommand P cmd s) (r, s') w') :
    CommandOutcome P W cmd s w r s' w' := by
  unfold handleCommand at h
  by_cases hargs : cmd.command ≠ .unknown ∧ maxArgCount cmd.command < cmd.args.length
  · rw [if_pos hargs] at h
    exact (quiet_pure _).outcome h
  · rw [if_neg hargs] at h
    exact dispatch_runs h

/-- A well-formed handler stays well formed. -/
theorem WellFormed.of_outcome (h : WellFormed s) (ho : CommandOutcome P W cmd s w r s' w') :
    WellFormed s' := by
  cases ho with
  | quiet hs => exact h.of_sameDevices hs
  | rst => exact wellFormed_make _ _
  | init _ _ hinit => exact h.of_initOutcome hinit
  | deinit => exact ⟨fun hi => (Bool.false_ne_true hi).elim, h.sampleGain⟩
  | setting _ hboard => exact h.of_boardOutcome hboard
  | status hstatus => exact h.of_statusOutcome hstatus
  | sinc _ _ hs => exact h.of_sameDevices hs
  | sweep _ _ hs => exact h.of_sameDevices hs

/-- Every state between two commands is well formed. -/
theorem Reachable.wellFormed (h : Reachable P s) : WellFormed s := by
  induction h with
  | start measurementTimeoutMs mode => exact wellFormed_make measurementTimeoutMs mode
  | command _ hrun ih => exact ih.of_outcome (handleCommand_runs hrun)

end WellFormed

end CommandHandler

end Afm
