/-
**Protection over runs.**

Once the board has been read, every command that the board confirms keeps the cache on the safe
side of the board, and so does every status report.  A setting that the board carries out without
confirming it is different: the cache stays behind, and the estimate with it.

Main definitions:

* `Afm.CommandHandler.Session` — runs of the handler with a board, from an initialization that read
  all of it, with the protection on throughout;
* `Afm.CommandHandler.Harmless` — no setting was carried out unconfirmed that takes the board off
  the safe side of the cache, and no measurement is asked for without a board;
* `Afm.CommandHandler.Protected` — the true peak is within full scale whenever a measurement starts.

Main results:

* `Afm.CommandHandler.covers_of_outcome` — one command;
* `Afm.CommandHandler.session_protected` — harmless runs are protected.
-/

import RedPitayaAfm.OverdriveBound

set_option relaxedAutoImplicit false
set_option autoImplicit false

namespace Afm

namespace CommandHandler

open Effect InputSafety

/-! ### Runs with a board -/

/-- The amplitude with which a command measures. -/
inductive MeasuresAt (A : Arithmetic) (s : CommandHandler) (cmd : ParsedCommand) : ℚ → Prop
  | sinc {a : SincArgs} : cmd.command = .measSinc → s.sincArgs A cmd = .ok a →
      MeasuresAt A s cmd a.amplitude
  | sweep {a : SweepArgs} : cmd.command = .measSweep → s.sweepArgs A cmd = .ok a →
      MeasuresAt A s cmd a.amplitude

/-- The cache is the board, and all of it is known. -/
structure Synced (s : CommandHandler) (b : BoardState) : Prop where
  gains : s.channelGains = b.gains
  routing : s.muxRouting = fun i => BoardState.routeCode (b.routing i)
  known : s.muxRoutingKnown = fun _ => true

/-- The protection is on and watches the loop of the board. -/
structure Watching (s : CommandHandler) : Prop where
  auto : s.status.loopMode = .auto
  protect : s.status.adcProtectEnabled = true

/-- Runs from an initialization that read the whole board.  Between two commands there are the
handler and the board; `C` is what the run of each command meets. -/
inductive Session (P : Platform) (C : CommandHandler → ParsedCommand → Rig → Prop) :
    CommandHandler → BoardState → Prop
  | start {s₀ s : CommandHandler} {w₀ w : Rig} {r : Except Fault Reply} :
      Reachable P s₀ → s₀.status.mode = .full → s₀.status.hardwareInitialized = false →
      Runs rig w₀ (handleCommand P { command := .systInit } s₀) (r, s) w →
      s.status.hardwareInitialized = true → s.status.boardConnected = true →
      s.Synced w.board → s.Watching → Session P C s w.board
  | command {s s' : CommandHandler} {b : BoardState} {w : Rig} {cmd : ParsedCommand}
      {r : Except Fault Reply} :
      Session P C s b → Runs rig { board := b } (handleCommand P cmd s) (r, s') w →
      C s cmd w → s'.Watching → Session P C s' w.board

/-- Whenever a measurement starts, the true peak is within full scale. -/
def Protected (P : Platform) (C : CommandHandler → ParsedCommand → Rig → Prop) : Prop :=
  ∀ s b, Session P C s b → ∀ cmd r s' w amplitude,
    Runs rig { board := b } (handleCommand P cmd s) (r, s') w → C s cmd w →
    s.MeasuresAt P.arithmetic cmd amplitude →
    ∀ b' ∈ w.starts, b'.peak P.arithmetic amplitude s.status.adcSampleGain ≤ adcFullScale

/-- No setting was carried out unconfirmed that takes the board off the safe side of the cache, and
a measurement is asked for only with the board connected. -/
structure Harmless (s : CommandHandler) (cmd : ParsedCommand) (w : Rig) : Prop where
  tolerable : ∀ c ∈ w.unconfirmed, s.Tolerable c
  connected : cmd.command = .measSinc ∨ cmd.command = .measSweep →
    s.status.boardConnected = true

/-! ### One command -/

section Step

variable {A : Arithmetic} {s s' : CommandHandler} {w w' : rig.State}

theorem Synced.covers {b : BoardState} (h : s.Synced b) : s.Covers b where
  gains i := by rw [h.gains]
  routing _ channel hroute := by
    rw [h.routing]
    exact routeCode_some hroute

/-- The safe side is a matter of the cache alone. -/
theorem Covers.of_sameCache {b : BoardState} (h : s.Covers b)
    (hgains : s'.channelGains = s.channelGains) (hrouting : s'.muxRouting = s.muxRouting)
    (hknown : s'.muxRoutingKnown = s.muxRoutingKnown) : s'.Covers b where
  gains i := by
    rw [hgains]
    exact h.gains i
  routing := by
    rw [hrouting, hknown]
    exact h.routing

/-- A setting that was not confirmed. -/
theorem Covers.of_unconfirmed {c : BoardSetting} {reply : Except Text Bool} (h : s.Covers w.board)
    (hne : reply ≠ .ok true) (hstep : rig.Step w (.board (.set c)) reply w')
    (htolerable : ∀ c ∈ w'.unconfirmed, s.Tolerable c) : s.Covers w'.board := by
  have hstep' : w' = w ∨
      w' = { w with board := w.board.apply c, unconfirmed := w.unconfirmed ++ [c] } := by
    simpa [rig, Rig.Step, hne] using hstep
  rcases hstep' with rfl | rfl
  · exact h
  · exact h.apply (htolerable c (List.mem_append_right _ (List.mem_singleton.2 rfl)))

/-- A setting keeps the cache on the safe side, unless it was carried out unconfirmed. -/
theorem Covers.of_boardOutcome {c : BoardSetting} (h : s.Covers w.board)
    (ho : BoardOutcome A rig c s w s' w') (htolerable : ∀ c ∈ w'.unconfirmed, s.Tolerable c) :
    s'.Covers w'.board := by
  cases ho with
  | confirmed hstep =>
      have hstep' : w' = { w with board := w.board.apply c } := by
        simpa [rig, Rig.Step] using hstep
      rw [hstep']
      exact (h.follow c).of_sameCache rfl rfl rfl
  | failed hne hstep => exact h.of_unconfirmed hne hstep htolerable
  | explained hne hstep hexplain =>
      have hstay : w' = _ := hexplain
      subst hstay
      exact h.of_unconfirmed hne hstep htolerable
  | noBoard => exact h

/-- A status report corrects the cache. -/
theorem Covers.of_statusOutcome (h : s.Covers w.board) (ho : StatusOutcome rig s w s' w') :
    s'.Covers w'.board := by
  cases ho with
  | read hstep hparse =>
      obtain ⟨rfl, hshow⟩ := hstep
      exact h.refreshFromStatus (hshow _ rfl) hparse
  | unread hstep =>
      obtain ⟨rfl, -⟩ := hstep
      exact h
  | explained hstep hexplain =>
      obtain ⟨rfl, -⟩ := hstep
      have hstay : w' = _ := hexplain
      subst hstay
      exact h
  | noBoard => exact h

theorem status_of_statusOutcome (ho : StatusOutcome rig s w s' w') : s'.status = s.status := by
  cases ho with
  | read _ hparse => exact (refreshFromStatus_fields hparse).2.2
  | unread => rfl
  | explained => rfl
  | noBoard => rfl

/-- A measurement leaves the board alone, and every start in it is on this board. -/
theorem measure_runs {α : Type} {m : Method α} (hm : Measures m) {r : Except Fault α}
    (hrun : Runs rig w (m s) (r, s') w') :
    w'.board = w.board ∧ ∀ b ∈ w'.starts, b ∈ w.starts ∨ b = w.board := by
  have hkeep : ∀ {v : Rig} {c : ServerCall} {reply : server.Reply c} {v' : Rig},
      IsMeasureCall c →
      (v.board = w.board ∧ ∀ b ∈ v.starts, b ∈ w.starts ∨ b = w.board) → rig.Step v c reply v' →
      v'.board = w.board ∧ ∀ b ∈ v'.starts, b ∈ w.starts ∨ b = w.board := by
    intro v c reply v' hc hv hstep
    -- only the start of a measurement is recorded, and no call of it sets the board
    have hcases : v' = v ∨ v' = { v with starts := v.starts ++ [v.board] } := by
      cases c with
      | hardware c =>
          cases c with
          | startMeasurement numSamples delaySamples => exact Or.inr hstep
          | initializeHardware => exact Or.inl hstep
          | loadGenerationSignal signal => exact Or.inl hstep
          | setDecimation decimation => exact Or.inl hstep
          | getDecimation => exact Or.inl hstep
          | isMeasurementComplete => exact Or.inl hstep
          | getAcquiredSignal size => exact Or.inl hstep
      | resetMeasurement => exact Or.inl hstep
      | cancelCheck => exact Or.inl hstep
      | now => exact Or.inl hstep
      | sleep ms => exact Or.inl hstep
      | planFft size => exact Or.inl hstep
      | _ => exact hc.elim
    rcases hcases with rfl | rfl
    · exact hv
    · refine ⟨hv.1, ?_⟩
      intro b hb
      rcases List.mem_append.1 hb with hb | hb
      · exact hv.2 b hb
      · rw [List.mem_singleton.1 hb]
        exact Or.inr hv.1
  exact hrun.invariant_of_only (hm.only s) hkeep ⟨rfl, fun b hb => Or.inl hb⟩

/-- An initialization that comes to its end has read the board. -/
theorem covers_of_initOutcome
    (h : s.status.hardwareInitialized = true → s.status.boardConnected = true → s.Covers w.board)
    (ho : InitOutcome rig s w s' w') (hinit : s'.status.hardwareInitialized = true)
    (hboard : s'.status.boardConnected = true) : s'.Covers w'.board := by
  cases ho with
  | already => exact h hinit hboard
  | unfinished hstage hnot =>
      rw [hstage.initialized, hnot] at hinit
      cases hinit
  | @finished s₁ s₂ w₁ w' hstage hnot hh hrefresh =>
      have hstatus := (refreshIfConnected_confined.moves rig _ _ _ _ _ hrefresh).status
      have hconnected : s₁.status.boardConnected = true := by
        rw [← hstatus]
        exact hboard
      simp only [refreshIfConnected, Act.bind_apply, Act.get_apply, Prog.bind_done] at hrefresh
      rw [if_pos hconnected] at hrefresh
      exact (refreshBoardCacheFromBoard_covers hrefresh).1.of_sameCache rfl rfl rfl

/-- **What a command leaves** of the invariant of a session. -/
theorem covers_of_outcome {P : Platform} {cmd : ParsedCommand} {r : Except Fault Reply}
    (h : s.status.hardwareInitialized = true → s.status.boardConnected = true → s.Covers w.board)
    (ho : CommandOutcome P rig cmd s w r s' w')
    (htolerable : ∀ c ∈ w'.unconfirmed, s.Tolerable c)
    (hinit : s'.status.hardwareInitialized = true) (hboard : s'.status.boardConnected = true) :
    s'.Covers w'.board := by
  have hsame : SameDevices s s' → s'.Covers w.board := by
    intro hs
    have hcovers := h (hs.initialized ▸ hinit) (hs.connected ▸ hboard)
    exact hcovers.of_sameCache hs.channelGains hs.muxRouting hs.muxRoutingKnown
  cases ho with
  | quiet hs => exact hsame hs
  | rst => exact (Bool.false_ne_true hinit).elim
  | init _ _ houtcome => exact covers_of_initOutcome h houtcome hinit hboard
  | deinit => exact (Bool.false_ne_true hinit).elim
  | setting hrequire houtcome =>
      obtain ⟨hi, hb⟩ := requireBoard_eq_ok.1 hrequire
      exact (h hi hb).of_boardOutcome houtcome htolerable
  | status houtcome =>
      have hstatus := status_of_statusOutcome houtcome
      rw [hstatus] at hinit hboard
      exact (h hinit hboard).of_statusOutcome houtcome
  | sinc _ hrun hs =>
      rw [(measure_runs (measures_measureSinc P _) hrun).1]
      exact hsame hs
  | sweep _ hrun hs =>
      rw [(measure_runs (measures_measureSweep P _) hrun).1]
      exact hsame hs

/-- What a measurement is asked for with has passed the protection. -/
theorem MeasuresAt.checked {cmd : ParsedCommand} {amplitude : ℚ} (h : s.MeasuresAt A cmd amplitude) :
    0 < amplitude ∧ s.status.hardwareInitialized = true ∧
      (cmd.command = .measSinc ∨ cmd.command = .measSweep) ∧
      s.checkAdcProtection A amplitude = .ok () := by
  cases h with
  | sinc hc ha =>
      have hvalid := sincArgs_valid ha
      exact ⟨hvalid.amplitude_pos, hvalid.initialized, Or.inl hc, hvalid.protection⟩
  | sweep hc ha =>
      have hvalid := sweepArgs_valid ha
      exact ⟨hvalid.amplitude_pos, hvalid.initialized, Or.inr hc, hvalid.protection⟩

/-- The protection lets only what it estimates to be within full scale pass. -/
theorem peak_le_of_check {amplitude : ℚ} (hprotect : s.status.adcProtectEnabled = true)
    (hactive : (s.estimateAdcLoop A amplitude).active = true)
    (hcheck : s.checkAdcProtection A amplitude = .ok ()) :
    (s.estimateAdcLoop A amplitude).peak ≤ adcFullScale := by
  unfold checkAdcProtection at hcheck
  by_contra hpeak
  simp [hprotect, hactive, hpeak] at hcheck

/-- A measurement runs on the board as it is. -/
theorem starts_of_command {P : Platform} {cmd : ParsedCommand} {r : Except Fault Reply}
    (hc : cmd.command = .measSinc ∨ cmd.command = .measSweep) (hw : w.starts = [])
    (hrun : Runs rig w (handleCommand P cmd s) (r, s') w') : ∀ b ∈ w'.starts, b = w.board := by
  have hempty : w' = w → ∀ b ∈ w'.starts, b = w.board := by
    rintro rfl b hb
    rw [hw] at hb
    cases hb
  have hmeasure : (w'.board = w.board ∧ ∀ b ∈ w'.starts, b ∈ w.starts ∨ b = w.board) →
      ∀ b ∈ w'.starts, b = w.board := by
    rintro ⟨-, hall⟩ b hb
    rcases hall b hb with hb | hb
    · rw [hw] at hb
      cases hb
    · exact hb
  unfold handleCommand at hrun
  by_cases hargs : cmd.command ≠ .unknown ∧ maxArgCount cmd.command < cmd.args.length
  · rw [if_pos hargs] at hrun
    exact hempty (runs_done.1 hrun).2
  rw [if_neg hargs] at hrun
  rcases hc with hc | hc
  · simp only [dispatch, hc] at hrun
    rcases checked_runs.1 hrun with ⟨reply, -, -, -, hstay⟩ | ⟨a, -, hbody⟩
    · exact hempty hstay
    · exact hmeasure (measure_runs (measures_measureSinc P a) hbody)
  · simp only [dispatch, hc] at hrun
    rcases checked_runs.1 hrun with ⟨reply, -, -, -, hstay⟩ | ⟨a, -, hbody⟩
    · exact hempty hstay
    · exact hmeasure (measure_runs (measures_measureSweep P a) hbody)

end Step

/-! ### Runs -/

section Session

variable {P : Platform}

/-- What holds in a session between two commands. -/
structure SessionInvariant (s : CommandHandler) (b : BoardState) : Prop where
  wellFormed : WellFormed s
  watching : s.Watching
  covers : s.status.hardwareInitialized = true → s.status.boardConnected = true → s.Covers b

/-- The invariant of a harmless session. -/
theorem Session.invariant {s : CommandHandler} {b : BoardState} (h : Session P Harmless s b) :
    SessionInvariant s b := by
  induction h with
  | start hreach _ _ hrun _ _ hsynced hwatch =>
      exact
        { wellFormed := hreach.wellFormed.of_outcome (handleCommand_runs hrun)
          watching := hwatch
          covers := fun _ _ => hsynced.covers }
  | command _ hrun hcond hwatch ih =>
      have houtcome := handleCommand_runs hrun
      exact
        { wellFormed := ih.wellFormed.of_outcome houtcome
          watching := hwatch
          covers := fun hinit hboard =>
            covers_of_outcome ih.covers houtcome hcond.tolerable hinit hboard }

/-- **Harmless runs are protected.** -/
theorem session_protected (P : Platform) : Protected P Harmless := by
  intro s b hsession cmd r s' w amplitude hrun hcond hmeasure b' hb'
  have hinv := hsession.invariant
  obtain ⟨hpos, hinit, hc, hcheck⟩ := hmeasure.checked
  have hboard := hcond.connected hc
  have hactive : (s.estimateAdcLoop P.arithmetic amplitude).active = true :=
    estimateAdcLoop_active hinv.watching.auto hboard
  have hestimate := peak_le_of_check hinv.watching.protect hactive hcheck
  have hpeak := (hinv.covers hinit hboard).peak_le (A := P.arithmetic) hinv.watching.auto hboard
    hpos.le hinv.wellFormed.sampleGain
  rw [starts_of_command hc rfl hrun b' hb']
  exact hpeak.trans hestimate

/-! ### A setting that is carried out unconfirmed -/

/-- The run of a command on devices that work. -/
def ran (confirms : Bool) (cmd : ParsedCommand) (s : CommandHandler) (b : BoardState) :
    (Except Fault Reply × CommandHandler) × Rig :=
  (handleCommand (flat .exact) cmd s).eval (Rig.reply confirms) { board := b }

theorem ran_runs (confirms : Bool) (cmd : ParsedCommand) (s : CommandHandler) (b : BoardState) :
    Runs rig { board := b } (handleCommand (flat .exact) cmd s)
      ((ran confirms cmd s b).1.1, (ran confirms cmd s b).1.2) (ran confirms cmd s b).2 :=
  Rig.reply_runs confirms _ _

/-- OUT1 shows IN2, and all gains are x1. -/
def quietBoard : BoardState := ⟨fun _ => .gain1, fun i => if i = 0 then some 1 else none⟩

/-- The handler that `SYSTEM:INIT` leaves with this board. -/
def onQuietBoard : CommandHandler :=
  (ran true { command := .systInit } (make 5000 .full) quietBoard).1.2

/-- `BOARD:GAIN 2,7` -/
def raiseGain : ParsedCommand := { command := .boardGain, args := ["2".toList, "7".toList] }

/-- `MEASURE:SINC 500,100,16,16` -/
def shortSinc : ParsedCommand :=
  { command := .measSinc
    args := ["500".toList, "100".toList, "16".toList, "16".toList] }

theorem session_onQuietBoard {C : CommandHandler → ParsedCommand → Rig → Prop} :
    Session (flat .exact) C onQuietBoard quietBoard := by
  have hboard : (ran true { command := .systInit } (make 5000 .full) quietBoard).2.board
      = quietBoard := by decide +kernel
  have hrun := ran_runs true { command := .systInit } (make 5000 .full) quietBoard
  have hsession := Session.start (C := C) (.start 5000 .full) rfl rfl hrun
    (by decide +kernel) (by decide +kernel)
    ⟨by decide +kernel, by decide +kernel, by decide +kernel⟩
    ⟨by decide +kernel, by decide +kernel⟩
  rw [hboard] at hsession
  exact hsession

/-- **The board raises a gain and the confirmation is lost**: the measurement that follows drives
the ADC to the rail of the board. -/
theorem unconfirmed_gain_overdrives : ¬Protected (flat .exact) fun _ _ _ => True := by
  intro hprotected
  have hraised := Session.command (C := fun _ _ _ => True) session_onQuietBoard
    (ran_runs false raiseGain onQuietBoard quietBoard) trivial
    ⟨by decide +kernel, by decide +kernel⟩
  have hargs : (ran false raiseGain onQuietBoard quietBoard).1.2.sincArgs .exact shortSinc
      = .ok ⟨16, 16, 1, 500000, 100000⟩ := by decide +kernel
  have hwithin := hprotected _ _ hraised shortSinc _ _ _ _ (ran_runs true shortSinc _ _) trivial
    (.sinc rfl hargs)
  have hstarts : (ran true shortSinc (ran false raiseGain onQuietBoard quietBoard).1.2
      (ran false raiseGain onQuietBoard quietBoard).2.board).2.starts
      = [quietBoard.apply (.setGain 1 .gain16)] := by decide +kernel
  have hpeak := hwithin _ (by rw [hstarts]; exact List.mem_singleton.2 rfl)
  have hover : ¬(quietBoard.apply (.setGain 1 .gain16)).peak .exact 1
      (ran false raiseGain onQuietBoard quietBoard).1.2.status.adcSampleGain ≤ adcFullScale := by
    decide +kernel
  exact hover hpeak

end Session

end CommandHandler

end Afm
