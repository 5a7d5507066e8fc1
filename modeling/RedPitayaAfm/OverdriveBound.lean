/-
**The board behind the cache.**

The handler estimates the peak at the ADC from its cache of the gains and of the routing, never
from the board itself.  The estimate is safe as long as the cache is on the safe side of the board:
no cached gain is below the true one, and the input cached for the link to the ADC, where it counts
as known, is the true one.

Main definitions:

* `Afm.BoardState`, `Afm.BoardState.peak` — the board as it is, and the peak it causes;
* `Afm.CommandHandler.Covers` — the cache is on the safe side of the board;
* `Afm.Rig`, `Afm.rig` — a world with a board: what it shows is true, a setting that it does not
  confirm may still have been carried out.

Main results:

* `Afm.CommandHandler.Covers.peak_le` — on the safe side the estimate bounds the true peak;
* `Afm.CommandHandler.refreshed_estimate_covers` — after the board was read, whatever could be read
  of it, the estimate bounds the true peak.
-/

import RedPitayaAfm.HandlerRuns

set_option relaxedAutoImplicit false
set_option autoImplicit false

namespace Afm

open Effect InputSafety

/-! ### The board as it is -/

/-- The gains of a board and the inputs its outputs are connected to. -/
structure BoardState where
  gains : Channel → GainSetting
  routing : Channel → Option Channel
  deriving DecidableEq

namespace BoardState

/-- How the handler writes the input of an output. -/
def routeCode (input : Option Channel) : ℕ := (input.map Fin.val).getD disconnected

/-- The peak at the ADC: none when its link is open. -/
def peak (A : Arithmetic) (b : BoardState) (amplitude sampleGain : ℚ) : ℚ :=
  match b.routing adcLinkOutput with
  | none => 0
  | some input => loopPeak A amplitude sampleGain b.gains dacLinkInput input

/-- What a setting does to the board. -/
def apply (b : BoardState) : BoardSetting → BoardState
  | .setMuxRoute output input => { b with routing := Function.update b.routing output (some input) }
  | .disconnectMux output => { b with routing := Function.update b.routing output none }
  | .setGain channel gain => { b with gains := Function.update b.gains channel gain }
  | .reset => { gains := fun _ => .gain1, routing := fun _ => none }

/-- What the query of the gains marks as valid is true. -/
def ShowsGains (b : BoardState) (gains : Channel → GainSetting × Bool) : Prop :=
  ∀ i, (gains i).2 = true → (gains i).1 = b.gains i

/-- What the query of the routing marks as valid is true. -/
def ShowsRouting (b : BoardState) (routing : Channel → ℕ × Bool) : Prop :=
  ∀ i, (routing i).2 = true → (routing i).1 = routeCode (b.routing i)

/-- What a status report says is true, where it can be parsed. -/
def ShowsStatus (b : BoardState) (statusText : Text) : Prop :=
  (∀ out, Board.parseGainStatus statusText numChannels = .ok (some out) →
    ∀ (i : Channel) g, out[i.val]? = some (some g) → g = b.gains i) ∧
  ∀ out, Board.parseRoutingStatus statusText numChannels = .ok (some out) →
    ∀ (i : Channel) r, out[i.val]? = some (some r) → r = routeCode (b.routing i)

end BoardState

/-! ### The cache on the safe side -/

namespace CommandHandler

section Covers

variable {A : Arithmetic} {s : CommandHandler} {b : BoardState} {amplitude : ℚ}

/-- The cache is on the safe side of the board. -/
structure Covers (s : CommandHandler) (b : BoardState) : Prop where
  gains : ∀ i, (b.gains i).factor ≤ (s.channelGains i).factor
  routing : s.muxRoutingKnown adcLinkOutput = true → ∀ input : Channel,
    b.routing adcLinkOutput = some input → s.muxRouting adcLinkOutput = input

/-- The estimate is never negative. -/
theorem estimateAdcLoop_peak_nonneg (h : 0 ≤ amplitude) (hs : 0 ≤ s.status.adcSampleGain) :
    0 ≤ (s.estimateAdcLoop A amplitude).peak := by
  unfold estimateAdcLoop
  by_cases hoff : s.status.loopMode = .off ∨ s.status.boardConnected = false
  · rw [if_pos hoff]
  rw [if_neg hoff]
  by_cases hmanual : s.status.loopMode = .manual
  · rw [if_pos hmanual]
    exact loopPeak_nonneg h hs _ _ _
  rw [if_neg hmanual]
  by_cases hknown : s.muxRoutingKnown adcLinkOutput = false
  · rw [if_pos hknown]
    exact (foldl_worseInput_spec _ _).1
  rw [if_neg hknown]
  by_cases hroute : s.muxRouting adcLinkOutput < 4
  · rw [dif_pos hroute]
    exact loopPeak_nonneg h hs _ _ _
  · rw [dif_neg hroute]

/-- **On the safe side** the estimate bounds the true peak. -/
theorem Covers.peak_le (h : s.Covers b) (hmode : s.status.loopMode = .auto)
    (hboard : s.status.boardConnected = true) (ha : 0 ≤ amplitude)
    (hs : 0 ≤ s.status.adcSampleGain) :
    b.peak A amplitude s.status.adcSampleGain ≤ (s.estimateAdcLoop A amplitude).peak := by
  unfold BoardState.peak
  cases hroute : b.routing adcLinkOutput with
  | none => exact estimateAdcLoop_peak_nonneg ha hs
  | some input =>
      have hmono : InputSafety.loopPeak A amplitude s.status.adcSampleGain b.gains dacLinkInput input
          ≤ s.loopPeak A amplitude dacLinkInput input :=
        loopPeak_mono ha hs (h.gains _) (h.gains _)
      by_cases hknown : s.muxRoutingKnown adcLinkOutput = true
      · rw [peak_of_known hmode hboard hknown (h.routing hknown input hroute)]
        exact hmono
      · have hunknown : s.muxRoutingKnown adcLinkOutput = false := by simpa using hknown
        exact hmono.trans (loopPeak_le_of_unknown hmode hboard hunknown input)

/-- Nothing is known of the board. -/
theorem covers_seedBoardCache (s : CommandHandler) (b : BoardState) : s.seedBoardCache.Covers b where
  gains i := by
    have hmax : (16 : ℚ) ≤ GainSetting.gain16.factor := by decide +kernel
    exact (b.gains i).factor_le.trans hmax
  routing hknown := (Bool.false_ne_true hknown).elim

/-- Gains that were read are true, the others count as the highest. -/
theorem Covers.takeGains (h : s.Covers b) {gains : Channel → GainSetting × Bool}
    (hshow : b.ShowsGains gains) : (s.takeGains gains).Covers b where
  gains i := by
    by_cases hvalid : (gains i).2 = true
    · simp [CommandHandler.takeGains, hvalid, hshow i hvalid]
    · have hmax : (16 : ℚ) ≤ GainSetting.gain16.factor := by decide +kernel
      simp only [CommandHandler.takeGains, hvalid]
      exact (b.gains i).factor_le.trans hmax
  routing := h.routing

theorem routeCode_some {input : Option Channel} {channel : Channel} (h : input = some channel) :
    BoardState.routeCode input = channel := by
  rw [h]
  rfl

/-- Inputs that were read are true, the others count as unknown. -/
theorem Covers.takeRouting (h : s.Covers b) {routing : Channel → ℕ × Bool}
    (hshow : b.ShowsRouting routing) : (s.takeRouting routing).Covers b where
  gains := h.gains
  routing hknown _ hroute := (hshow _ hknown).trans (routeCode_some hroute)

/-- A status report corrects what it shows and leaves the rest. -/
theorem Covers.refreshFromStatus (h : s.Covers b) {statusText : Text} {s' : CommandHandler}
    (hshow : b.ShowsStatus statusText) (hs : s.refreshFromStatus statusText = .ok s') :
    s'.Covers b := by
  unfold CommandHandler.refreshFromStatus at hs
  cases hg : Board.parseGainStatus statusText numChannels with
  | error m => rw [hg] at hs; cases hs
  | ok gains =>
      cases hr : Board.parseRoutingStatus statusText numChannels with
      | error m => rw [hg, hr] at hs; cases hs
      | ok routing =>
          rw [hg, hr] at hs
          cases hs
          constructor
          · intro i
            cases hi : gains.bind fun out => (out[i.val]?).join with
            | none => simpa [hi] using h.gains i
            | some g =>
                obtain ⟨out, rfl, hout⟩ := Option.bind_eq_some_iff.1 hi
                have htrue := hshow.1 out hg i g (Option.join_eq_some_iff.1 hout)
                simp [hi, htrue]
          · intro hknown input hroute
            cases hi : routing.bind fun out => (out[adcLinkOutput.val]?).join with
            | none =>
                simp only [hi, Option.isSome_none, Bool.false_or, Option.getD_none] at hknown ⊢
                exact h.routing hknown input hroute
            | some r =>
                obtain ⟨out, rfl, hout⟩ := Option.bind_eq_some_iff.1 hi
                have htrue := hshow.2 out hr adcLinkOutput r (Option.join_eq_some_iff.1 hout)
                simp only [hi, Option.getD_some]
                exact htrue.trans (routeCode_some hroute)

/-- A setting that was confirmed is followed. -/
theorem Covers.follow (h : s.Covers b) (c : BoardSetting) : (s.follow c).Covers (b.apply c) := by
  cases c with
  | setMuxRoute output input =>
      refine ⟨h.gains, ?_⟩
      intro hknown channel hroute
      by_cases ho : adcLinkOutput = output
      · subst ho
        simp only [BoardState.apply, Function.update_self, Option.some.injEq] at hroute
        simp [CommandHandler.follow, setRouting, hroute]
      · simp only [BoardState.apply, Function.update_of_ne ho] at hroute
        simp only [CommandHandler.follow, setRouting, Function.update_of_ne ho] at hknown ⊢
        exact h.routing hknown channel hroute
  | disconnectMux output =>
      refine ⟨h.gains, ?_⟩
      intro hknown channel hroute
      by_cases ho : adcLinkOutput = output
      · subst ho
        simp [BoardState.apply] at hroute
      · simp only [BoardState.apply, Function.update_of_ne ho] at hroute
        simp only [CommandHandler.follow, setRouting, Function.update_of_ne ho] at hknown ⊢
        exact h.routing hknown channel hroute
  | setGain channel gain =>
      refine ⟨?_, h.routing⟩
      intro i
      by_cases hi : i = channel
      · subst hi
        simp [BoardState.apply, CommandHandler.follow, setChannelGain]
      · simp only [BoardState.apply, CommandHandler.follow, setChannelGain,
          Function.update_of_ne hi]
        exact h.gains i
  | reset => exact ⟨fun _ => le_refl _, fun _ _ hroute => by simp [BoardState.apply] at hroute⟩

/-- A setting that may have been carried out without the handler's knowledge, and still leaves the
cache on the safe side. -/
def Tolerable (s : CommandHandler) : BoardSetting → Prop
  | .setMuxRoute output input =>
      output = adcLinkOutput → s.muxRoutingKnown adcLinkOutput = true →
        s.muxRouting adcLinkOutput = input
  | .disconnectMux _ => True
  | .setGain channel gain => gain.factor ≤ (s.channelGains channel).factor
  | .reset => ∀ i, 1 ≤ (s.channelGains i).factor

theorem Covers.apply (h : s.Covers b) {c : BoardSetting} (hc : s.Tolerable c) :
    s.Covers (b.apply c) := by
  cases c with
  | setMuxRoute output input =>
      refine ⟨h.gains, ?_⟩
      intro hknown channel hroute
      by_cases ho : adcLinkOutput = output
      · subst ho
        simp only [BoardState.apply, Function.update_self, Option.some.injEq] at hroute
        rw [hc rfl hknown, hroute]
      · simp only [BoardState.apply, Function.update_of_ne ho] at hroute
        exact h.routing hknown channel hroute
  | disconnectMux output =>
      refine ⟨h.gains, ?_⟩
      intro hknown channel hroute
      by_cases ho : adcLinkOutput = output
      · subst ho
        simp [BoardState.apply] at hroute
      · simp only [BoardState.apply, Function.update_of_ne ho] at hroute
        exact h.routing hknown channel hroute
  | setGain channel gain =>
      refine ⟨?_, h.routing⟩
      intro i
      by_cases hi : i = channel
      · subst hi
        simpa [BoardState.apply, Tolerable] using hc
      · simp only [BoardState.apply, Function.update_of_ne hi]
        exact h.gains i
  | reset =>
      refine ⟨fun i => ?_, fun _ _ hroute => by simp [BoardState.apply] at hroute⟩
      have hone : (GainSetting.gain1).factor = 1 := by decide +kernel
      simpa [BoardState.apply, hone] using hc i

end Covers

end CommandHandler

/-! ### A world with a board -/

/-- The board, and what became of it while a command was carried out. -/
structure Rig where
  board : BoardState
  /-- The board at each start of a measurement. -/
  starts : List BoardState := []
  /-- Settings that the board carried out without confirming them. -/
  unconfirmed : List BoardSetting := []

/-- The replies of a world with a board.  A setting that fails may have been carried out. -/
def Rig.Step (w : Rig) : (c : ServerCall) → server.Reply c → Rig → Prop
  | .board (.set c), reply, w' =>
      if reply = .ok true then w' = { w with board := w.board.apply c }
      else w' = w ∨
        w' = { w with board := w.board.apply c, unconfirmed := w.unconfirmed ++ [c] }
  | .board .queryGains, reply, w' =>
      w' = w ∧ ∀ gains, reply = .ok (some gains) → w.board.ShowsGains gains
  | .board .queryRouting, reply, w' =>
      w' = w ∧ ∀ routing, reply = .ok (some routing) → w.board.ShowsRouting routing
  | .board .getStatus, reply, w' =>
      w' = w ∧ ∀ text, reply = .ok (some text) → w.board.ShowsStatus text
  | .hardware (.startMeasurement _ _), _, w' => w' = { w with starts := w.starts ++ [w.board] }
  | _, _, w' => w' = w

/-- The world of the handler, with a board. -/
abbrev rig : World server where
  State := Rig
  Step := Rig.Step

/-- The replies of devices that work, with a board that shows all of its state and carries out
every setting; `confirms` tells whether it says so. -/
def Rig.reply (confirms : Bool) (w : Rig) : (c : ServerCall) → server.Reply c × Rig
  | .board (.set c) =>
      (.ok confirms,
        { w with
          board := w.board.apply c
          unconfirmed := if confirms then w.unconfirmed else w.unconfirmed ++ [c] })
  | .board .queryGains => (.ok (some fun i => (w.board.gains i, true)), w)
  | .board .queryRouting =>
      (.ok (some fun i => (BoardState.routeCode (w.board.routing i), true)), w)
  | .board .getStatus => (.ok none, w)
  | .hardware (.startMeasurement _ _) => (.ok true, { w with starts := w.starts ++ [w.board] })
  | .hardware .initializeHardware => (.ok true, w)
  | .hardware (.loadGenerationSignal _) => (.ok true, w)
  | .hardware (.setDecimation _) => (.ok true, w)
  | .hardware .getDecimation => (.ok (64 : ℕ), w)
  | .hardware .isMeasurementComplete => (.ok true, w)
  | .hardware (.getAcquiredSignal _) => (.ok (some fun _ => (0 : ℚ)), w)
  | .board .initializeBoard => (.ok true, w)
  | .board .getLastError => (.ok [], w)
  | .hardwareFactory => (.ok true, w)
  | .resetMeasurement => (true, w)
  | .cleanup => ((), w)
  | .deleteHardware => ((), w)
  | .boardFactory => (.ok true, w)
  | .closeBoard => ((), w)
  | .deleteBoard => ((), w)
  | .cancelCheck => (false, w)
  | .now => ((0 : ℤ), w)
  | .sleep _ => ((), w)
  | .planFft _ => (.ok (), w)

theorem Rig.reply_step (confirms : Bool) (w : Rig) (c : ServerCall) :
    rig.Step w c (w.reply confirms c).1 (w.reply confirms c).2 := by
  cases c with
  | hardware c => cases c <;> rfl
  | board c =>
      cases c with
      | set c =>
          cases confirms with
          | true => simp [Rig.Step, Rig.reply]
          | false => simp [Rig.Step, Rig.reply]
      | queryGains =>
          refine ⟨rfl, ?_⟩
          rintro gains ⟨⟩ i -
          rfl
      | queryRouting =>
          refine ⟨rfl, ?_⟩
          rintro routing ⟨⟩ i -
          rfl
      | getStatus => exact ⟨rfl, fun text h => by cases h⟩
      | initializeBoard => rfl
      | getLastError => rfl
  | hardwareFactory => rfl
  | resetMeasurement => rfl
  | cleanup => rfl
  | deleteHardware => rfl
  | boardFactory => rfl
  | closeBoard => rfl
  | deleteBoard => rfl
  | cancelCheck => rfl
  | now => rfl
  | sleep ms => rfl
  | planFft size => rfl

theorem Rig.reply_runs {α : Type} (confirms : Bool) (p : Prog server α) (w : Rig) :
    Runs rig w p (p.eval (Rig.reply confirms) w).1 (p.eval (Rig.reply confirms) w).2 := by
  have henv : ∀ w c, rig.Step w c (Rig.reply confirms w c).1 (Rig.reply confirms w c).2 :=
    Rig.reply_step confirms
  exact Prog.eval_runs henv p w

namespace CommandHandler

section Refresh

variable {s s' : CommandHandler} {w w' : Rig}

/-- Reading the gains leaves the cache on the safe side. -/
theorem readGains_covers {r : Except Fault Unit} (h : s.Covers w.board)
    (hrun : Runs rig w (readGains s) (r, s') w') : s'.Covers w'.board ∧ w' = w := by
  rcases Act.runs_bind.1 hrun with ⟨e, -, hcall⟩ | ⟨gains, s₁, w₁, hcall, hrest⟩
  · obtain ⟨rfl, ⟨reply, hstep, -⟩ | ⟨-, rfl⟩⟩ := boardCall_cases hcall
    · obtain ⟨rfl, -⟩ := hstep
      exact ⟨h, rfl⟩
    · exact ⟨h, rfl⟩
  · obtain ⟨rfl, ⟨reply, hstep, hr⟩ | ⟨hr, -⟩⟩ := boardCall_cases hcall
    · obtain ⟨rfl, hshow⟩ := hstep
      obtain rfl : reply = .ok gains := by
        cases reply with
        | ok b => cases hr; rfl
        | error what => cases hr
      cases gains with
      | none =>
          obtain ⟨heq, rfl⟩ := runs_done.1 hrest
          cases heq
          exact ⟨h, rfl⟩
      | some gains =>
          obtain ⟨heq, rfl⟩ := runs_done.1 hrest
          cases heq
          exact ⟨h.takeGains (hshow gains rfl), rfl⟩
    · cases hr

/-- Reading the routing leaves the cache on the safe side. -/
theorem readRouting_covers {r : Except Fault Unit} (h : s.Covers w.board)
    (hrun : Runs rig w (readRouting s) (r, s') w') : s'.Covers w'.board ∧ w' = w := by
  rcases Act.runs_bind.1 hrun with ⟨e, -, hcall⟩ | ⟨routing, s₁, w₁, hcall, hrest⟩
  · obtain ⟨rfl, ⟨reply, hstep, -⟩ | ⟨-, rfl⟩⟩ := boardCall_cases hcall
    · obtain ⟨rfl, -⟩ := hstep
      exact ⟨h, rfl⟩
    · exact ⟨h, rfl⟩
  · obtain ⟨rfl, ⟨reply, hstep, hr⟩ | ⟨hr, -⟩⟩ := boardCall_cases hcall
    · obtain ⟨rfl, hshow⟩ := hstep
      obtain rfl : reply = .ok routing := by
        cases reply with
        | ok b => cases hr; rfl
        | error what => cases hr
      cases routing with
      | none =>
          obtain ⟨heq, rfl⟩ := runs_done.1 hrest
          cases heq
          exact ⟨h, rfl⟩
      | some routing =>
          obtain ⟨heq, rfl⟩ := runs_done.1 hrest
          cases heq
          exact ⟨h.takeRouting (hshow routing rfl), rfl⟩
    · cases hr

/-- Whatever could be read of the board, the cache is on the safe side of it. -/
theorem refreshBoardCacheFromBoard_covers {r : Except Fault Unit}
    (hrun : Runs rig w (refreshBoardCacheFromBoard s) (r, s') w') : s'.Covers w'.board ∧ w' = w := by
  have hseed := covers_seedBoardCache s w.board
  simp only [refreshBoardCacheFromBoard, Act.bind_apply, Act.modify_apply, Act.get_apply,
    Prog.bind_done] at hrun
  by_cases hb : s.seedBoardCache.board = true
  · rw [if_pos hb] at hrun
    rcases Act.runs_bind.1 hrun with ⟨e, -, hgains⟩ | ⟨u, s₁, w₁, hgains, hrouting⟩
    · exact readGains_covers hseed hgains
    · obtain ⟨hs₁, rfl⟩ := readGains_covers hseed hgains
      exact readRouting_covers hs₁ hrouting
  · rw [if_neg hb] at hrun
    obtain ⟨heq, rfl⟩ := runs_done.1 hrun
    cases heq
    exact ⟨hseed, rfl⟩

/-- **Whatever could be read of the board**, the estimate bounds the true peak. -/
theorem refreshed_estimate_covers {A : Arithmetic} {r : Except Fault Unit} {amplitude : ℚ}
    (hmode : s.status.loopMode = .auto) (hboard : s.status.boardConnected = true)
    (ha : 0 < amplitude ∧ amplitude ≤ 1)
    (hs : minSampleGain A ≤ s.status.adcSampleGain ∧ s.status.adcSampleGain ≤ maxSampleGain)
    (hrun : Runs rig w (refreshBoardCacheFromBoard s) (r, s') w') :
    w.board.peak A amplitude s.status.adcSampleGain ≤ (s'.estimateAdcLoop A amplitude).peak := by
  obtain ⟨hcovers, rfl⟩ := refreshBoardCacheFromBoard_covers hrun
  have hstatus := (refreshBoardCacheFromBoard_confined.moves rig _ _ _ _ _ hrun).status
  have hgain : 0 ≤ s.status.adcSampleGain := by
    have hmin : 0 ≤ minSampleGain A := A.single_nonneg (by norm_num)
    exact hmin.trans hs.1
  rw [← hstatus] at hmode hboard hgain ⊢
  exact hcovers.peak_le hmode hboard ha.1.le hgain

/-- OUT1 shows IN2, and all gains are x1. -/
theorem refreshed_estimate_covers_in2 :
    BoardState.peak .exact ⟨fun _ => .gain1, fun _ => some 1⟩ 1 1 ≤
      (((refreshBoardCacheFromBoard initialized).eval (Rig.reply true)
        { board := ⟨fun _ => .gain1, fun _ => some 1⟩ }).1.2.estimateAdcLoop .exact 1).peak :=
  refreshed_estimate_covers (s := initialized) (w := { board := ⟨fun _ => .gain1, fun _ => some 1⟩ })
    rfl rfl (by norm_num) (by decide +kernel)
    (Rig.reply_runs true (refreshBoardCacheFromBoard initialized) _)

end Refresh

end CommandHandler

end Afm
