/-
**What a query changes.**

The parser marks a command whose keyword ends with `?` as a query.  Three of the handlers look at the
mark, and only where there are no arguments; all others carry out a query as the command without the
mark.  So a query leaves the settings and the devices alone exactly when the command behind it has
nothing to change.

Main definitions:

* `Afm.CommandHandler.Disturbs`, `Afm.CommandHandler.SameSettings` — the calls and the fields that a
  query should leave alone;
* `Afm.CommandHandler.LeavesAlone` — a command that does so, whatever the devices reply;
* `Afm.CommandHandler.HasEffect` — a command with something to change.

Main results:

* `Afm.CommandHandler.leavesAlone_checked`, `Afm.CommandHandler.leavesAlone_setting` — the shapes of
  the handlers;
* `Afm.CommandHandler.leavesAlone_iff` — **when a command leaves everything alone**;
* `Afm.CommandHandler.query_leavesAlone_iff` — when a query does, as every other line.
-/

import RedPitayaAfm.HandlerLifecycle
import RedPitayaAfm.HandlerRejects

set_option relaxedAutoImplicit false
set_option autoImplicit false

namespace Afm

namespace CommandHandler

open Effect

/-! ### Leaving everything alone -/

/-- The calls that set something on the board, and those that create or release a device. -/
def Disturbs : ServerCall → Prop
  | .hardwareFactory => True
  | .cleanup => True
  | .deleteHardware => True
  | .boardFactory => True
  | .board (.set _) => True
  | .closeBoard => True
  | .deleteBoard => True
  | _ => False

/-- The settings of the handler are the same. -/
structure SameSettings (s s' : CommandHandler) : Prop where
  initialized : s'.status.hardwareInitialized = s.status.hardwareInitialized
  connected : s'.status.boardConnected = s.status.boardConnected
  loopMode : s'.status.loopMode = s.status.loopMode
  exciteChannel : s'.status.loopExciteChannel = s.status.loopExciteChannel
  returnChannel : s'.status.loopReturnChannel = s.status.loopReturnChannel
  protect : s'.status.adcProtectEnabled = s.status.adcProtectEnabled
  sampleGain : s'.status.adcSampleGain = s.status.adcSampleGain

/-- Whatever the devices reply, none is disturbed and the settings stay. -/
def LeavesAlone (m : Method Reply) (s : CommandHandler) : Prop :=
  ∀ r s' (calls : Calls), Runs journal [] (m s) (r, s') calls →
    (∀ call ∈ calls, ¬Disturbs call.1) ∧ SameSettings s s'

section Alone

variable {s s' : CommandHandler} {m : Method Reply}

theorem sameSettings_refl (s : CommandHandler) : SameSettings s s :=
  ⟨rfl, rfl, rfl, rfl, rfl, rfl, rfl⟩

/-- A method that calls nothing. -/
theorem leavesAlone_of_done {r : Except Fault Reply} (h : m s = .done (r, s')) :
    LeavesAlone m s ↔ SameSettings s s' := by
  constructor
  · intro hm
    have hrun : Runs journal [] (m s) (r, s') ([] : Calls) := h ▸ Runs.done _ _
    exact (hm r s' [] hrun).2
  · intro hs r₁ s₁ calls hrun
    rw [h] at hrun
    obtain ⟨heq, rfl⟩ := runs_done.1 hrun
    cases heq
    exact ⟨(fun call hcall => nomatch hcall), hs⟩

/-- A method whose first call disturbs a device. -/
theorem not_leavesAlone_of_call {c : ServerCall} (h : ∃ next, m s = .call c next) (hc : Disturbs c) :
    ¬LeavesAlone m s := by
  intro hm
  obtain ⟨next, h⟩ := h
  -- some run exists, and every run begins with this call
  have hrun := smooth_runs (m s) []
  obtain ⟨hcalls, -⟩ := hm _ _ _ hrun
  rw [h] at hrun
  obtain ⟨reply, calls, hstep, hrest⟩ := runs_call.1 hrun
  have hfirst : calls = [] ++ [⟨c, reply⟩] := hstep
  have hmem : ⟨c, reply⟩ ∈ ((m s).eval smooth []).2 := by
    rw [h]
    exact (journal_extends hrest).subset (hfirst ▸ List.mem_singleton_self _)
  exact hcalls _ hmem hc

/-- What does not pass the checks leaves everything alone. -/
theorem leavesAlone_checked {α : Type} {check : CommandHandler → Except Reply α}
    {body : α → Method Reply} :
    LeavesAlone (checked check body) s ↔ ∀ a, check s = .ok a → LeavesAlone (body a) s := by
  constructor
  · intro hm a ha r s' calls hrun
    exact hm r s' calls (checked_runs.2 (Or.inr ⟨a, ha, hrun⟩))
  · intro hbody r s' calls hrun
    rcases checked_runs.1 hrun with ⟨reply, -, -, rfl, rfl⟩ | ⟨a, ha, hrun⟩
    · exact ⟨(fun call hcall => nomatch hcall), sameSettings_refl _⟩
    · exact hbody a ha r s' calls hrun

/-- A setting of the board does not, once it has passed its checks. -/
theorem leavesAlone_setting {α : Type} {check : CommandHandler → Except Reply α}
    {c : α → BoardSetting} {done : α → Method Reply} (hboard : ∀ a, check s = .ok a → s.board = true) :
    LeavesAlone (checked check fun a => boardCommand (c a) (done a)) s ↔ ¬∃ a, check s = .ok a := by
  rw [leavesAlone_checked]
  constructor
  · rintro h ⟨a, ha⟩
    refine not_leavesAlone_of_call (c := .board (.set (c a))) ?_ trivial (h a ha)
    simp only [boardCommand, boardCall, Act.bind_apply, Act.get_apply, Prog.bind_done, hboard a ha,
      if_true, Act.call_apply, Prog.bind_call]
    exact ⟨_, rfl⟩
  · intro h a ha
    exact absurd ⟨a, ha⟩ h

/-- A change of the fields, with the warning behind it. -/
theorem leavesAlone_modify {A : Arithmetic} {f : CommandHandler → CommandHandler} {data : Text} :
    LeavesAlone (do Act.modify f; okWithSuffix A data) s ↔ SameSettings s (f s) := by
  have hdone : (do Act.modify f; okWithSuffix A data : Method Reply) s
      = .done (.ok (.ok (data ++ ((f s).updateAdcOverdriveEstimate A).overdriveSuffix A)),
          (f s).updateAdcOverdriveEstimate A) := rfl
  rw [leavesAlone_of_done hdone]
  constructor
  · exact fun h => ⟨h.1, h.2, h.3, h.4, h.5, h.6, h.7⟩
  · exact fun h => ⟨h.1, h.2, h.3, h.4, h.5, h.6, h.7⟩

theorem leavesAlone_of_same {r : Except Fault Reply} (h : m s = .done (r, s)) : LeavesAlone m s :=
  (leavesAlone_of_done h).2 (sameSettings_refl s)

end Alone

/-! ### Commands with something to change -/

/-- There is nothing that a reset would change. -/
structure PoweredUp (s : CommandHandler) : Prop where
  hardware : s.hardware = false
  board : s.board = false
  loopMode : s.status.loopMode = .auto
  exciteChannel : s.status.loopExciteChannel = 0
  returnChannel : s.status.loopReturnChannel = 0
  protect : s.status.adcProtectEnabled = true
  sampleGain : s.status.adcSampleGain = 1

/-- The request is for another loop than the configured one. -/
def LoopRequest.HasEffect (s : CommandHandler) : LoopRequest → Prop
  | .query => False
  | .off => s.status.loopMode ≠ .off
  | .auto => s.status.loopMode ≠ .auto
  | .manual excite ret => ¬(s.status.loopMode = .manual ∧ s.status.loopExciteChannel = excite ∧
      s.status.loopReturnChannel = ret)

/-- The command passes its checks and has something to change. -/
def HasEffect (P : Platform) (s : CommandHandler) (cmd : ParsedCommand) : Prop :=
  cmd.args.length ≤ maxArgCount cmd.command ∧
    match cmd.command with
    | .rst => ¬PoweredUp s
    | .systInit => s.status.hardwareInitialized = false
    | .systDeinit => s.status.hardwareInitialized = true
    | .boardMuxRoute => ∃ a, s.muxRouteArgs cmd = .ok a
    | .boardMuxDisconnect => ∃ a, s.muxDisconnectArgs cmd = .ok a
    | .boardGain => ∃ a, s.gainArgs cmd = .ok a
    | .boardReset => s.requireBoard = .ok ()
    | .boardAdcLoop => ∃ request, s.adcLoopArgs cmd = .ok request ∧ request.HasEffect s
    | .boardAdcProtect => ∃ enabled, s.adcProtectArgs cmd = .ok (some enabled) ∧
        enabled ≠ s.status.adcProtectEnabled
    | .boardAdcSampleGain => ∃ sampleGain,
        s.adcSampleGainArgs P.arithmetic cmd = .ok (some sampleGain) ∧ sampleGain ≠ s.status.adcSampleGain
    | _ => False

section Commands

variable {A : Arithmetic} {s : CommandHandler} {cmd : ParsedCommand}

theorem leavesAlone_handleRst (hinit : s.status.hardwareInitialized = true → s.hardware = true)
    (hconn : s.status.boardConnected = true → s.board = true) :
    LeavesAlone handleRst s ↔ PoweredUp s := by
  by_cases hh : s.hardware = true
  · refine ⟨fun h => absurd h (not_leavesAlone_of_call (c := .cleanup) ?_ trivial), fun h => ?_⟩
    · simp only [handleRst, releaseHardware, Act.bind_apply, Act.get_apply, Prog.bind_done, hh, if_true,
        Act.call_apply, Prog.bind_call]
      exact ⟨_, rfl⟩
    · exact absurd (hh.symm.trans h.hardware) (by decide)
  have hh' : s.hardware = false := by simpa using hh
  by_cases hb : s.board = true
  · refine ⟨fun h => absurd h (not_leavesAlone_of_call (c := .closeBoard) ?_ trivial), fun h => ?_⟩
    · simp only [handleRst, releaseHardware, releaseBoard, Act.bind_apply, Act.get_apply,
        Prog.bind_done, hh', hb, if_true, Act.call_apply, Prog.bind_call, Bool.false_eq_true, if_false,
        Act.pure_apply]
      exact ⟨_, rfl⟩
    · exact absurd (hb.symm.trans h.board) (by decide)
  have hb' : s.board = false := by simpa using hb
  -- without devices a reset calls nothing, and the fields are as the constructor sets them
  have hdone : handleRst s = .done (.ok (.ok []), make s.measurementTimeoutMs s.status.mode) := by
    simp only [handleRst, releaseHardware, releaseBoard, Act.bind_apply, Act.get_apply,
      Prog.bind_done, hh', hb', Bool.false_eq_true, if_false, Act.pure_apply, Act.modify_apply,
      resetBoardCache]
    rfl
  rw [leavesAlone_of_done hdone]
  constructor
  · intro h
    exact ⟨hh', hb', h.loopMode.symm, h.exciteChannel.symm, h.returnChannel.symm, h.protect.symm,
      h.sampleGain.symm⟩
  · intro h
    have hi : s.status.hardwareInitialized = false := by
      rw [← Bool.not_eq_true]
      exact fun hi => hh (hinit hi)
    have hc : s.status.boardConnected = false := by
      rw [← Bool.not_eq_true]
      exact fun hc => hb (hconn hc)
    exact ⟨hi.symm, hc.symm, h.loopMode.symm, h.exciteChannel.symm, h.returnChannel.symm,
      h.protect.symm, h.sampleGain.symm⟩

theorem leavesAlone_handleSystInit :
    LeavesAlone handleSystInit s ↔ s.status.hardwareInitialized = true := by
  by_cases hi : s.status.hardwareInitialized = true
  · refine ⟨fun _ => hi, fun _ => leavesAlone_of_same (r := .ok (.ok "Already initialized".toList)) ?_⟩
    simp only [handleSystInit, Act.bind_apply, Act.get_apply, Prog.bind_done, hi, if_true,
      Act.pure_apply]
  · refine ⟨fun h => absurd h (not_leavesAlone_of_call (c := .hardwareFactory) ?_ trivial),
      fun h => absurd h hi⟩
    simp only [handleSystInit, openHardware, makeHardware, Act.bind_apply, Act.get_apply,
      Prog.bind_done, hi, Bool.false_eq_true, if_false, Act.call_apply, Prog.bind_call]
    exact ⟨_, rfl⟩

theorem leavesAlone_handleSystDeinit (hinit : s.status.hardwareInitialized = true → s.hardware = true) :
    LeavesAlone handleSystDeinit s ↔ s.status.hardwareInitialized ≠ true := by
  by_cases hi : s.status.hardwareInitialized = true
  · refine ⟨fun h => absurd h (not_leavesAlone_of_call (c := .cleanup) ?_ trivial),
      fun h => absurd hi h⟩
    simp only [handleSystDeinit, releaseHardware, Act.bind_apply, Act.get_apply, Prog.bind_done, hi,
      if_true, hinit hi, Act.call_apply, Prog.bind_call]
    exact ⟨_, rfl⟩
  · refine ⟨fun _ => hi, fun _ => leavesAlone_of_same (r := .ok (.ok "Not initialized".toList)) ?_⟩
    simp only [handleSystDeinit, Act.bind_apply, Act.get_apply, Prog.bind_done, hi,
      Bool.false_eq_true, if_false, Act.pure_apply]

/-- A status request asks the board twice at most, and changes nothing but the cache. -/
theorem statusOutcome_keeps {W : World server} {K : W.State → Prop} {s' : CommandHandler}
    {w w' : W.State} (hget : ∀ w reply w', K w → W.Step w (.board .getStatus) reply w' → K w')
    (herror : ∀ w reply w', K w → W.Step w (.board .getLastError) reply w' → K w')
    (ho : StatusOutcome W s w s' w') (hw : K w) : K w' ∧ s'.status = s.status := by
  cases ho with
  | read hstep hparse => exact ⟨hget _ _ _ hw hstep, (refreshFromStatus_fields hparse).2.2⟩
  | unread hstep => exact ⟨hget _ _ _ hw hstep, rfl⟩
  | explained hstep hstep' => exact ⟨herror _ _ _ (hget _ _ _ hw hstep) hstep', rfl⟩
  | noBoard => exact ⟨hw, rfl⟩

/-- The record stays free of disturbances with a call that is none. -/
theorem undisturbed_step {c : ServerCall} (hc : ¬Disturbs c) (calls : Calls) (reply : server.Reply c)
    (calls' : Calls) (hcalls : ∀ call ∈ calls, ¬Disturbs call.1)
    (hstep : journal.Step calls c reply calls') : ∀ call ∈ calls', ¬Disturbs call.1 := by
  have heq : calls' = calls ++ [⟨c, reply⟩] := hstep
  rw [heq]
  intro call hcall
  rcases List.mem_append.1 hcall with hcall | hcall
  · exact hcalls call hcall
  · obtain rfl := List.mem_singleton.1 hcall
    exact hc

theorem leavesAlone_handleBoardStatus (s : CommandHandler) : LeavesAlone handleBoardStatus s := by
  intro r s' calls hrun
  obtain ⟨hcalls, hstatus⟩ := statusOutcome_keeps
    (K := fun calls : Calls => ∀ call ∈ calls, ¬Disturbs call.1)
    (undisturbed_step (c := .board .getStatus) id) (undisturbed_step (c := .board .getLastError) id)
    (handleBoardStatus_runs hrun) (fun call hcall => nomatch hcall)
  refine ⟨hcalls, ?_⟩
  constructor <;> rw [hstatus]

theorem leavesAlone_handleBoardAdcLoop : LeavesAlone (handleBoardAdcLoop A cmd) s ↔
    ¬∃ request, s.adcLoopArgs cmd = .ok request ∧ request.HasEffect s := by
  rw [handleBoardAdcLoop, leavesAlone_checked]
  constructor
  · rintro h ⟨request, hrequest, heffect⟩
    have hbody := h request hrequest
    cases request with
    | query => exact heffect
    | off => exact heffect ((leavesAlone_of_done rfl).1 hbody).loopMode.symm
    | auto => exact heffect (leavesAlone_modify.1 hbody).loopMode.symm
    | manual excite ret =>
        have hsame := leavesAlone_modify.1 hbody
        exact heffect ⟨hsame.loopMode.symm, hsame.exciteChannel.symm, hsame.returnChannel.symm⟩
  · intro h request hrequest
    have hnone : ¬request.HasEffect s := fun heffect => h ⟨request, hrequest, heffect⟩
    cases request with
    | query => exact leavesAlone_of_same rfl
    | off =>
        have hoff : s.status.loopMode = .off := not_not.1 hnone
        refine (leavesAlone_of_done rfl).2 ?_
        exact ⟨rfl, rfl, hoff.symm, rfl, rfl, rfl, rfl⟩
    | auto =>
        have hauto : s.status.loopMode = .auto := not_not.1 hnone
        exact leavesAlone_modify.2 ⟨rfl, rfl, hauto.symm, rfl, rfl, rfl, rfl⟩
    | manual excite ret =>
        obtain ⟨hmanual, hexcite, hret⟩ := not_not.1 hnone
        exact leavesAlone_modify.2 ⟨rfl, rfl, hmanual.symm, hexcite.symm, hret.symm, rfl, rfl⟩

theorem leavesAlone_handleBoardAdcProtect : LeavesAlone (handleBoardAdcProtect A cmd) s ↔
    ¬∃ enabled, s.adcProtectArgs cmd = .ok (some enabled) ∧ enabled ≠ s.status.adcProtectEnabled := by
  rw [handleBoardAdcProtect, leavesAlone_checked]
  constructor
  · rintro h ⟨enabled, henabled, hne⟩
    exact hne (leavesAlone_modify.1 (h _ henabled)).protect
  · intro h request hrequest
    cases request with
    | none => exact leavesAlone_of_same rfl
    | some enabled =>
        refine leavesAlone_modify.2 ⟨rfl, rfl, rfl, rfl, rfl, ?_, rfl⟩
        by_contra hne
        exact h ⟨enabled, hrequest, hne⟩

theorem leavesAlone_handleBoardAdcSampleGain : LeavesAlone (handleBoardAdcSampleGain A cmd) s ↔
    ¬∃ sampleGain, s.adcSampleGainArgs A cmd = .ok (some sampleGain) ∧
      sampleGain ≠ s.status.adcSampleGain := by
  rw [handleBoardAdcSampleGain, leavesAlone_checked]
  constructor
  · rintro h ⟨sampleGain, hgain, hne⟩
    exact hne (leavesAlone_modify.1 (h _ hgain)).sampleGain
  · intro h request hrequest
    cases request with
    | none => exact leavesAlone_of_same rfl
    | some sampleGain =>
        refine leavesAlone_modify.2 ⟨rfl, rfl, rfl, rfl, rfl, rfl, ?_⟩
        by_contra hne
        exact h ⟨sampleGain, hrequest, hne⟩

/-- **When a command leaves everything alone**, query or not: when it has nothing to change. -/
theorem leavesAlone_iff {P : Platform} {mode : OperatingMode} {interrupted : Prop}
    (h : Lifecycle mode interrupted s) (hsinc : cmd.command ≠ .measSinc)
    (hsweep : cmd.command ≠ .measSweep) :
    LeavesAlone (handleCommand P cmd) s ↔ ¬HasEffect P s cmd := by
  have hboard : s.requireBoard = .ok () → s.board = true :=
    fun hrequire => h.board (requireBoard_eq_ok.1 hrequire).2
  by_cases hargs : cmd.args.length ≤ maxArgCount cmd.command
  · have hdispatch : handleCommand P cmd = dispatch P cmd := by
      rw [handleCommand, if_neg]
      exact fun hmany => absurd hargs (not_le.2 hmany.2)
    rw [hdispatch, dispatch, HasEffect, and_iff_right hargs]
    -- one case a command; the mark counts only where the arguments are missing
    cases hc : cmd.command with
    | idn => exact iff_of_true (leavesAlone_of_same rfl) id
    | rst => exact (leavesAlone_handleRst h.hardware h.board).trans not_not.symm
    | opc => exact iff_of_true (leavesAlone_of_same rfl) id
    | systPing => exact iff_of_true (leavesAlone_of_same rfl) id
    | systVersion => exact iff_of_true (leavesAlone_of_same rfl) id
    | systStatus =>
        refine iff_of_true ((leavesAlone_of_done rfl).2 ?_) id
        exact ⟨rfl, rfl, rfl, rfl, rfl, rfl, rfl⟩
    | systInit => exact leavesAlone_handleSystInit.trans (by simp)
    | systDeinit => exact leavesAlone_handleSystDeinit h.hardware
    | systMode => exact iff_of_true (leavesAlone_of_same rfl) id
    | boardMuxRoute => exact leavesAlone_setting fun _ ha => hboard (requireBoard_of_muxRouteArgs ha)
    | boardMuxDisconnect =>
        exact leavesAlone_setting fun _ ha => hboard (requireBoard_of_muxDisconnectArgs ha)
    | boardGain => exact leavesAlone_setting fun _ ha => hboard (requireBoard_of_gainArgs ha)
    | boardAdcLoop => exact leavesAlone_handleBoardAdcLoop
    | boardAdcProtect => exact leavesAlone_handleBoardAdcProtect
    | boardAdcSampleGain => exact leavesAlone_handleBoardAdcSampleGain
    | boardReset =>
        refine (leavesAlone_setting fun _ ha => hboard ha).trans (not_congr ?_)
        constructor
        · rintro ⟨u, hu⟩
          exact hu
        · intro hu
          exact ⟨(), hu⟩
    | boardStatus => exact iff_of_true (leavesAlone_handleBoardStatus s) id
    | measSinc => exact absurd hc hsinc
    | measSweep => exact absurd hc hsweep
    | systShutdown => exact iff_of_true (leavesAlone_of_same rfl) id
    | unknown => exact iff_of_true (leavesAlone_of_same rfl) id
  · have hnone : ¬HasEffect P s cmd := fun heffect => hargs heffect.1
    refine iff_of_true ?_ hnone
    -- a command that is not known is answered before its arguments are counted
    by_cases hunknown : cmd.command = .unknown
    · have hdispatch : handleCommand P cmd = handleUnknown cmd := by
        rw [handleCommand, if_neg (fun hmany => hmany.1 hunknown), dispatch, hunknown]
      rw [hdispatch]
      exact leavesAlone_of_same rfl
    · have hmany : handleCommand P cmd = pure (tooManyArgs cmd) := by
        rw [handleCommand, if_pos ⟨hunknown, not_le.1 hargs⟩]
      rw [hmany]
      exact leavesAlone_of_same rfl

end Commands

/-! ### Queries -/

section Queries

variable {P : Platform} {s : CommandHandler}

/-- A handler between two commands lives in the mode it was made for. -/
theorem Reachable.lifetime (h : Reachable P s) : ∃ mode interrupted, Lifetime P mode s interrupted := by
  induction h with
  | start measurementTimeoutMs mode => exact ⟨mode, false, .start measurementTimeoutMs⟩
  | command _ hrun ih =>
      obtain ⟨mode, interrupted, hlife⟩ := ih
      exact ⟨mode, _, .command hlife hrun⟩

/-- **When a line leaves everything alone**, query or not: the mark alone does not keep a command
from taking effect. -/
theorem query_leavesAlone_iff (h : Reachable P s) (line : Text)
    (hsinc : (parseLine line).command ≠ .measSinc)
    (hsweep : (parseLine line).command ≠ .measSweep) :
    LeavesAlone (handleCommand P (parseLine line)) s ↔ ¬HasEffect P s (parseLine line) := by
  obtain ⟨mode, interrupted, hlife⟩ := h.lifetime
  exact leavesAlone_iff hlife.lifecycle hsinc hsweep

/-- `BOARD:ADC:SAMPLEGAIN? 1000.00001`: as a `float` the gain is 1000, the highest one. -/
theorem query_leavesAlone_iff_sampleGain :
    ¬LeavesAlone (handleCommand (flat .ieee) (parseLine "BOARD:ADC:SAMPLEGAIN? 1000.00001".toList))
      initialized := by
  refine mt (query_leavesAlone_iff (reachable_initialized (flat .ieee)) _ (by decide)
    (by decide)).1 (not_not.2 ⟨by decide, ?_⟩)
  exact ⟨1000, by decide +kernel, by decide +kernel⟩

/-- A query that switches the protection off. -/
theorem not_query_leavesAlone_protect :
    ¬∀ s, Reachable (flat .ieee) s → ∀ line, (parseLine line).isQuery = true →
      (parseLine line).command ≠ .measSinc → (parseLine line).command ≠ .measSweep →
        LeavesAlone (handleCommand (flat .ieee) (parseLine line)) s := by
  intro hall
  have halone := hall initialized (reachable_initialized _) "BOARD:ADC:PROTECT? OFF".toList
    (by decide) (by decide) (by decide)
  have hrun := smooth_runs
    (handleCommand (flat .ieee) (parseLine "BOARD:ADC:PROTECT? OFF".toList) initialized) []
  have hprotect := (halone _ _ _ hrun).2.protect
  exact absurd hprotect (by decide +kernel)

end Queries

end CommandHandler

end Afm
