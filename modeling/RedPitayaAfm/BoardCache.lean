/-
**The cache of the board.**

The handler on a driver of its own, with the firmware behind a line that loses nothing.  What the
handler keeps of the gains and of the routing is what the firmware holds, in every state in which
the board is connected.

Main definitions:

* `Afm.Bench`, `Afm.bench` — the devices of a server: the driver, the line with the firmware, and
  the decimation of the hardware;
* `Afm.CommandHandler.Mirrors` — the cache shows the state of the firmware;
* `Afm.CommandHandler.Operated` — the handler and its devices after any commands.

Main results:

* `Afm.CommandHandler.Mirrors.follow` — a setting changes the cache and the firmware alike;
* `Afm.CommandHandler.Operated.inStep` — a connected board is open, and its state is in the cache;
* `Afm.CommandHandler.cache_refines_firmware` — **the cache refines the firmware**.
-/

import RedPitayaAfm.BoardCable
import RedPitayaAfm.HandlerRuns

set_option relaxedAutoImplicit false
set_option autoImplicit false

namespace Afm

open Effect

/-! ### The devices of a server -/

namespace Uart

/-- The driver as its constructor makes it, with the defaults of its parameters. -/
def State.fresh : State := { devicePath := "/dev/ttyPS1".toList, baudRate := 9600 }

/-- A method that answers. -/
def answered {α : Type} (m : Method α) : Method (Except StringScan.Misuse α) := do
  let a ← m
  pure (.ok a)

/-- The method of the driver behind each method of the interface. -/
def boardMethod (rounds : ℕ) : (c : BoardCall) → Method (Except StringScan.Misuse c.Result)
  | .initializeBoard => answered (initializeBoard rounds)
  | .set (.setMuxRoute output input) => answered (setMuxRoute rounds output input)
  | .set (.disconnectMux output) => answered (disconnectMux rounds output)
  | .set (.setGain channel gain) => answered (setGain rounds channel gain)
  | .set .reset => answered (reset rounds)
  | .getStatus => answered (getStatus rounds)
  | .queryGains => queryGains rounds
  | .queryRouting => queryRouting rounds
  | .getLastError => answered getLastError

end Uart

/-- The devices of a server: the driver, where there is one, the line, and the decimation the
hardware is set to. -/
structure Bench where
  driver : Option Uart.State := none
  cable : Uart.Cable
  decimation : ℕ := 64

namespace Bench

/-- The destructor of the driver, where there is one, closes the line. -/
def Deleted (w : Bench) (cable : Uart.Cable) : Prop :=
  match w.driver with
  | none => cable = w.cable
  | some u => ∃ u', Runs Uart.cable w.cable (Uart.close u) (.ok (), u') cable

/-- What the devices may do.  The methods of the board are those of the driver, run on the line; a
method that uses a string out of bounds throws.  The hardware keeps a valid decimation, 64 at first,
and may do anything else. -/
def Step (rounds : ℕ) (w : Bench) : (c : ServerCall) → server.Reply c → Bench → Prop
  | .hardwareFactory, .ok _, w' => w' = { w with decimation := 64 }
  | .hardwareFactory, .error _, w' => w' = w
  | .hardware .getDecimation, reply, w' => reply = .ok w.decimation ∧ w' = w
  | .hardware (.setDecimation decimation), reply, w' =>
      (reply = .ok true ∧ Fpga.isValidDecimation decimation = true ∧
        w' = { w with decimation := decimation }) ∨ reply = .ok false ∧ w' = w
  | .boardFactory, .ok made, w' => ∃ cable, w.Deleted cable ∧
      w' = { w with driver := if made then some .fresh else none, cable := cable }
  | .boardFactory, .error _, w' => w' = w
  | .board c, reply, w' => ∃ u x u' cable, w.driver = some u ∧
      Runs Uart.cable w.cable (Uart.boardMethod rounds c u) (.ok x, u') cable ∧
      (match x with | .ok value => reply = .ok value | .error _ => ∃ what, reply = .error what) ∧
      w' = { w with driver := some u', cable := cable }
  | .closeBoard, _, w' => ∃ u u' cable, w.driver = some u ∧
      Runs Uart.cable w.cable (Uart.close u) (.ok (), u') cable ∧
      w' = { w with driver := some u', cable := cable }
  | .deleteBoard, _, w' => ∃ cable, w.Deleted cable ∧ w' = { w with driver := none, cable := cable }
  | _, _, w' => w' = w

end Bench

/-- The devices as an environment of the handler. -/
abbrev bench (rounds : ℕ) : World server := ⟨Bench, Bench.Step rounds⟩

/-! ### The driver's methods on the line -/

namespace Uart

open Firmware

section Methods

variable {rounds : ℕ} {u u' : State} {w w' : Cable} {s : Switches}

theorem answered_runs {α : Type} {m : Method α} {x : Except StringScan.Misuse α}
    (h : Runs cable w (answered m u) (.ok x, u') w') :
    ∃ a, x = .ok a ∧ Runs cable w (m u) (.ok a, u') w' := by
  obtain ⟨a, u₁, w₁, hrun, hdone⟩ := Act.runs_bind_ok.1 h
  obtain ⟨heq, rfl⟩ := runs_done.1 hdone
  cases heq
  exact ⟨a, rfl, hrun⟩

/-- What a setting of the interface changes on the board. -/
def changesOf : BoardSetting → List Change
  | .setMuxRoute output input => [.route output (some input)]
  | .disconnectMux output => [.route output none]
  | .setGain channel gain => [.gain channel (storedGain gain)]
  | .reset => muxInit

/-- **A setting** is confirmed, and the firmware carries it out. -/
theorem boardMethod_set {c : BoardSetting} {x : Except StringScan.Misuse Bool} (hu : u.Ready)
    (hw : w.Idle s) (h : Runs cable w (boardMethod rounds (.set c) u) (.ok x, u') w') :
    x = .ok true ∧ u'.Ready ∧ w'.Idle (s.performAll (changesOf c)) := by
  cases c with
  | setMuxRoute output input =>
      obtain ⟨b, rfl, hrun⟩ := answered_runs h
      obtain ⟨rfl, hdone⟩ := setMuxRoute_cable hu hw hrun
      exact ⟨rfl, hdone⟩
  | disconnectMux output =>
      obtain ⟨b, rfl, hrun⟩ := answered_runs h
      obtain ⟨rfl, hdone⟩ := disconnectMux_cable hu hw hrun
      exact ⟨rfl, hdone⟩
  | setGain channel gain =>
      obtain ⟨b, rfl, hrun⟩ := answered_runs h
      obtain ⟨rfl, hdone⟩ := setGain_cable hu hw hrun
      exact ⟨rfl, hdone⟩
  | reset =>
      obtain ⟨b, rfl, hrun⟩ := answered_runs h
      obtain ⟨rfl, hdone⟩ := reset_cable hu hw hrun
      exact ⟨rfl, hdone⟩

end Methods

end Uart

/-! ### What the devices do -/

namespace Bench

open Firmware

variable {rounds : ℕ} {w w' : Bench} {s : Switches}

/-- The firmware waits for a command. -/
structure Rests (w : Bench) (s : Switches) : Prop where
  decimation : w.decimation ≠ 0
  cable : w.cable.Idle s

/-- It waits, and the driver has opened the line. -/
structure Wired (w : Bench) (s : Switches) : Prop extends Rests w s where
  driver : ∃ u, w.driver = some u ∧ u.Ready

theorem Rests.deleted (hw : w.Rests s) {cable : Uart.Cable} (h : w.Deleted cable) :
    cable.Idle s := by
  unfold Deleted at h
  cases hd : w.driver with
  | none =>
      rw [hd] at h
      exact h ▸ hw.cable
  | some u =>
      rw [hd] at h
      obtain ⟨u', hrun⟩ := h
      exact Uart.close_cable hw.cable hrun

/-- A measurement does not touch the board. -/
theorem measure_step {c : ServerCall} {reply : server.Reply c} (hc : CommandHandler.IsMeasureCall c)
    (h : (bench rounds).Step w c reply w') : w'.driver = w.driver ∧ w'.cable = w.cable ∧
      (w.decimation ≠ 0 → w'.decimation ≠ 0) := by
  cases c with
  | hardware c =>
      cases c with
      | getDecimation =>
          obtain ⟨-, rfl⟩ := h
          exact ⟨rfl, rfl, id⟩
      | setDecimation decimation =>
          obtain ⟨-, hvalid, rfl⟩ | ⟨-, rfl⟩ := h
          · exact ⟨rfl, rfl, fun _ => Fpga.ne_zero_of_isValidDecimation hvalid⟩
          · exact ⟨rfl, rfl, id⟩
      | _ =>
          obtain rfl : w' = w := h
          exact ⟨rfl, rfl, id⟩
  | resetMeasurement | cancelCheck | now | sleep _ | planFft _ =>
      obtain rfl : w' = w := h
      exact ⟨rfl, rfl, id⟩
  | _ => exact hc.elim

/-- Calls other than those of the methods of the board. -/
def IsOtherCall : ServerCall → Prop
  | .board _ => False
  | _ => True

/-- Without a method of the board the firmware keeps waiting. -/
theorem Rests.step {c : ServerCall} {reply : server.Reply c} (hw : w.Rests s) (hc : IsOtherCall c)
    (h : (bench rounds).Step w c reply w') : w'.Rests s := by
  cases c with
  | board c => exact hc.elim
  | hardwareFactory =>
      cases reply with
      | ok made =>
          obtain rfl : w' = { w with decimation := 64 } := h
          exact ⟨Nat.succ_ne_zero 63, hw.cable⟩
      | error what =>
          obtain rfl : w' = w := h
          exact hw
  | hardware c =>
      have hmeasure : CommandHandler.IsMeasureCall (.hardware c) := trivial
      obtain ⟨-, hcable, hdecimation⟩ := measure_step hmeasure h
      exact ⟨hdecimation hw.decimation, hcable ▸ hw.cable⟩
  | boardFactory =>
      cases reply with
      | ok made =>
          obtain ⟨cable, hdeleted, rfl⟩ := h
          exact ⟨hw.decimation, hw.deleted hdeleted⟩
      | error what =>
          obtain rfl : w' = w := h
          exact hw
  | closeBoard =>
      obtain ⟨u, u', cable, -, hrun, rfl⟩ := h
      exact ⟨hw.decimation, Uart.close_cable hw.cable hrun⟩
  | deleteBoard =>
      obtain ⟨cable, hdeleted, rfl⟩ := h
      exact ⟨hw.decimation, hw.deleted hdeleted⟩
  | resetMeasurement | cleanup | deleteHardware | cancelCheck | now | sleep _ | planFft _ =>
      obtain rfl : w' = w := h
      exact hw

/-- A setting is confirmed, and carried out. -/
theorem Wired.set {c : BoardSetting} {reply : Except Text Bool} (hw : w.Wired s)
    (h : (bench rounds).Step w (.board (.set c)) reply w') :
    reply = .ok true ∧ w'.Wired (s.performAll (Uart.changesOf c)) := by
  obtain ⟨u, hu, hready⟩ := hw.driver
  obtain ⟨v, x, u', cable, hv, hrun, hreply, rfl⟩ := h
  obtain rfl : u = v := Option.some.inj (hu.symm.trans hv)
  obtain ⟨rfl, hready', hidle⟩ := Uart.boardMethod_set hready hw.cable hrun
  exact ⟨hreply, ⟨hw.decimation, hidle⟩, u', rfl, hready'⟩

/-- A status report shows the firmware. -/
theorem Wired.getStatus {reply : Except Text (Option Text)} (hw : w.Wired s)
    (h : (bench rounds).Step w (.board .getStatus) reply w') :
    reply = .ok (some (statusText s)) ∧ w'.Wired s := by
  obtain ⟨u, hu, hready⟩ := hw.driver
  obtain ⟨v, x, u', cable, hv, hrun, hreply, rfl⟩ := h
  obtain rfl : u = v := Option.some.inj (hu.symm.trans hv)
  obtain ⟨status, rfl, hget⟩ := Uart.answered_runs hrun
  obtain ⟨rfl, hready', hidle⟩ := Uart.getStatus_cable hready hw.cable hget
  exact ⟨hreply, ⟨hw.decimation, hidle⟩, u', rfl, hready'⟩

/-- The query for the gains shows those of the firmware. -/
theorem Wired.queryGains {reply : Except Text (Option (Channel → GainSetting × Bool))}
    (hw : w.Wired s) (h : (bench rounds).Step w (.board .queryGains) reply w') :
    reply = .ok (some fun i => (GainSetting.ofIndex (s.ampGains i), true)) ∧ w'.Wired s := by
  obtain ⟨u, hu, hready⟩ := hw.driver
  obtain ⟨v, x, u', cable, hv, hrun, hreply, rfl⟩ := h
  obtain rfl : u = v := Option.some.inj (hu.symm.trans hv)
  obtain ⟨rfl, hready', hidle⟩ := Uart.queryGains_cable hready hw.cable hrun
  exact ⟨hreply, ⟨hw.decimation, hidle⟩, u', rfl, hready'⟩

/-- The query for the routing shows that of the firmware. -/
theorem Wired.queryRouting {reply : Except Text (Option (Channel → ℕ × Bool))}
    (hw : w.Wired s) (h : (bench rounds).Step w (.board .queryRouting) reply w') :
    reply = .ok (some fun i => (((s.muxRouting i).map Fin.val).getD disconnected, true)) ∧
      w'.Wired s := by
  obtain ⟨u, hu, hready⟩ := hw.driver
  obtain ⟨v, x, u', cable, hv, hrun, hreply, rfl⟩ := h
  obtain rfl : u = v := Option.some.inj (hu.symm.trans hv)
  obtain ⟨rfl, hready', hidle⟩ := Uart.queryRouting_cable hready hw.cable hrun
  exact ⟨hreply, ⟨hw.decimation, hidle⟩, u', rfl, hready'⟩

/-- Opening a new board: the line is open if the method says so. -/
theorem Rests.initializeBoard {reply : Except Text Bool} (hw : w.Rests s)
    (hdriver : w.driver = some .fresh) (h : (bench rounds).Step w (.board .initializeBoard) reply w') :
    w'.Rests s ∧ (reply = .ok true → w'.Wired s) := by
  obtain ⟨u, x, u', cable, hu, hrun, hreply, rfl⟩ := h
  obtain rfl : .fresh = u := Option.some.inj (hdriver.symm.trans hu)
  obtain ⟨b, rfl, hinit⟩ := Uart.answered_runs hrun
  obtain ⟨hready, hidle⟩ := Uart.initializeBoard_cable rfl hw.cable hinit
  have hrests : Rests { w with driver := some u', cable := cable } s := ⟨hw.decimation, hidle⟩
  refine ⟨hrests, ?_⟩
  rintro rfl
  cases hreply
  exact ⟨hrests, u', rfl, hready rfl⟩

end Bench

/-! ### The cache -/

namespace CommandHandler

open Firmware

/-- The cache shows the gains and the routing of the firmware, and knows every output. -/
structure Mirrors (s : CommandHandler) (b : Switches) : Prop where
  channelGains : ∀ i, (s.channelGains i).toIndex = b.ampGains i
  muxRouting : ∀ i, s.muxRouting i = ((b.muxRouting i).map Fin.val).getD disconnected
  muxRoutingKnown : ∀ i, s.muxRoutingKnown i = true

section Mirrors

variable {s s' : CommandHandler} {b : Switches}

theorem Mirrors.of_cache (h : s.Mirrors b) (hgains : s'.channelGains = s.channelGains)
    (hrouting : s'.muxRouting = s.muxRouting) (hknown : s'.muxRoutingKnown = s.muxRoutingKnown) :
    s'.Mirrors b where
  channelGains := hgains ▸ h.channelGains
  muxRouting := hrouting ▸ h.muxRouting
  muxRoutingKnown := hknown ▸ h.muxRoutingKnown

theorem Mirrors.setRouting (h : s.Mirrors b) (output : Channel) (input : Option (Fin 4)) :
    (s.setRouting output ((input.map Fin.val).getD disconnected)).Mirrors
      (b.performAll [.route output input]) := by
  rw [Switches.performAll_cons, Switches.performAll_nil]
  constructor
  · intro i
    rw [Switches.perform_ampGains]
    exact h.channelGains i
  · intro i
    rw [Switches.perform_muxRouting]
    by_cases hi : i = output
    · subst hi
      simp [CommandHandler.setRouting]
    · simp [CommandHandler.setRouting, hi, h.muxRouting i]
  · intro i
    by_cases hi : i = output
    · subst hi
      simp [CommandHandler.setRouting]
    · simp [CommandHandler.setRouting, hi, h.muxRoutingKnown i]

theorem Mirrors.setChannelGain (h : s.Mirrors b) (channel : Channel) (gain : GainSetting) :
    (s.setChannelGain channel gain).Mirrors
      (b.performAll [.gain channel (Uart.storedGain gain)]) := by
  rw [Switches.performAll_cons, Switches.performAll_nil]
  constructor
  · intro i
    rw [Switches.perform_ampGains]
    by_cases hi : i = channel
    · subst hi
      simp [CommandHandler.setChannelGain, Uart.storedGain]
    · simp [CommandHandler.setChannelGain, hi, h.channelGains i]
  · intro i
    rw [Switches.perform_muxRouting]
    exact h.muxRouting i
  · exact h.muxRoutingKnown

/-- After a reset both are in the power-on state. -/
theorem mirrors_reset (s : CommandHandler) (b : Switches) :
    s.resetBoardCache.Mirrors (b.performAll muxInit) := by
  have hgain : GainSetting.gain1.toIndex = gain1.val := by decide
  have hinit : muxInit = [.route 0 none, .route 1 none, .route 2 none, .route 3 none,
      .gain 0 gain1, .gain 1 gain1, .gain 2 gain1, .gain 3 gain1] := by decide
  have hgains : ∀ i, (b.performAll muxInit).ampGains i = gain1 := by
    intro i
    rw [hinit]
    simp only [Switches.performAll_cons, Switches.performAll_nil, Switches.perform_ampGains]
    fin_cases i <;> rfl
  have hrouting : ∀ i, (b.performAll muxInit).muxRouting i = none := by
    intro i
    rw [hinit]
    simp only [Switches.performAll_cons, Switches.performAll_nil, Switches.perform_muxRouting]
    fin_cases i <;> rfl
  refine ⟨fun i => ?_, fun i => ?_, fun _ => rfl⟩
  · rw [hgains i]
    exact hgain
  · rw [hrouting i]
    rfl

/-- **A setting** changes the cache and the firmware alike. -/
theorem Mirrors.follow (h : s.Mirrors b) (c : BoardSetting) :
    (s.follow c).Mirrors (b.performAll (Uart.changesOf c)) := by
  cases c with
  | setMuxRoute output input => exact h.setRouting output (some input)
  | disconnectMux output => exact h.setRouting output none
  | setGain channel gain => exact h.setChannelGain channel gain
  | reset => exact mirrors_reset s b

/-- What the queries show is the state of the firmware. -/
theorem mirrors_queries (s : CommandHandler) (b : Switches) :
    ((s.takeGains fun i => (GainSetting.ofIndex (b.ampGains i), true)).takeRouting
      fun i => (((b.muxRouting i).map Fin.val).getD disconnected, true)).Mirrors b where
  channelGains i := GainSetting.toIndex_ofIndex (Nat.le_of_lt_succ (b.ampGains i).isLt)
  muxRouting _ := rfl
  muxRoutingKnown _ := rfl

/-- A status report leaves the state of the firmware in the cache. -/
theorem refreshFromStatus_statusText (s : CommandHandler) (b : Switches) :
    s.refreshFromStatus (Firmware.statusText b) = .ok { s with
      channelGains := fun i => GainSetting.ofIndex (b.ampGains i)
      muxRouting := fun i => ((b.muxRouting i).map Fin.val).getD disconnected
      muxRoutingKnown := fun _ => true } := by
  unfold refreshFromStatus
  rw [Board.parseGainStatus_statusText, Board.parseRoutingStatus_statusText]
  refine congrArg Except.ok ?_
  simp

theorem mirrors_refreshFromStatus (h : s.refreshFromStatus (Firmware.statusText b) = .ok s') :
    s'.Mirrors b := by
  obtain rfl := Except.ok.inj ((refreshFromStatus_statusText s b).symm.trans h)
  exact
    { channelGains := fun i => GainSetting.toIndex_ofIndex (Nat.le_of_lt_succ (b.ampGains i).isLt)
      muxRouting := fun _ => rfl
      muxRoutingKnown := fun _ => rfl }

end Mirrors

/-! ### Initialization -/

/-- No board is connected. -/
structure Away (b : Switches) (s : CommandHandler) (w : Bench) : Prop where
  rests : w.Rests b
  connected : s.status.boardConnected = false

/-- The hardware runs, and a board that is connected has been opened. -/
structure Opened (b : Switches) (s : CommandHandler) (w : Bench) : Prop where
  rests : w.Rests b
  hardware : s.hardware = true
  board : s.status.boardConnected = true → s.board = true
  wired : s.status.boardConnected = true → w.Wired b

/-- Between two commands: a connected board has been opened, and the cache shows its state. -/
structure InStep (b : Switches) (s : CommandHandler) (w : Bench) : Prop where
  rests : w.Rests b
  initialized : s.status.boardConnected = true → s.status.hardwareInitialized = true
  board : s.status.boardConnected = true → s.board = true
  wired : s.status.boardConnected = true → w.Wired b
  mirrors : s.status.boardConnected = true → s.Mirrors b

section Init

variable {rounds : ℕ} {b : Switches}

theorem Away.of_connected {s s' : CommandHandler} {w w' : Bench} (h : Away b s w)
    (hs : s'.status.boardConnected = s.status.boardConnected) (hw : w'.Rests b) : Away b s' w' :=
  ⟨hw, hs.trans h.connected⟩

theorem Away.inStep {s : CommandHandler} {w : Bench} (h : Away b s w) : InStep b s w :=
  have hnot : s.status.boardConnected ≠ true := h.connected ▸ Bool.false_ne_true
  ⟨h.rests, fun hc => absurd hc hnot, fun hc => absurd hc hnot, fun hc => absurd hc hnot,
    fun hc => absurd hc hnot⟩

theorem InStep.away {s : CommandHandler} {w : Bench} (h : InStep b s w)
    (hinit : s.status.hardwareInitialized ≠ true) : Away b s w :=
  ⟨h.rests, Bool.eq_false_iff.2 fun hc => hinit (h.initialized hc)⟩

/-- A call of the hardware. -/
theorem away_hardwareCall (c : HardwareCall) :
    Triple (bench rounds) (Away b) (hardwareCall c) fun r s w =>
      Away b s w ∧ ∀ a, r = .ok a → s.hardware = true := by
  intro s w h r s' w' hrun
  obtain ⟨rfl, ⟨hh, reply, hstep, rfl⟩ | ⟨rfl, rfl⟩⟩ := hardwareCall_cases hrun
  · have hother : Bench.IsOtherCall (.hardware c) := trivial
    exact ⟨h.of_connected rfl (h.rests.step hother hstep), fun _ _ => hh⟩
  · exact ⟨h, fun a ha => by cases ha⟩

/-- New hardware. -/
theorem away_openHardware :
    Triple (bench rounds) (Away b) openHardware fun r s w =>
      Away b s w ∧ (r = .ok true → s.hardware = true) := by
  have hmake : Triple (bench rounds) (Away b) makeHardware fun _ => Away b := by
    refine Triple.bind (Q := fun _ => Away b) (Triple.call ?_) (fun reply => ?_) fun _ _ _ h => h
    · intro s w h reply w' hstep
      have hother : Bench.IsOtherCall .hardwareFactory := trivial
      exact h.of_connected rfl (h.rests.step hother hstep)
    · refine Triple.bind (Q := fun _ => Away b) ?_ (fun made => ?_) fun _ _ _ h => h
      · cases reply with
        | ok made => exact Triple.pure fun _ _ h => h
        | error what => exact Triple.throw fun _ _ h => h
      · exact Triple.modify fun _ _ h => h.of_connected rfl h.rests
  refine Triple.bind hmake (fun _ => Triple.read fun v => Triple.ite (fun _ => ?_) fun _ => ?_)
    fun e s w h => ⟨h, fun he => by cases he⟩
  · refine Triple.conseq (away_hardwareCall .initializeHardware) (fun _ _ h => h.2) ?_
    exact fun r s w h => ⟨h.1, h.2 true⟩
  · exact Triple.pure fun s w h => ⟨h.2, fun hr => by cases hr⟩

/-- A new board: the factory has set the pointer, or thrown. -/
theorem makeBoard_runs {W : World server} {s s' : CommandHandler} {w w' : W.State}
    {r : Except Fault Unit} (h : Runs W w (makeBoard s) (r, s') w') :
    (∃ made : Bool, W.Step w .boardFactory (.ok made) w' ∧ r = .ok () ∧
      s' = { s with board := made }) ∨
    ∃ what, W.Step w .boardFactory (.error what) w' ∧ r = .error (.thrown what) ∧ s' = s := by
  simp only [makeBoard, Act.bind_apply, Act.call_apply, Prog.bind_call, Prog.bind_done, runs_call]
    at h
  obtain ⟨reply, w₁, hstep, h⟩ := h
  cases reply with
  | ok made =>
      obtain ⟨heq, rfl⟩ := runs_done.1 h
      cases heq
      exact Or.inl ⟨made, hstep, rfl, rfl⟩
  | error what =>
      obtain ⟨heq, rfl⟩ := runs_done.1 h
      cases heq
      exact Or.inr ⟨what, hstep, rfl, rfl⟩

/-- A new board, and whether it could be opened. -/
theorem away_openBoard :
    Triple (bench rounds) (fun s w => Away b s w ∧ s.hardware = true) openBoard fun r s w =>
      Away b s w ∧ s.hardware = true ∧ (r = .ok true → s.board = true ∧ w.Wired b) := by
  have hmake : Triple (bench rounds) (fun s w => Away b s w ∧ s.hardware = true) makeBoard
      fun r s w => Away b s w ∧ s.hardware = true ∧
        (r = .ok () → s.board = true → w.driver = some .fresh) := by
    rintro s w ⟨h, hh⟩ r s' w' hrun
    have hother : Bench.IsOtherCall .boardFactory := trivial
    obtain ⟨made, hstep, rfl, rfl⟩ | ⟨what, hstep, rfl, rfl⟩ := makeBoard_runs hrun
    · refine ⟨h.of_connected rfl (h.rests.step hother hstep), hh, fun _ hmade => ?_⟩
      obtain rfl : made = true := hmade
      obtain ⟨cable, -, rfl⟩ := hstep
      rfl
    · exact ⟨h.of_connected rfl (h.rests.step hother hstep), hh, fun hr => by cases hr⟩
  refine Triple.bind hmake (fun _ => Triple.read fun v => Triple.ite (fun hboard => ?_) fun _ => ?_)
    fun e s w h => ⟨h.1, h.2.1, fun hr => by cases hr⟩
  · rintro s w ⟨rfl, h, hh, hfresh⟩ r s' w' hrun
    obtain ⟨reply, hstep, rfl, rfl⟩ := (boardCall_runs hboard).1 hrun
    obtain ⟨hrests, hwired⟩ := h.rests.initializeBoard (hfresh rfl hboard) hstep
    refine ⟨h.of_connected rfl hrests, hh, fun hr => ⟨hboard, hwired ?_⟩⟩
    cases reply with
    | ok opened => cases hr; rfl
    | error what => cases hr
  · exact Triple.pure fun s w h => ⟨h.2.1, h.2.2.1, fun hr => by cases hr⟩

/-- The board, where the mode asks for one. -/
theorem opened_connectBoard :
    Triple (bench rounds) (fun s w => Away b s w ∧ s.hardware = true) connectBoard fun r s w =>
      (r = .ok () → Opened b s w) ∧ (r ≠ .ok () → Away b s w) := by
  refine Triple.read fun v => Triple.ite (fun _ => ?_) fun _ => ?_
  · refine Triple.modify fun s w h => ⟨fun _ => ?_, fun hr => absurd rfl hr⟩
    exact ⟨h.2.1.rests, h.2.2, fun hc => (by cases hc), fun hc => (by cases hc)⟩
  · refine Triple.bind (Triple.conseq away_openBoard (fun _ _ h => h.2) fun _ _ _ h => h)
      (fun connected => Triple.modify fun s w h => ⟨fun _ => ?_, fun hr => absurd rfl hr⟩)
      fun e s w h => ⟨fun hr => (by cases hr), fun _ => h.1⟩
    obtain ⟨haway, hh, hopen⟩ := h
    refine ⟨haway.rests, hh, fun hc => ?_, fun hc => ?_⟩
    · obtain rfl : connected = true := hc
      exact (hopen rfl).1
    · obtain rfl : connected = true := hc
      exact (hopen rfl).2

/-- The signal chain: the decimation of the hardware is never zero. -/
theorem opened_prepareInit :
    Triple (bench rounds) (fun s w => Away b s w ∧ s.hardware = true) prepareInit fun r s w =>
      (r = .ok () → Opened b s w) ∧ (r ≠ .ok () → Away b s w) := by
  have hread : Triple (bench rounds) (Opened b) (hardwareCall .getDecimation) fun r s w =>
      Opened b s w ∧ ∃ decimation : ℕ, r = .ok decimation ∧ decimation ≠ 0 := by
    rintro s w h r s' w' hrun
    obtain ⟨reply, hstep, rfl, rfl⟩ := (hardwareCall_runs h.hardware).1 hrun
    obtain ⟨rfl, rfl⟩ := hstep
    exact ⟨h, _, rfl, h.rests.decimation⟩
  have hchain : ∀ decimation : ℕ, Triple (bench rounds)
      (fun s w => Opened b s w ∧ ∃ d : ℕ, (.ok decimation : Except Fault ℕ) = .ok d ∧ d ≠ 0)
      (do
        Act.modify fun s => { s with status.currentDecimation := decimation }
        makeSignalGen decimation) fun r s w => r = .ok () ∧ Opened b s w := by
    rintro decimation s w ⟨h, d, hd, hne⟩ r s' w' hrun
    obtain rfl := Except.ok.inj hd
    simp only [makeSignalGen, SignalGenerator.make_eq_ok hne (samplingFrequency_pos hne),
      Act.bind_apply, Act.modify_apply, Prog.bind_done] at hrun
    obtain ⟨heq, rfl⟩ := runs_done.1 hrun
    cases heq
    exact ⟨rfl, h.rests, h.hardware, h.board, h.wired⟩
  refine Triple.bind opened_connectBoard (fun _ => ?_) fun e s w h => ⟨fun hr => (by cases hr), ?_⟩
  · refine Triple.conseq (Triple.bind hread (fun decimation => hchain decimation) ?_)
      (fun s w h => h.1 rfl) fun r s w h => ⟨fun _ => h.2, fun hr => absurd h.1 hr⟩
    rintro e s w ⟨-, d, hd, -⟩
    cases hd
  · exact fun _ => h.2 (by simp)

/-- **Reading the board** succeeds, and leaves its state in the cache. -/
theorem opened_refreshIfConnected :
    Triple (bench rounds) (Opened b) refreshIfConnected fun r s w =>
      r = .ok () ∧ Opened b s w ∧ (s.status.boardConnected = true → s.Mirrors b) := by
  refine Triple.read fun v => Triple.ite (fun hc => ?_) fun hc => ?_
  · rintro s w ⟨rfl, h⟩ r s' w' hrun
    have hboard : v.seedBoardCache.board = true := h.board hc
    simp only [refreshBoardCacheFromBoard, readGains, readRouting, Act.bind_apply,
      Act.modify_apply, Act.get_apply, Prog.bind_done, hboard, if_true, runs_bind] at hrun
    obtain ⟨⟨x, s₁⟩, w₁, ⟨⟨y, s₂⟩, w₂, hgains, hrun₁⟩, hrun₂⟩ := hrun
    obtain ⟨reply, hstep, rfl, rfl⟩ := (boardCall_runs hboard).1 hgains
    obtain ⟨rfl, hwired⟩ := (h.wired hc).queryGains hstep
    obtain ⟨heq, rfl⟩ := runs_done.1 hrun₁
    cases heq
    obtain ⟨⟨z, s₃⟩, w₃, hrouting, hrun₃⟩ := runs_bind.1 hrun₂
    have hboard' : (v.seedBoardCache.takeGains fun i =>
        (GainSetting.ofIndex (b.ampGains i), true)).board = true := hboard
    obtain ⟨reply, hstep', rfl, rfl⟩ := (boardCall_runs hboard').1 hrouting
    obtain ⟨rfl, hwired'⟩ := hwired.queryRouting hstep'
    obtain ⟨heq, rfl⟩ := runs_done.1 hrun₃
    cases heq
    exact ⟨rfl, ⟨hwired'.toRests, h.hardware, h.board, fun _ => hwired'⟩,
      fun _ => mirrors_queries _ b⟩
  · rintro s w ⟨rfl, h⟩ r s' w' hrun
    obtain ⟨heq, rfl⟩ := runs_done.1 hrun
    cases heq
    exact ⟨rfl, h, fun hc' => absurd hc' hc⟩

/-- `SYSTEM:INIT` -/
theorem inStep_handleSystInit :
    Triple (bench rounds) (InStep b) handleSystInit fun _ s w => InStep b s w := by
  refine Triple.read fun v => Triple.ite (fun _ => Triple.pure fun s w h => h.2) fun hinit => ?_
  have hopen : Triple (bench rounds) (fun s w => v = s ∧ InStep b s w) openHardware fun r s w =>
      Away b s w ∧ (r = .ok true → s.hardware = true) := by
    refine Triple.conseq away_openHardware ?_ fun _ _ _ h => h
    rintro s w ⟨rfl, h⟩
    exact h.away hinit
  refine Triple.bind hopen (fun opened => ?_) fun _ _ _ h => h.1.inStep
  cases opened with
  | false =>
      -- the hardware did not open: it is deleted again, and the handler stays away from the board
      have hdelete : Triple (bench rounds) (Away b) deleteHardware fun _ s w => Away b s w := by
        refine Triple.read fun v => Triple.ite (fun _ => ?_) fun _ => Triple.pure fun s w h => h.2
        refine Triple.bind (Q := fun _ s w => Away b s w) (Triple.call ?_)
          (fun _ => Triple.modify fun s w h => h.of_connected rfl h.rests) fun _ _ _ h => h
        intro s w h reply w' hstep
        have hother : Bench.IsOtherCall .deleteHardware := trivial
        exact h.2.of_connected rfl (h.2.rests.step hother hstep)
      exact Triple.bind (Triple.conseq hdelete (fun s w h => h.1) fun _ _ _ h => h)
        (fun _ => Triple.pure fun s w h => h.inStep) fun _ _ _ h => h.inStep
  | true =>
      refine Triple.conseq (Triple.bind opened_prepareInit (fun _ => ?_) fun e s w h => ?_)
        (fun s w h => ⟨h.1, h.2 rfl⟩) fun _ _ _ h => h
      · refine Triple.conseq (Triple.bind opened_refreshIfConnected (fun _ => ?_) fun e s w h => ?_)
          (fun s w h => h.1 rfl) fun _ _ _ h => h
        · rintro s w ⟨-, h, hmirrors⟩ r s' w' hrun
          obtain ⟨heq, rfl⟩ := runs_done.1 hrun
          cases heq
          exact
            { rests := h.rests
              initialized := fun _ => rfl
              board := h.board
              wired := h.wired
              mirrors := fun hc =>
                Mirrors.of_cache (s := s) (hmirrors hc) rfl rfl rfl }
        · cases h.1
      · exact (h.2 (by simp)).inStep

end Init

/-! ### Commands -/

/-- A method after which the cache shows the firmware again, in whatever state that is. -/
abbrev FollowsBoard (rounds : ℕ) (m : Method Reply) : Prop :=
  ∀ b, Triple (bench rounds) (InStep b) m fun _ s w => ∃ b', InStep b' s w

section Commands

variable {rounds : ℕ} {b : Switches}

/-- Methods that only measure leave the board as it is. -/
theorem followsBoard_of_measures {m : Method Reply} (hm : Measures m) : FollowsBoard rounds m := by
  intro b s w h r s' w' hrun
  have hs := hm.moves _ _ _ _ _ _ hrun
  obtain ⟨hdriver, hcable, hdecimation⟩ : w'.driver = w.driver ∧ w'.cable = w.cable ∧
      w'.decimation ≠ 0 := by
    refine hrun.invariant_of_only (W := bench rounds) (P := fun v => v.driver = w.driver ∧
      v.cable = w.cable ∧ v.decimation ≠ 0) (hm.only s) ?_ ⟨rfl, rfl, h.rests.decimation⟩
    rintro v c reply v' hc ⟨hd, hl, hn⟩ hstep
    obtain ⟨hd', hl', hn'⟩ := Bench.measure_step hc hstep
    exact ⟨hd'.trans hd, hl'.trans hl, hn' hn⟩
  have hrests : w'.Rests b := ⟨hdecimation, hcable ▸ h.rests.cable⟩
  refine ⟨b, ?_⟩
  exact
    { rests := hrests
      initialized := fun hc => hs.initialized.trans (h.initialized (hs.connected ▸ hc))
      board := fun hc => hs.board.trans (h.board (hs.connected ▸ hc))
      wired := fun hc => ⟨hrests, hdriver ▸ (h.wired (hs.connected ▸ hc)).driver⟩
      mirrors := fun hc => (h.mirrors (hs.connected ▸ hc)).of_cache hs.channelGains hs.muxRouting
        hs.muxRoutingKnown }

theorem followsBoard_of_quiet {m : Method Reply} (hm : Quiet m) : FollowsBoard rounds m :=
  followsBoard_of_measures (hm.mono (fun _ hc => hc.elim) fun _ _ h => h)

theorem followsBoard_checked {α : Type} {check : CommandHandler → Except Reply α}
    {body : α → Method Reply} (hbody : ∀ b s w a, InStep b s w → check s = .ok a →
      ∀ r s' w', Runs (bench rounds) w (body a s) (r, s') w' → ∃ b', InStep b' s' w') :
    FollowsBoard rounds (checked check body) := by
  intro b s w h r s' w' hrun
  rcases checked_runs.1 hrun with ⟨reply, -, -, rfl, rfl⟩ | ⟨a, ha, hrun⟩
  · exact ⟨b, h⟩
  · exact hbody b s w a h ha r s' w' hrun

/-- **A setting** of a connected board. -/
theorem followsBoard_setting {A : Arithmetic} {α : Type} {check : CommandHandler → Except Reply α}
    {c : α → BoardSetting} {done : α → Method Reply} (hdone : ∀ a, Reports A (done a))
    (hcheck : ∀ s a, check s = .ok a → s.requireBoard = .ok ()) :
    FollowsBoard rounds (checked check fun a => boardCommand (c a) (done a)) := by
  refine followsBoard_checked fun b s w a h ha r s' w' hrun => ?_
  have hconnected := (requireBoard_eq_ok.1 (hcheck s a ha)).2
  have hwired := h.wired hconnected
  cases boardCommand_runs (hdone a) hrun with
  | confirmed hstep =>
      obtain ⟨-, hwired'⟩ := hwired.set hstep
      obtain ⟨-, hboard, hstatus⟩ := follow_fields s (c a)
      refine ⟨_, hwired'.toRests, fun _ => ?_, fun _ => ?_, fun _ => hwired', fun _ => ?_⟩
      · exact (congrArg SystemStatus.hardwareInitialized hstatus).trans (h.initialized hconnected)
      · exact hboard.trans (h.board hconnected)
      · exact ((h.mirrors hconnected).follow (c a)).of_cache rfl rfl rfl
  | failed hne hstep => exact absurd (hwired.set hstep).1 hne
  | explained hne hstep => exact absurd (hwired.set hstep).1 hne
  | noBoard => exact ⟨b, h⟩

/-- **A status report** of a connected board is the text of its state. -/
theorem handleBoardStatus_inStep {s s' : CommandHandler} {w w' : Bench} {r : Except Fault Reply}
    (h : InStep b s w) (hconnected : s.status.boardConnected = true)
    (hrun : Runs (bench rounds) w (handleBoardStatus s) (r, s') w') :
    r = .ok (.text (Firmware.statusText b)) ∧ InStep b s' w' := by
  have hrequire : s.requireBoard = .ok () :=
    requireBoard_eq_ok.2 ⟨h.initialized hconnected, hconnected⟩
  rcases checked_runs.1 hrun with ⟨reply, hcheck, -⟩ | ⟨a, -, hrun⟩
  · rw [hrequire] at hcheck
    cases hcheck
  · obtain ⟨⟨x, s₁⟩, w₁, hget, hrest⟩ := runs_bind.1 hrun
    obtain ⟨reply, hstep, rfl, rfl⟩ := (boardCall_runs (h.board hconnected)).1 hget
    obtain ⟨rfl, hwired⟩ := (h.wired hconnected).getStatus hstep
    obtain ⟨s₂, hparse⟩ : ∃ s₂, s₁.refreshFromStatus (Firmware.statusText b) = .ok s₂ :=
      ⟨_, refreshFromStatus_statusText s₁ b⟩
    simp only [caught, Act.bind_apply, Act.get_apply, Prog.bind_done, hparse] at hrest
    obtain ⟨heq, rfl⟩ := runs_done.1 hrest
    cases heq
    obtain ⟨-, hboard, hstatus⟩ := refreshFromStatus_fields hparse
    have hinit := congrArg SystemStatus.hardwareInitialized hstatus
    exact ⟨rfl, hwired.toRests, fun _ => hinit.trans (h.initialized hconnected),
      fun _ => hboard.trans (h.board hconnected), fun _ => hwired,
      fun _ => mirrors_refreshFromStatus hparse⟩

theorem followsBoard_handleBoardStatus : FollowsBoard rounds handleBoardStatus := by
  intro b s w h r s' w' hrun
  by_cases hconnected : s.status.boardConnected = true
  · exact ⟨b, (handleBoardStatus_inStep h hconnected hrun).2⟩
  · rcases checked_runs.1 hrun with ⟨reply, -, -, rfl, rfl⟩ | ⟨a, ha, -⟩
    · exact ⟨b, h⟩
    · exact absurd (requireBoard_eq_ok.1 ha).2 hconnected

/-- Releasing the devices closes the line. -/
theorem rests_of_only {α : Type} {m : Method α} (hm : Act.Only Bench.IsOtherCall m)
    {s s' : CommandHandler} {w w' : Bench} {r : Except Fault α} (hw : w.Rests b)
    (h : Runs (bench rounds) w (m s) (r, s') w') : w'.Rests b :=
  h.invariant_of_only (W := bench rounds) (P := fun v => v.Rests b) (hm s)
    (fun hc hv hstep => hv.step hc hstep) hw

theorem isOtherCall_of_release {c : ServerCall} (hc : IsReleaseCall c) : Bench.IsOtherCall c := by
  cases c with
  | cleanup | deleteHardware | closeBoard | deleteBoard => trivial
  | _ => exact hc.elim

theorem followsBoard_handleRst : FollowsBoard rounds handleRst := by
  intro b s w h r s' w' hrun
  have honly := only_handleRst.mono fun _ => isOtherCall_of_release
  obtain ⟨-, rfl⟩ := handleRst_runs hrun
  exact ⟨b, Away.inStep ⟨rests_of_only honly h.rests hrun, rfl⟩⟩

theorem followsBoard_handleSystDeinit : FollowsBoard rounds handleSystDeinit := by
  intro b s w h r s' w' hrun
  have honly := only_handleSystDeinit.mono fun _ => isOtherCall_of_release
  have hrests := rests_of_only honly h.rests hrun
  have hs' := handleSystDeinit_runs hrun
  by_cases hinit : s.status.hardwareInitialized = true
  · rw [if_pos hinit] at hs'
    subst hs'
    exact ⟨b, Away.inStep ⟨hrests, rfl⟩⟩
  · rw [if_neg hinit] at hs'
    subst hs'
    exact ⟨b, Away.inStep ⟨hrests, (h.away hinit).connected⟩⟩

variable {P : Platform}

/-- **After any command** the cache shows the firmware. -/
theorem followsBoard_dispatch (cmd : ParsedCommand) : FollowsBoard rounds (dispatch P cmd) := by
  unfold dispatch
  cases hc : cmd.command with
  | idn => exact followsBoard_of_quiet (quiet_pure _)
  | rst => exact followsBoard_handleRst
  | opc => exact followsBoard_of_quiet (quiet_pure _)
  | systPing => exact followsBoard_of_quiet (quiet_pure _)
  | systVersion => exact followsBoard_of_quiet (quiet_pure _)
  | systStatus => exact followsBoard_of_quiet quiet_handleSystStatus
  | systInit =>
      exact fun b => Triple.conseq inStep_handleSystInit (fun _ _ h => h) fun _ _ _ h => ⟨b, h⟩
  | systDeinit => exact followsBoard_handleSystDeinit
  | systMode => exact followsBoard_of_quiet quiet_get
  | systShutdown => exact followsBoard_of_quiet (quiet_pure _)
  | boardMuxRoute =>
      exact followsBoard_setting (fun _ => reports_okWithWarning)
        fun _ _ ha => requireBoard_of_muxRouteArgs ha
  | boardMuxDisconnect =>
      exact followsBoard_setting (fun _ => reports_okWithWarning)
        fun _ _ ha => requireBoard_of_muxDisconnectArgs ha
  | boardGain =>
      exact followsBoard_setting (fun _ => reports_okWithSuffix _)
        fun _ _ ha => requireBoard_of_gainArgs ha
  | boardAdcLoop => exact followsBoard_of_quiet (quiet_handleBoardAdcLoop cmd)
  | boardAdcProtect => exact followsBoard_of_quiet (quiet_handleBoardAdcProtect cmd)
  | boardAdcSampleGain => exact followsBoard_of_quiet (quiet_handleBoardAdcSampleGain cmd)
  | boardReset => exact followsBoard_setting (fun _ => reports_okWithSuffix _) fun _ _ ha => ha
  | boardStatus => exact followsBoard_handleBoardStatus
  | measSinc =>
      refine followsBoard_checked fun b s w a h _ r s' w' hrun => ?_
      exact followsBoard_of_measures (measures_measureSinc P a) b s w h r s' w' hrun
  | measSweep =>
      refine followsBoard_checked fun b s w a h _ r s' w' hrun => ?_
      exact followsBoard_of_measures (measures_measureSweep P a) b s w h r s' w' hrun
  | unknown => exact followsBoard_of_quiet (quiet_pure _)

theorem followsBoard_handleCommand (cmd : ParsedCommand) :
    FollowsBoard rounds (handleCommand P cmd) := by
  unfold handleCommand
  exact fun b => Triple.ite (fun _ => followsBoard_of_quiet (quiet_pure _) b)
    fun _ => followsBoard_dispatch cmd b

end Commands

/-! ### Runs -/

/-- The handler and its devices between two commands: at first no driver is there, and the firmware
waits for a command in any state; then come any commands, with any arguments. -/
inductive Operated (P : Platform) (rounds : ℕ) : CommandHandler → Bench → Prop
  | start (measurementTimeoutMs : ℤ) (mode : OperatingMode) (cable : Uart.Cable) (b : Switches)
      (h : cable.Idle b) : Operated P rounds (make measurementTimeoutMs mode) { cable := cable }
  | command {s s' : CommandHandler} {w w' : Bench} (cmd : ParsedCommand) {r : Except Fault Reply} :
      Operated P rounds s w → Runs (bench rounds) w (handleCommand P cmd s) (r, s') w' →
      Operated P rounds s' w'

section Runs

variable {P : Platform} {rounds : ℕ} {s s' : CommandHandler} {w w' : Bench}

/-- Every state between two commands is in step with the board. -/
theorem Operated.inStep (h : Operated P rounds s w) : ∃ b, InStep b s w := by
  induction h with
  | start measurementTimeoutMs mode cable b hidle =>
      exact ⟨b, Away.inStep ⟨⟨Nat.succ_ne_zero 63, hidle⟩, rfl⟩⟩
  | command cmd _ hrun ih =>
      obtain ⟨b, hstep⟩ := ih
      exact followsBoard_handleCommand cmd b _ _ hstep _ _ _ hrun

/-- What is refused without a board is refused with an error. -/
theorem requireBoard_ne_text {text : Text} : s.requireBoard ≠ .error (.text text) := by
  unfold requireBoard checkInitialized require boardUnavailableError
  by_cases hinit : s.status.hardwareInitialized = true
  · by_cases hconnected : s.status.boardConnected = true
    · simp [hinit, hconnected, bind, Except.bind]
    · by_cases hmode : s.status.mode = .rpOnly <;>
        simp [hinit, hconnected, hmode, errorReply, bind, Except.bind]
  · simp [hinit, errorReply, bind, Except.bind]

/-- **The cache refines the firmware.**  While the board is connected the cached gains and routing
are those of the firmware, and the text of `BOARD:STATUS?` reads as that state. -/
theorem cache_refines_firmware (h : Operated P rounds s w) :
    (s.status.boardConnected = true → s.Mirrors w.cable.board.switches) ∧
      ∀ (cmd : ParsedCommand) (r : Except Fault Reply) (s' : CommandHandler) (w' : Bench),
        cmd.command = .boardStatus → Runs (bench rounds) w (handleCommand P cmd s) (r, s') w' →
        (s.status.boardConnected = true → cmd.args = [] → ∃ text, r = .ok (.text text)) ∧
          ∀ text, r = .ok (.text text) → Py.BoardStatus.fromResponse text =
            Py.BoardStatus.ofSwitches w'.cable.board.switches := by
  obtain ⟨b, hstep⟩ := h.inStep
  have hswitches : w.cable.board.switches = b := by rw [hstep.rests.cable.board]
  refine ⟨fun hconnected => hswitches ▸ hstep.mirrors hconnected, ?_⟩
  intro cmd r s' w' hcmd hrun
  -- an argument too many is refused before the board is asked
  have hmax : maxArgCount .boardStatus = 0 := by decide
  by_cases hargs : cmd.args = []
  · have hhandle : handleCommand P cmd s = handleBoardStatus s := by
      simp [handleCommand, dispatch, hcmd, hargs]
    rw [hhandle] at hrun
    by_cases hconnected : s.status.boardConnected = true
    · obtain ⟨rfl, hstep'⟩ := handleBoardStatus_inStep hstep hconnected hrun
      refine ⟨fun _ _ => ⟨_, rfl⟩, ?_⟩
      rintro text heq
      cases heq
      rw [Py.BoardStatus.fromResponse_statusText, hstep'.rests.cable.board]
    · refine ⟨fun hc => absurd hc hconnected, ?_⟩
      rintro text rfl
      rcases checked_runs.1 hrun with ⟨reply, hcheck, heq, -⟩ | ⟨a, ha, -⟩
      · cases heq
        exact absurd hcheck requireBoard_ne_text
      · exact absurd (requireBoard_eq_ok.1 ha).2 hconnected
  · refine ⟨fun _ hnil => absurd hnil hargs, ?_⟩
    rintro text rfl
    have hmany : handleCommand P cmd s = .done (.ok (tooManyArgs cmd), s) := by
      have hpos : 0 < cmd.args.length := List.length_pos_iff.2 hargs
      unfold handleCommand
      rw [if_pos ⟨by simp [hcmd], by rw [hcmd, hmax]; exact hpos⟩]
      rfl
    rw [hmany] at hrun
    obtain ⟨heq, -⟩ := runs_done.1 hrun
    cases heq

end Runs

/-! ### Devices that work -/

end CommandHandler

/-- A line that delivers at once, with a clock that stands still. -/
def Uart.Cable.serve (w : Uart.Cable) : (c : Uart.Call) → Option (Uart.device.Reply c × Uart.Cable)
  | .openPort => some (.ok (), w)
  | .getAttr => some (.ok (), w)
  | .setAttr _ => some (.ok (), w)
  | .flush => some ((), { w with wire := [] })
  | .close => some ((), { w with wire := [] })
  | .write data =>
      match w.board.run (fun _ => .fresh) data with
      | .ok (board, outcomes) =>
          some (.ok (), { board := board, wire := w.wire ++ outcomes.flatMap Firmware.Outcome.sent,
                          clock := w.clock, written := w.clock })
      | .error _ => none
  | .now =>
      if w.clock + 2 * Board.nsPerMs ≤ w.written + Uart.replyTime then some (w.clock, w) else none
  | .poll _ => some (.ready, w)
  | .read count => some (.data (w.wire.take count), { w with wire := w.wire.drop count })

theorem Uart.Cable.serve_step {w w' : Uart.Cable} {c : Uart.Call} {r : Uart.device.Reply c}
    (h : w.serve c = some (r, w')) : Uart.CableStep w c r w' := by
  cases c with
  | openPort | getAttr | setAttr _ | poll _ => cases h; constructor <;> simp
  | flush => cases h; exact .flush w w.wire [] (List.append_nil _).symm
  | close => cases h; exact .close w w.wire [] (List.append_nil _).symm
  | write data =>
      simp only [serve] at h
      split at h
      · rename_i board outcomes hrun
        cases h
        exact .write w data _ board outcomes w.clock hrun le_rfl
      · cases h
  | now =>
      simp only [serve] at h
      split at h
      · rename_i htime
        cases h
        exact .now w w.clock le_rfl htime
      · cases h
  | read count =>
      cases h
      exact .read w count _ _ (List.length_take_le ..) (List.take_append_drop ..).symm

/-- The driver and the hardware on such a line. -/
def Bench.serve (rounds : ℕ) (w : Bench) : (c : ServerCall) → Option (server.Reply c × Bench)
  | .hardwareFactory => some (.ok true, { w with decimation := 64 })
  | .hardware .initializeHardware => some (.ok true, w)
  | .hardware .getDecimation => some (.ok w.decimation, w)
  | .boardFactory =>
      if w.driver.isNone then some (.ok true, { w with driver := some .fresh }) else none
  | .board c => w.driver.bind fun u =>
      match (Uart.boardMethod rounds c u).attempt Uart.Cable.serve w.cable with
      | some ((.ok (.ok value), u'), cable) =>
          some (.ok value, { w with driver := some u', cable := cable })
      | _ => none
  | _ => none

theorem Bench.serve_step {rounds : ℕ} {w w' : Bench} {c : ServerCall} {r : server.Reply c}
    (h : w.serve rounds c = some (r, w')) : Bench.Step rounds w c r w' := by
  cases c with
  | hardwareFactory => cases h; rfl
  | hardware c =>
      cases c with
      | initializeHardware => cases h; rfl
      | getDecimation => cases h; exact ⟨rfl, rfl⟩
      | _ => cases h
  | boardFactory =>
      simp only [serve] at h
      split at h
      · rename_i hnone
        cases h
        refine ⟨w.cable, ?_, rfl⟩
        unfold Deleted
        rw [Option.isNone_iff_eq_none.1 hnone]
      · cases h
  | board c =>
      obtain ⟨u, hu, h⟩ := Option.bind_eq_some_iff.1 h
      split at h
      · rename_i value u' cable hrun
        cases h
        exact ⟨u, .ok value, u', cable, hu, Prog.attempt_runs (W := Uart.cable)
          (fun _ _ _ _ => Uart.Cable.serve_step) hrun, rfl, rfl⟩
      · cases h
  | _ => cases h

namespace CommandHandler

/-- The handler after commands on these devices. -/
def served (cmds : List ParsedCommand) (s : CommandHandler) (w : Bench) :
    Option (CommandHandler × Bench) :=
  match cmds with
  | [] => some (s, w)
  | cmd :: cmds =>
      match (handleCommand (flat .ieee) cmd s).attempt (Bench.serve 32) w with
      | some ((_, s'), w') => served cmds s' w'
      | none => none

theorem Operated.served {cmds : List ParsedCommand} {s s' : CommandHandler} {w w' : Bench}
    (h : Operated (flat .ieee) 32 s w) (hrun : CommandHandler.served cmds s w = some (s', w')) :
    Operated (flat .ieee) 32 s' w' := by
  induction cmds generalizing s w with
  | nil =>
      cases hrun
      exact h
  | cons cmd cmds ih =>
      unfold CommandHandler.served at hrun
      split at hrun
      · rename_i r s₁ w₁ hcmd
        exact ih (.command cmd h (Prog.attempt_runs (W := bench 32)
          (fun _ _ _ _ => Bench.serve_step) hcmd)) hrun
      · cases hrun

/-- The firmware at power-on, waiting for its first command. -/
def poweredOn : Uart.Cable :=
  { board := ⟨Firmware.cmdInit, ⟨fun _ => none, fun _ => Firmware.gain1, fun _ => false⟩⟩ }

/-- After an initialization, a gain and a route. -/
theorem cache_refines_firmware_served : ∃ s w, Operated (flat .ieee) 32 s w ∧
    s.channelGains 0 = .gain4 ∧ s.muxRouting 1 = 2 ∧ s.Mirrors w.cable.board.switches := by
  have hstart : Operated (flat .ieee) 32 (make 5000 .full) { cable := poweredOn } :=
    .start 5000 .full poweredOn _ ⟨rfl, List.nil_suffix⟩
  have hsome : (CommandHandler.served [{ command := .systInit },
      { command := .boardGain, args := ["1".toList, "5".toList] },
      { command := .boardMuxRoute, args := ["2".toList, "3".toList] }]
      (make 5000 .full) { cable := poweredOn }).any (fun p => p.1.status.boardConnected &&
        (p.1.channelGains 0 == .gain4 && p.1.muxRouting 1 == 2)) = true := by decide +kernel
  obtain ⟨⟨s, w⟩, hserved, hs⟩ := (Option.any_eq_true ..).1 hsome
  simp only [Bool.and_eq_true, beq_iff_eq] at hs
  obtain ⟨hconnected, hgain, hroute⟩ := hs
  have hoperated := hstart.served hserved
  exact ⟨s, w, hoperated, hgain, hroute, (cache_refines_firmware hoperated).1 hconnected⟩

end CommandHandler

end Afm
