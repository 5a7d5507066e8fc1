/-
**Multiplexers and amplifiers of the board.**

The state that `ElectronicBoard/src/mux_control.cpp` keeps, the pins it drives, and its functions.
Everywhere in that file a new value is stored and the hardware of that channel is set at once, one
pin after the other; such a pair is a *change*, and a function is the list of changes it makes.

Main definitions:

* `Afm.Firmware.Switches` — stored routing and gains, and the levels of the pins;
* `Afm.Firmware.Change` — a value stored and applied, pin by pin;
* `Afm.Firmware.muxInit`, `Afm.Firmware.muxSetRoute`, `Afm.Firmware.ampSetGain` and the others — the
  functions of the file.

Main results:

* `Afm.Firmware.Switches.perform_muxRouting`, `Afm.Firmware.Switches.perform_ampGains` — what a
  change stores;
* `Afm.Firmware.Consistent.performAll`, `Afm.Firmware.consistent_muxInit` — after changes, and after
  the start, the pins of every channel stand for its stored value.
-/

import RedPitayaAfm.Text

set_option relaxedAutoImplicit false
set_option autoImplicit false

namespace Afm

namespace Firmware

/-! ### Pins -/

/-- A pin of a port. -/
structure Pin where
  port : ℕ
  pin : ℕ
  deriving DecidableEq

/-- A multiplexer or an amplifier. -/
inductive Target
  | mux (output : Fin 4)
  | amp (channel : Fin 4)
  deriving DecidableEq, Fintype

/-- `muxPins` -/
structure MuxPins where
  a0 : Pin
  a1 : Pin
  en : Pin

/-- `ampPins` -/
structure AmpPins where
  a0 : Pin
  a1 : Pin
  a2 : Pin

/-- `muxPins` -/
def muxPins : Fin 4 → MuxPins
  | 0 => { a0 := ⟨0, 3⟩, a1 := ⟨0, 6⟩, en := ⟨3, 1⟩ }
  | 1 => { a0 := ⟨0, 7⟩, a1 := ⟨0, 8⟩, en := ⟨3, 2⟩ }
  | 2 => { a0 := ⟨0, 9⟩, a1 := ⟨2, 3⟩, en := ⟨3, 3⟩ }
  | 3 => { a0 := ⟨0, 11⟩, a1 := ⟨1, 0⟩, en := ⟨3, 4⟩ }

/-- `ampPins` -/
def ampPins : Fin 4 → AmpPins
  | 0 => { a0 := ⟨1, 1⟩, a1 := ⟨1, 2⟩, a2 := ⟨2, 11⟩ }
  | 1 => { a0 := ⟨1, 4⟩, a1 := ⟨1, 5⟩, a2 := ⟨2, 1⟩ }
  | 2 => { a0 := ⟨2, 2⟩, a1 := ⟨1, 8⟩, a2 := ⟨1, 9⟩ }
  | 3 => { a0 := ⟨1, 10⟩, a1 := ⟨1, 11⟩, a2 := ⟨2, 4⟩ }

/-- The pins of a channel. -/
def Target.pins : Target → List Pin
  | .mux o => [(muxPins o).a0, (muxPins o).a1, (muxPins o).en]
  | .amp c => [(ampPins c).a0, (ampPins c).a1, (ampPins c).a2]

/-- The three pins of a channel are different pins. -/
theorem Target.nodup_pins (t : Target) : t.pins.Nodup := by
  revert t
  decide

/-- No two channels share a pin. -/
theorem Target.disjoint_pins {t u : Target} (h : t ≠ u) {p : Pin} (hp : p ∈ t.pins) :
    p ∉ u.pins := by
  revert t u p
  decide

/-! ### State -/

/-- `MUX_DISCONNECTED`, as the byte the functions take. -/
def muxDisconnected : ℕ := 0xFF

instance neZero_gains : NeZero 8 := ⟨by decide⟩

/-- `GAIN_1` -/
def gain1 : Fin 8 := 3

/-- The stored values, and the levels of the pins.  An output that is disconnected has no input. -/
structure Switches where
  /-- `muxRouting` -/
  muxRouting : Fin 4 → Option (Fin 4)
  /-- `ampGains` -/
  ampGains : Fin 4 → Fin 8
  /-- The level of each pin. -/
  pins : Pin → Bool

namespace Switches

/-- `SetPin` -/
def setPin (s : Switches) (w : Pin × Bool) : Switches :=
  { s with pins := Function.update s.pins w.1 w.2 }

/-- Several pins, one after the other. -/
def setPins (s : Switches) (ws : List (Pin × Bool)) : Switches := ws.foldl setPin s

@[simp] theorem setPins_nil (s : Switches) : s.setPins [] = s := rfl

@[simp] theorem setPins_cons (s : Switches) (w : Pin × Bool) (ws : List (Pin × Bool)) :
    s.setPins (w :: ws) = (s.setPin w).setPins ws := rfl

@[simp] theorem setPins_muxRouting (s : Switches) (ws : List (Pin × Bool)) :
    (s.setPins ws).muxRouting = s.muxRouting := by
  induction ws generalizing s with
  | nil => rfl
  | cons w ws ih => exact ih (s.setPin w)

@[simp] theorem setPins_ampGains (s : Switches) (ws : List (Pin × Bool)) :
    (s.setPins ws).ampGains = s.ampGains := by
  induction ws generalizing s with
  | nil => rfl
  | cons w ws ih => exact ih (s.setPin w)

/-- A pin that is not written keeps its level. -/
theorem setPins_pins_of_not_mem {ws : List (Pin × Bool)} {p : Pin} (h : ∀ w ∈ ws, w.1 ≠ p)
    (s : Switches) : (s.setPins ws).pins p = s.pins p := by
  induction ws generalizing s with
  | nil => rfl
  | cons w ws ih =>
      rw [setPins_cons, ih fun v hv => h v (List.mem_cons_of_mem _ hv)]
      exact Function.update_of_ne (h w (List.mem_cons_self ..)).symm _ _

end Switches

/-! ### Changes -/

/-- A new value for a channel. -/
inductive Change
  | route (output : Fin 4) (input : Option (Fin 4))
  | gain (channel : Fin 4) (value : Fin 8)
  deriving DecidableEq

namespace Change

/-- The channel that changes. -/
def target : Change → Target
  | .route output _ => .mux output
  | .gain channel _ => .amp channel

/-- The new value is stored. -/
def store (s : Switches) : Change → Switches
  | .route output input => { s with muxRouting := Function.update s.muxRouting output input }
  | .gain channel value => { s with ampGains := Function.update s.ampGains channel value }

end Change

/-- `MUX_ApplyHardware`: the pins it sets, in order. -/
def muxApplyHardware (s : Switches) (muxIndex : Fin 4) : List (Pin × Bool) :=
  let pins := muxPins muxIndex
  match s.muxRouting muxIndex with
  | none => [(pins.en, false), (pins.a0, false), (pins.a1, false)]
  | some input =>
      [(pins.a0, input.val.testBit 0), (pins.a1, input.val.testBit 1), (pins.en, true)]

/-- `AMP_ApplyHardware`: the pins it sets, in order. -/
def ampApplyHardware (s : Switches) (ampIndex : Fin 4) : List (Pin × Bool) :=
  let pins := ampPins ampIndex
  let gain := s.ampGains ampIndex
  [(pins.a0, gain.val.testBit 0), (pins.a1, gain.val.testBit 1), (pins.a2, gain.val.testBit 2)]

/-- The pins a channel has set when its stored value is applied. -/
def applyHardware (s : Switches) : Target → List (Pin × Bool)
  | .mux output => muxApplyHardware s output
  | .amp channel => ampApplyHardware s channel

/-- Only pins of the channel are set. -/
theorem applyHardware_pins (s : Switches) (t : Target) {w : Pin × Bool} (h : w ∈ applyHardware s t) :
    w.1 ∈ t.pins := by
  cases t with
  | mux output =>
      unfold applyHardware muxApplyHardware at h
      cases hroute : s.muxRouting output <;> simp only [hroute] at h <;>
        (simp only [List.mem_cons, List.not_mem_nil, or_false] at h
         rcases h with rfl | rfl | rfl <;> simp [Target.pins])
  | amp channel =>
      unfold applyHardware ampApplyHardware at h
      simp only [List.mem_cons, List.not_mem_nil, or_false] at h
      rcases h with rfl | rfl | rfl <;> simp [Target.pins]

namespace Switches

/-- A value stored and applied. -/
def perform (s : Switches) (c : Change) : Switches :=
  (c.store s).setPins (applyHardware (c.store s) c.target)

/-- Several changes, one after the other. -/
def performAll (s : Switches) (cs : List Change) : Switches := cs.foldl perform s

@[simp] theorem performAll_nil (s : Switches) : s.performAll [] = s := rfl

@[simp] theorem performAll_cons (s : Switches) (c : Change) (cs : List Change) :
    s.performAll (c :: cs) = (s.perform c).performAll cs := rfl

theorem performAll_append (s : Switches) (cs ds : List Change) :
    s.performAll (cs ++ ds) = (s.performAll cs).performAll ds := List.foldl_append

theorem perform_muxRouting (s : Switches) (c : Change) :
    (s.perform c).muxRouting =
      match c with
      | .route output input => Function.update s.muxRouting output input
      | .gain _ _ => s.muxRouting := by
  rw [perform, setPins_muxRouting]
  cases c <;> rfl

theorem perform_ampGains (s : Switches) (c : Change) :
    (s.perform c).ampGains =
      match c with
      | .route _ _ => s.ampGains
      | .gain channel value => Function.update s.ampGains channel value := by
  rw [perform, setPins_ampGains]
  cases c <;> rfl

end Switches

/-! ### The functions of the file -/

/-- `MUX_Disconnect` -/
def muxDisconnect (output : ℕ) : List Change :=
  if h : output < 4 then [.route ⟨output, h⟩ none] else []

/-- `MUX_DisconnectAll` -/
def muxDisconnectAll : List Change := (List.finRange 4).map fun i => .route i none

/-- `MUX_Init`: everything disconnected, then all gains one. -/
def muxInit : List Change :=
  muxDisconnectAll ++ (List.finRange 4).map fun i => .gain i gain1

/-- `MUX_SetRoute`: no changes when it returns false. -/
def muxSetRoute (output input : ℕ) : Option (List Change) :=
  if h : output < 4 then
    if input = muxDisconnected then some (muxDisconnect output)
    else if h' : input < 4 then some [.route ⟨output, h⟩ (some ⟨input, h'⟩)]
    else none
  else none

/-- `AMP_SetGain`: no changes when it returns false. -/
def ampSetGain (channel gain : ℕ) : Option (List Change) :=
  if h : channel < 4 then
    if h' : gain < 8 then some [.gain ⟨channel, h⟩ ⟨gain, h'⟩] else none
  else none

/-- `AMP_GainToString` -/
def ampGainToString : Fin 8 → Text
  | 0 => "1/8".toList
  | 1 => "1/4".toList
  | 2 => "1/2".toList
  | 3 => "1".toList
  | 4 => "2".toList
  | 5 => "4".toList
  | 6 => "8".toList
  | 7 => "16".toList

/-- `UART_SendNewLine` -/
def newLine : Text := "\r\n".toList

/-- `MUX_PrintStatus` -/
def muxPrintStatus (s : Switches) : Text :=
  "\r\n=== MUX Status ===\r\n".toList ++ "Routing:\r\n".toList
    ++ ((List.finRange 4).flatMap fun i =>
      "  OUT".toList ++ toText (i.val + 1) ++ " <- ".toList
        ++ (match s.muxRouting i with
          | none => "X (disconnected)".toList
          | some input => "IN".toList ++ toText (input.val + 1))
        ++ newLine)
    ++ "Gains:\r\n".toList
    ++ ((List.finRange 4).flatMap fun i =>
      "  IN".toList ++ toText (i.val + 1) ++ ": x".toList ++ ampGainToString (s.ampGains i) ++ newLine)
    ++ "==================\r\n".toList

/-! ### Stored values and pins -/

/-- The levels of the pins of a channel that stand for its stored value. -/
def levels (s : Switches) : Target → List Bool
  | .mux output =>
      match s.muxRouting output with
      | none => [false, false, false]
      | some input => [input.val.testBit 0, input.val.testBit 1, true]
  | .amp channel =>
      let gain := s.ampGains channel
      [gain.val.testBit 0, gain.val.testBit 1, gain.val.testBit 2]

/-- The pins of a channel stand for its stored value. -/
def Encodes (s : Switches) (t : Target) : Prop := t.pins.map s.pins = levels s t

/-- The pins of every channel stand for its stored value. -/
def Consistent (s : Switches) : Prop := ∀ t, Encodes s t

/-- Applying the stored value of a channel puts its pins on it. -/
theorem encodes_applyHardware (s : Switches) (t : Target) :
    Encodes (s.setPins (applyHardware s t)) t := by
  have hnodup := t.nodup_pins
  unfold Encodes
  cases t with
  | mux output =>
      simp only [Target.pins, List.nodup_cons, List.mem_cons, List.not_mem_nil, or_false, not_or]
        at hnodup
      obtain ⟨⟨h01, h0e⟩, h1e, -⟩ := hnodup
      cases hroute : s.muxRouting output with
      | none =>
          simp only [applyHardware, muxApplyHardware, levels, Switches.setPins_muxRouting, hroute]
          simp [Target.pins, Switches.setPin, h01, Ne.symm h0e, Ne.symm h1e]
      | some input =>
          simp only [applyHardware, muxApplyHardware, levels, Switches.setPins_muxRouting, hroute]
          simp [Target.pins, Switches.setPin, h01, h0e, h1e]
  | amp channel =>
      simp only [Target.pins, List.nodup_cons, List.mem_cons, List.not_mem_nil, or_false, not_or]
        at hnodup
      obtain ⟨⟨h01, h02⟩, h12, -⟩ := hnodup
      simp only [applyHardware, ampApplyHardware, levels, Switches.setPins_ampGains]
      simp [Target.pins, Switches.setPin, h01, h02, h12]

namespace Change

theorem levels_store (s : Switches) (c : Change) {t : Target} (h : t ≠ c.target) :
    levels (c.store s) t = levels s t := by
  cases c with
  | route output input =>
      cases t with
      | mux o =>
          have hne : o ≠ output := fun heq => h (congrArg Target.mux heq)
          simp only [levels, store, Function.update_of_ne hne]
      | amp channel => rfl
  | gain channel value =>
      cases t with
      | mux o => rfl
      | amp ch =>
          have hne : ch ≠ channel := fun heq => h (congrArg Target.amp heq)
          simp only [levels, store, Function.update_of_ne hne]

theorem levels_setPins (s : Switches) (ws : List (Pin × Bool)) (t : Target) :
    levels (s.setPins ws) t = levels s t := by
  cases t with
  | mux output => simp only [levels, Switches.setPins_muxRouting]
  | amp channel => simp only [levels, Switches.setPins_ampGains]

/-- While a change is applied, the other channels stay on their values. -/
theorem encodes_other {s : Switches} {c : Change} {t : Target} (ht : t ≠ c.target)
    {ws : List (Pin × Bool)} (hws : ∀ w ∈ ws, w.1 ∈ c.target.pins) (h : Encodes s t) :
    Encodes ((c.store s).setPins ws) t := by
  unfold Encodes
  rw [levels_setPins, levels_store s c ht, ← h]
  refine List.map_congr_left fun p hp => ?_
  rw [Switches.setPins_pins_of_not_mem]
  · cases c <;> rfl
  · rintro w hw rfl
    exact Target.disjoint_pins ht hp (hws w hw)

/-- After a change its channel is on its stored value, and so is every channel that was. -/
theorem encodes_perform {s : Switches} {c : Change} {t : Target}
    (h : t ≠ c.target → Encodes s t) : Encodes (s.perform c) t := by
  by_cases ht : t = c.target
  · subst ht
    exact encodes_applyHardware (c.store s) c.target
  · exact encodes_other ht (fun w hw => applyHardware_pins _ _ hw) (h ht)

theorem encodes_performAll (cs : List Change) {s : Switches} {t : Target}
    (h : t ∉ cs.map target → Encodes s t) : Encodes (s.performAll cs) t := by
  induction cs generalizing s with
  | nil => exact h List.not_mem_nil
  | cons c cs ih =>
      refine ih fun hcs => encodes_perform fun hc => h ?_
      rw [List.map_cons, List.mem_cons, not_or]
      exact ⟨hc, hcs⟩

end Change

theorem Consistent.performAll {s : Switches} (h : Consistent s) (cs : List Change) :
    Consistent (s.performAll cs) := fun t => Change.encodes_performAll cs fun _ => h t

/-- `MUX_Init` puts every channel on its stored value, whatever the pins were. -/
theorem consistent_muxInit (s : Switches) : Consistent (s.performAll muxInit) := by
  intro t
  refine Change.encodes_performAll muxInit fun hmem => absurd ?_ hmem
  revert t
  decide

end Firmware

end Afm
