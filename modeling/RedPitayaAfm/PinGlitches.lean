/-
**Switching, pin by pin.**

A change sets three pins one after the other, and between two of them the channel can stand on a
value that is neither the old nor the new one.  A multiplexer that is switched between two inputs
stays enabled and can select a third; an amplifier can pass through a higher gain than both.  This
module says for which changes that happens.  The other channels never move.

Main definitions:

* `Afm.Firmware.Change.instants` — the states between the pins of a change;
* `Afm.Firmware.Change.GlitchFree`, `Afm.Firmware.Change.Smooth` — no wrong value at any instant, and
  the changes for which that holds;
* `Afm.Firmware.Call` — the functions of the switches that a command calls.

Main results:

* `Afm.Firmware.Change.glitchFree_iff` — the condition for one change;
* `Afm.Firmware.calls_glitchFree_iff` — the condition for every run after the start.
-/

import RedPitayaAfm.InputSafety
import RedPitayaAfm.MuxControl

set_option relaxedAutoImplicit false
set_option autoImplicit false

namespace Afm

namespace Firmware

/-! ### What the pins stand for -/

/-- The input selected by two address pins and the enable pin. -/
def selection (a0 a1 en : Bool) : Option (Fin 4) :=
  if en then
    match a1, a0 with
    | false, false => some 0
    | false, true => some 1
    | true, false => some 2
    | true, true => some 3
  else none

/-- The input a multiplexer selects; none when it is disabled. -/
def selected (s : Switches) (output : Fin 4) : Option (Fin 4) :=
  selection (s.pins (muxPins output).a0) (s.pins (muxPins output).a1) (s.pins (muxPins output).en)

/-- The gain code of three pins. -/
def code (a0 a1 a2 : Bool) : ℕ := a0.toNat + 2 * a1.toNat + 4 * a2.toNat

/-- The gain code on the pins of an amplifier. -/
def gainCode (s : Switches) (channel : Fin 4) : ℕ :=
  code (s.pins (ampPins channel).a0) (s.pins (ampPins channel).a1) (s.pins (ampPins channel).a2)

namespace Change

/-! ### One change -/

/-- The states between the pins of a change: some of them are set. -/
def instants (s : Switches) (c : Change) : List Switches :=
  (applyHardware (c.store s) c.target).inits.map (c.store s).setPins

/-- The channel that changes stands on a value between the old and the new one: the multiplexer is
disabled or selects its old or its new input; the gain is not above both gains. -/
def SafeAt (before now : Switches) : Change → Prop
  | .route output input =>
      selected now output = none ∨ selected now output = before.muxRouting output ∨
        selected now output = input
  | .gain channel value => gainCode now channel ≤ max (before.ampGains channel) value

instance (before now : Switches) (c : Change) : Decidable (SafeAt before now c) :=
  match c with
  | .route _ _ => inferInstanceAs (Decidable (_ ∨ _ ∨ _))
  | .gain _ _ => inferInstanceAs (Decidable (_ ≤ _))

/-- No channel is on a wrong value at any instant of a change, nor after it. -/
structure GlitchFree (s : Switches) (c : Change) : Prop where
  others : ∀ now ∈ c.instants s, ∀ t, t ≠ c.target → Encodes now t
  changing : ∀ now ∈ c.instants s, SafeAt s now c
  after : Consistent (s.perform c)

/-- A connected output is not switched between inputs whose codes differ in both bits, and a gain is
not lowered to a code that sets a lower bit first. -/
def Smooth (s : Switches) : Change → Prop
  | .route output input => ∀ i j, s.muxRouting output = some i → input = some j → i.val + j.val ≠ 3
  | .gain channel value =>
      let old := (s.ampGains channel).val
      old ≤ value.val ∨ value.val % 2 ≤ old % 2 ∧ value.val % 4 ≤ old % 4

theorem forall_instants {s : Switches} {c : Change} {w₁ w₂ w₃ : Pin × Bool}
    (h : applyHardware (c.store s) c.target = [w₁, w₂, w₃]) (P : Switches → Prop) :
    (∀ now ∈ c.instants s, P now) ↔
      P (c.store s) ∧ P ((c.store s).setPin w₁) ∧ P (((c.store s).setPin w₁).setPin w₂) ∧
        P ((((c.store s).setPin w₁).setPin w₂).setPin w₃) := by
  simp [instants, h]

theorem selection_testBit (i : Fin 4) :
    selection (i.val.testBit 0) (i.val.testBit 1) true = some i := by
  revert i
  decide

/-- Between the two address pins a third input is selected when the codes differ in both bits. -/
theorem selection_between (i j : Fin 4) :
    (selection (j.val.testBit 0) (i.val.testBit 1) true = none ∨
        selection (j.val.testBit 0) (i.val.testBit 1) true = some i ∨
        selection (j.val.testBit 0) (i.val.testBit 1) true = some j) ↔ i.val + j.val ≠ 3 := by
  revert i j
  decide

theorem code_testBit (g : Fin 8) :
    code (g.val.testBit 0) (g.val.testBit 1) (g.val.testBit 2) = g.val := by
  revert g
  decide

/-- Between the pins of a gain the code is above both gains when a lower bit is set first. -/
theorem code_between (old value : Fin 8) :
    (code (value.val.testBit 0) (old.val.testBit 1) (old.val.testBit 2) ≤ max old value ∧
        code (value.val.testBit 0) (value.val.testBit 1) (old.val.testBit 2) ≤ max old value) ↔
      old.val ≤ value.val ∨ value.val % 2 ≤ old.val % 2 ∧ value.val % 4 ≤ old.val % 4 := by
  revert old value
  decide

/-- The pins of a multiplexer on its stored value. -/
theorem pins_mux {s : Switches} (hs : Consistent s) (output : Fin 4) :
    [s.pins (muxPins output).a0, s.pins (muxPins output).a1, s.pins (muxPins output).en]
      = levels s (.mux output) := hs (.mux output)

/-- The pins of an amplifier on its stored value. -/
theorem pins_amp {s : Switches} (hs : Consistent s) (channel : Fin 4) :
    [s.pins (ampPins channel).a0, s.pins (ampPins channel).a1, s.pins (ampPins channel).a2]
      = levels s (.amp channel) := hs (.amp channel)

theorem selected_of_consistent {s : Switches} (hs : Consistent s) (output : Fin 4) :
    selected s output = s.muxRouting output := by
  have hpins := pins_mux hs output
  unfold levels at hpins
  cases hroute : s.muxRouting output with
  | none =>
      simp only [hroute, List.cons.injEq, and_true] at hpins
      rw [selected, hpins.1, hpins.2.1, hpins.2.2]
      rfl
  | some i =>
      simp only [hroute, List.cons.injEq, and_true] at hpins
      rw [selected, hpins.1, hpins.2.1, hpins.2.2, selection_testBit]

theorem changing_route_iff {s : Switches} (hs : Consistent s) (output : Fin 4)
    (input : Option (Fin 4)) :
    (∀ now ∈ (route output input).instants s, SafeAt s now (.route output input))
      ↔ Smooth s (.route output input) := by
  have hnodup := (Target.mux output).nodup_pins
  simp only [Target.pins, List.nodup_cons, List.mem_cons, List.not_mem_nil, or_false, not_or]
    at hnodup
  obtain ⟨⟨h01, h0e⟩, h1e, -⟩ := hnodup
  have hstored : ((route output input).store s).muxRouting output = input :=
    Function.update_self ..
  have hselected : selected ((route output input).store s) output = s.muxRouting output :=
    selected_of_consistent hs output
  cases input with
  | none =>
      -- The enable pin goes low first.
      have hwrites : applyHardware ((route output none).store s) (route output none).target =
          [((muxPins output).en, false), ((muxPins output).a0, false), ((muxPins output).a1, false)] := by
        simp only [target, applyHardware, muxApplyHardware, hstored]
      rw [forall_instants hwrites]
      constructor
      · rintro - i j - hj
        cases hj
      · intro _
        refine ⟨.inr (.inl hselected), .inl ?_, .inl ?_, .inl ?_⟩
        · simp [selected, Switches.setPin, selection]
        · simp [selected, Switches.setPin, Ne.symm h0e, selection]
        · simp [selected, Switches.setPin, Ne.symm h0e, Ne.symm h1e, selection]
  | some j =>
      -- The enable pin goes high last; between two inputs it is high all the time.
      have hwrites : applyHardware ((route output (some j)).store s) (route output (some j)).target =
          [((muxPins output).a0, j.val.testBit 0), ((muxPins output).a1, j.val.testBit 1),
            ((muxPins output).en, true)] := by
        simp only [target, applyHardware, muxApplyHardware, hstored]
      have hpinsStore : ((route output (some j)).store s).pins = s.pins := rfl
      have hpins := pins_mux hs output
      unfold levels at hpins
      rw [forall_instants hwrites]
      simp only [SafeAt, hselected]
      simp only [selected, Switches.setPin, hpinsStore, Function.update_self, ne_eq,
        Function.update_of_ne, h01, Ne.symm h01, Ne.symm h0e, Ne.symm h1e, h0e, h1e,
        not_false_eq_true, selection_testBit]
      cases hroute : s.muxRouting output with
      | none =>
          simp only [hroute, List.cons.injEq, and_true] at hpins
          rw [hpins.2.2]
          simp [selection, Smooth, hroute]
      | some i =>
          simp only [hroute, List.cons.injEq, and_true] at hpins
          rw [hpins.2.1, hpins.2.2, selection_between, selection_testBit]
          simp [Smooth, hroute]

theorem changing_gain_iff {s : Switches} (hs : Consistent s) (channel : Fin 4) (value : Fin 8) :
    (∀ now ∈ (gain channel value).instants s, SafeAt s now (.gain channel value))
      ↔ Smooth s (.gain channel value) := by
  have hnodup := (Target.amp channel).nodup_pins
  simp only [Target.pins, List.nodup_cons, List.mem_cons, List.not_mem_nil, or_false, not_or]
    at hnodup
  obtain ⟨⟨h01, h02⟩, h12, -⟩ := hnodup
  have hstored : ((gain channel value).store s).ampGains channel = value := Function.update_self ..
  have hwrites : applyHardware ((gain channel value).store s) (gain channel value).target =
      [((ampPins channel).a0, value.val.testBit 0), ((ampPins channel).a1, value.val.testBit 1),
        ((ampPins channel).a2, value.val.testBit 2)] := by
    simp only [target, applyHardware, ampApplyHardware, hstored]
  have hpinsStore : ((gain channel value).store s).pins = s.pins := rfl
  have hpins := pins_amp hs channel
  simp only [levels, List.cons.injEq, and_true] at hpins
  obtain ⟨h0, h1, h2⟩ := hpins
  -- the three select pins are written one by one: two codes between old and new
  rw [forall_instants hwrites]
  simp only [SafeAt, gainCode, Switches.setPin, hpinsStore, Function.update_self, ne_eq,
    Function.update_of_ne, h01, Ne.symm h01, h02, Ne.symm h02, h12, Ne.symm h12,
    not_false_eq_true, h0, h1, h2, code_testBit]
  have hold : (s.ampGains channel).val ≤ max (s.ampGains channel) value := le_max_left _ _
  have hvalue : value.val ≤ max (s.ampGains channel) value := le_max_right _ _
  constructor
  · rintro ⟨-, hfirst, hsecond, -⟩
    exact (code_between _ _).1 ⟨hfirst, hsecond⟩
  · intro h
    obtain ⟨hfirst, hsecond⟩ := (code_between _ _).2 h
    exact ⟨hold, hfirst, hsecond, hvalue⟩

/-- **One change.**  It is free of glitches exactly when it is smooth. -/
theorem glitchFree_iff {s : Switches} (hs : Consistent s) (c : Change) :
    c.GlitchFree s ↔ c.Smooth s := by
  have hchanging : (∀ now ∈ c.instants s, SafeAt s now c) ↔ c.Smooth s := by
    cases c with
    | route output input => exact changing_route_iff hs output input
    | gain channel value => exact changing_gain_iff hs channel value
  refine ⟨fun h => hchanging.1 h.changing, fun h => ⟨?_, hchanging.2 h, hs.performAll [c]⟩⟩
  intro now hnow t ht
  obtain ⟨ws, hws, rfl⟩ := List.mem_map.1 hnow
  refine encodes_other ht (fun w hw => ?_) (hs t)
  exact applyHardware_pins _ _ (((List.mem_inits _ _).1 hws).subset hw)

end Change

/-! ### Runs -/

/-- Every change is free of glitches. -/
def AllGlitchFree : Switches → List Change → Prop
  | _, [] => True
  | s, c :: cs => c.GlitchFree s ∧ AllGlitchFree (s.perform c) cs

/-- Every change is smooth. -/
def AllSmooth : Switches → List Change → Prop
  | _, [] => True
  | s, c :: cs => c.Smooth s ∧ AllSmooth (s.perform c) cs

theorem allGlitchFree_iff {s : Switches} (hs : Consistent s) (cs : List Change) :
    AllGlitchFree s cs ↔ AllSmooth s cs := by
  induction cs generalizing s with
  | nil => exact Iff.rfl
  | cons c cs ih => exact and_congr (Change.glitchFree_iff hs c) (ih (hs.performAll [c]))

/-- A call of a function of `mux_control`, with any arguments. -/
inductive Call
  | muxInit
  | muxSetRoute (output input : ℕ)
  | muxDisconnect (output : ℕ)
  | muxDisconnectAll
  | ampSetGain (channel gain : ℕ)
  deriving DecidableEq

/-- The changes a call makes. -/
def Call.changes : Call → List Change
  | .muxInit => Firmware.muxInit
  | .muxSetRoute output input => (Firmware.muxSetRoute output input).getD []
  | .muxDisconnect output => Firmware.muxDisconnect output
  | .muxDisconnectAll => Firmware.muxDisconnectAll
  | .ampSetGain channel gain => (Firmware.ampSetGain channel gain).getD []

/-- **Every run.**  After the start, whatever the pins were before it, a run of calls is free of
glitches exactly when every change it makes is smooth. -/
theorem calls_glitchFree_iff (s : Switches) (calls : List Call) :
    AllGlitchFree (s.performAll muxInit) (calls.flatMap Call.changes)
      ↔ AllSmooth (s.performAll muxInit) (calls.flatMap Call.changes) :=
  allGlitchFree_iff (consistent_muxInit s) _

/-- The board before the start: no value stored, all pins low. -/
def powerOn : Switches := ⟨fun _ => none, fun _ => 0, fun _ => false⟩

/-- A reset at gain x2 passes through gain x16: the two low bits of the code of x1 are set before the
high bit of the code of x2 goes down.  An output switched from IN1 to IN4 passes through IN2. -/
theorem reset_overshoots :
    ¬AllGlitchFree (powerOn.performAll muxInit)
        ([.ampSetGain 0 4, .muxInit].flatMap Call.changes) ∧
      ¬AllGlitchFree (powerOn.performAll muxInit)
        ([.muxSetRoute 0 0, .muxSetRoute 0 3].flatMap Call.changes) := by
  constructor
  · rintro ⟨-, -, -, -, -, ⟨-, hchanging, -⟩, -⟩
    have hsecond := ((Change.forall_instants rfl _).1 hchanging).2.2.1
    exact absurd hsecond (by decide)
  · rintro ⟨-, ⟨-, hchanging, -⟩, -⟩
    have hfirst := ((Change.forall_instants rfl _).1 hchanging).2.1
    exact absurd hfirst (by decide)

end Firmware

end Afm
