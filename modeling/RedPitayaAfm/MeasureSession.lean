/-
**Measurements over whole sessions.**

The command handler on the driver of the FPGA, and the driver on the FPGA itself: between any two
accesses the FPGA runs on for any number of cycles.  A measurement may time out, be cancelled, fail
at any call or be left by an exception, and the controller goes on with it after `START` is lowered.
Still no later measurement takes its end for its own.

Main definitions:

* `Afm.HardwareEvent`, `Afm.Instrument`, `Afm.instrument` — the driver and the FPGA as an
  environment of the handler, with a record of the calls of a command;
* `Afm.MeasuredBy` — a record that was read from a given measurement;
* `Afm.CommandHandler.MeasureSession` — any commands, one after the other.

Main results:

* `Afm.Instrument.Resting.step` — what the calls outside a measurement keep;
* `Afm.CommandHandler.triple_acquire` — what is read is what was measured;
* `Afm.CommandHandler.no_stale_spectrum` — **no spectrum is computed from stale data**.
-/

import RedPitayaAfm.RedPitayaHardware
import RedPitayaAfm.HandlerRuns

set_option relaxedAutoImplicit false
set_option autoImplicit false

namespace Afm

open Effect Fpga Clocked

/-! ### The environment of the handler -/

/-- A call of a method of the driver, what it returned, and when it began and ended. -/
structure HardwareEvent where
  call : HardwareCall
  result : call.Result
  start : ℕ
  stop : ℕ

/-- The driver, where there is one, the time, and the calls of the current command. -/
structure Instrument where
  device : Option RedPitayaHardware := none
  time : ℕ
  calls : List HardwareEvent := []

namespace Instrument

/-- Time passes, and the processor makes no access. -/
def Waits (inp : ℕ → Input) (w w' : Instrument) : Prop :=
  ∃ t, w.time ≤ t ∧ Silent inp w.time t ∧ w' = { w with time := t }

/-- The destructor of the driver, where there is one, cleans up until cycle `t`. -/
def Deleted (x : ℕ → System) (inp : ℕ → Input) (w : Instrument) (t : ℕ) : Prop :=
  match w.device with
  | none => t = w.time
  | some h => ∃ h', Runs (systemBus x inp) w.time (RedPitayaHardware.cleanup h) (.ok (), h') t

/-- What the instrument may do.  The methods of the hardware are those of the driver, run on the
FPGA; an exception may come before a method or after it.  All other calls take some time. -/
def Step (x : ℕ → System) (inp : ℕ → Input) (w : Instrument) :
    (c : ServerCall) → server.Reply c → Instrument → Prop
  | .hardwareFactory, .ok made, w' => ∃ t, w.Deleted x inp t ∧
      w' = { w with device := if made then some {} else none, time := t }
  | .hardware c, reply, w' =>
      (w.Waits inp w' ∧ ∃ what, reply = .error what) ∨
        ∃ h a h' t, w.device = some h ∧
          Runs (systemBus x inp) w.time (RedPitayaHardware.method c h) (.ok a, h') t ∧
          w' = { device := some h', time := t, calls := w.calls ++ [⟨c, a, w.time, t⟩] } ∧
          (reply = .ok a ∨ ∃ what, reply = .error what)
  | .resetMeasurement, done, w' =>
      (w.device = none ∧ w.Waits inp w') ∨ ∃ h h' t, w.device = some h ∧
        Runs (systemBus x inp) w.time (RedPitayaHardware.resetMeasurement h) (.ok done, h') t ∧
        w' = { w with device := some h', time := t }
  | .cleanup, _, w' =>
      (w.device = none ∧ w.Waits inp w') ∨ ∃ h h' t, w.device = some h ∧
        Runs (systemBus x inp) w.time (RedPitayaHardware.cleanup h) (.ok (), h') t ∧
        w' = { w with device := some h', time := t }
  | .deleteHardware, _, w' => ∃ t, w.Deleted x inp t ∧ w' = { w with device := none, time := t }
  | _, _, w' => w.Waits inp w'

end Instrument

/-- The driver and the FPGA as an environment of the handler. -/
abbrev instrument (x : ℕ → System) (inp : ℕ → Input) : World server :=
  ⟨Instrument, Instrument.Step x inp⟩

/-! ### Records that were measured -/

/-- The record read in cycle `read` is that of measurement `m`, which the latest start among the
calls before has started, in cycle `c`, and which has been found complete. -/
structure MeasuredBy (x : ℕ → System) (before : List HardwareEvent) (read : ℕ) {size : ℕ}
    (record : Fin size → ℚ) (m : Settings) (c : ℕ) : Prop where
  latest : ∃ earlier polls delaySamples a b a' b',
    before = earlier ++ ⟨.startMeasurement size delaySamples, true, a, b⟩ :: polls
      ++ [⟨.isMeasurementComplete, true, a', b'⟩] ∧
    (∀ e ∈ polls, e.call = .isMeasurementComplete) ∧ a ≤ c ∧ c < b
  numSamples : m.numSamples = size
  /-- The measurement has run, and acquired exactly its words. -/
  run : ExactRun m (fun n => x (c + n)) 2
  ended : c + 2 + m.lastCycle < read
  finished : (x read).ctrl.fsm.state = .finished
  words : ∀ k : Fin size,
    record k = DacCodec.adcToVoltage ((m.word x c k).setWidth 32) m.decimation

/-- Every record among the calls was measured. -/
def Fresh (x : ℕ → System) (calls : List HardwareEvent) : Prop :=
  ∀ before later size record a b,
    calls = before ++ ⟨.getAcquiredSignal size, some record, a, b⟩ :: later →
      ∃ m c, MeasuredBy x before a record m c

section Fresh

variable {x : ℕ → System} {calls : List HardwareEvent}

theorem fresh_nil : Fresh x [] := by
  intro before later size record a b h
  simp at h

/-- One more call. -/
theorem Fresh.append (h : Fresh x calls) {e : HardwareEvent}
    (he : ∀ size record a b, e = ⟨.getAcquiredSignal size, some record, a, b⟩ →
      ∃ m c, MeasuredBy x calls a record m c) : Fresh x (calls ++ [e]) := by
  intro before later size record a b heq
  rcases List.eq_nil_or_concat later with rfl | ⟨later, last, rfl⟩
  · obtain ⟨rfl, hlast⟩ := List.append_inj' heq rfl
    exact he size record a b (List.cons.inj hlast).1
  · have heq' : calls ++ [e]
        = (before ++ ⟨.getAcquiredSignal size, some record, a, b⟩ :: later) ++ [last] := by
      rw [heq]
      simp
    obtain ⟨hcalls, -⟩ := List.append_inj' heq' rfl
    exact h before later size record a b hcalls

/-- A call that reads nothing. -/
theorem Fresh.append_other (h : Fresh x calls) {c : HardwareCall} {result : c.Result}
    {start stop : ℕ} (hc : ∀ size, c ≠ .getAcquiredSignal size) :
    Fresh x (calls ++ [⟨c, result, start, stop⟩]) := by
  refine h.append fun size record a b heq => ?_
  exact absurd (congrArg HardwareEvent.call heq) (hc size)

end Fresh

/-! ### Outside a measurement -/

namespace Instrument

variable {x : ℕ → System} {inp : ℕ → Input} {w w' : Instrument} {t₀ : ℕ}

/-- `START` has been low since cycle `t₀`, and every record of the command was measured. -/
structure Resting (x : ℕ → System) (t₀ : ℕ) (w : Instrument) : Prop extends Low x t₀ w.time where
  known : ∀ h, w.device = some h → h.isMapped = true → h.decimation = (x w.time).reg.decimation
  fresh : Fresh x w.calls

theorem Resting.off (hw : Resting x t₀ w) {h : RedPitayaHardware} (hd : w.device = some h) :
    RedPitayaHardware.Off x t₀ h w.time :=
  ⟨hw.toLow, hw.known h hd⟩

/-- Only the present counts for what comes next. -/
theorem Resting.now (hw : Resting x t₀ w) : Resting x w.time w :=
  ⟨hw.toCalm.low hw.toLow.now, hw.known, hw.fresh⟩

theorem Resting.waits (hx : Follows System.tick x inp) (hw : Resting x t₀ w)
    (h : w.Waits inp w') : Resting x t₀ w' := by
  obtain ⟨t, hle, hsilent, rfl⟩ := h
  refine ⟨hsilent.low hx hle hw.toLow, fun h hd hm => ?_, hw.fresh⟩
  exact (hw.known h hd hm).trans (hsilent.settings hx hle le_rfl).decimation.symm

/-- A method has left `START` low. -/
theorem Resting.of_off {h' : RedPitayaHardware} {t : ℕ} (hoff : RedPitayaHardware.Off x t₀ h' t)
    {calls : List HardwareEvent} (hfresh : Fresh x calls) :
    Resting x t₀ { device := some h', time := t, calls := calls } := by
  refine ⟨hoff.toLow, fun h hd hm => ?_, hfresh⟩
  obtain rfl : h' = h := Option.some.inj hd
  exact hoff.known hm

/-- A destructor leaves `START` low. -/
theorem Resting.deleted (hx : Follows System.tick x inp) (hw : Resting x t₀ w) {t : ℕ}
    (h : w.Deleted x inp t) : Low x t₀ t := by
  unfold Deleted at h
  cases hd : w.device with
  | none =>
      rw [hd] at h
      exact h ▸ hw.toLow
  | some device =>
      rw [hd] at h
      obtain ⟨h', hrun⟩ := h
      exact (RedPitayaHardware.cleanup_off hx device w.time hw.toLow _ h' t hrun).toLow

/-- Calls that neither start a measurement nor read one. -/
def NoMeasure : ServerCall → Prop
  | .hardware (.startMeasurement _ _) => False
  | .hardware (.getAcquiredSignal _) => False
  | _ => True

/-- **What the calls outside a measurement keep.** -/
theorem Resting.step (hx : Follows System.tick x inp) {c : ServerCall} {reply : server.Reply c}
    (hc : NoMeasure c) (hw : Resting x t₀ w) (h : Step x inp w c reply w') : Resting x t₀ w' := by
  cases c with
  | hardwareFactory =>
      cases reply with
      | ok made =>
          obtain ⟨t, hdeleted, rfl⟩ := h
          refine ⟨hw.deleted hx hdeleted, fun h hd hm => ?_, hw.fresh⟩
          -- a new driver has mapped nothing
          cases made with
          | true =>
              obtain rfl : {} = h := Option.some.inj hd
              cases hm
          | false => cases hd
      | error what => exact hw.waits hx h
  | hardware c =>
      obtain ⟨hwaits, -⟩ | ⟨h, a, h', t, hd, hrun, rfl, -⟩ := h
      · exact hw.waits hx hwaits
      have hstart : ∀ numSamples delaySamples, c ≠ .startMeasurement numSamples delaySamples := by
        rintro numSamples delaySamples rfl
        exact hc
      have hread : ∀ size, c ≠ .getAcquiredSignal size := by
        rintro size rfl
        exact hc
      have hoff := RedPitayaHardware.keepsOff_method hx hstart h w.time (hw.off hd) _ h' t hrun
      exact .of_off hoff (hw.fresh.append_other hread)
  | resetMeasurement =>
      obtain ⟨-, hwaits⟩ | ⟨h, h', t, hd, hrun, rfl⟩ := h
      · exact hw.waits hx hwaits
      have hkeeps : RedPitayaHardware.KeepsOff x inp t₀ RedPitayaHardware.resetMeasurement :=
        RedPitayaHardware.keepsOff_of_reads hx RedPitayaHardware.resetMeasurement_reads
      exact .of_off (hkeeps h w.time (hw.off hd) _ h' t hrun) hw.fresh
  | cleanup =>
      obtain ⟨-, hwaits⟩ | ⟨h, h', t, hd, hrun, rfl⟩ := h
      · exact hw.waits hx hwaits
      exact .of_off (RedPitayaHardware.cleanup_off hx h w.time hw.toLow _ h' t hrun) hw.fresh
  | deleteHardware =>
      obtain ⟨t, hdeleted, rfl⟩ := h
      exact ⟨hw.deleted hx hdeleted, fun h hd => (by cases hd), hw.fresh⟩
  | boardFactory | board _ | closeBoard | deleteBoard | cancelCheck | now | sleep _ | planFft _ =>
      exact hw.waits hx h

end Instrument

/-! ### A measurement -/

namespace CommandHandler

variable {x : ℕ → System} {inp : ℕ → Input} {P : Platform} {numSamples : ℕ}

/-- Between measurements `START` is low. -/
def Idle (x : ℕ → System) (_ : CommandHandler) (w : Instrument) : Prop :=
  Instrument.Resting x w.time w

/-- In the scope of a measurement: if `START` is high, there is a driver that can lower it. -/
structure InScope (x : ℕ → System) (s : CommandHandler) (w : Instrument) : Prop where
  calm : Calm x w.time
  device : ∀ h, w.device = some h → RedPitayaHardware.Scoped x h w.time
  armed : (x w.time).reg.startMeasure = true → s.hardware = true ∧ w.device.isSome = true
  fresh : Fresh x w.calls

theorem Idle.inScope {s : CommandHandler} {w : Instrument} (hw : Idle x s w) : InScope x s w where
  calm := hw.toCalm
  device _ hd := (hw.off hd).scoped
  armed hstart := by rw [hw.toLow.now] at hstart; cases hstart
  fresh := hw.fresh

theorem InScope.of_scoped {s : CommandHandler} {h : RedPitayaHardware} {t : ℕ}
    {calls : List HardwareEvent} (hs : s.hardware = true) (hh : RedPitayaHardware.Scoped x h t)
    (hfresh : Fresh x calls) : InScope x s { device := some h, time := t, calls := calls } where
  calm := hh.toCalm
  device h' hd := by
    obtain rfl : h = h' := Option.some.inj hd
    exact hh
  armed _ := ⟨hs, rfl⟩
  fresh := hfresh

theorem InScope.waits (hx : Follows System.tick x inp) {s : CommandHandler} {w w' : Instrument}
    (hw : InScope x s w) (h : w.Waits inp w') : InScope x s w' := by
  obtain ⟨t, hle, hsilent, rfl⟩ := h
  have hset := hsilent.settings hx hle le_rfl
  exact ⟨hsilent.calm hx hle hw.calm, fun h hd => (hw.device h hd).silent hx hle hsilent,
    fun hstart => hw.armed (hset.startMeasure ▸ hstart), hw.fresh⟩

/-- A measurement was started, and the handler has only asked for its end since. -/
structure Waiting (x : ℕ → System) (inp : ℕ → Input) (numSamples : ℕ) (s : CommandHandler)
    (w : Instrument) : Prop where
  hardware : s.hardware = true
  fresh : Fresh x w.calls
  running : ∃ h m c earlier polls a b, w.device = some h ∧
    RedPitayaHardware.Running x inp numSamples acquisitionDelaySamples a m c h w.time ∧
    w.calls = earlier ++
      ⟨.startMeasurement numSamples acquisitionDelaySamples, true, a, b⟩ :: polls ∧
    (∀ e ∈ polls, e.call = .isMeasurementComplete) ∧ c < b

/-- The measurement was found complete. -/
structure Complete (x : ℕ → System) (numSamples : ℕ) (s : CommandHandler) (w : Instrument) :
    Prop where
  hardware : s.hardware = true
  fresh : Fresh x w.calls
  finished : ∃ h m c earlier polls a b a' b', w.device = some h ∧
    RedPitayaHardware.Finished x numSamples acquisitionDelaySamples a m c h w.time ∧
    w.calls = earlier ++ ⟨.startMeasurement numSamples acquisitionDelaySamples, true, a, b⟩ :: polls
      ++ [⟨.isMeasurementComplete, true, a', b'⟩] ∧
    (∀ e ∈ polls, e.call = .isMeasurementComplete) ∧ c < b

theorem Waiting.inScope (hx : Follows System.tick x inp) {s : CommandHandler} {w : Instrument}
    (hw : Waiting x inp numSamples s w) : InScope x s w := by
  obtain ⟨h, m, c, earlier, polls, a, b, hd, hrun, -⟩ := hw.running
  obtain ⟨device, time, calls⟩ := w
  obtain rfl : device = some h := hd
  exact .of_scoped hw.hardware (hrun.scoped hx) hw.fresh

theorem Complete.inScope {s : CommandHandler} {w : Instrument} (hw : Complete x numSamples s w) :
    InScope x s w := by
  obtain ⟨h, m, c, earlier, polls, a, b, a', b', hd, hfin, -⟩ := hw.finished
  obtain ⟨device, time, calls⟩ := w
  obtain rfl : device = some h := hd
  exact .of_scoped hw.hardware hfin.scoped hw.fresh

theorem Waiting.waits (hx : Follows System.tick x inp) {s : CommandHandler} {w w' : Instrument}
    (hw : Waiting x inp numSamples s w) (h : w.Waits inp w') : Waiting x inp numSamples s w' := by
  obtain ⟨t, hle, hsilent, rfl⟩ := h
  obtain ⟨h, m, c, earlier, polls, a, b, hd, hrun, hcalls⟩ := hw.running
  exact ⟨hw.hardware, hw.fresh, h, m, c, earlier, polls, a, b, hd, hrun.silent hx hle hsilent,
    hcalls⟩

/-- A call of the hardware, with nothing to be called behind a null pointer. -/
theorem triple_hardwareCall {W : World server} {B : CommandHandler → W.State → Prop}
    {c : HardwareCall} {Q : Except Fault c.Result → CommandHandler → W.State → Prop}
    (hnull : ∀ s w, B s w → Q (.error .nullPointer) s w)
    (hstep : ∀ s w reply w', B s w → s.hardware = true → W.Step w (.hardware c) reply w' →
      Q (caught reply) s w') : Triple W B (hardwareCall c) Q := by
  intro s w hs r s' w' hrun
  obtain ⟨rfl, ⟨hh, reply, h, rfl⟩ | ⟨rfl, rfl⟩⟩ := hardwareCall_cases hrun
  · exact hstep s' w reply w' hs hh h
  · exact hnull s' w' hs

/-- Starting a measurement. -/
theorem triple_start (hx : Follows System.tick x inp) (hpos : 0 < numSamples) :
    Triple (instrument x inp) (Idle x)
      (hardwareCall (.startMeasurement numSamples acquisitionDelaySamples)) fun r s w =>
        InScope x s w ∧ (r = .ok true → Waiting x inp numSamples s w) := by
  refine triple_hardwareCall (fun s w hw => ⟨hw.inScope, fun h => by cases h⟩) ?_
  intro s w reply w' hw hs hstep
  obtain ⟨hwaits, what, rfl⟩ | ⟨h, done, h', t, hd, hrun, rfl, hreply⟩ := hstep
  · exact ⟨hw.inScope.waits hx hwaits, fun h => by cases h⟩
  have houtcome :=
    RedPitayaHardware.startMeasurement_starts hx hpos h w.time (hw.off hd) _ h' t hrun
  have hfresh : Fresh x (w.calls ++
      [⟨.startMeasurement numSamples acquisitionDelaySamples, done, w.time, t⟩]) :=
    hw.fresh.append_other fun size h => by cases h
  obtain ⟨hdone, hoff⟩ | ⟨hdone, m, c, hrunning⟩ := houtcome
  · cases hdone
    refine ⟨.of_scoped hs hoff.scoped hfresh, fun h => ?_⟩
    obtain rfl | ⟨what, rfl⟩ := hreply <;> cases h
  · cases hdone
    exact ⟨.of_scoped hs (hrunning.scoped hx) hfresh, fun _ =>
      ⟨hs, hfresh, h', m, c, w.calls, [], w.time, t, rfl, hrunning, rfl, by simp,
        hrunning.started.lt⟩⟩

/-- What asking for the end leaves. -/
def WaitOutcome (x : ℕ → System) (inp : ℕ → Input) (numSamples : ℕ) (r : Except Fault Bool)
    (s : CommandHandler) (w : Instrument) : Prop :=
  InScope x s w ∧ (r = .ok true → Complete x numSamples s w) ∧
    (r = .ok false → Waiting x inp numSamples s w)

/-- Asking for the end of a measurement. -/
theorem triple_poll (hx : Follows System.tick x inp) (hrest : ∀ v, Rested (x v)) :
    Triple (instrument x inp) (Waiting x inp numSamples) (hardwareCall .isMeasurementComplete)
      (WaitOutcome x inp numSamples) := by
  refine triple_hardwareCall
    (fun s w hw => ⟨hw.inScope hx, fun h => (by cases h), fun h => (by cases h)⟩) ?_
  intro s w reply w' hw hs hstep
  obtain ⟨hwaits, what, rfl⟩ | ⟨h, complete, h', t, hd, hrun, rfl, hreply⟩ := hstep
  · exact ⟨(hw.inScope hx).waits hx hwaits, fun h => (by cases h), fun h => (by cases h)⟩
  obtain ⟨h₀, m, c, earlier, polls, a, b, hd₀, hrunning, hcalls, hpolls, hcb⟩ := hw.running
  obtain rfl : h₀ = h := Option.some.inj (hd₀.symm.trans hd)
  have houtcome :=
    RedPitayaHardware.isMeasurementComplete_acquired hx hrest h₀ w.time hrunning _ h' t hrun
  have hfresh : Fresh x (w.calls ++ [⟨.isMeasurementComplete, complete, w.time, t⟩]) :=
    hw.fresh.append_other fun size h => by cases h
  obtain ⟨hcomplete, hrunning'⟩ | ⟨hcomplete, hfin⟩ := houtcome
  · cases hcomplete
    refine ⟨.of_scoped hs (hrunning'.scoped hx) hfresh, fun h => ?_, fun _ => ?_⟩
    · obtain rfl | ⟨what, rfl⟩ := hreply <;> cases h
    · refine ⟨hs, hfresh, h', m, c, earlier,
        polls ++ [⟨.isMeasurementComplete, false, w.time, t⟩], a, b, rfl, hrunning', ?_, ?_, hcb⟩
      · show w.calls ++ _ = _
        rw [hcalls]
        simp
      · intro e he
        rcases List.mem_append.1 he with he | he
        · exact hpolls e he
        · rw [List.mem_singleton.1 he]
  · cases hcomplete
    refine ⟨.of_scoped hs hfin.scoped hfresh, fun _ => ?_, fun h => ?_⟩
    · refine ⟨hs, hfresh, h', m, c, earlier, polls, a, b, w.time, t, rfl, hfin, ?_, hpolls, hcb⟩
      show w.calls ++ _ = _
      rw [hcalls]
    · obtain rfl | ⟨what, rfl⟩ := hreply <;> cases h

/-- While the handler waits time passes. -/
theorem keeps_waiting (hx : Follows System.tick x inp) {c : ServerCall}
    (hc : ∀ {w : Instrument} {r w'}, Instrument.Step x inp w c r w' → w.Waits inp w') :
    Keeps (instrument x inp) (Waiting x inp numSamples)
      (Act.call (I := server) c : Method (server.Reply c)) :=
  Keeps.call fun _ _ _ _ hw hstep => hw.waits hx (hc hstep)

theorem triple_waitLoop (hx : Follows System.tick x inp) (hrest : ∀ v, Rested (x v))
    (start timeoutMs : ℤ) (rounds : ℕ) :
    Triple (instrument x inp) (Waiting x inp numSamples) (waitLoop start timeoutMs rounds)
      fun r s w => InScope x s w ∧ (r = .ok true → Complete x numSamples s w) := by
  induction rounds with
  | zero => exact Triple.throw fun s w hw => ⟨hw.inScope hx, fun h => by cases h⟩
  | succ rounds ih =>
      refine Triple.bind (triple_poll hx hrest) (fun complete => ?_)
        fun e s w hw => ⟨hw.1, fun h => by cases h⟩
      refine Triple.ite (fun hcomplete => ?_) fun hcomplete => ?_
      · rw [hcomplete]
        exact Triple.pure fun s w hw => ⟨hw.1, fun _ => hw.2.1 rfl⟩
      refine Triple.conseq (P := Waiting x inp numSamples) ?_ ?_ fun _ _ _ h => h
      · refine Triple.bind (keeps_waiting hx fun h => h) (fun time => ?_)
          fun e s w hw => ⟨hw.inScope hx, fun h => by cases h⟩
        refine Triple.ite
          (fun _ => Triple.pure fun s w hw => ⟨hw.inScope hx, fun h => by cases h⟩) fun _ => ?_
        exact Triple.bind (keeps_waiting hx fun h => h) (fun _ => ih)
          fun e s w hw => ⟨hw.inScope hx, fun h => by cases h⟩
      · intro s w hw
        have hfalse : complete = false := by simpa using hcomplete
        exact hw.2.2 (by rw [hfalse])

theorem triple_waitForMeasurement (hx : Follows System.tick x inp) (hrest : ∀ v, Rested (x v)) :
    Triple (instrument x inp) (Waiting x inp numSamples) (waitForMeasurement P) fun r s w =>
      InScope x s w ∧ (r = .ok true → Complete x numSamples s w) := by
  refine Triple.bind (keeps_waiting hx fun h => h) (fun start => ?_)
    fun e s w hw => ⟨hw.inScope hx, fun h => by cases h⟩
  refine Triple.read fun v => ?_
  exact (triple_waitLoop hx hrest _ _ _).conseq (fun _ _ h => h.2) fun _ _ _ h => h

/-- **What is read is what was measured.** -/
theorem triple_read (hx : Follows System.tick x inp) :
    Triple (instrument x inp) (Complete x numSamples) (hardwareCall (.getAcquiredSignal numSamples))
      fun _ => InScope x := by
  refine triple_hardwareCall (fun s w hw => hw.inScope) ?_
  intro s w reply w' hw hs hstep
  obtain ⟨hwaits, what, rfl⟩ | ⟨h, signal, h', t, hd, hrun, rfl, -⟩ := hstep
  · exact hw.inScope.waits hx hwaits
  obtain ⟨h₀, m, c, earlier, polls, a, b, a', b', hd₀, hfin, hcalls, hpolls, hcb⟩ := hw.finished
  obtain rfl : h₀ = h := Option.some.inj (hd₀.symm.trans hd)
  obtain ⟨hfin', hsignal⟩ :=
    RedPitayaHardware.getAcquiredSignal_reads hx h₀ w.time hfin _ h' t hrun
  refine .of_scoped hs hfin'.scoped (hw.fresh.append ?_)
  rintro size record start stop ⟨⟩
  exact ⟨m, c, ⟨earlier, polls, _, a, b, a', b', hcalls, hpolls, hfin.le, hcb⟩, hfin.numSamples_eq,
    hfin.acquired.run, hfin.acquired.ended, hfin.acquired.finished, hsignal record rfl⟩

/-- Start, wait and read. -/
theorem triple_acquire (hx : Follows System.tick x inp) (hrest : ∀ v, Rested (x v))
    (hpos : 0 < numSamples) :
    Triple (instrument x inp) (Idle x) (acquire P numSamples) fun _ => InScope x := by
  refine Triple.bind (triple_start hx hpos) (fun started => ?_) fun e s w hw => hw.1
  refine Triple.ite (fun hstarted => ?_) fun _ => Triple.pure fun s w hw => hw.1
  rw [hstarted]
  refine Triple.conseq (P := Waiting x inp numSamples) ?_ (fun s w hw => hw.2 rfl) fun _ _ _ h => h
  refine Triple.bind (triple_waitForMeasurement hx hrest) (fun complete => ?_)
    fun e s w hw => hw.1
  refine Triple.ite (fun hcomplete => ?_) fun _ => Triple.pure fun s w hw => hw.1
  rw [hcomplete]
  refine Triple.conseq (P := Complete x numSamples) ?_ (fun s w hw => hw.2 rfl) fun _ _ _ h => h
  refine Triple.bind (triple_read hx) (fun record => ?_) fun e s w hw => hw
  cases record with
  | none => exact Triple.pure fun s w hw => hw
  | some record => exact Triple.pure fun s w hw => hw

theorem InScope.idle {s : CommandHandler} {w : Instrument} (hw : InScope x s w)
    (hstart : (x w.time).reg.startMeasure = false) : Idle x s w :=
  ⟨hw.calm.low hstart, fun h hd => (hw.device h hd).known, hw.fresh⟩

theorem InScope.of_same {s s' : CommandHandler} {w : Instrument} (hw : InScope x s w)
    (hs : s'.hardware = s.hardware) : InScope x s' w :=
  { hw with armed := fun hstart => hs ▸ hw.armed hstart }

/-- **Leaving a measurement**, `START` is lowered, whichever way it went. -/
theorem triple_resetMeasurement (hx : Follows System.tick x inp) :
    Triple (instrument x inp) (InScope x) resetMeasurement fun _ => Idle x := by
  refine Triple.read fun v => Triple.ite (fun _ => ?_) fun hnull => Triple.throw ?_
  · refine Triple.bind (Q := fun _ => Idle x) (Triple.call ?_)
      (fun _ => Triple.pure fun _ _ h => h) fun _ _ _ h => h
    rintro s w ⟨-, hw⟩ done w' hstep
    obtain ⟨hd, hwaits⟩ | ⟨h, h', t, hd, hrun, rfl⟩ := hstep
    · have hlow : (x w.time).reg.startMeasure = false := by
        by_contra hne
        have hsome := (hw.armed (by simpa using hne)).2
        rw [hd] at hsome
        cases hsome
      exact (Instrument.Resting.waits hx (hw.idle hlow) hwaits).now
    · exact .of_off (RedPitayaHardware.resetMeasurement_lowers hx h w.time (hw.device h hd) _ h' t
        hrun) hw.fresh
  · rintro s w ⟨rfl, hw⟩
    refine hw.idle ?_
    by_contra hne
    exact hnull (hw.armed (by simpa using hne)).1

/-- A measurement begins and ends with `START` low. -/
theorem keeps_scopedMeasurement (hx : Follows System.tick x inp) {α : Type} {body : Method α}
    (hbody : Triple (instrument x inp) (Idle x) body fun _ => InScope x) :
    Keeps (instrument x inp) (Idle x) (scopedMeasurement body) := by
  refine Keeps.bind (Keeps.modify fun _ _ h => h) fun _ => ?_
  refine Triple.withDestructor hbody fun r => ?_
  have hfin : Triple (instrument x inp) (InScope x)
      (do Act.modify fun s => { s with status.measurementInProgress := false }
          resetMeasurement) fun _ => Idle x := by
    refine Triple.bind (Q := fun u s w => u = .ok () ∧ InScope x s w) ?_ (fun _ => ?_) ?_
    · exact Triple.modify fun s w hw => ⟨rfl, hw.of_same rfl⟩
    · exact (triple_resetMeasurement hx).conseq (fun _ _ h => h.2) fun _ _ _ h => h
    · intro e s w hw
      cases hw.1
  refine hfin.conseq (fun _ _ h => h) fun u s w hw => ?_
  cases u with
  | ok _ => exact hw
  | error _ => exact hw

/-! ### Commands -/

/-- What neither starts a measurement nor reads one leaves `START` low. -/
theorem keeps_resting (hx : Follows System.tick x inp) {t₀ : ℕ} {α : Type} {m : Method α}
    (hm : Act.Only Instrument.NoMeasure m) :
    Keeps (instrument x inp) (fun _ w => Instrument.Resting x t₀ w) m :=
  Keeps.of_only hm fun hc hw hstep => hw.step hx hc hstep

theorem keeps_idle (hx : Follows System.tick x inp) {α : Type} {m : Method α}
    (hm : Act.Only Instrument.NoMeasure m) : Keeps (instrument x inp) (Idle x) m :=
  Keeps.of_only hm fun hc hw hstep => (hw.step hx hc hstep).now

theorem only_makeSignalGen {C : ServerCall → Prop} (decimation : ℕ) :
    Act.Only C (makeSignalGen decimation) := by
  unfold makeSignalGen
  cases SignalGenerator.make (ServerConfig.adcSampleRateHz / decimation) decimation with
  | ok g => exact Act.Only.modify _
  | error what => exact Act.Only.throw _

theorem only_makeFftProcessor {C : ServerCall → Prop} (samplingFrequency : ℚ) :
    Act.Only C (makeFftProcessor samplingFrequency) := by
  unfold makeFftProcessor
  cases FFTProcessor.make samplingFrequency with
  | ok p => exact Act.Only.modify _
  | error what => exact Act.Only.throw _

theorem only_applyDecimation (decimation : ℕ) :
    Act.Only Instrument.NoMeasure (applyDecimation decimation) := by
  refine Act.Only.bind (hardwareCall_reads trivial).only fun taken => ?_
  refine Act.Only.ite (Act.Only.bind (Act.Only.modify _) fun _ => ?_) (Act.Only.pure _)
  refine Act.Only.bind (only_makeSignalGen decimation) fun _ => ?_
  exact Act.Only.bind (only_makeFftProcessor _) fun _ => Act.Only.pure _

theorem keeps_orThrow {W : World server} {B : CommandHandler → W.State → Prop} {α : Type}
    (reply : Except Text α) : Keeps W B (orThrow reply) := by
  cases reply with
  | ok a => exact Keeps.pure a
  | error what => exact Keeps.throw _

theorem keeps_transform (hx : Follows System.tick x inp) (p : FFTProcessor ℚ) (record : List ℚ) :
    Keeps (instrument x inp) (InScope x) (transform P p record) := by
  refine Keeps.ite (fun _ => Keeps.throw _) fun _ => Keeps.ite (fun _ => Keeps.pure _) fun _ => ?_
  refine Keeps.bind (Keeps.call fun s w r w' hw hstep => hw.waits hx hstep) fun reply => ?_
  refine Keeps.bind (keeps_orThrow reply) fun _ => ?_
  exact Keeps.bind (Keeps.modify fun s w hw => hw.of_same rfl) fun _ => Keeps.pure _

theorem keeps_analyzeSinc (hx : Follows System.tick x inp) (a : SincArgs) (record : List ℚ) :
    Keeps (instrument x inp) (InScope x) (analyzeSinc P a record) := by
  refine Keeps.bind (Keeps.modify fun s w hw => hw.of_same rfl) fun _ => ?_
  refine Keeps.bind Keeps.get fun s => ?_
  cases s.fftProcessor with
  | none => exact Keeps.throw _
  | some p => exact Keeps.bind (keeps_transform hx p _) fun _ => Keeps.pure _

theorem triple_runSinc (hx : Follows System.tick x inp) (hrest : ∀ v, Rested (x v)) {a : SincArgs}
    (hpos : 0 < a.numSamples) :
    Triple (instrument x inp) (Idle x) (runSinc P a) fun _ => InScope x := by
  refine Triple.bind (triple_acquire hx hrest hpos) (fun acquisition => ?_) fun _ _ _ h => h
  cases acquisition with
  | notStarted => exact Triple.pure fun _ _ h => h
  | timeout => exact Triple.pure fun _ _ h => h
  | notRead => exact Triple.pure fun _ _ h => h
  | samples record => exact keeps_analyzeSinc hx a _

theorem keeps_measureSinc (hx : Follows System.tick x inp) (hrest : ∀ v, Rested (x v))
    {a : SincArgs} (hpos : 0 < a.numSamples) :
    Keeps (instrument x inp) (Idle x) (measureSinc P a) := by
  refine Keeps.bind (keeps_idle hx (only_applyDecimation _)) fun taken => ?_
  refine Keeps.ite (fun _ => ?_) fun _ => Keeps.pure _
  refine Keeps.bind (Keeps.modify fun _ _ h => h) fun _ => ?_
  refine Keeps.bind (keeps_idle hx (generate_reads _).only) fun signal => ?_
  refine Keeps.bind (keeps_idle hx (hardwareCall_reads trivial).only) fun loaded => ?_
  exact Keeps.ite (fun _ => keeps_scopedMeasurement hx (triple_runSinc hx hrest hpos))
    fun _ => Keeps.pure _

theorem triple_sweepLoop (hx : Follows System.tick x inp) (hrest : ∀ v, Rested (x v))
    (a : SweepArgs) (points : List ℕ) (spectrum : List SpectrumPoint) :
    Triple (instrument x inp) (Idle x) (sweepLoop P a points spectrum) fun _ => InScope x := by
  have hend (reply : Reply) :
      Triple (instrument x inp) (Idle x) (pure reply : Method Reply) fun _ => InScope x :=
    Triple.pure fun s w hw => hw.inScope
  induction points generalizing spectrum with
  | nil => exact hend _
  | cons point points ih =>
      refine Triple.bind (keeps_idle hx (Act.Only.call trivial)) (fun cancelled => ?_)
        fun _ _ _ h => h.inScope
      refine Triple.ite (fun _ => hend _) fun _ => ?_
      refine Triple.bind (keeps_idle hx (generate_reads _).only) (fun signal => ?_)
        fun _ _ _ h => h.inScope
      refine Triple.bind (keeps_idle hx (hardwareCall_reads trivial).only) (fun loaded => ?_)
        fun _ _ _ h => h.inScope
      refine Triple.ite (fun _ => ?_) fun _ => hend _
      refine Triple.bind (triple_acquire hx hrest (by decide)) (fun acquisition => ?_)
        fun _ _ _ h => h
      cases acquisition with
      | notStarted => exact Triple.pure fun _ _ h => h
      | timeout => exact Triple.pure fun _ _ h => h
      | notRead => exact Triple.pure fun _ _ h => h
      | samples record =>
          refine Triple.bind (Q := fun _ => InScope x) ?_ (fun _ => ?_) fun _ _ _ h => h
          · exact Triple.modify fun s w hw => hw.of_same rfl
          -- before the next point `START` is low again
          exact Triple.bind (triple_resetMeasurement hx) (fun _ => ih _) fun _ _ _ h => h.inScope

theorem keeps_measureSweep (hx : Follows System.tick x inp) (hrest : ∀ v, Rested (x v))
    (a : SweepArgs) : Keeps (instrument x inp) (Idle x) (measureSweep P a) := by
  refine Keeps.bind (keeps_idle hx (only_applyDecimation _)) fun taken => ?_
  refine Keeps.ite (fun _ => ?_) fun _ => Keeps.pure _
  refine Keeps.bind (Keeps.modify fun _ _ h => h) fun _ => ?_
  exact keeps_scopedMeasurement hx (triple_sweepLoop hx hrest a _ _)

section Only

variable {C : ServerCall → Prop}

theorem only_of_quiet {α : Type} {m : Method α} (h : Quiet m) : Act.Only C m :=
  h.only.mono fun _ hc => hc.elim

theorem only_checked {α : Type} {check : CommandHandler → Except Reply α} {body : α → Method Reply}
    (h : ∀ a, Act.Only C (body a)) : Act.Only C (checked check body) := by
  refine Act.Only.bind Act.Only.get fun s => ?_
  cases check s with
  | error reply => exact Act.Only.pure _
  | ok a => exact h a

theorem only_okWithWarning {A : Arithmetic} : Act.Only C (okWithWarning A) :=
  Act.Only.bind (Act.Only.modify _) fun _ => Act.Only.bind Act.Only.get fun _ => Act.Only.pure _

theorem only_boardError : Act.Only Instrument.NoMeasure boardError :=
  Act.Only.bind (boardCall_reads trivial).only fun _ => Act.Only.pure _

theorem only_boardCommand {c : BoardSetting} {done : Method Reply}
    (hdone : Act.Only Instrument.NoMeasure done) :
    Act.Only Instrument.NoMeasure (boardCommand c done) :=
  Act.Only.bind (boardCall_reads trivial).only fun _ =>
    Act.Only.ite (Act.Only.bind (Act.Only.modify _) fun _ => hdone) only_boardError

theorem only_handleBoardStatus : Act.Only Instrument.NoMeasure handleBoardStatus := by
  refine only_checked fun _ => Act.Only.bind (boardCall_reads trivial).only fun text => ?_
  cases text with
  | none => exact only_boardError
  | some text =>
      refine Act.Only.bind Act.Only.get fun s => ?_
      cases s.refreshFromStatus text with
      | error m => exact Act.Only.throw _
      | ok s' => exact Act.Only.bind (Act.Only.modify _) fun _ => Act.Only.pure _

theorem noMeasure_of_release {c : ServerCall} (hc : IsReleaseCall c) : Instrument.NoMeasure c := by
  cases c with
  | cleanup | deleteHardware | closeBoard | deleteBoard => trivial
  | _ => exact hc.elim

theorem only_openHardware : Act.Only Instrument.NoMeasure openHardware := by
  refine Act.Only.bind ?_ fun _ => Act.Only.bind Act.Only.get fun s => ?_
  · refine Act.Only.bind (Act.Only.call trivial) fun reply => ?_
    exact Act.Only.bind (orThrow_reads reply).only fun made => Act.Only.modify _
  · exact Act.Only.ite (hardwareCall_reads trivial).only (Act.Only.pure _)

theorem only_connectBoard : Act.Only Instrument.NoMeasure connectBoard := by
  refine Act.Only.bind Act.Only.get fun s => Act.Only.ite (Act.Only.modify _) ?_
  refine Act.Only.bind ?_ fun connected => Act.Only.modify _
  refine Act.Only.bind ?_ fun _ => Act.Only.bind Act.Only.get fun s => ?_
  · refine Act.Only.bind (Act.Only.call trivial) fun reply => ?_
    exact Act.Only.bind (orThrow_reads reply).only fun made => Act.Only.modify _
  · exact Act.Only.ite (boardCall_reads trivial).only (Act.Only.pure _)

theorem only_refreshIfConnected : Act.Only Instrument.NoMeasure refreshIfConnected := by
  refine refreshIfConnected_confined.only.mono fun c hc => ?_
  cases c with
  | board c => trivial
  | _ => exact hc.elim

theorem only_finishInit : Act.Only Instrument.NoMeasure finishInit := by
  refine Act.Only.bind ?_ fun _ => Act.Only.bind only_refreshIfConnected fun _ => ?_
  · refine Act.Only.bind only_connectBoard fun _ => ?_
    refine Act.Only.bind (hardwareCall_reads trivial).only fun decimation => ?_
    exact Act.Only.bind (Act.Only.modify _) fun _ => only_makeSignalGen decimation
  · exact Act.Only.bind (Act.Only.modify _) fun _ =>
      Act.Only.bind Act.Only.get fun _ => Act.Only.pure _

theorem only_handleSystInit : Act.Only Instrument.NoMeasure handleSystInit := by
  refine Act.Only.bind Act.Only.get fun s => Act.Only.ite (Act.Only.pure _) ?_
  refine Act.Only.bind only_openHardware fun opened => ?_
  cases opened with
  | true => exact only_finishInit
  | false =>
      exact Act.Only.bind (only_deleteHardware.mono fun _ => noMeasure_of_release) fun _ =>
        Act.Only.pure _

end Only

/-- The two commands that measure. -/
def IsMeasure (cmd : ParsedCommand) : Prop :=
  cmd.command = .measSinc ∨ cmd.command = .measSweep

/-- All other commands neither start a measurement nor read one. -/
theorem only_handleCommand {cmd : ParsedCommand} (hcmd : ¬IsMeasure cmd) :
    Act.Only Instrument.NoMeasure (handleCommand P cmd) := by
  refine Act.Only.ite (Act.Only.pure _) ?_
  unfold dispatch
  cases hc : cmd.command with
  | idn | opc | systPing | systVersion | systShutdown | unknown => exact Act.Only.pure _
  | rst => exact only_handleRst.mono fun _ => noMeasure_of_release
  | systStatus => exact only_of_quiet quiet_handleSystStatus
  | systInit => exact only_handleSystInit
  | systDeinit => exact only_handleSystDeinit.mono fun _ => noMeasure_of_release
  | systMode => exact Act.Only.bind Act.Only.get fun _ => Act.Only.pure _
  | boardMuxRoute | boardMuxDisconnect =>
      exact only_checked fun _ => only_boardCommand only_okWithWarning
  | boardGain | boardReset =>
      exact only_checked fun _ => only_boardCommand (only_of_quiet (quiet_okWithSuffix _))
  | boardAdcLoop => exact only_of_quiet (quiet_handleBoardAdcLoop cmd)
  | boardAdcProtect => exact only_of_quiet (quiet_handleBoardAdcProtect cmd)
  | boardAdcSampleGain => exact only_of_quiet (quiet_handleBoardAdcSampleGain cmd)
  | boardStatus => exact only_handleBoardStatus
  | measSinc => exact (hcmd (.inl hc)).elim
  | measSweep => exact (hcmd (.inr hc)).elim

theorem keeps_checked {W : World server} {B : CommandHandler → W.State → Prop} {α : Type}
    {check : CommandHandler → Except Reply α} {body : α → Method Reply}
    (h : ∀ s a, check s = .ok a → Keeps W B (body a)) : Keeps W B (checked check body) := by
  intro s w hw r s' w' hrun
  rcases checked_runs.1 hrun with ⟨reply, -, -, rfl, rfl⟩ | ⟨a, ha, hrun⟩
  · exact hw
  · exact h s a ha s w hw r s' w' hrun

/-- **Every command begins and ends with `START` low.** -/
theorem keeps_handleCommand (hx : Follows System.tick x inp) (hrest : ∀ v, Rested (x v))
    (cmd : ParsedCommand) : Keeps (instrument x inp) (Idle x) (handleCommand P cmd) := by
  by_cases hcmd : IsMeasure cmd
  · refine Keeps.ite (fun _ => Keeps.pure _) fun _ => ?_
    unfold dispatch
    rcases hcmd with hc | hc
    · rw [hc]
      exact keeps_checked fun s a ha => keeps_measureSinc hx hrest (sincArgs_valid ha).pos
    · rw [hc]
      exact keeps_checked fun s a _ => keeps_measureSweep hx hrest a
  · exact keeps_idle hx (only_handleCommand hcmd)

/-! ### Sessions -/

/-- A command that was carried out: what came of it, when it began and ended, and its calls of the
driver. -/
structure Executed where
  cmd : ParsedCommand
  result : Except Fault Reply
  start : ℕ
  stop : ℕ
  calls : List HardwareEvent

/-- The sessions of a server after the reset of the FPGA, with what was carried out so far.  A
command is followed by the next whether it has replied or was left by an exception. -/
inductive MeasureSession (P : Platform) (x : ℕ → System) (inp : ℕ → Input) :
    List Executed → CommandHandler → Instrument → Prop
  | start {t : ℕ} (measurementTimeoutMs : ℤ) (mode : OperatingMode) : Silent inp 0 t →
      MeasureSession P x inp [] (make measurementTimeoutMs mode) { time := t }
  | waits {executed : List Executed} {s : CommandHandler} {w w' : Instrument} :
      MeasureSession P x inp executed s w → w.Waits inp w' → MeasureSession P x inp executed s w'
  | command {executed : List Executed} {s s' : CommandHandler} {w w' : Instrument}
      {cmd : ParsedCommand} {result : Except Fault Reply} :
      MeasureSession P x inp executed s w →
      Runs (instrument x inp) { w with calls := [] } (handleCommand P cmd s) (result, s') w' →
      MeasureSession P x inp (executed ++ [⟨cmd, result, w.time, w'.time, w'.calls⟩]) s' w'

/-- No `MEASURE` command is being carried out in a cycle. -/
def NotMeasuring (executed : List Executed) (t : ℕ) : Prop :=
  ∀ e ∈ executed, IsMeasure e.cmd → ¬(e.start ≤ t ∧ t < e.stop)

section Session

variable {executed : List Executed} {s : CommandHandler} {w : Instrument}

theorem rested_of_reset (hx : Follows System.tick x inp) (hreset : (x 0).IsReset) (v : ℕ) :
    Rested (x v) := by
  have hreach : Fpga.Reachable (x v) := by
    induction v with
    | zero => exact .init hreset
    | succ v ih =>
        rw [hx v]
        exact .step ih _
  exact hreach.rested

theorem low_of_reset (hx : Follows System.tick x inp) (hreset : (x 0).IsReset) {t : ℕ}
    (hsilent : Silent inp 0 t) : Low x 0 t := by
  obtain ⟨hreg, -, -, -, hreply⟩ := hreset
  have hcalm : Calm x 0 := by
    refine ⟨?_, ?_⟩
    · rw [System.answered, hreply]
    · rw [hreg]
      decide
  exact hsilent.low hx t.zero_le (hcalm.low (by rw [hreg]))

/-- What holds between two commands. -/
structure Between (x : ℕ → System) (executed : List Executed) (s : CommandHandler)
    (w : Instrument) : Prop where
  idle : Idle x s w
  start : ∀ t ≤ w.time, NotMeasuring executed t → (x t).reg.startMeasure = false
  fresh : ∀ e ∈ executed, Fresh x e.calls

/-- A time without a measurement. -/
theorem Between.resting {s' : CommandHandler} {w' : Instrument} {executed' : List Executed}
    (h : Between x executed s w) (hw : Instrument.Resting x w.time w')
    (hbefore : ∀ t, NotMeasuring executed' t → NotMeasuring executed t)
    (hfresh : ∀ e ∈ executed', Fresh x e.calls) : Between x executed' s' w' where
  idle := hw.now
  start t ht hquiet := by
    rcases Nat.le_total t w.time with hle | hle
    · exact h.start t hle (hbefore t hquiet)
    · exact hw.start t hle ht
  fresh := hfresh

/-- One more command. -/
theorem Between.command (hx : Follows System.tick x inp) (hrest : ∀ v, Rested (x v))
    (h : Between x executed s w) {cmd : ParsedCommand} {result : Except Fault Reply}
    {s' : CommandHandler} {w' : Instrument}
    (hrun : Runs (instrument x inp) { w with calls := [] } (handleCommand P cmd s) (result, s')
      w') : Between x (executed ++ [⟨cmd, result, w.time, w'.time, w'.calls⟩]) s' w' := by
  have hidle : Idle x s { w with calls := [] } := ⟨h.idle.toLow, h.idle.known, fresh_nil⟩
  have hidle' : Idle x s' w' := keeps_handleCommand hx hrest cmd s _ hidle _ s' w' hrun
  have hbefore : ∀ t, NotMeasuring (executed ++ [⟨cmd, result, w.time, w'.time, w'.calls⟩]) t →
      NotMeasuring executed t :=
    fun t hquiet e he => hquiet e (List.mem_append_left _ he)
  have hfresh : ∀ e ∈ executed ++ [⟨cmd, result, w.time, w'.time, w'.calls⟩], Fresh x e.calls := by
    intro e he
    rcases List.mem_append.1 he with he | he
    · exact h.fresh e he
    · rw [List.mem_singleton.1 he]
      exact hidle'.fresh
  by_cases hcmd : IsMeasure cmd
  · refine ⟨hidle', fun t ht hquiet => ?_, hfresh⟩
    rcases Nat.lt_or_ge t w.time with hlt | hge
    · exact h.start t hlt.le (hbefore t hquiet)
    -- the command has ended
    have hend := hquiet _ (List.mem_append_right _ (List.mem_singleton_self _)) hcmd
    obtain rfl : t = w'.time := by
      by_contra hne
      exact hend ⟨hge, Nat.lt_of_le_of_ne ht hne⟩
    exact hidle'.toLow.now
  · have hresting := keeps_resting hx (only_handleCommand hcmd) s _ hidle _ s' w' hrun
    exact h.resting hresting hbefore hfresh

theorem MeasureSession.between (hx : Follows System.tick x inp) (hreset : (x 0).IsReset)
    (h : MeasureSession P x inp executed s w) : Between x executed s w := by
  have hrest := rested_of_reset hx hreset
  induction h with
  | @start t measurementTimeoutMs mode hsilent =>
      have hlow := low_of_reset hx hreset hsilent
      refine ⟨⟨hlow.toCalm.low hlow.now, fun h hd => ?_, fresh_nil⟩, fun v hv _ => ?_, by simp⟩
      · cases hd
      · exact hlow.start v v.zero_le hv
  | waits _ hwaits ih =>
      have hresting := Instrument.Resting.waits hx ih.idle hwaits
      exact ih.resting hresting (fun _ hquiet => hquiet) ih.fresh
  | command _ hrun ih => exact ih.command hx hrest hrun

/-- **No spectrum is computed from stale data.**  After the reset of the FPGA, whatever commands the
server carries out: outside the `MEASURE` commands `START` is low, and what a command reads from the
memory is the record of the measurement it has started last. -/
theorem no_stale_spectrum (hx : Follows System.tick x inp) (hreset : (x 0).IsReset)
    (h : MeasureSession P x inp executed s w) :
    (∀ t ≤ w.time, NotMeasuring executed t → (x t).reg.startMeasure = false) ∧
      ∀ e ∈ executed, Fresh x e.calls := by
  have hbetween := h.between hx hreset
  exact ⟨hbetween.start, hbetween.fresh⟩

end Session

end CommandHandler

/-! ### A session on the FPGA -/

section Prompt

variable (x : ℕ → System) (inp : ℕ → Input)

/-- One way the bus can answer: an access takes three cycles, and a system call succeeds at once. -/
def promptBus (t : ℕ) : (c : MemoryCall) → Option (memory.Reply c × ℕ)
  | .openMem => some ((3 : ℤ), t)
  | .mapRegs => some (true, t)
  | .mapBram => some (true, t)
  | .unmapRegs => some ((), t)
  | .unmapBram => some ((), t)
  | .closeMem => some ((), t)
  | .readReg index =>
      if Access x inp t (.regRead index) (t + 2) (t + 3) then
        some ((x (t + 2)).reply.sysRdata, t + 3)
      else none
  | .writeReg index value =>
      if Access x inp t (.regWrite index value) (t + 1) (t + 3) then some ((), t + 3) else none
  | .readBram i =>
      if Access x inp t (.bramRead i) (t + 2) (t + 3) then
        some ((x (t + 2)).reply.sysRdata, t + 3)
      else none
  | .writeBram i value =>
      if Access x inp t (.bramWrite i value) (t + 1) (t + 3) then some ((), t + 3) else none

/-- A method of the driver on this bus. -/
def Instrument.onDriver {α : Type} (w : Instrument) (m : RedPitayaHardware.Method α) :
    Option (α × RedPitayaHardware × ℕ) :=
  w.device.bind fun h =>
    match (m h).attempt (promptBus x inp) w.time with
    | some ((.ok a, h'), t) => some (a, h', t)
    | none => none

/-- The instrument with this bus.  Asking for the time takes as long as a short measurement. -/
def Instrument.serve (w : Instrument) : (c : ServerCall) → Option (server.Reply c × Instrument)
  | .hardwareFactory =>
      if w.device = none then some (.ok true, { w with device := some {} }) else none
  | .hardware c => (w.onDriver x inp (RedPitayaHardware.method c)).map fun (a, h', t) =>
      (.ok a, { device := some h', time := t, calls := w.calls ++ [⟨c, a, w.time, t⟩] })
  | .resetMeasurement =>
      (w.onDriver x inp RedPitayaHardware.resetMeasurement).map fun (done, h', t) =>
        (done, { w with device := some h', time := t })
  | .now =>
      if Silent inp w.time (w.time + 96) then some ((0 : ℤ), { w with time := w.time + 96 })
      else none
  | .planFft _ => some (.ok (), w)
  | _ => none

variable {x inp}

theorem promptBus_step {t t' : ℕ} {c : MemoryCall} {r : memory.Reply c}
    (h : promptBus x inp t c = some (r, t')) : BusStep x inp t c r t' := by
  cases c with
  | readReg index | readBram i =>
      obtain ⟨hacc, h⟩ := Option.ite_none_right_eq_some.1 h
      cases h
      exact ⟨_, hacc, rfl⟩
  | writeReg index value | writeBram i value =>
      obtain ⟨hacc, h⟩ := Option.ite_none_right_eq_some.1 h
      cases h
      exact ⟨_, hacc⟩
  | openMem | mapRegs | mapBram | unmapRegs | unmapBram | closeMem =>
      cases h
      exact ⟨le_rfl, fun v htv hvt => absurd hvt (Nat.not_lt.2 htv)⟩

theorem Instrument.onDriver_runs {α : Type} {w : Instrument} {m : RedPitayaHardware.Method α}
    {a : α} {h' : RedPitayaHardware} {t : ℕ} (h : w.onDriver x inp m = some (a, h', t)) :
    ∃ h, w.device = some h ∧ Runs (systemBus x inp) w.time (m h) (.ok a, h') t := by
  obtain ⟨device, hd, h⟩ := Option.bind_eq_some_iff.1 h
  refine ⟨device, hd, ?_⟩
  split at h
  · rename_i hrun
    cases h
    exact Prog.attempt_runs (W := systemBus x inp) (fun _ _ _ _ => promptBus_step) hrun
  · cases h

theorem Instrument.serve_step {w w' : Instrument} {c : ServerCall} {r : server.Reply c}
    (h : w.serve x inp c = some (r, w')) : Instrument.Step x inp w c r w' := by
  cases c with
  | hardwareFactory =>
      obtain ⟨hd, h⟩ := Option.ite_none_right_eq_some.1 h
      cases h
      refine ⟨w.time, ?_, rfl⟩
      unfold Deleted
      rw [hd]
  | hardware c =>
      obtain ⟨⟨a, h', t⟩, hdriver, h⟩ := Option.map_eq_some_iff.1 h
      cases h
      obtain ⟨device, hd, hrun⟩ := onDriver_runs hdriver
      exact .inr ⟨device, a, h', t, hd, hrun, rfl, .inl rfl⟩
  | resetMeasurement =>
      obtain ⟨⟨done, h', t⟩, hdriver, h⟩ := Option.map_eq_some_iff.1 h
      cases h
      obtain ⟨device, hd, hrun⟩ := onDriver_runs hdriver
      exact .inr ⟨device, h', t, hd, hrun, rfl⟩
  | now =>
      obtain ⟨hsilent, h⟩ := Option.ite_none_right_eq_some.1 h
      cases h
      exact ⟨w.time + 96, Nat.le_add_right _ _, hsilent, rfl⟩
  | planFft size =>
      cases h
      exact ⟨w.time, le_rfl, fun v htv hvt => absurd hvt (Nat.not_lt.2 htv), rfl⟩
  | _ => cases h

namespace CommandHandler

/-- The session after more commands on this instrument. -/
def perform (x : ℕ → System) (inp : ℕ → Input) (cmds : List ParsedCommand)
    (executed : List Executed) (s : CommandHandler) (w : Instrument) :
    Option (List Executed × CommandHandler × Instrument) :=
  match cmds with
  | [] => some (executed, s, w)
  | cmd :: cmds =>
      match (handleCommand (flat .ieee) cmd s).attempt (Instrument.serve x inp) { w with calls := [] } with
      | some ((result, s'), w') =>
          perform x inp cmds (executed ++ [⟨cmd, result, w.time, w'.time, w'.calls⟩]) s' w'
      | none => none

theorem MeasureSession.perform {cmds : List ParsedCommand} {executed executed' : List Executed}
    {s s' : CommandHandler} {w w' : Instrument} (h : MeasureSession (flat .ieee) x inp executed s w)
    (hrun : CommandHandler.perform x inp cmds executed s w = some (executed', s', w')) :
    MeasureSession (flat .ieee) x inp executed' s' w' := by
  induction cmds generalizing executed s w with
  | nil =>
      cases hrun
      exact h
  | cons cmd cmds ih =>
      unfold CommandHandler.perform at hrun
      split at hrun
      · rename_i result s₁ w₁ hcmd
        exact ih (.command h (Prog.attempt_runs (W := instrument x inp)
          (fun _ _ _ _ => Instrument.serve_step) hcmd)) hrun
      · cases hrun

/-- An access of three cycles. -/
def threeCycles (b : Bus) : List Input := [{ bus := b }, { bus := { addr := b.addr } }, {}]

/-- The bus while the hardware is initialized and one sample is measured. -/
def oneSampleTrace : List Input :=
  [Bus.regRead regVersion, .regWrite regStatus 1, .regWrite regStartMeasure 0,
    .regWrite regDecimation 64, .regWrite regDecimation 16, .regRead regStatus,
    .regWrite regStatus 1, .bramWrite 0 8191, .regRead regStatus, .regRead regStatus,
    .regWrite regSigSize 1, .regWrite regDelay 1, .regWrite regStartMeasure 1].flatMap threeCycles
  ++ List.replicate 96 ({} : Input)
  ++ [Bus.regRead regEndMeasure, .regRead regStatus, .regWrite regStatus 1, .bramRead 0,
    .regRead regStatus, .regWrite regStartMeasure 0].flatMap threeCycles

/-- What the processor does in each cycle. -/
def oneSampleInput (t : ℕ) : Input := oneSampleTrace.getD t {}

/-- The FPGA meanwhile. -/
def oneSampleRun : ℕ → System := run System.tick { bram := { mem := fun _ => 0 } } oneSampleInput

/-- A call that has read a record. -/
def readsRecord : HardwareEvent → Bool
  | ⟨.getAcquiredSignal _, some _, _, _⟩ => true
  | _ => false

/-- After an initialization, one sample is measured and read. -/
theorem no_stale_spectrum_oneSample : ∃ executed s w,
    MeasureSession (flat .ieee) oneSampleRun oneSampleInput executed s w ∧
    (oneSampleRun w.time).reg.startMeasure = false ∧
    ∃ e ∈ executed, ∃ before later size record a b,
      e.calls = before ++ ⟨.getAcquiredSignal size, some record, a, b⟩ :: later ∧
        ∃ m c, MeasuredBy oneSampleRun before a record m c := by
  have hstart : MeasureSession (flat .ieee) oneSampleRun oneSampleInput [] (make 5000 .rpOnly)
      { time := 0 } := .start 5000 .rpOnly (by decide)
  have hsome : (CommandHandler.perform oneSampleRun oneSampleInput [{ command := .systInit },
      { command := .measSinc,
        args := ["1000".toList, "10".toList, "1".toList, "16".toList, "1".toList] }]
      [] (make 5000 .rpOnly) { time := 0 }).any (fun p =>
        p.1.all (fun e => e.stop ≤ p.2.2.time) && p.1.any fun e => e.calls.any readsRecord)
        = true := by decide +kernel
  obtain ⟨⟨executed, s, w⟩, hperform, hread⟩ := (Option.any_eq_true ..).1 hsome
  simp only [Bool.and_eq_true, List.all_eq_true, List.any_eq_true, decide_eq_true_eq] at hread
  obtain ⟨hstop, e, he, call, hcall, hrecord⟩ := hread
  have hsession := hstart.perform hperform
  obtain ⟨hlow, hfresh⟩ :=
    no_stale_spectrum (follows_run _ oneSampleInput) ⟨rfl, rfl, rfl, rfl, rfl⟩ hsession
  refine ⟨executed, s, w, hsession, hlow w.time le_rfl fun e he _ h => ?_, e, he, ?_⟩
  · exact absurd h.2 (Nat.not_lt.2 (hstop e he))
  · obtain ⟨before, later, hsplit⟩ := List.append_of_mem hcall
    unfold readsRecord at hrecord
    split at hrecord
    · rename_i size record a b
      exact ⟨before, later, size, record, a, b, hsplit, hfresh e he _ _ _ _ _ _ hsplit⟩
    · cases hrecord

end CommandHandler

end Prompt

end Afm
