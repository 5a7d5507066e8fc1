/-
**Records and signals over whole sessions.**

A measuring command loads a signal, starts the controller, waits and reads; between these calls it
may be left at any of them, and the next command finds the memory as it is.  Whatever was carried
out before: a record that a command has read was taken while the converter played, word for word,
the signal that the command had loaded just before.

Main definitions:

* `Afm.Answered` — a record, the calls that have led to it, and the signal it answers;
* `Afm.Heard` — every record among the calls is such a record.

Main results:

* `Afm.CommandHandler.triple_loadedAcquire` — a record is read only of the signal that was loaded;
* `Afm.CommandHandler.records_answer_signals` — **every record of a session answers its signal**.
-/

import RedPitayaAfm.SignalPath
import RedPitayaAfm.MeasureSession

set_option relaxedAutoImplicit false
set_option autoImplicit false

namespace Afm

open Effect Fpga Clocked

/-! ### Records and the calls before them -/

/-- The record read in cycle `read` was taken by measurement `m`, started in cycle `c`: the calls
before it have loaded the signal, started the measurement and found it complete, and the record
answers the signal. -/
structure Answered (x : ℕ → System) (inp : ℕ → Input) (before : List HardwareEvent) (read : ℕ)
    {size : ℕ} (record : Fin size → ℚ) (signal : List ℚ) (m : Settings) (c : ℕ) : Prop where
  latest : ∃ earlier polls a₀ b₀ a b a' b',
    before = earlier ++ ⟨.loadGenerationSignal signal, true, a₀, b₀⟩ ::
        ⟨.startMeasurement size CommandHandler.acquisitionDelaySamples, true, a, b⟩ :: polls
      ++ [⟨.isMeasurementComplete, true, a', b'⟩] ∧
    ∀ e ∈ polls, e.call = .isMeasurementComplete
  measured : MeasuredBy x before read record m c
  delay : m.delay = CommandHandler.acquisitionDelaySamples
  answers : Answers x inp signal record m c

/-- Every record among the calls answers its signal. -/
def Heard (x : ℕ → System) (inp : ℕ → Input) (calls : List HardwareEvent) : Prop :=
  ∀ before later size record a b,
    calls = before ++ ⟨.getAcquiredSignal size, some record, a, b⟩ :: later →
      ∃ signal m c, Answered x inp before a record signal m c

section Heard

variable {x : ℕ → System} {inp : ℕ → Input} {calls : List HardwareEvent}

theorem heard_nil : Heard x inp [] := by
  intro before later size record a b h
  simp at h

theorem Heard.fresh (h : Heard x inp calls) : Fresh x calls := by
  intro before later size record a b hcalls
  obtain ⟨signal, m, c, hanswered⟩ := h before later size record a b hcalls
  exact ⟨m, c, hanswered.measured⟩

/-- One more call. -/
theorem Heard.append (h : Heard x inp calls) {e : HardwareEvent}
    (he : ∀ size record a b, e = ⟨.getAcquiredSignal size, some record, a, b⟩ →
      ∃ signal m c, Answered x inp calls a record signal m c) : Heard x inp (calls ++ [e]) := by
  intro before later size record a b heq
  rcases List.eq_nil_or_concat later with rfl | ⟨later, last, rfl⟩
  · obtain ⟨rfl, hlast⟩ := List.append_inj' heq rfl
    exact he size record a b (List.cons.inj hlast).1
  · have heq' : calls ++ [e]
        = (before ++ ⟨.getAcquiredSignal size, some record, a, b⟩ :: later) ++ [last] := by
      rw [heq]
      simp
    obtain ⟨hcalls, -⟩ := List.append_inj' heq' rfl
    exact h before later size record a b hcalls

/-- A call that reads nothing. -/
theorem Heard.append_other (h : Heard x inp calls) {c : HardwareCall} {result : c.Result}
    {start stop : ℕ} (hc : ∀ size, c ≠ .getAcquiredSignal size) :
    Heard x inp (calls ++ [⟨c, result, start, stop⟩]) := by
  refine h.append fun size record a b heq => ?_
  exact absurd (congrArg HardwareEvent.call heq) (hc size)

end Heard

/-! ### Calls that read no record -/

namespace CommandHandler

variable {x : ℕ → System} {inp : ℕ → Input} {P : Platform} {numSamples : ℕ} {signal : List ℚ}

/-- Calls that read no record. -/
def NoRecord : ServerCall → Prop
  | .hardware (.getAcquiredSignal _) => False
  | _ => True

theorem noRecord_of_noMeasure {c : ServerCall} (hc : Instrument.NoMeasure c) : NoRecord c := by
  cases c with
  | hardware c =>
      cases c with
      | getAcquiredSignal size => exact hc.elim
      | _ => trivial
  | _ => trivial

/-- They leave the records as they are. -/
theorem heard_step {w w' : Instrument} {c : ServerCall} {reply : server.Reply c}
    (hc : NoRecord c) (hw : Heard x inp w.calls) (h : Instrument.Step x inp w c reply w') :
    Heard x inp w'.calls := by
  have hwaits (h : w.Waits inp w') : Heard x inp w'.calls := by
    obtain ⟨t, -, -, rfl⟩ := h
    exact hw
  cases c with
  | hardwareFactory =>
      cases reply with
      | ok made =>
          obtain ⟨t, -, rfl⟩ := h
          exact hw
      | error what => exact hwaits h
  | hardware c =>
      obtain ⟨h, -⟩ | ⟨h, a, h', t, -, -, rfl, -⟩ := h
      · exact hwaits h
      refine hw.append_other fun size => ?_
      rintro rfl
      exact hc
  | resetMeasurement =>
      obtain ⟨-, h⟩ | ⟨h, h', t, -, -, rfl⟩ := h
      · exact hwaits h
      · exact hw
  | cleanup =>
      obtain ⟨-, h⟩ | ⟨h, h', t, -, -, rfl⟩ := h
      · exact hwaits h
      · exact hw
  | deleteHardware =>
      obtain ⟨t, -, rfl⟩ := h
      exact hw
  | boardFactory | board _ | closeBoard | deleteBoard | cancelCheck | now | sleep _ | planFft _ =>
      exact hwaits h

/-- Between measurements, with every record so far heard. -/
def Quiescent (x : ℕ → System) (inp : ℕ → Input) (s : CommandHandler) (w : Instrument) : Prop :=
  Idle x s w ∧ Heard x inp w.calls

/-- In the scope of a measurement, with every record so far heard. -/
def Sounding (x : ℕ → System) (inp : ℕ → Input) (s : CommandHandler) (w : Instrument) : Prop :=
  InScope x s w ∧ Heard x inp w.calls

theorem Quiescent.sounding {s : CommandHandler} {w : Instrument} (h : Quiescent x inp s w) :
    Sounding x inp s w :=
  ⟨h.1.inScope, h.2⟩

theorem keeps_heard {α : Type} {m : Method α} (hm : Act.Only NoRecord m) :
    Keeps (instrument x inp) (fun _ w => Heard x inp w.calls) m :=
  Keeps.of_only hm fun hc hw hstep => heard_step hc hw hstep

/-- What neither starts a measurement nor reads one. -/
theorem keeps_quiescent (hx : Follows System.tick x inp) {α : Type} {m : Method α}
    (hm : Act.Only Instrument.NoMeasure m) : Keeps (instrument x inp) (Quiescent x inp) m :=
  Triple.and (keeps_idle hx hm) (keeps_heard (hm.mono fun _ => noRecord_of_noMeasure))

/-! ### A measurement of a signal -/

/-- The signal was loaded last. -/
structure SignalLoaded (x : ℕ → System) (inp : ℕ → Input) (signal : List ℚ) (s : CommandHandler)
    (w : Instrument) : Prop where
  idle : Idle x s w
  heard : Heard x inp w.calls
  loaded : ∃ h earlier a b, w.device = some h ∧
    RedPitayaHardware.Loaded x w.time signal signal.length h w.time ∧
    w.calls = earlier ++ [⟨.loadGenerationSignal signal, true, a, b⟩]

/-- A measurement of the signal was started, and the handler has only asked for its end since. -/
structure SignalPlaying (x : ℕ → System) (inp : ℕ → Input) (signal : List ℚ) (s : CommandHandler)
    (w : Instrument) : Prop where
  hardware : s.hardware = true
  heard : Heard x inp w.calls
  running : ∃ h m c earlier polls a₀ b₀ a b, w.device = some h ∧
    RedPitayaHardware.Running x inp signal.length acquisitionDelaySamples a m c h w.time ∧
    RedPitayaHardware.PlaysFrom x signal signal.length c ∧
    w.calls = earlier ++ ⟨.loadGenerationSignal signal, true, a₀, b₀⟩ ::
      ⟨.startMeasurement signal.length acquisitionDelaySamples, true, a, b⟩ :: polls ∧
    (∀ e ∈ polls, e.call = .isMeasurementComplete) ∧ c < b

/-- The measurement was found complete. -/
structure SignalPlayed (x : ℕ → System) (inp : ℕ → Input) (signal : List ℚ) (s : CommandHandler)
    (w : Instrument) : Prop where
  hardware : s.hardware = true
  heard : Heard x inp w.calls
  finished : ∃ h m c earlier polls a₀ b₀ a b a' b', w.device = some h ∧
    RedPitayaHardware.Finished x signal.length acquisitionDelaySamples a m c h w.time ∧
    (∀ record : Fin signal.length → ℚ,
      (∀ k, record k = RedPitayaHardware.voltage x m c k) → Answers x inp signal record m c) ∧
    w.calls = earlier ++ ⟨.loadGenerationSignal signal, true, a₀, b₀⟩ ::
        ⟨.startMeasurement signal.length acquisitionDelaySamples, true, a, b⟩ :: polls
      ++ [⟨.isMeasurementComplete, true, a', b'⟩] ∧
    (∀ e ∈ polls, e.call = .isMeasurementComplete) ∧ c < b

theorem SignalLoaded.quiescent {s : CommandHandler} {w : Instrument}
    (h : SignalLoaded x inp signal s w) : Quiescent x inp s w :=
  ⟨h.idle, h.heard⟩

theorem SignalPlaying.sounding (hx : Follows System.tick x inp) {s : CommandHandler}
    {w : Instrument} (hw : SignalPlaying x inp signal s w) : Sounding x inp s w := by
  obtain ⟨h, m, c, earlier, polls, a₀, b₀, a, b, hd, hrun, -⟩ := hw.running
  obtain ⟨device, time, calls⟩ := w
  obtain rfl : device = some h := hd
  exact ⟨.of_scoped hw.hardware (hrun.scoped hx) hw.heard.fresh, hw.heard⟩

theorem SignalPlayed.sounding {s : CommandHandler} {w : Instrument}
    (hw : SignalPlayed x inp signal s w) : Sounding x inp s w := by
  obtain ⟨h, m, c, earlier, polls, a₀, b₀, a, b, a', b', hd, hfin, -⟩ := hw.finished
  obtain ⟨device, time, calls⟩ := w
  obtain rfl : device = some h := hd
  exact ⟨.of_scoped hw.hardware hfin.scoped hw.heard.fresh, hw.heard⟩

theorem SignalPlaying.waits (hx : Follows System.tick x inp) {s : CommandHandler}
    {w w' : Instrument} (hw : SignalPlaying x inp signal s w) (h : w.Waits inp w') :
    SignalPlaying x inp signal s w' := by
  obtain ⟨t, hle, hsilent, rfl⟩ := h
  obtain ⟨h, m, c, earlier, polls, a₀, b₀, a, b, hd, hrun, hrest⟩ := hw.running
  exact ⟨hw.hardware, hw.heard, h, m, c, earlier, polls, a₀, b₀, a, b, hd,
    hrun.silent hx hle hsilent, hrest⟩

theorem Sounding.waits (hx : Follows System.tick x inp) {s : CommandHandler} {w w' : Instrument}
    (hw : Sounding x inp s w) (h : w.Waits inp w') : Sounding x inp s w' := by
  refine ⟨hw.1.waits hx h, ?_⟩
  obtain ⟨t, -, -, rfl⟩ := h
  exact hw.2

/-- Loading a signal. -/
theorem triple_load (hx : Follows System.tick x inp) :
    Triple (instrument x inp) (Quiescent x inp) (hardwareCall (.loadGenerationSignal signal))
      fun r s w => Quiescent x inp s w ∧ (r = .ok true → SignalLoaded x inp signal s w) := by
  have hkeeps : Keeps (instrument x inp) (Quiescent x inp)
      (hardwareCall (.loadGenerationSignal signal)) :=
    keeps_quiescent hx (hardwareCall_reads trivial).only
  have hload : Triple (instrument x inp) (Quiescent x inp)
      (hardwareCall (.loadGenerationSignal signal)) fun r s w => r = .ok true →
        ∃ h earlier a b, w.device = some h ∧
          RedPitayaHardware.Loaded x w.time signal signal.length h w.time ∧
          w.calls = earlier ++ [⟨.loadGenerationSignal signal, true, a, b⟩] := by
    refine triple_hardwareCall (fun s w _ h => by cases h) ?_
    intro s w reply w' hw hs hstep
    obtain ⟨-, what, rfl⟩ | ⟨h, done, h', t, hd, hrun, rfl, hreply⟩ := hstep
    · intro htrue
      cases htrue
    intro htrue
    obtain rfl : done = true := by
      obtain rfl | ⟨what, rfl⟩ := hreply
      · exact Except.ok.inj htrue
      · cases htrue
    have hloaded := RedPitayaHardware.loadGenerationSignal_loads hx h w.time (hw.1.off hd) _ h' t
      hrun rfl
    exact ⟨h', w.calls, w.time, t, rfl, hloaded.fromNow, rfl⟩
  refine (hkeeps.and hload).conseq (fun s w hw => ⟨hw, hw⟩) ?_
  intro r s w hQ
  exact ⟨hQ.1, fun htrue => ⟨hQ.1.1, hQ.1.2, hQ.2 htrue⟩⟩

/-- Starting a measurement of the signal. -/
theorem triple_startLoaded (hx : Follows System.tick x inp) (hpos : 0 < signal.length) :
    Triple (instrument x inp) (SignalLoaded x inp signal)
      (hardwareCall (.startMeasurement signal.length acquisitionDelaySamples)) fun r s w =>
        Sounding x inp s w ∧ (r = .ok true → SignalPlaying x inp signal s w) := by
  refine triple_hardwareCall
    (fun s w hw => ⟨hw.quiescent.sounding, fun h => by cases h⟩) ?_
  intro s w reply w' hw hs hstep
  obtain ⟨hwaits, what, rfl⟩ | ⟨h, done, h', t, hd, hrun, rfl, hreply⟩ := hstep
  · exact ⟨hw.quiescent.sounding.waits hx hwaits, fun h => by cases h⟩
  obtain ⟨h₀, earlier, a₀, b₀, hd₀, hloaded, hcalls⟩ := hw.loaded
  obtain rfl : h₀ = h := Option.some.inj (hd₀.symm.trans hd)
  have houtcome := RedPitayaHardware.startMeasurement_plays hx hpos h₀ w.time hloaded _ h' t hrun
  have hheard : Heard x inp (w.calls ++
      [⟨.startMeasurement signal.length acquisitionDelaySamples, done, w.time, t⟩]) :=
    hw.heard.append_other fun size h => by cases h
  obtain ⟨hdone, hoff⟩ | ⟨hdone, m, c, hrunning, hplays⟩ := houtcome
  · cases hdone
    refine ⟨⟨.of_scoped hs hoff.scoped hheard.fresh, hheard⟩, fun h => ?_⟩
    obtain rfl | ⟨what, rfl⟩ := hreply <;> cases h
  · cases hdone
    refine ⟨⟨.of_scoped hs (hrunning.scoped hx) hheard.fresh, hheard⟩, fun _ => ?_⟩
    refine ⟨hs, hheard, h', m, c, earlier, [], a₀, b₀, w.time, t, rfl, hrunning, hplays, ?_,
      by simp, hrunning.started.lt⟩
    show w.calls ++ _ = _
    rw [hcalls]
    simp

/-- What asking for the end leaves. -/
def PlayOutcome (x : ℕ → System) (inp : ℕ → Input) (signal : List ℚ) (r : Except Fault Bool)
    (s : CommandHandler) (w : Instrument) : Prop :=
  Sounding x inp s w ∧ (r = .ok true → SignalPlayed x inp signal s w) ∧
    (r = .ok false → SignalPlaying x inp signal s w)

/-- Asking for the end of a measurement. -/
theorem triple_pollPlaying (hx : Follows System.tick x inp) (hrest : ∀ v, Rested (x v)) :
    Triple (instrument x inp) (SignalPlaying x inp signal) (hardwareCall .isMeasurementComplete)
      (PlayOutcome x inp signal) := by
  refine triple_hardwareCall
    (fun s w hw => ⟨hw.sounding hx, fun h => (by cases h), fun h => (by cases h)⟩) ?_
  intro s w reply w' hw hs hstep
  obtain ⟨hwaits, what, rfl⟩ | ⟨h, complete, h', t, hd, hrun, rfl, hreply⟩ := hstep
  · exact ⟨(hw.sounding hx).waits hx hwaits, fun h => (by cases h), fun h => (by cases h)⟩
  obtain ⟨h₀, m, c, earlier, polls, a₀, b₀, a, b, hd₀, hrunning, hplays, hcalls, hpolls, hcb⟩ :=
    hw.running
  obtain rfl : h₀ = h := Option.some.inj (hd₀.symm.trans hd)
  have houtcome := RedPitayaHardware.isMeasurementComplete_answers hx hrest rfl hplays h₀ w.time
    hrunning _ h' t hrun
  have hheard : Heard x inp (w.calls ++ [⟨.isMeasurementComplete, complete, w.time, t⟩]) :=
    hw.heard.append_other fun size h => by cases h
  obtain ⟨hcomplete, hrunning'⟩ | ⟨hcomplete, hfin, hanswers⟩ := houtcome
  · cases hcomplete
    refine ⟨⟨.of_scoped hs (hrunning'.scoped hx) hheard.fresh, hheard⟩, fun h => ?_, fun _ => ?_⟩
    · obtain rfl | ⟨what, rfl⟩ := hreply <;> cases h
    · refine ⟨hs, hheard, h', m, c, earlier,
        polls ++ [⟨.isMeasurementComplete, false, w.time, t⟩], a₀, b₀, a, b, rfl, hrunning',
        hplays, ?_, ?_, hcb⟩
      · show w.calls ++ _ = _
        rw [hcalls]
        simp
      · intro e he
        rcases List.mem_append.1 he with he | he
        · exact hpolls e he
        · rw [List.mem_singleton.1 he]
  · cases hcomplete
    refine ⟨⟨.of_scoped hs hfin.scoped hheard.fresh, hheard⟩, fun _ => ?_, fun h => ?_⟩
    · refine ⟨hs, hheard, h', m, c, earlier, polls, a₀, b₀, a, b, w.time, t, rfl, hfin, hanswers,
        ?_, hpolls, hcb⟩
      show w.calls ++ _ = _
      rw [hcalls]
    · obtain rfl | ⟨what, rfl⟩ := hreply <;> cases h

/-- While the handler waits time passes. -/
theorem keeps_playing (hx : Follows System.tick x inp) {c : ServerCall}
    (hc : ∀ {w : Instrument} {r w'}, Instrument.Step x inp w c r w' → w.Waits inp w') :
    Keeps (instrument x inp) (SignalPlaying x inp signal)
      (Act.call (I := server) c : Method (server.Reply c)) :=
  Keeps.call fun _ _ _ _ hw hstep => hw.waits hx (hc hstep)

theorem triple_waitLoopPlaying (hx : Follows System.tick x inp) (hrest : ∀ v, Rested (x v))
    (start timeoutMs : ℤ) (rounds : ℕ) :
    Triple (instrument x inp) (SignalPlaying x inp signal) (waitLoop start timeoutMs rounds)
      fun r s w => Sounding x inp s w ∧ (r = .ok true → SignalPlayed x inp signal s w) := by
  induction rounds with
  | zero => exact Triple.throw fun s w hw => ⟨hw.sounding hx, fun h => by cases h⟩
  | succ rounds ih =>
      refine Triple.bind (triple_pollPlaying hx hrest) (fun complete => ?_)
        fun e s w hw => ⟨hw.1, fun h => by cases h⟩
      refine Triple.ite (fun hcomplete => ?_) fun hcomplete => ?_
      · rw [hcomplete]
        exact Triple.pure fun s w hw => ⟨hw.1, fun _ => hw.2.1 rfl⟩
      refine Triple.conseq (P := SignalPlaying x inp signal) ?_ ?_ fun _ _ _ h => h
      · refine Triple.bind (keeps_playing hx fun h => h) (fun time => ?_)
          fun e s w hw => ⟨hw.sounding hx, fun h => by cases h⟩
        refine Triple.ite
          (fun _ => Triple.pure fun s w hw => ⟨hw.sounding hx, fun h => by cases h⟩) fun _ => ?_
        exact Triple.bind (keeps_playing hx fun h => h) (fun _ => ih)
          fun e s w hw => ⟨hw.sounding hx, fun h => by cases h⟩
      · intro s w hw
        have hfalse : complete = false := by simpa using hcomplete
        exact hw.2.2 (by rw [hfalse])

theorem triple_waitPlaying (hx : Follows System.tick x inp) (hrest : ∀ v, Rested (x v)) :
    Triple (instrument x inp) (SignalPlaying x inp signal) (waitForMeasurement P) fun r s w =>
      Sounding x inp s w ∧ (r = .ok true → SignalPlayed x inp signal s w) := by
  refine Triple.bind (keeps_playing hx fun h => h) (fun start => ?_)
    fun e s w hw => ⟨hw.sounding hx, fun h => by cases h⟩
  refine Triple.read fun v => ?_
  exact (triple_waitLoopPlaying hx hrest _ _ _).conseq (fun _ _ h => h.2) fun _ _ _ h => h

/-- **What is read answers what was loaded.** -/
theorem triple_readPlayed (hx : Follows System.tick x inp) :
    Triple (instrument x inp) (SignalPlayed x inp signal)
      (hardwareCall (.getAcquiredSignal signal.length)) fun _ => Sounding x inp := by
  refine triple_hardwareCall (fun s w hw => hw.sounding) ?_
  intro s w reply w' hw hs hstep
  obtain ⟨hwaits, what, rfl⟩ | ⟨h, record, h', t, hd, hrun, rfl, -⟩ := hstep
  · exact hw.sounding.waits hx hwaits
  obtain ⟨h₀, m, c, earlier, polls, a₀, b₀, a, b, a', b', hd₀, hfin, hanswers, hcalls, hpolls,
    hcb⟩ := hw.finished
  obtain rfl : h₀ = h := Option.some.inj (hd₀.symm.trans hd)
  obtain ⟨hfin', hsignal⟩ :=
    RedPitayaHardware.getAcquiredSignal_reads hx h₀ w.time hfin _ h' t hrun
  have hheard : Heard x inp
      (w.calls ++ [⟨.getAcquiredSignal signal.length, record, w.time, t⟩]) := by
    refine hw.heard.append ?_
    intro size samples start stop heq
    cases heq
    refine ⟨signal, m, c, ⟨earlier, polls, a₀, b₀, a, b, a', b', hcalls, hpolls⟩,
      ⟨⟨earlier ++ [⟨.loadGenerationSignal signal, true, a₀, b₀⟩], polls,
        acquisitionDelaySamples, a, b, a', b', ?_, hpolls, hfin.le, hcb⟩,
        hfin.numSamples_eq, hfin.acquired.run, hfin.acquired.ended, hfin.acquired.finished,
        hsignal samples rfl⟩, ?_, hanswers samples (hsignal samples rfl)⟩
    · rw [hcalls]
      simp
    · rw [hfin.delay_eq]
      rfl
  exact ⟨.of_scoped hs hfin'.scoped hheard.fresh, hheard⟩

/-- **Start, wait and read**, with the signal loaded: a record that is read answers it. -/
theorem triple_loadedAcquire (hx : Follows System.tick x inp) (hrest : ∀ v, Rested (x v))
    (hpos : 0 < numSamples) (hlength : signal.length = numSamples) :
    Triple (instrument x inp) (SignalLoaded x inp signal) (acquire P numSamples)
      fun _ => Sounding x inp := by
  subst hlength
  refine Triple.bind (triple_startLoaded hx hpos) (fun started => ?_) fun e s w hw => hw.1
  refine Triple.ite (fun hstarted => ?_) fun _ => Triple.pure fun s w hw => hw.1
  rw [hstarted]
  refine Triple.conseq (P := SignalPlaying x inp signal) ?_ (fun s w hw => hw.2 rfl)
    fun _ _ _ h => h
  refine Triple.bind (triple_waitPlaying hx hrest) (fun complete => ?_) fun e s w hw => hw.1
  refine Triple.ite (fun hcomplete => ?_) fun _ => Triple.pure fun s w hw => hw.1
  rw [hcomplete]
  refine Triple.conseq (P := SignalPlayed x inp signal) ?_ (fun s w hw => hw.2 rfl)
    fun _ _ _ h => h
  refine Triple.bind (triple_readPlayed hx) (fun record => ?_) fun e s w hw => hw
  cases record with
  | none => exact Triple.pure fun s w hw => hw
  | some record => exact Triple.pure fun s w hw => hw

/-! ### Commands -/

/-- Leaving the scope of a measurement. -/
theorem triple_resetSounding (hx : Follows System.tick x inp) :
    Triple (instrument x inp) (Sounding x inp) resetMeasurement fun _ => Quiescent x inp := by
  have honly : Act.Only NoRecord resetMeasurement := by
    refine Act.Only.bind Act.Only.get fun s => Act.Only.ite ?_ (Act.Only.throw _)
    exact Act.Only.bind (Act.Only.call trivial) fun _ => Act.Only.pure _
  exact Triple.and (triple_resetMeasurement hx) (keeps_heard honly)

theorem triple_scopedLoaded (hx : Follows System.tick x inp) {α : Type} {body : Method α}
    {Pre : CommandHandler → Instrument → Prop}
    (hpre : ∀ s w inProgress, Pre s w →
      Pre { s with status := { s.status with measurementInProgress := inProgress } } w)
    (hbody : Triple (instrument x inp) Pre body fun _ => Sounding x inp) :
    Triple (instrument x inp) Pre (scopedMeasurement body) fun _ => Quiescent x inp := by
  refine Triple.modifyThen Pre (fun s w h => hpre s w true h) ?_
  refine Triple.withDestructor hbody fun r => ?_
  have hfin : Triple (instrument x inp) (Sounding x inp)
      (do Act.modify fun s => { s with status.measurementInProgress := false }
          resetMeasurement) fun _ => Quiescent x inp :=
    Triple.modifyThen (Sounding x inp) (fun s w hw => ⟨hw.1.of_same rfl, hw.2⟩)
      (triple_resetSounding hx)
  refine hfin.conseq (fun _ _ h => h) fun u s w hw => ?_
  cases u with
  | ok _ => exact hw
  | error _ => exact hw

theorem keeps_sounding_modify {f : CommandHandler → CommandHandler}
    (hf : ∀ s, (f s).hardware = s.hardware) :
    Keeps (instrument x inp) (Sounding x inp) (Act.modify f : Method Unit) :=
  Keeps.modify fun s _ hw => ⟨hw.1.of_same (hf s), hw.2⟩

theorem keeps_transformSounding (hx : Follows System.tick x inp) (p : FFTProcessor ℚ)
    (record : List ℚ) : Keeps (instrument x inp) (Sounding x inp) (transform P p record) := by
  refine Keeps.ite (fun _ => Keeps.throw _) fun _ => Keeps.ite (fun _ => Keeps.pure _) fun _ => ?_
  refine Keeps.bind (Keeps.call fun s w r w' hw hstep => hw.waits hx hstep) fun reply => ?_
  refine Keeps.bind (keeps_orThrow reply) fun _ => ?_
  exact Keeps.bind (keeps_sounding_modify fun _ => rfl) fun _ => Keeps.pure _

theorem keeps_analyzeSounding (hx : Follows System.tick x inp) (a : SincArgs) (record : List ℚ) :
    Keeps (instrument x inp) (Sounding x inp) (analyzeSinc P a record) := by
  refine Keeps.bind (keeps_sounding_modify fun _ => rfl) fun _ => ?_
  refine Keeps.bind Keeps.get fun s => ?_
  cases s.fftProcessor with
  | none => exact Keeps.throw _
  | some p => exact Keeps.bind (keeps_transformSounding hx p _) fun _ => Keeps.pure _

/-- The pulse has as many samples as the record. -/
theorem generateSinc_length {g : SignalGenerator ℚ} {centralFreq bandwidth : ℕ} {amplitude : ℚ}
    (h : g.generateSincSignal P.numerics numSamples centralFreq bandwidth amplitude = .ok signal) :
    signal.length = numSamples := by
  unfold SignalGenerator.generateSincSignal at h
  split_ifs at h
  obtain rfl := Except.ok.inj h
  simp

/-- So has the sine wave. -/
theorem generateSine_length {g : SignalGenerator ℚ} {frequency amplitude : ℚ}
    (h : g.generateSineWave P.numerics numSamples frequency amplitude = .ok signal) :
    signal.length = numSamples := by
  unfold SignalGenerator.generateSineWave at h
  split_ifs at h
  obtain rfl := Except.ok.inj h
  simp

/-- What the generator returns is as long as it always is. -/
theorem returns_generate {make : SignalGenerator ℚ → Except Text (List ℚ)}
    (h : ∀ g signal, make g = .ok signal → signal.length = numSamples) :
    Act.Returns (generate make) fun signal => signal.length = numSamples := by
  refine Act.Returns.bind fun s => ?_
  cases s.signalGen with
  | none => exact Act.Returns.throw
  | some g =>
      show Act.Returns (orThrow (make g)) _
      cases hmake : make g with
      | error what => exact Act.Returns.throw
      | ok signal => exact Act.Returns.pure (h g signal hmake)

/-- A signal is made and loaded. -/
theorem triple_generateAndLoad (hx : Follows System.tick x inp) (size : ℕ)
    {make : SignalGenerator ℚ → Except Text (List ℚ)}
    (hmake : ∀ g signal, make g = .ok signal → signal.length = size) {α : Type}
    {rest : (signal : List ℚ) → (HardwareCall.loadGenerationSignal signal).Result → Method α}
    {Q : Except Fault α → CommandHandler → Instrument → Prop}
    (herror : ∀ e s w, Quiescent x inp s w → Q (.error e) s w)
    (hfalse : ∀ signal, Triple (instrument x inp) (Quiescent x inp) (rest signal false) Q)
    (htrue : ∀ signal : List ℚ, signal.length = size →
      Triple (instrument x inp) (SignalLoaded x inp signal) (rest signal true) Q) :
    Triple (instrument x inp) (Quiescent x inp)
      (do let signal ← generate make
          let loaded ← hardwareCall (.loadGenerationSignal signal)
          rest signal loaded) Q := by
  have hgenerate : Keeps (instrument x inp) (Quiescent x inp) (generate make) :=
    keeps_quiescent hx (generate_reads _).only
  refine Triple.bind (hgenerate.and_returns (returns_generate hmake)) (fun signal => ?_)
    fun e s w hw => herror e s w hw.1
  intro s w hw
  have hlength := hw.2 signal rfl
  refine Triple.bind (triple_load hx) (fun loaded => ?_) (fun e s w hw => herror e s w hw.1) s w
    hw.1
  cases loaded with
  | false => exact (hfalse signal).conseq (fun _ _ h => h.1) fun _ _ _ h => h
  | true => exact (htrue signal hlength).conseq (fun _ _ h => h.2 rfl) fun _ _ _ h => h

theorem triple_runLoadedSinc (hx : Follows System.tick x inp) (hrest : ∀ v, Rested (x v))
    {a : SincArgs} (hpos : 0 < a.numSamples) (hlength : signal.length = a.numSamples) :
    Triple (instrument x inp) (SignalLoaded x inp signal) (runSinc P a)
      fun _ => Sounding x inp := by
  refine Triple.bind (triple_loadedAcquire hx hrest hpos hlength) (fun acquisition => ?_)
    fun _ _ _ h => h
  cases acquisition with
  | notStarted => exact Triple.pure fun _ _ h => h
  | timeout => exact Triple.pure fun _ _ h => h
  | notRead => exact Triple.pure fun _ _ h => h
  | samples record => exact keeps_analyzeSounding hx a _

theorem keeps_measureSincQuiescent (hx : Follows System.tick x inp) (hrest : ∀ v, Rested (x v))
    {a : SincArgs} (hpos : 0 < a.numSamples) :
    Keeps (instrument x inp) (Quiescent x inp) (measureSinc P a) := by
  refine Keeps.bind (keeps_quiescent hx (only_applyDecimation _)) fun taken => ?_
  refine Keeps.ite (fun _ => ?_) fun _ => Keeps.pure _
  refine Keeps.bind (Keeps.modify fun _ _ h => h) fun _ => ?_
  refine triple_generateAndLoad hx a.numSamples ?_ (fun _ _ _ h => h) (fun _ => Keeps.pure _)
    fun signal hlength => ?_
  · intro g signal h
    exact generateSinc_length h
  · exact triple_scopedLoaded hx (fun _ _ _ h => ⟨h.idle, h.heard, h.loaded⟩)
      (triple_runLoadedSinc hx hrest hpos hlength)

/-- **One point of a sweep after the other.** -/
theorem triple_sweepLoopQuiescent (hx : Follows System.tick x inp) (hrest : ∀ v, Rested (x v))
    (a : SweepArgs) (points : List ℕ) :
    ∀ spectrum, Triple (instrument x inp) (Quiescent x inp) (sweepLoop P a points spectrum)
      fun _ => Sounding x inp := by
  have hend (reply : Reply) :
      Triple (instrument x inp) (Quiescent x inp) (pure reply : Method Reply)
        fun _ => Sounding x inp :=
    Triple.pure fun s w hw => hw.sounding
  induction points with
  | nil =>
      intro spectrum
      exact hend _
  | cons point points ih =>
      intro spectrum
      refine Triple.bind (keeps_quiescent hx (Act.Only.call trivial)) (fun cancelled => ?_)
        fun _ _ _ h => h.sounding
      refine Triple.ite (fun _ => hend _) fun _ => ?_
      refine triple_generateAndLoad hx sweepSamples ?_ (fun _ _ _ h => h.sounding)
        (fun _ => hend _) fun signal hlength => ?_
      · intro g signal h
        exact generateSine_length h
      refine Triple.bind (triple_loadedAcquire hx hrest (by decide) hlength) (fun acquisition => ?_)
        fun _ _ _ h => h
      cases acquisition with
      | notStarted => exact Triple.pure fun _ _ h => h
      | timeout => exact Triple.pure fun _ _ h => h
      | notRead => exact Triple.pure fun _ _ h => h
      | samples record =>
          refine Triple.bind (keeps_sounding_modify fun _ => rfl) (fun _ => ?_) fun _ _ _ h => h
          -- the next point begins as the first one did
          exact Triple.bind (triple_resetSounding hx) (fun _ => ih _) fun _ _ _ h => h.sounding

theorem keeps_measureSweepQuiescent (hx : Follows System.tick x inp)
    (hrest : ∀ v, Rested (x v)) (a : SweepArgs) :
    Keeps (instrument x inp) (Quiescent x inp) (measureSweep P a) := by
  refine Keeps.bind (keeps_quiescent hx (only_applyDecimation _)) fun taken => ?_
  refine Keeps.ite (fun _ => ?_) fun _ => Keeps.pure _
  refine Keeps.bind (Keeps.modify fun _ _ h => h) fun _ => ?_
  exact triple_scopedLoaded hx (fun _ _ _ h => h) (triple_sweepLoopQuiescent hx hrest a _ _)

/-- Every command leaves only records that were heard. -/
theorem keeps_handleCommandQuiescent (hx : Follows System.tick x inp)
    (hrest : ∀ v, Rested (x v)) (cmd : ParsedCommand) :
    Keeps (instrument x inp) (Quiescent x inp) (handleCommand P cmd) := by
  by_cases hcmd : IsMeasure cmd
  · refine Keeps.ite (fun _ => Keeps.pure _) fun _ => ?_
    unfold dispatch
    rcases hcmd with hc | hc
    · rw [hc]
      exact keeps_checked fun s a ha => keeps_measureSincQuiescent hx hrest (sincArgs_valid ha).pos
    · rw [hc]
      exact keeps_checked fun s a _ => keeps_measureSweepQuiescent hx hrest a
  · exact keeps_quiescent hx (only_handleCommand hcmd)

/-! ### Sessions -/

variable {executed : List Executed} {s : CommandHandler} {w : Instrument}

theorem MeasureSession.heard (hx : Follows System.tick x inp) (hreset : (x 0).IsReset)
    (h : MeasureSession P x inp executed s w) : ∀ e ∈ executed, Heard x inp e.calls := by
  induction h with
  | start measurementTimeoutMs mode hsilent =>
      intro e he
      cases he
  | waits _ _ ih => exact ih
  | @command executed s s' w w' cmd result hsession hrun ih =>
      have hidle := (hsession.between hx hreset).idle
      have hquiescent : Quiescent x inp s { w with calls := [] } :=
        ⟨⟨hidle.toLow, hidle.known, fresh_nil⟩, heard_nil⟩
      have hafter := keeps_handleCommandQuiescent hx (rested_of_reset hx hreset) cmd s _ hquiescent
        _ s' w' hrun
      intro e he
      rcases List.mem_append.1 he with he | he
      · exact ih e he
      · rw [List.mem_singleton.1 he]
        exact hafter.2

/-- **Every record of a session answers its signal.**  After the reset of the FPGA, whatever commands
the server carries out, a record that a command has read was preceded by the load of a signal of the
same length and by a start; every voltage of that signal was on the converter for one period of the
decimation, and nothing else was; and every sample of the record is the average of the codes of the
ADC in a window that begins with the next voltage, but for the two cycles of the pipeline. -/
theorem records_answer_signals (hx : Follows System.tick x inp) (hreset : (x 0).IsReset)
    (h : MeasureSession P x inp executed s w) :
    ∀ e ∈ executed, ∀ before later size record a b,
      e.calls = before ++ ⟨.getAcquiredSignal size, some record, a, b⟩ :: later →
        ∃ signal m c, Answered x inp before a record signal m c :=
  fun e he => h.heard hx hreset e he

/-- One sample is played, and one is read. -/
theorem records_answer_signals_oneSample : ∃ executed s w,
    MeasureSession (flat .ieee) oneSampleRun oneSampleInput executed s w ∧
    ∃ e ∈ executed, ∃ before later size record a b,
      e.calls = before ++ ⟨.getAcquiredSignal size, some record, a, b⟩ :: later ∧
        ∃ signal m c, Answered oneSampleRun oneSampleInput before a record signal m c := by
  have hstart : MeasureSession (flat .ieee) oneSampleRun oneSampleInput [] (make 5000 .rpOnly)
      { time := 0 } := .start 5000 .rpOnly (by decide)
  have hsome : (CommandHandler.perform oneSampleRun oneSampleInput [{ command := .systInit },
      { command := .measSinc,
        args := ["1000".toList, "10".toList, "1".toList, "16".toList, "1".toList] }]
      [] (make 5000 .rpOnly) { time := 0 }).any (fun p =>
        p.1.any fun e => e.calls.any readsRecord) = true := by decide +kernel
  obtain ⟨⟨executed, s, w⟩, hperform, hread⟩ := (Option.any_eq_true ..).1 hsome
  simp only [List.any_eq_true] at hread
  obtain ⟨e, he, call, hcall, hrecord⟩ := hread
  have hsession := hstart.perform hperform
  obtain ⟨before, later, hsplit⟩ := List.append_of_mem hcall
  refine ⟨executed, s, w, hsession, e, he, ?_⟩
  unfold readsRecord at hrecord
  split at hrecord
  · rename_i size record a b
    exact ⟨before, later, size, record, a, b, hsplit, records_answer_signals
      (follows_run _ oneSampleInput) ⟨rfl, rfl, rfl, rfl, rfl⟩ hsession e he _ _ _ _ _ _ hsplit⟩
  · cases hrecord

end CommandHandler

end Afm
