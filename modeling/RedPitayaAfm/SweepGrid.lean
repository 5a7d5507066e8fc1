/-
**The grid of a sweep.**

`MEASURE:SWEEP` measures the points of a grid from the start frequency in steps up to the stop
frequency.  How many points there are, and which is the first above zero, is found by rounding down
with a relative tolerance, and the last point is cut off at the stop frequency.  All of this is about
the formulas in exact arithmetic.

Main definitions:

* `Afm.CommandHandler.SweepArgs.frequencies` — the frequencies of a sweep;
* `Afm.CommandHandler.Grid` — a complete and valid grid;
* `Afm.CommandHandler.excitations` — what a run loads and starts;
* `Afm.CommandHandler.Sweeps` — a sweep excites with the sines of its grid, one after the other.

Main results:

* `Afm.CommandHandler.Valid.grid` — what passes the checks has a complete and valid grid;
* `Afm.CommandHandler.sweepLoop_excites` — what the loop over the points loads and starts;
* `Afm.CommandHandler.sweep_grid` — **a sweep measures a complete and valid grid**.
-/

import RedPitayaAfm.HandlerRejects

set_option relaxedAutoImplicit false
set_option autoImplicit false

namespace Afm

namespace CommandHandler

open Effect

/-- The frequencies of a sweep, in kHz. -/
def SweepArgs.frequencies (a : SweepArgs) : List ℚ :=
  (List.range' a.firstPoint (a.numPoints - a.firstPoint)).map (sweepFrequency .exact a)

/-! ### The grid -/

/-- A complete and valid grid. -/
structure Grid (a : SweepArgs) : Prop where
  consecutive : ∃ first count : ℕ, a.frequencies =
    (List.range' first count).map fun k : ℕ => min (a.startKHz + k * a.stepKHz) a.stopKHz
  length_le : a.frequencies.length ≤ 4096
  increasing : a.frequencies.Pairwise (· < ·)
  pos : ∀ f ∈ a.frequencies, 0 < f
  le_stop : ∀ f ∈ a.frequencies, f ≤ a.stopKHz
  nyquist : ∀ f ∈ a.frequencies, f * 1000 < ServerConfig.adcSampleRateHz / (2 * a.decimation)
  /-- Every point of the grid is measured once. -/
  complete : ∀ k : ℕ, a.startKHz + k * a.stepKHz ≤ a.stopKHz →
    1 / 1000000 * |a.startKHz| < a.startKHz + k * a.stepKHz →
    a.frequencies.count (a.startKHz + k * a.stepKHz) = 1
  last : ∃ f, a.frequencies.getLast? = some f ∧ a.stopKHz - a.stepKHz < f

section Grid

variable {s : CommandHandler} {a : SweepArgs}

/-- The number of steps from start to stop. -/
def SweepArgs.steps (a : SweepArgs) : ℚ := (a.stopKHz - a.startKHz) / a.stepKHz

theorem sweepStepTolerance_exact : sweepStepTolerance .exact = 1 / 1000000 := rfl

theorem sweepSteps_exact (distanceKHz stepKHz : ℚ) : sweepSteps .exact distanceKHz stepKHz =
    ⌊distanceKHz / stepKHz * (1 + sweepStepTolerance .exact)⌋ := rfl

theorem sweepFrequency_exact (a : SweepArgs) (k : ℕ) :
    sweepFrequency .exact a k = min (a.startKHz + k * a.stepKHz) a.stopKHz := rfl

theorem SweepArgs.Valid.start_lt (h : a.Valid .exact s) : a.startKHz < a.stopKHz := by
  obtain ⟨centerKHz, rangeKHz, hrange, hstart, hstop⟩ := h.range
  simp only [Arithmetic.exact_double] at hstart hstop
  linarith

theorem SweepArgs.Valid.steps_mul (h : a.Valid .exact s) :
    a.steps * a.stepKHz = a.stopKHz - a.startKHz :=
  div_mul_cancel₀ _ h.step_pos.ne'

theorem SweepArgs.Valid.steps_pos (h : a.Valid .exact s) : 0 < a.steps :=
  div_pos (sub_pos.2 h.start_lt) h.step_pos

/-- A point of the grid is within the range as long as its index is. -/
theorem SweepArgs.Valid.point_le_stop (h : a.Valid .exact s) (k : ℕ) :
    a.startKHz + k * a.stepKHz ≤ a.stopKHz ↔ (k : ℚ) ≤ a.steps := by
  rw [SweepArgs.steps, le_div_iff₀ h.step_pos]
  constructor
  · intro hk
    linarith
  · intro hk
    linarith

/-- The last index, with the tolerance. -/
theorem SweepArgs.Valid.lt_numPoints (h : a.Valid .exact s) (k : ℕ) :
    k < a.numPoints ↔ (k : ℚ) ≤ a.steps * (1 + sweepStepTolerance .exact) := by
  have hpos : 0 ≤ a.steps * (1 + sweepStepTolerance .exact) := by
    have := h.steps_pos
    rw [sweepStepTolerance_exact]
    positivity
  have hfloor : 0 ≤ ⌊a.steps * (1 + sweepStepTolerance .exact)⌋ := Int.floor_nonneg.2 hpos
  have hnum : (a.numPoints : ℤ) = ⌊a.steps * (1 + sweepStepTolerance .exact)⌋ + 1 := by
    rw [h.numPoints_eq]
    exact Int.toNat_of_nonneg (by unfold sweepPoints; exact Int.add_nonneg hfloor (by norm_num))
  rw [← Int.cast_natCast (R := ℚ) k, ← Int.le_floor]
  omega

/-- The tolerance is less than one step. -/
theorem SweepArgs.Valid.steps_lt (h : a.Valid .exact s) {k : ℕ} (hk : k + 1 < a.numPoints) :
    (k : ℚ) < a.steps := by
  have hle := (h.lt_numPoints (k + 1)).1 hk
  have hmax : (a.numPoints : ℚ) ≤ 4096 := by
    have := h.numPoints_le
    unfold ServerConfig.maxSweepPoints at this
    exact_mod_cast this
  have hsteps : a.steps < 4096 := by
    by_contra hge
    have hnot : ¬4096 < a.numPoints := by
      have := h.numPoints_le
      unfold ServerConfig.maxSweepPoints at this
      omega
    refine hnot ((h.lt_numPoints 4096).2 ?_)
    have hs := h.steps_pos
    rw [sweepStepTolerance_exact]
    push_cast
    nlinarith
  rw [sweepStepTolerance_exact] at hle
  push_cast at hle
  linarith

/-- The first index is the first above zero. -/
theorem SweepArgs.Valid.firstPoint_le (h : a.Valid .exact s) (k : ℕ) :
    a.firstPoint ≤ k ↔
      0 < a.startKHz ∨ -a.startKHz * (1 + sweepStepTolerance .exact) < k * a.stepKHz := by
  rw [h.firstPoint_eq, sweepFirstPoint]
  by_cases hstart : a.startKHz ≤ 0
  · have hquot : 0 ≤ -a.startKHz / a.stepKHz * (1 + sweepStepTolerance .exact) := by
      have := h.step_pos
      have : 0 ≤ -a.startKHz := by linarith
      rw [sweepStepTolerance_exact]
      positivity
    have hcancel : -a.startKHz / a.stepKHz * (1 + sweepStepTolerance .exact)
        = -a.startKHz * (1 + sweepStepTolerance .exact) / a.stepKHz := by ring
    have hfloor : 0 ≤ ⌊-a.startKHz / a.stepKHz * (1 + sweepStepTolerance .exact)⌋ :=
      Int.floor_nonneg.2 hquot
    have hlt : -a.startKHz * (1 + sweepStepTolerance .exact) < k * a.stepKHz ↔
        ⌊-a.startKHz / a.stepKHz * (1 + sweepStepTolerance .exact)⌋ < (k : ℤ) := by
      rw [Int.floor_lt, hcancel, div_lt_iff₀ h.step_pos]
      simp
    rw [if_pos hstart, hlt, sweepSteps_exact]
    constructor
    · intro hk
      right
      omega
    · rintro (hpos | hk)
      · exact absurd hstart (not_le.2 hpos)
      · omega
  · rw [if_neg hstart]
    exact ⟨fun _ => Or.inl (not_le.1 hstart), fun _ => Nat.zero_le _⟩

theorem SweepArgs.Valid.stop_pos (h : a.Valid .exact s) : 0 < a.stopKHz := by
  by_cases hstart : 0 < a.startKHz
  · exact hstart.trans h.start_lt
  · have hfirst := (h.firstPoint_le a.firstPoint).1 (le_refl _)
    have hlast := (h.lt_numPoints a.firstPoint).1 h.firstPoint_lt
    have hfirst := hfirst.resolve_left hstart
    have hmul := mul_le_mul_of_nonneg_right hlast h.step_pos.le
    have hsteps := h.steps_mul
    rw [sweepStepTolerance_exact] at hfirst hmul
    have hprod : a.steps * (1 + 1 / 1000000) * a.stepKHz
        = (a.stopKHz - a.startKHz) * (1 + 1 / 1000000) := by
      rw [← hsteps]
      ring
    linarith

theorem mem_frequencies (h : a.Valid .exact s) {f : ℚ} :
    f ∈ a.frequencies ↔ ∃ k, a.firstPoint ≤ k ∧ k < a.numPoints ∧ sweepFrequency .exact a k = f := by
  have hle := h.firstPoint_lt.le
  simp only [SweepArgs.frequencies, List.mem_map, List.mem_range'_1]
  constructor
  · rintro ⟨k, ⟨hk, hk'⟩, rfl⟩
    exact ⟨k, hk, by omega, rfl⟩
  · rintro ⟨k, hk, hk', rfl⟩
    exact ⟨k, ⟨hk, by omega⟩, rfl⟩

theorem sweepFrequency_pos (h : a.Valid .exact s) {k : ℕ} (hk : a.firstPoint ≤ k) :
    0 < sweepFrequency .exact a k := by
  rw [sweepFrequency_exact]
  refine lt_min ?_ h.stop_pos
  have hmul : 0 ≤ (k : ℚ) * a.stepKHz := mul_nonneg (Nat.cast_nonneg k) h.step_pos.le
  rcases (h.firstPoint_le k).1 hk with hstart | hk
  · linarith
  · rw [sweepStepTolerance_exact] at hk
    by_cases hstart : 0 < a.startKHz
    · linarith
    · linarith

theorem sweepFrequency_lt (h : a.Valid .exact s) {i j : ℕ} (hij : i < j) (hj : j < a.numPoints) :
    sweepFrequency .exact a i < sweepFrequency .exact a j := by
  have hlt : (i : ℚ) < a.steps := h.steps_lt (by omega)
  have hi : a.startKHz + i * a.stepKHz < a.stopKHz := by
    have hmul := mul_lt_mul_of_pos_right hlt h.step_pos
    rw [h.steps_mul] at hmul
    linarith
  have hstep : a.startKHz + i * a.stepKHz < a.startKHz + j * a.stepKHz := by
    have hcast : (i : ℚ) < j := by exact_mod_cast hij
    have hmul := mul_lt_mul_of_pos_right hcast h.step_pos
    linarith
  rw [sweepFrequency_exact, min_eq_left hi.le]
  exact lt_min hstep hi

theorem increasing_frequencies (h : a.Valid .exact s) : a.frequencies.Pairwise (· < ·) := by
  have hle := h.firstPoint_lt.le
  unfold SweepArgs.frequencies
  rw [List.pairwise_map]
  refine List.Pairwise.imp_of_mem ?_ List.pairwise_lt_range'
  intro i j _ hj hij
  have hj' := List.mem_range'_1.1 hj
  exact sweepFrequency_lt h hij (by omega)

theorem complete_frequencies (h : a.Valid .exact s) {k : ℕ}
    (hstop : a.startKHz + k * a.stepKHz ≤ a.stopKHz)
    (habove : 1 / 1000000 * |a.startKHz| < a.startKHz + k * a.stepKHz) :
    a.frequencies.count (a.startKHz + k * a.stepKHz) = 1 := by
  have hnodup : a.frequencies.Nodup := (increasing_frequencies h).imp fun hlt => hlt.ne
  refine List.count_eq_one_of_mem hnodup ((mem_frequencies h).2 ⟨k, ?_, ?_, min_eq_left hstop⟩)
  · rw [h.firstPoint_le]
    by_cases hstart : 0 < a.startKHz
    · exact Or.inl hstart
    · right
      rw [abs_of_nonpos (not_lt.1 hstart)] at habove
      rw [sweepStepTolerance_exact]
      linarith
  · rw [h.lt_numPoints]
    have hle := (h.point_le_stop k).1 hstop
    have hsteps := h.steps_pos
    rw [sweepStepTolerance_exact]
    linarith

theorem last_frequency (h : a.Valid .exact s) :
    ∃ f, a.frequencies.getLast? = some f ∧ a.stopKHz - a.stepKHz < f := by
  have hlt := h.firstPoint_lt
  refine ⟨sweepFrequency .exact a (a.numPoints - 1), ?_, ?_⟩
  · unfold SweepArgs.frequencies
    rw [List.getLast?_map, List.getLast?_range', if_neg (by omega)]
    simp only [Option.map_some, Option.some.injEq]
    congr 1
    omega
  · have hbeyond : a.steps < ((a.numPoints - 1 : ℕ) : ℚ) + 1 := by
      have hnot := mt (h.lt_numPoints a.numPoints).2 (lt_irrefl _)
      have hsteps := h.steps_pos
      have hcast : ((a.numPoints - 1 : ℕ) : ℚ) + 1 = a.numPoints := by
        have : (a.numPoints - 1) + 1 = a.numPoints := by omega
        exact_mod_cast this
      rw [sweepStepTolerance_exact] at hnot
      rw [hcast]
      linarith
    have hmul := mul_lt_mul_of_pos_right hbeyond h.step_pos
    rw [h.steps_mul] at hmul
    rw [sweepFrequency_exact]
    refine lt_min ?_ ?_
    · linarith
    · linarith [h.step_pos]

/-- **What passes the checks has a complete and valid grid.** -/
theorem SweepArgs.Valid.grid (h : a.Valid .exact s) : Grid a where
  consecutive := ⟨a.firstPoint, a.numPoints - a.firstPoint, rfl⟩
  length_le := by
    have hle := h.numPoints_le
    unfold ServerConfig.maxSweepPoints at hle
    simp only [SweepArgs.frequencies, List.length_map, List.length_range']
    omega
  increasing := increasing_frequencies h
  pos := by
    intro f hf
    obtain ⟨k, hk, -, rfl⟩ := (mem_frequencies h).1 hf
    exact sweepFrequency_pos h hk
  le_stop := by
    intro f hf
    obtain ⟨k, -, -, rfl⟩ := (mem_frequencies h).1 hf
    exact min_le_right _ _
  nyquist := by
    intro f hf
    obtain ⟨k, -, -, rfl⟩ := (mem_frequencies h).1 hf
    have hle : sweepFrequency .exact a k ≤ a.stopKHz := min_le_right _ _
    have hnyquist := h.nyquist
    simp only [Arithmetic.exact_double] at hnyquist
    linarith
  complete := fun k hstop habove => complete_frequencies h hstop habove
  last := last_frequency h

end Grid

/-! ### What a sweep measures -/

/-- The loading of an excitation and the start of a measurement. -/
def excitation : ServerCall → Option HardwareCall
  | .hardware (.loadGenerationSignal signal) => some (.loadGenerationSignal signal)
  | .hardware (.startMeasurement numSamples delaySamples) =>
      some (.startMeasurement numSamples delaySamples)
  | _ => none

/-- What a run loads and starts, in this order. -/
def excitations (calls : Calls) : List HardwareCall := calls.filterMap fun call => excitation call.1

/-- A measurement with an excitation: it is loaded, and the measurement is started. -/
def measuring (signal : List ℚ) : List HardwareCall :=
  [.loadGenerationSignal signal, .startMeasurement sweepSamples acquisitionDelaySamples]

section Excites

variable {P : Platform} {a : SweepArgs} {g : SignalGenerator ℚ} {shown : List HardwareCall}

/-- Between two calls of a sweep: its generator, and what has been loaded and started so far. -/
def Shows (g : SignalGenerator ℚ) (shown : List HardwareCall) (s : CommandHandler) (calls : Calls) :
    Prop :=
  s.signalGen = some g ∧ excitations calls = shown

/-- The method loads and starts no more than this, and all of it when it returns. -/
def Excites {α : Type} (g : SignalGenerator ℚ) (shown more : List HardwareCall) (m : Method α) :
    Prop :=
  Triple journal (Shows g shown) m fun r s calls =>
    match r with
    | .ok _ => Shows g (shown ++ more) s calls
    | .error _ => excitations calls <+: shown ++ more

theorem excitations_append (calls : Calls) (c : ServerCall) (reply : server.Reply c) :
    excitations (calls ++ [⟨c, reply⟩]) = excitations calls ++ (excitation c).toList := by
  unfold excitations
  rw [List.filterMap_append]
  cases hc : excitation c <;> simp [hc]

/-- A method that reads the fields and makes no such call. -/
theorem excites_of_reads {α : Type} {m : Method α}
    (hm : Act.Confined (fun c => excitation c = none) Eq m) : Excites g shown [] m := by
  have hkeeps : Keeps journal (Shows g shown) m := by
    refine Keeps.of_reads hm ?_
    rintro s (calls : Calls) c reply (calls' : Calls) hc hshown hstep
    have hcalls' : calls' = calls ++ [⟨c, reply⟩] := hstep
    rw [hcalls']
    exact ⟨hshown.1, by rw [excitations_append, hc, hshown.2]; simp⟩
  refine hkeeps.conseq (fun _ _ h => h) fun r s calls h => ?_
  rw [List.append_nil]
  cases r with
  | ok v => exact h
  | error e => exact h.2 ▸ List.prefix_refl _

/-- A call of the hardware. -/
theorem excites_hardwareCall (c : HardwareCall) :
    Excites g shown (excitation (.hardware c)).toList (hardwareCall c) := by
  rintro s (calls : Calls) hshown r s' (calls' : Calls) hrun
  obtain ⟨rfl, ⟨-, reply, hstep, rfl⟩ | ⟨rfl, rfl⟩⟩ := hardwareCall_cases hrun
  · have hcalls' : calls' = calls ++ [⟨.hardware c, reply⟩] := hstep
    have hshows : Shows g (shown ++ (excitation (.hardware c)).toList) s' calls' := by
      rw [hcalls']
      exact ⟨hshown.1, by rw [excitations_append, hshown.2]⟩
    cases reply with
    | ok v => exact hshows
    | error what => exact hshows.2 ▸ List.prefix_refl _
  · exact hshown.2 ▸ List.prefix_append _ _

/-- The rule for sequences. -/
theorem Excites.bind {α β : Type} {m : Method α} {f : α → Method β} {more rest : List HardwareCall}
    (hm : Excites g shown more m) (hf : ∀ v, Excites g (shown ++ more) rest (f v)) :
    Excites g shown (more ++ rest) (m >>= f) := by
  refine Triple.bind hm (fun v => ?_) fun e s calls h => ?_
  · refine (hf v).conseq (fun _ _ h => h) fun r s calls h => ?_
    cases r <;> simpa using h
  · rw [← List.append_assoc]
    exact List.IsPrefix.trans h (List.prefix_append _ _)

/-- A measurement is started once. -/
theorem excites_acquire (numSamples : ℕ) :
    Excites g shown [.startMeasurement numSamples acquisitionDelaySamples]
      (acquire P numSamples) := by
  have hwait : Act.Confined (fun c => excitation c = none) Eq (waitForMeasurement P) :=
    waitForMeasurement_reads (C := fun c => excitation c = none) rfl rfl (fun _ => rfl) P
  have hstart : Excites g shown [.startMeasurement numSamples acquisitionDelaySamples]
      (hardwareCall (.startMeasurement numSamples acquisitionDelaySamples)) :=
    excites_hardwareCall _
  refine hstart.bind fun started => excites_of_reads ?_
  refine Act.Confined.ite (Act.Confined.bind hwait fun complete => ?_) (Act.Confined.pure _)
  refine Act.Confined.ite (Act.Confined.bind (hardwareCall_reads rfl) fun record => ?_)
    (Act.Confined.pure _)
  cases record with
  | none => exact Act.Confined.pure _
  | some record => exact Act.Confined.pure _

/-- A signal is generated without a call. -/
theorem triple_generate {β : Type} {signal : SignalGenerator ℚ → Except Text (List ℚ)}
    {samples : List ℚ} {next : List ℚ → Method β}
    {R : Except Fault β → CommandHandler → Calls → Prop} (h : signal g = .ok samples)
    (hnext : Triple journal (Shows g shown) (next samples) R) :
    Triple journal (Shows g shown) (generate signal >>= next) R := by
  rintro s (calls : Calls) hshown r s' (calls' : Calls) hrun
  have hgenerate : generate signal s = .done (.ok samples, s) := by
    simp only [generate, Act.bind_apply, Act.get_apply, Prog.bind_done, hshown.1, h]
    rfl
  rw [Act.bind_apply, hgenerate] at hrun
  exact hnext s calls hshown r s' calls' hrun

/-- How a sweep ends: it has loaded and started no more than was planned, and all of it, with the
planned frequencies, when it replies with a spectrum. -/
structure Swept (planned : List HardwareCall) (labels : List ℚ) (r : Except Fault Reply)
    (calls : Calls) : Prop where
  partly : excitations calls <+: planned
  wholly : ∀ spectrum, r = .ok (.spectrum spectrum) →
    excitations calls = planned ∧ spectrum.map (·.freqKHz) = labels

/-- A sweep that is given up. -/
theorem swept_error {planned : List HardwareCall} {labels : List ℚ} (h : shown <+: planned)
    {status : ResponseStatus} {message : Text} :
    Triple journal (Shows g shown) (pure (.error status message) : Method Reply)
      fun r _ calls => Swept planned labels r calls :=
  Triple.pure fun s calls hshown => ⟨hshown.2 ▸ h, fun spectrum hr => by cases hr⟩

/-- **What the loop over the points loads and starts.** -/
theorem sweepLoop_excites {signal : ℕ → List ℚ} {points : List ℕ} {spectrum : List SpectrumPoint}
    (h : ∀ point ∈ points, g.generateSineWave P.numerics sweepSamples
      (P.arithmetic.double (sweepFrequency P.arithmetic a point * 1000)) a.amplitude
        = .ok (signal point)) :
    Triple journal (Shows g shown) (sweepLoop P a points spectrum) fun r _ calls =>
      Swept (shown ++ points.flatMap fun point => measuring (signal point))
        (spectrum.map (·.freqKHz) ++
          points.map fun point => P.arithmetic.single (sweepFrequency P.arithmetic a point))
        r calls := by
  induction points generalizing spectrum shown with
  | nil =>
      refine Triple.pure fun s calls hshown => ⟨?_, ?_⟩
      · rw [hshown.2]
        exact List.prefix_append _ _
      · rintro _ ⟨⟩
        simp [hshown.2]
  | cons point points ih =>
      have hload : shown ++ [.loadGenerationSignal (signal point)] <+: shown ++
          (point :: points).flatMap fun point => measuring (signal point) := by
        rw [List.prefix_append_right_inj]
        exact List.prefix_append _ _
      have hstart : shown ++ [.loadGenerationSignal (signal point)] ++
          [.startMeasurement sweepSamples acquisitionDelaySamples] <+: shown ++
            (point :: points).flatMap fun point => measuring (signal point) := by
        rw [List.append_assoc, List.prefix_append_right_inj]
        exact List.prefix_append _ _
      rw [sweepLoop]
      refine Triple.callThen (fun _ => Shows g shown) ?_ fun cancelled => ?_
      · rintro s (calls : Calls) hshown reply (calls' : Calls) hstep
        have hcalls' : calls' = calls ++ [⟨.cancelCheck, reply⟩] := hstep
        rw [hcalls']
        exact ⟨hshown.1, by rw [excitations_append, hshown.2]; simp [excitation]⟩
      refine Triple.ite (fun _ => swept_error (List.prefix_append _ _)) fun _ => ?_
      refine triple_generate (h point List.mem_cons_self) ?_
      refine Triple.bind (excites_hardwareCall (.loadGenerationSignal (signal point)))
        (fun loaded => ?_) fun e s calls herror =>
          ⟨List.IsPrefix.trans herror hload, fun _ hr => by cases hr⟩
      refine Triple.ite (fun _ => ?_) fun _ => swept_error hload
      refine Triple.bind (excites_acquire sweepSamples) (fun acquisition => ?_)
        fun e s calls herror => ⟨List.IsPrefix.trans herror hstart, fun _ hr => by cases hr⟩
      cases acquisition with
      | notStarted => exact swept_error hstart
      | timeout => exact swept_error hstart
      | notRead => exact swept_error hstart
      | samples record =>
          refine Triple.modifyThen (Shows g _) (fun s calls hshown => hshown) ?_
          refine Triple.bind (excites_of_reads (resetMeasurement_reads rfl)) (fun _ => ?_)
            fun e s calls herror => ⟨?_, fun _ hr => by cases hr⟩
          · refine (ih fun point hpoint => h point (List.mem_cons_of_mem _ hpoint)).conseq
              (fun _ _ hshown => hshown) fun r s calls hswept => ?_
            simpa [measuring, sweepPoint, excitation] using hswept
          · rw [List.append_nil] at herror
            exact List.IsPrefix.trans herror hstart

end Excites

section Sweep

variable {P : Platform} {s : CommandHandler} {a : SweepArgs} {cmd : ParsedCommand}

/-- The generator of a sweep. -/
def SweepArgs.generator (a : SweepArgs) : SignalGenerator ℚ :=
  ⟨ServerConfig.adcSampleRateHz / a.decimation, a.decimation⟩

/-- The excitation at a frequency in kHz. -/
def SweepArgs.sineWave (P : Platform) (a : SweepArgs) (freqKHz : ℚ) : Except Text (List ℚ) :=
  a.generator.generateSineWave P.numerics sweepSamples (P.arithmetic.double (freqKHz * 1000))
    a.amplitude

/-- A sweep that has passed its checks excites with these signals, one for each frequency of its
grid: each is loaded, and then one measurement is started. -/
structure Sweeps (P : Platform) (s : CommandHandler) (cmd : ParsedCommand) (a : SweepArgs)
    (signals : List (List ℚ)) : Prop where
  signals_eq : a.frequencies.map (a.sineWave P) = signals.map .ok
  /-- However the command ends, and all the way when it replies with a spectrum. -/
  swept : ∀ r s' (calls : Calls), Runs journal [] (handleMeasSweep P cmd s) (r, s') calls →
    Swept (signals.flatMap measuring) a.frequencies r calls
  /-- It can reply with a spectrum. -/
  completes : 0 < P.rounds → s.hardware = true → ∃ spectrum s', ∃ calls : Calls,
    Runs journal [] (handleMeasSweep P cmd s) (.ok (.spectrum spectrum), s') calls

/-- A new decimation is set, and nothing is loaded. -/
theorem triple_applyDecimation {decimation : ℕ} (hd : decimation ≠ 0) :
    Triple journal (fun _ (calls : Calls) => calls = []) (applyDecimation decimation)
      fun r s (calls : Calls) => excitations calls = [] ∧ (r = .ok true →
        s.signalGen = some ⟨ServerConfig.adcSampleRateHz / decimation, decimation⟩) := by
  rintro s calls rfl r s' (calls' : Calls) hrun
  by_cases hh : s.hardware = true
  · obtain ⟨reply, hstep, rfl, rfl⟩ := (applyDecimation_runs hh hd).1 hrun
    have hcalls' : calls' = [⟨.hardware (.setDecimation decimation), reply⟩] := hstep
    refine ⟨by rw [hcalls']; rfl, fun hok => ?_⟩
    obtain rfl : reply = .ok true := by
      cases reply with
      | ok taken => cases hok; rfl
      | error what => cases hok
    simp [withDecimation]
  · -- without hardware the first call throws
    rcases Act.runs_bind.1 hrun with ⟨e, rfl, hcall⟩ | ⟨taken, s₁, calls₁, hcall, -⟩
    · obtain ⟨-, ⟨hset, -⟩ | ⟨-, rfl⟩⟩ := hardwareCall_cases hcall
      · exact absurd hset hh
      · exact ⟨rfl, fun hr => by cases hr⟩
    · obtain ⟨-, ⟨hset, -⟩ | ⟨hr, -⟩⟩ := hardwareCall_cases hcall
      · exact absurd hset hh
      · cases hr

/-- The destructor of the measurement loads nothing. -/
theorem swept_scopedMeasurement {planned : List HardwareCall} {labels : List ℚ}
    {g : SignalGenerator ℚ} {body : Method Reply}
    (h : Triple journal (Shows g []) body fun r _ calls => Swept planned labels r calls) :
    Triple journal (Shows g []) (scopedMeasurement body)
      fun r _ calls => Swept planned labels r calls := by
  refine Triple.modifyThen (Shows g []) (fun s calls hshown => hshown) ?_
  refine Triple.withDestructor h fun r => ?_
  have hfin : Act.Only (fun c => excitation c = none) (do
      Act.modify fun s : CommandHandler => { s with status.measurementInProgress := false }
      resetMeasurement) :=
    Act.Only.bind (Act.Only.modify _) fun _ =>
      (resetMeasurement_reads (C := fun c => excitation c = none) rfl).only
  have hkeeps : Keeps journal (fun _ (calls : Calls) => Swept planned labels r calls) (do
      Act.modify fun s : CommandHandler => { s with status.measurementInProgress := false }
      resetMeasurement) := by
    refine Keeps.of_only hfin ?_
    rintro (calls : Calls) c reply (calls' : Calls) hc hswept hstep
    have hcalls' : calls' = calls ++ [⟨c, reply⟩] := hstep
    have hsame : excitations calls' = excitations calls := by
      rw [hcalls', excitations_append, hc]
      exact List.append_nil _
    exact ⟨hsame ▸ hswept.partly, fun spectrum hr => hsame ▸ hswept.wholly spectrum hr⟩
  refine hkeeps.conseq (fun _ _ hswept => hswept) fun u s calls hswept => ?_
  cases u with
  | ok v => exact hswept
  | error e => exact ⟨hswept.partly, fun _ hr => by cases hr⟩

/-- **What a sweep loads and starts.** -/
theorem swept_measureSweep {signal : ℕ → List ℚ} (hd : a.decimation ≠ 0)
    (h : ∀ point ∈ List.range' a.firstPoint (a.numPoints - a.firstPoint),
      a.sineWave P (sweepFrequency P.arithmetic a point) = .ok (signal point)) :
    Triple journal (fun _ (calls : Calls) => calls = []) (measureSweep P a) fun r _ (calls : Calls) =>
      Swept ((List.range' a.firstPoint (a.numPoints - a.firstPoint)).flatMap fun point =>
          measuring (signal point))
        ((List.range' a.firstPoint (a.numPoints - a.firstPoint)).map fun point =>
          P.arithmetic.single (sweepFrequency P.arithmetic a point)) r calls := by
  refine Triple.bind (triple_applyDecimation hd) (fun applied => ?_) fun e s calls hnone =>
    ⟨by rw [hnone.1]; exact List.nil_prefix, fun _ hr => by cases hr⟩
  refine Triple.ite (fun happlied => ?_) fun _ => Triple.pure fun s calls hnone =>
    ⟨by rw [hnone.1]; exact List.nil_prefix, fun _ hr => by cases hr⟩
  refine Triple.modifyThen (Shows a.generator []) (fun s calls hnone => ?_) ?_
  · exact ⟨hnone.2 (by rw [happlied]), hnone.1⟩
  · refine swept_scopedMeasurement ?_
    exact sweepLoop_excites h

/-! ### A sweep comes to its end -/

/-- On devices that do their part the loop measures all its points. -/
theorem exists_sweepLoop {g : SignalGenerator ℚ} {signal : ℕ → List ℚ} {points : List ℕ}
    (hr : 0 < P.rounds)
    (h : ∀ point ∈ points, g.generateSineWave P.numerics sweepSamples
      (P.arithmetic.double (sweepFrequency P.arithmetic a point * 1000)) a.amplitude
        = .ok (signal point))
    (hh : s.hardware = true) (hg : s.signalGen = some g) (spectrum : List SpectrumPoint)
    (calls : Calls) : ∃ result s', ∃ calls' : Calls,
      Runs journal calls (sweepLoop P a points spectrum s) (.ok (.spectrum result), s') calls' ∧
        s'.hardware = true := by
  induction points generalizing spectrum s calls with
  | nil => exact ⟨spectrum, s, calls, Runs.done _ _, hh⟩
  | cons point points ih =>
      have hgenerate : ∀ calls : Calls, Runs journal calls (generate (fun g =>
          g.generateSineWave P.numerics sweepSamples
            (P.arithmetic.double (sweepFrequency P.arithmetic a point * 1000)) a.amplitude) s)
          (.ok (signal point), s) calls := by
        intro calls
        simp only [generate, Act.bind_apply, Act.get_apply, Prog.bind_done, hg,
          h point List.mem_cons_self]
        exact Runs.done _ _
      -- the round: not cancelled, loaded, measured, and the next round follows
      have hload := exists_hardwareCall hh (.loadGenerationSignal (signal point)) true
        (calls ++ [⟨.cancelCheck, false⟩])
      obtain ⟨record, calls₁, hacquire⟩ := exists_acquire (P := P) hr hh sweepSamples
        (calls ++ [⟨.cancelCheck, false⟩] ++ [⟨.hardware (.loadGenerationSignal (signal point)),
          .ok true⟩])
      obtain ⟨result, s', calls', hrest, hh'⟩ := ih
        (fun point hpoint => h point (List.mem_cons_of_mem _ hpoint))
        (s := s.addSaturation (SaturationDetector.analyze (List.ofFn record))) hh hg
        (spectrum ++ [sweepPoint P (ServerConfig.adcSampleRateHz / a.decimation)
          (sweepFrequency P.arithmetic a point) (List.ofFn record)])
        (calls₁ ++ [⟨.resetMeasurement, true⟩])
      refine ⟨result, s', calls', ?_, hh'⟩
      refine Act.runs_bind_ok.2 ⟨false, s, _, Runs.call rfl (Runs.done _ _), ?_⟩
      refine Act.runs_bind_ok.2 ⟨signal point, s, _, hgenerate _, ?_⟩
      refine Act.runs_bind_ok.2 ⟨true, s, _, hload, ?_⟩
      refine Act.runs_bind_ok.2 ⟨.samples record, s, _, hacquire, ?_⟩
      refine Act.runs_bind_ok.2 ⟨(), _, _, Runs.done _ _, ?_⟩
      have hreset := exists_resetMeasurement
        (s := s.addSaturation (SaturationDetector.analyze (List.ofFn record))) hh calls₁
      exact Act.runs_bind_ok.2 ⟨(), _, _, hreset, hrest⟩

/-- A sweep can reply with a spectrum. -/
theorem exists_measureSweep {signal : ℕ → List ℚ} (hr : 0 < P.rounds) (hh : s.hardware = true)
    (hd : a.decimation ≠ 0)
    (h : ∀ point ∈ List.range' a.firstPoint (a.numPoints - a.firstPoint),
      a.sineWave P (sweepFrequency P.arithmetic a point) = .ok (signal point)) :
    ∃ spectrum s', ∃ calls : Calls,
      Runs journal [] (measureSweep P a s) (.ok (.spectrum spectrum), s') calls := by
  have happly : Runs journal [] (applyDecimation a.decimation s)
      (.ok true, s.withDecimation a.decimation)
      [⟨.hardware (.setDecimation a.decimation), .ok true⟩] :=
    (applyDecimation_runs hh hd).2 ⟨.ok true, rfl, rfl, by simp⟩
  obtain ⟨result, s₁, calls₁, hloop, hh₁⟩ := exists_sweepLoop (s :=
    { (s.withDecimation a.decimation).trackExcitationAmplitude a.amplitude with
      status.measurementInProgress := true }) hr h hh rfl []
    [⟨.hardware (.setDecimation a.decimation), .ok true⟩]
  obtain ⟨s', calls', hscope⟩ := exists_scopedMeasurement hloop hh₁
  refine ⟨result, s', calls', Act.runs_bind_ok.2 ⟨true, _, _, happly, ?_⟩⟩
  exact Act.runs_bind_ok.2 ⟨(), _, _, Runs.done _ _, hscope⟩

/-- **A sweep measures a complete and valid grid**: what passes the checks has one, and the command
excites with its frequencies, one after the other, each once. -/
theorem sweep_grid (h : s.sweepArgs .exact cmd = .ok a) :
    Grid a ∧ ∀ P : Platform, P.arithmetic = .exact → ∃ signals, Sweeps P s cmd a signals := by
  have hvalid := sweepArgs_valid h
  refine ⟨hvalid.grid, fun P hexact => ?_⟩
  -- the generator accepts every frequency of the grid
  have hsine : ∀ f ∈ a.frequencies, ∃ signal, a.sineWave P f = .ok signal := by
    intro f hf
    have hpos := hvalid.grid.pos f hf
    have hnyquist := hvalid.grid.nyquist f hf
    have hhalf : a.generator.samplingFrequency / 2
        = ServerConfig.adcSampleRateHz / (2 * a.decimation) := by
      rw [SweepArgs.generator, div_div, mul_comm (a.decimation : ℚ) 2]
    have hsamples : sweepSamples ≠ 0 := by decide
    have hfrequency : 0 ≤ f * 1000 := by positivity
    have hband : f * 1000 < a.generator.samplingFrequency / 2 := by rw [hhalf]; exact hnyquist
    obtain ⟨signal, hsignal, -⟩ := SignalGenerator.generateSineWave_eq_ok (N := P.numerics)
      hsamples hfrequency hband ⟨hvalid.amplitude_pos.le, hvalid.amplitude_le⟩
    refine ⟨signal, ?_⟩
    rw [SweepArgs.sineWave, hexact]
    exact hsignal
  have hsignal : ∀ point, ∃ signal, point ∈ List.range' a.firstPoint (a.numPoints - a.firstPoint) →
      a.sineWave P (sweepFrequency P.arithmetic a point) = .ok signal := by
    intro point
    by_cases hpoint : point ∈ List.range' a.firstPoint (a.numPoints - a.firstPoint)
    · rw [hexact]
      obtain ⟨signal, hsignal⟩ := hsine _ (List.mem_map_of_mem hpoint)
      exact ⟨signal, fun _ => hsignal⟩
    · exact ⟨[], fun hmem => absurd hmem hpoint⟩
  choose signal hsignal using hsignal
  have hd := Fpga.ne_zero_of_isValidDecimation hvalid.validDecimation
  have hpoints : ∀ point ∈ List.range' a.firstPoint (a.numPoints - a.firstPoint),
      a.sineWave P (sweepFrequency P.arithmetic a point) = .ok (signal point) := hsignal
  have hcommand : ∀ {r s'} {calls : Calls}, Runs journal [] (handleMeasSweep P cmd s) (r, s') calls ↔
      Runs journal [] (measureSweep P a s) (r, s') calls := by
    intro r s' calls
    rw [← hexact] at h
    simp only [handleMeasSweep, checked, Act.bind_apply, Act.get_apply, Prog.bind_done, h]
  refine ⟨(List.range' a.firstPoint (a.numPoints - a.firstPoint)).map signal, ?_, ?_, ?_⟩
  · rw [SweepArgs.frequencies, List.map_map, List.map_map]
    refine List.map_congr_left fun point hpoint => ?_
    have hpoint := hpoints point hpoint
    rw [hexact] at hpoint
    exact hpoint
  · intro r s' calls hrun
    have hswept := swept_measureSweep hd hpoints s [] rfl r s' calls (hcommand.1 hrun)
    rw [hexact] at hswept
    rw [List.flatMap_map]
    exact hswept
  · intro hr hh
    obtain ⟨spectrum, s', calls, hrun⟩ := exists_measureSweep hr hh hd hpoints
    exact ⟨spectrum, s', calls, hcommand.2 hrun⟩

/-- `MEASURE:SWEEP 1,4`: from -1 kHz to 3 kHz, measured from 1 kHz on. -/
theorem sweep_grid_below_zero :
    SweepArgs.frequencies ⟨64, 1, -1, 3, 1, 2, 5⟩ = [1, 2, 3] ∧ Grid ⟨64, 1, -1, 3, 1, 2, 5⟩ ∧
      ∀ P : Platform, P.arithmetic = .exact → ∃ signals, Sweeps P initialized
        { command := .measSweep, args := ["1".toList, "4".toList] } ⟨64, 1, -1, 3, 1, 2, 5⟩
        signals := by
  have hargs : initialized.sweepArgs .exact
      { command := .measSweep, args := ["1".toList, "4".toList] } = .ok ⟨64, 1, -1, 3, 1, 2, 5⟩ := by
    decide +kernel
  exact ⟨by decide +kernel, sweep_grid hargs⟩

end Sweep

end CommandHandler

end Afm
