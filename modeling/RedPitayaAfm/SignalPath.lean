/-
**From the signal to the record.**

The driver writes a signal into the shared memory, starts the controller, and reads the record from
the same words.  In between the words are codes of the DAC, and the record is made of the codes of
the ADC: this module follows both ways through the FPGA, for any signal, any settings and any ADC
stream.

Main definitions:

* `Afm.Fpga.Settings.codes`, `Afm.Fpga.Settings.average` — the codes the averager takes, and the
  voltage it makes of a window of them;
* `Afm.RedPitayaHardware.Loaded` — a signal is in the memory, and the controller is idle;
* `Afm.Fpga.Answers` — a record and the signal it answers.

Main results:

* `Afm.Fpga.word_of_runAt` — the word a measurement writes, from the codes of its window;
* `Afm.RedPitayaHardware.loadGenerationSignal_loads`,
  `Afm.RedPitayaHardware.startMeasurement_plays` — what is loaded is what is played;
* `Afm.Fpga.Acquired.answers` — **a record answers the signal that was loaded**.
-/

import RedPitayaAfm.RedPitayaHardware

set_option relaxedAutoImplicit false
set_option autoImplicit false

namespace Afm

open Effect Fpga Clocked

open Act (Confined)

namespace Fpga

/-! ### The words of a record -/

namespace Settings

variable (m : Settings)

/-- The codes of the ADC from the cycle on in which the acquisition of a measurement that was
started in cycle `c` is enabled. -/
def codes (inp : ℕ → Input) (c e : ℕ) : Code :=
  (inp (c + 2 + (m.delayCycles + 2 + e))).adcData

/-- The voltage made of window `k`: all its codes but the last, rounded to the precision gained. -/
def average (codes : ℕ → Code) (k : ℕ) : ℚ :=
  ((windowSum codes (k * m.decimation) (m.decimation - 1) / 2 ^ shiftAmount m.decimation : ℤ) : ℚ)
    / (2 ^ DacCodec.precisionBits m.decimation * 8191)

/-- The bounds of a word. -/
theorem window_bounds (codes : ℕ → Code) (k : ℕ) :
    -(2 ^ 13 * 2 ^ DacCodec.precisionBits m.decimation)
        ≤ windowSum codes (k * m.decimation) (m.decimation - 1) / 2 ^ shiftAmount m.decimation ∧
      windowSum codes (k * m.decimation) (m.decimation - 1) / 2 ^ shiftAmount m.decimation
        < 2 ^ 13 * 2 ^ DacCodec.precisionBits m.decimation := by
  obtain ⟨-, hsize⟩ := DacCodec.precisionBits_eq m.validDecimation
  have hsize' : (m.decimation : ℤ)
      = 2 ^ DacCodec.precisionBits m.decimation * 2 ^ shiftAmount m.decimation := by
    exact_mod_cast hsize
  have hpos : (0 : ℤ) < 2 ^ shiftAmount m.decimation := by positivity
  have hge := m.decimation_ge
  obtain ⟨hlow, hhigh⟩ := windowSum_bounds codes (k * m.decimation) (m.decimation - 1)
  constructor
  · rw [Int.le_ediv_iff_mul_le hpos, neg_mul, mul_assoc, ← hsize']
    omega
  · rw [Int.ediv_lt_iff_lt_mul hpos, mul_assoc, ← hsize']
    omega

/-- What the driver makes of such a word. -/
theorem adcToVoltage_eq_average {codes : ℕ → Code} {k : ℕ} {word : Word}
    (h : word.toInt = windowSum codes (k * m.decimation) (m.decimation - 1)
      / 2 ^ shiftAmount m.decimation) :
    DacCodec.adcToVoltage (word.setWidth 32) m.decimation = m.average codes k := by
  obtain ⟨hlow, hhigh⟩ := m.window_bounds codes k
  rw [← h] at hlow hhigh
  rw [DacCodec.adcToVoltage_word hlow hhigh, h, average]

end Settings

section Run

variable {m : Settings} {x : ℕ → System} {inp : ℕ → Input} {mem : ℕ → Word} {c : ℕ}

/-- **The accumulator all through a measurement.** -/
theorem acquires_of_runAt (hx : Follows System.tick x inp)
    (hrun : ∀ n ≤ m.lastCycle, RunAt m mem n (x (c + 2 + n))) :
    ∀ e, m.delayCycles + 2 + e ≤ m.lastCycle →
      Averager.Acquires 16 m.decimation (m.codes inp c) e
        (x (c + 2 + (m.delayCycles + 2 + e))).ctrl.averager := by
  -- the averager before and after a cycle of `RUNNING`
  have hstep : ∀ n ≤ m.lastCycle, (x (c + 2 + (n + 1))).ctrl.averager
      = (x (c + 2 + n)).ctrl.averager.tick (m.fsmAt n).acqEnabled m.decimation
          (if (m.fsmAt n).acqEnabled then (inp (c + 2 + n)).adcData else 0) := by
    intro n hn
    have htick : x (c + 2 + (n + 1)) = (x (c + 2 + n)).tick (inp (c + 2 + n)) := hx _
    rw [htick, ← (hrun n hn).fsm, ← (hrun n hn).decimation]
    rfl
  intro e
  induction e with
  | zero =>
      intro hle
      have hoff : (m.fsmAt (m.delayCycles + 1)).acqEnabled = false :=
        decide_eq_false (by omega)
      have hbefore := hstep (m.delayCycles + 1) (by omega)
      rw [hoff] at hbefore
      rw [show m.delayCycles + 2 + 0 = m.delayCycles + 1 + 1 by omega, hbefore]
      exact Averager.acquires_disabled _ _ _ _ _
  | succ e ih =>
      intro hle
      have hon : (m.fsmAt (m.delayCycles + 2 + e)).acqEnabled = true :=
        decide_eq_true (by omega)
      have hafter := hstep (m.delayCycles + 2 + e) (by omega)
      rw [hon, if_pos rfl] at hafter
      rw [← Nat.add_assoc (m.delayCycles + 2) e 1, hafter]
      exact (ih (by omega)).tick m.validDecimation

/-- **The word of a window** is the sum of all its codes but the last, shifted. -/
theorem word_of_runAt (hx : Follows System.tick x inp)
    (hrun : ∀ n ≤ m.lastCycle, RunAt m mem n (x (c + 2 + n))) {k : ℕ} (hk : k < m.numSamples) :
    (m.word x c k).toInt = windowSum (m.codes inp c) (k * m.decimation) (m.decimation - 1)
      / 2 ^ shiftAmount m.decimation := by
  have hge := m.decimation_ge
  have hlast := m.writeCycle_lt_lastCycle hk
  have hcycle : m.writeCycle k = m.delayCycles + 2 + (k + 1) * m.decimation := by
    unfold Settings.writeCycle Settings.period
    omega
  have hwe := ((hrun _ hlast.le).bramWe_iff hlast.le).2 ⟨k, hk, rfl⟩
  rw [hcycle] at hlast hwe
  have hword := (acquires_of_runAt hx hrun _ hlast.le).bramIn hwe
  rw [Nat.mul_div_cancel _ (by omega : 0 < m.decimation), Nat.add_sub_cancel] at hword
  rw [Settings.word, hcycle, ← Nat.add_assoc]
  exact hword

/-! ### A measurement that was started -/

/-- A measurement that was started and left alone, up to `END`. -/
theorem Started.runAt (hx : Follows System.tick x inp) (hrest : ∀ v, Rested (x v)) {t e : ℕ}
    (h : Started m x inp c t) (hce : c < e) (het : e ≤ t) (hend : (x e).endMeasure = true) :
    ∀ n ≤ m.lastCycle, RunAt m (x c).bram.mem n (x (c + 2 + n)) := by
  have hquiet : ∀ n, 0 < n → (∀ v ≤ n, (x (c + v)).endMeasure = false) →
      c + n < t := by
    intro n hn hlow
    by_contra hge
    obtain ⟨v, rfl⟩ := Nat.exists_eq_add_of_le hce.le
    rw [hlow v (by omega)] at hend
    cases hend
  have hall := runAt_all (hx.shift c) (hrest c) h.idle h.start h.sigSize h.delay h.decimation h.go
    fun n hn hlow => Bus.regWen_of_wen (h.quiet (c + n) (by omega) (hquiet n hn hlow))
  -- nothing reaches the memory before the controller runs
  have hidle₁ : (x (c + 1)).ctrl.fsm.state = .idle := by
    rw [hx c]
    exact idle_tick h.idle h.start
  have hone : c + 1 < t := by
    refine hquiet 1 Nat.one_pos fun v hv => ?_
    exact (hall 0 (Nat.zero_le _)).2 v (by omega)
  have hmem : (x (c + 2)).bram.mem = (x c).bram.mem := by
    rw [hx (c + 1), mem_tick_of_not_busy (busy_eq_false (by simp [hidle₁]))
        (Bus.writesBram_of_wen (h.quiet (c + 1) (by omega) hone)), hx c,
      mem_tick_of_not_busy (busy_eq_false (by simp [h.idle])) h.go.writesBram]
  intro n hn
  have hrun := (hall n hn).1
  rw [← Nat.add_assoc, hmem] at hrun
  exact hrun

/-- Only the words that are played count. -/
theorem PlaysOriginal.congr {mem mem' : ℕ → Word} {y : ℕ → System} {first : ℕ}
    (h : PlaysOriginal m mem y first) (hmem : ∀ k < m.numSamples, mem' k = mem k) :
    PlaysOriginal m mem' y first := by
  refine { h with word := fun k hk j hj => ?_ }
  rw [hmem k hk]
  exact h.word k hk j hj

/-- Such a measurement plays what was in the memory. -/
theorem Started.plays (hx : Follows System.tick x inp) (hrest : ∀ v, Rested (x v)) {t e : ℕ}
    (h : Started m x inp c t) (hce : c < e) (het : e ≤ t) (hend : (x e).endMeasure = true) :
    PlaysOriginal m (x c).bram.mem (fun n => x (c + n)) 2 := by
  refine playsOriginal_of_runAt (hx.shift c) (fun n => hrest (c + n)) (fun n hn => ?_)
    fun n hn => ?_
  · rcases Nat.le_one_iff_eq_zero_or_eq_one.1 (show n ≤ 1 by omega) with rfl | rfl
    · exact h.idle
    · show (x (c + 1)).ctrl.fsm.state = .idle
      rw [hx c]
      exact idle_tick h.idle h.start
  · rw [← Nat.add_assoc]
    exact h.runAt hx hrest hce het hend n hn

end Run

end Fpga

/-! ### The signal in the memory -/

/-- Word `k` of a signal, as the driver writes it. -/
def DacCodec.generationWord (signal : List ℚ) (k : ℕ) : Word :=
  (bramWord (signal.getD k 0)).setWidth 17

/-- The converter takes the code of the voltage from it. -/
theorem DacCodec.setWidth_generationWord {signal : List ℚ} {k : ℕ} (h : k < signal.length) :
    (generationWord signal k).setWidth 14 = (voltageToDac signal[k]).setWidth 14 := by
  rw [generationWord, List.getD_eq_getElem _ _ h, bramWord]
  ext i hi
  have hlt : i < 16 := by omega
  simp [BitVec.getLsbD_signExtend, hlt]
  omega

namespace RedPitayaHardware

variable {x : ℕ → System} {inp : ℕ → Input} {t t' t₀ : ℕ} {signal : List ℚ}

/-- The first `n` words of a signal are in the memory, and the controller is ready to play them. -/
structure Loaded (x : ℕ → System) (t₀ : ℕ) (signal : List ℚ) (n : ℕ) (h : RedPitayaHardware)
    (t : ℕ) : Prop extends Ready x t₀ h t where
  words : ∀ k < n, (x t).bram.mem k = DacCodec.generationWord signal k

/-- Accesses that leave `START` low and the memory as it is. -/
def KeepsMemory : MemoryCall → Prop
  | .writeBram _ _ => False
  | c => KeepsLow c

theorem KeepsMemory.keepsLow {c : MemoryCall} (h : KeepsMemory c) : KeepsLow c := by
  cases c with
  | writeBram i value => exact h.elim
  | _ => exact h

/-- None of them writes the memory. -/
theorem writesNothing_of_step {c : MemoryCall} {r : memory.Reply c}
    (hc : KeepsMemory c) (h : BusStep x inp t c r t') :
    t ≤ t' ∧ ∀ v, t ≤ v → v < t' → (inp v).bus.writesBram = false := by
  have hsilent {a : ℕ} (hs : Silent inp a t') :
      ∀ v, a ≤ v → v < t' → (inp v).bus.writesBram = false :=
    fun v hav hvt => Bus.writesBram_of_wen (hs v hav hvt).1
  have hacc {b : Bus} {u : ℕ} (ha : Access x inp t b u t') (hb : b.writesBram = false) :
      t ≤ t' ∧ ∀ v, t ≤ v → v < t' → (inp v).bus.writesBram = false := by
    refine ⟨(ha.lt.trans ha.gap).le, fun v htv hvt => ?_⟩
    rcases Nat.lt_or_eq_of_le htv with hlt | rfl
    · exact hsilent ha.silent v hlt hvt
    · rw [ha.strobe]
      exact hb
  cases c with
  | readReg index =>
      obtain ⟨u, ha, -⟩ := h
      exact hacc ha (Bus.writesBram_of_wen rfl)
  | writeReg index value =>
      obtain ⟨u, ha⟩ := h
      have hindex : index < 16 := by
        rcases hc with rfl | rfl | rfl | ⟨rfl, -⟩ <;> decide
      exact hacc ha (Bus.atReg_regWrite hindex value).writesBram
  | readBram i =>
      obtain ⟨u, ha, -⟩ := h
      exact hacc ha (Bus.writesBram_of_wen rfl)
  | writeBram i value => exact hc.elim
  | openMem | mapRegs | mapBram | unmapRegs | unmapBram | closeMem =>
      exact ⟨h.1, hsilent h.2⟩

variable {n : ℕ} {h : RedPitayaHardware}

/-- **While nothing is written and `START` is low, a signal stays in the memory.** -/
theorem Loaded.later (hx : Follows System.tick x inp) (hl : Loaded x t₀ signal n h t)
    (hoff : Off x t₀ h t') (hle : t ≤ t')
    (hwrites : ∀ v, t ≤ v → v < t' → (inp v).bus.writesBram = false) :
    Loaded x t₀ signal n h t' := by
  have hfrom := hl.le
  have hidle : ∀ v, t ≤ v → v ≤ t' → (x v).ctrl.fsm.state = .idle := fun v htv hvt =>
    idle_until hx hl.idle v htv fun w htw hwv => hoff.start w (by omega) (by omega)
  refine ⟨⟨hoff, hl.mapped, hidle t' hle le_rfl⟩, fun k hk => ?_⟩
  rw [mem_until hx t' hle fun v htv hvt =>
    ⟨busy_eq_false (by simp [hidle v htv hvt.le]), hwrites v htv hvt⟩]
  exact hl.words k hk

/-- Only the present counts for what comes next. -/
theorem Loaded.fromNow (hl : Loaded x t₀ signal n h t) : Loaded x t signal n h t :=
  ⟨⟨⟨hl.toCalm.low hl.toLow.now, hl.known⟩, hl.mapped, hl.idle⟩, hl.words⟩

theorem Loaded.step (hx : Follows System.tick x inp) {c : MemoryCall} {r : memory.Reply c}
    (hc : KeepsMemory c) (hl : Loaded x t₀ signal n h t) (hstep : BusStep x inp t c r t') :
    Loaded x t₀ signal n h t' := by
  obtain ⟨hle, hwrites⟩ := writesNothing_of_step hc hstep
  obtain ⟨hlow, hdec⟩ := BusStep.low hx hc.keepsLow hl.toLow hstep
  exact hl.later hx ⟨hlow, fun hm => (hl.known hm).trans hdec.symm⟩ hle hwrites

/-- Time passes. -/
theorem Loaded.silent (hx : Follows System.tick x inp) (hl : Loaded x t₀ signal n h t)
    (hle : t ≤ t') (hsilent : Silent inp t t') : Loaded x t₀ signal n h t' :=
  hl.step (c := .mapRegs) (r := true) hx trivial ⟨hle, hsilent⟩

/-- What the accesses of a method keep, the method keeps. -/
theorem keeps_loaded (hx : Follows System.tick x inp) {α : Type} {m : Method α}
    (hm : Confined KeepsMemory Eq m) : Keeps (systemBus x inp) (Loaded x t₀ signal n) m :=
  Keeps.of_reads hm fun hc hl hstep => hl.step hx hc hstep

theorem readStatus_keepsMemory : Confined KeepsMemory Eq readStatus :=
  Confined.bind Confined.get fun _ =>
    Confined.ite (Confined.call (show regStatus < 16 by decide)) (Confined.pure _)

theorem clearStatus_keepsMemory : Confined KeepsMemory Eq clearStatus :=
  ifMapped_reads (Confined.bind (Confined.call (.inl rfl)) fun _ => Confined.pure _)

/-- One more word of the signal. -/
theorem Loaded.write (hx : Follows System.tick x inp) (hl : Loaded x t₀ signal n h t)
    (hn : n < maxSamples) (hsignal : n < signal.length)
    (hstep : BusStep x inp t (.writeBram n (DacCodec.bramWord signal[n])) () t') :
    Loaded x t₀ signal (n + 1) h t' := by
  obtain ⟨hlow, hdec⟩ := BusStep.low hx (show KeepsLow (.writeBram n _) from hn) hl.toLow hstep
  have hoff : Off x t₀ h t' := ⟨hlow, fun hm => (hl.known hm).trans hdec.symm⟩
  obtain ⟨u, hacc⟩ := hstep
  have hlt := hacc.lt
  have hgap := hacc.gap
  have hfrom := hl.le
  have hidle : ∀ v, t ≤ v → v ≤ t' → (x v).ctrl.fsm.state = .idle := fun v htv hvt =>
    idle_until hx hl.idle v htv fun w htw hwv => hlow.start w (by omega) (by omega)
  have hbusy : ∀ v, t ≤ v → v < t' → (x v).busy = false := fun v htv hvt =>
    busy_eq_false (by simp [hidle v htv hvt.le])
  -- the word is written in the cycle of the strobe, and nothing after it
  have hat := Bus.atBram_bramWrite hn (DacCodec.bramWord signal[n])
  have hafter : (x (t + 1)).bram.mem
      = Function.update (x t).bram.mem n (DacCodec.generationWord signal n) := by
    have hword : DacCodec.generationWord signal n = (DacCodec.bramWord signal[n]).setWidth 17 := by
      rw [DacCodec.generationWord, List.getD_eq_getElem _ _ hsignal]
    rw [hx t, hword]
    show ((x t).bramTick (inp t).bus).mem = _
    rw [hacc.strobe, System.bramTick, hbusy t le_rfl (by omega)]
    simp only [Bram.tick, Bus.bramPsReq, Bus.writesBram, hat.selSharedBram, hat.bramAddrPs]
    rfl
  have hlater : (x t').bram.mem = (x (t + 1)).bram.mem :=
    mem_until hx t' (by omega) fun v htv hvt =>
      ⟨hbusy v (by omega) hvt, Bus.writesBram_of_wen (hacc.silent v htv hvt).1⟩
  refine ⟨⟨hoff, hl.mapped, hidle t' (by omega) le_rfl⟩, fun k hk => ?_⟩
  rw [hlater, hafter]
  rcases Nat.lt_or_eq_of_le (Nat.le_of_lt_succ hk) with hlt | rfl
  · rw [Function.update_of_ne hlt.ne]
    exact hl.words k hlt
  · exact Function.update_self ..

/-- The loop writes the rest of the signal. -/
theorem writeSamples_loads (hx : Follows System.tick x inp) (hsize : signal.length ≤ maxSamples) :
    ∀ (rest : List ℚ) (i : ℕ), signal.drop i = rest →
      Triple (systemBus x inp) (Loaded x t₀ signal i) (writeSamples i rest)
        fun _ => Loaded x t₀ signal signal.length := by
  intro rest
  induction rest with
  | nil =>
      intro i hrest
      refine Triple.pure fun h t hl => ⟨hl.toReady, fun k hk => hl.words k ?_⟩
      exact hk.trans_le (List.drop_eq_nil_iff.1 hrest)
  | cons voltage rest ih =>
      intro i hrest
      have hi : i < signal.length := by
        by_contra hge
        rw [List.drop_eq_nil_of_le (not_lt.1 hge)] at hrest
        cases hrest
      rw [List.drop_eq_getElem_cons hi] at hrest
      obtain ⟨rfl, hnext⟩ := List.cons.inj hrest
      refine Triple.callThen (fun _ => Loaded x t₀ signal (i + 1)) ?_ fun _ => ih _ hnext
      intro h t hl r t' hstep
      exact hl.write hx (by omega) hi hstep

/-- **A signal that is loaded is in the memory.** -/
theorem loadGenerationSignal_loads (hx : Follows System.tick x inp) :
    Triple (systemBus x inp) (Off x t₀) (loadGenerationSignal signal)
      fun r h t => r = .ok true → Loaded x t₀ signal signal.length h t := by
  have hfalse : Triple (systemBus x inp) (Off x t₀) (pure false : Method Bool)
      fun r h t => r = .ok true → Loaded x t₀ signal signal.length h t :=
    Triple.pure fun h t _ htrue => by cases htrue
  refine Triple.ite (fun hsize => ?_) fun _ => hfalse
  have hle : signal.length ≤ maxSamples := of_decide_eq_true hsize
  refine Triple.read fun v => Triple.ite (fun hmapped => ?_) fun _ =>
    hfalse.conseq (fun _ _ h => h.2) fun _ _ _ h => h
  refine Triple.bind (Q := fun r h t => ∀ done, r = .ok done → done.isSome = true →
    Loaded x t₀ signal signal.length h t) ?_ (fun done => Triple.pure ?_) fun e => e.elim
  · refine Triple.conseq (P := fun h t => Off x t₀ h t ∧ h.isMapped = true) ?_ ?_
      fun _ _ _ h => h
    · refine Triple.bind (readStatus_ready hx) (fun status => ?_) fun e => e.elim
      refine Triple.ite (fun _ => Triple.pure ?_) fun hstatus => ?_
      · intro h t _ done hdone hsome
        cases hdone
        cases hsome
      rw [not_not] at hstatus
      -- a controller that is not busy stays idle while the words are written
      refine Triple.conseq (P := Loaded x t₀ signal 0) ?_ (fun h t hoff =>
        ⟨hoff.2.2 status rfl hstatus, fun k hk => absurd hk (Nat.not_lt_zero k)⟩)
        fun _ _ _ h => h
      refine Triple.bind (keeps_loaded hx clearStatus_keepsMemory) (fun _ => ?_) fun e => e.elim
      refine Triple.bind (writeSamples_loads hx hle signal 0 rfl) (fun _ => ?_) fun e => e.elim
      refine Triple.bind (keeps_loaded hx readStatus_keepsMemory) (fun status => ?_) fun e => e.elim
      exact Triple.ite (fun _ => Triple.pure fun h t hl done _ _ => hl)
        fun _ => Triple.pure fun h t hl done _ _ => hl
    · intro h t hP
      exact ⟨hP.2, hP.1 ▸ hmapped⟩
  · intro h t hl htrue
    exact hl done rfl (by simpa using htrue)

/-! ### The signal on the converter -/

variable {numSamples delaySamples c : ℕ} {m : Settings}

/-- The signal was in the memory in the cycle in which the measurement was started. -/
def PlaysFrom (x : ℕ → System) (signal : List ℚ) (n c : ℕ) : Prop :=
  ∀ k < n, (x c).bram.mem k = DacCodec.generationWord signal k

theorem keeps_loaded_writeReg (hx : Follows System.tick x inp) {index value : ℕ}
    (hc : KeepsMemory (.writeReg index value)) :
    Keeps (systemBus x inp) (Loaded x t₀ signal n) (writeReg index value) :=
  keeps_loaded hx (Confined.call hc)

/-- The size and the delay are written beside the signal. -/
theorem writeSigSize_loaded (hx : Follows System.tick x inp) (hsize : numSamples ≤ maxSamples) :
    Triple (systemBus x inp) (Loaded x t₀ signal n) (writeReg regSigSize numSamples)
      fun _ h t => Loaded x t₀ signal n h t ∧ (x t).reg.sigSize = numSamples := by
  have hkeeps : Keeps (systemBus x inp) (Loaded x t₀ signal n) (writeReg regSigSize numSamples) :=
    keeps_loaded_writeReg hx (.inr (.inl rfl))
  exact (hkeeps.and (writeSigSize_ready hx hsize)).conseq (fun h t hl => ⟨hl, hl.toReady⟩)
    fun r h t hQ => ⟨hQ.1, hQ.2.2⟩

theorem writeDelay_loaded (hx : Follows System.tick x inp) {d : ℕ} (hd : d < 2 ^ 32) :
    Triple (systemBus x inp)
      (fun h t => Loaded x t₀ signal n h t ∧ (x t).reg.sigSize = numSamples)
      (writeReg regDelay d) fun _ h t => Loaded x t₀ signal n h t ∧
        (x t).reg.sigSize = numSamples ∧ (x t).reg.delay = d := by
  have hkeeps : Keeps (systemBus x inp) (Loaded x t₀ signal n) (writeReg regDelay d) :=
    keeps_loaded_writeReg hx (.inr (.inr (.inl rfl)))
  exact (hkeeps.and (writeDelay_ready hx hd)).conseq
    (fun h t hl => ⟨hl.1, hl.1.toReady, hl.2⟩) fun r h t hQ => ⟨hQ.1, hQ.2.2⟩

/-- The start of the controller finds the signal. -/
theorem writeStart_plays (hx : Follows System.tick x inp) (hpos : 0 < numSamples)
    (hsize : numSamples ≤ maxSamples) (hdelay : delaySamples ≤ maxDelaySamples) :
    Triple (systemBus x inp) (fun h t => Loaded x t₀ signal n h t ∧
        (x t).reg.sigSize = numSamples ∧
        (x t).reg.delay = if delaySamples = 0 then 1 else delaySamples)
      (writeReg regStartMeasure 1) fun _ h t => ∃ m c,
        Running x inp numSamples delaySamples t₀ m c h t ∧ PlaysFrom x signal n c := by
  refine Triple.call ?_
  intro h t hP r t' hstep
  obtain ⟨hl, hsig, hdel⟩ := hP
  obtain ⟨u, hacc⟩ := hstep
  have hdec := hl.known hl.mapped
  have hgo := hacc.writes (by decide) (by decide)
  exact ⟨settingsOf h numSamples delaySamples (hdec ▸ hl.decimation) hpos hsize hdelay, t,
    ⟨⟨hacc.answered hx, hl.mapped, rfl, rfl, rfl, hl.le⟩,
      hacc.lt.trans hacc.gap, hl.idle, hl.now, hsig, hdel, hdec.symm, hgo,
      fun v htv hvt => (hacc.silent v htv hvt).1⟩, hl.words⟩

/-- **What is loaded is what a measurement plays.** -/
theorem startMeasurement_plays (hx : Follows System.tick x inp) (hpos : 0 < numSamples) :
    Triple (systemBus x inp) (Loaded x t₀ signal n) (startMeasurement numSamples delaySamples)
      fun r h t => (r = .ok false ∧ Off x t₀ h t) ∨ r = .ok true ∧ ∃ m c,
        Running x inp numSamples delaySamples t₀ m c h t ∧ PlaysFrom x signal n c := by
  have hfalse {P : RedPitayaHardware → ℕ → Prop} (hP : ∀ h t, P h t → Off x t₀ h t) :
      Triple (systemBus x inp) P (pure false : Method Bool) fun r h t =>
        (r = .ok false ∧ Off x t₀ h t) ∨ r = .ok true ∧ ∃ m c,
          Running x inp numSamples delaySamples t₀ m c h t ∧ PlaysFrom x signal n c :=
    Triple.pure fun h t hoff => .inl ⟨rfl, hP h t hoff⟩
  refine Triple.ite (fun hvalid => ?_) fun _ => hfalse fun h t hl => hl.toOff
  rw [Bool.and_eq_true] at hvalid
  have hsize : numSamples ≤ maxSamples := of_decide_eq_true hvalid.1
  have hdelay : delaySamples ≤ maxDelaySamples := of_decide_eq_true hvalid.2
  have hlt : (if delaySamples = 0 then 1 else delaySamples) < 2 ^ 32 := by
    unfold maxDelaySamples at hdelay
    split <;> omega
  refine Triple.read fun v => Triple.ite (fun _ => ?_) fun _ => hfalse fun h t hl => hl.2.toOff
  refine Triple.conseq (P := Loaded x t₀ signal n) ?_ (fun _ _ h => h.2) fun _ _ _ h => h
  refine Triple.bind (keeps_loaded hx readStatus_keepsMemory) (fun status => ?_) fun e => e.elim
  refine Triple.ite (fun _ => hfalse fun h t hl => hl.toOff) fun _ => ?_
  -- the settings are written beside the signal
  refine Triple.bind (writeSigSize_loaded hx hsize) (fun _ => ?_) fun e => e.elim
  refine Triple.bind (writeDelay_loaded hx hlt) (fun _ => ?_) fun e => e.elim
  exact Triple.bind (writeStart_plays hx hpos hsize hdelay)
    (fun _ => Triple.pure fun _ _ h => .inr ⟨rfl, h⟩) fun e => e.elim

/-- Asking for the end leaves a measurement alone. -/
theorem keeps_running (hx : Follows System.tick x inp) :
    Keeps (systemBus x inp) (Running x inp numSamples delaySamples t₀ m c)
      isMeasurementComplete := by
  refine Keeps.bind Keeps.get fun v => Keeps.ite (fun _ => ?_) fun _ => Keeps.pure _
  refine Keeps.bind (Keeps.call ?_) fun _ => Keeps.pure _
  intro h t value t' hrun hstep
  obtain ⟨u, hacc, -⟩ := hstep
  refine ⟨{ hrun.toMeasures with answered := hacc.answered hx },
    hrun.started.mono (hacc.lt.trans hacc.gap).le fun v htv hvt => ?_⟩
  rcases Nat.lt_or_eq_of_le htv with hlt | rfl
  · exact (hacc.silent v hlt hvt).1
  · rw [hacc.strobe]
    rfl

end RedPitayaHardware

/-! ### The record answers the signal -/

namespace Fpga

/-- A measurement `m` that was started in cycle `c` has played the signal, and the record is what
the ADC saw meanwhile. -/
structure Answers (x : ℕ → System) (inp : ℕ → Input) (signal : List ℚ) {size : ℕ}
    (record : Fin size → ℚ) (m : Settings) (c : ℕ) : Prop where
  length : signal.length = size
  /-- Each voltage of the signal is on the converter for one period of the decimation. -/
  played : ∀ k (hk : k < signal.length), ∀ j < m.decimation,
    (x (c + 6 + (k * m.decimation + j))).genOut = (DacCodec.voltageToDac signal[k]).setWidth 14
  /-- Nothing else is, from the start of the measurement to its end. -/
  quiet : ∀ t, c ≤ t → t ≤ c + 2 + m.lastCycle →
    t < c + 6 ∨ c + 6 + size * m.decimation ≤ t → (x t).genOut = 0
  /-- Each sample of the record is the average of a window of the ADC. -/
  recorded : ∀ k : Fin size, record k = m.average (m.codes inp c) k

/-- **A measurement that has run answers its signal.** -/
theorem Started.answers {x : ℕ → System} {inp : ℕ → Input} {m : Settings} {c t e : ℕ}
    {signal : List ℚ} {size : ℕ} {record : Fin size → ℚ} (hx : Follows System.tick x inp)
    (hrest : ∀ v, Rested (x v)) (h : Started m x inp c t) (hce : c < e) (het : e ≤ t)
    (hend : (x e).endMeasure = true) (hsize : m.numSamples = size)
    (hlength : signal.length = size)
    (hmem : RedPitayaHardware.PlaysFrom x signal size c)
    (hrecord : ∀ k : Fin size, record k = RedPitayaHardware.voltage x m c k) :
    Answers x inp signal record m c := by
  subst hsize
  have hplays : PlaysOriginal m (DacCodec.generationWord signal) (fun n => x (c + n)) 2 :=
    (h.plays hx hrest hce het hend).congr fun k hk => (hmem k hk).symm
  refine ⟨hlength, fun k hk j hj => ?_, fun v hcv hv hout => ?_, fun k => ?_⟩
  · have hword := hplays.word k (by omega) j hj
    rw [show c + 6 + (k * m.decimation + j) = c + (2 + 4 + (k * m.decimation + j)) by omega,
      ← DacCodec.setWidth_generationWord hk]
    exact hword
  · obtain ⟨v, rfl⟩ := Nat.exists_eq_add_of_le hcv
    rcases hout with hbefore | hafter
    · exact hplays.before v (by omega)
    · exact hplays.after v (by omega) fun u hu huv => by omega
  · rw [hrecord k]
    exact m.adcToVoltage_eq_average (word_of_runAt hx (h.runAt hx hrest hce het hend) k.isLt)

end Fpga

namespace RedPitayaHardware

variable {x : ℕ → System} {inp : ℕ → Input} {numSamples delaySamples t₀ c : ℕ} {m : Settings}
  {signal : List ℚ}

/-- **A measurement that is complete has played its signal**, and what is read of it answers the
signal. -/
theorem isMeasurementComplete_answers (hx : Follows System.tick x inp)
    (hrest : ∀ v, Rested (x v)) (hlength : signal.length = numSamples)
    (hmem : PlaysFrom x signal numSamples c) :
    Triple (systemBus x inp) (Running x inp numSamples delaySamples t₀ m c) isMeasurementComplete
      fun r h t => (r = .ok false ∧ Running x inp numSamples delaySamples t₀ m c h t) ∨
        r = .ok true ∧ Finished x numSamples delaySamples t₀ m c h t ∧
          ∀ record : Fin numSamples → ℚ, (∀ k, record k = voltage x m c k) →
            Answers x inp signal record m c := by
  refine ((isMeasurementComplete_acquired hx hrest).and (keeps_running hx)).conseq
    (fun _ _ h => ⟨h, h⟩) ?_
  intro r h t hQ
  obtain ⟨⟨hr, hrun⟩ | ⟨hr, hfin⟩, hstarted⟩ := hQ
  · exact .inl ⟨hr, hrun⟩
  refine .inr ⟨hr, hfin, fun record hrecord => ?_⟩
  have hended := hfin.acquired.ended
  -- `END` rose in the cycle after the last one
  have hend : (x (c + (2 + m.lastCycle + 1))).endMeasure = true := hfin.acquired.run.rises.2
  exact hstarted.started.answers hx hrest (by omega) (by omega) hend hfin.numSamples_eq hlength hmem
    hrecord

end RedPitayaHardware

end Afm
