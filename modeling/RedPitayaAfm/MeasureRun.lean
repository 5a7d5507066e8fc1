/-
**One measurement of the FPGA.**

The DAC path reads the shared memory while the ADC path overwrites it.  Nothing but the timing
keeps them apart: the controller starts the acquisition a programmed delay after the generation,
and pipelines of known length lie before both ports.  This module follows a measurement from the
write of `START` to `END`, with any number of samples, decimation and delay the software allows,
any memory contents and any ADC stream.

Main definitions:

* `Afm.Fpga.Settings.readCycle`, `Afm.Fpga.Settings.writeCycle` — when word `k` is read and when it
  is written;
* `Afm.Fpga.RunAt` — the invariant of a running measurement;
* `Afm.Fpga.ExactRun`, `Afm.Fpga.PlaysOriginal` — what a measurement does.

Main results:

* `Afm.Fpga.RunAt.tick` — the invariant is preserved by every clock edge;
* `Afm.Fpga.acquires_exactly` — **a measurement acquires exactly its words, and then stops**;
* `Afm.Fpga.plays_original` — **generation is not corrupted by in-place acquisition**.
-/

import RedPitayaAfm.PsPlInterface

set_option relaxedAutoImplicit false
set_option autoImplicit false

namespace Afm

namespace Fpga

open Clocked

/-! ### The timetable -/

namespace Settings

variable (m : Settings)

/-- The first cycle of period `k` of a decimation counter. -/
def period (k : ℕ) : ℕ := k * m.decimation

/-- The cycle of `RUNNING` in which word `k` is read for the DAC. -/
def readCycle (k : ℕ) : ℕ := m.period k + 2

/-- The cycle of `RUNNING` in which the averaged word `k` is written. -/
def writeCycle (k : ℕ) : ℕ := m.delayCycles + m.period (k + 1) + 2

theorem period_succ (k : ℕ) : m.period (k + 1) = m.period k + m.decimation := Nat.succ_mul _ _

theorem period_mono {j k : ℕ} (h : j ≤ k) : m.period j ≤ m.period k := Nat.mul_le_mul_right _ h

theorem period_numSamples : m.period m.numSamples = m.genCycles := rfl

theorem lt_of_period_lt {j k : ℕ} (h : m.period j < m.period k) : j < k := by
  by_contra hle
  exact absurd (m.period_mono (not_lt.1 hle)) (by omega)

theorem period_inj {j k : ℕ} (h : m.period j = m.period k) : j = k := by
  have hge := m.decimation_ge
  exact Nat.eq_of_mul_eq_mul_right (by omega) h

/-- Phase and period of a cycle. -/
theorem phase_iff {r : ℕ} (hr : r < m.decimation) (n k : ℕ) :
    n % m.decimation = r ∧ n / m.decimation = k ↔ n = m.period k + r :=
  mod_div_eq_iff hr n k

/-- **Every word is read before it is written.** -/
theorem readCycle_lt_writeCycle (k : ℕ) : m.readCycle k < m.writeCycle k := by
  have hge := m.decimation_ge
  have hsucc := m.period_succ k
  unfold readCycle writeCycle
  omega

/-- The last write comes before the end. -/
theorem writeCycle_lt_lastCycle {k : ℕ} (hk : k < m.numSamples) :
    m.writeCycle k < m.lastCycle := by
  have hmono := m.period_mono (show k + 1 ≤ m.numSamples from hk)
  rw [period_numSamples] at hmono
  unfold writeCycle lastCycle propagationDelay
  omega

theorem writeCycle_inj {j k : ℕ} (h : m.writeCycle j = m.writeCycle k) : j = k := by
  have hper : m.period (j + 1) = m.period (k + 1) := by
    unfold writeCycle at h
    omega
  have := m.period_inj hper
  omega

end Settings

/-! ### The invariant of a measurement -/

/-- The system in cycle `n` of `RUNNING`, when the memory held `mem` at first. -/
structure RunAt (m : Settings) (mem : ℕ → Word) (n : ℕ) (s : System) : Prop where
  sigSize : s.reg.sigSize = m.numSamples
  delay : s.reg.delay = m.delay
  decimation : s.reg.decimation = m.decimation
  thr : s.ctrl.thr = m.thresholds
  fsm : s.ctrl.fsm = m.fsmAt n
  decimator : s.ctrl.decimator =
    if n ≤ m.genCycles + 3 then m.decimatorAt (fun k => (mem k).setWidth 14) (n - 1) else {}
  averager : s.ctrl.averager.Counts 16 m.decimation (n - (m.delayCycles + 2))
  /-- The word read in the cycle before. -/
  dout : ∀ k < m.numSamples, n = m.readCycle k + 1 → s.bram.doutA = mem k
  /-- A word is the original one until it is written. -/
  original : ∀ k < m.numSamples, n ≤ m.writeCycle k → s.bram.mem k = mem k

namespace RunAt

variable {m : Settings} {mem : ℕ → Word} {n : ℕ} {s : System} {i : Input}

theorem busy (h : RunAt m mem n s) : s.busy = true := busy_eq_true (by rw [h.fsm]; rfl)

/-- **The averager writes word `k` in cycle `writeCycle k`, and nothing else.** -/
theorem bramWe_iff (h : RunAt m mem n s) (hn : n ≤ m.lastCycle) :
    s.ctrl.averager.bramWe = true ↔ ∃ k < m.numSamples, n = m.writeCycle k := by
  have hge := m.decimation_ge
  rw [h.averager.bramWe, decide_eq_true_eq]
  constructor
  · rintro ⟨hpos, hmod⟩
    obtain ⟨j, hj⟩ : ∃ j, j = (n - (m.delayCycles + 2)) / m.decimation := ⟨_, rfl⟩
    have he := (m.phase_iff (by omega) _ j).1 ⟨hmod, hj.symm⟩
    cases j with
    | zero => simp [Settings.period] at he; omega
    | succ k =>
        refine ⟨k, ?_, ?_⟩
        · -- one more period would not end before the measurement does
          have hsucc := m.period_succ m.numSamples
          rw [m.period_numSamples] at hsucc
          have hlt : m.period (k + 1) < m.period (m.numSamples + 1) := by
            unfold Settings.lastCycle propagationDelay at hn
            omega
          have := m.lt_of_period_lt hlt
          omega
        · unfold Settings.writeCycle
          omega
  · rintro ⟨k, hk, rfl⟩
    have hsucc := m.period_succ k
    have he : m.writeCycle k - (m.delayCycles + 2) = m.period (k + 1) + 0 := by
      unfold Settings.writeCycle
      omega
    refine ⟨by omega, ?_⟩
    exact ((m.phase_iff (by omega) _ (k + 1)).2 he).1

/-- The address of a write. -/
theorem bramAddr (h : RunAt m mem n s) {k : ℕ} (hk : k < m.numSamples) (hn : n = m.writeCycle k) :
    s.ctrl.averager.bramAddr = k := by
  have hge := m.decimation_ge
  have hle := m.le_maxSamples
  have hlast := m.writeCycle_lt_lastCycle hk
  have hwe : s.ctrl.averager.bramWe = true := (h.bramWe_iff (by omega)).2 ⟨k, hk, hn⟩
  have he : n - (m.delayCycles + 2) = m.period (k + 1) + 0 := by
    unfold Settings.writeCycle at hn
    omega
  rw [h.averager.bramAddr hwe, ((m.phase_iff (by omega) _ (k + 1)).2 he).2, Nat.add_sub_cancel]
  unfold maxSamples at hle
  exact Nat.mod_eq_of_lt (by omega)

/-- What a clock edge does to the memory: the processor is shut out. -/
theorem bram_tick (h : RunAt m mem n s) : (s.tick i).bram.mem =
    if s.ctrl.averager.bramWe = true then
      Function.update s.bram.mem s.ctrl.averager.bramAddr s.ctrl.averager.bramIn
    else s.bram.mem := by
  have hbusy := h.busy
  show (s.bramTick i.bus).mem = _
  simp [System.bramTick, Bram.tick, hbusy]

/-- What it does to a word of the measurement. -/
theorem mem_tick (h : RunAt m mem n s) (hn : n ≤ m.lastCycle) (k : ℕ) (hk : k < m.numSamples) :
    (s.tick i).bram.mem k
      = if n = m.writeCycle k then s.ctrl.averager.bramIn else s.bram.mem k := by
  rw [h.bram_tick]
  by_cases hwe : s.ctrl.averager.bramWe = true
  · obtain ⟨j, hj, hnj⟩ := (h.bramWe_iff hn).1 hwe
    rw [if_pos hwe, h.bramAddr hj hnj]
    by_cases hjk : n = m.writeCycle k
    · have heq : j = k := m.writeCycle_inj (hnj.symm.trans hjk)
      rw [if_pos hjk, heq, Function.update_self]
    · have hne : k ≠ j := by
        rintro rfl
        exact hjk hnj
      rw [if_neg hjk, Function.update_of_ne hne]
  · rw [if_neg hwe, if_neg]
    intro hnk
    exact hwe ((h.bramWe_iff hn).2 ⟨k, hk, hnk⟩)

/-- What it does to the rest of the memory. -/
theorem mem_tick_of_le (h : RunAt m mem n s) (hn : n ≤ m.lastCycle) {a : ℕ}
    (ha : m.numSamples ≤ a) : (s.tick i).bram.mem a = s.bram.mem a := by
  rw [h.bram_tick]
  split
  · rename_i hwe
    obtain ⟨k, hk, hnk⟩ := (h.bramWe_iff hn).1 hwe
    rw [h.bramAddr hk hnk, Function.update_of_ne (by omega)]
  · rfl

/-- What is read for the DAC in cycle `readCycle k`. -/
theorem dout_tick (h : RunAt m mem n s) {k : ℕ} (hk : k < m.numSamples) (hn : n = m.readCycle k) :
    (s.tick i).bram.doutA = mem k := by
  have hge := m.decimation_ge
  have hle := m.le_maxSamples
  have hmono := m.period_mono hk.le
  rw [m.period_numSamples] at hmono
  have hwrite := m.readCycle_lt_writeCycle k
  unfold Settings.readCycle at hn hwrite
  have hphase : n - 2 = m.period k + 0 := by omega
  have haddr : n - 1 = m.period k + 1 := by omega
  have hdec : s.ctrl.decimator = m.decimatorAt (fun k => (mem k).setWidth 14) (n - 1) := by
    rw [h.decimator, if_pos (by omega)]
  have hen : s.ctrl.decimator.bramEn = true := by
    rw [hdec]
    have hmod := ((m.phase_iff (by omega) _ k).2 hphase).1
    exact decide_eq_true ⟨by omega, hmod⟩
  have hk' : s.ctrl.decimator.bramAddr = k := by
    rw [hdec]
    show (n - 1) / m.decimation % 2 ^ 16 = k
    rw [((m.phase_iff (by omega) _ k).2 haddr).2]
    unfold maxSamples at hle
    exact Nat.mod_eq_of_lt (by omega)
  show (if s.ctrl.decimator.bramEn = true then s.bram.mem s.ctrl.decimator.bramAddr else 0) = mem k
  rw [if_pos hen, hk']
  exact h.original k hk (by omega)

/-- The decimator after a clock edge. -/
theorem decimator_tick (h : RunAt m mem n s) :
    (s.tick i).ctrl.decimator =
      if n + 1 ≤ m.genCycles + 3 then m.decimatorAt (fun k => (mem k).setWidth 14) n else {} := by
  have hge := m.decimation_ge
  have hstep : (s.tick i).ctrl.decimator
      = s.ctrl.decimator.tick (m.fsmAt n).genEnabled m.decimation s.bramOut := by
    show s.ctrl.decimator.tick s.ctrl.fsm.genEnabled s.reg.decimation s.bramOut = _
    rw [h.fsm, h.decimation]
  rw [hstep]
  by_cases hgen : 1 ≤ n ∧ n ≤ m.genCycles + 2
  · have hen : (m.fsmAt n).genEnabled = true := decide_eq_true hgen
    rw [hen, h.decimator, if_pos (by omega), if_pos (by omega), m.decimatorAt_tick]
    · rw [Nat.sub_add_cancel hgen.1]
    · intro htwo hmod
      -- the word read two cycles ago
      obtain ⟨k, hk⟩ : ∃ k, k = (n - 1 - 2) / m.decimation := ⟨_, rfl⟩
      have hn := (m.phase_iff (by omega) _ k).1 ⟨hmod, hk.symm⟩
      have hlt : k < m.numSamples := by
        refine m.lt_of_period_lt ?_
        rw [m.period_numSamples]
        omega
      rw [← hk]
      show s.bram.doutA.setWidth 14 = (mem k).setWidth 14
      rw [h.dout k hlt (by unfold Settings.readCycle; omega)]
  · have hen : (m.fsmAt n).genEnabled = false := decide_eq_false hgen
    rw [hen]
    split
    · have hn : n = 0 := by omega
      subst hn
      rw [m.decimatorAt_zero]
      rfl
    · rfl

/-- The averager after a clock edge. -/
theorem averager_tick (h : RunAt m mem n s) :
    (s.tick i).ctrl.averager.Counts 16 m.decimation (n + 1 - (m.delayCycles + 2)) := by
  have hstep : (s.tick i).ctrl.averager = s.ctrl.averager.tick (m.fsmAt n).acqEnabled m.decimation
      (if (m.fsmAt n).acqEnabled then i.adcData else 0) := by
    show s.ctrl.averager.tick s.ctrl.fsm.acqEnabled s.reg.decimation
      (if s.ctrl.fsm.acqEnabled then i.adcData else 0) = _
    rw [h.fsm, h.decimation]
  rw [hstep]
  by_cases hacq : m.delayCycles + 2 ≤ n
  · have hen : (m.fsmAt n).acqEnabled = true := decide_eq_true hacq
    have he : n + 1 - (m.delayCycles + 2) = n - (m.delayCycles + 2) + 1 := by omega
    rw [hen, he]
    exact h.averager.tick m.validDecimation _
  · have hen : (m.fsmAt n).acqEnabled = false := decide_eq_false hacq
    have he : n + 1 - (m.delayCycles + 2) = 0 := by omega
    rw [hen, he]
    exact Averager.counts_zero 16 _

/-- Registers are only changed by the processor. -/
theorem reg_tick (hw : i.bus.regWen = false) : (s.tick i).reg.startMeasure = s.reg.startMeasure ∧
    (s.tick i).reg.sigSize = s.reg.sigSize ∧ (s.tick i).reg.delay = s.reg.delay ∧
    (s.tick i).reg.decimation = s.reg.decimation := by
  simp [System.tick, MeasureReg.tick, hw]

/-- **The invariant is preserved** by every clock edge of `RUNNING` but the last. -/
theorem tick (h : RunAt m mem n s) (hn : n < m.lastCycle) (hw : i.bus.regWen = false) :
    RunAt m mem (n + 1) (s.tick i) := by
  obtain ⟨-, hsize, hdelay, hdec⟩ := reg_tick (s := s) hw
  refine ⟨hsize.trans h.sigSize, hdelay.trans h.delay, hdec.trans h.decimation, ?_, ?_, ?_,
    h.averager_tick, fun k hk hk' => ?_, fun k hk hk' => ?_⟩
  · show s.ctrl.thr.tick s.reg.sigSize s.reg.delay s.reg.decimation = m.thresholds
    rw [h.thr, h.sigSize, h.delay, h.decimation, m.thresholds_tick]
  · show s.ctrl.fsm.tick s.ctrl.thr s.reg.startMeasure s.reg.delay = m.fsmAt (n + 1)
    rw [h.fsm, h.thr, h.delay, m.fsmAt_tick hn]
  · exact h.decimator_tick
  · exact h.dout_tick hk (by omega)
  · rw [h.mem_tick hn.le k hk, if_neg (by omega)]
    exact h.original k hk (by omega)

end RunAt

/-! ### From `START` to `END` -/

section Run

variable {m : Settings} {x : ℕ → System} {inp : ℕ → Input}

/-- `end_measure` -/
def System.endMeasure (s : System) : Bool := s.ctrl.fsm.endMeasure

/-- The processor writes `value` to the register with this index. -/
def Bus.Writes (b : Bus) (index value : ℕ) : Prop :=
  b.writesReg index ∧ b.wdata.toNat = value

/-- An idle controller has not raised `END`. -/
theorem Rested.endMeasure {s : System} (h : Rested s) (hidle : s.ctrl.fsm.state = .idle) :
    s.endMeasure = false := by
  rw [System.endMeasure, (h.idle hidle).1]

/-- One idle cycle. -/
theorem idle_tick {s : System} {i : Input} (hidle : s.ctrl.fsm.state = .idle)
    (hstart : s.reg.startMeasure = false) : (s.tick i).ctrl.fsm.state = .idle := by
  show (s.ctrl.fsm.tick s.ctrl.thr s.reg.startMeasure s.reg.delay).state = .idle
  simp [Fsm.tick, hidle, hstart]

/-- **Two cycles after `START` is written the measurement runs**, with thresholds that have
settled: the settings need to be in place only in the cycle in which `START` is written. -/
theorem runAt_zero (hx : Follows System.tick x inp) (hrest : Rested (x 0))
    (hidle : (x 0).ctrl.fsm.state = .idle) (hstart : (x 0).reg.startMeasure = false)
    (hsize : (x 0).reg.sigSize = m.numSamples) (hdelay : (x 0).reg.delay = m.delay)
    (hdec : (x 0).reg.decimation = m.decimation) (hgo : (inp 0).bus.Writes regStartMeasure 1)
    (hquiet : (inp 1).bus.regWen = false) : RunAt m (x 2).bram.mem 0 (x 2) := by
  obtain ⟨⟨hwen, haddr⟩, hdata⟩ := hgo
  have hone : (inp 0).bus.wdata = 1#32 := BitVec.eq_of_toNat_eq (by rw [hdata]; rfl)
  -- the cycle after the write: `START` is set, and the products are computed
  have h₁ : x 1 = (x 0).tick (inp 0) := hx 0
  have hidle₁ : (x 1).ctrl.fsm.state = .idle := by
    rw [h₁]
    exact idle_tick hidle hstart
  have hrest₁ : Rested (x 1) := by
    rw [h₁]
    exact hrest.tick _
  obtain ⟨hfsm₁, hdec₁, havg₁⟩ := hrest₁.idle hidle₁
  have hreg₁ : (x 1).reg.startMeasure = true ∧ (x 1).reg.sigSize = m.numSamples ∧
      (x 1).reg.delay = m.delay ∧ (x 1).reg.decimation = m.decimation := by
    rw [h₁]
    refine ⟨?_, ?_, ?_, ?_⟩
    · simp [System.tick, MeasureReg.tick, hwen, haddr, hone]
    · simp [System.tick, MeasureReg.tick, haddr, regStartMeasure, regSigSize, hsize]
    · simp [System.tick, MeasureReg.tick, haddr, regStartMeasure, regDelay, hdelay]
    · simp [System.tick, MeasureReg.tick, haddr, regStartMeasure, regDecimation, hdec]
  obtain ⟨hstart₁, hsize₁, hdelay₁, hdecim₁⟩ := hreg₁
  have hthr₁ : (x 1).ctrl.thr = (x 0).ctrl.thr.tick m.numSamples m.delay m.decimation := by
    rw [h₁, ← hsize, ← hdelay, ← hdec]
    rfl
  -- the next cycle: the controller runs, and the thresholds are there
  have h₂ : x 2 = (x 1).tick (inp 1) := hx 1
  obtain ⟨-, hsize₂, hdelay₂, hdecim₂⟩ := RunAt.reg_tick (s := x 1) hquiet
  rw [h₂]
  refine ⟨hsize₂.trans hsize₁, hdelay₂.trans hdelay₁, hdecim₂.trans hdecim₁, ?_, ?_, ?_, ?_,
    fun k _ hk => ?_, fun _ _ _ => rfl⟩
  · show (x 1).ctrl.thr.tick (x 1).reg.sigSize (x 1).reg.delay (x 1).reg.decimation = m.thresholds
    rw [hsize₁, hdelay₁, hdecim₁, hthr₁, m.tick_tick]
  · show (x 1).ctrl.fsm.tick (x 1).ctrl.thr (x 1).reg.startMeasure (x 1).reg.delay = m.fsmAt 0
    rw [hfsm₁, hstart₁]
    simp [Fsm.tick, Settings.fsmAt]
  · show (x 1).ctrl.decimator.tick (x 1).ctrl.fsm.genEnabled _ _ = _
    rw [hfsm₁, if_pos (by omega), m.decimatorAt_zero]
    rfl
  · show ((x 1).ctrl.averager.tick (x 1).ctrl.fsm.acqEnabled _ _).Counts 16 m.decimation _
    rw [hfsm₁, Nat.zero_sub]
    exact Averager.counts_zero 16 _
  · unfold Settings.readCycle at hk
    omega

/-- **The invariant holds all through `RUNNING`** when no register is written before `END`. -/
theorem runAt_all (hx : Follows System.tick x inp) (hrest : Rested (x 0))
    (hidle : (x 0).ctrl.fsm.state = .idle) (hstart : (x 0).reg.startMeasure = false)
    (hsize : (x 0).reg.sigSize = m.numSamples) (hdelay : (x 0).reg.delay = m.delay)
    (hdec : (x 0).reg.decimation = m.decimation) (hgo : (inp 0).bus.Writes regStartMeasure 1)
    (hquiet : ∀ t, 0 < t → (∀ u ≤ t, (x u).endMeasure = false) → (inp t).bus.regWen = false) :
    ∀ n ≤ m.lastCycle, RunAt m (x 2).bram.mem n (x (2 + n)) ∧
      ∀ u ≤ 2 + n, (x u).endMeasure = false := by
  have hidle₁ : (x 1).ctrl.fsm.state = .idle := by
    rw [hx 0]
    exact idle_tick hidle hstart
  have hrest₁ : Rested (x 1) := by
    rw [hx 0]
    exact hrest.tick _
  have hend₁ : ∀ u ≤ 1, (x u).endMeasure = false := by
    intro u hu
    rcases Nat.le_one_iff_eq_zero_or_eq_one.1 hu with rfl | rfl
    · exact hrest.endMeasure hidle
    · exact hrest₁.endMeasure hidle₁
  have hextend : ∀ n, RunAt m (x 2).bram.mem n (x (2 + n)) →
      (∀ u < 2 + n, (x u).endMeasure = false) → ∀ u ≤ 2 + n, (x u).endMeasure = false := by
    intro n hrun hbefore u hu
    rcases Nat.lt_or_eq_of_le hu with h | rfl
    · exact hbefore u h
    · rw [System.endMeasure, hrun.fsm]
      rfl
  -- induction on the cycle, together with `END` low so far: that keeps the registers still
  intro n
  induction n with
  | zero =>
      intro _
      have hrun := runAt_zero hx hrest hidle hstart hsize hdelay hdec hgo (hquiet 1 (by omega) hend₁)
      exact ⟨hrun, hextend 0 hrun fun u hu => hend₁ u (by omega)⟩
  | succ n ih =>
      intro hn
      obtain ⟨hrun, hend⟩ := ih (by omega)
      have hnext : RunAt m (x 2).bram.mem (n + 1) (x (2 + (n + 1))) := by
        have hstep : x (2 + (n + 1)) = (x (2 + n)).tick (inp (2 + n)) := hx (2 + n)
        rw [hstep]
        exact hrun.tick (by omega) (hquiet _ (by omega) hend)
      exact ⟨hnext, hextend (n + 1) hnext fun u hu => hend u (by omega)⟩

/-- The end of the last cycle: `END` rises, and no write is left in the averager. -/
theorem RunAt.tick_last {mem : ℕ → Word} {s : System} {i : Input}
    (h : RunAt m mem m.lastCycle s) :
    (s.tick i).ctrl.fsm = m.fsmEnd ∧ (s.tick i).ctrl.averager.bramWe = false := by
  have hge := m.decimation_ge
  constructor
  · show s.ctrl.fsm.tick s.ctrl.thr s.reg.startMeasure s.reg.delay = m.fsmEnd
    rw [h.fsm, h.thr, h.delay, m.fsmAt_lastCycle_tick]
  · have he : m.lastCycle + 1 - (m.delayCycles + 2) = m.period m.numSamples + 3 := by
      rw [m.period_numSamples]
      unfold Settings.lastCycle propagationDelay
      omega
    have hphase := ((m.phase_iff (by omega) _ m.numSamples).2 he).1
    rw [h.averager_tick.bramWe, hphase]
    simp

/-- What the averager has written stays in the memory up to the end of the measurement. -/
theorem RunAt.mem_written (hx : Follows System.tick x inp) {first : ℕ} {mem : ℕ → Word}
    (hrun : ∀ n ≤ m.lastCycle, RunAt m mem n (x (first + n))) {k : ℕ} (hk : k < m.numSamples) :
    ∀ n, m.writeCycle k + 1 ≤ n → n ≤ m.lastCycle + 1 →
      (x (first + n)).bram.mem k = (x (first + m.writeCycle k)).ctrl.averager.bramIn := by
  have hlast := m.writeCycle_lt_lastCycle hk
  intro n hn
  induction n, hn using Nat.le_induction with
  | base =>
      intro _
      have hstep : x (first + (m.writeCycle k + 1)) = (x (first + m.writeCycle k)).tick _ := hx _
      rw [hstep, (hrun _ hlast.le).mem_tick hlast.le k hk, if_pos rfl]
  | succ n hn ih =>
      intro hle
      have hstep : x (first + (n + 1)) = (x (first + n)).tick _ := hx _
      rw [hstep, (hrun n (by omega)).mem_tick (by omega) k hk, if_neg (by omega)]
      exact ih (by omega)

/-- The rest of the memory stays as it was. -/
theorem RunAt.mem_rest (hx : Follows System.tick x inp) {first : ℕ} {mem : ℕ → Word}
    (hrun : ∀ n ≤ m.lastCycle, RunAt m mem n (x (first + n))) {a : ℕ} (ha : m.numSamples ≤ a) :
    ∀ n ≤ m.lastCycle + 1, (x (first + n)).bram.mem a = (x first).bram.mem a := by
  intro n
  induction n with
  | zero =>
      intro _
      rfl
  | succ n ih =>
      intro hle
      have hstep : x (first + (n + 1)) = (x (first + n)).tick _ := hx _
      rw [hstep, (hrun n (by omega)).mem_tick_of_le (by omega) ha]
      exact ih (by omega)

/-- While the controller does not run again, the averager writes nothing. -/
theorem bramWe_eq_false_of_not_busy (hx : Follows System.tick x inp) (hrest : ∀ t, Rested (x t))
    {a : ℕ} (ha : (x a).ctrl.averager.bramWe = false) :
    ∀ t, a ≤ t → (∀ u, a ≤ u → u ≤ t → (x u).busy = false) →
      (x t).ctrl.averager.bramWe = false := by
  intro t hat hbusy
  rcases Nat.lt_or_eq_of_le hat with hlt | rfl
  · obtain ⟨t, rfl⟩ : ∃ u, t = u + 1 := ⟨t - 1, by omega⟩
    have hacq := (hrest t).acq (hbusy t (by omega) (by omega))
    rw [hx t]
    show ((x t).ctrl.averager.tick (x t).ctrl.fsm.acqEnabled _ _).bramWe = false
    rw [hacq]
    rfl
  · exact ha

/-- `END` stays high until `START` is cleared. -/
theorem finished_held (hx : Follows System.tick x inp) {a : ℕ}
    (ha : (x a).ctrl.fsm.state = .finished) (hend : (x a).endMeasure = true) :
    ∀ t, a ≤ t → (∀ u, a ≤ u → u < t → (x u).reg.startMeasure = true) →
      (x t).ctrl.fsm.state = .finished ∧ (x t).endMeasure = true := by
  intro t hat
  induction t, hat using Nat.le_induction with
  | base =>
      intro _
      exact ⟨ha, hend⟩
  | succ t hat ih =>
      intro hstart
      obtain ⟨hfin, -⟩ := ih fun u hu hut => hstart u hu (by omega)
      have hnow := hstart t hat (by omega)
      have hfsm : (x (t + 1)).ctrl.fsm = { state := .finished, endMeasure := true } := by
        rw [hx t]
        show (x t).ctrl.fsm.tick (x t).ctrl.thr (x t).reg.startMeasure (x t).reg.delay = _
        simp [Fsm.tick, hfin, hnow]
      exact ⟨by rw [hfsm], by rw [System.endMeasure, hfsm]⟩

/-- What a measurement that runs from cycle `first` on acquires. -/
structure ExactRun (m : Settings) (x : ℕ → System) (first : ℕ) : Prop where
  /-- It has not run before. -/
  before : ∀ t < first, (x t).busy = false ∧ (x t).endMeasure = false
  /-- It runs for a fixed number of cycles. -/
  busy : ∀ n ≤ m.lastCycle, (x (first + n)).busy = true ∧ (x (first + n)).endMeasure = false
  /-- `END` rises in the cycle in which `busy` falls. -/
  rises : (x (first + m.lastCycle + 1)).busy = false ∧
    (x (first + m.lastCycle + 1)).endMeasure = true
  /-- `END` stays high until `START` is cleared. -/
  held : ∀ t, first + m.lastCycle < t →
    (∀ u, first + m.lastCycle < u → u < t → (x u).reg.startMeasure = true) →
      (x t).endMeasure = true ∧ (x t).busy = false
  /-- Acquisition starts `delay * decimation + 1` cycles after generation. -/
  starts : ∃ gen, IsLeast {t | (x t).ctrl.fsm.genEnabled = true} gen ∧
    IsLeast {t | (x t).ctrl.fsm.acqEnabled = true} (gen + (m.delay * m.decimation + 1))
  /-- Up to the end, word `k` is written in its cycle and nothing else is. -/
  writes : ∀ t ≤ first + m.lastCycle,
    ((x t).ctrl.averager.bramWe = true ↔ ∃ k < m.numSamples, t = first + m.writeCycle k)
  /-- Word `k` goes to address `k`, and the controller is busy then. -/
  address : ∀ k < m.numSamples, (x (first + m.writeCycle k)).ctrl.averager.bramAddr = k ∧
    (x (first + m.writeCycle k)).busy = true
  /-- What is written is in the memory from the next cycle up to the end. -/
  memory : ∀ k < m.numSamples, ∀ n, m.writeCycle k < n → n ≤ m.lastCycle + 1 →
    (x (first + n)).bram.mem k = (x (first + m.writeCycle k)).ctrl.averager.bramIn
  /-- The rest of the memory stays as it was. -/
  rest : ∀ a, m.numSamples ≤ a → ∀ n ≤ m.lastCycle + 1,
    (x (first + n)).bram.mem a = (x first).bram.mem a
  /-- After the end nothing is written, as long as the controller does not run again. -/
  after : ∀ t, first + m.lastCycle < t →
    (∀ u, first + m.lastCycle < u → u ≤ t → (x u).busy = false) →
      (x t).ctrl.averager.bramWe = false
  /-- The products, the thresholds and the cycle counter are exact. -/
  exact : ∀ n ≤ m.lastCycle, (x (first + n)).ctrl.fsm.internalCount = n ∧
    (x (first + n)).ctrl.thr =
      { prodSig := m.numSamples * m.decimation
        prodDly := m.delay * m.decimation
        thrAcqStart := m.delay * m.decimation + 1
        thrGenEnd := m.numSamples * m.decimation + 2
        thrMeasEnd := m.numSamples * m.decimation + m.delay * m.decimation + 4 }

/-- A run whose states are all known. -/
theorem exactRun_of_runAt (hx : Follows System.tick x inp) (hrest : ∀ t, Rested (x t)) {first : ℕ}
    {mem : ℕ → Word} (hidle : ∀ t < first, (x t).ctrl.fsm.state = .idle)
    (hrun : ∀ n ≤ m.lastCycle, RunAt m mem n (x (first + n))) : ExactRun m x first := by
  have hge := m.decimation_ge
  have hgen := m.decimation_le_genCycles
  have hstep : x (first + m.lastCycle + 1) = (x (first + m.lastCycle)).tick (inp _) := hx _
  obtain ⟨hend, hwe⟩ := (hrun m.lastCycle le_rfl).tick_last (i := inp (first + m.lastCycle))
  rw [← hstep] at hend hwe
  have hfin : (x (first + m.lastCycle + 1)).ctrl.fsm.state = .finished := by
    rw [hend]
    rfl
  have hrises : (x (first + m.lastCycle + 1)).endMeasure = true := by
    rw [System.endMeasure, hend]
    rfl
  have hbefore : ∀ t < first, (x t).ctrl.fsm = {} ∧ (x t).ctrl.averager = {} := fun t ht =>
    ⟨((hrest t).idle (hidle t ht)).1, ((hrest t).idle (hidle t ht)).2.2⟩
  refine ⟨fun t ht => ⟨busy_eq_false (by simp [hidle t ht]),
    (hrest t).endMeasure (hidle t ht)⟩, fun n hn => ?_, ⟨busy_eq_false (by simp [hfin]), hrises⟩,
    fun t ht hstart => ?_, ⟨first + 1, ?_, ?_⟩, fun t ht => ?_, fun k hk => ?_,
    fun k hk => RunAt.mem_written hx hrun hk, fun a ha => RunAt.mem_rest hx hrun ha,
    fun t ht hbusy => ?_, fun n hn => ?_⟩
  · refine ⟨(hrun n hn).busy, ?_⟩
    rw [System.endMeasure, (hrun n hn).fsm]
    rfl
  · obtain ⟨hstate, hheld⟩ := finished_held hx hfin hrises t (by omega)
      fun u hu hut => hstart u (by omega) hut
    exact ⟨hheld, busy_eq_false (by simp [hstate])⟩
  · -- generation is enabled from the second cycle on
    have hone : 1 ≤ m.lastCycle := by
      unfold Settings.lastCycle propagationDelay
      omega
    constructor
    · show (x (first + 1)).ctrl.fsm.genEnabled = true
      have hgen₁ : 1 ≤ 1 ∧ 1 ≤ m.genCycles + 2 := ⟨le_rfl, by omega⟩
      rw [(hrun 1 hone).fsm]
      exact decide_eq_true hgen₁
    · intro t ht
      by_contra hlt
      have ht' : (x t).ctrl.fsm.genEnabled = true := ht
      rcases Nat.lt_or_ge t first with h | h
      · rw [(hbefore t h).1] at ht'
        cases ht'
      · have hzero : t = first + 0 := by omega
        rw [hzero, (hrun 0 (Nat.zero_le _)).fsm] at ht'
        simp [Settings.fsmAt] at ht'
  · -- acquisition is enabled from cycle `delayCycles + 2` on
    have hacq : m.delayCycles + 2 ≤ m.lastCycle := by
      unfold Settings.lastCycle propagationDelay
      omega
    have hfirst : first + 1 + (m.delay * m.decimation + 1) = first + (m.delayCycles + 2) := by
      unfold Settings.delayCycles
      omega
    rw [hfirst]
    constructor
    · show (x (first + (m.delayCycles + 2))).ctrl.fsm.acqEnabled = true
      rw [(hrun _ hacq).fsm]
      exact decide_eq_true le_rfl
    · intro t ht
      by_contra hlt
      have ht' : (x t).ctrl.fsm.acqEnabled = true := ht
      rcases Nat.lt_or_ge t first with h | h
      · rw [(hbefore t h).1] at ht'
        cases ht'
      · obtain ⟨n, rfl⟩ := Nat.exists_eq_add_of_le h
        rw [(hrun n (by omega)).fsm] at ht'
        have := of_decide_eq_true ht'
        omega
  · rcases Nat.lt_or_ge t first with h | h
    · rw [(hbefore t h).2]
      constructor
      · intro hfalse
        cases hfalse
      · rintro ⟨k, -, rfl⟩
        omega
    · obtain ⟨n, rfl⟩ := Nat.exists_eq_add_of_le h
      rw [(hrun n (by omega)).bramWe_iff (by omega)]
      simp
  · have hlast := m.writeCycle_lt_lastCycle hk
    exact ⟨(hrun _ hlast.le).bramAddr hk rfl, (hrun _ hlast.le).busy⟩
  · refine bramWe_eq_false_of_not_busy hx hrest hwe t (by omega) fun u hu hut => ?_
    exact hbusy u (by omega) hut
  · rw [(hrun n hn).fsm, (hrun n hn).thr]
    exact ⟨rfl, rfl⟩

/-- The settings are in place when `START` is written, however far apart the writes are. -/
theorem idle_until_start (hx : Follows System.tick x inp) (hrest : ∀ t, Rested (x t))
    (hidle : (x 0).ctrl.fsm.state = .idle) (hstart : (x 0).reg.startMeasure = false)
    (hdec : (x 0).reg.decimation = m.decimation) {b c : ℕ} (hb : 0 < b)
    (hsize : (inp 0).bus.Writes regSigSize m.numSamples)
    (hdelay : (inp b).bus.Writes regDelay m.delay)
    (hquiet : ∀ t, t ≠ 0 → t ≠ b → t ≠ c → (∀ u ≤ t, (x u).endMeasure = false) →
      (inp t).bus.regWen = false) :
    ∀ t ≤ c, (∀ u ≤ t, (x u).ctrl.fsm.state = .idle) ∧ (x t).reg.startMeasure = false ∧
      (x t).reg.decimation = m.decimation ∧ (0 < t → (x t).reg.sigSize = m.numSamples) ∧
      (b < t → (x t).reg.delay = m.delay) := by
  intro t
  induction t with
  | zero =>
      intro _
      refine ⟨fun u hu => ?_, hstart, hdec, fun h => absurd h (by omega), fun h => by omega⟩
      rw [Nat.le_zero.1 hu]
      exact hidle
  | succ t ih =>
      intro htc
      obtain ⟨hidle', hstart', hdec', hsize', hdelay'⟩ := ih (by omega)
      have hnext : (x (t + 1)).ctrl.fsm.state = .idle := by
        rw [hx t]
        exact idle_tick (hidle' t le_rfl) hstart'
      have hidles : ∀ u ≤ t + 1, (x u).ctrl.fsm.state = .idle := by
        intro u hu
        rcases Nat.lt_or_eq_of_le hu with h | rfl
        · exact hidle' u (by omega)
        · exact hnext
      have hends : ∀ u ≤ t, (x u).endMeasure = false := fun u hu =>
        (hrest u).endMeasure (hidle' u hu)
      refine ⟨hidles, ?_⟩
      rw [hx t]
      by_cases h₀ : t = 0
      · -- the write of `SIG_SIZE`
        subst h₀
        obtain ⟨⟨hwen, haddr⟩, hdata⟩ := hsize
        refine ⟨?_, ?_, fun _ => ?_, fun h => by omega⟩
        · simp [System.tick, MeasureReg.tick, haddr, regStartMeasure, regSigSize, hstart']
        · simp [System.tick, MeasureReg.tick, haddr, regDecimation, regSigSize, hdec']
        · simp [System.tick, MeasureReg.tick, hwen, haddr, hdata]
      by_cases hb' : t = b
      · -- the write of `DELAY`
        subst hb'
        obtain ⟨⟨hwen, haddr⟩, hdata⟩ := hdelay
        refine ⟨?_, ?_, fun _ => ?_, fun _ => ?_⟩
        · simp [System.tick, MeasureReg.tick, haddr, regStartMeasure, regDelay, hstart']
        · simp [System.tick, MeasureReg.tick, haddr, regDecimation, regDelay, hdec']
        · simp [System.tick, MeasureReg.tick, haddr, regSigSize, regDelay, hsize' hb]
        · simp [System.tick, MeasureReg.tick, hwen, haddr, hdata]
      obtain ⟨h₁, h₂, h₃, h₄⟩ := RunAt.reg_tick (s := x t)
        (hquiet t h₀ hb' (by omega) hends)
      exact ⟨h₁.trans hstart', h₄.trans hdec', fun _ => h₂.trans (hsize' (by omega)),
        fun h => h₃.trans (hdelay' (by omega))⟩

/-- The run from a state that can be reached, with what holds all along it. -/
theorem Reachable.exists_run {s : System} (hs : Reachable s) (inp : ℕ → Input) :
    ∃ x, x = run System.tick s inp ∧ Follows System.tick x inp ∧ (∀ t, Rested (x t)) ∧ x 0 = s :=
  ⟨_, rfl, follows_run s inp, fun t => Reachable.rested (hs.run inp t), run_zero ..⟩

/-- **Each run acquires exactly its words and then stops.**  The FPGA is in any state it can reach
in which the controller is idle and the decimation is set.  The processor writes `SIG_SIZE`,
`DELAY` and `START` with any distances between the writes, and no other register until `END`. -/
theorem acquires_exactly {s : System} (hs : Reachable s) (hidle : s.ctrl.fsm.state = .idle)
    (hstart : s.reg.startMeasure = false) (hdec : s.reg.decimation = m.decimation) {b c : ℕ}
    (hb : 0 < b) (hbc : b < c) (hsize : (inp 0).bus.Writes regSigSize m.numSamples)
    (hdelay : (inp b).bus.Writes regDelay m.delay)
    (hgo : (inp c).bus.Writes regStartMeasure 1)
    (hquiet : ∀ t, t ≠ 0 → t ≠ b → t ≠ c →
      (∀ u ≤ t, (run System.tick s inp u).endMeasure = false) → (inp t).bus.regWen = false) :
    ExactRun m (run System.tick s inp) (c + 2) := by
  obtain ⟨x, hxdef, hx, hrest, hx₀⟩ := hs.exists_run inp
  rw [← hxdef] at hquiet ⊢
  rw [← hx₀] at hidle hstart hdec
  obtain ⟨hidles, hstartc, hdecc, hsizec, hdelayc⟩ :=
    idle_until_start hx hrest hidle hstart hdec hb hsize hdelay hquiet c le_rfl
  have hend : ∀ u ≤ c, (x u).endMeasure = false := fun u hu => (hrest u).endMeasure (hidles u hu)
  -- the run is shifted, so that `START` is written in cycle 0
  have hall := runAt_all (m := m) (hx.shift c) (hrest c) (hidles c le_rfl) hstartc
    (hsizec (by omega)) (hdelayc hbc) hdecc hgo (by
      intro t ht hbefore
      refine hquiet (c + t) (by omega) (by omega) (by omega) fun u hu => ?_
      rcases Nat.le_total u c with h | h
      · exact hend u h
      · obtain ⟨v, rfl⟩ := Nat.exists_eq_add_of_le h
        exact hbefore v (by omega))
  have hidle₁ : (x (c + 1)).ctrl.fsm.state = .idle := by
    rw [hx c]
    exact idle_tick (hidles c le_rfl) hstartc
  have hrun : ∀ n ≤ m.lastCycle, RunAt m (x (c + 2)).bram.mem n (x (c + 2 + n)) := by
    intro n hn
    have hn' := (hall n hn).1
    rwa [← Nat.add_assoc] at hn'
  refine exactRun_of_runAt hx hrest (fun t ht => ?_) hrun
  rcases Nat.lt_or_eq_of_le (show t ≤ c + 1 by omega) with h | rfl
  · exact hidles t (by omega)
  · exact hidle₁

/-- The shortest measurement. -/
def oneSample : Settings := ⟨1, 16, 1, by decide, by decide, by decide, by decide, by decide⟩

/-- The shortest measurement, after the decimation was set. -/
theorem acquires_exactly_oneSample : ExactRun oneSample
    (run System.tick
      (System.tick { bram := { mem := fun _ => 0 } } { bus := .regWrite regDecimation 16 })
      fun
        | 0 => { bus := .regWrite regSigSize 1 }
        | 1 => { bus := .regWrite regDelay 1 }
        | 2 => { bus := .regWrite regStartMeasure 1 }
        | _ => {}) 4 := by
  refine acquires_exactly (.step (.init ⟨rfl, rfl, rfl, rfl, rfl⟩) _) (by decide) (by decide)
    (by decide) (b := 1) (c := 2) (by decide) (by decide) ⟨by decide, by decide⟩
    ⟨by decide, by decide⟩ ⟨by decide, by decide⟩ ?_
  intro t h₀ h₁ h₂ _
  obtain ⟨t, rfl⟩ : ∃ u, t = u + 3 := ⟨t - 3, by omega⟩
  show ({} : Input).bus.regWen = false
  decide

/-! ### Generation -/

/-- A read of the memory whose data goes on to the DAC: the decimator takes it in the next cycle. -/
def ReachesDac (x : ℕ → System) (t : ℕ) : Prop :=
  (x t).ctrl.decimator.bramEn = true ∧ (x (t + 1)).ctrl.fsm.genEnabled = true ∧
    (x (t + 1)).ctrl.decimator.bramReadActiveQ = true

/-- What a measurement that runs from cycle `first` on plays, when the memory held `mem`. -/
structure PlaysOriginal (m : Settings) (mem : ℕ → Word) (x : ℕ → System) (first : ℕ) : Prop where
  /-- Every word is played for a whole period, one after the other. -/
  word : ∀ k < m.numSamples, ∀ j < m.decimation,
    (x (first + 4 + (k * m.decimation + j))).genOut = (mem k).setWidth 14
  /-- Nothing is played before. -/
  before : ∀ t < first + 4, (x t).genOut = 0
  /-- Nothing is played after, as long as the controller does not run again. -/
  after : ∀ t, first + 4 + m.numSamples * m.decimation ≤ t →
    (∀ u, first + m.lastCycle < u → u ≤ t → (x u).busy = false) → (x t).genOut = 0
  /-- One read for each word, and one more. -/
  reads : ∀ n ≤ m.lastCycle, (x (first + n)).ctrl.decimator.bramEn = true ↔
    ∃ k ≤ m.numSamples, n = m.readCycle k
  /-- A read whose data is played comes before every write to its address. -/
  first_read : ∀ t ≤ first + m.lastCycle, ReachesDac x t → ∃ k < m.numSamples,
    t = first + m.readCycle k ∧ (x t).ctrl.decimator.bramAddr = k ∧
      ∀ u, (x u).ctrl.averager.bramWe = true → (x u).ctrl.averager.bramAddr = k → t < u
  /-- The data of the extra read is not played. -/
  extra : ¬ReachesDac x (first + m.readCycle m.numSamples)

namespace RunAt

variable {mem : ℕ → Word} {n : ℕ} {s : System}

/-- The decimator reads a word in its read cycle, and one word more than there are. -/
theorem bramEn_iff (h : RunAt m mem n s) :
    s.ctrl.decimator.bramEn = true ↔ ∃ k ≤ m.numSamples, n = m.readCycle k := by
  have hge := m.decimation_ge
  rw [h.decimator]
  constructor
  · intro hen
    by_cases hn : n ≤ m.genCycles + 3
    · rw [if_pos hn] at hen
      obtain ⟨hone, hmod⟩ := of_decide_eq_true hen
      obtain ⟨k, hk⟩ : ∃ k, k = (n - 1 - 1) / m.decimation := ⟨_, rfl⟩
      have he := (m.phase_iff (by omega) _ k).1 ⟨hmod, hk.symm⟩
      have hsucc := m.period_succ m.numSamples
      rw [m.period_numSamples] at hsucc
      have hlt : k < m.numSamples + 1 := m.lt_of_period_lt (by omega)
      refine ⟨k, by omega, ?_⟩
      unfold Settings.readCycle
      omega
    · rw [if_neg hn] at hen
      cases hen
  · rintro ⟨k, hk, rfl⟩
    have hmono := m.period_mono hk
    rw [m.period_numSamples] at hmono
    have he : m.readCycle k - 1 - 1 = m.period k + 0 := by
      unfold Settings.readCycle
      omega
    have hmod := ((m.phase_iff (by omega) _ k).2 he).1
    rw [if_pos (by unfold Settings.readCycle; omega)]
    exact decide_eq_true ⟨by unfold Settings.readCycle; omega, hmod⟩

/-- The address of a read. -/
theorem readAddr (h : RunAt m mem n s) {k : ℕ} (hk : k < m.numSamples) (hn : n = m.readCycle k) :
    s.ctrl.decimator.bramAddr = k := by
  have hge := m.decimation_ge
  have hle := m.le_maxSamples
  have hmono := m.period_mono hk.le
  rw [m.period_numSamples] at hmono
  unfold Settings.readCycle at hn
  have he : n - 1 = m.period k + 1 := by omega
  rw [h.decimator, if_pos (by omega)]
  show (n - 1) / m.decimation % 2 ^ 16 = k
  rw [((m.phase_iff (by omega) _ k).2 he).2]
  unfold maxSamples at hle
  exact Nat.mod_eq_of_lt (by omega)

/-- What is on the DAC. -/
theorem genOut_eq (h : RunAt m mem n s) : s.genOut =
    if 4 ≤ n ∧ n ≤ m.genCycles + 3 then (mem ((n - 4) / m.decimation)).setWidth 14 else 0 := by
  rw [System.genOut, h.decimator]
  by_cases hgen : n ≤ m.genCycles + 3
  · rw [if_pos hgen]
    show (if n - 1 < 3 then 0 else (mem ((n - 1 - 3) / m.decimation)).setWidth 14) = _
    by_cases hfour : 4 ≤ n
    · have he : n - 1 - 3 = n - 4 := by omega
      rw [if_neg (by omega), if_pos ⟨hfour, hgen⟩, he]
    · rw [if_pos (by omega), if_neg (by omega)]
  · rw [if_neg hgen, if_neg (by omega)]

end RunAt

/-- While the controller does not run, the decimator is at rest. -/
theorem decimator_rests (hx : Follows System.tick x inp) (hrest : ∀ t, Rested (x t)) {a : ℕ}
    (ha : (x a).ctrl.decimator = {}) : ∀ t, a ≤ t → (∀ u, a ≤ u → u ≤ t → (x u).busy = false) →
      (x t).ctrl.decimator = {} := by
  intro t hat hbusy
  rcases Nat.lt_or_eq_of_le hat with hlt | rfl
  · obtain ⟨t, rfl⟩ : ∃ u, t = u + 1 := ⟨t - 1, by omega⟩
    have hgen := (hrest t).gen (hbusy t (by omega) (by omega))
    rw [hx t]
    show (x t).ctrl.decimator.tick (x t).ctrl.fsm.genEnabled _ _ = {}
    rw [hgen]
    rfl
  · exact ha

/-- What a run whose states are all known plays. -/
theorem playsOriginal_of_runAt (hx : Follows System.tick x inp) (hrest : ∀ t, Rested (x t))
    {first : ℕ} {mem : ℕ → Word} (hidle : ∀ t < first, (x t).ctrl.fsm.state = .idle)
    (hrun : ∀ n ≤ m.lastCycle, RunAt m mem n (x (first + n))) : PlaysOriginal m mem x first := by
  have hge := m.decimation_ge
  have hdly := m.decimation_le_delayCycles
  have hlast : m.genCycles + 4 + 16 ≤ m.lastCycle := by
    unfold Settings.lastCycle propagationDelay
    omega
  have hexact := exactRun_of_runAt hx hrest hidle hrun
  refine ⟨fun k hk j hj => ?_, fun t ht => ?_, fun t ht hbusy => ?_, fun n hn => ?_,
    fun t ht hreach => ?_, ?_⟩
  · -- the period of word `k` ends before generation does
    have hmono := m.period_mono (show k + 1 ≤ m.numSamples from hk)
    rw [m.period_succ, m.period_numSamples] at hmono
    have hn : 4 + (k * m.decimation + j) ≤ m.genCycles + 3 := by
      unfold Settings.period at hmono
      omega
    have hdiv : (4 + (k * m.decimation + j) - 4) / m.decimation = k :=
      ((m.phase_iff hj _ k).2 (by unfold Settings.period; omega)).2
    rw [Nat.add_assoc, (hrun _ (by omega)).genOut_eq, if_pos ⟨by omega, hn⟩, hdiv]
  · rcases Nat.lt_or_ge t first with h | h
    · rw [System.genOut, ((hrest t).idle (hidle t h)).2.1]
    · obtain ⟨n, rfl⟩ := Nat.exists_eq_add_of_le h
      rw [(hrun n (by omega)).genOut_eq, if_neg (by omega)]
  · change first + 4 + m.genCycles ≤ t at ht
    rcases Nat.lt_or_ge (first + m.lastCycle) t with h | h
    · have hdec : (x (first + m.lastCycle + 1)).ctrl.decimator = {} := by
        rw [hx, (hrun _ le_rfl).decimator_tick, if_neg (by omega)]
      rw [System.genOut, decimator_rests hx hrest hdec t h fun u hu hut => hbusy u hu hut]
    · obtain ⟨n, rfl⟩ := Nat.exists_eq_add_of_le (show first ≤ t by omega)
      rw [(hrun n (by omega)).genOut_eq, if_neg (by omega)]
  · exact (hrun n hn).bramEn_iff
  · obtain ⟨hen, hgen, -⟩ := hreach
    rcases Nat.lt_or_ge t first with h | h
    · rw [((hrest t).idle (hidle t h)).2.1] at hen
      cases hen
    · obtain ⟨n, rfl⟩ := Nat.exists_eq_add_of_le h
      obtain ⟨k, hk, hn⟩ := (hrun n (by omega)).bramEn_iff.1 hen
      have hmono := m.period_mono hk
      rw [m.period_numSamples] at hmono
      have hnext : n + 1 ≤ m.lastCycle := by
        unfold Settings.readCycle at hn
        omega
      -- the data of the last read arrives when generation is over
      have hlt : k < m.numSamples := by
        rw [Nat.add_assoc, (hrun _ hnext).fsm] at hgen
        have hphase := of_decide_eq_true hgen
        refine m.lt_of_period_lt ?_
        rw [m.period_numSamples]
        unfold Settings.readCycle at hn
        omega
      refine ⟨k, hlt, by rw [hn], (hrun n (by omega)).readAddr hlt hn, fun u hwe haddr => ?_⟩
      by_contra hle
      obtain ⟨j, hj, hu⟩ := (hexact.writes u (by omega)).1 hwe
      have hjk : j = k := by
        rw [hu, (hexact.address j hj).1] at haddr
        exact haddr
      have horder := m.readCycle_lt_writeCycle k
      rw [hjk] at hu
      omega
  · rintro ⟨-, hgen, -⟩
    have hn : m.readCycle m.numSamples + 1 ≤ m.lastCycle := by
      unfold Settings.readCycle
      rw [m.period_numSamples]
      omega
    rw [Nat.add_assoc, (hrun _ hn).fsm] at hgen
    have hphase := of_decide_eq_true hgen
    unfold Settings.readCycle at hphase
    rw [m.period_numSamples] at hphase
    omega

/-- While the controller does not run and the processor does not write, the memory is unchanged. -/
theorem mem_tick_of_not_busy {s : System} {i : Input} (hbusy : s.busy = false)
    (hw : i.bus.writesBram = false) : (s.tick i).bram.mem = s.bram.mem := by
  show (s.bramTick i.bus).mem = _
  simp [System.bramTick, Bram.tick, hbusy, hw]

/-- A write of a register is no write of the memory. -/
theorem Bus.Writes.writesBram {b : Bus} {index value : ℕ} (h : b.Writes index value) :
    b.writesBram = false := by
  obtain ⟨⟨hwen, -⟩, -⟩ := h
  have hsel : b.selReg = true := (Bool.and_eq_true_iff.1 hwen).1
  have hzone : zone b.addr.toNat = zone regBaseAddr := by simpa [Bus.selReg] using hsel
  have hno : b.selSharedBram = false := by
    rw [Bus.selSharedBram, hzone]
    decide
  rw [Bus.writesBram, hno, Bool.false_and]

/-- **Generation is not corrupted by in-place acquisition.**  The FPGA is in any state it can reach
in which the controller is idle, with the settings in its registers and any words in its memory.
The processor writes `START`, and neither a register nor the memory until `END`. -/
theorem plays_original {s : System} (hs : Reachable s) (hidle : s.ctrl.fsm.state = .idle)
    (hstart : s.reg.startMeasure = false) (hsize : s.reg.sigSize = m.numSamples)
    (hdelay : s.reg.delay = m.delay) (hdec : s.reg.decimation = m.decimation)
    (hgo : (inp 0).bus.Writes regStartMeasure 1)
    (hquiet : ∀ t, 0 < t → (∀ u ≤ t, (run System.tick s inp u).endMeasure = false) →
      (inp t).bus.regWen = false ∧ (inp t).bus.writesBram = false) :
    PlaysOriginal m s.bram.mem (run System.tick s inp) 2 := by
  obtain ⟨x, hxdef, hx, hrest, hx₀⟩ := hs.exists_run inp
  rw [← hxdef] at hquiet ⊢
  rw [← hx₀] at hidle hstart hsize hdelay hdec ⊢
  have hidle₁ : (x 1).ctrl.fsm.state = .idle := by
    rw [hx 0]
    exact idle_tick hidle hstart
  have hend₁ : ∀ u ≤ 1, (x u).endMeasure = false := by
    intro u hu
    rcases Nat.le_one_iff_eq_zero_or_eq_one.1 hu with rfl | rfl
    · exact (hrest 0).endMeasure hidle
    · exact (hrest 1).endMeasure hidle₁
  -- nothing reaches the memory before the controller runs
  have hmem : (x 2).bram.mem = (x 0).bram.mem := by
    rw [hx 1, mem_tick_of_not_busy (busy_eq_false (by simp [hidle₁])) (hquiet 1 (by omega) hend₁).2,
      hx 0, mem_tick_of_not_busy (busy_eq_false (by simp [hidle])) hgo.writesBram]
  have hall := runAt_all hx (hrest 0) hidle hstart hsize hdelay hdec hgo
    fun t ht hend => (hquiet t ht hend).1
  rw [hmem] at hall
  refine playsOriginal_of_runAt hx hrest (fun t ht => ?_) fun n hn => (hall n hn).1
  rcases Nat.le_one_iff_eq_zero_or_eq_one.1 (show t ≤ 1 by omega) with rfl | rfl
  · exact hidle
  · exact hidle₁

/-- A system with the settings of the shortest measurement. -/
def oneSampleReady : System :=
  run System.tick { bram := { mem := fun _ => 5 } }
    (fun
      | 0 => { bus := .regWrite regDecimation 16 }
      | 1 => { bus := .regWrite regSigSize 1 }
      | _ => { bus := .regWrite regDelay 1 }) 3

/-- The shortest measurement of a memory that holds a five. -/
theorem plays_original_oneSample : PlaysOriginal oneSample oneSampleReady.bram.mem
    (run System.tick oneSampleReady fun
      | 0 => { bus := .regWrite regStartMeasure 1 }
      | _ => {}) 2 := by
  have hreach : Reachable oneSampleReady :=
    Clocked.Reachable.run (.init ⟨rfl, rfl, rfl, rfl, rfl⟩) _ 3
  refine plays_original hreach (by decide) (by decide) (by decide) (by decide) (by decide)
    ⟨by decide, by decide⟩ ?_
  intro t ht _
  obtain ⟨t, rfl⟩ : ∃ u, t = u + 1 := ⟨t - 1, by omega⟩
  show ({} : Input).bus.regWen = false ∧ ({} : Input).bus.writesBram = false
  decide

end Run

end Fpga

end Afm
