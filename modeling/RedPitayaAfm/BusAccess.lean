/-
**Accesses over the system bus.**

The processor strobes a read or a write for one cycle, holds the address until the wrapper
acknowledges, and begins its next access any number of cycles later.  This module says what one
access does, whatever the measurement controller is doing meanwhile, and follows a measurement
between the accesses that start it, wait for it and read it.

Main definitions:

* `Afm.Fpga.Silent`, `Afm.Fpga.Access` — the cycles of the bus master;
* `Afm.Fpga.Started`, `Afm.Fpga.Acquired` — a measurement that was started, and one whose words are
  in the memory.

Main results:

* `Afm.Fpga.Access.settings` — what an access does to the registers;
* `Afm.Fpga.Access.readReg`, `Afm.Fpga.Access.readBram` — what the processor reads;
* `Afm.Fpga.Started.acquired` — **`END` says that the words are in the memory**;
* `Afm.Fpga.Acquired.access` — they stay there while the processor reads them.
-/

import RedPitayaAfm.MeasureRun

set_option relaxedAutoImplicit false
set_option autoImplicit false

namespace Afm

namespace Fpga

open Clocked

/-! ### The bus master -/

/-- A read of a register. -/
def Bus.regRead (index : ℕ) : Bus where
  addr := .ofNat 32 (regBaseAddr + 4 * index)
  ren := true

/-- A read of a word of the memory. -/
def Bus.bramRead (i : ℕ) : Bus where
  addr := .ofNat 32 (bramSharedAddr + 4 * i)
  ren := true

/-- A write of a word of the memory. -/
def Bus.bramWrite (i : ℕ) (value : BitVec 32) : Bus where
  addr := .ofNat 32 (bramSharedAddr + 4 * i)
  wdata := value
  wen := true

/-- The processor begins no access in the cycles from `a` up to `b`. -/
def Silent (inp : ℕ → Input) (a b : ℕ) : Prop :=
  ∀ t, a ≤ t → t < b → (inp t).bus.wen = false ∧ (inp t).bus.ren = false

/-- An access that begins in cycle `t` and is acknowledged in cycle `u`.  The next one begins in
cycle `t'` at the earliest. -/
structure Access (x : ℕ → System) (inp : ℕ → Input) (t : ℕ) (b : Bus) (u t' : ℕ) : Prop where
  strobe : (inp t).bus = b
  lt : t < u
  gap : u < t'
  silent : Silent inp (t + 1) t'
  /-- The address is held until the acknowledge. -/
  held : ∀ v, t < v → v < u → (inp v).bus.addr = b.addr
  pending : ∀ v, t < v → v < u → (x v).reply.sysAck = false
  ack : (x u).reply.sysAck = true

instance (inp : ℕ → Input) (a b : ℕ) : Decidable (Silent inp a b) :=
  inferInstanceAs <|
    Decidable (∀ t, a ≤ t → t < b → (inp t).bus.wen = false ∧ (inp t).bus.ren = false)

instance (x : ℕ → System) (inp : ℕ → Input) (t : ℕ) (b : Bus) (u t' : ℕ) :
    Decidable (Access x inp t b u t') :=
  decidable_of_iff ((inp t).bus = b ∧ t < u ∧ u < t' ∧ Silent inp (t + 1) t' ∧
      (∀ v, t + 1 ≤ v → v < u → (inp v).bus.addr = b.addr) ∧
      (∀ v, t + 1 ≤ v → v < u → (x v).reply.sysAck = false) ∧ (x u).reply.sysAck = true)
    ⟨fun ⟨hstrobe, hlt, hgap, hsilent, hheld, hpending, hack⟩ =>
        ⟨hstrobe, hlt, hgap, hsilent, hheld, hpending, hack⟩,
      fun h => ⟨h.strobe, h.lt, h.gap, h.silent, h.held, h.pending, h.ack⟩⟩

/-- No answer to a read is under way. -/
def System.answered (s : System) : Prop := s.reply.sysRenD1 = false

section Addresses

theorem toNat_regAddr {index : ℕ} (h : index < 16) :
    (BitVec.ofNat 32 (regBaseAddr + 4 * index)).toNat = regBaseAddr + 4 * index := by
  rw [BitVec.toNat_ofNat, Nat.mod_eq_of_lt]
  unfold regBaseAddr
  omega

theorem toNat_bramAddr {i : ℕ} (h : i < maxSamples) :
    (BitVec.ofNat 32 (bramSharedAddr + 4 * i)).toNat = bramSharedAddr + 4 * i := by
  rw [BitVec.toNat_ofNat, Nat.mod_eq_of_lt]
  unfold bramSharedAddr
  unfold maxSamples at h
  omega

/-- The address of a register. -/
structure Bus.AtReg (b : Bus) (index : ℕ) : Prop where
  selReg : b.selReg = true
  selSharedBram : b.selSharedBram = false
  regAddr : b.regAddr = index

/-- The address of a word of the memory. -/
structure Bus.AtBram (b : Bus) (i : ℕ) : Prop where
  selReg : b.selReg = false
  selSharedBram : b.selSharedBram = true
  bramAddrPs : b.bramAddrPs = i

theorem Bus.atReg_of_addr {b : Bus} {index : ℕ} (h : index < 16)
    (hb : b.addr = .ofNat 32 (regBaseAddr + 4 * index)) : b.AtReg index := by
  have haddr := toNat_regAddr h
  refine ⟨?_, ?_, ?_⟩
  · rw [Bus.selReg, hb, haddr, beq_iff_eq]
    unfold zone regBaseAddr
    omega
  · rw [Bus.selSharedBram, hb, haddr, beq_eq_false_iff_ne]
    unfold zone regBaseAddr bramSharedAddr
    omega
  · rw [Bus.regAddr, hb, haddr]
    unfold regBaseAddr
    omega

theorem Bus.atBram_of_addr {b : Bus} {i : ℕ} (h : i < maxSamples)
    (hb : b.addr = .ofNat 32 (bramSharedAddr + 4 * i)) : b.AtBram i := by
  have haddr := toNat_bramAddr h
  unfold maxSamples at h
  refine ⟨?_, ?_, ?_⟩
  · rw [Bus.selReg, hb, haddr, beq_eq_false_iff_ne]
    unfold zone regBaseAddr bramSharedAddr
    omega
  · rw [Bus.selSharedBram, hb, haddr, beq_iff_eq]
    unfold zone bramSharedAddr
    omega
  · rw [Bus.bramAddrPs, hb, haddr]
    unfold bramSharedAddr
    omega

theorem Bus.atReg_regRead {index : ℕ} (h : index < 16) : (Bus.regRead index).AtReg index :=
  Bus.atReg_of_addr h rfl

theorem Bus.atReg_regWrite {index : ℕ} (h : index < 16) (value : ℕ) :
    (Bus.regWrite index value).AtReg index :=
  Bus.atReg_of_addr h rfl

theorem Bus.atBram_bramRead {i : ℕ} (h : i < maxSamples) : (Bus.bramRead i).AtBram i :=
  Bus.atBram_of_addr h rfl

theorem Bus.atBram_bramWrite {i : ℕ} (h : i < maxSamples) (value : BitVec 32) :
    (Bus.bramWrite i value).AtBram i :=
  Bus.atBram_of_addr h rfl

theorem Bus.AtReg.regWen {b : Bus} {index : ℕ} (h : b.AtReg index) : b.regWen = b.wen := by
  rw [Bus.regWen, h.selReg, Bool.true_and]

theorem Bus.AtReg.writesBram {b : Bus} {index : ℕ} (h : b.AtReg index) : b.writesBram = false := by
  rw [Bus.writesBram, h.selSharedBram, Bool.false_and]

theorem Bus.AtBram.regWen {b : Bus} {i : ℕ} (h : b.AtBram i) : b.regWen = false := by
  rw [Bus.regWen, h.selReg, Bool.false_and]

theorem Bus.regWen_of_wen {b : Bus} (h : b.wen = false) : b.regWen = false := by
  rw [Bus.regWen, h, Bool.and_false]

theorem Bus.writesBram_of_wen {b : Bus} (h : b.wen = false) : b.writesBram = false := by
  rw [Bus.writesBram, h, Bool.and_false]

end Addresses

/-! ### Registers -/

/-- The registers a measurement depends on are the same. -/
structure SameSettings (r r' : MeasureReg) : Prop where
  startMeasure : r'.startMeasure = r.startMeasure
  sigSize : r'.sigSize = r.sigSize
  delay : r'.delay = r.delay
  decimation : r'.decimation = r.decimation

theorem SameSettings.refl (r : MeasureReg) : SameSettings r r := ⟨rfl, rfl, rfl, rfl⟩

theorem SameSettings.trans {r r' r'' : MeasureReg} (h : SameSettings r r')
    (h' : SameSettings r' r'') : SameSettings r r'' :=
  ⟨h'.startMeasure.trans h.startMeasure, h'.sigSize.trans h.sigSize, h'.delay.trans h.delay,
    h'.decimation.trans h.decimation⟩

/-- The registers after an access. -/
def MeasureReg.after (r : MeasureReg) (b : Bus) : MeasureReg :=
  r.tick b.regAddr b.wdata b.regWen false

theorem sameSettings_tick (s : System) (i : Input) :
    SameSettings (s.reg.after i.bus) (s.tick i).reg :=
  ⟨rfl, rfl, rfl, rfl⟩

theorem sameSettings_after (r : MeasureReg) {b : Bus} (h : b.regWen = false) :
    SameSettings r (r.after b) := by
  constructor <;> simp [MeasureReg.after, MeasureReg.tick, h]

section Trace

variable {x : ℕ → System} {inp : ℕ → Input} {b : Bus} {t u t' : ℕ}

/-- While nothing is written the registers stay. -/
theorem settings_of_quiet (hx : Follows System.tick x inp) {a : ℕ} :
    ∀ t, a ≤ t → (∀ v, a ≤ v → v < t → (inp v).bus.regWen = false) →
      SameSettings (x a).reg (x t).reg := by
  intro t hat
  induction t, hat using Nat.le_induction with
  | base =>
      intro _
      exact .refl _
  | succ t hat ih =>
      intro hquiet
      rw [hx t]
      exact (ih fun v hav hvt => hquiet v hav (by omega)).trans
        ((sameSettings_after _ (hquiet t hat (by omega))).trans (sameSettings_tick _ _))

theorem Silent.settings (hx : Follows System.tick x inp) {a c : ℕ} (h : Silent inp a c)
    (hat : a ≤ t) (htc : t ≤ c) : SameSettings (x a).reg (x t).reg :=
  settings_of_quiet hx t hat fun v hav hvt => Bus.regWen_of_wen (h v hav (by omega)).1

/-- **What an access does to the registers**, from the cycle after it on. -/
theorem Access.settings (hx : Follows System.tick x inp) (h : Access x inp t b u t') {v : ℕ}
    (htv : t < v) (hv : v ≤ t') : SameSettings ((x t).reg.after b) (x v).reg := by
  have hnext : SameSettings ((x t).reg.after b) (x (t + 1)).reg := by
    rw [hx t, ← h.strobe]
    exact sameSettings_tick _ _
  exact hnext.trans (h.silent.settings hx htv hv)

/-! ### Answers -/

/-- After a silent cycle no answer is under way. -/
theorem Silent.answered (hx : Follows System.tick x inp) {a c : ℕ} (h : Silent inp a c)
    (hac : a < c) : (x c).answered := by
  obtain ⟨c, rfl⟩ : ∃ n, c = n + 1 := ⟨c - 1, by omega⟩
  rw [hx c]
  exact (h c (by omega) (by omega)).2

theorem Access.answered (hx : Follows System.tick x inp) (h : Access x inp t b u t') :
    (x t').answered := by
  have hlt := h.lt
  have hgap := h.gap
  exact h.silent.answered hx (by omega)

/-- A read is acknowledged in the cycle after next. -/
theorem Access.ack_read (hx : Follows System.tick x inp) (h : Access x inp t b u t')
    (hwen : b.wen = false) (hren : b.ren = true) (hans : (x t).answered) : u = t + 2 := by
  have hlt := h.lt
  have hno : (x (t + 1)).reply.sysAck = false := by
    rw [hx t]
    show ((inp t).bus.wen || (x t).reply.sysRenD1) = false
    rw [h.strobe, hwen, Bool.false_or]
    exact hans
  have hack : (x (t + 2)).reply.sysAck = true := by
    rw [hx (t + 1), hx t]
    show ((inp (t + 1)).bus.wen || (inp t).bus.ren) = true
    rw [h.strobe, hren, Bool.or_true]
  have hne : u ≠ t + 1 := by
    rintro rfl
    rw [h.ack] at hno
    cases hno
  by_contra hne'
  have hpending := h.pending (t + 2) (by omega) (by omega)
  rw [hack] at hpending
  cases hpending

/-- **What the processor reads from a register** is what it shows in the cycle after the strobe. -/
theorem Access.readReg (hx : Follows System.tick x inp) {index : ℕ} (hindex : index < 16)
    (h : Access x inp t (.regRead index) u t') (hans : (x t).answered) :
    u = t + 2 ∧ (x u).reply.sysRdata = (x (t + 1)).reg.rdata index (x (t + 1)).endMeasure
      (x (t + 1)).ctrl.averager.averagedSampleCount (x (t + 1)).busy := by
  have hu := h.ack_read hx rfl rfl hans
  have hat := Bus.atReg_regRead hindex
  have haddr : (inp (t + 1)).bus.addr = (Bus.regRead index).addr :=
    h.held (t + 1) (by omega) (by omega)
  have hreg : (inp (t + 1)).bus.regAddr = index := (Bus.atReg_of_addr hindex haddr).regAddr
  have hren : (x (t + 1)).reply.sysRenD1 = true := by
    rw [hx t]
    show (inp t).bus.ren = true
    rw [h.strobe]
    rfl
  have hsel : (x (t + 1)).reply.selRegD1 = true := by
    rw [hx t]
    show (inp t).bus.selReg = true
    rw [h.strobe]
    exact hat.selReg
  refine ⟨hu, ?_⟩
  rw [hu, hx (t + 1)]
  show ((x (t + 1)).replyTick (inp (t + 1)).bus).sysRdata = _
  simp only [System.replyTick, hren, hsel, if_true, System.regRdata, hreg]
  rfl

/-- **What the processor reads from the memory** while no measurement runs is the word of the
cycle of the strobe. -/
theorem Access.readBram (hx : Follows System.tick x inp) {i : ℕ} (hi : i < maxSamples)
    (h : Access x inp t (.bramRead i) u t') (hans : (x t).answered) (hbusy : (x t).busy = false) :
    u = t + 2 ∧ (x u).reply.sysRdata = ((x t).bram.mem i).setWidth 32 := by
  have hu := h.ack_read hx rfl rfl hans
  have hat := Bus.atBram_bramRead hi
  have hren : (x (t + 1)).reply.sysRenD1 = true := by
    rw [hx t]
    show (inp t).bus.ren = true
    rw [h.strobe]
    rfl
  have hsel : (x (t + 1)).reply.selRegD1 = false := by
    rw [hx t]
    show (inp t).bus.selReg = false
    rw [h.strobe]
    exact hat.selReg
  have hselBram : (x (t + 1)).reply.selSharedBramD1 = true := by
    rw [hx t]
    show (inp t).bus.selSharedBram = true
    rw [h.strobe]
    exact hat.selSharedBram
  have hdenied : (x (t + 1)).reply.bramPsDeniedRdD1 = false := by
    rw [hx t]
    show ((inp t).bus.selSharedBram && (inp t).bus.ren && (x t).busy) = false
    rw [hbusy, Bool.and_false]
  have hdout : (x (t + 1)).bram.doutB = (x t).bram.mem i := by
    rw [hx t]
    show ((x t).bramTick (inp t).bus).doutB = _
    have hreq : (inp t).bus.bramPsReq = true := by
      rw [h.strobe, Bus.bramPsReq, hat.selSharedBram]
      rfl
    have haddr : (inp t).bus.bramAddrPs = i := by
      rw [h.strobe]
      exact hat.bramAddrPs
    simp [System.bramTick, Bram.tick, hbusy, hreq, haddr]
  refine ⟨hu, ?_⟩
  rw [hu, hx (t + 1)]
  show ((x (t + 1)).replyTick (inp (t + 1)).bus).sysRdata = _
  simp [System.replyTick, hren, hsel, hselBram, hdenied, hdout]

/-! ### Between two accesses -/

/-- What holds between two accesses: no answer is under way, and the decimation is valid. -/
structure Calm (x : ℕ → System) (t : ℕ) : Prop where
  answered : (x t).answered
  decimation : isValidDecimation (x t).reg.decimation = true

/-- `START` has been low since cycle `t₀`. -/
structure Low (x : ℕ → System) (t₀ t : ℕ) : Prop extends Calm x t where
  le : t₀ ≤ t
  start : ∀ v, t₀ ≤ v → v ≤ t → (x v).reg.startMeasure = false

theorem Low.now {t₀ : ℕ} (h : Low x t₀ t) : (x t).reg.startMeasure = false := h.start t h.le le_rfl

/-- Nothing but the last cycle counts. -/
theorem Calm.low (h : Calm x t) (hstart : (x t).reg.startMeasure = false) : Low x t t :=
  ⟨h, le_rfl, fun _ htv hvt => Nat.le_antisymm hvt htv ▸ hstart⟩

/-- Nothing happens for a while. -/
theorem Silent.calm (hx : Follows System.tick x inp) {a c : ℕ} (h : Silent inp a c) (hac : a ≤ c)
    (hcalm : Calm x a) : Calm x c := by
  refine ⟨?_, ?_⟩
  · rcases Nat.lt_or_eq_of_le hac with hlt | rfl
    · exact h.answered hx hlt
    · exact hcalm.answered
  · rw [(h.settings hx hac le_rfl).decimation]
    exact hcalm.decimation

theorem Silent.low (hx : Follows System.tick x inp) {t₀ a c : ℕ} (h : Silent inp a c) (hac : a ≤ c)
    (hlow : Low x t₀ a) : Low x t₀ c := by
  refine ⟨h.calm hx hac hlow.toCalm, hlow.le.trans hac, fun v hv hvc => ?_⟩
  rcases Nat.lt_or_ge v a with hlt | hge
  · exact hlow.start v hv hlt.le
  · rw [(h.settings hx hge hvc).startMeasure]
    exact hlow.now

/-- An access that leaves `START` low and the decimation valid. -/
theorem Access.low (hx : Follows System.tick x inp) {t₀ : ℕ} (h : Access x inp t b u t')
    (hlow : Low x t₀ t) (hstart : ((x t).reg.after b).startMeasure = false)
    (hdec : isValidDecimation ((x t).reg.after b).decimation = true) : Low x t₀ t' := by
  have hlt := h.lt
  have hgap := h.gap
  refine ⟨⟨h.answered hx, ?_⟩, by have := hlow.le; omega, fun v hv hvt => ?_⟩
  · rw [(h.settings hx (by omega) le_rfl).decimation]
    exact hdec
  · rcases Nat.lt_or_ge t v with htv | hvt'
    · rw [(h.settings hx htv hvt).startMeasure]
      exact hstart
    · exact hlow.start v hv hvt'

/-- A write of a register is a clock edge of the register bank. -/
theorem MeasureReg.after_regWrite (r : MeasureReg) {index : ℕ} (h : index < 16) (value : ℕ) :
    r.after (.regWrite index value) = r.tick index (.ofNat 32 value) true false := by
  have hat := Bus.atReg_regWrite h value
  rw [MeasureReg.after, hat.regAddr, hat.regWen]
  rfl

/-- The write is on the bus in its first cycle. -/
theorem Access.writes {index value : ℕ} (h : Access x inp t (.regWrite index value) u t')
    (hindex : index < 16) (hvalue : value < 2 ^ 32) : (inp t).bus.Writes index value := by
  have hat := Bus.atReg_regWrite hindex value
  rw [h.strobe]
  refine ⟨⟨?_, hat.regAddr⟩, ?_⟩
  · rw [hat.regWen]
    rfl
  · show (BitVec.ofNat 32 value).toNat = value
    rw [BitVec.toNat_ofNat, Nat.mod_eq_of_lt hvalue]

/-! ### Measurements between accesses -/

/-- With `START` low the controller is idle in the cycle after one in which it does not run. -/
theorem idle_of_not_busy (hx : Follows System.tick x inp) (hbusy : (x t).busy = false)
    (hstart : (x t).reg.startMeasure = false) : (x (t + 1)).ctrl.fsm.state = .idle := by
  rw [hx t]
  cases hstate : (x t).ctrl.fsm.state with
  | idle => exact idle_tick hstate hstart
  | running =>
      rw [busy_eq_true hstate] at hbusy
      cases hbusy
  | finished =>
      show ((x t).ctrl.fsm.tick (x t).ctrl.thr (x t).reg.startMeasure (x t).reg.delay).state = _
      simp [Fsm.tick, hstate, hstart]

/-- It stays idle as long as `START` stays low. -/
theorem idle_until (hx : Follows System.tick x inp) {a : ℕ} (ha : (x a).ctrl.fsm.state = .idle) :
    ∀ t, a ≤ t → (∀ v, a ≤ v → v < t → (x v).reg.startMeasure = false) →
      (x t).ctrl.fsm.state = .idle := by
  intro t hat
  induction t, hat using Nat.le_induction with
  | base =>
      intro _
      exact ha
  | succ t hat ih =>
      intro hstart
      rw [hx t]
      exact idle_tick (ih fun v hav hvt => hstart v hav (by omega)) (hstart t hat (by omega))

/-- Measurement `m` was started in cycle `c` from an idle controller, and nothing has been written
since. -/
structure Started (m : Settings) (x : ℕ → System) (inp : ℕ → Input) (c t : ℕ) : Prop where
  lt : c < t
  idle : (x c).ctrl.fsm.state = .idle
  start : (x c).reg.startMeasure = false
  sigSize : (x c).reg.sigSize = m.numSamples
  delay : (x c).reg.delay = m.delay
  decimation : (x c).reg.decimation = m.decimation
  go : (inp c).bus.Writes regStartMeasure 1
  quiet : ∀ v, c < v → v < t → (inp v).bus.wen = false

/-- Word `k` of the measurement started in cycle `c`: what the averager writes for it. -/
def Settings.word (m : Settings) (x : ℕ → System) (c k : ℕ) : Word :=
  (x (c + (2 + m.writeCycle k))).ctrl.averager.bramIn

/-- Measurement `m`, started in cycle `c`, has run to its end and has not been acknowledged, and its
words are in the memory. -/
structure Acquired (m : Settings) (x : ℕ → System) (c t : ℕ) : Prop where
  run : ExactRun m (fun n => x (c + n)) 2
  ended : c + 2 + m.lastCycle < t
  finished : (x t).ctrl.fsm.state = .finished
  start : (x t).reg.startMeasure = true
  decimation : (x t).reg.decimation = m.decimation
  words : ∀ k < m.numSamples, (x t).bram.mem k = m.word x c k

variable {m : Settings} {c : ℕ}

theorem Started.mono (h : Started m x inp c t) (htt : t ≤ t')
    (hquiet : ∀ v, t ≤ v → v < t' → (inp v).bus.wen = false) : Started m x inp c t' := by
  refine { h with lt := h.lt.trans_le htt, quiet := fun v hcv hvt => ?_ }
  rcases Nat.lt_or_ge v t with hlt | hge
  · exact h.quiet v hcv hlt
  · exact hquiet v hge hvt

/-- From the cycle after the write on, the registers show the settings and `START`. -/
theorem Started.settings (hx : Follows System.tick x inp) (h : Started m x inp c t) {v : ℕ}
    (hcv : c < v) (hvt : v ≤ t) :
    (x v).reg.startMeasure = true ∧ (x v).reg.decimation = m.decimation := by
  obtain ⟨⟨hwen, haddr⟩, hdata⟩ := h.go
  have hone : (inp c).bus.wdata = 1#32 := BitVec.eq_of_toNat_eq (by rw [hdata]; rfl)
  have hafter : SameSettings ((x c).reg.after (inp c).bus) (x v).reg := by
    have hnext : SameSettings ((x c).reg.after (inp c).bus) (x (c + 1)).reg := by
      rw [hx c]
      exact sameSettings_tick _ _
    exact hnext.trans (settings_of_quiet hx v hcv fun w hcw hwv =>
      Bus.regWen_of_wen (h.quiet w hcw (by omega)))
  constructor
  · rw [hafter.startMeasure]
    simp [MeasureReg.after, MeasureReg.tick, hwen, haddr, hone]
  · rw [hafter.decimation]
    simp [MeasureReg.after, MeasureReg.tick, haddr, regStartMeasure, regDecimation, h.decimation]

/-- While no measurement runs and nothing is written, the memory stays. -/
theorem mem_until (hx : Follows System.tick x inp) {a : ℕ} : ∀ t, a ≤ t →
    (∀ v, a ≤ v → v < t → (x v).busy = false ∧ (inp v).bus.writesBram = false) →
      (x t).bram.mem = (x a).bram.mem := by
  intro t hat
  induction t, hat using Nat.le_induction with
  | base =>
      intro _
      rfl
  | succ t hat ih =>
      intro hquiet
      obtain ⟨hbusy, hwrites⟩ := hquiet t hat (by omega)
      rw [hx t, mem_tick_of_not_busy hbusy hwrites]
      exact ih fun v hav hvt => hquiet v hav (by omega)

/-- **`END` says that the words are in the memory**: a measurement that was started and left alone
has run to its end when `END` is high. -/
theorem Started.acquired (hx : Follows System.tick x inp) (hrest : ∀ v, Rested (x v))
    (h : Started m x inp c t) {e : ℕ} (hce : c < e) (het : e ≤ t)
    (hend : (x e).endMeasure = true) : Acquired m x c e := by
  have hy := hx.shift c
  -- `END` is high in cycle `e`, so it has been low only in cycles without a write
  have hquiet : ∀ n, 0 < n → (∀ v ≤ n, (x (c + v)).endMeasure = false) →
      (inp (c + n)).bus.regWen = false := by
    intro n hn hlow
    have hlt : c + n < e := by
      by_contra hge
      obtain ⟨v, rfl⟩ := Nat.exists_eq_add_of_le hce.le
      rw [hlow v (by omega)] at hend
      cases hend
    exact Bus.regWen_of_wen (h.quiet (c + n) (by omega) (by omega))
  have hall := runAt_all hy (hrest c) h.idle h.start h.sigSize h.delay h.decimation h.go hquiet
  have hrun : ∀ n ≤ m.lastCycle, RunAt m (x (c + 2)).bram.mem n (x (c + (2 + n))) :=
    fun n hn => (hall n hn).1
  have hidle₁ : (x (c + 1)).ctrl.fsm.state = .idle := by
    rw [hx c]
    exact idle_tick h.idle h.start
  have hexact : ExactRun m (fun n => x (c + n)) 2 := by
    refine exactRun_of_runAt hy (fun n => hrest (c + n)) (fun n hn => ?_) hrun
    rcases Nat.le_one_iff_eq_zero_or_eq_one.1 (show n ≤ 1 by omega) with rfl | rfl
    · exact h.idle
    · exact hidle₁
  -- before the end `END` is low
  have hended : c + 2 + m.lastCycle < e := by
    by_contra hge
    obtain ⟨v, rfl⟩ := Nat.exists_eq_add_of_le hce.le
    have hlow := (hall m.lastCycle le_rfl).2 v (by omega)
    rw [hend] at hlow
    cases hlow
  obtain ⟨a, ha⟩ : ∃ a, a = c + (2 + m.lastCycle + 1) := ⟨_, rfl⟩
  have hlast : x a = (x (c + (2 + m.lastCycle))).tick (inp (c + (2 + m.lastCycle))) := by
    rw [ha]
    exact hx _
  have hfin : (x a).ctrl.fsm.state = .finished := by
    rw [hlast, (hrun m.lastCycle le_rfl).tick_last.1]
    rfl
  have hend' : (x a).endMeasure = true := by
    rw [ha]
    exact hexact.rises.2
  have hheld := finished_held hx hfin hend'
  have hstart : ∀ v, a ≤ v → v ≤ e → (x v).reg.startMeasure = true := fun v hav hve =>
    (h.settings hx (by omega) (by omega)).1
  obtain ⟨hstart', hdec⟩ := h.settings hx hce het
  have hstate : (x e).ctrl.fsm.state = .finished :=
    (hheld e (by omega) fun v hav hve => hstart v hav hve.le).1
  refine ⟨hexact, hended, hstate, hstart', hdec, fun k hk => ?_⟩
  have hwritten : (x a).bram.mem k = m.word x c k := by
    have hmem := hexact.memory k hk (m.lastCycle + 1)
      (by have := m.writeCycle_lt_lastCycle hk; omega) le_rfl
    rw [ha]
    exact hmem
  have hstay : (x e).bram.mem = (x a).bram.mem := by
    refine mem_until hx e (by omega) fun v hav hve => ?_
    have hstate := (hheld v hav fun w haw hwv => hstart w haw (by omega)).1
    exact ⟨busy_eq_false (by simp [hstate]),
      Bus.writesBram_of_wen (h.quiet v (by omega) (by omega))⟩
  rw [hstay, hwritten]

/-- A finished measurement stays so through a cycle that keeps `START` and the decimation, and
writes no word. -/
theorem Acquired.tick (hx : Follows System.tick x inp) (h : Acquired m x c t)
    (hwrites : (inp t).bus.writesBram = false)
    (hset : SameSettings (x t).reg ((x t).reg.after (inp t).bus)) : Acquired m x c (t + 1) := by
  have hbusy : (x t).busy = false := busy_eq_false (by simp [h.finished])
  have hreg : SameSettings (x t).reg (x (t + 1)).reg := by
    rw [hx t]
    exact hset.trans (sameSettings_tick _ _)
  refine ⟨h.run, h.ended.trans (Nat.lt_succ_self t), ?_, hreg.startMeasure.trans h.start,
    hreg.decimation.trans h.decimation, fun k hk => ?_⟩
  · rw [hx t]
    show ((x t).ctrl.fsm.tick (x t).ctrl.thr (x t).reg.startMeasure (x t).reg.delay).state = _
    simp [Fsm.tick, h.finished, h.start]
  · rw [hx t, mem_tick_of_not_busy hbusy hwrites]
    exact h.words k hk

theorem Acquired.silent (hx : Follows System.tick x inp) (h : Acquired m x c t)
    (hsilent : Silent inp t t') : ∀ v, t ≤ v → v ≤ t' → Acquired m x c v := by
  intro v htv
  induction v, htv using Nat.le_induction with
  | base =>
      intro _
      exact h
  | succ v htv ih =>
      intro hle
      obtain ⟨hwen, -⟩ := hsilent v htv (by omega)
      exact (ih (by omega)).tick hx (Bus.writesBram_of_wen hwen)
        (sameSettings_after _ (Bus.regWen_of_wen hwen))

/-- **The words stay in the memory** through an access that neither writes a word nor changes the
settings. -/
theorem Acquired.access (hx : Follows System.tick x inp) (h : Acquired m x c t)
    (hb : Access x inp t b u t') (hwrites : b.writesBram = false)
    (hset : SameSettings (x t).reg ((x t).reg.after b)) :
    ∀ v, t ≤ v → v ≤ t' → Acquired m x c v := by
  intro v htv hvt
  rcases Nat.lt_or_eq_of_le htv with hlt | rfl
  · rw [← hb.strobe] at hwrites hset
    exact (h.tick hx hwrites hset).silent hx hb.silent v hlt hvt
  · exact h

end Trace

end Fpga

end Afm
