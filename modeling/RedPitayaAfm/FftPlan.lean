/-
**Plans and buffers of the transform.**

`FFTProcessor` keeps a plan of the FFT library with the two arrays it works on, and makes them anew
for a record of another size.  Any allocation and any planning may fail, and so may the vector in which a
transform returns its bins.  The model is a program over the calls of the library, on a heap that
remembers every access through a null pointer, to an array that is not there or beyond its end, and
every release of what is not there.

Main definitions:

* `Afm.Fftw.Heap`, `Afm.Fftw.library` — arrays and plans, and what the calls of the library do;
* `Afm.Fftw.Processor`, `Afm.Fftw.Fault` — the pointers of `FFTProcessor`, and its exceptions;
* `Afm.Fftw.cleanupPlan`, `Afm.Fftw.initializePlan`, `Afm.Fftw.compute` — its methods;
* `Afm.Fftw.Session`, `Afm.Fftw.Computes` — a sequence of transforms, and what each of them answers.

Main results:

* `Afm.Fftw.triple_cleanupPlan` — the destructor gives everything back, whatever there is;
* `Afm.Fftw.toInt_eq`, `Afm.Fftw.toInt_nonpos` — the size that the planner sees;
* `Afm.Fftw.triple_compute` — a transform answers the bins of its own record;
* `Afm.Fftw.transforms_own_record` — **so does every transform, and nothing is lost or misused**.
-/

import Mathlib.Logic.Function.Basic
import RedPitayaAfm.Effect
import RedPitayaAfm.SignalProcessing

set_option relaxedAutoImplicit false
set_option autoImplicit false

namespace Afm

namespace Fftw

open Effect

/-! ### The library -/

/-- The calls of the library, the accesses to its arrays, and the vector that `computeFFT` returns.
A pointer may be null.  The two `free` calls are `fftwf_free` on an array of each kind. -/
inductive Call (K : Type)
  | allocReal (size : ℕ)
  | allocComplex (size : ℕ)
  | plan (size : ℤ) (input output : Option ℕ)
  | destroyPlan (plan : Option ℕ)
  | freeReal (array : Option ℕ)
  | freeComplex (array : Option ℕ)
  | copy (signal : List K) (array : Option ℕ)
  | execute (plan : Option ℕ)
  | makeResult (count : ℕ)
  | read (array : Option ℕ) (count : ℕ)

/-- The reply to a call; that to a vector says whether there was room for it. -/
def Call.Reply {K : Type} : Call K → Type
  | .allocReal _ => Option ℕ
  | .allocComplex _ => Option ℕ
  | .plan _ _ _ => Option ℕ
  | .makeResult _ => Bool
  | .read _ _ => List (K × K)
  | _ => Unit

/-- The library as an interface. -/
abbrev fftw (K : Type) : Interface := ⟨Call K, Call.Reply⟩

/-- The arrays with their sizes and contents, and the plans with their sizes and arrays. -/
structure Heap (K : Type) where
  reals : ℕ → Option (ℕ × (ℕ → K)) := fun _ => none
  bins : ℕ → Option (ℕ × (ℕ → K × K)) := fun _ => none
  plans : ℕ → Option (ℕ × ℕ × ℕ) := fun _ => none
  misused : Bool := false

namespace Heap

variable {K : Type} (w : Heap K)

/-- An access that is not allowed. -/
def misuse : Heap K := { w with misused := true }

/-- An array of reals is given back. -/
def freeReal (array : Option ℕ) : Heap K :=
  match array with
  | none => w.misuse
  | some a => if (w.reals a).isSome then { w with reals := Function.update w.reals a none }
      else w.misuse

/-- An array of complex numbers is given back. -/
def freeComplex (array : Option ℕ) : Heap K :=
  match array with
  | none => w.misuse
  | some a => if (w.bins a).isSome then { w with bins := Function.update w.bins a none }
      else w.misuse

/-- A plan is given back. -/
def destroyPlan (plan : Option ℕ) : Heap K :=
  match plan with
  | none => w.misuse
  | some q => if (w.plans q).isSome then { w with plans := Function.update w.plans q none }
      else w.misuse

/-- Whether a record of this size fits the two arrays. -/
def HasArrays (size a b : ℕ) : Prop :=
  (∃ n x, w.reals a = some (n, x) ∧ size ≤ n) ∧ ∃ n y, w.bins b = some (n, y) ∧ size / 2 + 1 ≤ n

/-- `std::copy` of a record into an array. -/
def copy (signal : List K) (array : Option ℕ) : Heap K :=
  match array with
  | none => w.misuse
  | some a => match w.reals a with
    | none => w.misuse
    | some (n, x) => if signal.length ≤ n then
          { w with reals := Function.update w.reals a (some (n, fun i => signal.getD i (x i))) }
        else w.misuse

/-- What a transform leaves in an array: the bins of a record up to half its size. -/
def transformed (N : Numerics K) (size : ℕ) (x : ℕ → K) (y : ℕ → K × K) (i : ℕ) : K × K :=
  if i ≤ size / 2 then N.fft ((List.range size).map x) i else y i

/-- `fftwf_execute` -/
def execute (N : Numerics K) (plan : Option ℕ) : Heap K :=
  match plan with
  | none => w.misuse
  | some q => match w.plans q with
    | none => w.misuse
    | some (size, a, b) => match w.reals a, w.bins b with
      | some (m, x), some (n, y) => if size ≤ m ∧ size / 2 + 1 ≤ n then
            { w with bins := Function.update w.bins b (some (n, transformed N size x y)) }
          else w.misuse
      | _, _ => w.misuse

/-- The first numbers of an array. -/
def read (array : Option ℕ) (count : ℕ) : List (K × K) × Heap K :=
  match array with
  | none => ([], w.misuse)
  | some b => match w.bins b with
    | none => ([], w.misuse)
    | some (n, y) => if count ≤ n then ((List.range count).map y, w) else ([], w.misuse)

end Heap

/-- What the library may do.  An allocation fails, or gives an array that is not in use, with any
contents; planning fails, or gives a new plan, and with arrays that do not fit it is a misuse.
There is no plan for a size that is not positive. -/
inductive Step {K : Type} (N : Numerics K) (w : Heap K) :
    (c : Call K) → c.Reply → Heap K → Prop
  | allocRealFailed (size : ℕ) : Step N w (.allocReal size) none w
  | allocReal (size a : ℕ) (x : ℕ → K) (hfresh : w.reals a = none) :
      Step N w (.allocReal size) (some a)
        { w with reals := Function.update w.reals a (some (size, x)) }
  | allocComplexFailed (size : ℕ) : Step N w (.allocComplex size) none w
  | allocComplex (size b : ℕ) (y : ℕ → K × K) (hfresh : w.bins b = none) :
      Step N w (.allocComplex size) (some b)
        { w with bins := Function.update w.bins b (some (size, y)) }
  | planRefused (size : ℤ) (input output : Option ℕ) (h : size ≤ 0) :
      Step N w (.plan size input output) none w
  | planFailed (size : ℤ) (a b : ℕ) (hpos : 0 < size) (h : w.HasArrays size.toNat a b) :
      Step N w (.plan size (some a) (some b)) none w
  | plan (size : ℤ) (a b q : ℕ) (hpos : 0 < size) (h : w.HasArrays size.toNat a b)
      (hfresh : w.plans q = none) :
      Step N w (.plan size (some a) (some b)) (some q)
        { w with plans := Function.update w.plans q (some (size.toNat, a, b)) }
  | planMisused (size : ℤ) (input output r : Option ℕ) (hpos : 0 < size)
      (h : ∀ a b, input = some a → output = some b → ¬w.HasArrays size.toNat a b) :
      Step N w (.plan size input output) r w.misuse
  | destroyPlan (plan : Option ℕ) : Step N w (.destroyPlan plan) () (w.destroyPlan plan)
  | freeReal (array : Option ℕ) : Step N w (.freeReal array) () (w.freeReal array)
  | freeComplex (array : Option ℕ) : Step N w (.freeComplex array) () (w.freeComplex array)
  | copy (signal : List K) (array : Option ℕ) :
      Step N w (.copy signal array) () (w.copy signal array)
  | execute (plan : Option ℕ) : Step N w (.execute plan) () (w.execute N plan)
  | makeResult (count : ℕ) (room : Bool) : Step N w (.makeResult count) room w
  | read (array : Option ℕ) (count : ℕ) :
      Step N w (.read array count) (w.read array count).1 (w.read array count).2

/-- The library as an environment. -/
abbrev library {K : Type} (N : Numerics K) : World (fftw K) := ⟨Heap K, Step N⟩

/-! ### The processor -/

/-- The pointers of `FFTProcessor`, and `m_planSize`. -/
structure Processor where
  forwardPlan : Option ℕ := none
  inputBuffer : Option ℕ := none
  outputBuffer : Option ℕ := none
  planSize : ℕ := 0
  deriving DecidableEq

/-- The exceptions of `FFTProcessor`.  `noRoom` is what the vector of a result throws. -/
inductive Fault
  | invalidArgument (what : Text)
  | runtimeError (what : Text)
  | noRoom
  deriving DecidableEq

/-- `static_cast<int>` of a `size_t` -/
def toInt (size : ℕ) : ℤ := (BitVec.ofNat 32 size).toInt

theorem toInt_le (size : ℕ) : toInt size ≤ size := by
  rw [toInt, BitVec.toInt_eq_toNat_cond, BitVec.toNat_ofNat]
  split <;> omega

theorem toInt_eq {size : ℕ} (h : size < 2 ^ 31) : toInt size = size := by
  rw [toInt, BitVec.toInt_eq_toNat_cond, BitVec.toNat_ofNat]
  split <;> omega

theorem toInt_nonpos {size : ℕ} (h₁ : 2 ^ 31 ≤ size) (h₂ : size ≤ 2 ^ 32) : toInt size ≤ 0 := by
  rw [toInt, BitVec.toInt_eq_toNat_cond, BitVec.toNat_ofNat]
  split <;> omega

/-- Up to this size the planner sees the size, or refuses it. -/
theorem toInt_toNat {size : ℕ} (h : size ≤ 2 ^ 32) (hpos : 0 < toInt size) :
    (toInt size).toNat = size := by
  have hlt : size < 2 ^ 31 := by
    by_contra hlarge
    exact absurd hpos (not_lt.2 (toInt_nonpos (not_lt.1 hlarge) h))
  rw [toInt_eq hlt, Int.toNat_natCast]

section Methods

variable {K : Type}

/-- A method of `FFTProcessor`. -/
abbrev Method (K α : Type) := Act (fftw K) Processor Fault α

/-- The plan, where there is one, is given back. -/
def dropPlan : Method K Unit := do
  let s ← Act.get
  if s.forwardPlan.isSome then do
    let _ ← Act.call (I := fftw K) (.destroyPlan s.forwardPlan)
    Act.modify fun s => { s with forwardPlan := none }
  else pure ()

/-- The array of reals, where there is one, is given back. -/
def dropInput : Method K Unit := do
  let s ← Act.get
  if s.inputBuffer.isSome then do
    let _ ← Act.call (I := fftw K) (.freeReal s.inputBuffer)
    Act.modify fun s => { s with inputBuffer := none }
  else pure ()

/-- The array of complex numbers, where there is one, is given back. -/
def dropOutput : Method K Unit := do
  let s ← Act.get
  if s.outputBuffer.isSome then do
    let _ ← Act.call (I := fftw K) (.freeComplex s.outputBuffer)
    Act.modify fun s => { s with outputBuffer := none }
  else pure ()

/-- `_cleanupPlan`, and the destructor. -/
def cleanupPlan : Method K Unit := do
  dropPlan
  dropInput
  dropOutput
  Act.modify fun s => { s with planSize := 0 }

/-- Everything is given back before an exception. -/
def abandon (what : Text) : Method K Unit := do
  cleanupPlan
  Act.throw (.runtimeError what)

/-- `_initializePlan` with its arrays. -/
def makePlan (size : ℕ) (input output : Option ℕ) : Method K Unit := do
  let plan : Option ℕ ← Act.call (I := fftw K) (.plan (toInt size) input output)
  Act.modify fun s => { s with forwardPlan := plan }
  if plan.isSome then pure () else abandon "Failed to create FFTW plan".toList

/-- `_initializePlan` -/
def initializePlan (size : ℕ) : Method K Unit := do
  cleanupPlan
  Act.modify fun s => { s with planSize := size }
  let input : Option ℕ ← Act.call (I := fftw K) (.allocReal size)
  Act.modify fun s => { s with inputBuffer := input }
  let output : Option ℕ ← Act.call (I := fftw K) (.allocComplex (size / 2 + 1))
  Act.modify fun s => { s with outputBuffer := output }
  if input.isSome ∧ output.isSome then makePlan size input output
  else abandon "Failed to allocate FFTW buffers".toList

/-- A plan for records of this size. -/
def preparePlan (size : ℕ) : Method K Unit := do
  let s ← Act.get
  if s.planSize ≠ size then initializePlan size else pure ()

variable [Field K]

/-- A bin of a record of `size` samples, scaled. -/
def scaled (size : ℕ) (z : K × K) : K × K := (z.1 / size, z.2 / size)

/-- The end of `computeFFT`: the bins in a vector of their own. -/
def readBins (size : ℕ) : Method K (List (K × K)) := do
  let s ← Act.get
  let room : Bool ← Act.call (I := fftw K) (.makeResult (size / 2 + 1))
  if room then do
    let bins : List (K × K) ← Act.call (I := fftw K) (.read s.outputBuffer (size / 2 + 1))
    pure (bins.map (scaled size))
  else Act.throw .noRoom

/-- `computeFFT` on the arrays of its plan. -/
def transformRecord (record : List K) : Method K (List (K × K)) := do
  let s ← Act.get
  let _ ← Act.call (I := fftw K) (.copy record s.inputBuffer)
  let _ ← Act.call (I := fftw K) (.execute s.forwardPlan)
  readBins record.length

/-- `computeFFT` -/
def compute (record : List K) : Method K (List (K × K)) :=
  if record.isEmpty then Act.throw (.invalidArgument "Input signal cannot be empty".toList)
  else do
    preparePlan record.length
    transformRecord record

end Methods

/-! ### One entry in a table -/

section Single

variable {V : Type}

/-- A table with one entry, if there is an address for it. -/
def single (p : Option ℕ) (v : V) (i : ℕ) : Option V := if p = some i then some v else none

@[simp] theorem single_self (a : ℕ) (v : V) : single (some a) v a = some v := if_pos rfl

@[simp] theorem single_none (v : V) : single none v = fun _ => none := by
  funext i
  exact if_neg (Option.some_ne_none i).symm

theorem update_single (a : ℕ) (v v' : V) :
    Function.update (single (some a) v) a (some v') = single (some a) v' := by
  funext i
  by_cases hi : i = a
  · subst hi
    simp
  · have hne : (some a : Option ℕ) ≠ some i := fun h => hi (Option.some.inj h).symm
    rw [Function.update_of_ne hi, single, single, if_neg hne, if_neg hne]

theorem update_empty (a : ℕ) (v : V) :
    Function.update (fun _ => none) a (some v) = single (some a) v := by
  funext i
  by_cases hi : i = a
  · subst hi
    simp
  · have hne : (some a : Option ℕ) ≠ some i := fun h => hi (Option.some.inj h).symm
    rw [Function.update_of_ne hi, single, if_neg hne]

theorem release_single (a : ℕ) (v : V) :
    Function.update (single (some a) v) a none = fun _ => none := by
  funext i
  by_cases hi : i = a
  · subst hi
    simp
  · have hne : (some a : Option ℕ) ≠ some i := fun h => hi (Option.some.inj h).symm
    rw [Function.update_of_ne hi, single, if_neg hne]

end Single

/-! ### What the pointers own -/

section Owned

variable {K : Type} {N : Numerics K}

/-- The heap on which there is what the pointers point to, and nothing else. -/
def heapOf (s : Processor) (x : ℕ × (ℕ → K)) (y : ℕ × (ℕ → K × K)) (d : ℕ × ℕ × ℕ) : Heap K where
  reals := single s.inputBuffer x
  bins := single s.outputBuffer y
  plans := single s.forwardPlan d

/-- Everything that is there is pointed to, and nothing was misused. -/
def Owned (s : Processor) (w : Heap K) : Prop := ∃ x y d, w = heapOf s x y d

/-- Nothing is there. -/
def Idle (s : Processor) (w : Heap K) : Prop := s = {} ∧ w = {}

theorem Idle.owned [Zero K] {s : Processor} {w : Heap K} (h : Idle s w) : Owned s w := by
  obtain ⟨rfl, rfl⟩ := h
  exact ⟨(0, 0), (0, 0), (0, 0, 0), by simp [heapOf]⟩

theorem triple_dropPlan : Triple (library N) Owned (dropPlan (K := K))
    fun r s w => r = .ok () ∧ Owned s w ∧ s.forwardPlan = none := by
  refine Triple.read fun v => Triple.ite (fun hv => ?_) fun hv => Triple.pure ?_
  · obtain ⟨q, hq⟩ := Option.isSome_iff_exists.1 hv
    refine Triple.callThen (fun _ s w => Owned { s with forwardPlan := none } w) ?_
      fun _ => Triple.modify fun s w h => ⟨rfl, h, rfl⟩
    rintro s w ⟨rfl, x, y, d, rfl⟩ r w' hstep
    cases hstep
    exact ⟨x, y, d, by simp [heapOf, Heap.destroyPlan, hq, release_single]⟩
  · rintro s w ⟨rfl, h⟩
    exact ⟨rfl, h, by simpa using hv⟩

theorem triple_dropInput :
    Triple (library N) (fun s w => Owned s w ∧ s.forwardPlan = none) (dropInput (K := K))
      fun r s w => r = .ok () ∧ Owned s w ∧ s.forwardPlan = none ∧ s.inputBuffer = none := by
  refine Triple.read fun v => Triple.ite (fun hv => ?_) fun hv => Triple.pure ?_
  · obtain ⟨a, ha⟩ := Option.isSome_iff_exists.1 hv
    refine Triple.callThen
      (fun _ s w => Owned { s with inputBuffer := none } w ∧ s.forwardPlan = none) ?_
      fun _ => Triple.modify fun s w h => ⟨rfl, h.1, h.2, rfl⟩
    rintro s w ⟨rfl, ⟨x, y, d, rfl⟩, hplan⟩ r w' hstep
    cases hstep
    exact ⟨⟨x, y, d, by simp [heapOf, Heap.freeReal, ha, release_single]⟩, hplan⟩
  · rintro s w ⟨rfl, h, hplan⟩
    exact ⟨rfl, h, hplan, by simpa using hv⟩

theorem triple_dropOutput :
    Triple (library N) (fun s w => Owned s w ∧ s.forwardPlan = none ∧ s.inputBuffer = none)
      (dropOutput (K := K)) fun r s w => r = .ok () ∧ Owned s w ∧ s.forwardPlan = none ∧
        s.inputBuffer = none ∧ s.outputBuffer = none := by
  refine Triple.read fun v => Triple.ite (fun hv => ?_) fun hv => Triple.pure ?_
  · obtain ⟨b, hb⟩ := Option.isSome_iff_exists.1 hv
    refine Triple.callThen (fun _ s w => Owned { s with outputBuffer := none } w ∧
        s.forwardPlan = none ∧ s.inputBuffer = none) ?_
      fun _ => Triple.modify fun s w h => ⟨rfl, h.1, h.2.1, h.2.2, rfl⟩
    rintro s w ⟨rfl, ⟨x, y, d, rfl⟩, hnone⟩ r w' hstep
    cases hstep
    exact ⟨⟨x, y, d, by simp [heapOf, Heap.freeComplex, hb, release_single]⟩, hnone⟩
  · rintro s w ⟨rfl, h, hplan, hinput⟩
    exact ⟨rfl, h, hplan, hinput, by simpa using hv⟩

/-- **The destructor gives everything back**, each array and the plan once, whatever there is. -/
theorem triple_cleanupPlan : Triple (library N) Owned (cleanupPlan (K := K))
    fun r s w => r = .ok () ∧ Idle s w := by
  refine Triple.bind triple_dropPlan (fun _ => ?_) fun e s w h => nomatch h.1
  refine Triple.bind (triple_dropInput.conseq (fun s w h => h.2) fun _ _ _ h => h) (fun _ => ?_)
    fun e s w h => nomatch h.1
  refine Triple.bind (triple_dropOutput.conseq (fun s w h => h.2) fun _ _ _ h => h) (fun _ => ?_)
    fun e s w h => nomatch h.1
  refine Triple.modify fun s w h => ?_
  obtain ⟨-, ⟨x, y, d, rfl⟩, hplan, hinput, houtput⟩ := h
  refine ⟨rfl, ?_, ?_⟩
  · rw [hplan, hinput, houtput]
  · simp [heapOf, hplan, hinput, houtput]

theorem triple_abandon (what : Text) : Triple (library N) Owned (abandon (K := K) what)
    fun r s w => r = .error (.runtimeError what) ∧ Idle s w :=
  Triple.bind triple_cleanupPlan (fun _ => Triple.throw fun _ _ h => ⟨rfl, h.2⟩)
    fun _ _ _ h => nomatch h.1

/-! ### Making a plan -/

/-- The arrays of a plan have been asked for. -/
structure Asked (size : ℕ) (input output : Option ℕ) (s : Processor) (w : Heap K) : Prop where
  fields : s = ⟨none, input, output, size⟩
  heap : ∃ x y d, w = heapOf s (size, x) (size / 2 + 1, y) d

/-- There is a plan for records of this size, with arrays of its own that hold these numbers. -/
structure Holds (size : ℕ) (x : ℕ → K) (y : ℕ → K × K) (s : Processor) (w : Heap K) : Prop where
  accepted : 0 < toInt size
  heap : ∃ q a b, s = ⟨some q, some a, some b, size⟩ ∧
    w = heapOf s (size, x) (size / 2 + 1, y) ((toInt size).toNat, a, b)

/-- There is a plan for records of this size, with arrays of its own. -/
def Planned (size : ℕ) (s : Processor) (w : Heap K) : Prop := ∃ x y, Holds size x y s w

theorem Planned.owned {size : ℕ} {s : Processor} {w : Heap K} (h : Planned size s w) :
    Owned s w := by
  obtain ⟨x, y, -, q, a, b, -, hw⟩ := h
  exact ⟨_, _, _, hw⟩

/-- What the planner sees fits the arrays. -/
theorem toNat_toInt_le (size : ℕ) :
    (toInt size).toNat ≤ size ∧ (toInt size).toNat / 2 + 1 ≤ size / 2 + 1 := by
  have hle : (toInt size).toNat ≤ size := Int.toNat_le.2 (toInt_le size)
  exact ⟨hle, Nat.succ_le_succ (Nat.div_le_div_right hle)⟩

/-- The arrays of a plan fit its records. -/
theorem hasArrays_heapOf (p : Option ℕ) (size a b : ℕ) (x : ℕ → K) (y : ℕ → K × K)
    (d : ℕ × ℕ × ℕ) :
    (heapOf ⟨p, some a, some b, size⟩ (size, x) (size / 2 + 1, y) d).HasArrays
      (toInt size).toNat a b :=
  ⟨⟨size, x, single_self a _, (toNat_toInt_le size).1⟩, size / 2 + 1, y, single_self b _,
    (toNat_toInt_le size).2⟩

theorem triple_makePlan (size a b : ℕ) :
    Triple (library N) (Asked size (some a) (some b)) (makePlan (K := K) size (some a) (some b))
      fun r s w => r = .ok () ∧ Planned size s w ∨
        r = .error (.runtimeError "Failed to create FFTW plan".toList) ∧ Idle s w := by
  refine Triple.callThen (fun plan s w => s = ⟨none, some a, some b, size⟩ ∧
      (plan.isSome → 0 < toInt size) ∧ ∃ x y, w = heapOf { s with forwardPlan := plan } (size, x)
        (size / 2 + 1, y) ((toInt size).toNat, a, b)) ?_ fun plan => ?_
  · rintro s w ⟨rfl, x, y, d, rfl⟩ r w' hstep
    have hfits := hasArrays_heapOf none size a b x y d
    cases hstep with
    | planRefused => exact ⟨rfl, nofun, x, y, by simp [heapOf]⟩
    | planFailed => exact ⟨rfl, nofun, x, y, by simp [heapOf]⟩
    | plan _ _ _ q hpos => exact ⟨rfl, fun _ => hpos, x, y, by simp [heapOf, update_empty]⟩
    | planMisused _ _ _ _ _ h => exact absurd hfits (h a b rfl rfl)
  · refine Triple.modifyThen (fun s w => s = ⟨plan, some a, some b, size⟩ ∧
      (plan.isSome → 0 < toInt size) ∧ ∃ x y,
        w = heapOf s (size, x) (size / 2 + 1, y) ((toInt size).toNat, a, b)) ?_ ?_
    · rintro s w ⟨rfl, hpos, x, y, rfl⟩
      exact ⟨rfl, hpos, x, y, rfl⟩
    · refine Triple.ite (fun hplan => Triple.pure ?_) fun _ => ?_
      · obtain ⟨q, rfl⟩ := Option.isSome_iff_exists.1 hplan
        rintro s w ⟨hs, hpos, x, y, hw⟩
        exact Or.inl ⟨rfl, x, y, hpos rfl, q, a, b, hs, hw⟩
      · refine (triple_abandon _).conseq ?_ fun _ _ _ h => Or.inr h
        rintro s w ⟨-, -, x, y, hw⟩
        exact ⟨_, _, _, hw⟩

/-- There was no memory for the arrays, or no plan. -/
def NoPlan {α : Type} (r : Except Fault α) : Prop :=
  r = .error (.runtimeError "Failed to create FFTW plan".toList) ∨
    r = .error (.runtimeError "Failed to allocate FFTW buffers".toList)

/-- `_initializePlan`: there is a plan of this size, or nothing. -/
theorem triple_initializePlan [Zero K] (size : ℕ) :
    Triple (library N) Owned (initializePlan (K := K) size) fun r s w =>
      r = .ok () ∧ Planned size s w ∨ NoPlan r ∧ Idle s w := by
  refine Triple.bind triple_cleanupPlan (fun _ => ?_) fun _ _ _ h => nomatch h.1
  refine Triple.modifyThen (Asked size none none) ?_ ?_
  · rintro s w ⟨-, rfl, rfl⟩
    exact ⟨rfl, 0, 0, 0, by simp [heapOf]⟩
  refine Triple.callThen (fun input s w => s = ⟨none, none, none, size⟩ ∧
    ∃ x y d, w = heapOf { s with inputBuffer := input } (size, x) (size / 2 + 1, y) d) ?_
    fun input => ?_
  · rintro s w ⟨rfl, x, y, d, rfl⟩ r w' hstep
    cases hstep with
    | allocRealFailed => exact ⟨rfl, x, y, d, rfl⟩
    | allocReal _ a f => exact ⟨rfl, f, y, d, by simp [heapOf, update_empty]⟩
  refine Triple.modifyThen (Asked size input none) ?_ ?_
  · rintro s w ⟨rfl, x, y, d, rfl⟩
    exact ⟨rfl, x, y, d, rfl⟩
  refine Triple.callThen (fun output s w => s = ⟨none, input, none, size⟩ ∧
    ∃ x y d, w = heapOf { s with outputBuffer := output } (size, x) (size / 2 + 1, y) d) ?_
    fun output => ?_
  · rintro s w ⟨rfl, x, y, d, rfl⟩ r w' hstep
    cases hstep with
    | allocComplexFailed => exact ⟨rfl, x, y, d, rfl⟩
    | allocComplex _ b g => exact ⟨rfl, x, g, d, by simp [heapOf, update_empty]⟩
  refine Triple.modifyThen (Asked size input output) ?_ ?_
  · rintro s w ⟨rfl, x, y, d, rfl⟩
    exact ⟨rfl, x, y, d, rfl⟩
  refine Triple.ite (fun hboth => ?_) fun _ => ?_
  · obtain ⟨a, rfl⟩ := Option.isSome_iff_exists.1 hboth.1
    obtain ⟨b, rfl⟩ := Option.isSome_iff_exists.1 hboth.2
    exact (triple_makePlan size a b).conseq (fun _ _ h => h) fun _ _ _ h =>
      h.imp id fun h => ⟨Or.inl h.1, h.2⟩
  · refine (triple_abandon _).conseq ?_ fun _ _ _ h => Or.inr ⟨Or.inr h.1, h.2⟩
    rintro s w ⟨-, x, y, d, hw⟩
    exact ⟨_, _, _, hw⟩

end Owned

/-! ### Transforms -/

section Transforms

variable {K : Type} [Field K] {N : Numerics K}

omit [Field K] in
/-- A record that was copied to the start of an array. -/
theorem map_range_getD (record : List K) (x : ℕ → K) :
    (List.range record.length).map (fun i => record.getD i (x i)) = record := by
  refine List.ext_getElem (by simp) fun i h₁ h₂ => ?_
  rw [List.getElem_map, List.getElem_range, List.getD_eq_getElem _ _ h₂]

/-- What is read after a transform are the bins of the record. -/
theorem bins_transformed (record : List K) (x : ℕ → K) (y : ℕ → K × K) :
    ((List.range (record.length / 2 + 1)).map (Heap.transformed N record.length
      (fun i => record.getD i (x i)) y)).map (scaled record.length)
      = computeFFT N record := by
  rw [computeFFT, List.map_map]
  refine List.map_congr_left fun i hi => ?_
  have hle : i ≤ record.length / 2 := Nat.lt_succ_iff.1 (List.mem_range.1 hi)
  rw [Function.comp_apply, Heap.transformed, if_pos hle, map_range_getD, scaled]

/-- What is read of an array of bins. -/
theorem triple_readBins (size : ℕ) (x : ℕ → K) (y : ℕ → K × K) :
    Triple (library N) (Holds size x y) (readBins size) fun r s w =>
      (r = .ok (((List.range (size / 2 + 1)).map y).map (scaled size)) ∨ r = .error .noRoom) ∧
        Planned size s w := by
  refine Triple.read fun v => ?_
  refine Triple.callThen (fun _ s w => v = s ∧ Holds size x y s w) ?_ fun (room : Bool) => ?_
  · rintro s w hholds r w' hstep
    cases hstep
    exact hholds
  refine Triple.ite (fun _ => ?_) fun _ => Triple.throw fun s w h => ⟨Or.inr rfl, x, y, h.2⟩
  refine Triple.callThen (fun bins s w => bins = (List.range (size / 2 + 1)).map y ∧
    Planned size s w) ?_ fun bins => Triple.pure ?_
  · rintro s w ⟨rfl, hpos, q, a, b, rfl, rfl⟩ r w' hstep
    cases hstep
    simp only [Heap.read, heapOf, single_self, le_refl, if_true]
    exact ⟨rfl, x, y, hpos, q, a, b, rfl, rfl⟩
  · rintro s w ⟨rfl, hplanned⟩
    exact ⟨Or.inl rfl, hplanned⟩

/-- On the arrays of its plan a transform answers the bins of its record, whatever the arrays have
held before, unless there is no room for the answer. -/
theorem triple_transformRecord (record : List K) :
    Triple (library N) (Planned record.length) (transformRecord record) fun r s w =>
      (∃ bins, (record.length ≤ 2 ^ 32 → bins = computeFFT N record) ∧
        (r = .ok bins ∨ r = .error .noRoom)) ∧ Planned record.length s w := by
  have hfits := toNat_toInt_le record.length
  refine Triple.read fun v => ?_
  refine Triple.callThen (fun _ s w => v = s ∧ ∃ (x : ℕ → K) (y : ℕ → K × K),
    Holds record.length (fun i => record.getD i (x i)) y s w) ?_ fun _ => ?_
  · rintro s w ⟨rfl, x, y, hpos, q, a, b, rfl, rfl⟩ r w' hstep
    cases hstep
    exact ⟨rfl, x, y, hpos, q, a, b, rfl, by simp [heapOf, Heap.copy, update_single]⟩
  refine Triple.callThen (fun _ s w => ∃ (x : ℕ → K) (y : ℕ → K × K),
    Holds record.length (fun i => record.getD i (x i))
      (Heap.transformed N (toInt record.length).toNat (fun i => record.getD i (x i)) y) s w) ?_
    fun _ => ?_
  · rintro s w ⟨rfl, x, y, hpos, q, a, b, rfl, rfl⟩ r w' hstep
    cases hstep
    exact ⟨x, y, hpos, q, a, b, rfl, by simp [heapOf, Heap.execute, update_single, hfits]⟩
  rintro s w ⟨x, y, hholds⟩ r s' w' hrun
  obtain ⟨hr, hplanned⟩ := triple_readBins _ _ _ s w hholds r s' w' hrun
  refine ⟨⟨_, fun hsmall => ?_, hr⟩, hplanned⟩
  rw [toInt_toNat hsmall hholds.accepted]
  exact bins_transformed record x y

/-- Between two transforms: nothing is there, or a plan of the size that is remembered. -/
def Ready (s : Processor) (w : Heap K) : Prop := Idle s w ∨ 0 < s.planSize ∧ Planned s.planSize s w

/-- What a transform may answer when `size` is the size that is remembered.  It fails on an empty
record; there may be no room for the answer; and a record of another size may find no memory or no
plan. -/
def Answers (N : Numerics K) (size : ℕ) (record : List K) (r : Except Fault (List (K × K))) : Prop :=
  if record = [] then r = .error (.invalidArgument "Input signal cannot be empty".toList)
  else (∃ bins, (record.length ≤ 2 ^ 32 → bins = computeFFT N record) ∧
      (r = .ok bins ∨ r = .error .noRoom)) ∨ size ≠ record.length ∧ NoPlan r

/-- The size that is remembered after a transform.  Without room for its answer the plan stays. -/
def sizeAfter (size : ℕ) (record : List K) : Except Fault (List (K × K)) → ℕ
  | .ok _ => record.length
  | .error .noRoom => record.length
  | .error _ => if record = [] then size else 0

theorem Ready.owned {s : Processor} {w : Heap K} (h : Ready s w) : Owned s w :=
  h.elim Idle.owned fun h => h.2.owned

/-- A plan for a record that is not empty: the kept one, or a new one where there is memory. -/
theorem triple_preparePlan (size : ℕ) {record : List K} (hne : record ≠ []) :
    Triple (library N) (fun s w => Ready s w ∧ s.planSize = size) (preparePlan record.length)
      fun r s w => r = .ok () ∧ Planned record.length s w ∨
        size ≠ record.length ∧ NoPlan r ∧ Idle s w := by
  refine Triple.read fun v => Triple.ite (fun hv => ?_) fun hv => Triple.pure ?_
  · by_cases hsize : size = record.length
    · rintro s w ⟨rfl, -, h⟩
      exact absurd (h.trans hsize) hv
    · refine (triple_initializePlan record.length).conseq (fun _ _ h => h.2.1.owned) ?_
      intro _ _ _ h
      exact h.imp id fun h => ⟨hsize, h⟩
  · rintro s w ⟨rfl, hready, -⟩
    have hlength : v.planSize = record.length := not_not.1 hv
    obtain ⟨rfl, -⟩ | ⟨-, hplanned⟩ := hready
    · exact absurd hlength (List.length_pos_of_ne_nil hne).ne
    · exact Or.inl ⟨rfl, hlength ▸ hplanned⟩

/-- **A transform** answers the bins of its own record, and remembers the size of its plan. -/
theorem triple_compute (size : ℕ) (record : List K) :
    Triple (library N) (fun s w => Ready s w ∧ s.planSize = size) (compute record)
      fun r s w =>
        (Answers N size record r ∧ s.planSize = sizeAfter size record r) ∧ Ready s w := by
  refine Triple.ite (fun hempty => Triple.throw ?_) fun hempty => ?_
  · have hnil : record = [] := List.isEmpty_iff.1 hempty
    rintro s w ⟨hready, hsize⟩
    have hanswer : Answers N size record
        (.error (.invalidArgument "Input signal cannot be empty".toList)) := by
      rw [Answers, if_pos hnil]
    exact ⟨⟨hanswer, hsize.trans (if_pos hnil).symm⟩, hready⟩
  have hne : record ≠ [] := fun h => hempty (List.isEmpty_iff.2 h)
  refine Triple.bind (triple_preparePlan size hne) (fun _ => ?_) ?_
  · refine (triple_transformRecord record).conseq ?_ ?_
    · rintro s w (⟨-, h⟩ | ⟨-, h, -⟩)
      · exact h
      · rcases h with h | h <;> cases h
    · rintro r s w ⟨hr, hplanned⟩
      have hlength : s.planSize = record.length := by
        obtain ⟨x, y, -, q, a, b, rfl, -⟩ := hplanned
        rfl
      have hready : Ready s w :=
        Or.inr ⟨hlength ▸ List.length_pos_of_ne_nil hne, hlength ▸ hplanned⟩
      have hsize : sizeAfter size record r = record.length := by
        obtain ⟨bins, -, rfl | rfl⟩ := hr <;> rfl
      refine ⟨⟨?_, hlength.trans hsize.symm⟩, hready⟩
      rw [Answers, if_neg hne]
      exact Or.inl hr
  · rintro e s w (⟨h, -⟩ | ⟨hsize, h, hidle⟩)
    · cases h
    · have hafter : sizeAfter size record (.error e : Except Fault (List (K × K))) = 0 := by
        rcases h with h | h <;> cases h <;> exact if_neg hne
      refine ⟨⟨?_, ?_⟩, Or.inl hidle⟩
      · rw [Answers, if_neg hne]
        refine Or.inr ⟨hsize, ?_⟩
        rcases h with h | h
        · exact Or.inl (by cases h; rfl)
        · exact Or.inr (by cases h; rfl)
      · rw [hidle.1, hafter]

/-! ### Sequences of transforms -/

/-- A processor from its constructor on, with the records it was given and what it has answered. -/
inductive Session (N : Numerics K) :
    List (List K × Except Fault (List (K × K))) → Processor → Heap K → Prop
  | make : Session N [] {} {}
  | compute {past : List (List K × Except Fault (List (K × K)))} {s s' : Processor} {w w' : Heap K}
      {record : List K} {r : Except Fault (List (K × K))} (hs : Session N past s w)
      (h : Runs (library N) w (compute record s) (r, s') w') :
      Session N (past ++ [(record, r)]) s' w'

/-- Transforms that have answered as they should, and the size that is remembered after them. -/
inductive Computes (N : Numerics K) : List (List K × Except Fault (List (K × K))) → ℕ → Prop
  | nil : Computes N [] 0
  | next {past : List (List K × Except Fault (List (K × K)))} {size : ℕ} {record : List K}
      {r : Except Fault (List (K × K))} (h : Computes N past size) (hr : Answers N size record r) :
      Computes N (past ++ [(record, r)]) (sizeAfter size record r)

variable {past : List (List K × Except Fault (List (K × K)))} {s : Processor} {w : Heap K}

theorem Session.ready (h : Session N past s w) : Ready s w ∧ Computes N past s.planSize := by
  induction h with
  | make => exact ⟨Or.inl ⟨rfl, rfl⟩, .nil⟩
  | compute _ hrun ih =>
      obtain ⟨⟨hanswer, hsize⟩, hready⟩ := triple_compute _ _ _ _ ⟨ih.1, rfl⟩ _ _ _ hrun
      refine ⟨hready, ?_⟩
      rw [hsize]
      exact .next ih.2 hanswer

/-- **Every transform answers the bins of its own record**, though the arrays are used again and
again.  Only for a record of another size than the last one can there be no arrays and no plan.  No
array or plan is used that is not there, and the destructor gives back all there is. -/
theorem transforms_own_record (h : Session N past s w) :
    Computes N past s.planSize ∧ w.misused = false ∧
      ∀ (r : Except Fault Unit) (s' : Processor) (w' : Heap K),
        Runs (library N) w (cleanupPlan s) (r, s') w' → r = .ok () ∧ w' = {} := by
  obtain ⟨hready, hcomputes⟩ := h.ready
  refine ⟨hcomputes, ?_, fun r s' w' hrun => ?_⟩
  · obtain ⟨x, y, d, rfl⟩ := hready.owned
    rfl
  · obtain ⟨hr, -, hw⟩ := triple_cleanupPlan s w hready.owned r s' w' hrun
    exact ⟨hr, hw⟩

end Transforms

/-! ### A library with one plan -/

section Served

/-- Numbers whose transform is the record itself. -/
def plain : Numerics ℚ := ⟨id, id, id, fun x _ => x, fun x i => (x.getD i 0, 0)⟩

/-- A library that has room for one plan with its arrays, and for results of two bins. -/
def Heap.serve (w : Heap ℚ) : (c : Call ℚ) → Option (c.Reply × Heap ℚ)
  | .allocReal size =>
      if (w.reals 0).isNone then
        some (some (0 : ℕ), { w with reals := Function.update w.reals 0 (some (size, 0)) })
      else none
  | .allocComplex size =>
      if (w.bins 0).isNone then
        some (some (0 : ℕ), { w with bins := Function.update w.bins 0 (some (size, 0)) })
      else none
  | .plan size (some a) (some b) =>
      match w.reals a, w.bins b with
      | some (n, _), some (m, _) =>
          if 0 < size ∧ (size.toNat ≤ n ∧ size.toNat / 2 + 1 ≤ m) ∧ (w.plans 0).isNone then
            some (some (0 : ℕ),
              { w with plans := Function.update w.plans 0 (some (size.toNat, a, b)) })
          else none
      | _, _ => none
  | .plan _ _ _ => none
  | .destroyPlan plan => some ((), w.destroyPlan plan)
  | .freeReal array => some ((), w.freeReal array)
  | .freeComplex array => some ((), w.freeComplex array)
  | .copy signal array => some ((), w.copy signal array)
  | .execute plan => some ((), w.execute plain plan)
  | .makeResult count => some (decide (count ≤ 2), w)
  | .read array count => some (w.read array count)

theorem Heap.serve_step (w : Heap ℚ) (c : Call ℚ) (r : c.Reply) (w' : Heap ℚ)
    (h : w.serve c = some (r, w')) : Step plain w c r w' := by
  cases c with
  | allocReal size =>
      simp only [serve] at h
      split at h
      · rename_i hnone
        cases h
        exact .allocReal size 0 0 (Option.isNone_iff_eq_none.1 hnone)
      · cases h
  | allocComplex size =>
      simp only [serve] at h
      split at h
      · rename_i hnone
        cases h
        exact .allocComplex size 0 0 (Option.isNone_iff_eq_none.1 hnone)
      · cases h
  | plan size input output =>
      cases input with
      | none => cases h
      | some a =>
          cases output with
          | none => cases h
          | some b =>
              simp only [serve] at h
              split at h
              · rename_i n x m y hx hy
                split at h
                · rename_i hfits
                  cases h
                  exact .plan size a b 0 hfits.1 ⟨⟨n, x, hx, hfits.2.1.1⟩, m, y, hy, hfits.2.1.2⟩
                    (Option.isNone_iff_eq_none.1 hfits.2.2)
                · cases h
              · cases h
  | destroyPlan plan =>
      cases h
      exact .destroyPlan plan
  | freeReal array =>
      cases h
      exact .freeReal array
  | freeComplex array =>
      cases h
      exact .freeComplex array
  | copy signal array =>
      cases h
      exact .copy signal array
  | execute plan =>
      cases h
      exact .execute plan
  | makeResult count =>
      cases h
      exact .makeResult count _
  | read array count =>
      have heq : w.read array count = (r, w') := Option.some.inj h
      have hread := Step.read (N := plain) (w := w) array count
      rw [heq] at hread
      exact hread

/-- Transforms of some records, computed. -/
def computeAll : List (List ℚ) → List (List ℚ × Except Fault (List (ℚ × ℚ))) → Processor → Heap ℚ →
    Option (List (List ℚ × Except Fault (List (ℚ × ℚ))) × Processor × Heap ℚ)
  | [], past, s, w => some (past, s, w)
  | record :: records, past, s, w =>
      match (compute record s).attempt Heap.serve w with
      | some ((r, s'), w') => computeAll records (past ++ [(record, r)]) s' w'
      | none => none

theorem Session.computeAll {records : List (List ℚ)} :
    ∀ {past past' : List (List ℚ × Except Fault (List (ℚ × ℚ)))} {s s' : Processor} {w w' : Heap ℚ},
      Session plain past s w → Fftw.computeAll records past s w = some (past', s', w') →
      Session plain past' s' w' := by
  induction records with
  | nil =>
      intro past past' s s' w w' hs h
      cases h
      exact hs
  | cons record records ih =>
      intro past past' s s' w w' hs h
      unfold Fftw.computeAll at h
      split at h
      · rename_i hattempt
        exact ih (.compute hs (Prog.attempt_runs (W := library plain) Heap.serve_step hattempt)) h
      · cases h

/-- Three transforms, two of them of one size, and a fourth without room for its answer. -/
theorem transforms_own_record_four : ∃ past s w, Session plain past s w ∧
    (past.map (·.2) = [.ok [(1 / 2, 0), (1, 0)], .ok [(3 / 2, 0), (2, 0)], .ok [(5 / 3, 0), (2, 0)],
      .error .noRoom] ∧ s.planSize = 4) ∧ Computes plain past s.planSize ∧ w.misused = false := by
  have hany : (computeAll [[1, 2], [3, 4], [5, 6, 7], [1, 2, 3, 4]] [] {} {}).any
      (fun x => decide (x.1.map (·.2) = [.ok [(1 / 2, 0), (1, 0)], .ok [(3 / 2, 0), (2, 0)],
        .ok [(5 / 3, 0), (2, 0)], .error .noRoom] ∧ x.2.1.planSize = 4)) = true := by
    decide +kernel
  obtain ⟨⟨past, s, w⟩, hall, hsize⟩ := (Option.any_eq_true _ _).1 hany
  have hsession := Session.computeAll .make hall
  obtain ⟨hcomputes, hsound, -⟩ := transforms_own_record hsession
  exact ⟨past, s, w, hsession, of_decide_eq_true hsize, hcomputes, hsound⟩

end Served

end Fftw

end Afm
