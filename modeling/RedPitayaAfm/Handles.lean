/-
**Handles.**

A program gets handles from the operating system (descriptors, mappings, buffers), uses them and
gives them back.  The ledger counts the open handles of each kind, and remembers whether one was ever
used or given back that was not open.  An object that alone deals with these handles *owns* what the
ledger shows when its fields say exactly which handles are open.

Nothing here depends on the system that is modelled: the kinds, the calls and the object are
parameters.

Main definitions:

* `Effect.HandleOp`, `Effect.Ledger` — what happens to a handle, and the account of it;
* `Effect.Handling`, `Effect.Handling.world` — which calls do what, and the world that keeps
  the ledger while every call may have any reply;
* `Effect.Owns` — the ledger shows these handles, and none was misused;
* `Effect.Called` — a method of an object is run, with any result.

Main results:

* `Effect.Owns.acquire`, `Effect.Owns.use`, `Effect.Owns.release` — what the operations
  do to an account;
* `Effect.Keeps.called` — what every method keeps holds after any number of calls.
-/

import Mathlib.Logic.Function.Basic
import Mathlib.Logic.Relation
import RedPitayaAfm.Effect

set_option relaxedAutoImplicit false
set_option autoImplicit false

namespace Effect

variable {K : Type}

/-! ### The ledger -/

/-- What a call does with a handle of a kind. -/
inductive HandleOp (K : Type)
  | acquire (k : K)
  | use (k : K)
  | release (k : K)

/-- The open handles of each kind, and whether one that was not open has been used or released. -/
structure Ledger (K : Type) where
  live : K → ℕ := fun _ => 0
  misused : Bool := false

variable [DecidableEq K]

/-- The ledger after one operation. -/
def Ledger.after (l : Ledger K) : HandleOp K → Ledger K
  | .acquire k => { l with live := Function.update l.live k (l.live k + 1) }
  | .use k => { l with misused := l.misused || l.live k == 0 }
  | .release k =>
      { live := Function.update l.live k (l.live k - 1), misused := l.misused || l.live k == 0 }

/-- The ledger after some operations. -/
def Ledger.afterAll (l : Ledger K) (ops : List (HandleOp K)) : Ledger K := ops.foldl Ledger.after l

@[simp] theorem Ledger.afterAll_nil (l : Ledger K) : l.afterAll [] = l := rfl

@[simp] theorem Ledger.afterAll_cons (l : Ledger K) (op : HandleOp K) (ops : List (HandleOp K)) :
    l.afterAll (op :: ops) = (l.after op).afterAll ops := rfl

/-- Exactly the handles `held` are open, and none was ever misused. -/
structure Owns (held : K → ℕ) (l : Ledger K) : Prop where
  live : l.live = held
  sound : l.misused = false

namespace Owns

variable {held : K → ℕ} {l : Ledger K} {k : K}

theorem acquire (h : Owns held l) :
    Owns (Function.update held k (held k + 1)) (l.after (.acquire k)) := by
  refine ⟨?_, h.sound⟩
  show Function.update l.live k (l.live k + 1) = _
  rw [h.live]

theorem use (h : Owns held l) (hk : 0 < held k) : l.after (.use k) = l := by
  obtain ⟨live, misused⟩ := l
  obtain ⟨hlive, hsound⟩ := h
  change live = held at hlive
  have hne : (live k == 0) = false := by
    rw [hlive]
    simpa using hk.ne'
  simp [Ledger.after, hne]

theorem release (h : Owns held l) (hk : 0 < held k) :
    Owns (Function.update held k (held k - 1)) (l.after (.release k)) := by
  have hne : (l.live k == 0) = false := by
    rw [h.live]
    simpa using hk.ne'
  refine ⟨?_, ?_⟩
  · show Function.update l.live k (l.live k - 1) = _
    rw [h.live]
  · show (l.misused || l.live k == 0) = false
    rw [h.sound, hne]
    rfl

omit [DecidableEq K] in
/-- An account of the same handles. -/
theorem congr (h : Owns held l) {held' : K → ℕ} (heq : ∀ k, held k = held' k) : Owns held' l :=
  ⟨h.live.trans (funext heq), h.sound⟩

omit [DecidableEq K] in
/-- With nothing held, nothing is open. -/
theorem eq_empty (h : Owns held l) (hnone : ∀ k, held k = 0) : l = {} := by
  obtain ⟨live, misused⟩ := l
  obtain ⟨hlive, hsound⟩ := h
  obtain rfl : live = fun _ => 0 := hlive.trans (funext hnone)
  obtain rfl : misused = false := hsound
  rfl

/-- Calls that only use what is held leave the ledger as it is. -/
theorem uses (h : Owns held l) {ops : List (HandleOp K)}
    (hops : ∀ op ∈ ops, ∃ k, op = .use k ∧ 0 < held k) : l.afterAll ops = l := by
  induction ops with
  | nil => rfl
  | cons op ops ih =>
      obtain ⟨k, rfl, hk⟩ := hops op (by simp)
      rw [Ledger.afterAll_cons, h.use hk]
      exact ih fun op hop => hops op (by simp [hop])

end Owns

/-! ### Calls that deal with handles -/

/-- What the calls of an interface do with handles; it may depend on the reply. -/
abbrev Handling (I : Interface) (K : Type) := (c : I.Call) → I.Reply c → List (HandleOp K)

/-- The world that keeps the ledger.  Every call may have any reply. -/
abbrev Handling.world {I : Interface} (H : Handling I K) : World I where
  State := Ledger K
  Step l c r l' := l' = l.afterAll (H c r)

/-- The rule for a call on the ledger. -/
theorem Triple.handles {I : Interface} {H : Handling I K} {σ ε : Type} {c : I.Call}
    {P : σ → Ledger K → Prop} {Q : Except ε (I.Reply c) → σ → Ledger K → Prop}
    (h : ∀ s l, P s l → ∀ r, Q (.ok r) s (l.afterAll (H c r))) :
    Triple H.world P (Act.call c : Act I σ ε (I.Reply c)) Q := by
  refine Triple.call ?_
  rintro s l hP r l' rfl
  exact h s l hP r

/-- A system that gives every call the same reply each time. -/
def Handling.answer {I : Interface} (H : Handling I K) (reply : (c : I.Call) → I.Reply c)
    (l : Ledger K) (c : I.Call) : I.Reply c × Ledger K :=
  (reply c, l.afterAll (H c (reply c)))

theorem Handling.answer_runs {I : Interface} {α : Type} (H : Handling I K)
    (reply : (c : I.Call) → I.Reply c) (p : Prog I α) (l : Ledger K) :
    Runs H.world l p (p.eval (H.answer reply) l).1 (p.eval (H.answer reply) l).2 :=
  Prog.eval_runs (W := H.world) (fun _ _ => rfl) p l

/-! ### Objects that are called again and again -/

/-- A method of an object is run on its fields, with any result. -/
inductive Called {J : Interface} {σ ε C : Type} {R : C → Type} (W : World J)
    (method : (c : C) → Act J σ ε (R c)) : σ × W.State → σ × W.State → Prop
  | intro {c : C} {s s' : σ} {w w' : W.State} {r : Except ε (R c)}
      (h : Runs W w (method c s) (r, s') w') : Called W method (s, w) (s', w')

/-- **What every method keeps** holds after any number of calls. -/
theorem Keeps.called {J : Interface} {σ ε C : Type} {R : C → Type} {W : World J}
    {method : (c : C) → Act J σ ε (R c)} {P : σ → W.State → Prop}
    (hkeeps : ∀ c, Keeps W P (method c)) {p q : σ × W.State}
    (h : Relation.ReflTransGen (Called W method) p q) (hp : P p.1 p.2) : P q.1 q.2 := by
  induction h with
  | refl => exact hp
  | tail _ hstep ih =>
      obtain ⟨hrun⟩ := hstep
      exact hkeeps _ _ _ ih _ _ _ hrun

end Effect
