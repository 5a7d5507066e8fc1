/-
**Programs that call an environment, and how they run.**

The server, the board driver and the client of this development are sequential programs that talk
to something they do not control: a device, a serial line, a socket.  This module supplies the
common ground for all of them.  A program is a tree of calls; a *world* says which replies a call
may get and how it changes what the program cannot see; a run is a walk down the tree along the
replies the world gives.  Nothing here mentions a particular program.

Main definitions:

* `Effect.Interface`, `Effect.Prog` — the calls of an environment with the type of each reply, and
  the programs that make such calls;
* `Effect.World`, `Effect.Runs` — a nondeterministic environment, and the big-step runs of a
  program in it;
* `Effect.Act` — the methods of an object: programs that also read and write the object's fields
  and may end with an exception;
* `Effect.Act.Returns`, `Effect.Act.Only`, `Effect.Act.Moves`, `Effect.Act.Confined` — what methods
  return, which calls they make, and how they change the fields;
* `Effect.Triple`, `Effect.Keeps`, `Effect.Yields` — partial correctness of a method: a precondition
  and a postcondition on the fields and the world, a condition that it keeps, or what its result
  satisfies;
* `Effect.Prog.eval` — the run in a deterministic environment, which computes.

Main results:

* `Effect.runs_bind` — a run of a sequence is a run of its first part followed by one of the rest;
* `Effect.Triple.bind`, `Effect.Triple.call`, `Effect.Triple.withDestructor` — the rules of the logic;
* `Effect.Keeps.of_reads`, `Effect.Keeps.of_only` — what the calls of a method keep, the method
  keeps;
* `Effect.Prog.eval_runs` — a deterministic environment that the world allows gives a run.
-/

import Mathlib

set_option relaxedAutoImplicit false
set_option autoImplicit false

namespace Effect

/-! ### Programs -/

/-- The calls a program can make, and the type of the reply to each. -/
structure Interface where
  /-- The calls. -/
  Call : Type
  /-- What a call returns. -/
  Reply : Call → Type

/-- A program: it is done, or it makes a call and goes on with the reply. -/
inductive Prog (I : Interface) (α : Type) : Type
  | done (a : α) : Prog I α
  | call (c : I.Call) (next : I.Reply c → Prog I α) : Prog I α

namespace Prog

variable {I : Interface} {α β γ : Type}

/-- Run the first program, then the one its result selects. -/
def bind : Prog I α → (α → Prog I β) → Prog I β
  | .done a, f => f a
  | .call c next, f => .call c fun r => (next r).bind f

instance : Monad (Prog I) where
  pure := .done
  bind := bind

@[simp] theorem pure_eq (a : α) : (pure a : Prog I α) = .done a := rfl

@[simp] theorem bind_eq (p : Prog I α) (f : α → Prog I β) : p >>= f = p.bind f := rfl

@[simp] theorem bind_done (a : α) (f : α → Prog I β) : (Prog.done a).bind f = f a := rfl

@[simp] theorem bind_call (c : I.Call) (next : I.Reply c → Prog I α) (f : α → Prog I β) :
    (Prog.call c next).bind f = .call c fun r => (next r).bind f := rfl

/-- The run in a deterministic environment: `env` answers each call and moves on. -/
def eval {S : Type} (env : S → (c : I.Call) → I.Reply c × S) : Prog I α → S → α × S
  | .done a, s => (a, s)
  | .call c next, s => (next (env s c).1).eval env (env s c).2

@[simp] theorem eval_done {S : Type} (env : S → (c : I.Call) → I.Reply c × S) (a : α) (s : S) :
    (Prog.done a).eval env s = (a, s) := rfl

@[simp] theorem eval_call {S : Type} (env : S → (c : I.Call) → I.Reply c × S) (c : I.Call)
    (next : I.Reply c → Prog I α) (s : S) :
    (Prog.call c next).eval env s = (next (env s c).1).eval env (env s c).2 := rfl

theorem eval_bind {S : Type} (env : S → (c : I.Call) → I.Reply c × S) (p : Prog I α)
    (f : α → Prog I β) (s : S) :
    (p.bind f).eval env s = (f (p.eval env s).1).eval env (p.eval env s).2 := by
  induction p generalizing s with
  | done a => rfl
  | call c next ih => simp [ih]

/-- The run in an environment that may leave a call without an answer. -/
def attempt {S : Type} (env : S → (c : I.Call) → Option (I.Reply c × S)) :
    Prog I α → S → Option (α × S)
  | .done a, s => some (a, s)
  | .call c next, s => (env s c).bind fun reply => attempt env (next reply.1) reply.2

end Prog

/-! ### Worlds and runs -/

/-- An environment: `Step w c r w'` says that in state `w` the call `c` may be answered by `r`,
leaving the state `w'`. -/
structure World (I : Interface) where
  /-- What the environment remembers. -/
  State : Type
  /-- The replies it may give, and what they change. -/
  Step : State → (c : I.Call) → I.Reply c → State → Prop

/-- `Runs W w p a w'`: started in `w`, the program `p` can return `a` and leave the world in `w'`. -/
inductive Runs {I : Interface} (W : World I) {α : Type} : W.State → Prog I α → α → W.State → Prop
  | done (w : W.State) (a : α) : Runs W w (.done a) a w
  | call {w w₁ w' : W.State} {c : I.Call} {r : I.Reply c} {next : I.Reply c → Prog I α} {a : α} :
      W.Step w c r w₁ → Runs W w₁ (next r) a w' → Runs W w (.call c next) a w'

section Runs

variable {I : Interface} {W : World I} {α β : Type}

@[simp] theorem runs_done {w w' : W.State} {a b : α} :
    Runs W w (.done a) b w' ↔ b = a ∧ w' = w := by
  constructor
  · rintro ⟨⟩
    exact ⟨rfl, rfl⟩
  · rintro ⟨rfl, rfl⟩
    exact Runs.done _ _

@[simp] theorem runs_call {w w' : W.State} {c : I.Call} {next : I.Reply c → Prog I α} {a : α} :
    Runs W w (.call c next) a w' ↔ ∃ r w₁, W.Step w c r w₁ ∧ Runs W w₁ (next r) a w' := by
  constructor
  · intro h
    cases h with
    | call hs hr => exact ⟨_, _, hs, hr⟩
  · rintro ⟨r, w₁, hs, hr⟩
    exact Runs.call hs hr

/-- **A run of a sequence** is a run of its first part followed by a run of the rest. -/
@[simp] theorem runs_bind {w w' : W.State} {p : Prog I α} {f : α → Prog I β} {b : β} :
    Runs W w (p.bind f) b w' ↔ ∃ a w₁, Runs W w p a w₁ ∧ Runs W w₁ (f a) b w' := by
  induction p generalizing w with
  | done a =>
      simp only [Prog.bind_done, runs_done]
      constructor
      · intro h
        exact ⟨a, w, ⟨rfl, rfl⟩, h⟩
      · rintro ⟨_, _, ⟨rfl, rfl⟩, h⟩
        exact h
  | call c next ih =>
      simp only [Prog.bind_call, runs_call, ih]
      constructor
      · rintro ⟨r, w₁, hs, a, w₂, hn, hf⟩
        exact ⟨a, w₂, ⟨r, w₁, hs, hn⟩, hf⟩
      · rintro ⟨a, w₂, ⟨r, w₁, hs, hn⟩, hf⟩
        exact ⟨r, w₁, hs, a, w₂, hn, hf⟩

/-- A deterministic environment all of whose answers the world allows gives a run. -/
theorem Prog.eval_runs {env : W.State → (c : I.Call) → I.Reply c × W.State}
    (henv : ∀ w c, W.Step w c (env w c).1 (env w c).2) (p : Prog I α) (w : W.State) :
    Runs W w p (p.eval env w).1 (p.eval env w).2 := by
  induction p generalizing w with
  | done a => exact Runs.done _ _
  | call c next ih => exact Runs.call (henv w c) (ih _ _)

/-- So does one that leaves some calls without an answer, where the program comes to its end. -/
theorem Prog.attempt_runs {env : W.State → (c : I.Call) → Option (I.Reply c × W.State)}
    (henv : ∀ w c r w', env w c = some (r, w') → W.Step w c r w') {p : Prog I α} {w w' : W.State}
    {a : α} (h : p.attempt env w = some (a, w')) : Runs W w p a w' := by
  induction p generalizing w with
  | done b =>
      cases h
      exact Runs.done _ _
  | call c next ih =>
      obtain ⟨⟨r, w₁⟩, hreply, hnext⟩ := Option.bind_eq_some_iff.1 h
      exact Runs.call (henv w c r w₁ hreply) (ih r hnext)

/-- Where every call has an answer, every program has a run. -/
theorem Prog.exists_runs (hstep : ∀ w c, ∃ r w', W.Step w c r w') (p : Prog I α) (w : W.State) :
    ∃ a w', Runs W w p a w' := by
  induction p generalizing w with
  | done a => exact ⟨a, w, Runs.done _ _⟩
  | call c next ih =>
      obtain ⟨r, w₁, hs⟩ := hstep w c
      obtain ⟨a, w', hr⟩ := ih r w₁
      exact ⟨a, w', Runs.call hs hr⟩

/-- What every step keeps, every run keeps. -/
theorem Runs.invariant {P : W.State → Prop}
    (hstep : ∀ {w c r w'}, P w → W.Step w c r w' → P w') {p : Prog I α} {w w' : W.State} {a : α}
    (h : Runs W w p a w') (hw : P w) : P w' := by
  induction h with
  | done => exact hw
  | call hs _ ih => exact ih (hstep hw hs)

/-- **Simulation**: where every step of one world is one of another, so is every run. -/
theorem Runs.simulates {V : World I} {R : W.State → V.State → Prop}
    (hstep : ∀ {w c r w' v}, R w v → W.Step w c r w' → ∃ v', V.Step v c r v' ∧ R w' v')
    {p : Prog I α} {w w' : W.State} {a : α} (h : Runs W w p a w') {v : V.State} (hR : R w v) :
    ∃ v', Runs V v p a v' ∧ R w' v' := by
  induction h generalizing v with
  | done w a => exact ⟨v, Runs.done v a, hR⟩
  | call hs _ ih =>
      obtain ⟨v₁, hv, hR₁⟩ := hstep hR hs
      obtain ⟨v', hruns, hR'⟩ := ih hR₁
      exact ⟨v', Runs.call hv hruns, hR'⟩

end Runs

/-! ### Methods of an object -/

/-- A method of an object with fields `σ`: it reads and writes the fields, makes calls, and
returns a value or leaves with an exception.  The fields survive an exception. -/
def Act (I : Interface) (σ ε α : Type) : Type := σ → Prog I (Except ε α × σ)

namespace Act

variable {I : Interface} {σ ε α β : Type}

/-- Return a value. -/
def pure (a : α) : Act I σ ε α := fun s => .done (.ok a, s)

/-- Run a method and go on with its value; an exception ends the sequence. -/
def bind (m : Act I σ ε α) (f : α → Act I σ ε β) : Act I σ ε β := fun s =>
  (m s).bind fun
    | (.ok a, s') => f a s'
    | (.error e, s') => .done (.error e, s')

instance : Monad (Act I σ ε) where
  pure := Act.pure
  bind := Act.bind

/-- Read the fields. -/
def get : Act I σ ε σ := fun s => .done (.ok s, s)

/-- Write the fields. -/
def modify (f : σ → σ) : Act I σ ε Unit := fun s => .done (.ok (), f s)

/-- Leave with an exception. -/
def throw (e : ε) : Act I σ ε α := fun s => .done (.error e, s)

/-- Make a call. -/
def call (c : I.Call) : Act I σ ε (I.Reply c) := fun s => .call c fun r => .done (.ok r, s)

/-- Rethrow a reply that is an exception. -/
def ofExcept : Except ε α → Act I σ ε α
  | .ok a => Act.pure a
  | .error e => Act.throw e

/-- Run `fin` after `m`, whether `m` returns or throws: the destructor of a scoped object. -/
def withDestructor (m : Act I σ ε α) (fin : Act I σ ε Unit) : Act I σ ε α := fun s =>
  (m s).bind fun (r, s') => (fin s').bind fun
    | (.ok (), s'') => .done (r, s'')
    | (.error e, s'') => .done (.error e, s'')

@[simp] theorem pure_apply (a : α) (s : σ) :
    (Pure.pure a : Act I σ ε α) s = .done (.ok a, s) := rfl

@[simp] theorem bind_apply (m : Act I σ ε α) (f : α → Act I σ ε β) (s : σ) :
    (m >>= f) s = (m s).bind fun
      | (.ok a, s') => f a s'
      | (.error e, s') => .done (.error e, s') := rfl

@[simp] theorem get_apply (s : σ) : (get : Act I σ ε σ) s = .done (.ok s, s) := rfl

@[simp] theorem modify_apply (f : σ → σ) (s : σ) :
    (modify f : Act I σ ε Unit) s = .done (.ok (), f s) := rfl

@[simp] theorem throw_apply (e : ε) (s : σ) :
    (throw e : Act I σ ε α) s = .done (.error e, s) := rfl

@[simp] theorem call_apply (c : I.Call) (s : σ) :
    (call c : Act I σ ε (I.Reply c)) s = .call c fun r => .done (.ok r, s) := rfl

@[simp] theorem ofExcept_ok (a : α) : (ofExcept (.ok a) : Act I σ ε α) = Pure.pure a := rfl

@[simp] theorem ofExcept_error (e : ε) : (ofExcept (.error e) : Act I σ ε α) = throw e := rfl

end Act

/-- A run of a method whose result is passed through a function that may throw. -/
theorem runs_bind_ofExcept {I : Interface} {W : World I} {σ ε α β : Type} {m : Act I σ ε α}
    {f : α → Except ε β} {s s' : σ} {w w' : W.State} {r : Except ε β}
    (h : Runs W w ((m >>= fun a => Act.ofExcept (f a)) s) (r, s') w') :
    ∃ x, Runs W w (m s) (x, s') w' ∧ r = x.bind f := by
  simp only [Act.bind_apply, runs_bind] at h
  obtain ⟨⟨x, s₁⟩, w₁, h₁, h₂⟩ := h
  cases x with
  | error e =>
      obtain ⟨⟨⟩, rfl⟩ := runs_done.1 h₂
      exact ⟨_, h₁, rfl⟩
  | ok a =>
      simp only at h₂
      cases hf : f a with
      | ok b =>
          rw [hf] at h₂
          obtain ⟨⟨⟩, rfl⟩ := runs_done.1 h₂
          exact ⟨_, h₁, hf.symm⟩
      | error e =>
          rw [hf] at h₂
          obtain ⟨⟨⟩, rfl⟩ := runs_done.1 h₂
          exact ⟨_, h₁, hf.symm⟩

/-! ### Calls carried out by methods -/

/-- Run a program whose calls are carried out by the methods of an object.  A method that throws
ends the program. -/
def Prog.handle {I J : Interface} {τ ε α : Type} (h : (c : I.Call) → Act J τ ε (I.Reply c)) :
    Prog I α → Act J τ ε α
  | .done a => Act.pure a
  | .call c next => (h c).bind fun r => (next r).handle h

/-- What a program sees when an object in the world `W` carries out its calls. -/
def World.through {I J : Interface} {τ ε : Type} (W : World J)
    (h : (c : I.Call) → Act J τ ε (I.Reply c)) : World I where
  State := τ × W.State
  Step w c r w' := Runs W w.2 (h c w.1) (.ok r, w'.1) w'.2

/-- **Carrying out calls**: a run of the object that ends well is a run of the program in the
world it sees. -/
theorem runs_handle {I J : Interface} {τ ε α : Type} {W : World J}
    {h : (c : I.Call) → Act J τ ε (I.Reply c)} {p : Prog I α} {t t' : τ} {w w' : W.State} {a : α} :
    Runs W w (p.handle h t) (.ok a, t') w' ↔ Runs (W.through h) (t, w) p a (t', w') := by
  induction p generalizing t w with
  | done b =>
      constructor
      · intro hr
        obtain ⟨heq, rfl⟩ := runs_done.1 hr
        cases heq
        exact Runs.done _ _
      · intro hr
        obtain ⟨rfl, heq⟩ := runs_done.1 hr
        cases heq
        exact Runs.done _ _
  | call c next ih =>
      simp only [Prog.handle, Act.bind, runs_bind]
      constructor
      · rintro ⟨⟨x, t₁⟩, w₁, h₁, h₂⟩
        cases x with
        | ok r =>
            have hstep : (W.through h).Step (t, w) c r (t₁, w₁) := h₁
            exact Runs.call hstep ((ih r).1 h₂)
        | error e =>
            obtain ⟨heq, -⟩ := runs_done.1 h₂
            cases heq
      · intro hr
        obtain ⟨r, ⟨t₁, w₁⟩, h₁, h₂⟩ := runs_call.1 hr
        exact ⟨(.ok r, t₁), w₁, h₁, (ih r).2 h₂⟩

/-! ### Methods that only read, and what methods return -/

namespace Act

variable {I : Interface} {σ ε α β : Type}

/-- A run of a sequence of methods: the first throws, or the second goes on from where it ended. -/
theorem runs_bind {W : World I} {m : Act I σ ε α} {f : α → Act I σ ε β} {s s' : σ}
    {w w' : W.State} {r : Except ε β} :
    Runs W w ((m >>= f) s) (r, s') w' ↔
      (∃ e, r = .error e ∧ Runs W w (m s) (.error e, s') w') ∨
        ∃ a s₁ w₁, Runs W w (m s) (.ok a, s₁) w₁ ∧ Runs W w₁ (f a s₁) (r, s') w' := by
  simp only [bind_apply, Effect.runs_bind]
  constructor
  · rintro ⟨⟨x, s₁⟩, w₁, h₁, h₂⟩
    cases x with
    | ok a => exact Or.inr ⟨a, s₁, w₁, h₁, h₂⟩
    | error e =>
        obtain ⟨heq, rfl⟩ := runs_done.1 h₂
        cases heq
        exact Or.inl ⟨e, rfl, h₁⟩
  · rintro (⟨e, rfl, h⟩ | ⟨a, s₁, w₁, h₁, h₂⟩)
    · exact ⟨_, _, h, Runs.done _ _⟩
    · exact ⟨_, _, h₁, h₂⟩

/-- A sequence of methods returns what the second returns. -/
theorem runs_bind_ok {W : World I} {m : Act I σ ε α} {f : α → Act I σ ε β} {s s' : σ}
    {w w' : W.State} {b : β} :
    Runs W w ((m >>= f) s) (.ok b, s') w' ↔
      ∃ a s₁ w₁, Runs W w (m s) (.ok a, s₁) w₁ ∧ Runs W w₁ (f a s₁) (.ok b, s') w' := by
  rw [runs_bind]
  constructor
  · rintro (⟨e, heq, -⟩ | h)
    · cases heq
    · exact h
  · exact Or.inr

/-- What a scope returns, its body has returned. -/
theorem runs_withDestructor_ok {W : World I} {m : Act I σ ε α} {fin : Act I σ ε Unit} {s s' : σ}
    {w w' : W.State} {a : α} (h : Runs W w (m.withDestructor fin s) (.ok a, s') w') :
    ∃ s₁ w₁, Runs W w (m s) (.ok a, s₁) w₁ := by
  simp only [withDestructor, Effect.runs_bind] at h
  obtain ⟨⟨x, s₁⟩, w₁, h₁, ⟨u, s₂⟩, w₂, -, h₃⟩ := h
  cases u with
  | ok v =>
      obtain ⟨heq, -⟩ := runs_done.1 h₃
      cases heq
      exact ⟨s₁, w₁, h₁⟩
  | error e =>
      obtain ⟨heq, -⟩ := runs_done.1 h₃
      cases heq

/-- Every run of the method takes the fields along the relation, whether it returns or throws. -/
def Moves (R : σ → σ → Prop) (m : Act I σ ε α) : Prop :=
  ∀ (W : World I) s w r s' w', Runs W w (m s) (r, s') w' → R s s'

/-- The method leaves the fields alone. -/
abbrev Reads (m : Act I σ ε α) : Prop := Moves Eq m

namespace Moves

variable {R : σ → σ → Prop}

theorem pure [Std.Refl R] (a : α) : Moves R (Pure.pure a : Act I σ ε α) := by
  intro W s w r s' w' h
  obtain ⟨heq, -⟩ := runs_done.1 h
  cases heq
  exact refl_of R s

theorem throw [Std.Refl R] (e : ε) : Moves R (Act.throw e : Act I σ ε α) := by
  intro W s w r s' w' h
  obtain ⟨heq, -⟩ := runs_done.1 h
  cases heq
  exact refl_of R s

theorem get [Std.Refl R] : Moves R (Act.get : Act I σ ε σ) := by
  intro W s w r s' w' h
  obtain ⟨heq, -⟩ := runs_done.1 h
  cases heq
  exact refl_of R s

theorem call [Std.Refl R] (c : I.Call) : Moves R (Act.call c : Act I σ ε (I.Reply c)) := by
  intro W s w r s' w' h
  obtain ⟨reply, w₁, -, h⟩ := runs_call.1 h
  obtain ⟨heq, -⟩ := runs_done.1 h
  cases heq
  exact refl_of R s

theorem modify {f : σ → σ} (h : ∀ s, R s (f s)) : Moves R (Act.modify f : Act I σ ε Unit) := by
  intro W s w r s' w' hr
  obtain ⟨heq, -⟩ := runs_done.1 hr
  cases heq
  exact h s

theorem bind [IsTrans σ R] {m : Act I σ ε α} {f : α → Act I σ ε β} (hm : Moves R m)
    (hf : ∀ a, Moves R (f a)) : Moves R (m >>= f) := by
  intro W s w r s' w' h
  rcases runs_bind.1 h with ⟨e, -, h⟩ | ⟨a, s₁, w₁, h₁, h₂⟩
  · exact hm W _ _ _ _ _ h
  · exact trans_of R (hm W _ _ _ _ _ h₁) (hf a W _ _ _ _ _ h₂)

theorem ite {c : Prop} [Decidable c] {m m' : Act I σ ε α} (hm : Moves R m) (hm' : Moves R m') :
    Moves R (if c then m else m') := by
  by_cases h : c
  · rwa [if_pos h]
  · rwa [if_neg h]

theorem withDestructor [IsTrans σ R] {m : Act I σ ε α} {fin : Act I σ ε Unit} (hm : Moves R m)
    (hfin : Moves R fin) : Moves R (m.withDestructor fin) := by
  intro W s w r s' w' h
  simp only [Act.withDestructor, Effect.runs_bind] at h
  obtain ⟨⟨x, s₁⟩, w₁, h₁, ⟨u, s₂⟩, w₂, h₂, h₃⟩ := h
  have hmove := trans_of R (hm W _ _ _ _ _ h₁) (hfin W _ _ _ _ _ h₂)
  cases u with
  | ok v =>
      obtain ⟨heq, -⟩ := runs_done.1 h₃
      cases heq
      exact hmove
  | error e =>
      obtain ⟨heq, -⟩ := runs_done.1 h₃
      cases heq
      exact hmove

theorem mono {R' : σ → σ → Prop} {m : Act I σ ε α} (hm : Moves R m) (h : ∀ s s', R s s' → R' s s') :
    Moves R' m := fun W s w r s' w' hr => h s s' (hm W s w r s' w' hr)

end Moves

/-- Whatever the method returns, it satisfies `Q`. -/
def Returns (m : Act I σ ε α) (Q : α → Prop) : Prop :=
  ∀ (W : World I) s w a s' w', Runs W w (m s) (.ok a, s') w' → Q a

namespace Returns

variable {Q : α → Prop} {R : β → Prop}

theorem pure {a : α} (h : Q a) : Returns (Pure.pure a : Act I σ ε α) Q := by
  intro W s w b s' w' hr
  obtain ⟨heq, -⟩ := runs_done.1 hr
  cases heq
  exact h

theorem throw {e : ε} : Returns (Act.throw e : Act I σ ε α) Q := by
  intro W s w b s' w' hr
  obtain ⟨heq, -⟩ := runs_done.1 hr
  cases heq

theorem bind {m : Act I σ ε α} {f : α → Act I σ ε β} (hf : ∀ a, Returns (f a) R) :
    Returns (m >>= f) R := by
  intro W s w b s' w' hr
  obtain ⟨a, s₁, w₁, -, h⟩ := runs_bind_ok.1 hr
  exact hf a W _ _ _ _ _ h

theorem ite {c : Prop} [Decidable c] {m m' : Act I σ ε α} (hm : Returns m Q) (hm' : Returns m' Q) :
    Returns (if c then m else m') Q := by
  by_cases h : c
  · rwa [if_pos h]
  · rwa [if_neg h]

theorem withDestructor {m : Act I σ ε α} {fin : Act I σ ε Unit} (hm : Returns m Q) :
    Returns (m.withDestructor fin) Q := by
  intro W s w a s' w' hr
  obtain ⟨s₁, w₁, h⟩ := runs_withDestructor_ok hr
  exact hm W _ _ _ _ _ h

end Returns

end Act

/-! ### Footprints -/

/-- The program makes only calls of a kind. -/
def Prog.Only {I : Interface} {α : Type} (C : I.Call → Prop) : Prog I α → Prop
  | .done _ => True
  | .call c next => C c ∧ ∀ r, (next r).Only C

section Only

variable {I : Interface} {C : I.Call → Prop} {α β : Type}

theorem Prog.Only.bind {p : Prog I α} {f : α → Prog I β} (hp : p.Only C) (hf : ∀ a, (f a).Only C) :
    (p.bind f).Only C := by
  induction p with
  | done a => exact hf a
  | call c next ih => exact ⟨hp.1, fun r => ih r (hp.2 r)⟩

theorem Prog.Only.mono {C' : I.Call → Prop} {p : Prog I α} (hp : p.Only C)
    (h : ∀ c, C c → C' c) : p.Only C' := by
  induction p with
  | done a => trivial
  | call c next ih => exact ⟨h c hp.1, fun r => ih r (hp.2 r)⟩

/-- What the calls of a program keep, its runs keep. -/
theorem Runs.invariant_of_only {W : World I} {P : W.State → Prop} {p : Prog I α}
    (hp : p.Only C) (hstep : ∀ {w c r w'}, C c → P w → W.Step w c r w' → P w') {w w' : W.State}
    {a : α} (h : Runs W w p a w') (hw : P w) : P w' := by
  induction h with
  | done => exact hw
  | call hs _ ih => exact ih (hp.2 _) (hstep hp.1 hw hs)

/-- **Simulation of a program by its calls**: where every step on a call it makes is one of another
world, every run of it is. -/
theorem Runs.simulates_of_only {W V : World I} {R : W.State → V.State → Prop} {p : Prog I α}
    (hp : p.Only C)
    (hstep : ∀ {w c r w' v}, C c → R w v → W.Step w c r w' → ∃ v', V.Step v c r v' ∧ R w' v')
    {w w' : W.State} {a : α} (h : Runs W w p a w') {v : V.State} (hR : R w v) :
    ∃ v', Runs V v p a v' ∧ R w' v' := by
  induction h generalizing v with
  | done w a => exact ⟨v, Runs.done v a, hR⟩
  | call hs _ ih =>
      obtain ⟨v₁, hv, hR₁⟩ := hstep hp.1 hR hs
      obtain ⟨v', hruns, hR'⟩ := ih (hp.2 _) hR₁
      exact ⟨v', Runs.call hv hruns, hR'⟩

/-- A program that makes no call leaves the world alone. -/
theorem Runs.eq_of_only_false {W : World I} {p : Prog I α} (hp : p.Only fun _ => False)
    {w w' : W.State} {a : α} (h : Runs W w p a w') : w' = w :=
  h.invariant_of_only (P := fun v => v = w) hp (fun hc _ _ => hc.elim) rfl

end Only

namespace Act

variable {I : Interface} {C : I.Call → Prop} {σ ε α β : Type}

/-- The method makes only calls of a kind. -/
def Only (C : I.Call → Prop) (m : Act I σ ε α) : Prop := ∀ s, (m s).Only C

namespace Only

theorem pure (a : α) : Only C (Pure.pure a : Act I σ ε α) := fun _ => trivial

theorem throw (e : ε) : Only C (Act.throw e : Act I σ ε α) := fun _ => trivial

theorem get : Only C (Act.get : Act I σ ε σ) := fun _ => trivial

theorem modify (f : σ → σ) : Only C (Act.modify f : Act I σ ε Unit) := fun _ => trivial

theorem call {c : I.Call} (h : C c) : Only C (Act.call c : Act I σ ε (I.Reply c)) :=
  fun _ => ⟨h, fun _ => trivial⟩

theorem bind {m : Act I σ ε α} {f : α → Act I σ ε β} (hm : Only C m) (hf : ∀ a, Only C (f a)) :
    Only C (m >>= f) := by
  intro s
  refine Prog.Only.bind (hm s) ?_
  rintro ⟨r, s'⟩
  cases r with
  | ok a => exact hf a s'
  | error e => trivial

theorem ite {c : Prop} [Decidable c] {m m' : Act I σ ε α} (hm : Only C m) (hm' : Only C m') :
    Only C (if c then m else m') := by
  by_cases h : c
  · rwa [if_pos h]
  · rwa [if_neg h]

theorem withDestructor {m : Act I σ ε α} {fin : Act I σ ε Unit} (hm : Only C m)
    (hfin : Only C fin) : Only C (m.withDestructor fin) := by
  intro s
  refine Prog.Only.bind (hm s) ?_
  rintro ⟨r, s'⟩
  refine Prog.Only.bind (hfin s') ?_
  rintro ⟨u, s''⟩
  cases u with
  | ok v => trivial
  | error e => trivial

theorem mono {C' : I.Call → Prop} {m : Act I σ ε α} (hm : Only C m) (h : ∀ c, C c → C' c) :
    Only C' m := fun s => (hm s).mono h

end Only

/-- The method makes only calls of a kind, and takes the fields along a relation. -/
structure Confined (C : I.Call → Prop) (R : σ → σ → Prop) (m : Act I σ ε α) : Prop where
  only : Only C m
  moves : Moves R m

namespace Confined

variable {R : σ → σ → Prop}

theorem pure [Std.Refl R] (a : α) : Confined C R (Pure.pure a : Act I σ ε α) :=
  ⟨Only.pure a, Moves.pure a⟩

theorem throw [Std.Refl R] (e : ε) : Confined C R (Act.throw e : Act I σ ε α) :=
  ⟨Only.throw e, Moves.throw e⟩

theorem get [Std.Refl R] : Confined C R (Act.get : Act I σ ε σ) := ⟨Only.get, Moves.get⟩

theorem call [Std.Refl R] {c : I.Call} (h : C c) :
    Confined C R (Act.call c : Act I σ ε (I.Reply c)) := ⟨Only.call h, Moves.call c⟩

theorem modify {f : σ → σ} (h : ∀ s, R s (f s)) : Confined C R (Act.modify f : Act I σ ε Unit) :=
  ⟨Only.modify f, Moves.modify h⟩

theorem bind [IsTrans σ R] {m : Act I σ ε α} {f : α → Act I σ ε β} (hm : Confined C R m)
    (hf : ∀ a, Confined C R (f a)) : Confined C R (m >>= f) :=
  ⟨Only.bind hm.only fun a => (hf a).only, Moves.bind hm.moves fun a => (hf a).moves⟩

theorem ite {c : Prop} [Decidable c] {m m' : Act I σ ε α} (hm : Confined C R m)
    (hm' : Confined C R m') : Confined C R (if c then m else m') :=
  ⟨Only.ite hm.only hm'.only, Moves.ite hm.moves hm'.moves⟩

theorem withDestructor [IsTrans σ R] {m : Act I σ ε α} {fin : Act I σ ε Unit}
    (hm : Confined C R m) (hfin : Confined C R fin) : Confined C R (m.withDestructor fin) :=
  ⟨Only.withDestructor hm.only hfin.only, Moves.withDestructor hm.moves hfin.moves⟩

theorem mono {C' : I.Call → Prop} {R' : σ → σ → Prop} {m : Act I σ ε α} (hm : Confined C R m)
    (hC : ∀ c, C c → C' c) (hR : ∀ s s', R s s' → R' s s') : Confined C' R' m :=
  ⟨hm.only.mono hC, hm.moves.mono hR⟩

end Confined

end Act

/-! ### Triples -/

/-- Partial correctness: from fields and world satisfying `P`, every run of `m` ends with an
outcome, fields and world satisfying `Q`. -/
def Triple {I : Interface} (W : World I) {σ ε α : Type} (P : σ → W.State → Prop)
    (m : Act I σ ε α) (Q : Except ε α → σ → W.State → Prop) : Prop :=
  ∀ s w, P s w → ∀ r s' w', Runs W w (m s) (r, s') w' → Q r s' w'

namespace Triple

variable {I : Interface} {W : World I} {σ ε α β : Type}
  {P P' : σ → W.State → Prop} {Q Q' : Except ε α → σ → W.State → Prop}
  {R : Except ε β → σ → W.State → Prop}

theorem pure {a : α} (h : ∀ s w, P s w → Q (.ok a) s w) :
    Triple W P (Pure.pure a : Act I σ ε α) Q := by
  intro s w hP r s' w' hr
  simp only [Act.pure_apply, runs_done, Prod.mk.injEq] at hr
  obtain ⟨⟨rfl, rfl⟩, rfl⟩ := hr
  exact h _ _ hP

theorem throw {e : ε} (h : ∀ s w, P s w → Q (.error e) s w) :
    Triple W P (Act.throw e : Act I σ ε α) Q := by
  intro s w hP r s' w' hr
  simp only [Act.throw_apply, runs_done, Prod.mk.injEq] at hr
  obtain ⟨⟨rfl, rfl⟩, rfl⟩ := hr
  exact h _ _ hP

/-- Weaken the precondition and strengthen the postcondition. -/
theorem conseq {m : Act I σ ε α} (hm : Triple W P m Q) (hP : ∀ s w, P' s w → P s w)
    (hQ : ∀ r s w, Q r s w → Q' r s w) : Triple W P' m Q' :=
  fun s w hs r s' w' hr => hQ r s' w' (hm s w (hP s w hs) r s' w' hr)

/-- The rule for a sequence: the postcondition of the first part is the precondition of the rest
when it returns, and the postcondition of the whole when it throws. -/
theorem bind {m : Act I σ ε α} {f : α → Act I σ ε β} (hm : Triple W P m Q)
    (hf : ∀ a, Triple W (fun s w => Q (.ok a) s w) (f a) R)
    (he : ∀ e s w, Q (.error e) s w → R (.error e) s w) : Triple W P (m >>= f) R := by
  intro s w hP r s' w' hr
  simp only [Act.bind_apply, runs_bind] at hr
  obtain ⟨⟨ra, s₁⟩, w₁, h₁, h₂⟩ := hr
  have hQ := hm s w hP ra s₁ w₁ h₁
  cases ra with
  | ok a => exact hf a s₁ w₁ hQ r s' w' h₂
  | error e =>
      simp only [runs_done, Prod.mk.injEq] at h₂
      obtain ⟨⟨rfl, rfl⟩, rfl⟩ := h₂
      exact he e _ _ hQ

theorem get {Q : Except ε σ → σ → W.State → Prop} (h : ∀ s w, P s w → Q (.ok s) s w) :
    Triple W P (Act.get : Act I σ ε σ) Q := by
  intro s w hP r s' w' hr
  simp only [Act.get_apply, runs_done, Prod.mk.injEq] at hr
  obtain ⟨⟨rfl, rfl⟩, rfl⟩ := hr
  exact h _ _ hP

theorem modify {f : σ → σ} {Q : Except ε Unit → σ → W.State → Prop}
    (h : ∀ s w, P s w → Q (.ok ()) (f s) w) : Triple W P (Act.modify f : Act I σ ε Unit) Q := by
  intro s w hP r s' w' hr
  simp only [Act.modify_apply, runs_done, Prod.mk.injEq] at hr
  obtain ⟨⟨rfl, rfl⟩, rfl⟩ := hr
  exact h _ _ hP

/-- Read the fields and go on. -/
theorem read {f : σ → Act I σ ε β} (h : ∀ v, Triple W (fun s w => v = s ∧ P s w) (f v) R) :
    Triple W P (Act.get >>= f) R := fun s w hP r s' w' hr => h s s w ⟨rfl, hP⟩ r s' w' hr

/-- The rule for a call: whatever the world may answer must lead to the postcondition. -/
theorem call {c : I.Call} {Q : Except ε (I.Reply c) → σ → W.State → Prop}
    (h : ∀ s w, P s w → ∀ r w', W.Step w c r w' → Q (.ok r) s w') :
    Triple W P (Act.call c : Act I σ ε (I.Reply c)) Q := by
  intro s w hP r s' w' hr
  simp only [Act.call_apply, runs_call, runs_done, Prod.mk.injEq] at hr
  obtain ⟨r', w₁, hs, ⟨rfl, rfl⟩, rfl⟩ := hr
  exact h _ _ hP _ _ hs

/-- The rule for a scoped object: its destructor starts from whatever the body left. -/
theorem withDestructor {m : Act I σ ε α} {fin : Act I σ ε Unit} (hm : Triple W P m Q)
    (hfin : ∀ r, Triple W (fun s w => Q r s w) fin
      fun u s w => match u with | .ok () => Q' r s w | .error e => Q' (.error e) s w) :
    Triple W P (m.withDestructor fin) Q' := by
  intro s w hP r s' w' hr
  simp only [Act.withDestructor, runs_bind] at hr
  obtain ⟨⟨ra, s₁⟩, w₁, h₁, ⟨u, s₂⟩, w₂, h₂, h₃⟩ := hr
  have hQ := hm s w hP ra s₁ w₁ h₁
  have hF := hfin ra s₁ w₁ hQ u s₂ w₂ h₂
  cases u with
  | ok a =>
      simp only [runs_done, Prod.mk.injEq] at h₃
      obtain ⟨⟨rfl, rfl⟩, rfl⟩ := h₃
      exact hF
  | error e =>
      simp only [runs_done, Prod.mk.injEq] at h₃
      obtain ⟨⟨rfl, rfl⟩, rfl⟩ := h₃
      exact hF

theorem ite {c : Prop} [Decidable c] {m m' : Act I σ ε α}
    (ht : c → Triple W P m Q) (hf : ¬c → Triple W P m' Q) :
    Triple W P (if c then m else m') Q := by
  split
  · exact ht ‹_›
  · exact hf ‹_›

/-- Two triples of one program. -/
theorem and {m : Act I σ ε α} (hm : Triple W P m Q) (hm' : Triple W P' m Q') :
    Triple W (fun s w => P s w ∧ P' s w) m fun r s w => Q r s w ∧ Q' r s w :=
  fun s w hP r s' w' hr => ⟨hm s w hP.1 r s' w' hr, hm' s w hP.2 r s' w' hr⟩

/-- What is known of the results may be added. -/
theorem and_returns {m : Act I σ ε α} (hm : Triple W P m Q) {V : α → Prop}
    (hV : Act.Returns m V) : Triple W P m fun r s w => Q r s w ∧ ∀ a, r = .ok a → V a := by
  intro s w hP r s' w' hr
  refine ⟨hm s w hP r s' w' hr, fun a ha => ?_⟩
  rw [ha] at hr
  exact hV W s w a s' w' hr

/-- A call that begins a sequence: it does not throw. -/
theorem callThen {c : I.Call} {f : I.Reply c → Act I σ ε β} (Q : I.Reply c → σ → W.State → Prop)
    (h : ∀ s w, P s w → ∀ r w', W.Step w c r w' → Q r s w') (hf : ∀ r, Triple W (Q r) (f r) R) :
    Triple W P (Act.call c >>= f) R := by
  refine bind (Q := fun r s w => ∃ a, r = .ok a ∧ Q a s w) (call ?_) (fun r => ?_) ?_
  · intro s w hP r w' hstep
    exact ⟨r, rfl, h s w hP r w' hstep⟩
  · rintro s w ⟨a, ha, hQ⟩
    cases ha
    exact hf r s w hQ
  · rintro e s w ⟨a, ha, -⟩
    cases ha

/-- An assignment that begins a sequence. -/
theorem modifyThen {g : σ → σ} {f : Unit → Act I σ ε β} (Q : σ → W.State → Prop)
    (h : ∀ s w, P s w → Q (g s) w) (hf : Triple W Q (f ()) R) :
    Triple W P (Act.modify g >>= f) R := by
  refine bind (Q := fun r s w => r = .ok () ∧ Q s w)
    (modify fun s w hP => ⟨rfl, h s w hP⟩) (fun _ => ?_) ?_
  · exact hf.conseq (fun _ _ hQ => hQ.2) fun _ _ _ hR => hR
  · rintro e s w ⟨he, -⟩
    cases he

end Triple

/-! ### Conditions that methods keep -/

/-- The method keeps a condition on the fields and the world, whether it returns or throws. -/
def Keeps {I : Interface} (W : World I) {σ ε α : Type} (P : σ → W.State → Prop)
    (m : Act I σ ε α) : Prop := Triple W P m fun _ => P

namespace Keeps

variable {I : Interface} {W : World I} {σ ε α β : Type} {P : σ → W.State → Prop}

theorem pure (a : α) : Keeps W P (Pure.pure a : Act I σ ε α) := Triple.pure fun _ _ h => h

theorem throw (e : ε) : Keeps W P (Act.throw e : Act I σ ε α) := Triple.throw fun _ _ h => h

theorem get : Keeps W P (Act.get : Act I σ ε σ) := Triple.get fun _ _ h => h

theorem modify {f : σ → σ} (h : ∀ s w, P s w → P (f s) w) :
    Keeps W P (Act.modify f : Act I σ ε Unit) := Triple.modify h

theorem call {c : I.Call} (h : ∀ s w r w', P s w → W.Step w c r w' → P s w') :
    Keeps W P (Act.call c : Act I σ ε (I.Reply c)) :=
  Triple.call fun s w hP r w' hstep => h s w r w' hP hstep

theorem bind {m : Act I σ ε α} {f : α → Act I σ ε β} (hm : Keeps W P m)
    (hf : ∀ a, Keeps W P (f a)) : Keeps W P (m >>= f) :=
  Triple.bind hm hf fun _ _ _ h => h

theorem ite {c : Prop} [Decidable c] {m m' : Act I σ ε α} (ht : c → Keeps W P m)
    (hf : ¬c → Keeps W P m') : Keeps W P (if c then m else m') := Triple.ite ht hf

/-- What the calls of a method keep, the method keeps if it only reads the fields. -/
theorem of_reads {C : I.Call → Prop} {m : Act I σ ε α} (hm : Act.Confined C Eq m)
    (h : ∀ {s w c r w'}, C c → P s w → W.Step w c r w' → P s w') : Keeps W P m := by
  intro s w hw r s' w' hrun
  obtain rfl := hm.moves W _ _ _ _ _ hrun
  exact Runs.invariant_of_only (hm.only s) h hrun hw

/-- What does not depend on the fields is kept by any method whose calls keep it. -/
theorem of_only {C : I.Call → Prop} {Q : W.State → Prop} {m : Act I σ ε α} (hm : Act.Only C m)
    (h : ∀ {w c r w'}, C c → Q w → W.Step w c r w' → Q w') : Keeps W (fun _ => Q) m :=
  fun s _ hw _ _ _ hrun => Runs.invariant_of_only (hm s) h hrun hw

/-- What the methods behind the calls of a program keep, the program keeps. -/
theorem handle {J : Interface} {h : (c : J.Call) → Act I σ ε (J.Reply c)}
    (hkeeps : ∀ c, Keeps W P (h c)) (p : Prog J α) : Keeps W P (p.handle h) := by
  induction p with
  | done a => exact Keeps.pure a
  | call c next ih => exact Keeps.bind (hkeeps c) ih

end Keeps

/-! ### Results of methods -/

/-- The result of a method, from any state: what it returns satisfies `Q`, and an exception says what
satisfies `E`. -/
def Yields {I : Interface} (W : World I) {σ ε α : Type} (E : ε → Prop) (m : Act I σ ε α)
    (Q : α → Prop) : Prop :=
  Triple W (fun _ _ => True) m fun r _ _ => (∀ a, r = .ok a → Q a) ∧ ∀ e, r = .error e → E e

namespace Yields

variable {I : Interface} {W : World I} {σ ε α β : Type} {E : ε → Prop} {Q : α → Prop}
  {R : β → Prop}

theorem pure {a : α} (h : Q a) : Yields W E (Pure.pure a : Act I σ ε α) Q := by
  refine Triple.pure fun _ _ _ => ⟨fun b hb => ?_, fun e he => (by cases he)⟩
  cases hb
  exact h

theorem throw {e : ε} (h : E e) : Yields W E (Act.throw e : Act I σ ε α) Q := by
  refine Triple.throw fun _ _ _ => ⟨fun a ha => (by cases ha), fun e' he => ?_⟩
  cases he
  exact h

theorem get : Yields W E (Act.get : Act I σ ε σ) fun _ => True :=
  Triple.get fun _ _ _ => ⟨fun _ _ => trivial, fun e he => (by cases he)⟩

theorem modify (f : σ → σ) : Yields W E (Act.modify f : Act I σ ε Unit) fun _ => True :=
  Triple.modify fun _ _ _ => ⟨fun _ _ => trivial, fun e he => (by cases he)⟩

/-- A call that replies with what satisfies `Q`. -/
theorem call {c : I.Call} {Q : I.Reply c → Prop} (h : ∀ w r w', W.Step w c r w' → Q r) :
    Yields W E (Act.call c : Act I σ ε (I.Reply c)) Q := by
  refine Triple.call fun _ w _ r w' hstep => ⟨fun a ha => ?_, fun e he => (by cases he)⟩
  cases ha
  exact h w r w' hstep

/-- **The rule for sequences.** -/
theorem bind {m : Act I σ ε α} {f : α → Act I σ ε β} (hm : Yields W E m Q)
    (hf : ∀ a, Q a → Yields W E (f a) R) : Yields W E (m >>= f) R := by
  refine Triple.bind hm (fun a => ?_) fun e s w h => ⟨fun b hb => (by cases hb), fun e' he => ?_⟩
  · intro s w h
    exact hf a (h.1 a rfl) s w trivial
  · cases he
    exact h.2 e rfl

theorem ite {c : Prop} [Decidable c] {m m' : Act I σ ε α} (hm : Yields W E m Q)
    (hm' : Yields W E m' Q) : Yields W E (if c then m else m') Q := by
  split
  · exact hm
  · exact hm'

theorem mono {m : Act I σ ε α} {Q' : α → Prop} (hm : Yields W E m Q) (h : ∀ a, Q a → Q' a) :
    Yields W E m Q' :=
  Triple.conseq hm (fun _ _ h => h) fun _ _ _ hr => ⟨fun a ha => h a (hr.1 a ha), hr.2⟩

/-- The destructor of a scoped object returns nothing. -/
theorem withDestructor {m : Act I σ ε α} {fin : Act I σ ε Unit} (hm : Yields W E m Q)
    (hfin : Yields W E fin fun _ => True) : Yields W E (m.withDestructor fin) Q := by
  refine Triple.withDestructor hm fun r => ?_
  intro s w hr u s' w' hrun
  have hu := hfin s w trivial u s' w' hrun
  cases u with
  | ok a => exact hr
  | error e => exact ⟨fun a ha => (by cases ha), fun e' he => (by cases he; exact hu.2 e rfl)⟩

end Yields

end Effect
