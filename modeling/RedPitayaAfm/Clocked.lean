/-
**Clocked logic.**

A synchronous circuit is a state and a function that gives the state after the next clock edge.
Its behaviour is a trace: one state for each cycle.  A submodule of a circuit has a trace of its
own, whose inputs are signals of the other submodules.  This module supplies what the proofs about
such traces share: closed forms, invariants, and the arithmetic of a counter that divides the clock.

Main definitions:

* `Clocked.Follows`, `Clocked.run` — the traces of a circuit, and the one from a given state;
* `Clocked.Reachable` — the states of a circuit after reset.

Main results:

* `Clocked.Follows.invariant` — what every edge of a stretch preserves;
* `Clocked.succ_mod`, `Clocked.succ_div` — phase and period of a clock divider.
-/

import Mathlib

set_option relaxedAutoImplicit false
set_option autoImplicit false

namespace Clocked

variable {σ ι : Type} {step : σ → ι → σ}

/-! ### Traces -/

/-- A trace: every state is the one before, after a clock edge. -/
def Follows (step : σ → ι → σ) (x : ℕ → σ) (inp : ℕ → ι) : Prop :=
  ∀ n, x (n + 1) = step (x n) (inp n)

/-- The state after `n` clock edges. -/
def run (step : σ → ι → σ) (s : σ) (inp : ℕ → ι) : ℕ → σ
  | 0 => s
  | n + 1 => step (run step s inp n) (inp n)

@[simp] theorem run_zero (s : σ) (inp : ℕ → ι) : run step s inp 0 = s := rfl

theorem follows_run (s : σ) (inp : ℕ → ι) : Follows step (run step s inp) inp := fun _ => rfl

/-- A trace from some cycle on is a trace. -/
theorem Follows.shift {x : ℕ → σ} {inp : ℕ → ι} (h : Follows step x inp) (a : ℕ) :
    Follows step (fun n => x (a + n)) fun n => inp (a + n) :=
  fun n => h (a + n)

/-- **Invariance.**  What holds at first and is preserved by `m` edges holds after them. -/
theorem Follows.invariant {x : ℕ → σ} {inp : ℕ → ι} (h : Follows step x inp) {P : ℕ → σ → Prop}
    {m : ℕ} (h₀ : P 0 (x 0)) (hstep : ∀ n < m, P n (x n) → P (n + 1) (step (x n) (inp n))) :
    ∀ n ≤ m, P n (x n) := by
  intro n
  induction n with
  | zero =>
      intro _
      exact h₀
  | succ n ih =>
      intro hn
      rw [h n]
      exact hstep n (by omega) (ih (by omega))

/-! ### Reachable states -/

/-- The states after reset, with any inputs. -/
inductive Reachable (init : σ → Prop) (step : σ → ι → σ) : σ → Prop
  | init {s : σ} (h : init s) : Reachable init step s
  | step {s : σ} (h : Reachable init step s) (i : ι) : Reachable init step (step s i)

/-- What holds after reset and is preserved by every edge holds of every reachable state. -/
theorem Reachable.invariant {init P : σ → Prop} (h₀ : ∀ s, init s → P s)
    (hstep : ∀ s i, P s → P (step s i)) {s : σ} (h : Reachable init step s) : P s := by
  induction h with
  | init h => exact h₀ _ h
  | step _ i ih => exact hstep _ i ih

theorem Reachable.run {init : σ → Prop} {s : σ} (h : Reachable init step s) (inp : ℕ → ι) (n : ℕ) :
    Reachable init step (run step s inp n) := by
  induction n with
  | zero => exact h
  | succ n ih => exact ih.step (inp n)

/-! ### Clock dividers -/

/-- The phase of a divider by `d` wraps after `d - 1`. -/
theorem succ_mod {d : ℕ} (hd : 0 < d) (n : ℕ) :
    (n + 1) % d = if n % d = d - 1 then 0 else n % d + 1 := by
  have hlt := Nat.mod_lt n hd
  have hn := Nat.div_add_mod n d
  split
  · rename_i hlast
    have hsum : n + 1 = d * (n / d + 1) := by
      rw [Nat.mul_add]
      omega
    rw [hsum, Nat.mul_mod_right]
  · have hsum : n + 1 = n % d + 1 + d * (n / d) := by omega
    rw [hsum, Nat.add_mul_mod_self_left, Nat.mod_eq_of_lt (by omega)]

/-- The period of a divider by `d` advances when the phase wraps. -/
theorem succ_div {d : ℕ} (hd : 0 < d) (n : ℕ) :
    (n + 1) / d = if n % d = d - 1 then n / d + 1 else n / d := by
  have hlt := Nat.mod_lt n hd
  have hn := Nat.div_add_mod n d
  split
  · rename_i hlast
    have hsum : n + 1 = d * (n / d + 1) := by
      rw [Nat.mul_add]
      omega
    rw [hsum, Nat.mul_div_cancel_left _ hd]
  · have hsum : n + 1 = n % d + 1 + d * (n / d) := by omega
    rw [hsum, Nat.add_mul_div_left _ _ hd, Nat.div_eq_of_lt (by omega), Nat.zero_add]

/-- A cycle is in phase `r` of period `k` exactly when it is that cycle. -/
theorem mod_div_eq_iff {d r : ℕ} (hr : r < d) (n k : ℕ) :
    n % d = r ∧ n / d = k ↔ n = k * d + r := by
  constructor
  · rintro ⟨rfl, rfl⟩
    have := Nat.div_add_mod n d
    rw [Nat.mul_comm]
    omega
  · rintro rfl
    have hd : 0 < d := by omega
    rw [Nat.add_comm, Nat.add_mul_mod_self_right, Nat.add_mul_div_right _ _ hd,
      Nat.mod_eq_of_lt hr, Nat.div_eq_of_lt hr, Nat.zero_add]
    exact ⟨rfl, rfl⟩

end Clocked
