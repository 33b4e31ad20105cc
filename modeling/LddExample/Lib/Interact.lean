import Mathlib.Data.Nat.Notation
import Mathlib.Tactic.SplitIfs

/-!
# Programs that act on an environment

A driver performs actions on its hardware one after the other; the answer to an action decides how
it goes on. The hardware is a function from a state and an action to an answer and a state.

* `Driver`: the programs, a monad with failure; `perform`, `fail`, `attempt`.
* `run h p s`: the program `p` on the hardware `h` from the state `s`.
* `Spec h P p Q`: from the states of `P`, the outcome and the state after the run are in `Q`;
  `Spec.bind`, `Spec.perform` and `Spec.weaken` are the rules.
* `Accounts enter p Q b`: what every run of `p` enters in an account that starts as `b`;
  **`run_accounts`** is its meaning.
* **`run_sim`**: a simulation of one hardware by another carries over to every program, up to the
  actions after which the second one promises nothing any more.
-/

namespace LddExample.Interact

/-- A program; action `i` is answered with a value of `ρ i`. -/
inductive Driver (ι : Type) (ρ : ι → Type) (ε α : Type)
  | ret (a : α)
  | fail (e : ε)
  | act (i : ι) (k : ρ i → Driver ι ρ ε α)

variable {ι : Type} {ρ : ι → Type} {ε α β σ σ' : Type}

namespace Driver

/-- The second driver goes on with the result of the first one. -/
def bind : Driver ι ρ ε α → (α → Driver ι ρ ε β) → Driver ι ρ ε β
  | ret a, f => f a
  | fail e, _ => fail e
  | act i k, f => act i fun r => (k r).bind f

instance instMonad : Monad (Driver ι ρ ε) where
  pure := ret
  bind := bind

instance instLawfulMonad : LawfulMonad (Driver ι ρ ε) :=
  LawfulMonad.mk' _
    (fun x => by
      induction x with
      | ret a => rfl
      | fail e => rfl
      | act i k ih => exact congrArg (act i) (funext ih))
    (fun _ _ => rfl)
    (fun x f g => by
      induction x with
      | ret a => rfl
      | fail e => rfl
      | act i k ih => exact congrArg (act i) (funext ih))

/-- One action. -/
def perform (i : ι) : Driver ι ρ ε (ρ i) := act i ret

/-- A call whose failure does not end the caller. -/
def attempt {ε' : Type} : Driver ι ρ ε α → Driver ι ρ ε' (Except ε α)
  | ret a => ret (.ok a)
  | fail e => ret (.error e)
  | act i k => act i fun r => (k r).attempt

end Driver

open Driver

/-- The hardware: what an action answers and does. -/
abbrev Hardware (ι : Type) (ρ : ι → Type) (σ : Type) := (i : ι) → σ → ρ i × σ

variable (h : Hardware ι ρ σ)

/-- The outcome of a program and the state after it. -/
def run : Driver ι ρ ε α → σ → Except ε α × σ
  | .ret a, s => (.ok a, s)
  | .fail e, s => (.error e, s)
  | .act i k, s => run (k (h i s).1) (h i s).2

/-! ## Composition -/

@[simp] theorem run_pure (a : α) (s : σ) : run h (pure a : Driver ι ρ ε α) s = (.ok a, s) := (rfl)

@[simp] theorem run_fail (e : ε) (s : σ) : run h (.fail e : Driver ι ρ ε α) s = (.error e, s) :=
  (rfl)

@[simp] theorem run_perform (i : ι) (s : σ) :
    run h (perform i : Driver ι ρ ε _) s = (.ok (h i s).1, (h i s).2) := (rfl)

theorem run_bind (p : Driver ι ρ ε α) (f : α → Driver ι ρ ε β) (s : σ) :
    run h (p >>= f) s =
      match (run h p s).1 with
      | .ok a => run h (f a) (run h p s).2
      | .error e => (.error e, (run h p s).2) := by
  induction p generalizing s with
  | ret a => rfl
  | fail e => rfl
  | act i k ih => exact ih (h i s).1 (h i s).2

theorem run_bind_ok {p : Driver ι ρ ε α} {f : α → Driver ι ρ ε β} {s s' : σ} {a : α}
    (hp : run h p s = (.ok a, s')) : run h (p >>= f) s = run h (f a) s' := by
  rw [run_bind, hp]

theorem run_bind_error {p : Driver ι ρ ε α} {f : α → Driver ι ρ ε β} {s s' : σ} {e : ε}
    (hp : run h p s = (.error e, s')) : run h (p >>= f) s = (.error e, s') := by
  rw [run_bind, hp]

theorem run_attempt {ε' : Type} (p : Driver ι ρ ε α) (s : σ) :
    run h (p.attempt : Driver ι ρ ε' _) s = (.ok (run h p s).1, (run h p s).2) := by
  induction p generalizing s with
  | ret a => rfl
  | fail e => rfl
  | act i k ih => exact ih (h i s).1 (h i s).2

/-- What every action keeps, every program keeps. -/
theorem run_inv {I : σ → Prop} (hI : ∀ i s, I s → I (h i s).2) (p : Driver ι ρ ε α) :
    ∀ s, I s → I (run h p s).2 := by
  induction p with
  | ret a => exact fun _ hs => hs
  | fail e => exact fun _ hs => hs
  | act i k ih => exact fun s hs => ih _ _ (hI i s hs)

/-! ## Pre- and postconditions -/

/-- From the states of `P`, the outcome and the state after the run are in `Q`. -/
def Spec (P : σ → Prop) (p : Driver ι ρ ε α) (Q : Except ε α → σ → Prop) : Prop :=
  ∀ s, P s → Q (run h p s).1 (run h p s).2

namespace Spec

variable {h} {P P' : σ → Prop} {p : Driver ι ρ ε α} {Q Q' : Except ε α → σ → Prop}

theorem weaken (hp : Spec h P p Q) (hP : ∀ s, P' s → P s) (hQ : ∀ r s, Q r s → Q' r s) :
    Spec h P' p Q' :=
  fun s hs => hQ _ _ (hp s (hP s hs))

theorem pure {a : α} (ha : ∀ s, P s → Q (.ok a) s) : Spec h P (Pure.pure a : Driver ι ρ ε α) Q :=
  ha

theorem fail {e : ε} (he : ∀ s, P s → Q (.error e) s) : Spec h P (.fail e : Driver ι ρ ε α) Q :=
  he

theorem perform {i : ι} {Q : Except ε (ρ i) → σ → Prop}
    (hi : ∀ s, P s → Q (.ok (h i s).1) (h i s).2) : Spec h P (Driver.perform i) Q :=
  hi

/-- **The rule of sequence.** A failure of the first part is the failure of the whole. -/
theorem bind {R : Except ε α → σ → Prop} {f : α → Driver ι ρ ε β} {Q : Except ε β → σ → Prop}
    (hp : Spec h P p R) (hf : ∀ a, Spec h (R (.ok a)) (f a) Q)
    (he : ∀ e s, R (.error e) s → Q (.error e) s) : Spec h P (p >>= f) Q := by
  intro s hs
  have hR := hp s hs
  rw [run_bind]
  cases hr : (run h p s).1 with
  | ok a =>
    rw [hr] at hR
    exact hf a _ hR
  | error e =>
    rw [hr] at hR
    exact he e _ hR

theorem attempt {ε' : Type} {Q : Except ε α → σ → Prop} (hp : Spec h P p Q) :
    Spec h P (p.attempt : Driver ι ρ ε' _) fun r s => ∃ r', r = .ok r' ∧ Q r' s := by
  intro s hs
  rw [run_attempt]
  exact ⟨_, rfl, hp s hs⟩

theorem ite {c : Prop} [Decidable c] {p' : Driver ι ρ ε α} (hp : c → Spec h P p Q)
    (hp' : ¬c → Spec h P p' Q) : Spec h P (if c then p else p') Q := by
  split_ifs with hc
  · exact hp hc
  · exact hp' hc

end Spec

/-! ## Accounts -/

section Accounts

variable {κ : Type} (enter : (i : ι) → ρ i → κ → κ)

/-- `Q` holds of every outcome of the program and its account: `enter` enters each action with its
answer, and every answer is possible. -/
def Accounts : Driver ι ρ ε α → (Except ε α → κ → Prop) → κ → Prop
  | .ret a, Q, b => Q (.ok a) b
  | .fail e, Q, b => Q (.error e) b
  | .act i k, Q, b => ∀ r, Accounts (k r) Q (enter i r b)

/-- The hardware that keeps the account. -/
def accounted : Hardware ι ρ (σ × κ) :=
  fun i s => ((h i s.1).1, (h i s.1).2, enter i (h i s.1).1 s.2)

variable {enter}

namespace Accounts

variable {Q Q' : Except ε α → κ → Prop} {b : κ} {p : Driver ι ρ ε α}

theorem weaken (hp : Accounts enter p Q b) (hQ : ∀ r b, Q r b → Q' r b) :
    Accounts enter p Q' b := by
  induction p generalizing b with
  | ret a => exact hQ _ _ hp
  | fail e => exact hQ _ _ hp
  | act i k ih => exact fun r => ih r (hp r)

theorem act {i : ι} {f : ρ i → Driver ι ρ ε α} (hf : ∀ r, Accounts enter (f r) Q (enter i r b)) :
    Accounts enter (Driver.perform i >>= f) Q b :=
  hf

/-- **Sequence.** -/
theorem bind {R : Except ε α → κ → Prop} {f : α → Driver ι ρ ε β} {Q : Except ε β → κ → Prop}
    (hp : Accounts enter p R b) (hf : ∀ a b, R (.ok a) b → Accounts enter (f a) Q b)
    (he : ∀ e b, R (.error e) b → Q (.error e) b) : Accounts enter (p >>= f) Q b := by
  induction p generalizing b with
  | ret a => exact hf a b hp
  | fail e => exact he e b hp
  | act i k ih => exact fun r => ih r (hp r)

theorem ite {c : Prop} [Decidable c] {p' : Driver ι ρ ε α} (hp : c → Accounts enter p Q b)
    (hp' : ¬c → Accounts enter p' Q b) : Accounts enter (if c then p else p') Q b := by
  split_ifs with hc
  · exact hp hc
  · exact hp' hc

end Accounts

/-- **The account of a run.** -/
theorem run_accounts {Q : Except ε α → κ → Prop} {p : Driver ι ρ ε α} :
    ∀ {s : σ} {b : κ}, Accounts enter p Q b →
      Q (run (accounted h enter) p (s, b)).1 (run (accounted h enter) p (s, b)).2.2 := by
  induction p with
  | ret a => exact fun hp => hp
  | fail e => exact fun hp => hp
  | act i k ih => exact fun hp => ih _ (hp _)

end Accounts

/-! ## Simulation -/

variable {h} {h' : Hardware ι ρ σ'} {R : σ → σ' → Prop} {Bad : σ' → Prop}

/-- **A simulation carries over to programs.** -/
theorem run_sim (hbad : ∀ i s', Bad s' → Bad (h' i s').2)
    (hsim : ∀ i s s', R s s' →
      Bad (h' i s').2 ∨ ((h i s).1 = (h' i s').1 ∧ R (h i s).2 (h' i s').2))
    (p : Driver ι ρ ε α) :
    ∀ s s', R s s' → Bad (run h' p s').2 ∨
      ((run h p s).1 = (run h' p s').1 ∧ R (run h p s).2 (run h' p s').2) := by
  induction p with
  | ret a => exact fun _ _ hR => .inr ⟨rfl, hR⟩
  | fail e => exact fun _ _ hR => .inr ⟨rfl, hR⟩
  | act i k ih =>
    intro s s' hR
    obtain hb | ⟨hans, hR'⟩ := hsim i s s' hR
    · exact .inl (run_inv h' hbad (k (h' i s').1) _ hb)
    · have hk := ih (h i s).1 _ _ hR'
      rw [run, run, ← hans]
      exact hk

end LddExample.Interact
