import Mathlib.Data.Nat.Notation
import Mathlib.Tactic.SplitIfs

/-!
# Programs that take locks

`LockM ι` is the monad of one execution context that takes and releases locks named by `ι`. Its
state is the list of the locks the context holds. To acquire a lock it holds already, or to release
one it does not hold, is a `Misuse` and ends the context.

* `Spec h p Q`: from the held locks `h`, `p` runs without misuse to a value and held locks in `Q`.
* `Spec.pure`, `Spec.bind`, `Spec.acquire`, `Spec.release`, `Spec.replicate`, `Spec.and`: the rules.
* `run_bind_error`: misuse ends the context.
-/

namespace LddExample.Lock

variable {ι : Type} {α β : Type}

/-- How a context can misuse a lock. -/
inductive Misuse (ι : Type)
  | acquireHeld (l : ι)
  | releaseFree (l : ι)
deriving DecidableEq

/-- Programs that hold locks, or end in a misuse. -/
abbrev LockM (ι : Type) := StateT (List ι) (Except (Misuse ι))

section Acquire

variable [DecidableEq ι]

/-- Take a lock. -/
def acquire (l : ι) : LockM ι Unit := fun h =>
  if l ∈ h then .error (.acquireHeld l) else .ok ((), l :: h)

/-- Give a lock back. -/
def release (l : ι) : LockM ι Unit := fun h =>
  if l ∈ h then .ok ((), h.erase l) else .error (.releaseFree l)

end Acquire

/-- `n` runs of a program, one after the other. -/
def replicate (p : LockM ι Unit) : ℕ → LockM ι Unit
  | 0 => pure ()
  | n + 1 => do p; replicate p n

theorem run_bind_error {p : LockM ι α} {f : α → LockM ι β} {h : List ι} {e : Misuse ι}
    (hp : p.run h = .error e) : (p >>= f).run h = .error e := by
  rw [StateT.run_bind, hp]
  rfl

theorem run_bind_ok {p : LockM ι α} {f : α → LockM ι β} {h h' : List ι} {a : α}
    (hp : p.run h = .ok (a, h')) : (p >>= f).run h = (f a).run h' := by
  rw [StateT.run_bind, hp]
  rfl

/-- The program runs without misuse from `h`, to a result in `Q`. -/
def Spec (h : List ι) (p : LockM ι α) (Q : α → List ι → Prop) : Prop :=
  ∃ a h', p.run h = .ok (a, h') ∧ Q a h'

namespace Spec

variable {h : List ι} {p : LockM ι α} {Q : α → List ι → Prop}

theorem and {R : α → List ι → Prop} (hQ : Spec h p Q) (hR : Spec h p R) :
    Spec h p fun a h' => Q a h' ∧ R a h' := by
  obtain ⟨a, h', ha, hQ⟩ := hQ
  obtain ⟨b, h'', hb, hR⟩ := hR
  cases hb.symm.trans ha
  exact ⟨a, h', ha, hQ, hR⟩

theorem not_of_error {e : Misuse ι} (he : p.run h = .error e) : ¬Spec h p Q := by
  rintro ⟨a, h', ha, -⟩
  cases ha.symm.trans he

theorem pure {a : α} (ha : Q a h) : Spec h (pure a) Q :=
  ⟨a, h, rfl, ha⟩

theorem bind {f : α → LockM ι β} {R : β → List ι → Prop} (hp : Spec h p Q)
    (hf : ∀ a h', Q a h' → Spec h' (f a) R) : Spec h (p >>= f) R := by
  obtain ⟨a, h', ha, hQ⟩ := hp
  obtain ⟨b, h'', hb, hR⟩ := hf a h' hQ
  exact ⟨b, h'', by rw [run_bind_ok ha, hb], hR⟩

theorem acquire [DecidableEq ι] {l : ι} {p : Unit → LockM ι α} (hl : l ∉ h)
    (hp : Spec (l :: h) (p ()) Q) : Spec h (acquire l >>= p) Q :=
  bind (Q := fun _ h' => h' = l :: h) ⟨(), l :: h, if_neg hl, rfl⟩ fun _ _ he => he ▸ hp

theorem release_last [DecidableEq ι] (l : ι) :
    Spec (l :: h) (Lock.release l) fun _ h' => h' = h :=
  ⟨(), h, by rw [StateT.run, Lock.release, if_pos List.mem_cons_self, List.erase_cons_head], rfl⟩

theorem release [DecidableEq ι] {l : ι} {p : Unit → LockM ι α} (hp : Spec h (p ()) Q) :
    Spec (l :: h) (Lock.release l >>= p) Q :=
  (release_last l).bind fun _ _ he => he ▸ hp

theorem replicate {p : LockM ι Unit} (hp : Spec h p fun _ h' => h' = h) :
    ∀ n, Spec h (replicate p n) fun _ h' => h' = h
  | 0 => pure rfl
  | n + 1 => hp.bind fun _ _ he => he ▸ replicate hp n

theorem ite {c : Prop} [Decidable c] {p q : LockM ι α} (hp : c → Spec h p Q)
    (hq : ¬ c → Spec h q Q) : Spec h (if c then p else q) Q := by
  split_ifs with hc
  · exact hp hc
  · exact hq hc

end Spec

end LddExample.Lock
