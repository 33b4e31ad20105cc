import Mathlib.Data.List.Basic
import Mathlib.Logic.Function.Basic

/-!
# Programs with a footprint

A program over a memory of bytes, in C the bytes behind a pointer: it reads and writes single bytes
and emits observations. The outcome of a run lists every index that was read or written.

* `Prog`: the programs, a monad; `load`, `store`, `emit`, `loadN`, `storeN` and the loop `forWhile`.
* `Within n x mem`: `x` touches only indices below `n` when it runs on `mem`.
* **`within_bind`**: a sequence keeps to the bound exactly when both parts do.
* **`within_forWhile`**: a read-only loop keeps to the bound exactly when every test and every turn
  does.
-/

namespace LddExample.Access

/-- What a run returns, leaves in the memory, has touched and has emitted. -/
structure Outcome (ω α : Type) where
  val : α
  mem : ℕ → UInt8
  touched : List ℕ
  out : List ω

/-- A program that emits observations of type `ω`. -/
structure Prog (ω α : Type) where
  run : (ℕ → UInt8) → Outcome ω α

variable {ω α β : Type}

instance instMonadProg : Monad (Prog ω) where
  pure a := ⟨fun mem => ⟨a, mem, [], []⟩⟩
  bind x f := ⟨fun mem =>
    let r := x.run mem
    let r' := (f r.val).run r.mem
    ⟨r'.val, r'.mem, r.touched ++ r'.touched, r.out ++ r'.out⟩⟩

/-- The byte at `i`. -/
def load (i : ℕ) : Prog ω UInt8 := ⟨fun mem => ⟨mem i, mem, [i], []⟩⟩

/-- `b` is stored at `i`. -/
def store (i : ℕ) (b : UInt8) : Prog ω Unit :=
  ⟨fun mem => ⟨(), Function.update mem i b, [i], []⟩⟩

/-- `x` is handed out. -/
def emit (x : ω) : Prog ω Unit := ⟨fun mem => ⟨(), mem, [], [x]⟩⟩

/-- The `n` bytes from `i` on. -/
def loadN (i : ℕ) : ℕ → Prog ω (List UInt8)
  | 0 => pure []
  | n + 1 => do
    let bs ← loadN i n
    let b ← load (i + n)
    pure (bs ++ [b])

/-- Write bytes from `i` on. -/
def storeN (i : ℕ) : List UInt8 → Prog ω Unit
  | [] => pure ()
  | b :: bs => do
    store i b
    storeN (i + 1) bs

/-- `for (; cond(i); i++) body(i)`, at most `fuel` tests. -/
def forWhile (cond : ℕ → Prog ω Bool) (body : ℕ → Prog ω Unit) : ℕ → ℕ → Prog ω Unit
  | 0, _ => pure ()
  | fuel + 1, i => do
    if ← cond i then
      body i
      forWhile cond body fuel (i + 1)

/-- The program touches only indices below `n`. -/
def Within (n : ℕ) (x : Prog ω α) (mem : ℕ → UInt8) : Prop := ∀ i ∈ (x.run mem).touched, i < n

/-! ## The outcome of a sequence

The proofs `(rfl)` keep `simp` from using these equations by unfolding: in the test of an `if` it
then rewrites the instance as well.
-/

section Outcome

variable (x : Prog ω α) (f : α → Prog ω β) (mem : ℕ → UInt8)

@[simp] theorem val_pure (a : α) : ((pure a : Prog ω α).run mem).val = a := (rfl)

@[simp] theorem mem_pure (a : α) : ((pure a : Prog ω α).run mem).mem = mem := (rfl)

@[simp] theorem val_bind :
    ((x >>= f).run mem).val = ((f (x.run mem).val).run (x.run mem).mem).val := (rfl)

@[simp] theorem mem_bind :
    ((x >>= f).run mem).mem = ((f (x.run mem).val).run (x.run mem).mem).mem := (rfl)

@[simp] theorem out_pure (a : α) : ((pure a : Prog ω α).run mem).out = [] := (rfl)

@[simp] theorem out_bind : ((x >>= f).run mem).out =
    (x.run mem).out ++ ((f (x.run mem).val).run (x.run mem).mem).out := (rfl)

@[simp] theorem val_load (i : ℕ) : ((load i : Prog ω UInt8).run mem).val = mem i := (rfl)

@[simp] theorem mem_load (i : ℕ) : ((load i : Prog ω UInt8).run mem).mem = mem := (rfl)

@[simp] theorem out_load (i : ℕ) : ((load i : Prog ω UInt8).run mem).out = [] := (rfl)

@[simp] theorem mem_store (i : ℕ) (b : UInt8) :
    ((store i b : Prog ω Unit).run mem).mem = Function.update mem i b := (rfl)

@[simp] theorem out_store (i : ℕ) (b : UInt8) :
    ((store i b : Prog ω Unit).run mem).out = [] := (rfl)

@[simp] theorem mem_emit (y : ω) : ((emit y).run mem).mem = mem := (rfl)

@[simp] theorem out_emit (y : ω) : ((emit y).run mem).out = [y] := (rfl)

@[simp] theorem mem_ite {p : Prop} {_ : Decidable p} (y : Prog ω α) :
    ((if p then x else y).run mem).mem = if p then (x.run mem).mem else (y.run mem).mem := by
  split_ifs <;> rfl

@[simp] theorem out_ite {p : Prop} {_ : Decidable p} (y : Prog ω α) :
    ((if p then x else y).run mem).out = if p then (x.run mem).out else (y.run mem).out := by
  split_ifs <;> rfl

end Outcome

/-! ## The bound -/

variable {n : ℕ} {mem : ℕ → UInt8}

@[simp] theorem within_pure (a : α) : Within n (pure a : Prog ω α) mem := fun _ h => by cases h

/-- **A sequence keeps to the bound exactly when both parts do.** -/
@[simp] theorem within_bind (x : Prog ω α) (f : α → Prog ω β) :
    Within n (x >>= f) mem ↔ Within n x mem ∧ Within n (f (x.run mem).val) (x.run mem).mem :=
  List.forall_mem_append

@[simp] theorem within_load (i : ℕ) : Within n (load i : Prog ω UInt8) mem ↔ i < n :=
  List.forall_mem_singleton

@[simp] theorem within_store (i : ℕ) (b : UInt8) :
    Within n (store i b : Prog ω Unit) mem ↔ i < n :=
  List.forall_mem_singleton

@[simp] theorem within_emit (y : ω) : Within n (emit y) mem := fun _ h => by cases h

theorem within_ite {p : Prop} {_ : Decidable p} (x y : Prog ω α) :
    Within n (if p then x else y) mem ↔ (p → Within n x mem) ∧ (¬p → Within n y mem) := by
  split_ifs with h <;> simp [h]

/-! ## Blocks of bytes -/

@[simp] theorem mem_loadN (i k : ℕ) (mem : ℕ → UInt8) :
    ((loadN i k : Prog ω (List UInt8)).run mem).mem = mem := by
  induction k with
  | zero => rfl
  | succ k ih => simp [loadN, ih]

@[simp] theorem out_loadN (i k : ℕ) (mem : ℕ → UInt8) :
    ((loadN i k : Prog ω (List UInt8)).run mem).out = [] := by
  induction k with
  | zero => rfl
  | succ k ih => simp [loadN, ih]

@[simp] theorem val_loadN (i k : ℕ) (mem : ℕ → UInt8) :
    ((loadN i k : Prog ω (List UInt8)).run mem).val = (List.range k).map fun j => mem (i + j) := by
  induction k with
  | zero => rfl
  | succ k ih => simp [loadN, ih, List.range_succ]

@[simp] theorem within_loadN (i k : ℕ) :
    Within n (loadN i k : Prog ω (List UInt8)) mem ↔ k = 0 ∨ i + k ≤ n := by
  induction k with
  | zero => simp [loadN]
  | succ k ih =>
    simp only [loadN, within_bind, ih, within_load, within_pure, and_true]
    omega

@[simp] theorem out_storeN (i : ℕ) (bs : List UInt8) (mem : ℕ → UInt8) :
    ((storeN i bs : Prog ω Unit).run mem).out = [] := by
  induction bs generalizing i mem with
  | nil => rfl
  | cons b bs ih => simp [storeN, ih]

theorem mem_storeN (i : ℕ) (bs : List UInt8) (mem : ℕ → UInt8) (a : ℕ) :
    ((storeN i bs : Prog ω Unit).run mem).mem a =
      if i ≤ a ∧ a < i + bs.length then bs.getD (a - i) 0 else mem a := by
  induction bs generalizing i mem with
  | nil =>
    rw [if_neg (by simp)]
    rfl
  | cons b bs ih =>
    show ((storeN (i + 1) bs : Prog ω Unit).run (Function.update mem i b)).mem a = _
    rw [ih, List.length_cons]
    by_cases ha : a = i
    · subst ha
      rw [if_neg (by omega), Function.update_self, if_pos (by omega), Nat.sub_self]
      rfl
    · rw [Function.update_of_ne ha]
      by_cases hin : i ≤ a ∧ a < i + (bs.length + 1)
      · rw [if_pos (by omega), if_pos hin, show a - i = a - (i + 1) + 1 by omega]
        rfl
      · rw [if_neg (by omega), if_neg hin]

@[simp] theorem within_storeN (i : ℕ) (bs : List UInt8) :
    Within n (storeN i bs : Prog ω Unit) mem ↔ bs = [] ∨ i + bs.length ≤ n := by
  induction bs generalizing i mem with
  | nil => simp [storeN]
  | cons b bs ih =>
    rw [storeN, within_bind, within_store, ih, List.length_cons]
    cases bs with
    | nil =>
      simp only [List.length_nil, true_or, and_true, reduceCtorEq, false_or]
      omega
    | cons c bs =>
      simp only [List.length_cons, reduceCtorEq, false_or]
      omega

/-! ## The loop -/

section Loop

variable {cond : ℕ → Prog ω Bool} {body : ℕ → Prog ω Unit}

theorem forWhile_succ (fuel i : ℕ) : forWhile cond body (fuel + 1) i =
    (cond i >>= fun b => if b then (body i >>= fun _ => forWhile cond body fuel (i + 1))
      else pure ()) := rfl

theorem mem_forWhile (hc : ∀ i, ((cond i).run mem).mem = mem)
    (hb : ∀ i, ((body i).run mem).mem = mem) (fuel i : ℕ) :
    ((forWhile cond body fuel i).run mem).mem = mem := by
  induction fuel generalizing i with
  | zero => rfl
  | succ fuel ih =>
    rw [forWhile_succ, mem_bind, hc]
    split_ifs
    · rw [mem_bind, hb, ih]
    · rfl

/-- What a read-only loop emits comes from one of its tests or turns. -/
theorem out_forWhile {Q : ω → Prop} (hc : ∀ i, ((cond i).run mem).mem = mem)
    (hb : ∀ i, ((body i).run mem).mem = mem) (hQc : ∀ i, ∀ y ∈ ((cond i).run mem).out, Q y)
    (hQb : ∀ i, ∀ y ∈ ((body i).run mem).out, Q y) (fuel i : ℕ) :
    ∀ y ∈ ((forWhile cond body fuel i).run mem).out, Q y := by
  induction fuel generalizing i with
  | zero =>
    intro y hy
    cases hy
  | succ fuel ih =>
    rw [forWhile_succ, out_bind, hc]
    intro y hy
    rcases List.mem_append.1 hy with hy | hy
    · exact hQc i y hy
    · split_ifs at hy
      · rw [out_bind, hb] at hy
        exact (List.mem_append.1 hy).elim (hQb i y) (ih (i + 1) y)
      · cases hy

/-- **A read-only loop with test `i < m` keeps to the bound exactly when every test and every turn
does.** -/
theorem within_forWhile {m : ℕ} (hc : ∀ i, ((cond i).run mem).mem = mem)
    (hval : ∀ i, ((cond i).run mem).val = decide (i < m)) (hb : ∀ i, ((body i).run mem).mem = mem)
    {fuel i : ℕ} (hi : i ≤ m) (hfuel : m < i + fuel) :
    Within n (forWhile cond body fuel i) mem ↔
      (∀ j, i ≤ j → j ≤ m → Within n (cond j) mem) ∧
        ∀ j, i ≤ j → j < m → Within n (body j) mem := by
  induction fuel generalizing i with
  | zero => omega
  | succ fuel ih =>
    have hstep : Within n (forWhile cond body (fuel + 1) i) mem ↔ Within n (cond i) mem ∧
        (i < m → Within n (body i) mem ∧ Within n (forWhile cond body fuel (i + 1)) mem) := by
      rw [forWhile_succ, within_bind, hc, hval]
      refine and_congr_right fun _ => ?_
      by_cases him : i < m
      · simp [him, hb]
      · simp [him]
    rw [hstep]
    rcases Nat.lt_or_ge i m with him | him
    · rw [ih (by omega) (by omega)]
      constructor
      · rintro ⟨hci, hrest⟩
        obtain ⟨hbi, hcond, hbody⟩ := hrest him
        refine ⟨fun j h₁ h₂ => ?_, fun j h₁ h₂ => ?_⟩
        · rcases Nat.eq_or_lt_of_le h₁ with rfl | h₁
          · exact hci
          · exact hcond j h₁ h₂
        · rcases Nat.eq_or_lt_of_le h₁ with rfl | h₁
          · exact hbi
          · exact hbody j h₁ h₂
      · rintro ⟨hcond, hbody⟩
        exact ⟨hcond i (Nat.le_refl i) hi, fun _ => ⟨hbody i (Nat.le_refl i) him,
          fun j h₁ => hcond j (by omega), fun j h₁ => hbody j (by omega)⟩⟩
    · constructor
      · rintro ⟨hci, -⟩
        refine ⟨fun j h₁ h₂ => ?_, fun j h₁ h₂ => by omega⟩
        rwa [show j = i by omega]
      · rintro ⟨hcond, -⟩
        exact ⟨hcond i (Nat.le_refl i) hi, fun him' => by omega⟩

end Loop

end LddExample.Access
