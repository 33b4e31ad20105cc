import Mathlib.Data.List.Basic

/-!
# Runs of a partial step function

A labelled transition system is a function `step : σ → α → Option σ`; `none` says that the label
is not enabled. Every choice of the environment is in the label, so a run is a list of labels.

* `exec`: the state after a list of labels.
* `Meets C`: every step of a run meets the condition `C` on its label and the state before it.
* `Always P`: `P` holds in every state of a run, the first one included.
* **`exec_induction`**: an invariant kept by the steps that meet `C` holds after every run that
  meets `C`.
* **`always_iff_meets`**: if a step from `P` leads to `P` exactly when it meets `C`, then `P` holds
  all along a run exactly when the run meets `C`; **`always_iff_meets_of_exec`** and
  **`always_iff_meets_of_inv`** are the same with an invariant beside `P`.
* **`exec_iff_meets`**: the same for the end of a run, for a `P` that no step restores.
-/

namespace LddExample.Lts

variable {σ α : Type*} (step : σ → α → Option σ)

/-- The state after the labels of a list, when each of them is enabled in its turn. -/
def exec : σ → List α → Option σ
  | s, [] => some s
  | s, a :: l => (step s a).bind fun s' => exec s' l

/-- Every step of the run meets `C`. -/
def Meets (C : σ → α → Prop) : σ → List α → Prop
  | _, [] => True
  | s, a :: l => C s a ∧ ∀ s', step s a = some s' → Meets C s' l

/-- `P` holds in every state of the run. -/
def Always (P : σ → Prop) : σ → List α → Prop
  | s, [] => P s
  | s, a :: l => P s ∧ ∀ s', step s a = some s' → Always P s' l

instance instDecidableMeets {C : σ → α → Prop} [∀ s a, Decidable (C s a)] :
    ∀ s l, Decidable (Meets step C s l)
  | _, [] => isTrue trivial
  | s, a :: l =>
    match h : step s a with
    | none => decidable_of_iff (C s a) (by simp [Meets, h])
    | some s' =>
      have : Decidable (Meets step C s' l) := instDecidableMeets s' l
      decidable_of_iff (C s a ∧ Meets step C s' l) (by simp [Meets, h])

theorem exec_cons (s : σ) (a : α) (l : List α) :
    exec step s (a :: l) = (step s a).bind fun s' => exec step s' l := rfl

theorem exec_append (s : σ) (l l' : List α) :
    exec step s (l ++ l') = (exec step s l).bind fun s' => exec step s' l' := by
  induction l generalizing s with
  | nil => rfl
  | cons a l ih =>
    rw [List.cons_append, exec_cons, exec_cons, Option.bind_assoc]
    exact Option.bind_congr fun s' _ => ih s'

variable {step}

theorem exec_cons_eq_some {s s'' : σ} {a : α} {l : List α} (h : exec step s (a :: l) = some s'') :
    ∃ s', step s a = some s' ∧ exec step s' l = some s'' := by
  rw [exec_cons] at h
  exact Option.bind_eq_some_iff.mp h

/-- **Induction along a run.** -/
theorem exec_induction {C : σ → α → Prop} {I : σ → Prop}
    (hI : ∀ s a s', I s → C s a → step s a = some s' → I s') :
    ∀ {l : List α} {s s' : σ}, I s → Meets step C s l → exec step s l = some s' → I s'
  | [], s, s', hs, _, h => by
    cases h
    exact hs
  | a :: l, s, s'', hs, hC, h => by
    obtain ⟨s', h₁, h₂⟩ := exec_cons_eq_some h
    exact exec_induction hI (hI s a s' hs hC.1 h₁) (hC.2 s' h₁) h₂

theorem meets_true : ∀ (s : σ) (l : List α), Meets step (fun _ _ => True) s l
  | _, [] => trivial
  | _, _ :: l => ⟨trivial, fun s' _ => meets_true s' l⟩

/-- An invariant kept by every step holds after every run. -/
theorem exec_inv {I : σ → Prop} (hI : ∀ s a s', I s → step s a = some s' → I s') {l : List α}
    {s s' : σ} (hs : I s) (h : exec step s l = some s') : I s' :=
  exec_induction (fun s a s' hs _ => hI s a s' hs) hs (meets_true s l) h

theorem meets_cons_of_step {C : σ → α → Prop} {s s' : σ} {a : α} (h : step s a = some s')
    (l : List α) : Meets step C s (a :: l) ↔ C s a ∧ Meets step C s' l := by
  rw [Meets]
  refine and_congr_right fun _ => ⟨fun hall => hall s' h, fun hl t ht => ?_⟩
  rw [h] at ht
  exact Option.some.inj ht ▸ hl

theorem always_cons_of_step {P : σ → Prop} {s s' : σ} {a : α} (h : step s a = some s')
    (l : List α) : Always step P s (a :: l) ↔ P s ∧ Always step P s' l := by
  rw [Always]
  refine and_congr_right fun _ => ⟨fun hall => hall s' h, fun hl t ht => ?_⟩
  rw [h] at ht
  exact Option.some.inj ht ▸ hl

theorem Always.head {P : σ → Prop} {s : σ} : ∀ {l : List α}, Always step P s l → P s
  | [], h => h
  | _ :: _, h => h.1

theorem exec_total (hen : ∀ s a, ∃ s', step s a = some s') :
    ∀ (l : List α) (s : σ), ∃ s', exec step s l = some s'
  | [], s => ⟨s, rfl⟩
  | a :: l, s => by
    obtain ⟨s', hs'⟩ := hen s a
    rw [exec_cons, hs', Option.bind_some]
    exact exec_total hen l s'

/-- **Safety along a run as a condition on its steps**, with an invariant `I` that the steps which
meet the condition keep. -/
theorem always_iff_meets_of_exec {C : σ → α → Prop} {I P : σ → Prop} (hIP : ∀ s, I s → P s)
    (hC : ∀ s a s', I s → step s a = some s' → P s' → C s a)
    (hI : ∀ s a s', I s → step s a = some s' → C s a → I s') :
    ∀ {l : List α} {s s' : σ}, I s → exec step s l = some s' →
      (Always step P s l ↔ Meets step C s l)
  | [], s, _, hs, _ => by simp [Always, Meets, hIP s hs]
  | a :: l, s, s'', hs, h => by
    obtain ⟨s', h₁, h₂⟩ := exec_cons_eq_some h
    rw [always_cons_of_step h₁, meets_cons_of_step h₁]
    constructor
    · rintro ⟨-, hall⟩
      have hc : C s a := hC s a s' hs h₁ hall.head
      exact ⟨hc, (always_iff_meets_of_exec hIP hC hI (hI s a s' hs h₁ hc) h₂).mp hall⟩
    · rintro ⟨hc, hall⟩
      exact ⟨hIP s hs, (always_iff_meets_of_exec hIP hC hI (hI s a s' hs h₁ hc) h₂).mpr hall⟩

/-- The same when every label is enabled. -/
theorem always_iff_meets_of_inv {C : σ → α → Prop} {I P : σ → Prop} (hIP : ∀ s, I s → P s)
    (hC : ∀ s a s', I s → step s a = some s' → P s' → C s a)
    (hI : ∀ s a s', I s → step s a = some s' → C s a → I s')
    (hen : ∀ s a, ∃ s', step s a = some s') {l : List α} {s : σ} (hs : I s) :
    Always step P s l ↔ Meets step C s l := by
  obtain ⟨s', h⟩ := exec_total hen l s
  exact always_iff_meets_of_exec hIP hC hI hs h

theorem always_iff_meets {C : σ → α → Prop} {P : σ → Prop}
    (hPC : ∀ s a s', P s → step s a = some s' → (P s' ↔ C s a))
    (hen : ∀ s a, ∃ s', step s a = some s') {l : List α} {s : σ} (hs : P s) :
    Always step P s l ↔ Meets step C s l :=
  always_iff_meets_of_inv (fun _ h => h) (fun s a s' h h' => (hPC s a s' h h').mp)
    (fun s a s' h h' => (hPC s a s' h h').mpr) hen hs

/-- **Safety at the end of a run as a condition on its steps.** -/
theorem exec_iff_meets {C : σ → α → Prop} {I P : σ → Prop}
    (hI : ∀ s a s', I s → step s a = some s' → I s')
    (hP : ∀ s a s', step s a = some s' → P s' → P s)
    (hC : ∀ s a s', I s → P s → step s a = some s' → (P s' ↔ C s a)) :
    ∀ {l : List α} {s s' : σ}, I s → P s → exec step s l = some s' → (P s' ↔ Meets step C s l)
  | [], s, s', _, hPs, h => by
    cases h
    exact iff_of_true hPs trivial
  | a :: l, s, s'', hIs, hPs, h => by
    obtain ⟨s', h₁, h₂⟩ := exec_cons_eq_some h
    rw [meets_cons_of_step h₁]
    by_cases hPs' : P s'
    · rw [exec_iff_meets hI hP hC (hI s a s' hIs h₁) hPs' h₂]
      exact (and_iff_right ((hC s a s' hIs hPs h₁).mp hPs')).symm
    · -- once `P` is lost it does not come back
      have hlost : ¬P s'' :=
        exec_inv (I := fun t => ¬P t) (fun t b t' ht hb hP' => ht (hP t b t' hb hP')) hPs' h₂
      exact iff_of_false hlost fun hm => hPs' ((hC s a s' hIs hPs h₁).mpr hm.1)

end LddExample.Lts
