import Mathlib.Data.Nat.Basic

/-!
# While loops with a counter

`whileLt stop pos body fuel s` runs `body` while `pos s < stop`, at most `fuel` times; it fails
with the given error when the fuel is used up before the test fails.

* **`whileLt_induction`**: the invariant rule.
* **`whileLt_error`**: when the body moves the counter up, `stop` turns are enough fuel, and the
  loop fails only as its body does.
* **`whileLt_stuck`**: a body that changes nothing uses up any fuel.
-/

namespace LddExample.Loop

variable {σ ε : Type*} (outOfFuel : ε) (stop : ℕ) (pos : σ → ℕ) (body : σ → Except ε σ)

/-- `while pos < stop: body`. -/
def whileLt : ℕ → σ → Except ε σ
  | 0, s => if pos s < stop then .error outOfFuel else .ok s
  | n + 1, s => if pos s < stop then (body s).bind (whileLt n) else .ok s

variable {outOfFuel stop pos body}

theorem bind_eq_ok {α β : Type*} {x : Except ε α} {f : α → Except ε β} {b : β}
    (h : x.bind f = .ok b) : ∃ a, x = .ok a ∧ f a = .ok b := by
  cases x with
  | error e => cases h
  | ok a => exact ⟨a, rfl, h⟩

theorem bind_eq_error {α β : Type*} {x : Except ε α} {f : α → Except ε β} {e : ε}
    (h : x.bind f = .error e) : x = .error e ∨ ∃ a, x = .ok a ∧ f a = .error e := by
  cases x with
  | error e' =>
    cases h
    exact .inl rfl
  | ok a => exact .inr ⟨a, rfl, h⟩

/-- **The invariant rule.** -/
theorem whileLt_induction {I : σ → Prop}
    (hI : ∀ s s', I s → pos s < stop → body s = .ok s' → I s') :
    ∀ {n : ℕ} {s s' : σ}, I s → whileLt outOfFuel stop pos body n s = .ok s' →
      I s' ∧ stop ≤ pos s'
  | 0, s, s', hs, h => by
    rw [whileLt] at h
    split_ifs at h with hp
    cases h
    exact ⟨hs, not_lt.mp hp⟩
  | n + 1, s, s'', hs, h => by
    rw [whileLt] at h
    split_ifs at h with hp
    · obtain ⟨s', h₁, h₂⟩ := bind_eq_ok h
      exact whileLt_induction hI (hI s s' hs hp h₁) h₂
    · cases h
      exact ⟨hs, not_lt.mp hp⟩

/-- A failure comes from the body, in a state of the invariant. The distance of the counter from
`stop` bounds the number of turns. -/
theorem whileLt_error_of_inv {I : σ → Prop}
    (hI : ∀ s s', I s → pos s < stop → body s = .ok s' → I s' ∧ pos s < pos s') :
    ∀ {n : ℕ} {s : σ} {e : ε}, I s → stop ≤ pos s + n →
      whileLt outOfFuel stop pos body n s = .error e →
      ∃ s', I s' ∧ pos s' < stop ∧ body s' = .error e
  | 0, s, e, _, hn, h => by
    rw [whileLt, if_neg (by omega)] at h
    cases h
  | n + 1, s, e, hs, hn, h => by
    rw [whileLt] at h
    split_ifs at h with hp
    obtain h₁ | ⟨s', h₁, h₂⟩ := bind_eq_error h
    · exact ⟨s, hs, hp, h₁⟩
    · obtain ⟨hs', hlt⟩ := hI s s' hs hp h₁
      exact whileLt_error_of_inv hI hs' (by omega) h₂

/-- **The loop ends.** -/
theorem whileLt_error {E : ε → Prop} (hpos : ∀ s s', body s = .ok s' → pos s < pos s')
    (hE : ∀ s e, body s = .error e → E e) {n : ℕ} {s : σ} {e : ε} (hn : stop ≤ pos s + n)
    (h : whileLt outOfFuel stop pos body n s = .error e) : E e := by
  obtain ⟨s', -, -, hbody⟩ := whileLt_error_of_inv (I := fun _ => True)
    (fun s s' _ _ hs => ⟨trivial, hpos s s' hs⟩) trivial hn h
  exact hE s' e hbody

theorem whileLt_stuck {s : σ} (hbody : body s = .ok s) (hpos : pos s < stop) (n : ℕ) :
    whileLt outOfFuel stop pos body n s = .error outOfFuel := by
  induction n with
  | zero => exact if_pos hpos
  | succ n ih =>
    rw [whileLt, if_pos hpos, hbody]
    exact ih

end LddExample.Loop
