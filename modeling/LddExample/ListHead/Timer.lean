import LddExample.Lib.Lts
import Mathlib.Algebra.Group.Nat.Defs
import Mathlib.Logic.Function.Basic

/-!
# Switching the timer on and off

`value_store` and `on_store` of `test_list_head.c` and `test_timer.c`, called by any number of
threads, and the timer whose callback `timer_func` arms it again at its end. The timer core runs the
callback with the timer not pending; `del_timer_sync` waits for a running callback.

* **`timerStep`**: the step function, one access to the timer at a time.
* `TimerSys.off` is history: `on_store` with value 0 has returned, and no `value_store` or
  `on_store` with value 1 has started since.
* `NoLateArm`: no `on_store` with value 0 looks at the timer while the callback runs and has not
  armed it again, and no store arms it behind one.
* **`off_effective`**: in a run of these steps the timer is off after it was switched off.
* **`off_during_callback`**: without the first condition it is not.
* `TimerSys.Rearms`: `add_timer` has met no pending timer and would meet none now.
* `NoArmInCallback`: no store calls `mod_timer` between the start of `timer_func` and its
  `add_timer`.
* **`rearms_iff_noArmInCallback`**: a run of these steps, and no other one, arms the timer safely.
-/

namespace LddExample.ListHead

/-- Where `timer_func` stands. -/
inductive Callback
  | idle
  /-- running, before `add_timer` -/
  | entered
  /-- running, after `add_timer` -/
  | armed
deriving DecidableEq

/-- Where a thread stands in a store. -/
inductive StorePc
  | idle
  /-- `value_store` before `timeperiod = mstime` -/
  | setPeriod (stime : ℕ)
  /-- before `mod_timer` -/
  | modTimer
  /-- `on_store` with value 1 before the test of `timeperiod` -/
  | onTest
  /-- `on_store` with value 0 before `timer_pending` -/
  | offTest
  /-- in `del_timer_sync` -/
  | offDel
deriving DecidableEq

/-- The timer, its callback and the threads that store. -/
structure TimerSys where
  pending : Bool
  callback : Callback
  timeperiod : ℕ
  store : ℕ → StorePc
  /-- the threads in `on_store` with value 0 that are done with the timer and have not returned -/
  leaving : List ℕ
  off : Bool
  /-- `add_timer` was called for a pending timer -/
  bug : Bool

namespace TimerSys

/-- After `timer_setup`. -/
def init : TimerSys where
  pending := false
  callback := .idle
  timeperiod := 0
  store := fun _ => .idle
  leaving := []
  off := false
  bug := false

/-- A thread moves on in its store. -/
def setStore (s : TimerSys) (t : ℕ) (pc : StorePc) : TimerSys :=
  { s with store := Function.update s.store t pc }

/-- `stime * HZ / 1000` in `unsigned int` -/
def mstime (hz stime : ℕ) : ℕ :=
  stime * hz % 2 ^ 32 / 1000

/-- The next access of a store. -/
def storeNext (hz : ℕ) (s : TimerSys) (t : ℕ) : Option TimerSys :=
  match s.store t with
  | .idle => none
  | .setPeriod stime => some { s.setStore t .modTimer with timeperiod := mstime hz stime }
  | .modTimer => some { s.setStore t .idle with pending := true }
  | .onTest => some (s.setStore t (if s.timeperiod ≠ 0 then .modTimer else .idle))
  | .offTest =>
    if s.pending then some (s.setStore t .offDel)
    else some { s.setStore t .idle with leaving := t :: s.leaving }
  | .offDel =>
    if s.callback = .idle then
      some { s.setStore t .idle with pending := false, leaving := t :: s.leaving }
    else none

/-- The next access of `timer_func`. -/
def timerFunc (s : TimerSys) : Option TimerSys :=
  match s.callback with
  | .idle => none
  | .entered => some { s with pending := true, callback := .armed, bug := s.bug || s.pending }
  | .armed => some { s with callback := .idle }

end TimerSys

/-- What threads and the timer do. -/
inductive TimerAct
  /-- the thread calls `value_store` -/
  | valueStore (t stime : ℕ)
  /-- the thread calls `on_store` -/
  | onStore (t flag : ℕ)
  /-- the next access of the thread's store -/
  | store (t : ℕ)
  /-- `on_store` with value 0 returns -/
  | offReturn (t : ℕ)
  /-- the timer expires and `timer_func` is entered -/
  | expire
  /-- the next access of `timer_func` -/
  | timerFunc

/-- **One step.** -/
def timerStep (hz : ℕ) (s : TimerSys) : TimerAct → Option TimerSys
  | .valueStore t stime =>
    if s.store t = .idle ∧ t ∉ s.leaving then
      some { s.setStore t (.setPeriod stime) with off := false }
    else none
  | .onStore t flag =>
    if s.store t = .idle ∧ t ∉ s.leaving then
      match flag with
      | 1 => some { s.setStore t .onTest with off := false }
      | 0 => some (s.setStore t .offTest)
      | _ => some s
    else none
  | .store t => s.storeNext hz t
  | .offReturn t =>
    if t ∈ s.leaving then some { s with leaving := s.leaving.erase t, off := true } else none
  | .expire =>
    if s.pending = true ∧ s.callback = .idle then
      some { s with pending := false, callback := .entered }
    else none
  | .timerFunc => s.timerFunc

/-- The step neither misses a running callback nor arms the timer behind an `on_store` with value
0. -/
def NoLateArm (s : TimerSys) : TimerAct → Prop
  | .store t =>
    (s.store t = .offTest → s.pending = true ∨ s.callback = .idle) ∧
      (s.store t = .modTimer → s.off = false ∧ s.leaving = [])
  | _ => True

instance (s : TimerSys) : ∀ a, Decidable (NoLateArm s a)
  | .store t => inferInstanceAs (Decidable ((s.store t = .offTest → _ ∨ _) ∧ (_ → _ ∧ _)))
  | .valueStore .. | .onStore .. | .offReturn _ | .expire | .timerFunc => isTrue trivial

namespace TimerSys

/-- Nothing will enter `timer_func`. -/
def Quiet (s : TimerSys) : Prop :=
  s.pending = false ∧ s.callback = .idle

/-- The timer is quiet from the last access of an `on_store` with value 0 on. -/
def Inv (s : TimerSys) : Prop :=
  s.off = true ∨ s.leaving ≠ [] → s.Quiet

variable {hz : ℕ} {s s' : TimerSys} {a : TimerAct}

theorem inv_init : init.Inv := by simp [Inv, init]

theorem Inv.storeNext (h : s.Inv) {t : ℕ} (hC : NoLateArm s (.store t))
    (hs : s.storeNext hz t = some s') : s'.Inv := by
  unfold TimerSys.storeNext at hs
  cases hpc : s.store t with simp only [hpc] at hs
  | idle => cases hs
  | setPeriod stime | onTest =>
    cases hs
    exact h
  | modTimer =>
    cases hs
    obtain ⟨hoff, hleaving⟩ := hC.2 hpc
    intro hor
    exact absurd hor (by simp [setStore, hoff, hleaving])
  | offTest =>
    split_ifs at hs with hpend
    · cases hs
      exact h
    · cases hs
      have hidle : s.callback = .idle := (hC.1 hpc).resolve_left hpend
      exact fun _ => ⟨by simpa [setStore] using hpend, hidle⟩
  | offDel =>
    split_ifs at hs with hidle
    cases hs
    exact fun _ => ⟨rfl, hidle⟩

/-- **The timer stays quiet.** -/
theorem Inv.step (h : s.Inv) (hC : NoLateArm s a) (hs : timerStep hz s a = some s') : s'.Inv := by
  cases a with simp only [timerStep] at hs
  | valueStore t stime =>
    split_ifs at hs
    cases hs
    exact fun hor => h (.inr (by simpa [setStore] using hor))
  | onStore t flag =>
    split_ifs at hs
    split at hs <;> cases hs
    · exact fun hor => h (.inr (by simpa [setStore] using hor))
    · exact h
    · exact h
  | store t => exact h.storeNext hC hs
  | offReturn t =>
    split_ifs at hs with hmem
    cases hs
    exact fun _ => h (.inr (List.ne_nil_of_mem hmem))
  | expire =>
    split_ifs at hs with hex
    cases hs
    intro hor
    exact absurd ((h hor).1.symm.trans hex.1) (by simp)
  | timerFunc =>
    unfold TimerSys.timerFunc at hs
    split at hs
    · cases hs
    all_goals
      next hcb =>
      cases hs
      intro hor
      exact absurd ((h hor).2.symm.trans hcb) (by simp)

end TimerSys

/-- **Switched off, the timer is not pending, its callback does not run and cannot be entered.** -/
theorem off_effective (hz : ℕ) (l : List TimerAct) (s : TimerSys)
    (hC : Lts.Meets (timerStep hz) NoLateArm .init l)
    (h : Lts.exec (timerStep hz) .init l = some s) (hoff : s.off = true) :
    s.pending = false ∧ s.callback = .idle ∧ timerStep hz s .expire = none := by
  have hs : s.Inv := Lts.exec_induction (fun _ _ _ hi hc hs => hi.step hc hs) TimerSys.inv_init hC h
  obtain ⟨hpend, hcb⟩ := hs (.inl hoff)
  exact ⟨hpend, hcb, by simp [timerStep, hpend]⟩

/-- The timer is started, runs once and is switched off while it is pending. -/
def offRun : List TimerAct :=
  [.valueStore 0 1000, .store 0, .store 0, .expire, .timerFunc, .onStore 1 0, .store 1, .timerFunc,
    .store 1, .offReturn 1]

theorem off_effective_offRun :
    ∃ s, Lts.exec (timerStep 100) .init offRun = some s ∧ s.off = true ∧ s.pending = false ∧
      s.callback = .idle ∧ timerStep 100 s .expire = none :=
  ⟨_, rfl, rfl, off_effective 100 offRun _ (by decide) rfl rfl⟩

/-- **Switched off while the callback runs, the timer is armed again and goes on.** -/
theorem off_during_callback :
    (Lts.exec (timerStep 100) .init
      [.valueStore 0 1000, .store 0, .store 0, .expire, .onStore 1 0, .store 1, .offReturn 1]).map
        (fun s => (s.off, s.callback)) = some (true, .entered) ∧
    (Lts.exec (timerStep 100) .init
      [.valueStore 0 1000, .store 0, .store 0, .expire, .onStore 1 0, .store 1, .offReturn 1,
        .timerFunc, .timerFunc, .expire]).map
        (fun s => (s.off, s.callback)) = some (true, .entered) := by
  decide

/-! ## Arming the timer again -/

/-- The step does not call `mod_timer` while `timer_func` has its `add_timer` before it. -/
def NoArmInCallback (s : TimerSys) : TimerAct → Prop
  | .store t => s.store t = .modTimer → s.callback ≠ .entered
  | _ => True

instance (s : TimerSys) : ∀ a, Decidable (NoArmInCallback s a)
  | .store t => inferInstanceAs (Decidable (s.store t = .modTimer → s.callback ≠ .entered))
  | .valueStore .. | .onStore .. | .offReturn _ | .expire | .timerFunc => isTrue trivial

namespace TimerSys

/-- `add_timer` was executed for no pending timer, and a running `timer_func` would not do so. -/
def Rearms (s : TimerSys) : Prop :=
  s.bug = false ∧ ∀ s', s.timerFunc = some s' → s'.bug = false

/-- Everything a step can do to the timer. -/
inductive Trans (s s' : TimerSys) : TimerAct → Prop
  /-- nothing -/
  | keep {a} (hC : NoArmInCallback s a) (hpend : s'.pending = s.pending)
    (hcb : s'.callback = s.callback) (hbug : s'.bug = s.bug) : Trans s s' a
  | modTimer {t} (hpc : s.store t = .modTimer) (hpend : s'.pending = true)
    (hcb : s'.callback = s.callback) (hbug : s'.bug = s.bug) : Trans s s' (.store t)
  | delTimerSync {t} (hidle : s.callback = .idle) (hpc : s.store t = .offDel)
    (hcb : s'.callback = s.callback) (hbug : s'.bug = s.bug) : Trans s s' (.store t)
  | expire (hidle : s.callback = .idle) (hpend : s'.pending = false) (hbug : s'.bug = s.bug) :
    Trans s s' .expire
  | addTimer (hentered : s.callback = .entered) (hcb : s'.callback = .armed)
    (hbug : s'.bug = (s.bug || s.pending)) : Trans s s' .timerFunc
  | leave (harmed : s.callback = .armed) (hcb : s'.callback = .idle) (hbug : s'.bug = s.bug) :
    Trans s s' .timerFunc

variable {hz : ℕ} {s s' : TimerSys} {a : TimerAct}

theorem trans_of_storeNext {t : ℕ} (hs : s.storeNext hz t = some s') : Trans s s' (.store t) := by
  unfold TimerSys.storeNext at hs
  cases hpc : s.store t with simp only [hpc] at hs
  | idle => cases hs
  | setPeriod stime | onTest =>
    cases hs
    exact .keep (fun hmod => by rw [hpc] at hmod; cases hmod) rfl rfl rfl
  | modTimer =>
    cases hs
    exact .modTimer hpc rfl rfl rfl
  | offTest =>
    have hC : NoArmInCallback s (.store t) := fun hmod => by rw [hpc] at hmod; cases hmod
    split_ifs at hs
    · cases hs
      exact .keep hC rfl rfl rfl
    · cases hs
      exact .keep hC rfl rfl rfl
  | offDel =>
    split_ifs at hs with hidle
    cases hs
    exact .delTimerSync hidle hpc rfl rfl

/-- **Inversion of a step.** -/
theorem trans_of_timerStep (hs : timerStep hz s a = some s') : Trans s s' a := by
  cases a with simp only [timerStep] at hs
  | valueStore t stime =>
    split_ifs at hs
    cases hs
    exact .keep trivial rfl rfl rfl
  | onStore t flag =>
    split_ifs at hs
    split at hs <;> cases hs <;> exact .keep trivial rfl rfl rfl
  | store t => exact trans_of_storeNext hs
  | offReturn t =>
    split_ifs at hs
    cases hs
    exact .keep trivial rfl rfl rfl
  | expire =>
    split_ifs at hs with hex
    cases hs
    exact .expire hex.2 rfl rfl
  | timerFunc =>
    unfold TimerSys.timerFunc at hs
    split at hs
    next => cases hs
    next hcb =>
      cases hs
      exact .addTimer hcb rfl rfl
    next hcb =>
      cases hs
      exact .leave hcb rfl rfl

theorem rearms_iff :
    s.Rearms ↔ s.bug = false ∧ (s.callback = .entered → s.pending = false) := by
  refine and_congr_right fun hbug => ?_
  unfold TimerSys.timerFunc
  cases hcb : s.callback with
  | idle => simp
  | entered => simp [hbug]
  | armed => simp [hbug]

/-- Once `add_timer` meets a pending timer, or is bound to meet one, it stays so: `del_timer_sync`
waits for the callback and the timer does not expire during it. -/
theorem Rearms.of_step (hs : timerStep hz s a = some s') (h : s'.Rearms) : s.Rearms := by
  rw [rearms_iff] at h ⊢
  obtain ⟨hbug', hpend'⟩ := h
  cases trans_of_timerStep hs with
  | keep _ hpend hcb hbug =>
    rw [← hbug, ← hcb, ← hpend]
    exact ⟨hbug', hpend'⟩
  | modTimer _ hpend hcb hbug =>
    rw [← hbug, ← hcb]
    refine ⟨hbug', fun hentered => ?_⟩
    rw [hpend] at hpend'
    cases hpend' hentered
  | delTimerSync hidle _ _ hbug | expire hidle _ hbug =>
    refine ⟨hbug ▸ hbug', fun hentered => ?_⟩
    rw [hidle] at hentered
    cases hentered
  | addTimer hentered hcb hbug =>
    rw [hbug, Bool.or_eq_false_iff] at hbug'
    exact ⟨hbug'.1, fun _ => hbug'.2⟩
  | leave harmed _ hbug =>
    refine ⟨hbug ▸ hbug', fun hentered => ?_⟩
    rw [harmed] at hentered
    cases hentered

/-- **A step keeps the re-arming safe exactly when it meets the condition.** -/
theorem rearms_step (h : s.Rearms) (hs : timerStep hz s a = some s') :
    s'.Rearms ↔ NoArmInCallback s a := by
  rw [rearms_iff] at h ⊢
  obtain ⟨hbug₀, hpend₀⟩ := h
  cases trans_of_timerStep hs with
  | keep hC hpend hcb hbug =>
    rw [hbug, hcb, hpend]
    exact iff_of_true ⟨hbug₀, hpend₀⟩ hC
  | modTimer hpc hpend hcb hbug =>
    rw [hbug, hcb, hpend, NoArmInCallback]
    constructor
    · intro hsafe _ hentered
      cases hsafe.2 hentered
    · intro hC
      exact ⟨hbug₀, fun hentered => absurd hentered (hC hpc)⟩
  | delTimerSync hidle hpc hcb hbug =>
    rw [hbug, hcb, hidle]
    refine iff_of_true ⟨hbug₀, fun hentered => ?_⟩ fun hmod => ?_
    · cases hentered
    · rw [hpc] at hmod
      cases hmod
  | expire _ hpend hbug => exact iff_of_true ⟨hbug.trans hbug₀, fun _ => hpend⟩ trivial
  | addTimer hentered hcb hbug =>
    rw [hbug, hcb, hbug₀, hpend₀ hentered]
    refine iff_of_true ⟨rfl, fun harmed => ?_⟩ trivial
    cases harmed
  | leave _ hcb hbug =>
    rw [hbug, hcb]
    refine iff_of_true ⟨hbug₀, fun hidle => ?_⟩ trivial
    cases hidle

end TimerSys

/-- **`add_timer` meets no pending timer exactly when no store calls `mod_timer` during the callback
before it.** -/
theorem rearms_iff_noArmInCallback (hz : ℕ) (l : List TimerAct) (s : TimerSys)
    (h : Lts.exec (timerStep hz) .init l = some s) :
    s.Rearms ↔ Lts.Meets (timerStep hz) NoArmInCallback .init l := by
  have hinit : TimerSys.init.Rearms := TimerSys.rearms_iff.2 ⟨rfl, fun _ => rfl⟩
  exact Lts.exec_iff_meets (I := fun _ => True) (P := TimerSys.Rearms) (fun _ _ _ _ _ => trivial)
    (fun _ _ _ => TimerSys.Rearms.of_step) (fun _ _ _ _ => TimerSys.rearms_step) trivial hinit h

theorem rearms_offRun :
    ∃ s, Lts.exec (timerStep 100) .init offRun = some s ∧ s.Rearms :=
  ⟨_, rfl, (rearms_iff_noArmInCallback 100 offRun _ rfl).2 (by decide)⟩

/-- **A `value_store` arms the timer while the callback runs, and `add_timer` finds it pending.** -/
theorem addTimer_pending :
    (Lts.exec (timerStep 100) .init
      [.valueStore 0 1000, .store 0, .store 0, .expire, .valueStore 1 1000, .store 1, .store 1,
        .timerFunc]).map TimerSys.bug = some true := by
  decide

end LddExample.ListHead
