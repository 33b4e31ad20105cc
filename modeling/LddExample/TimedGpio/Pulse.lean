import LddExample.Lib.Lts
import Mathlib.Algebra.Group.Nat.Defs
import Mathlib.Data.Fintype.Basic
import Mathlib.Logic.Function.Basic

/-!
# Pulses on a timed GPIO

A write to the file `enable` of a timed output calls `gpio_enable`, which sets the line and starts a
timer that clears it again; a read calls `gpio_get_time`. Any number of threads write and read, the
timer expires at any time from its due time on, and its callback takes no lock. `hrtimer_cancel`
waits for a running callback.

* `Conf`, `Sys`: the data of one GPIO, and the line, the timer and the threads.
* **`pulseStep`**: the step function, one access at a time; `Act.tick` lets time pass.
* `Sys.last`, `Sys.since` are history: the value of the last output, and when its timer was
  started.
* `Settled`: what the line and the timer are while nobody changes them, case by case.
* `Prompt`: no reader waits for more than 2^31 ms behind `hrtimer_active`.
* **`pulse_exact`**: a pulse is never cut short, never lasts without a timer that will end it, and
  no prompt reader is told more than `max_timeout`.
* `NoLateStart`: no write with a positive value takes the lock behind `timed_output_dev_unregister`.
* **`freed_quiet`**: in a run of these steps the data is freed with the timer off and no thread
  inside; `freed_while_queued` is a run with another step in it.
-/

namespace LddExample.TimedGpio

open Lts

/-- `max_timeout` and `active_low` of a GPIO. -/
structure Conf where
  maxTimeout : ℤ
  activeLow : Bool

/-- Where `gpio_timer_func` stands. -/
inductive Callback
  | idle
  /-- before `gpio_direction_output` -/
  | entered
  /-- behind it -/
  | written
deriving DecidableEq

/-- Where a thread stands. -/
inductive Pc
  | idle
  /-- in `gpio_enable`, before `spin_lock_irqsave` -/
  | lock (value : ℤ)
  | cancel (value : ℤ)
  | output (value : ℤ)
  | start (value : ℤ)
  | unlock
  /-- in `gpio_get_time`, before `hrtimer_active` -/
  | active
  | remaining
deriving DecidableEq

/-- The thread is between the lock and the unlock. -/
def Pc.inside : Pc → Bool
  | .cancel _ | .output _ | .start _ | .unlock => true
  | _ => false

/-- The thread has cancelled the timer and is not done with the line and the new timer. -/
def Pc.changing : Pc → Bool
  | .output _ | .start _ => true
  | _ => false

/-- The line, the timer, and `n` threads. -/
structure Sys (n : ℕ) where
  /-- the clock, in nanoseconds; a `ktime_t` has room for 292 years of them -/
  now : ℤ
  line : Bool
  queued : Bool
  expires : ℤ
  callback : Callback
  lock : Option (Fin n)
  pc : Fin n → Pc
  /-- the thread that unregisters the device -/
  remover : Option (Fin n)
  /-- the file `enable` is there -/
  file : Bool
  freed : Bool
  last : ℤ
  since : ℤ
  /-- the results of `gpio_get_time` -/
  shown : List ℤ

/-! ## Times -/

/-- `ktime_set`, for a `long` of 64 bits -/
def ktimeSet (secs nsecs : ℤ) : ℤ := secs * 1000000000 + nsecs

/-- `tv_sec` and `tv_usec`; the second part is never negative. -/
def ktimeToTimeval (r : ℤ) : ℤ × ℤ := (r / 1000000000, r % 1000000000 / 1000)

/-- `t.tv_sec * 1000 + t.tv_usec / 1000` -/
def remainingMs (r : ℤ) : ℤ :=
  (ktimeToTimeval r).1 * 1000 + (ktimeToTimeval r).2 / 1000

/-- What `gpio_get_time` returns of the time that remains: an `int`. -/
def remainingInt (r : ℤ) : ℤ := (remainingMs r).bmod (2 ^ 32)

/-- The time that `gpio_enable` gives the timer. -/
def timeout (d : Conf) (value : ℤ) : ℤ :=
  let value := if value > d.maxTimeout then d.maxTimeout else value
  ktimeSet (value.tdiv 1000) (value.tmod 1000 * 1000000)

theorem timeout_eq (d : Conf) (value : ℤ) :
    timeout d value = min value d.maxTimeout * 1000000 := by
  have hmin : (if value > d.maxTimeout then d.maxTimeout else value) = min value d.maxTimeout := by
    split_ifs with h <;> omega
  rw [timeout, hmin, ktimeSet]
  have hdiv := Int.tmod_add_mul_tdiv (min value d.maxTimeout) 1000
  omega

theorem remainingMs_eq (r : ℤ) : remainingMs r = r / 1000000 := by
  rw [remainingMs, ktimeToTimeval]
  omega

/-- No more than `2 ^ 31` ms late, the result is the time that remains. -/
theorem remainingInt_eq {r : ℤ} (hlow : -2147483648 * 1000000 ≤ r)
    (hhigh : r < 2147483648 * 1000000) : remainingInt r = r / 1000000 := by
  rw [remainingInt, remainingMs_eq]
  exact Int.bmod_eq_of_le (by omega) (by omega)

/-! ## Steps -/

namespace Sys

variable {n : ℕ}

/-- Behind `timed_gpio_probe`. -/
def init (d : Conf) : Sys n where
  now := 0
  line := d.activeLow
  queued := false
  expires := 0
  callback := .idle
  lock := none
  pc := fun _ => .idle
  remover := none
  file := true
  freed := false
  last := 0
  since := 0
  shown := []

/-- A thread moves on. -/
def setPc (s : Sys n) (t : Fin n) (pc : Pc) : Sys n :=
  { s with pc := Function.update s.pc t pc }

/-- `hrtimer_active` -/
def hrtimerActive (s : Sys n) : Bool := s.queued || s.callback != .idle

/-- `data->active_low ? !value : !!value` -/
def level (d : Conf) (value : ℤ) : Bool :=
  if d.activeLow then decide (value = 0) else decide (value ≠ 0)

/-- The next access of a thread. -/
def next (d : Conf) (s : Sys n) (t : Fin n) : Option (Sys n) :=
  match s.pc t with
  | .idle => none
  | .lock value =>
    if s.lock = none then some { s.setPc t (.cancel value) with lock := some t } else none
  | .cancel value =>
    if s.callback = .idle then some { s.setPc t (.output value) with queued := false } else none
  | .output value =>
    some { s.setPc t (if value > 0 then .start value else .unlock) with
      line := level d value
      last := value }
  | .start value =>
    some { s.setPc t .unlock with
      queued := true
      expires := s.now + timeout d value
      since := s.now }
  | .unlock => some { s.setPc t .idle with lock := none }
  | .active =>
    if s.hrtimerActive then some (s.setPc t .remaining)
    else some { s.setPc t .idle with shown := 0 :: s.shown }
  | .remaining =>
    some { s.setPc t .idle with shown := remainingInt (s.expires - s.now) :: s.shown }

/-- The next access of `gpio_timer_func`. -/
def timerFunc (d : Conf) (s : Sys n) : Option (Sys n) :=
  match s.callback with
  | .idle => none
  | .entered => some { s with line := d.activeLow, callback := .written }
  | .written => some { s with callback := .idle }

end Sys

/-- What the threads, the timer and the time do. -/
inductive Act (n : ℕ)
  | tick (ns : ℕ)
  /-- `enable_store` calls `gpio_enable` -/
  | store (t : Fin n) (value : ℤ)
  /-- `enable_show` calls `gpio_get_time` -/
  | load (t : Fin n)
  /-- the next access of a thread -/
  | next (t : Fin n)
  /-- the timer expires and `gpio_timer_func` is entered -/
  | expire
  | timerFunc
  /-- `timed_output_dev_unregister` calls `gpio_enable` with 0 -/
  | unregister (t : Fin n)
  /-- `device_remove_file`, which waits for the threads in the file -/
  | removeFile (t : Fin n)
  | kfree (t : Fin n)

open Sys

variable {n : ℕ}

/-- **One step.** -/
def pulseStep (d : Conf) (s : Sys n) : Act n → Option (Sys n)
  | .tick ns => some { s with now := s.now + ns }
  | .store t value =>
    if s.file = true ∧ s.pc t = .idle ∧ s.remover ≠ some t then some (s.setPc t (.lock value))
    else none
  | .load t =>
    if s.file = true ∧ s.pc t = .idle ∧ s.remover ≠ some t then some (s.setPc t .active)
    else none
  | .next t => s.next d t
  | .expire =>
    if s.queued = true ∧ s.callback = .idle ∧ s.expires ≤ s.now then
      some { s with queued := false, callback := .entered }
    else none
  | .timerFunc => s.timerFunc d
  | .unregister t =>
    if s.pc t = .idle ∧ s.remover = none then
      some { s.setPc t (.lock 0) with remover := some t }
    else none
  | .removeFile t =>
    if s.remover = some t ∧ s.file = true ∧ ∀ u, s.pc u = .idle then some { s with file := false }
    else none
  | .kfree t =>
    if s.remover = some t ∧ s.file = false ∧ s.freed = false then some { s with freed := true }
    else none

/-! ## The invariant -/

/-- The line and the timer while nobody is between `hrtimer_cancel` and `hrtimer_start`. -/
inductive Settled (d : Conf) (s : Sys n) : Prop
  /-- switched off, or never switched on -/
  | off (value : s.last = 0) (line : s.line = d.activeLow) (timer : s.queued = false)
      (callback : s.callback = .idle)
  /-- switched on for good -/
  | on (value : s.last < 0) (line : s.line = !d.activeLow) (timer : s.queued = false)
      (callback : s.callback = .idle)
  /-- the pulse goes on -/
  | pulse (value : 0 < s.last) (line : s.line = !d.activeLow) (timer : s.queued = true)
      (callback : s.callback = .idle)
      (due : s.expires = s.since + min s.last d.maxTimeout * 1000000)
  /-- its time is over and the callback is about to clear the line -/
  | ending (value : 0 < s.last) (line : s.line = !d.activeLow) (timer : s.queued = false)
      (callback : s.callback = .entered)
      (due : s.since + min s.last d.maxTimeout * 1000000 ≤ s.now)
  | ended (value : 0 < s.last) (line : s.line = d.activeLow) (timer : s.queued = false)
      (callback : s.callback ≠ .entered)
      (due : s.since + min s.last d.maxTimeout * 1000000 ≤ s.now)

/-- The invariant of every run. -/
structure Inv (d : Conf) (s : Sys n) : Prop where
  owner : ∀ t, (s.pc t).inside = true ↔ s.lock = some t
  quiet : ∀ t, (s.pc t).changing = true → s.queued = false ∧ s.callback = .idle
  start : ∀ t value, s.pc t = .start value →
    0 < value ∧ s.last = value ∧ s.line = !d.activeLow
  settled : (∀ t, (s.pc t).changing = false) → Settled d s
  expires : s.expires ≤ s.now + max 0 d.maxTimeout * 1000000

theorem inv_init (d : Conf) : Inv d (init d : Sys n) where
  owner _ := by simp [init, Pc.inside]
  quiet _ h := by cases h
  start _ _ h := by cases h
  settled _ := .off rfl rfl rfl rfl
  expires := by
    change (0 : ℤ) ≤ 0 + _
    omega

variable {d : Conf} {s s' : Sys n} {t : Fin n}

theorem changing_of_outside {pc : Pc} (h : pc.inside = false) : pc.changing = false := by
  cases pc with
  | idle | lock _ | active | remaining => rfl
  | cancel _ | output _ | start _ | unlock => cases h

@[simp] theorem setPc_pc_self (s : Sys n) (t : Fin n) (pc : Pc) : (s.setPc t pc).pc t = pc := by
  simp [setPc]

theorem setPc_pc_ne (s : Sys n) {t u : Fin n} (pc : Pc) (h : u ≠ t) :
    (s.setPc t pc).pc u = s.pc u := by
  simp [setPc, h]

theorem Settled.of_le (h : Settled d s) (hlast : s'.last = s.last) (hline : s'.line = s.line)
    (hqueued : s'.queued = s.queued) (hcallback : s'.callback = s.callback)
    (hexpires : s'.expires = s.expires) (hsince : s'.since = s.since) (hnow : s.now ≤ s'.now) :
    Settled d s' := by
  cases h with
  | off value line timer callback =>
    exact .off (hlast.trans value) (hline.trans line) (hqueued.trans timer)
      (hcallback.trans callback)
  | on value line timer callback =>
    exact .on (hlast ▸ value) (hline.trans line) (hqueued.trans timer) (hcallback.trans callback)
  | pulse value line timer callback due =>
    exact .pulse (hlast ▸ value) (hline.trans line) (hqueued.trans timer)
      (hcallback.trans callback) (by rw [hexpires, hsince, hlast, due])
  | ending value line timer callback due =>
    exact .ending (hlast ▸ value) (hline.trans line) (hqueued.trans timer)
      (hcallback.trans callback) (by rw [hsince, hlast]; exact due.trans hnow)
  | ended value line timer callback due =>
    exact .ended (hlast ▸ value) (hline.trans line) (hqueued.trans timer) (hcallback ▸ callback)
      (by rw [hsince, hlast]; exact due.trans hnow)

theorem Inv.outside (h : Inv d s) (ht : (s.pc t).inside = true) {u : Fin n} (hu : u ≠ t) :
    (s.pc u).inside = false := by
  rw [Bool.eq_false_iff]
  intro hin
  have hlock := (h.owner t).mp ht
  rw [(h.owner u).mp hin] at hlock
  exact hu (Option.some.inj hlock)

theorem Inv.outside_of_free (h : Inv d s) (hlock : s.lock = none) (u : Fin n) :
    (s.pc u).inside = false := by
  rw [Bool.eq_false_iff]
  intro hin
  rw [(h.owner u).mp hin] at hlock
  cases hlock

theorem Inv.setPc (h : Inv d s) {pc : Pc} (hold : (s.pc t).inside = false)
    (hnew : pc.inside = false) : Inv d (s.setPc t pc) := by
  have hpc : ∀ u, (s.setPc t pc).pc u = s.pc u ∨
      (((s.setPc t pc).pc u).inside = false ∧ (s.pc u).inside = false) := by
    intro u
    by_cases hu : u = t
    · subst hu
      exact .inr ⟨by simpa using hnew, hold⟩
    · exact .inl (setPc_pc_ne s pc hu)
  have hchanging : ∀ u, ((s.setPc t pc).pc u).changing = (s.pc u).changing := by
    intro u
    obtain hu | ⟨hu, hu'⟩ := hpc u
    · rw [hu]
    · rw [changing_of_outside hu, changing_of_outside hu']
  refine ⟨fun u => ?_, fun u hu => h.quiet u (by rw [← hchanging]; exact hu), fun u value hu => ?_,
    fun hall => ?_, h.expires⟩
  · obtain hu | ⟨hu, hu'⟩ := hpc u
    · rw [hu]
      exact h.owner u
    · rw [hu, ← hu']
      exact h.owner u
  · obtain hu' | ⟨hu', -⟩ := hpc u
    · exact h.start u value (by rw [← hu']; exact hu)
    · rw [hu] at hu'
      cases hu'
  · have hs : Settled d s := h.settled fun u => by rw [← hchanging]; exact hall u
    exact hs.of_le rfl rfl rfl rfl rfl rfl le_rfl

theorem Inv.show (h : Inv d s) (r : ℤ) : Inv d { s with shown := r :: s.shown } :=
  ⟨h.owner, h.quiet, h.start, fun hall =>
    (h.settled hall).of_le rfl rfl rfl rfl rfl rfl le_rfl, h.expires⟩

theorem inv_of_alone {pc : Pc} (hout : ∀ u, u ≠ t → (s.pc u).inside = false)
    (hpc : s'.pc = Function.update s.pc t pc) (hlock : s'.lock = if pc.inside then some t else none)
    (hquiet : pc.changing = true → s'.queued = false ∧ s'.callback = .idle)
    (hstart : ∀ value, pc = .start value →
      0 < value ∧ s'.last = value ∧ s'.line = !d.activeLow)
    (hsettled : pc.changing = false → Settled d s')
    (hexpires : s'.expires ≤ s'.now + max 0 d.maxTimeout * 1000000) : Inv d s' := by
  have hself : s'.pc t = pc := by rw [hpc, Function.update_self]
  have hother : ∀ u, u ≠ t → (s'.pc u).inside = false := fun u hu => by
    rw [hpc, Function.update_of_ne hu]
    exact hout u hu
  have hchanging : ∀ u, (s'.pc u).changing = true → u = t := by
    intro u hch
    by_contra hu
    rw [changing_of_outside (hother u hu)] at hch
    cases hch
  refine ⟨fun u => ?_, fun u hch => ?_, fun u value hu => ?_, fun hall => ?_, hexpires⟩
  · by_cases hu : u = t
    · subst hu
      rw [hself, hlock]
      cases pc.inside <;> simp
    · rw [hother u hu, hlock]
      cases pc.inside <;> simp [Ne.symm hu]
  · obtain rfl := hchanging u hch
    exact hquiet (hself ▸ hch)
  · obtain rfl := hchanging u (by rw [hu]; rfl)
    exact hstart value (hself.symm.trans hu)
  · exact hsettled (hself ▸ hall t)

theorem level_eq (d : Conf) (value : ℤ) :
    level d value = if value = 0 then d.activeLow else !d.activeLow := by
  unfold level
  cases d.activeLow <;> by_cases h : value = 0 <;> simp [h]

theorem Inv.next (h : Inv d s) (hs : s.next d t = some s') : Inv d s' := by
  unfold Sys.next at hs
  cases hpc : s.pc t with simp only [hpc] at hs
  | idle => cases hs
  | lock value =>
    split_ifs at hs with hlock
    cases hs
    have hout := h.outside_of_free hlock
    have hset : Settled d s := h.settled fun u => changing_of_outside (hout u)
    exact inv_of_alone (fun u _ => hout u) rfl rfl (fun hch => by cases hch)
      (fun _ hstart => by cases hstart) (fun _ => hset.of_le rfl rfl rfl rfl rfl rfl le_rfl)
      h.expires
  | cancel value =>
    split_ifs at hs with hidle
    cases hs
    have hin : (s.pc t).inside = true := by rw [hpc]; rfl
    exact inv_of_alone (fun u hu => h.outside hin hu) rfl ((h.owner t).mp hin)
      (fun _ => ⟨rfl, hidle⟩) (fun _ hstart => by cases hstart) (fun hch => by cases hch)
      h.expires
  | output value =>
    cases hs
    have hin : (s.pc t).inside = true := by rw [hpc]; rfl
    obtain ⟨hqueued, hidle⟩ := h.quiet t (by rw [hpc]; rfl)
    refine inv_of_alone (fun u hu => h.outside hin hu) rfl ?_ (fun _ => ⟨hqueued, hidle⟩)
      (fun v hstart => ?_) (fun hch => ?_) h.expires
    · have hnew : (if value > 0 then Pc.start value else Pc.unlock).inside = true := by
        split_ifs <;> rfl
      rw [hnew]
      exact (h.owner t).mp hin
    · split_ifs at hstart with hpos
      cases hstart
      refine ⟨hpos, rfl, ?_⟩
      change level d value = !d.activeLow
      rw [level_eq, if_neg (ne_of_gt hpos)]
    · split_ifs at hch with hpos
      · cases hch
      · obtain hneg | hzero := lt_or_eq_of_le (not_lt.mp hpos)
        · refine .on hneg ?_ hqueued hidle
          change level d value = !d.activeLow
          rw [level_eq, if_neg (ne_of_lt hneg)]
        · refine .off hzero ?_ hqueued hidle
          change level d value = d.activeLow
          rw [level_eq, if_pos hzero]
  | start value =>
    cases hs
    have hin : (s.pc t).inside = true := by rw [hpc]; rfl
    obtain ⟨hqueued, hidle⟩ := h.quiet t (by rw [hpc]; rfl)
    obtain ⟨hpos, hlast, hline⟩ := h.start t value hpc
    refine inv_of_alone (fun u hu => h.outside hin hu) rfl ((h.owner t).mp hin)
      (fun hch => by cases hch) (fun _ hstart => by cases hstart) (fun _ => ?_) ?_
    · refine .pulse (by rw [← hlast] at hpos; exact hpos) hline rfl hidle ?_
      change s.now + timeout d value = s.now + min s.last d.maxTimeout * 1000000
      rw [timeout_eq, hlast]
    · change s.now + timeout d value ≤ s.now + max 0 d.maxTimeout * 1000000
      rw [timeout_eq]
      omega
  | unlock =>
    cases hs
    have hin : (s.pc t).inside = true := by rw [hpc]; rfl
    have hset : Settled d s := by
      refine h.settled fun u => ?_
      by_cases hu : u = t
      · rw [hu, hpc]
        rfl
      · exact changing_of_outside (h.outside hin hu)
    exact inv_of_alone (fun u hu => h.outside hin hu) rfl rfl (fun hch => by cases hch)
      (fun _ hstart => by cases hstart) (fun _ => hset.of_le rfl rfl rfl rfl rfl rfl le_rfl)
      h.expires
  | active =>
    split_ifs at hs with hact
    · cases hs
      exact h.setPc (by rw [hpc]; rfl) rfl
    · cases hs
      exact (h.setPc (by rw [hpc]; rfl) rfl).show _
  | remaining =>
    cases hs
    exact (h.setPc (by rw [hpc]; rfl) rfl).show _

theorem Inv.timerFunc (h : Inv d s) (hs : s.timerFunc d = some s') : Inv d s' := by
  unfold Sys.timerFunc at hs
  -- while the callback runs nobody is between `hrtimer_cancel` and `hrtimer_start`
  have hnobody : s.callback ≠ .idle → ∀ u, (s.pc u).changing = false := by
    intro hrun u
    rw [Bool.eq_false_iff]
    exact fun hch => hrun (h.quiet u hch).2
  cases hcb : s.callback with simp only [hcb] at hs
  | idle => cases hs
  | entered =>
    cases hs
    have hno := hnobody (by rw [hcb]; exact nofun)
    have hpc : ∀ u value, s.pc u ≠ .start value := fun u value hu => by
      have := hno u
      rw [hu] at this
      cases this
    refine ⟨h.owner, fun u hch => ?_, fun u value hu => absurd hu (hpc u value), fun _ => ?_,
      h.expires⟩
    · have hu := hno u
      rw [show (s.pc u).changing = true from hch] at hu
      cases hu
    · cases h.settled hno with
      | off _ _ _ callback | on _ _ _ callback | pulse _ _ _ callback =>
        rw [hcb] at callback
        cases callback
      | ending value line timer callback due => exact .ended value rfl timer nofun due
      | ended _ _ _ callback => exact absurd hcb callback
  | written =>
    cases hs
    have hno := hnobody (by rw [hcb]; exact nofun)
    refine ⟨h.owner, fun u hch => ?_, h.start, fun _ => ?_, h.expires⟩
    · exact ⟨(h.quiet u hch).1, rfl⟩
    · cases h.settled hno with
      | off _ _ _ callback | on _ _ _ callback | pulse _ _ _ callback | ending _ _ _ callback =>
        rw [hcb] at callback
        cases callback
      | ended value line timer callback due => exact .ended value line timer nofun due

/-- **Every step keeps the invariant.** -/
theorem Inv.step (h : Inv d s) {a : Act n} (hs : pulseStep d s a = some s') : Inv d s' := by
  cases a with simp only [pulseStep] at hs
  | tick ns =>
    cases hs
    refine ⟨h.owner, h.quiet, h.start, fun hall => ?_, ?_⟩
    · refine (h.settled hall).of_le rfl rfl rfl rfl rfl rfl ?_
      change s.now ≤ s.now + ns
      omega
    · have hexpires := h.expires
      change s.expires ≤ s.now + ns + max 0 d.maxTimeout * 1000000
      omega
  | store t value | load t =>
    split_ifs at hs with hen
    cases hs
    exact h.setPc (by rw [hen.2.1]; rfl) rfl
  | next t => exact h.next hs
  | expire =>
    split_ifs at hs with hen
    obtain ⟨hqueued, hidle, hdue⟩ := hen
    cases hs
    have hno : ∀ u, (s.pc u).changing = false := by
      intro u
      rw [Bool.eq_false_iff]
      intro hch
      rw [(h.quiet u hch).1] at hqueued
      cases hqueued
    refine ⟨h.owner, fun u hch => ?_, h.start, fun _ => ?_, h.expires⟩
    · have hu := hno u
      rw [show (s.pc u).changing = true from hch] at hu
      cases hu
    · cases h.settled hno with
      | off _ _ timer | on _ _ timer | ending _ _ timer | ended _ _ timer =>
        rw [hqueued] at timer
        cases timer
      | pulse value line timer callback due => exact .ending value line rfl rfl (due ▸ hdue)
  | timerFunc => exact h.timerFunc hs
  | unregister t =>
    split_ifs at hs with hen
    cases hs
    have hmoved : Inv d (s.setPc t (.lock 0)) := h.setPc (by rw [hen.1]; rfl) rfl
    exact ⟨hmoved.owner, hmoved.quiet, hmoved.start,
      fun hall => (hmoved.settled hall).of_le rfl rfl rfl rfl rfl rfl le_rfl, hmoved.expires⟩
  | removeFile t | kfree t =>
    split_ifs at hs
    cases hs
    exact ⟨h.owner, h.quiet, h.start,
      fun hall => (h.settled hall).of_le rfl rfl rfl rfl rfl rfl le_rfl, h.expires⟩

theorem inv_of_exec {l : List (Act n)} (h : exec (pulseStep d) (init d) l = some s) : Inv d s :=
  exec_inv (fun _ _ _ hI hs => hI.step hs) (inv_init d) h

/-! ## What readers are told -/

/-- A thread behind `hrtimer_active` reads the clock at most `2 ^ 31` ms after the timer was due. -/
def Prompt (s : Sys n) : Act n → Prop
  | .next t => s.pc t = .remaining → s.now - s.expires ≤ 2147483648 * 1000000
  | _ => True

instance (s : Sys n) : ∀ a, Decidable (Prompt s a)
  | .next t => inferInstanceAs (Decidable (s.pc t = .remaining → _))
  | .tick _ | .store .. | .load _ | .expire | .timerFunc | .unregister _ | .removeFile _
  | .kfree _ => isTrue trivial

/-- A reader is told zero, or the time that remains. -/
theorem shown_step {a : Act n} (hs : pulseStep d s a = some s') :
    s'.shown = s.shown ∨ s'.shown = 0 :: s.shown ∨
      ∃ t, a = .next t ∧ s.pc t = .remaining ∧
        s'.shown = remainingInt (s.expires - s.now) :: s.shown := by
  cases a with simp only [pulseStep] at hs
  | next t =>
    unfold Sys.next at hs
    cases hpc : s.pc t with simp only [hpc] at hs
    | idle => cases hs
    | output value | start value | unlock =>
      cases hs
      exact .inl rfl
    | lock value | cancel value =>
      split_ifs at hs
      cases hs
      exact .inl rfl
    | active =>
      split_ifs at hs
      · cases hs
        exact .inl rfl
      · cases hs
        exact .inr (.inl rfl)
    | remaining =>
      cases hs
      exact .inr (.inr ⟨t, rfl, hpc, rfl⟩)
  | timerFunc =>
    unfold Sys.timerFunc at hs
    cases hcb : s.callback with simp only [hcb] at hs
    | idle => cases hs
    | entered | written =>
      cases hs
      exact .inl rfl
  | tick ns =>
    cases hs
    exact .inl rfl
  | store t value | load t | expire | unregister t | removeFile t | kfree t =>
    split_ifs at hs
    cases hs
    exact .inl rfl

/-- What is shown is at most `max_timeout`. -/
def Told (d : Conf) (s : Sys n) : Prop := ∀ r ∈ s.shown, r ≤ max 0 d.maxTimeout

theorem Told.step (h : Inv d s) (hd : d.maxTimeout < 2147483648) (ht : Told d s) {a : Act n}
    (ha : Prompt s a) (hs : pulseStep d s a = some s') : Told d s' := by
  obtain heq | heq | ⟨t, rfl, hpc, heq⟩ := shown_step hs
  · rw [Told, heq]
    exact ht
  · rw [Told, heq]
    exact List.forall_mem_cons.mpr ⟨le_max_left _ _, ht⟩
  · have hexpires := h.expires
    have hlate : s.now - s.expires ≤ 2147483648 * 1000000 := ha hpc
    rw [Told, heq]
    refine List.forall_mem_cons.mpr ⟨?_, ht⟩
    rw [remainingInt_eq (by omega) (by omega)]
    omega

theorem told_of_exec (hd : d.maxTimeout < 2147483648) {l : List (Act n)}
    (hl : Meets (pulseStep d) Prompt (init d) l) (h : exec (pulseStep d) (init d) l = some s) :
    Told d s := by
  have hboth := exec_induction (I := fun s : Sys n => Inv d s ∧ Told d s)
    (fun _ _ _ hI ha hs => ⟨hI.1.step hs, hI.2.step hI.1 hd ha hs⟩) ⟨inv_init d, nofun⟩ hl h
  exact hboth.2

/-! ## Pulses -/

/-- A pulse of 500 ms is cut to 100 ms; a second thread reads the time that remains. -/
def cutRun : List (Act 2) :=
  [.store 0 500, .next 0, .next 0, .next 0, .next 0, .next 0, .tick 70500000, .load 1, .next 1,
    .next 1, .tick 29500000, .expire]

/-- A reader that is held up for longer is told more. -/
def slowReader : List (Act 2) :=
  [.store 0 1, .next 0, .next 0, .next 0, .next 0, .next 0, .load 1, .next 1,
    .tick 2147483650000000, .next 1]

example : (exec (pulseStep ⟨100, false⟩) (init ⟨100, false⟩) slowReader).map (·.shown) =
    some [2147483647] := by
  decide

/-! ## Unregistering -/

/-- No write with a positive value takes the lock behind the call of
`timed_output_dev_unregister`. -/
def NoLateStart (s : Sys n) : Act n → Prop
  | .next t =>
    match s.remover, s.pc t with
    | some r, .lock value => s.pc r = .lock 0 ∨ value ≤ 0
    | _, _ => True
  | _ => True

instance (s : Sys n) : ∀ a, Decidable (NoLateStart s a)
  | .next t =>
    match hr : s.remover, hpc : s.pc t with
    | some r, .lock value =>
      decidable_of_iff (s.pc r = .lock 0 ∨ value ≤ 0) (by simp only [NoLateStart, hr, hpc])
    | none, _ => isTrue (by simp only [NoLateStart, hr])
    | some _, .idle | some _, .cancel _ | some _, .output _ | some _, .start _ | some _, .unlock
    | some _, .active | some _, .remaining => isTrue (by simp only [NoLateStart, hr, hpc])
  | .tick _ | .store .. | .load _ | .expire | .timerFunc | .unregister _ | .removeFile _
  | .kfree _ => isTrue trivial

/-- The thread is inside with a positive value. -/
def Pc.starts : Pc → Prop
  | .cancel value | .output value | .start value => 0 < value
  | _ => False

theorem not_starts_of_outside {pc : Pc} (h : pc.inside = false) : ¬pc.starts := by
  cases pc with
  | idle | lock _ | active | remaining => exact id
  | cancel _ | output _ | start _ | unlock => cases h

/-- Where the thread that unregisters the device can be. -/
def Pc.ofRemover : Pc → Prop
  | .lock value | .cancel value | .output value => value = 0
  | .unlock | .idle => True
  | _ => False

/-- What holds while the instance is removed. -/
structure Removing (s : Sys n) : Prop where
  pc : ∀ r, s.remover = some r → (s.pc r).ofRemover
  late : ∀ r, s.remover = some r → s.pc r = .lock 0 ∨ ∀ u, ¬(s.pc u).starts
  off : ∀ r, s.remover = some r → s.pc r = .unlock ∨ s.pc r = .idle →
    s.queued = false ∧ s.callback = .idle
  file : s.file = false → (∃ r, s.remover = some r) ∧ ∀ u, s.pc u = .idle
  freed : s.freed = true → s.file = false

theorem removing_init (d : Conf) : Removing (init d : Sys n) where
  pc _ h := by cases h
  late _ h := by cases h
  off _ h := by cases h
  file h := by cases h
  freed h := by cases h

theorem Removing.remover_ne (h : Removing s) (hpc : ¬(s.pc t).ofRemover) : s.remover ≠ some t :=
  fun hr => hpc (h.pc t hr)

theorem Removing.move (h : Removing s) {pc : Pc} (hfile : s.file = true)
    (hpc : s'.pc = Function.update s.pc t pc) (hrem : s'.remover = s.remover)
    (hfile' : s'.file = s.file) (hfreed : s'.freed = s.freed)
    (hown : s.remover = some t → pc.ofRemover)
    (hlate : ∀ r, s.remover = some r →
      (r ≠ t ∧ s.pc r = .lock 0) ∨ (¬pc.starts ∧ ∀ u, u ≠ t → ¬(s.pc u).starts))
    (hself : s.remover = some t → pc = .unlock ∨ pc = .idle →
      s'.queued = false ∧ s'.callback = .idle)
    (hother : ∀ r, s.remover = some r → r ≠ t → s.pc r = .unlock ∨ s.pc r = .idle →
      s'.queued = false ∧ s'.callback = .idle) : Removing s' := by
  have hpc_self : s'.pc t = pc := by rw [hpc, Function.update_self]
  have hpc_other : ∀ u, u ≠ t → s'.pc u = s.pc u := fun u hu => by
    rw [hpc, Function.update_of_ne hu]
  refine ⟨fun r hr => ?_, fun r hr => ?_, fun r hr hpcr => ?_, fun hf => ?_, fun hf => ?_⟩
  · rw [hrem] at hr
    by_cases hrt : r = t
    · subst hrt
      rw [hpc_self]
      exact hown hr
    · rw [hpc_other r hrt]
      exact h.pc r hr
  · rw [hrem] at hr
    obtain ⟨hrt, hlock⟩ | ⟨hnew, hall⟩ := hlate r hr
    · left
      rw [hpc_other r hrt, hlock]
    · right
      intro u
      by_cases hu : u = t
      · rw [hu, hpc_self]
        exact hnew
      · rw [hpc_other u hu]
        exact hall u hu
  · rw [hrem] at hr
    by_cases hrt : r = t
    · subst hrt
      exact hself hr (hpc_self ▸ hpcr)
    · exact hother r hr hrt (hpc_other r hrt ▸ hpcr)
  · rw [hfile', hfile] at hf
    cases hf
  · rw [hfreed] at hf
    rw [hfile', h.freed hf]

/-- Another thread moves, and not to start the timer. -/
theorem Removing.other (h : Removing s) {pc : Pc} (hfile : s.file = true)
    (hne : s.remover ≠ some t) (hpc : s'.pc = Function.update s.pc t pc)
    (hrem : s'.remover = s.remover) (hfile' : s'.file = s.file) (hfreed : s'.freed = s.freed)
    (hstarts : ¬pc.starts) (hqueued : s'.queued = s.queued) (hcb : s'.callback = s.callback) :
    Removing s' := by
  refine h.move hfile hpc hrem hfile' hfreed (fun hr => absurd hr hne) (fun r hr => ?_)
    (fun hr => absurd hr hne) (fun r hr _ hpcr => ?_)
  · obtain hlock | hall := h.late r hr
    · exact .inl ⟨fun hrt => hne (hrt ▸ hr), hlock⟩
    · exact .inr ⟨hstarts, fun u _ => hall u⟩
  · rw [hqueued, hcb]
    exact h.off r hr hpcr

theorem Removing.file_of_busy (h : Removing s) (hbusy : s.pc t ≠ .idle) : s.file = true := by
  by_contra hf
  exact hbusy ((h.file (Bool.eq_false_iff.mpr hf)).2 t)

theorem Removing.late_of_move (h : Removing s) {pc : Pc} (hne : s.pc t ≠ .lock 0)
    (hstarts : (s.pc t).starts ∨ ¬pc.starts) (r : Fin n) (hr : s.remover = some r) :
    (r ≠ t ∧ s.pc r = .lock 0) ∨ (¬pc.starts ∧ ∀ u, u ≠ t → ¬(s.pc u).starts) := by
  obtain hlock | hall := h.late r hr
  · left
    refine ⟨?_, hlock⟩
    rintro rfl
    exact hne hlock
  · right
    exact ⟨hstarts.resolve_left (hall t), fun u _ => hall u⟩

theorem Removing.next (h : Removing s) (hI : Inv d s) (hC : NoLateStart s (.next t))
    (hs : s.next d t = some s') : Removing s' := by
  unfold Sys.next at hs
  cases hpc : s.pc t with simp only [hpc] at hs
  | idle => cases hs
  | lock value =>
    split_ifs at hs with hlock
    cases hs
    have hnone : ∀ u, ¬(s.pc u).starts := fun u =>
      not_starts_of_outside (hI.outside_of_free hlock u)
    have hzero : s.remover = some t → value = 0 := fun hr => by
      have hown := h.pc t hr
      rw [hpc] at hown
      exact hown
    refine h.move (h.file_of_busy (by rw [hpc]; exact nofun)) rfl rfl rfl rfl hzero
      (fun r hr => ?_) (fun _ hpcr => ?_) (fun r hr _ => h.off r hr)
    · by_cases hrt : r = t
      · subst hrt
        right
        rw [hzero hr]
        exact ⟨lt_irrefl _, fun u _ => hnone u⟩
      · have hguard : s.pc r = .lock 0 ∨ value ≤ 0 := by
          simpa only [NoLateStart, hr, hpc] using hC
        obtain hlate | hle := hguard
        · exact .inl ⟨hrt, hlate⟩
        · exact .inr ⟨not_lt.mpr hle, fun u _ => hnone u⟩
    · obtain hpcr | hpcr := hpcr <;> cases hpcr
  | cancel value =>
    split_ifs at hs with hidle
    cases hs
    refine h.move (h.file_of_busy (by rw [hpc]; exact nofun)) rfl rfl rfl rfl (fun hr => ?_)
      (h.late_of_move (by rw [hpc]; exact nofun) ?_) (fun _ _ => ⟨rfl, hidle⟩)
      (fun _ _ _ _ => ⟨rfl, hidle⟩)
    · have hown := h.pc t hr
      rw [hpc] at hown
      exact hown
    · rw [hpc]
      exact em _
  | output value =>
    cases hs
    obtain ⟨hqueued, hidle⟩ := hI.quiet t (by rw [hpc]; rfl)
    refine h.move (h.file_of_busy (by rw [hpc]; exact nofun)) rfl rfl rfl rfl (fun hr => ?_)
      (h.late_of_move (by rw [hpc]; exact nofun) ?_) (fun _ _ => ⟨hqueued, hidle⟩)
      (fun _ _ _ _ => ⟨hqueued, hidle⟩)
    · have hown := h.pc t hr
      rw [hpc] at hown
      rw [show value = 0 from hown]
      trivial
    · rw [hpc]
      split_ifs with hpos
      · exact .inl hpos
      · exact .inr id
  | start value =>
    cases hs
    obtain ⟨hpos, -, -⟩ := hI.start t value hpc
    have hne := h.remover_ne (t := t) (by rw [hpc]; exact id)
    refine h.move (h.file_of_busy (by rw [hpc]; exact nofun)) rfl rfl rfl rfl
      (fun hr => absurd hr hne) (h.late_of_move (by rw [hpc]; exact nofun) (.inr id))
      (fun hr => absurd hr hne) (fun r hr _ hpcr => ?_)
    obtain hlock | hall := h.late r hr
    · rw [hlock] at hpcr
      obtain hpcr | hpcr := hpcr <;> cases hpcr
    · have hstart := hall t
      rw [hpc] at hstart
      exact absurd hpos hstart
  | unlock =>
    cases hs
    exact h.move (h.file_of_busy (by rw [hpc]; exact nofun)) rfl rfl rfl rfl
      (fun _ => trivial) (h.late_of_move (by rw [hpc]; exact nofun) (.inr id))
      (fun hr _ => h.off t hr (.inl hpc)) (fun r hr _ => h.off r hr)
  | active =>
    have hne := h.remover_ne (t := t) (by rw [hpc]; exact id)
    have hf := h.file_of_busy (by rw [hpc]; exact nofun)
    split_ifs at hs
    · cases hs
      exact h.other hf hne rfl rfl rfl rfl id rfl rfl
    · cases hs
      exact h.other hf hne rfl rfl rfl rfl id rfl rfl
  | remaining =>
    have hne := h.remover_ne (t := t) (by rw [hpc]; exact id)
    cases hs
    exact h.other (h.file_of_busy (by rw [hpc]; exact nofun)) hne rfl rfl rfl rfl id rfl rfl

theorem Removing.step (h : Removing s) (hI : Inv d s) {a : Act n} (hC : NoLateStart s a)
    (hs : pulseStep d s a = some s') : Removing s' := by
  cases a with simp only [pulseStep] at hs
  | tick ns =>
    cases hs
    exact ⟨h.pc, h.late, h.off, h.file, h.freed⟩
  | store t value | load t =>
    split_ifs at hs with hen
    cases hs
    exact h.other hen.1 hen.2.2 rfl rfl rfl rfl id rfl rfl
  | next t => exact h.next hI hC hs
  | expire =>
    split_ifs at hs with hen
    cases hs
    refine ⟨h.pc, h.late, fun r hr hpcr => ?_, h.file, h.freed⟩
    have hqueued := (h.off r hr hpcr).1
    rw [hen.1] at hqueued
    cases hqueued
  | timerFunc =>
    unfold Sys.timerFunc at hs
    cases hcb : s.callback with simp only [hcb] at hs
    | idle => cases hs
    | entered | written =>
      cases hs
      refine ⟨h.pc, h.late, fun r hr hpcr => ?_, h.file, h.freed⟩
      have hidle := (h.off r hr hpcr).2
      rw [hcb] at hidle
      cases hidle
  | unregister t =>
    split_ifs at hs with hen
    obtain ⟨hpc, hrem⟩ := hen
    cases hs
    have hself : (s.setPc t (.lock 0)).pc t = .lock 0 := setPc_pc_self s t _
    have hlock : ∀ r, some t = some r → (s.setPc t (.lock 0)).pc r = .lock 0 := by
      intro r hr
      rw [← Option.some.inj hr, hself]
    refine ⟨fun r hr => ?_, fun r hr => .inl (hlock r hr), fun r hr hpcr => ?_,
      fun hf => ?_, h.freed⟩
    · rw [show _ = _ from hlock r hr]
      rfl
    · rw [show _ = _ from hlock r hr] at hpcr
      obtain hpcr | hpcr := hpcr <;> cases hpcr
    · obtain ⟨⟨r, hr⟩, -⟩ := h.file hf
      rw [hrem] at hr
      cases hr
  | removeFile t =>
    split_ifs at hs with hen
    cases hs
    exact ⟨h.pc, h.late, h.off, fun _ => ⟨⟨t, hen.1⟩, hen.2.2⟩, fun _ => rfl⟩
  | kfree t =>
    split_ifs at hs with hen
    cases hs
    exact ⟨h.pc, h.late, h.off, h.file, fun _ => hen.2.1⟩

/-- **The data is freed with nothing on it.** When no write with a positive value takes the lock
behind the call of `timed_output_dev_unregister`, at `kfree` and ever after the timer is not queued,
its callback does not run, and no thread is in the file; the line is off unless a negative value
switched it on. -/
theorem freed_quiet {l : List (Act n)} (hC : Meets (pulseStep d) NoLateStart (init d) l)
    (h : exec (pulseStep d) (init d) l = some s) (hfreed : s.freed = true) :
    s.hrtimerActive = false ∧ (0 ≤ s.last → s.line = d.activeLow) ∧ ∀ t, s.pc t = .idle := by
  have hboth : Inv d s ∧ Removing s :=
    exec_induction (I := fun s => Inv d s ∧ Removing s)
      (fun _ _ _ hI hC hs => ⟨hI.1.step hs, hI.2.step hI.1 hC hs⟩)
      ⟨inv_init d, removing_init d⟩ hC h
  obtain ⟨hI, hR⟩ := hboth
  obtain ⟨⟨r, hr⟩, hidle⟩ := hR.file (hR.freed hfreed)
  obtain ⟨hqueued, hcb⟩ := hR.off r hr (.inr (hidle r))
  refine ⟨?_, fun hlast => ?_, hidle⟩
  · rw [hrtimerActive, hqueued, hcb]
    rfl
  · cases hI.settled fun t => by rw [hidle t]; rfl with
    | off _ line | ended _ line => exact line
    | on value => exact absurd hlast (not_le.mpr value)
    | pulse _ _ timer =>
      rw [hqueued] at timer
      cases timer
    | ending _ _ _ callback =>
      rw [hcb] at callback
      cases callback

/-- A write is in the file while the device is unregistered. -/
def lateRun (value : ℤ) : List (Act 2) :=
  [.store 0 value, .unregister 1, .next 1, .next 1, .next 1, .next 1, .next 0, .next 0, .next 0] ++
    (if 0 < value then [.next 0] else []) ++ [.next 0, .removeFile 1, .kfree 1]

theorem freed_quiet_zero :
    ∃ s : Sys 2, exec (pulseStep ⟨100, true⟩) (init ⟨100, true⟩) (lateRun 0) = some s ∧
      s.freed = true ∧ s.hrtimerActive = false ∧ s.line = true :=
  have hfreed := freed_quiet (d := ⟨100, true⟩) (l := lateRun 0) (by decide) rfl rfl
  ⟨_, rfl, rfl, hfreed.1, hfreed.2.1 (by decide)⟩

/-- The same run with a positive value: the timer goes off in freed memory. -/
theorem freed_while_queued :
    ∃ s : Sys 2, exec (pulseStep ⟨100, true⟩) (init ⟨100, true⟩) (lateRun 5) = some s ∧
      s.freed = true ∧ s.queued = true :=
  ⟨_, rfl, rfl, rfl⟩

end LddExample.TimedGpio
