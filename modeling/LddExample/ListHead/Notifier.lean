import LddExample.Lib.Lts
import Mathlib.Data.List.Nodup
import Mathlib.Logic.Function.Basic

/-!
# The notifier of `test_list_head.c`

`timer_func` counts in `gld.data`, raises `has_data` of every open file and wakes the readers;
`reg_read` waits for `has_data` of its file, clears it and reads the counter. Every access to shared
data is a step of its own.

* `Reader`, `ReadPc`: any number of threads in `reg_read`, on any open file.
* `TickPc`: the running `timer_func`. The timer core runs one at a time.
* **`notifyStep`**: the step function.
* **`no_lost_tick_or_wakeup`**: a file without data was read after the last tick, and a reader that
  sleeps on a file with data is about to be woken.
-/

namespace LddExample.ListHead

/-- `struct priv_data` of an open file, with what happened to it since it was opened. -/
structure PrivData where
  hasData : Bool
  /-- history: a tick has set `has_data` -/
  flagged : Bool
  /-- history: the value read last -/
  lastRead : Option UInt64

/-- Where a thread stands in `reg_read`. -/
inductive ReadPc
  | out
  /-- before `if (!atomic_read(&pri->has_data))` -/
  | test
  /-- before `add_wait_queue` -/
  | enqueue
  /-- before `set_current_state(TASK_INTERRUPTIBLE)` -/
  | setState
  /-- before `if (atomic_read(&pri->has_data) == 1)` -/
  | check
  /-- has seen no data, before the tests of `O_NONBLOCK` and `signal_pending` -/
  | retry
  /-- before `schedule()` -/
  | schedule
  /-- off the CPU in `schedule()` -/
  | blocked
  /-- before `atomic_set(&pri->has_data, 0)` -/
  | clear
  /-- before `d = gld.data` -/
  | load
  /-- at `out:` -/
  | finish
deriving DecidableEq

/-- On the wait queue, between `add_wait_queue` and the end of the loop. -/
def ReadPc.queued : ReadPc → Bool
  | setState | check | retry | schedule | blocked => true
  | out | test | enqueue | clear | load | finish => false

/-- Has seen no data since its state was set. -/
def ReadPc.waiting : ReadPc → Bool
  | retry | schedule | blocked => true
  | out | test | enqueue | setState | check | clear | load | finish => false

/-- A thread; `running` is false in state `TASK_INTERRUPTIBLE`. -/
structure Reader where
  pc : ReadPc
  file : ℕ
  nonblock : Bool
  running : Bool

/-- Where `timer_func` stands. -/
inductive TickPc
  | idle
  /-- after `gld.data++` -/
  | counted
  /-- holds `gld.lock`, with these files still to flag -/
  | flagging (rest : List ℕ)
  /-- after the loop, before `wake_up_interruptible_all` -/
  | flagged
  /-- holds the lock of the wait queue, with these readers still to wake -/
  | waking (rest : List ℕ)

namespace TickPc

/-- `gld.lock` is held. -/
def locked : TickPc → Bool
  | flagging _ => true
  | idle | counted | flagged | waking _ => false

/-- The lock of the wait queue is held. -/
def waitLocked : TickPc → Bool
  | waking _ => true
  | idle | counted | flagging _ | flagged => false

/-- Has counted and not yet flagged the file. -/
def Pending (f : ℕ) : TickPc → Prop
  | counted => True
  | flagging rest => f ∈ rest
  | idle | flagged | waking _ => False

/-- Has flagged the file and not yet woken the reader. -/
def Waking (r f : ℕ) : TickPc → Prop
  | flagging rest => f ∉ rest
  | flagged => True
  | waking rest => r ∈ rest
  | idle | counted => False

end TickPc

/-- `gld`, the open files and the threads. -/
structure Notifier where
  data : UInt64
  /-- the open files on `gld.list_head` -/
  list : List ℕ
  priv : ℕ → PrivData
  /-- the next file `kzalloc` makes -/
  fresh : ℕ
  /-- the readers on `gld.wait` -/
  wait : List ℕ
  reader : ℕ → Reader
  /-- the threads in `reg_read`, which keep their files open -/
  active : List ℕ
  tick : TickPc

namespace Notifier

/-- After `reg_init`: no file is open. -/
def init : Notifier where
  data := 0
  list := []
  priv := fun _ => ⟨false, false, none⟩
  fresh := 0
  wait := []
  reader := fun _ => ⟨.out, 0, false, true⟩
  active := []
  tick := .idle

/-- A thread moves on. -/
def setReader (s : Notifier) (r : ℕ) (x : Reader) : Notifier :=
  { s with reader := Function.update s.reader r x }

/-- A file changes. -/
def setPriv (s : Notifier) (f : ℕ) (p : PrivData) : Notifier :=
  { s with priv := Function.update s.priv f p }

/-- The reader goes on at `pc`. -/
def goto (s : Notifier) (r : ℕ) (pc : ReadPc) : Notifier :=
  s.setReader r { s.reader r with pc := pc }

/-- `has_data` of the reader's file -/
def hasData (s : Notifier) (r : ℕ) : Bool :=
  (s.priv (s.reader r).file).hasData

/-- `reg_open` -/
def regOpen (s : Notifier) : Option Notifier :=
  if s.tick.locked then none
  else some { s.setPriv s.fresh ⟨false, false, none⟩ with
    list := s.fresh :: s.list, fresh := s.fresh + 1 }

/-- `release`, when no thread reads the file -/
def release (s : Notifier) (f : ℕ) : Option Notifier :=
  if s.tick.locked = false ∧ f ∈ s.list ∧ ∀ r ∈ s.active, (s.reader r).file ≠ f then
    some { s with list := s.list.erase f }
  else none

/-- The thread `r` calls `reg_read`. -/
def start (s : Notifier) (r f : ℕ) (nonblock : Bool) : Option Notifier :=
  if (s.reader r).pc = .out ∧ f ∈ s.list then
    some { s.setReader r ⟨.test, f, nonblock, true⟩ with active := r :: s.active }
  else none

/-- The next access of `reg_read`; `signal` is the answer of `signal_pending`. -/
def regRead (s : Notifier) (r : ℕ) (signal : Bool) : Option Notifier :=
  let x := s.reader r
  let p := s.priv x.file
  match x.pc with
  | .out => none
  | .test => some (s.goto r (if p.hasData then .clear else .enqueue))
  | .enqueue =>
    if s.tick.waitLocked then none else some { s.goto r .setState with wait := r :: s.wait }
  | .setState => some (s.setReader r { x with running := false, pc := .check })
  | .check => some (s.goto r (if p.hasData then .clear else .retry))
  | .retry => some (s.goto r (if x.nonblock ∨ signal then .finish else .schedule))
  | .schedule => some (s.goto r (if x.running then .setState else .blocked))
  | .blocked => if x.running then some (s.goto r .setState) else none
  | .clear => some ((s.setPriv x.file { p with hasData := false }).goto r .load)
  | .load => some ((s.setPriv x.file { p with lastRead := some s.data }).goto r .finish)
  | .finish =>
    if r ∈ s.wait ∧ s.tick.waitLocked then none
    else some { s.setReader r { x with running := true, pc := .out } with
      wait := s.wait.erase r, active := s.active.erase r }

/-- A signal makes a thread runnable. -/
def signal (s : Notifier) (r : ℕ) : Notifier :=
  s.setReader r { s.reader r with running := true }

/-- The next access of `timer_func`. -/
def timerFunc (s : Notifier) : Notifier :=
  match s.tick with
  | .idle => { s with data := s.data + 1, tick := .counted }
  | .counted => { s with tick := .flagging s.list }
  | .flagging (f :: rest) =>
    { s.setPriv f { s.priv f with hasData := true, flagged := true } with tick := .flagging rest }
  | .flagging [] => { s with tick := .flagged }
  | .flagged => { s with tick := .waking s.wait }
  | .waking (r :: rest) =>
    { s.setReader r { s.reader r with running := true } with tick := .waking rest }
  | .waking [] => { s with tick := .idle }

end Notifier

/-- What threads, signals and the timer do. -/
inductive NotifyAct
  | regOpen
  | release (f : ℕ)
  | start (r f : ℕ) (nonblock : Bool)
  | regRead (r : ℕ) (signal : Bool)
  | signal (r : ℕ)
  | timerFunc

/-- **One step.** -/
def notifyStep (s : Notifier) : NotifyAct → Option Notifier
  | .regOpen => s.regOpen
  | .release f => s.release f
  | .start r f nonblock => s.start r f nonblock
  | .regRead r signal => s.regRead r signal
  | .signal r => some (s.signal r)
  | .timerFunc => some s.timerFunc

/-! ## The invariant -/

namespace Notifier

/-- A thread has cleared `has_data` of the file and not yet read the counter. -/
def Loading (s : Notifier) (f : ℕ) : Prop :=
  ∃ r, (s.reader r).pc = .load ∧ (s.reader r).file = f

/-- What was read last is the counter, as far as anyone told the file about the counter. -/
def UpToDate (s : Notifier) (f : ℕ) : Prop :=
  (s.priv f).lastRead = some s.data ∨ (s.priv f).flagged = false

/-- The invariant of every run. -/
structure Inv (s : Notifier) : Prop where
  listNodup : s.list.Nodup
  listLt : ∀ f ∈ s.list, f < s.fresh
  restNodup : ∀ rest, s.tick = .flagging rest → rest.Nodup
  active : ∀ r, (s.reader r).pc ≠ .out → r ∈ s.active ∧ (s.reader r).file ∈ s.list
  queued : ∀ r, (s.reader r).pc.queued = true → r ∈ s.wait
  told : ∀ f ∈ s.list, (s.priv f).hasData = false →
    s.Loading f ∨ s.tick.Pending f ∨ s.UpToDate f
  awake : ∀ r, (s.reader r).pc.waiting = true → (s.reader r).running = false →
    s.hasData r = true → s.tick.Waking r (s.reader r).file

variable {s s' : Notifier}

theorem inv_init : init.Inv where
  listNodup := by simp [init]
  listLt := by simp [init]
  restNodup := by simp [init]
  active := by simp [init]
  queued := by simp [init, ReadPc.queued]
  told := by simp [init]
  awake := by simp [init, ReadPc.waiting]

theorem reader_setReader (r : ℕ) (x : Reader) (q : ℕ) :
    (s.setReader r x).reader q = if q = r then x else s.reader q := by
  simp [setReader, Function.update_apply]

theorem priv_setPriv (f : ℕ) (p : PrivData) (g : ℕ) :
    (s.setPriv f p).priv g = if g = f then p else s.priv g := by
  simp [setPriv, Function.update_apply]

/-- A thread changes. If it leaves the load of the counter, its file is up to date. -/
theorem Inv.setReader (h : s.Inv) {r : ℕ} {x : Reader}
    (hload : (s.reader r).pc = .load →
      (x.pc = .load ∧ x.file = (s.reader r).file) ∨ s.UpToDate (s.reader r).file)
    (hact : x.pc ≠ .out → r ∈ s.active ∧ x.file ∈ s.list)
    (hq : x.pc.queued = true → r ∈ s.wait)
    (haw : x.pc.waiting = true → x.running = false → (s.priv x.file).hasData = true →
      s.tick.Waking r x.file) : (s.setReader r x).Inv where
  listNodup := h.listNodup
  listLt := h.listLt
  restNodup := h.restNodup
  active q hpc := by
    rw [reader_setReader] at hpc ⊢
    split_ifs at hpc ⊢ with hqr
    · exact hqr ▸ hact hpc
    · exact h.active q hpc
  queued q hpc := by
    rw [reader_setReader] at hpc
    split_ifs at hpc with hqr
    · exact hqr ▸ hq hpc
    · exact h.queued q hpc
  told f hf h0 := by
    obtain ⟨q, hpc, rfl⟩ | hrest := h.told f hf h0
    · by_cases hqr : q = r
      · subst hqr
        obtain ⟨hpc', hfile⟩ | hup := hload hpc
        · exact .inl ⟨q, by simp [reader_setReader, hpc', hfile]⟩
        · exact .inr (.inr hup)
      · exact .inl ⟨q, by simp [reader_setReader, hqr, hpc]⟩
    · exact .inr hrest
  awake q hpc hrun hdata := by
    rw [hasData, reader_setReader] at hdata
    rw [reader_setReader] at hpc hrun ⊢
    split_ifs at hpc hrun hdata ⊢ with hqr
    · exact hqr ▸ haw hpc hrun hdata
    · exact h.awake q hpc hrun hdata

theorem Inv.setPriv (h : s.Inv) {f : ℕ} {p : PrivData}
    (htold : p.hasData = false →
      s.Loading f ∨ s.tick.Pending f ∨ p.lastRead = some s.data ∨ p.flagged = false)
    (haw : p.hasData = true → (s.priv f).hasData = true) : (s.setPriv f p).Inv where
  listNodup := h.listNodup
  listLt := h.listLt
  restNodup := h.restNodup
  active := h.active
  queued := h.queued
  told g hg h0 := by
    rw [UpToDate]
    rw [priv_setPriv] at h0 ⊢
    split_ifs at h0 ⊢ with hgf
    · exact hgf ▸ htold h0
    · exact h.told g hg h0
  awake q hpc hrun hdata := by
    refine h.awake q hpc hrun ?_
    rw [hasData, priv_setPriv] at hdata
    split_ifs at hdata with hqf
    · rw [hasData, ← haw hdata]
      exact congrArg (fun g => (s.priv g).hasData) hqf
    · exact hdata

theorem Inv.goto (h : s.Inv) {r : ℕ} {pc : ReadPc} (hne : (s.reader r).pc ≠ .load)
    (hout : (s.reader r).pc ≠ .out) (hq : pc.queued = true → r ∈ s.wait)
    (haw : pc.waiting = true → (s.reader r).running = false → s.hasData r = true →
      s.tick.Waking r (s.reader r).file) : (s.goto r pc).Inv :=
  h.setReader (fun hl => absurd hl hne) (fun _ => h.active r hout) hq haw

theorem Inv.signal (h : s.Inv) (r : ℕ) : (s.signal r).Inv :=
  h.setReader (fun hl => .inl ⟨hl, rfl⟩) (fun hout => h.active r hout) (fun hq => h.queued r hq)
    (fun _ hrun => by simp at hrun)

theorem Inv.addWait (h : s.Inv) (r : ℕ) : ({ s with wait := r :: s.wait } : Notifier).Inv :=
  { h with queued := fun q hpc => List.mem_cons_of_mem _ (h.queued q hpc) }

theorem Inv.finish (h : s.Inv) {r : ℕ} (hpc : (s.reader r).pc = .finish) :
    ({ s.setReader r { s.reader r with running := true, pc := .out } with
      wait := s.wait.erase r, active := s.active.erase r } : Notifier).Inv := by
  have h₁ : (s.setReader r { s.reader r with running := true, pc := .out }).Inv :=
    h.setReader (by simp [hpc]) (by simp) (by simp [ReadPc.queued]) (by simp [ReadPc.waiting])
  have hne : ∀ q, ((s.setReader r { s.reader r with running := true, pc := .out }).reader q).pc ≠
      .out → q ≠ r := by
    rintro q hq rfl
    simp [reader_setReader] at hq
  refine { h₁ with active := fun q hq => ?_, queued := fun q hq => ?_ }
  · have hqr := hne q hq
    exact ⟨(List.mem_erase_of_ne hqr).2 (h₁.active q hq).1, (h₁.active q hq).2⟩
  · have hqr : q ≠ r := hne q fun hout => by
      have : ReadPc.queued .out = true := hout ▸ hq
      simp [ReadPc.queued] at this
    exact (List.mem_erase_of_ne hqr).2 (h₁.queued q hq)

/-- **Every access of `reg_read` keeps the invariant.** -/
theorem Inv.regRead (h : s.Inv) {r : ℕ} {signal : Bool} (hs : s.regRead r signal = some s') :
    s'.Inv := by
  unfold Notifier.regRead at hs
  cases hpc : (s.reader r).pc with simp only [hpc] at hs
  | out => cases hs
  | test =>
    cases hs
    refine h.goto (by simp [hpc]) (by simp [hpc]) ?_ ?_ <;> split_ifs <;>
      simp [ReadPc.queued, ReadPc.waiting]
  | enqueue =>
    split_ifs at hs
    cases hs
    exact (h.addWait r).goto (by simp [hpc]) (by simp [hpc]) (by simp) (by simp [ReadPc.waiting])
  | setState =>
    cases hs
    exact h.setReader (by simp [hpc]) (fun _ => h.active r (by simp [hpc]))
      (fun _ => h.queued r (by simp [hpc, ReadPc.queued])) (by simp [ReadPc.waiting])
  | check =>
    cases hs
    refine h.goto (by simp [hpc]) (by simp [hpc])
      (fun _ => h.queued r (by simp [hpc, ReadPc.queued])) fun hw _ hdata => ?_
    -- the thread has just seen that there is no data
    rw [hasData] at hdata
    simp [hdata, ReadPc.waiting] at hw
  | retry | schedule =>
    cases hs
    exact h.goto (by simp [hpc]) (by simp [hpc])
      (fun _ => h.queued r (by simp [hpc, ReadPc.queued]))
      fun _ hrun hdata => h.awake r (by simp [hpc, ReadPc.waiting]) hrun hdata
  | blocked =>
    split_ifs at hs
    cases hs
    exact h.goto (by simp [hpc]) (by simp [hpc])
      (fun _ => h.queued r (by simp [hpc, ReadPc.queued])) (by simp [ReadPc.waiting])
  | clear =>
    cases hs
    have h₁ : (s.goto r .load).Inv :=
      h.goto (by simp [hpc]) (by simp [hpc]) (by simp [ReadPc.queued]) (by simp [ReadPc.waiting])
    refine h₁.setPriv (fun _ => .inl ⟨r, ?_⟩) (by simp)
    simp [Notifier.goto, reader_setReader]
  | load =>
    cases hs
    have h₁ : (s.setPriv (s.reader r).file
        { s.priv (s.reader r).file with lastRead := some s.data }).Inv :=
      h.setPriv (fun _ => .inr (.inr (.inl rfl))) id
    refine h₁.setReader (fun _ => .inr (.inl ?_)) (fun _ => h.active r (by simp [hpc]))
      (by simp [ReadPc.queued]) (by simp [ReadPc.waiting])
    rw [priv_setPriv]
    exact congrArg PrivData.lastRead (if_pos rfl)
  | finish =>
    split_ifs at hs
    cases hs
    exact h.finish hpc

theorem Inv.flag (h : s.Inv) {f : ℕ} {rest : List ℕ} (ht : s.tick = .flagging (f :: rest)) :
    ({ s.setPriv f { s.priv f with hasData := true, flagged := true } with
      tick := .flagging rest } : Notifier).Inv := by
  have hnd : (f :: rest).Nodup := h.restNodup _ ht
  refine ⟨h.listNodup, h.listLt, ?_, h.active, h.queued, fun g hg h0 => ?_,
    fun q hpc hrun hdata => ?_⟩
  · rintro _ ⟨⟩
    exact hnd.of_cons
  · rw [UpToDate]
    dsimp only at h0 hg ⊢
    rw [priv_setPriv] at h0 ⊢
    split_ifs at h0 ⊢ with hgf
    obtain hload | hpend | hup := h.told g hg h0
    · exact .inl hload
    · rw [ht] at hpend
      exact .inr (.inl ((List.mem_cons.1 hpend).resolve_left hgf))
    · exact .inr (.inr hup)
  · show (s.reader q).file ∉ rest
    by_cases hqf : (s.reader q).file = f
    · exact hqf ▸ (List.nodup_cons.1 hnd).1
    · have hold : s.hasData q = true := by
        have hd : ((s.setPriv f { s.priv f with hasData := true, flagged := true }).priv
          (s.reader q).file).hasData = true := hdata
        rwa [priv_setPriv, if_neg hqf] at hd
      have := h.awake q hpc hrun hold
      rw [ht] at this
      exact fun hmem => this (List.mem_cons_of_mem _ hmem)

theorem Inv.setTick (h : s.Inv) {t : TickPc} (hrest : ∀ rest, t = .flagging rest → rest.Nodup)
    (hpend : ∀ f ∈ s.list, s.tick.Pending f → t.Pending f)
    (hwake : ∀ r, r ∈ s.wait → (s.reader r).running = false →
      s.tick.Waking r (s.reader r).file → t.Waking r (s.reader r).file) :
    ({ s with tick := t } : Notifier).Inv where
  listNodup := h.listNodup
  listLt := h.listLt
  restNodup := hrest
  active := h.active
  queued := h.queued
  told f hf h0 := (h.told f hf h0).imp_right (Or.imp_left (hpend f hf))
  awake q hpc hrun hdata := by
    have hq : (s.reader q).pc.queued = true := by
      cases hq : (s.reader q).pc <;> simp_all [ReadPc.waiting, ReadPc.queued]
    exact hwake q (h.queued q hq) hrun (h.awake q hpc hrun hdata)

/-- `gld.data++`: from here on every file is about to be told. -/
theorem Inv.count (h : s.Inv) (ht : s.tick = .idle) :
    ({ s with data := s.data + 1, tick := .counted } : Notifier).Inv where
  listNodup := h.listNodup
  listLt := h.listLt
  restNodup := by simp
  active := h.active
  queued := h.queued
  told _ _ _ := .inr (.inl trivial)
  awake q hpc hrun hdata := by
    have := h.awake q hpc hrun hdata
    rw [ht] at this
    exact this.elim

/-- **Every access of `timer_func` keeps the invariant.** -/
theorem Inv.timerFunc (h : s.Inv) : s.timerFunc.Inv := by
  unfold Notifier.timerFunc
  split
  · next ht => exact h.count ht
  · next ht =>
    refine h.setTick (fun rest hr => ?_) (fun f hf _ => hf) fun r _ _ hw => ?_
    · cases hr
      exact h.listNodup
    · rw [ht] at hw
      exact hw.elim
  · next ht => exact h.flag ht
  · next ht =>
    refine h.setTick (by simp) (fun f _ hp => ?_) fun r _ _ hw => trivial
    rw [ht] at hp
    exact absurd hp List.not_mem_nil
  · next ht =>
    refine h.setTick (by simp) (fun f _ hp => ?_) fun r hr _ _ => hr
    rw [ht] at hp
    exact hp.elim
  · next r rest ht =>
    have h₁ : (s.setReader r { s.reader r with running := true }).Inv := h.signal r
    refine h₁.setTick (by simp) (fun f _ hp => ?_) fun q _ hrun hw => ?_
    · have hp' : s.tick.Pending f := hp
      rw [ht] at hp'
      exact hp'.elim
    · have hw' : s.tick.Waking q _ := hw
      rw [ht] at hw'
      refine (List.mem_cons.1 hw').resolve_left fun hqr => ?_
      simp [reader_setReader, hqr] at hrun
  · next ht =>
    refine h.setTick (by simp) (fun f _ hp => ?_) fun r _ _ hw => ?_
    · rw [ht] at hp
      exact hp.elim
    · rw [ht] at hw
      exact absurd hw List.not_mem_nil

theorem Inv.regOpen (h : s.Inv) (hs : s.regOpen = some s') : s'.Inv := by
  unfold Notifier.regOpen at hs
  split_ifs at hs with hlock
  cases hs
  have hfresh : s.fresh ∉ s.list := fun hmem => Nat.lt_irrefl _ (h.listLt _ hmem)
  have h₁ : (s.setPriv s.fresh ⟨false, false, none⟩).Inv :=
    h.setPriv (fun _ => .inr (.inr (.inr rfl))) (by simp)
  refine ⟨h.listNodup.cons hfresh, fun g hg => ?_, h.restNodup, fun r hpc => ?_, h.queued,
    fun g hg h0 => ?_, h₁.awake⟩
  · obtain rfl | hg := List.mem_cons.1 hg
    · exact Nat.lt_succ_self _
    · exact Nat.lt_succ_of_lt (h.listLt g hg)
  · exact ⟨(h.active r hpc).1, List.mem_cons_of_mem _ (h.active r hpc).2⟩
  · obtain rfl | hg := List.mem_cons.1 hg
    · exact .inr (.inr (.inr (by simp [priv_setPriv])))
    · exact h₁.told g hg h0

theorem Inv.release (h : s.Inv) {f : ℕ} (hs : s.release f = some s') : s'.Inv := by
  unfold Notifier.release at hs
  split_ifs at hs with hguard
  cases hs
  obtain ⟨-, -, hreaders⟩ := hguard
  refine ⟨h.listNodup.erase f, fun g hg => h.listLt g (List.mem_of_mem_erase hg), h.restNodup,
    fun r hpc => ?_, h.queued, fun g hg => h.told g (List.mem_of_mem_erase hg), h.awake⟩
  obtain ⟨hact, hfile⟩ := h.active r hpc
  exact ⟨hact, (List.mem_erase_of_ne (hreaders r hact)).2 hfile⟩

theorem Inv.start (h : s.Inv) {r f : ℕ} {nonblock : Bool} (hs : s.start r f nonblock = some s') :
    s'.Inv := by
  unfold Notifier.start at hs
  split_ifs at hs with hguard
  cases hs
  have h₁ : ({ s with active := r :: s.active } : Notifier).Inv :=
    { h with active := fun q hq => ⟨List.mem_cons_of_mem _ (h.active q hq).1, (h.active q hq).2⟩ }
  exact h₁.setReader (by simp [hguard.1]) (fun _ => ⟨List.mem_cons_self, hguard.2⟩)
    (by simp [ReadPc.queued]) (by simp [ReadPc.waiting])

theorem Inv.step {a : NotifyAct} (h : s.Inv) (hs : notifyStep s a = some s') : s'.Inv := by
  cases a with
  | regOpen => exact h.regOpen hs
  | release f => exact h.release hs
  | start r f nonblock => exact h.start hs
  | regRead r signal => exact h.regRead hs
  | signal r =>
    cases hs
    exact h.signal r
  | timerFunc =>
    cases hs
    exact h.timerFunc

end Notifier

theorem inv_of_exec {l : List NotifyAct} {s : Notifier}
    (h : Lts.exec notifyStep .init l = some s) : s.Inv :=
  Lts.exec_inv (fun _ _ _ hi hs => hi.step hs) Notifier.inv_init h

/-- **No lost tick, no lost wake-up.** An open file without data, which nobody is about to read the
counter for and which no tick is about to flag, was read after the last tick or never flagged. A
reader that is blocked while its file has data is about to be woken. -/
theorem no_lost_tick_or_wakeup (l : List NotifyAct) (s : Notifier)
    (h : Lts.exec notifyStep .init l = some s) :
    (∀ f ∈ s.list, (s.priv f).hasData = false → ¬ s.Loading f → ¬ s.tick.Pending f →
      (s.priv f).lastRead = some s.data ∨ (s.priv f).flagged = false) ∧
    ∀ r, (s.reader r).pc = .blocked → (s.reader r).running = false → s.hasData r = true →
      s.tick.Waking r (s.reader r).file := by
  have hs : s.Inv := inv_of_exec h
  constructor
  · intro f hf h0 hload hpend
    exact ((hs.told f hf h0).resolve_left hload).resolve_left hpend
  · intro r hpc hrun hdata
    exact hs.awake r (by rw [hpc]; rfl) hrun hdata

/-- Two readers of one file sleep, a tick flags it and wakes one of them, and this one reads. -/
def twoReaders : List NotifyAct :=
  [.regOpen, .start 0 0 false, .start 1 0 false] ++
    [0, 0, 0, 0, 0, 0, 1, 1, 1, 1, 1, 1].map (fun r => .regRead r false) ++
    List.replicate 6 .timerFunc

theorem no_lost_wakeup_twoReaders :
    ∃ s, Lts.exec notifyStep .init twoReaders = some s ∧ s.hasData 0 = true ∧
      s.tick.Waking 0 (s.reader 0).file := by
  have hrun : (Lts.exec notifyStep .init twoReaders).map
      (fun s => ((s.reader 0).pc, (s.reader 0).running, s.hasData 0)) =
      some (.blocked, false, true) := by decide
  obtain ⟨s, hs, hobs⟩ := Option.map_eq_some_iff.1 hrun
  simp only [Prod.mk.injEq] at hobs
  obtain ⟨hpc, hrunning, hdata⟩ := hobs
  exact ⟨s, hs, hdata, (no_lost_tick_or_wakeup twoReaders s hs).2 0 hpc hrunning hdata⟩

-- the reader that was woken reads the tick
example : (Lts.exec notifyStep .init
    (twoReaders ++ [1, 1, 1, 1, 1].map (.regRead · false))).map
      (fun s => ((s.priv 0).hasData, (s.priv 0).lastRead, s.data)) = some (false, some 1, 1) := by
  decide +kernel

end LddExample.ListHead
