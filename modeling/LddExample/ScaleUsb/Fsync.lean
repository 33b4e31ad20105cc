import LddExample.ScaleUsb.TxConserve
import Mathlib.Data.List.Basic

/-!
# `scale_fsync` as a barrier

Any number of calls of `scale_fsync` run beside the transmit side.

* `FsyncCall.seen` and `FsyncCall.owed` are history: whether `tx_reqs_active` was empty at some
  moment of the call, and what was on it at the call and has not completed since.
* `Barrier`: what the call is for.
* `TestsFree`: the test of `scale_fsync` finds a free request. It reads `tx_reqs` where the wait
  reads `tx_reqs_active`.
* **`fsync_barrier`**: in a run where every test finds a free request, a call that is not
  interrupted is a barrier.
-/

namespace LddExample.ScaleUsb

open List

/-- A running call of `scale_fsync`. -/
structure FsyncCall where
  /-- in `wait_event_interruptible` -/
  waiting : Bool
  /-- history: `tx_reqs_active` was empty at some moment of the call -/
  seen : Bool
  /-- history: the requests on `tx_reqs_active` at the call that have not completed since -/
  owed : List ℕ
deriving DecidableEq

/-- **The data sent before the call is out.** -/
def FsyncCall.Barrier (c : FsyncCall) : Prop :=
  c.seen = true ∧ c.owed = []

instance (c : FsyncCall) : Decidable c.Barrier :=
  inferInstanceAs (Decidable (_ ∧ _))

/-- The history after the step `a` of the transmit side to `t`. -/
def FsyncCall.observe (c : FsyncCall) (a : TxAct) (t : Tx) : FsyncCall :=
  { c with
    seen := c.seen || t.txReqsActive.isEmpty
    owed := match a with
      | .complete r => c.owed.filter (· ≠ r)
      | _ => c.owed }

/-- The transmit side with the calls of `scale_fsync`, by thread. -/
structure FsyncSys where
  tx : Tx
  calls : ℕ → Option FsyncCall
  /-- history: the calls that returned 0, and whether a signal ended their wait -/
  returned : List (FsyncCall × Bool)

namespace FsyncSys

/-- After `scale_bind` no thread is in `scale_fsync`. -/
def bind (enabled : Bool) : FsyncSys :=
  ⟨Tx.bind enabled, fun _ => none, []⟩

/-- The call of thread `i` moves on. -/
def set (s : FsyncSys) (i : ℕ) (c : Option FsyncCall) : FsyncSys :=
  { s with calls := fun j => if j = i then c else s.calls j }

/-- The call of thread `i` returns 0. -/
def ret (s : FsyncSys) (i : ℕ) (c : FsyncCall) (interrupted : Bool) : FsyncSys :=
  { s.set i none with returned := s.returned ++ [(c, interrupted)] }

/-- The test of `scale_fsync`: `tx_list_empty` is read from `tx_reqs`. -/
def test (s : FsyncSys) (i : ℕ) (c : FsyncCall) : FsyncSys :=
  let txListEmpty := s.tx.txReqs = []
  if ¬txListEmpty then s.set i (some { c with waiting := true }) else s.ret i c false

end FsyncSys

/-- What the transmit side and the threads in `scale_fsync` do. -/
inductive FsyncAct
  /-- a step of the transmit side -/
  | tx (a : TxAct)
  /-- thread `i` calls `scale_fsync` -/
  | fsync (i : ℕ)
  /-- the test between `spin_lock_irqsave` and `spin_unlock_irqrestore` -/
  | test (i : ℕ)
  /-- the wait ends, with `tx_reqs_active` empty or by a signal -/
  | wake (i : ℕ) (signal : Bool)

/-- **One step.** -/
def fsyncStep (maxpacket : ℕ) (s : FsyncSys) : FsyncAct → Option FsyncSys
  | .tx a =>
    match txStep maxpacket s.tx a with
    | some t => some { s with tx := t, calls := fun i => (s.calls i).map (·.observe a t) }
    | none => none
  | .fsync i =>
    match s.calls i with
    | none => some (s.set i (some ⟨false, s.tx.txReqsActive.isEmpty, s.tx.txReqsActive⟩))
    | some _ => none
  | .test i =>
    match s.calls i with
    | some c => if c.waiting = false ∧ s.tx.pc.locked = false then some (s.test i c) else none
    | none => none
  | .wake i signal =>
    match s.calls i with
    | some c =>
      if c.waiting = true ∧ (signal = true ∨ s.tx.txReqsActive = []) then some (s.ret i c signal)
      else none
    | none => none

/-- The test finds a free request. -/
def TestsFree (s : FsyncSys) : FsyncAct → Prop
  | .test _ => s.tx.txReqs ≠ []
  | .tx _ | .fsync _ | .wake _ _ => True

instance : ∀ s a, Decidable (TestsFree s a)
  | s, .test _ => inferInstanceAs (Decidable (s.tx.txReqs ≠ []))
  | _, .tx _ | _, .fsync _ | _, .wake _ _ => isTrue trivial

/-! ## The invariant -/

/-- What was sent before the call and is not completed is still on `tx_reqs_active`. -/
structure FsyncCall.Tracks (c : FsyncCall) (t : Tx) : Prop where
  seen : t.txReqsActive = [] → c.seen = true
  owed : ∀ r ∈ c.owed, r ∈ t.txReqsActive

theorem FsyncCall.tracks_start (t : Tx) :
    FsyncCall.Tracks ⟨false, t.txReqsActive.isEmpty, t.txReqsActive⟩ t where
  seen := List.isEmpty_iff.2
  owed := fun _ hr => hr

/-- Only a completion takes a request off `tx_reqs_active`. -/
theorem Tx.Controlled.mem_active_step {maxpacket : ℕ} {t t' : Tx} {a : TxAct} (h : t.Controlled)
    (hs : TxTrans maxpacket t a t') {q : ℕ} (hq : q ∈ t.txReqsActive)
    (hc : ∀ r, a = .complete r → q ≠ r) : q ∈ t'.txReqsActive := by
  cases hs with
  | write => simp only [Tx.write, Tx.ret]; split_ifs <;> exact hq
  | next =>
    unfold Tx.writeNext
    split
    · exact hq
    · split <;> exact hq
  | copyFromUser => unfold Tx.writeCopy; split_ifs <;> exact hq
  | copied => unfold Tx.writeCopied; split_ifs <;> exact hq
  | listAdd => exact mem_cons_of_mem _ hq
  | complete => exact (mem_erase_of_ne (hc _ rfl)).2 hq
  | drain hreset | drainAgain hreset =>
    -- after `usb_ep_disable` there is nothing left to drain
    rw [h.active_nil (by rw [hreset]; rfl)] at hq
    cases hq
  | wake | putBack | queueErr | queueOk | disable | disabled | setReset | enable | enableNull
  | enableTest => exact hq

theorem FsyncCall.Tracks.observe {maxpacket : ℕ} {t t' : Tx} {a : TxAct} {c : FsyncCall}
    (hc : c.Tracks t) (h : t.Controlled) (hs : TxTrans maxpacket t a t') :
    (c.observe a t').Tracks t' where
  seen := fun hnil => by simp [FsyncCall.observe, hnil]
  owed := fun q hq => by
    have hmem : q ∈ c.owed ∧ ∀ r, a = .complete r → q ≠ r := by
      simp only [FsyncCall.observe] at hq
      split at hq
      next r =>
        obtain ⟨hq, hne⟩ := mem_filter.1 hq
        refine ⟨hq, fun r' hr' => ?_⟩
        cases hr'
        exact of_decide_eq_true hne
      next hne => exact ⟨hq, fun r hr => absurd hr (hne r)⟩
    exact h.mem_active_step hs (hc.owed q hmem.1) hmem.2

namespace FsyncSys

/-- The invariant of every run. -/
structure Inv (s : FsyncSys) : Prop where
  tx : s.tx.Controlled
  calls : ∀ i c, s.calls i = some c → c.Tracks s.tx
  returned : ∀ p ∈ s.returned, p.2 = false → p.1.Barrier

variable {maxpacket : ℕ} {s s' : FsyncSys} {i : ℕ} {c : FsyncCall}

theorem inv_bind (en : Bool) : (bind en).Inv where
  tx := Tx.controlled_bind en
  calls := fun _ _ h => nomatch h
  returned := fun _ h => nomatch h

theorem Inv.set (h : s.Inv) {c : Option FsyncCall} (hc : ∀ c', c = some c' → c'.Tracks s.tx) :
    (s.set i c).Inv where
  tx := h.tx
  calls := fun j c' hj => by
    simp only [FsyncSys.set] at hj
    split_ifs at hj
    · exact hc c' hj
    · exact h.calls j c' hj
  returned := h.returned

theorem Inv.ret (h : s.Inv) {interrupted : Bool} (hc : interrupted = false → c.Barrier) :
    (s.ret i c interrupted).Inv where
  tx := h.tx
  calls := (h.set (i := i) (c := none) fun _ hc => nomatch hc).calls
  returned := fun p hp => by
    obtain hp | hp := mem_append.1 hp
    · exact h.returned p hp
    · rw [mem_singleton.1 hp]
      exact hc

/-- **The invariant is kept by every step whose test finds a free request.** -/
theorem Inv.step {a : FsyncAct} (h : s.Inv) (hC : TestsFree s a)
    (hs : fsyncStep maxpacket s a = some s') : s'.Inv := by
  cases a with simp only [fsyncStep] at hs
  | tx a =>
    split at hs
    next t ht =>
      cases hs
      have htrans := txTrans_of_txStep ht
      refine ⟨h.tx.step htrans, fun i c hc => ?_, h.returned⟩
      obtain ⟨c₀, hc₀, rfl⟩ := Option.map_eq_some_iff.1 hc
      exact (h.calls i c₀ hc₀).observe h.tx htrans
    next => cases hs
  | fsync i =>
    split at hs
    next =>
      cases hs
      refine h.set fun c hc => ?_
      cases hc
      exact FsyncCall.tracks_start s.tx
    next => cases hs
  | test i =>
    split at hs
    next c hc =>
      split_ifs at hs
      cases hs
      have hfree : ¬s.tx.txReqs = [] := hC
      rw [test, if_pos hfree]
      refine h.set fun c' hc' => ?_
      cases hc'
      have := h.calls i c hc
      exact ⟨this.seen, this.owed⟩
    next => cases hs
  | wake i signal =>
    split at hs
    next c hc =>
      split_ifs at hs with hguard
      cases hs
      refine h.ret fun hsignal => ?_
      have hnil : s.tx.txReqsActive = [] := hguard.2.resolve_left (by rw [hsignal]; decide)
      have htracks := h.calls i c hc
      refine ⟨htracks.seen hnil, eq_nil_iff_forall_not_mem.2 fun r hr => ?_⟩
      have hr := htracks.owed r hr
      rw [hnil] at hr
      cases hr
    next => cases hs

end FsyncSys

/-! ## Whole runs -/

/-- **In a run where every test finds a free request, a call that is not interrupted returns after
a moment at which `tx_reqs_active` was empty, and all that was on it at the call is completed.** -/
theorem fsync_barrier (maxpacket : ℕ) (en : Bool) (acts : List FsyncAct) (s : FsyncSys)
    (hC : Lts.Meets (fsyncStep maxpacket) TestsFree (FsyncSys.bind en) acts)
    (h : Lts.exec (fsyncStep maxpacket) (FsyncSys.bind en) acts = some s) :
    ∀ c, (c, false) ∈ s.returned → c.Barrier := by
  have hs : s.Inv := Lts.exec_induction (fun _ _ _ hi hc hs => hi.step hc hs)
    (FsyncSys.inv_bind en) hC h
  intro c hc
  exact hs.returned (c, false) hc rfl

/-- `n` writes of one byte. -/
def writeBytes (n : ℕ) : List FsyncAct :=
  (replicate n [FsyncAct.tx (.write 0 [7] false), .tx .next, .tx (.copyFromUser false), .tx .copied,
    .tx (.queue false), .tx .listAdd, .tx .next]).flatten

/-- A call that waits for the request of a write. -/
def fsyncRun : List FsyncAct :=
  writeBytes 1 ++ [.fsync 0, .test 0, .tx (.complete 9), .wake 0 false]

theorem fsync_barrier_fsyncRun :
    ∃ s, Lts.exec (fsyncStep 64) (FsyncSys.bind true) fsyncRun = some s ∧
      s.returned = [(⟨true, true, []⟩, false)] ∧ ∀ c, (c, false) ∈ s.returned → c.Barrier :=
  ⟨_, rfl, rfl, fsync_barrier 64 true fsyncRun _ (by decide) rfl⟩

/-- **With all ten requests on the way the call returns at once.** -/
theorem fsync_returns_early :
    ∃ s, Lts.exec (fsyncStep 64) (FsyncSys.bind true) (writeBytes 10 ++ [.fsync 0, .test 0]) =
        some s ∧ s.tx.txReqsActive = [0, 1, 2, 3, 4, 5, 6, 7, 8, 9] ∧
      ¬∀ c, (c, false) ∈ s.returned → c.Barrier := by
  have hrun : (Lts.exec (fsyncStep 64) (FsyncSys.bind true)
      (writeBytes 10 ++ [.fsync 0, .test 0])).map (fun s => (s.tx.txReqsActive, s.returned)) =
        some ([0, 1, 2, 3, 4, 5, 6, 7, 8, 9],
          [(⟨false, false, [0, 1, 2, 3, 4, 5, 6, 7, 8, 9]⟩, false)]) := by
    decide +kernel
  obtain ⟨s, hs, hret⟩ := Option.map_eq_some_iff.1 hrun
  rw [Prod.mk.injEq] at hret
  refine ⟨s, hs, hret.1, fun h => ?_⟩
  have hbarrier := h ⟨false, false, [0, 1, 2, 3, 4, 5, 6, 7, 8, 9]⟩
    (by rw [hret.2]; exact mem_singleton.2 rfl)
  exact absurd hbarrier (by decide)

end LddExample.ScaleUsb
