import LddExample.ScaleUsb.Endpoints
import LddExample.ScaleUsb.RxConserve
import LddExample.ScaleUsb.TxConserve
import Mathlib.Data.List.Perm.Basic

/-!
# The idle pool after `scale_soft_reset`

`softReset` is a whole call of `scale_soft_reset`, started in any state of the two sides. The two
calls of `usb_ep_disable` complete some of the queued requests and leave the others.

* `resetLists`: the call up to the endpoints it enables again, `enableTests`: its last loop.
* `Restored`: the three lists are empty, there is no current request, and each request that no
  running read or write holds is once on its free list.
* **`softReset_not_restored`**: no call of `scale_soft_reset` returns, since the last loop reads
  through `testin_ep[3]`, which `scale_bind` leaves null.
* `Rx.drainLoop_of_active`: the loop over `rx_reqs_active` takes its requests from `rx_buffers`, so
  it does not end once it is entered.
* **`lists_restored_iff`**: what the call does up to there restores the pool exactly when
  `rx_buffers` is empty and `usb_ep_disable` completes every request of `rx_reqs_active` and the one
  that a poll is about to put there, none of them with data.
-/

namespace LddExample.ScaleUsb

open List

/-! ## The call -/

/-- `ESHUTDOWN` -/
def eshutdown : ℤ := 108

/-- A completion by `usb_ep_disable(dev->out_ep)`. -/
structure Completion where
  r : ℕ
  status : ℤ
  payload : List UInt8

/-- A completion that puts the request back on the free list. -/
def Completion.NoData (c : Completion) : Prop :=
  c.status ≠ 0 ∨ c.payload = []

namespace Rx

/-- `usb_ep_disable` completes requests, one after the other. -/
def completeAll (s : Rx) (done : List Completion) : Rx :=
  done.foldl (fun s c => s.complete c.r c.status c.payload) s

/-- `scale_soft_reset` from `if (dev->current_rx_req != NULL)` to `dev->reset_scale = 1` -/
def clearCurrent (s : Rx) : Rx :=
  let s := s.resetCurrent
  { s with currentRx := ⟨s.currentRx.req, 0, none⟩, resetScale := true, reset := .draining }

/-- The loop over `rx_reqs_active`, for `n` turns at most. When the list head of `rx_buffers` was
taken for a request, `rx_reqs_active` stays as it is and the loop does not end. -/
def drainLoop : ℕ → Rx → Option Rx
  | 0, _ => none
  | n + 1, s =>
    let s := s.resetDrain
    if s.reset = .draining then drainLoop n s else if s.reset = .enabling then some s else none

end Rx

namespace Tx

/-- `usb_ep_disable` completes requests, one after the other. -/
def completeAll (t : Tx) (done : List ℕ) : Tx :=
  done.foldl txComplete t

/-- A loop over `tx_reqs_active`, for `n` turns at most. -/
def drainLoop (next : TxResetPc) : ℕ → Tx → Option Tx
  | 0, _ => none
  | n + 1, t =>
    let t := t.resetDrain next
    if t.reset = next then some t else drainLoop next n t

end Tx

/-- `scale_soft_reset` up to `usb_ep_enable(dev->out_ep, dev->out)`, with at most `n` turns of each
loop; `doneIn` and `doneOut` are completed by `usb_ep_disable`, and the flags are the failures of
`usb_ep_enable`. -/
def resetLists (n : ℕ) (doneIn : List ℕ) (doneOut : List Completion) (inError outError : Bool)
    (s : Rx) (t : Tx) : Option (Rx × Tx) :=
  let t := { t.completeAll doneIn with enabled := false }
  let s := { s.completeAll doneOut with enabled := false }
  let s := s.clearCurrent
  let t := { t with resetScale := true, reset := .draining }
  (t.drainLoop .drainingAgain n).bind fun t =>
  (s.drainLoop n).bind fun s =>
  (t.drainLoop .enabling n).bind fun t =>
    some ({ s with enabled := !outError, reset := .enablingTest 0 },
      { t with enabled := !inError, reset := .enablingTest 0 })

/-- `n` turns of the last loop of `scale_soft_reset`, from index `i` on, without a null pointer.
`usb_ep_enable` reads `ep->ops`; its errors are only logged. -/
def enableTests (dev : BindDev) : ℕ → ℕ → Bool
  | 0, _ => true
  | n + 1, i =>
    if dev.testinEp i = none ∨ dev.testoutEp i = none then false else enableTests dev n (i + 1)

/-- How a call of `scale_soft_reset` ends. -/
inductive ResetResult
  | ret (s : Rx) (t : Tx)
  /-- the turns of a loop are used up -/
  | running
  /-- a null pointer was dereferenced -/
  | oops (s : Rx) (t : Tx)

/-- `scale_soft_reset` -/
def softReset (dev : BindDev) (n : ℕ) (doneIn : List ℕ) (doneOut : List Completion)
    (inError outError : Bool) (s : Rx) (t : Tx) : ResetResult :=
  match resetLists n doneIn doneOut inError outError s t with
  | none => .running
  | some (s, t) =>
    if enableTests dev 4 0 then .ret { s with reset := .idle } { t with reset := .idle }
    else .oops { s with reset := .nullEp } { t with reset := .nullEp }

/-- **The pool is idle again**: `s'` and `t'` are the two sides after a reset of `s` and `t`. -/
structure Restored (s : Rx) (t : Tx) (s' : Rx) (t' : Tx) : Prop where
  rxReqsActive : s'.rxReqsActive = []
  rxBuffers : s'.rxBuffers = []
  txReqsActive : t'.txReqsActive = []
  currentRxReq : s'.currentRx.req = none
  currentRxBytes : s'.currentRx.bytes = 0
  rxReqs : ∀ r < qlen, s.pc.heldReq ≠ some r →
    (∀ len nonblock, s.pc ≠ .queued r (.read len nonblock)) → s'.rxReqs.count r = 1
  txReqs : ∀ r < qlen, t.pc.heldReq ≠ some r → t.pc.justQueued ≠ some r → t'.txReqs.count r = 1

/-! ## The last loop -/

theorem enableTests_of_null {dev : BindDev} {n i j : ℕ} (hij : i ≤ j) (hjn : j < i + n)
    (hnull : dev.testinEp j = none) : enableTests dev n i = false := by
  induction n generalizing i with
  | zero => omega
  | succ n ih =>
    rw [enableTests]
    split_ifs with h
    · rfl
    · refine ih ?_ (by omega)
      have hne : i ≠ j := by
        rintro rfl
        exact h (.inl hnull)
      omega

theorem softReset_ne_ret {f : Faults} {dev : BindDev}
    (hbind : BindDev.init.scaleBind f qlen = .ret dev 0) {n : ℕ} {doneIn : List ℕ}
    {doneOut : List Completion} {inError outError : Bool} {s s' : Rx} {t t' : Tx} :
    softReset dev n doneIn doneOut inError outError s t ≠ .ret s' t' := by
  intro h
  have hnull : dev.testinEp 3 = none := (BindDev.unset_of_scaleBind hbind 3 (Nat.le_refl 3)).1
  have htests : enableTests dev 4 0 = false :=
    enableTests_of_null (Nat.zero_le 3) (by decide) hnull
  rw [softReset] at h
  split at h
  next => cases h
  next => simp [htests] at h

/-- **A soft reset never returns**, whatever it finds on the lists. -/
theorem softReset_not_restored (f : Faults) (dev : BindDev)
    (hbind : BindDev.init.scaleBind f qlen = .ret dev 0) (doneIn : List ℕ)
    (doneOut : List Completion) (inError outError : Bool) (s : Rx) (t : Tx) :
    ¬∃ n s' t', softReset dev n doneIn doneOut inError outError s t = .ret s' t' ∧
      Restored s t s' t' := by
  rintro ⟨n, s', t', h, -⟩
  exact softReset_ne_ret hbind h

theorem softReset_not_restored_plenty :
    ∃ dev, BindDev.init.scaleBind (plenty fun _ => false) qlen = .ret dev 0 ∧
      ¬∃ n s' t', softReset dev n [] [] false false (Rx.bind true) (Tx.bind true) = .ret s' t' ∧
        Restored (Rx.bind true) (Tx.bind true) s' t' :=
  ⟨_, rfl, softReset_not_restored (plenty fun _ => false) _ rfl [] [] false false _ _⟩

/-- **A soft reset of a device without any transfer dereferences `testin_ep[3]`.** -/
theorem softReset_oops :
    ∃ dev s' t', BindDev.init.scaleBind (plenty fun _ => false) qlen = .ret dev 0 ∧
      softReset dev 1 [] [] false false (Rx.bind true) (Tx.bind true) = .oops s' t' ∧
      ¬∃ n s' t', softReset dev n [] [] false false (Rx.bind true) (Tx.bind true) = .ret s' t' ∧
        Restored (Rx.bind true) (Tx.bind true) s' t' := by
  refine ⟨_, _, _, rfl, rfl, ?_⟩
  rintro ⟨n, s', t', h, -⟩
  exact softReset_ne_ret (f := plenty fun _ => false) rfl h

/-! ## `usb_ep_disable` -/

namespace Rx

variable {s : Rx} {q r : ℕ} {status : ℤ} {payload : List UInt8} {done : List Completion}

theorem mem_rxBuffers_complete_of_ne (h : q ≠ r) :
    q ∈ (s.complete r status payload).rxBuffers ↔ q ∈ s.rxBuffers := by
  simp only [complete, rxComplete]
  split_ifs <;> simp [listDelInit, h, mem_erase_of_ne h]

theorem mem_rxBuffers_complete_self (h : ¬(status ≠ 0 ∨ payload = [])) :
    r ∈ (s.complete r status payload).rxBuffers := by
  rw [not_or, not_not] at h
  obtain ⟨rfl, hpayload⟩ := h
  rw [complete_eq_of_data s r (length_pos_iff.2 hpayload)]
  simp

theorem rxBuffers_complete_of_noData (h : status ≠ 0 ∨ payload = []) :
    (s.complete r status payload).rxBuffers = s.rxBuffers.erase r := by
  simp only [complete, rxComplete]
  obtain h | rfl := h
  · simp [h, listDelInit]
  · split_ifs <;> simp_all [listDelInit]

/-- The requests on one of the three lists. -/
def listed (s : Rx) : List ℕ :=
  s.rxReqs ++ s.rxReqsActive ++ s.rxBuffers

theorem count_listed_complete_of_ne (h : q ≠ r) :
    (s.complete r status payload).listed.count q = s.listed.count q := by
  have h' : r ≠ q := h.symm
  simp only [complete, rxComplete]
  split_ifs <;> simp [listed, listDelInit, h, h', count_erase_of_ne]

theorem count_listed_complete_self (h : s.listed.count q ≤ 1) :
    (s.complete q status payload).listed.count q = 1 := by
  rw [listed, count_append, count_append] at h
  simp only [complete, rxComplete]
  split_ifs <;> simp [listed, listDelInit] <;> omega

theorem count_listed_complete (h : s.listed.count q = 1) :
    (s.complete r status payload).listed.count q = 1 := by
  by_cases hq : q = r
  · subst hq
    exact count_listed_complete_self (Nat.le_of_eq h)
  · rw [count_listed_complete_of_ne hq, h]

theorem completeAll_cons (s : Rx) (c : Completion) (done : List Completion) :
    s.completeAll (c :: done) = (s.complete c.r c.status c.payload).completeAll done := rfl

@[simp] theorem completeAll_currentRx (s : Rx) (done : List Completion) :
    (s.completeAll done).currentRx = s.currentRx := by
  induction done generalizing s with
  | nil => rfl
  | cons c done ih => rw [completeAll_cons, ih, complete_currentRx]

theorem completeAll_rxReqsActive (s : Rx) (done : List Completion) :
    (s.completeAll done).rxReqsActive = s.rxReqsActive.diff (done.map Completion.r) := by
  induction done generalizing s with
  | nil => rfl
  | cons c done ih => rw [completeAll_cons, ih, complete_rxReqsActive, map_cons, diff_cons]

theorem mem_rxBuffers_completeAll (h : q ∉ done.map Completion.r) :
    q ∈ (s.completeAll done).rxBuffers ↔ q ∈ s.rxBuffers := by
  induction done generalizing s with
  | nil => rfl
  | cons c done ih =>
    rw [map_cons, mem_cons, not_or] at h
    rw [completeAll_cons, ih h.2, mem_rxBuffers_complete_of_ne h.1]

theorem mem_rxBuffers_of_data (hnd : (done.map Completion.r).Nodup) {c : Completion}
    (hc : c ∈ done) (hdata : ¬c.NoData) : c.r ∈ (s.completeAll done).rxBuffers := by
  induction done generalizing s with
  | nil => cases hc
  | cons d done ih =>
    rw [map_cons, nodup_cons] at hnd
    rw [completeAll_cons]
    obtain rfl | hc := mem_cons.1 hc
    · rw [mem_rxBuffers_completeAll hnd.1]
      exact mem_rxBuffers_complete_self hdata
    · exact ih hnd.2 hc

theorem rxBuffers_completeAll_of_noData (h : ∀ c ∈ done, c.NoData) (hs : s.rxBuffers = []) :
    (s.completeAll done).rxBuffers = [] := by
  induction done generalizing s with
  | nil => exact hs
  | cons c done ih =>
    rw [completeAll_cons]
    refine ih (fun d hd => h d (mem_cons_of_mem _ hd)) ?_
    rw [rxBuffers_complete_of_noData (h c mem_cons_self), hs, erase_nil]

theorem count_listed_completeAll (h : s.listed.count q = 1) :
    (s.completeAll done).listed.count q = 1 := by
  induction done generalizing s with
  | nil => exact h
  | cons c done ih => exact ih (count_listed_complete h)

theorem count_listed_completeAll_of_mem (h : s.listed.count q ≤ 1)
    (hq : q ∈ done.map Completion.r) : (s.completeAll done).listed.count q = 1 := by
  induction done generalizing s with
  | nil => cases hq
  | cons c done ih =>
    rw [completeAll_cons]
    by_cases hc : q = c.r
    · subst hc
      exact count_listed_completeAll (count_listed_complete_self h)
    · refine ih ?_ ((mem_cons.1 hq).resolve_left hc)
      rwa [count_listed_complete_of_ne hc]

theorem count_listed_completeAll_of_notMem (h : q ∉ done.map Completion.r) :
    (s.completeAll done).listed.count q = s.listed.count q := by
  induction done generalizing s with
  | nil => rfl
  | cons c done ih =>
    rw [map_cons, mem_cons, not_or] at h
    rw [completeAll_cons, ih h.2, count_listed_complete_of_ne h.1]

theorem Inv.count_listed (h : s.Inv) (hq : q < qlen) (hheld : s.pc.heldReq ≠ some q) :
    s.listed.count q + s.currentRx.req.toList.count q + s.pc.justQueued.toList.count q = 1 := by
  have hone := h.conserved q hq
  have hh : s.pc.heldReq.toList.count q = 0 := by
    rw [count_eq_zero, Option.mem_toList]
    exact hheld
  simp only [Rx.places, count_append] at hone
  simp only [listed, count_append]
  omega

/-- What `usb_ep_disable` completes was neither current nor on `rx_buffers`. -/
theorem Inv.count_of_mem_queued (h : s.Inv) (hq : q ∈ s.queued) :
    s.currentRx.req.toList.count q = 0 ∧ s.rxBuffers.count q = 0 := by
  have hactive : 0 < (s.rxReqsActive ++ s.pc.justQueued.toList).count q :=
    count_pos_iff.2 (h.active.mem_iff.2 hq)
  have hone := nodup_iff_count_le_one.1 h.nodup q
  rw [count_append] at hactive
  simp only [Rx.places, count_append] at hone
  omega

theorem Inv.not_buffered (h : s.Inv) (hq : q ∈ s.queued) : q ∉ s.rxBuffers :=
  count_eq_zero.1 (h.count_of_mem_queued hq).2

theorem Inv.nodup_active (h : s.Inv) : s.rxReqsActive.Nodup := by
  refine nodup_iff_count_le_one.2 fun q => ?_
  have hone := nodup_iff_count_le_one.1 h.nodup q
  simp only [Rx.places, count_append] at hone
  omega

/-! ## The loop over `rx_reqs_active` -/

theorem drainLoop_of_nil (n : ℕ) (h : s.rxReqsActive = []) :
    drainLoop (n + 1) s = some { s with reset := .enabling } := by
  rw [drainLoop, resetDrain, if_pos h]
  rfl

/-- **The loop does not end once it is entered.** -/
theorem drainLoop_of_active (n : ℕ) (h : s.rxReqsActive ≠ []) (hs : s.reset = .draining) :
    drainLoop n s = none := by
  induction n generalizing s with
  | zero => rfl
  | succ n ih =>
    rw [drainLoop, resetDrain, if_neg h]
    split
    next hbuf => rfl
    next r rest hbuf =>
      dsimp only
      rw [if_pos hs]
      exact ih h hs

@[simp] theorem clearCurrent_rxReqsActive (s : Rx) :
    s.clearCurrent.rxReqsActive = s.rxReqsActive := by
  rw [clearCurrent, resetCurrent]
  split <;> rfl

@[simp] theorem clearCurrent_rxBuffers (s : Rx) : s.clearCurrent.rxBuffers = s.rxBuffers := by
  rw [clearCurrent, resetCurrent]
  split <;> rfl

theorem clearCurrent_currentRx (s : Rx) : s.clearCurrent.currentRx = .null := by
  rw [clearCurrent, resetCurrent]
  split
  next hreq => simp only [hreq, CurrentRx.null]
  next => rfl

theorem clearCurrent_rxReqs (s : Rx) :
    s.clearCurrent.rxReqs = s.currentRx.req.toList ++ s.rxReqs := by
  rw [clearCurrent, resetCurrent]
  split
  next hreq => rw [hreq]; rfl
  next r hreq => rw [hreq]; rfl

end Rx

/-! ## The transmit side -/

namespace Tx

variable {t : Tx} {q : ℕ}

theorem count_txComplete (r : ℕ) (h : (t.txReqs ++ t.txReqsActive).count q = 1) :
    ((t.txComplete r).txReqs ++ (t.txComplete r).txReqsActive).count q = 1 := by
  simp only [txComplete, count_append, count_cons, count_erase, beq_iff_eq] at h ⊢
  split_ifs <;> omega

theorem count_completeAll (done : List ℕ) (h : (t.txReqs ++ t.txReqsActive).count q = 1) :
    ((t.completeAll done).txReqs ++ (t.completeAll done).txReqsActive).count q = 1 := by
  induction done generalizing t with
  | nil => exact h
  | cons r done ih => exact ih (count_txComplete r h)

/-- A loop over `tx_reqs_active` puts its requests on the free list. -/
theorem drainLoop_spec (next : TxResetPc) (n : ℕ) (hnext : t.reset ≠ next)
    (hn : t.txReqsActive.length < n) :
    drainLoop next n t = some { t with
      txReqs := t.txReqsActive.reverse ++ t.txReqs, txReqsActive := [], reset := next } := by
  induction n generalizing t with
  | zero => omega
  | succ n ih =>
    rw [drainLoop, resetDrain]
    cases hactive : t.txReqsActive with
    | nil => simp
    | cons r rest =>
      rw [hactive, length_cons] at hn
      dsimp only
      rw [if_neg hnext]
      have hrest := ih (t := { t with txReqs := r :: t.txReqs, txReqsActive := rest }) hnext
        (show rest.length < n by omega)
      rw [hrest, reverse_cons, append_assoc]
      rfl

theorem Inv.count_free (h : t.Inv) (hq : q < qlen) (hheld : t.pc.heldReq ≠ some q)
    (hjust : t.pc.justQueued ≠ some q) : (t.txReqs ++ t.txReqsActive).count q = 1 := by
  have hone : (t.places ++ t.pc.justQueued.toList).count q = 1 := by
    rw [h.places.count_eq, count_eq_one_of_mem nodup_range (mem_range.2 hq)]
  have hh : t.pc.heldReq.toList.count q = 0 := by
    rw [count_eq_zero, Option.mem_toList]
    exact hheld
  have hj : t.pc.justQueued.toList.count q = 0 := by
    rw [count_eq_zero, Option.mem_toList]
    exact hjust
  simp only [Tx.places, count_append] at hone ⊢
  omega

end Tx

/-! ## The whole call -/

section

variable {s : Rx} {t : Tx} {doneIn : List ℕ} {doneOut : List Completion} {inError outError : Bool}

/-- A call that gets past the loop over `rx_reqs_active` has not entered it. -/
theorem resetLists_eq_some {n : ℕ} {s' : Rx} {t' : Tx}
    (h : resetLists n doneIn doneOut inError outError s t = some (s', t')) :
    (s.completeAll doneOut).rxReqsActive = [] ∧
      s'.rxBuffers = (s.completeAll doneOut).rxBuffers ∧
        s'.rxReqs = s.currentRx.req.toList ++ (s.completeAll doneOut).rxReqs := by
  rw [resetLists] at h
  obtain ⟨t₁, -, h⟩ := Option.bind_eq_some_iff.1 h
  obtain ⟨s₁, hs₁, h⟩ := Option.bind_eq_some_iff.1 h
  obtain ⟨t₂, -, h⟩ := Option.bind_eq_some_iff.1 h
  cases h
  by_cases hactive : (s.completeAll doneOut).rxReqsActive = []
  · refine ⟨hactive, ?_⟩
    cases n with
    | zero => cases hs₁
    | succ n =>
      rw [Rx.drainLoop_of_nil n (by simpa using hactive)] at hs₁
      cases hs₁
      refine ⟨by simp, ?_⟩
      change (Rx.clearCurrent _).rxReqs = _
      rw [Rx.clearCurrent_rxReqs, Rx.completeAll_currentRx]
  · rw [Rx.drainLoop_of_active n (by simpa using hactive) rfl] at hs₁
    cases hs₁

theorem resetLists_of_nil (h : (s.completeAll doneOut).rxReqsActive = []) :
    resetLists ((t.completeAll doneIn).txReqsActive.length + 1) doneIn doneOut inError outError s
        t =
      some ({ Rx.clearCurrent { s.completeAll doneOut with enabled := false } with
          enabled := !outError, reset := .enablingTest 0 },
        { t.completeAll doneIn with
          txReqs := (t.completeAll doneIn).txReqsActive.reverse ++ (t.completeAll doneIn).txReqs
          txReqsActive := [], resetScale := true, enabled := !inError
          reset := .enablingTest 0 }) := by
  have hdraining : TxResetPc.draining ≠ .drainingAgain := by decide
  have hagain : TxResetPc.drainingAgain ≠ .enabling := by decide
  rw [resetLists]
  refine Option.bind_eq_some_iff.2
    ⟨_, Tx.drainLoop_spec _ _ hdraining (Nat.lt_succ_self _), ?_⟩
  refine Option.bind_eq_some_iff.2 ⟨_, Rx.drainLoop_of_nil _ (by simpa using h), ?_⟩
  exact Option.bind_eq_some_iff.2 ⟨_, Tx.drainLoop_spec _ _ hagain (Nat.succ_pos _), rfl⟩

end

section

variable {s : Rx} {t : Tx} {doneOut : List Completion} {q : ℕ}

theorem Rx.Inv.count_completeAll (hs : s.Inv) (hdone : ∀ c ∈ doneOut, c.r ∈ s.queued)
    (hq : q < qlen) (hheld : s.pc.heldReq ≠ some q)
    (hjust : s.pc.justQueued = some q → q ∈ doneOut.map Completion.r) :
    (s.completeAll doneOut).listed.count q + s.currentRx.req.toList.count q = 1 := by
  have hone := hs.count_listed hq hheld
  by_cases hmem : q ∈ doneOut.map Completion.r
  · obtain ⟨c, hc, rfl⟩ := mem_map.1 hmem
    rw [Rx.count_listed_completeAll_of_mem (by omega) hmem,
      (hs.count_of_mem_queued (hdone c hc)).1]
  · have hj : s.pc.justQueued.toList.count q = 0 := by
      rw [count_eq_zero, Option.mem_toList]
      exact fun h => hmem (hjust h)
    rw [Rx.count_listed_completeAll_of_notMem hmem]
    omega

theorem Rx.Inv.rxBuffers_nil (hs : s.Inv) (hdone : ∀ c ∈ doneOut, c.r ∈ s.queued)
    (hbuf : (s.completeAll doneOut).rxBuffers = []) : s.rxBuffers = [] := by
  refine eq_nil_iff_forall_not_mem.2 fun r hr => ?_
  have hmem : r ∉ doneOut.map Completion.r := by
    intro hmem
    obtain ⟨c, hc, rfl⟩ := mem_map.1 hmem
    exact hs.not_buffered (hdone c hc) hr
  rw [← Rx.mem_rxBuffers_completeAll hmem, hbuf] at hr
  cases hr

theorem Rx.noData_of_rxBuffers_nil (hnd : (doneOut.map Completion.r).Nodup)
    (hbuf : (s.completeAll doneOut).rxBuffers = []) : ∀ c ∈ doneOut, c.NoData := by
  intro c hc
  by_contra hdata
  have hmem : c.r ∈ (s.completeAll doneOut).rxBuffers := Rx.mem_rxBuffers_of_data hnd hc hdata
  rw [hbuf] at hmem
  cases hmem

theorem Rx.Inv.completed_of_active (hs : s.Inv)
    (hactive : (s.completeAll doneOut).rxReqsActive = []) :
    ∀ r ∈ s.rxReqsActive, r ∈ doneOut.map Completion.r := by
  intro r hr
  by_contra hmem
  rw [Rx.completeAll_rxReqsActive] at hactive
  have hleft : r ∈ s.rxReqsActive.diff (doneOut.map Completion.r) :=
    hs.nodup_active.mem_sdiff_iff.2 ⟨hr, hmem⟩
  rw [hactive] at hleft
  cases hleft

theorem Rx.Inv.lt_of_poll (hs : s.Inv) (hpc : s.pc = .queued q .poll) : q < qlen := by
  have hplace : q ∈ s.places := by simp [Rx.places, hpc, Pc.justQueued]
  exact mem_range.1 (hs.places.mem_iff.1 hplace)

/-- A request that is on no list and stays with the controller is not on `rx_reqs` afterwards. -/
theorem Rx.Inv.completed_of_poll (hs : s.Inv) (hpc : s.pc = .queued q .poll)
    (hfree : (s.currentRx.req.toList ++ (s.completeAll doneOut).rxReqs).count q = 1) :
    q ∈ doneOut.map Completion.r := by
  by_contra hmem
  have hone := hs.count_listed (hs.lt_of_poll hpc) (by rw [hpc]; simp [Pc.heldReq, Pc.readCall])
  have hsame := Rx.count_listed_completeAll_of_notMem (s := s) hmem
  have hjust : s.pc.justQueued = some q := by rw [hpc]; rfl
  simp only [hjust, Option.toList_some, count_cons_self, count_nil] at hone
  simp only [Rx.listed, count_append] at hone hsame
  rw [count_append] at hfree
  omega

theorem Pc.queued_poll_of_justQueued {pc : Pc} (h : pc.justQueued = some q)
    (hread : ∀ len nonblock, pc ≠ .queued q (.read len nonblock)) : pc = .queued q .poll := by
  cases pc with
  | queued r c =>
    cases h
    cases c with
    | poll => rfl
    | read len nonblock => exact absurd rfl (hread len nonblock)
  | idle | setup | take | sleeping | loop | copy | copied | oops => cases h

end

theorem restored_of_nil {s : Rx} {t : Tx} {doneIn : List ℕ} {doneOut : List Completion}
    {inError outError : Bool} (hs : s.Inv) (ht : t.Inv) (hdone : ∀ c ∈ doneOut, c.r ∈ s.queued)
    (hactive : (s.completeAll doneOut).rxReqsActive = [])
    (hbuf : (s.completeAll doneOut).rxBuffers = [])
    (hpoll : ∀ r, s.pc = .queued r .poll → r ∈ doneOut.map Completion.r) :
    ∃ n s' t', resetLists n doneIn doneOut inError outError s t = some (s', t') ∧
      Restored s t s' t' := by
  refine ⟨_, _, _, resetLists_of_nil hactive, ?_⟩
  constructor
  case rxReqsActive => simpa using hactive
  case rxBuffers => simpa using hbuf
  case txReqsActive => rfl
  case currentRxReq => exact congrArg CurrentRx.req (Rx.clearCurrent_currentRx _)
  case currentRxBytes => exact congrArg CurrentRx.bytes (Rx.clearCurrent_currentRx _)
  case rxReqs =>
    intro r hr hheld hread
    have hone := hs.count_completeAll hdone hr hheld fun hjust =>
      hpoll r (Pc.queued_poll_of_justQueued hjust hread)
    rw [Rx.listed, hactive, hbuf, append_nil, append_nil] at hone
    change (Rx.clearCurrent _).rxReqs.count r = 1
    rw [Rx.clearCurrent_rxReqs, count_append]
    simp only [Rx.completeAll_currentRx]
    omega
  case txReqs =>
    intro r hr hheld hjust
    have hone := Tx.count_completeAll doneIn (ht.count_free hr hheld hjust)
    rw [count_append] at hone
    change (_ ++ _ : List ℕ).count r = 1
    rw [count_append, count_reverse]
    omega

/-- **Before its last loop a soft reset has restored the idle pool exactly when `rx_buffers` is
empty and `usb_ep_disable` completes every request of `rx_reqs_active`, and one that a poll has just
queued, none of them with data.** -/
theorem lists_restored_iff (enIn enOut : Bool) (maxpacket : ℕ) (rxActs : List RxAct)
    (txActs : List TxAct) (s : Rx) (t : Tx) (hC : Lts.Meets rxStep NoRace (Rx.bind enOut) rxActs)
    (hrx : Lts.exec rxStep (Rx.bind enOut) rxActs = some s)
    (hD : Lts.Meets (txStep maxpacket) NoLostAdd (Tx.bind enIn) txActs)
    (htx : Lts.exec (txStep maxpacket) (Tx.bind enIn) txActs = some t)
    (doneIn : List ℕ) (doneOut : List Completion) (inError outError : Bool)
    (hdone : ∀ c ∈ doneOut, c.r ∈ s.queued) (hnd : (doneOut.map Completion.r).Nodup) :
    (∃ n s' t', resetLists n doneIn doneOut inError outError s t = some (s', t') ∧
      Restored s t s' t') ↔
      s.rxBuffers = [] ∧ (∀ c ∈ doneOut, c.NoData) ∧
        (∀ r ∈ s.rxReqsActive, r ∈ doneOut.map Completion.r) ∧
          ∀ r, s.pc = .queued r .poll → r ∈ doneOut.map Completion.r := by
  have hs : s.Inv := Lts.exec_induction (fun _ _ _ hi hc h => hi.step hc (rxTrans_of_rxStep h))
    (Rx.inv_bind enOut) hC hrx
  have ht : t.Inv := Lts.exec_induction (fun _ _ _ hi hc h => hi.step hc (txTrans_of_txStep h))
    (Tx.inv_bind enIn) hD htx
  constructor
  · rintro ⟨n, s', t', h, hrestored⟩
    obtain ⟨hactive, hbuf, hreqs⟩ := resetLists_eq_some h
    rw [hrestored.rxBuffers] at hbuf
    refine ⟨hs.rxBuffers_nil hdone hbuf.symm, Rx.noData_of_rxBuffers_nil hnd hbuf.symm,
      hs.completed_of_active hactive, fun r hpc => ?_⟩
    have hlt : r < qlen := hs.lt_of_poll hpc
    have hfree := hrestored.rxReqs r hlt (by rw [hpc]; simp [Pc.heldReq, Pc.readCall])
      (by rw [hpc]; simp)
    rw [hreqs] at hfree
    exact hs.completed_of_poll hpc hfree
  · rintro ⟨hbuf, hdata, hall, hpoll⟩
    refine restored_of_nil hs ht hdone ?_ (Rx.rxBuffers_completeAll_of_noData hdata hbuf) hpoll
    rw [Rx.completeAll_rxReqsActive]
    refine eq_nil_iff_forall_not_mem.2 fun r hr => ?_
    obtain ⟨hr, hmem⟩ := hs.nodup_active.mem_sdiff_iff.1 hr
    exact hmem (hall r hr)

-- a buffer that no read has taken stays on `rx_buffers`
example : (Lts.exec rxStep (Rx.bind true)
    [.poll, .queue false, .listAdd, .queue true, .complete 9 0 [65]]).bind (fun s =>
      (resetLists 1 [] [] false false s (Tx.bind true)).map fun p =>
        (p.1.rxBuffers, p.1.rxReqs.count 9)) = some ([9], 0) := by
  decide

end LddExample.ScaleUsb
