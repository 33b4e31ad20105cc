import LddExample.ScaleUsb.Rx

/-!
# The transmit side of `scale_usb.c`

`scale_write`, `tx_complete` and the transmit half of `scale_soft_reset` as steps on the fields of
`struct scale_dev` they share.

* The call that holds `lock_scale_io` has a program counter `TxPc`; `lock` is held exactly in the
  states of `TxPc.locked`.
* `tx_complete` takes `lock`: the controller runs it only while `lock` is free.
* A write whose copy faults puts its request back without `lock`, so `tx_complete` may run inside
  that `list_add`, between its reading of `tx_reqs.next` and its writing.
* `scale_soft_reset` takes no lock and has a program counter `TxResetPc` of its own.
* **`txStep`**: the step function, with the answers of the controller and the user's memory in the
  label.
-/

namespace LddExample.ScaleUsb

/-- The fields of a `struct usb_request` that `scale_write` sets, with the `length` bytes of its
buffer. -/
structure TxReq where
  length : ℕ
  zero : Bool
  buf : List UInt8

/-- The locals of `scale_write`; `whole` is the caller's buffer and `buf` what is left of it.
`accepted` is history: the requests as `usb_ep_queue` accepted them. -/
structure WriteCall where
  whole : List UInt8
  buf : List UInt8
  bytesCopied : ℕ
  accepted : List TxReq

/-- Where the holder of `lock_scale_io` stands. -/
inductive TxPc
  | idle
  /-- in `wait_event_interruptible` -/
  | sleeping (w : WriteCall)
  /-- in `mutex_lock(&dev->lock_scale_io)`, which the call holds already -/
  | stuck (w : WriteCall)
  /-- at the head of the loop -/
  | loop (w : WriteCall)
  /-- before `copy_from_user` -/
  | copy (w : WriteCall) (r : ℕ)
  /-- in `list_add(&req->list, &dev->tx_reqs)` after a fault; `next` is the list behind the pointer
  that it has read in `tx_reqs.next` -/
  | putBack (w : WriteCall) (r : ℕ) (next : List ℕ)
  /-- after `copy_from_user`, `spin_lock_irqsave` follows -/
  | copied (w : WriteCall) (r : ℕ)
  /-- before `usb_ep_queue` -/
  | queue (w : WriteCall) (r : ℕ)
  /-- `usb_ep_queue` has accepted `r`, `list_add` to `tx_reqs_active` follows -/
  | queued (w : WriteCall) (r : ℕ)

namespace TxPc

/-- `dev->lock` is held. -/
def locked : TxPc → Bool
  | loop _ | queue _ _ | queued _ _ => true
  | idle | sleeping _ | stuck _ | copy _ _ | putBack _ _ _ | copied _ _ => false

/-- The request that is about to be put on `tx_reqs_active`. -/
def justQueued : TxPc → Option ℕ
  | queued _ r => some r
  | _ => none

/-- The local `req` of the running write, up to `usb_ep_queue`. -/
def heldReq : TxPc → Option ℕ
  | copy _ r | putBack _ r _ | copied _ r | queue _ r => some r
  | idle | sleeping _ | stuck _ | loop _ | queued _ _ => none

end TxPc

/-- Where `scale_soft_reset` stands. -/
inductive TxResetPc
  | idle
  /-- in `usb_ep_disable(dev->in_ep)` -/
  | disabling
  /-- before `dev->reset_scale = 1` -/
  | setReset
  /-- at the head of the first loop over `tx_reqs_active` -/
  | draining
  /-- at the head of the second one -/
  | drainingAgain
  /-- before `usb_ep_enable(dev->in_ep, dev->in)` -/
  | enabling
  /-- before `usb_ep_enable(dev->testin_ep[i], dev->testin[i])` -/
  | enablingTest (i : ℕ)
  /-- `usb_ep_enable` was given a null pointer -/
  | nullEp
deriving DecidableEq

/-- `usb_ep_disable` has returned and `usb_ep_enable` is still to come. -/
def TxResetPc.off : TxResetPc → Bool
  | setReset | draining | drainingAgain | enabling => true
  | idle | disabling | enablingTest _ | nullEp => false

/-- The transmit side of the device, its controller and its users. -/
structure Tx where
  txReqs : List ℕ
  txReqsActive : List ℕ
  resetScale : Bool
  req : ℕ → TxReq
  /-- the state of `in_ep` in the controller -/
  enabled : Bool
  /-- accepted by `usb_ep_queue` and not completed -/
  queued : List ℕ
  pc : TxPc
  reset : TxResetPc
  /-- history: the writes that returned, with their return values -/
  returned : List (WriteCall × ℤ)

namespace Tx

/-- The device after a successful `scale_bind`. -/
def bind (enabled : Bool) : Tx where
  txReqs := (List.range qlen).reverse
  txReqsActive := []
  resetScale := false
  req := fun _ => ⟨0, false, []⟩
  enabled := enabled
  queued := []
  pc := .idle
  reset := .idle
  returned := []

/-- `tx_complete` between `spin_lock` and `spin_unlock`. -/
def txComplete (s : Tx) (r : ℕ) : Tx :=
  { s with
    txReqs := r :: s.txReqs.erase r
    txReqsActive := s.txReqsActive.erase r
    queued := s.queued.erase r }

/-- A write returns and releases `lock_scale_io`. -/
def ret (s : Tx) (w : WriteCall) (value : ℤ) : Tx :=
  { s with pc := .idle, returned := s.returned ++ [(w, value)] }

/-- `scale_write` up to the wait. The path for `O_NONBLOCK` without a free request locks the mutex
a second time. -/
def write (s : Tx) (interface : ℤ) (buf : List UInt8) (nonblock : Bool) : Tx :=
  let w : WriteCall := ⟨buf, buf, 0, []⟩
  if interface < 0 then s.ret w (-einval)
  else if buf.length = 0 then s.ret w (-einval)
  else
    let s := { s with resetScale := false }
    if s.txReqs = [] then
      if nonblock then { s with pc := .stuck w } else { s with pc := .sleeping w }
    else { s with pc := .loop w }

/-- The size of the next request. -/
def size (w : WriteCall) : ℕ :=
  if w.buf.length > usbBufsize then usbBufsize else w.buf.length

/-- The loop of `scale_write` up to `spin_unlock_irqrestore`, or its end. -/
def writeNext (s : Tx) (maxpacket : ℕ) (w : WriteCall) : Tx :=
  match s.txReqs with
  | [] => s.ret w (if w.bytesCopied ≠ 0 then w.bytesCopied else -eagain)
  | r :: rest =>
    if w.buf.length = 0 then s.ret w (if w.bytesCopied ≠ 0 then w.bytesCopied else -eagain)
    else
      let zero := if w.buf.length > size w then false else w.buf.length % maxpacket = 0
      { s with
        txReqs := rest
        req := fun q => if q = r then { s.req r with length := size w, zero := zero } else s.req q
        pc := .copy w r }

/-- `copy_from_user`, and after a fault the reading of `tx_reqs.next`. -/
def writeCopy (s : Tx) (w : WriteCall) (r : ℕ) (fault : Bool) : Tx :=
  if fault then { s with pc := .putBack w r s.txReqs }
  else
    { s with
      req := fun q => if q = r then { s.req r with buf := w.buf.take (size w) } else s.req q
      pc := .copied { w with
        bytesCopied := w.bytesCopied + size w
        buf := w.buf.drop (size w) } r }

/-- `list_add` stores its pointers: the request stands before what was read in `tx_reqs.next`,
whatever `tx_reqs.next` is now. -/
def writePutBack (s : Tx) (w : WriteCall) (r : ℕ) (next : List ℕ) : Tx :=
  { s with txReqs := r :: next }.ret w w.bytesCopied

/-- The test for a reset after the copy, with `lock` taken again. -/
def writeCopied (s : Tx) (w : WriteCall) (r : ℕ) : Tx :=
  if s.resetScale then { s with txReqs := r :: s.txReqs }.ret w (-eagain)
  else { s with pc := .queue w r }

/-- `usb_ep_queue` fails. -/
def queueErr (s : Tx) (w : WriteCall) (r : ℕ) : Tx :=
  { s with txReqs := r :: s.txReqs }.ret w (-eagain)

/-- `usb_ep_queue` accepts the request. -/
def queueOk (s : Tx) (w : WriteCall) (r : ℕ) : Tx :=
  { s with
    queued := r :: s.queued
    pc := .queued { w with accepted := w.accepted ++ [s.req r] } r }

/-- One turn of a loop over `tx_reqs_active` in `scale_soft_reset`, or its end. -/
def resetDrain (s : Tx) (next : TxResetPc) : Tx :=
  match s.txReqsActive with
  | [] => { s with reset := next }
  | r :: rest => { s with txReqsActive := rest, txReqs := r :: s.txReqs }

end Tx

/-- The steps, with the choices of users, controller and scheduler. -/
inductive TxAct
  /-- `scale_write`, with the value it reads in `dev->interface` -/
  | write (interface : ℤ) (buf : List UInt8) (nonblock : Bool)
  /-- the wait ends, by a free request or by a signal -/
  | wake (signal : Bool)
  /-- one turn of the loop up to the copy, or the end of the call -/
  | next
  | copyFromUser (fault : Bool)
  /-- the end of `list_add` after a fault -/
  | putBack
  /-- the test of `reset_scale` -/
  | copied
  | queue (error : Bool)
  /-- `list_add(&req->list, &dev->tx_reqs_active)` -/
  | listAdd
  /-- the controller completes a request -/
  | complete (r : ℕ)
  /-- `scale_soft_reset` calls `usb_ep_disable` -/
  | disable
  /-- `usb_ep_disable` returns: everything queued is completed -/
  | disabled
  | setReset
  | drain
  /-- `usb_ep_enable` for `in_ep` -/
  | enable (error : Bool)
  /-- `usb_ep_enable` for the next pair of `testin_ep` and `testout_ep` -/
  | enableTest (null : Bool)

open Tx in
/-- **One step.** A request is accepted only on an enabled endpoint; `tx_complete` runs only while
`lock` is free; `usb_ep_disable` returns when nothing is queued; a pair of test endpoints that no
call of `adb_create_bulk_endpoints` has set is null. -/
def txStep (maxpacket : ℕ) (s : Tx) : TxAct → Option Tx
  | .write interface buf nonblock =>
    match s.pc with
    | .idle => some (s.write interface buf nonblock)
    | _ => none
  | .wake signal =>
    match s.pc with
    | .sleeping w => if signal ∨ s.txReqs ≠ [] then some { s with pc := .loop w } else none
    | _ => none
  | .next =>
    match s.pc with
    | .loop w => some (s.writeNext maxpacket w)
    | _ => none
  | .copyFromUser fault =>
    match s.pc with
    | .copy w r => some (s.writeCopy w r fault)
    | _ => none
  | .putBack =>
    match s.pc with
    | .putBack w r next => some (s.writePutBack w r next)
    | _ => none
  | .copied =>
    match s.pc with
    | .copied w r => some (s.writeCopied w r)
    | _ => none
  | .queue error =>
    match s.pc with
    | .queue w r =>
      if error then some (s.queueErr w r) else if s.enabled then some (s.queueOk w r) else none
    | _ => none
  | .listAdd =>
    match s.pc with
    | .queued w r => some { s with txReqsActive := r :: s.txReqsActive, pc := .loop w }
    | _ => none
  | .complete r => if r ∈ s.queued ∧ s.pc.locked = false then some (s.txComplete r) else none
  | .disable =>
    -- a soft reset that has faulted does not keep the next one from coming
    if s.reset = .idle ∨ s.reset = .nullEp then some { s with reset := .disabling } else none
  | .disabled =>
    if s.reset = .disabling ∧ s.queued = [] then
      some { s with enabled := false, reset := .setReset }
    else none
  | .setReset =>
    if s.reset = .setReset then some { s with resetScale := true, reset := .draining } else none
  | .drain =>
    if s.reset = .draining then some (s.resetDrain .drainingAgain)
    else if s.reset = .drainingAgain then some (s.resetDrain .enabling)
    else none
  | .enable error =>
    if s.reset = .enabling then some { s with enabled := !error, reset := .enablingTest 0 }
    else none
  | .enableTest null =>
    match s.reset with
    | .enablingTest i =>
      if null then some { s with reset := .nullEp }
      else if i < bulkCalls then some { s with reset := .enablingTest (i + 1) }
      else none
    | _ => none

/-! ## Inversion -/

/-- Everything a step can do, with the guards it passed. -/
inductive TxTrans (maxpacket : ℕ) (s : Tx) : TxAct → Tx → Prop
  | write {interface buf nonblock} (hpc : s.pc = .idle) :
    TxTrans maxpacket s (.write interface buf nonblock) (s.write interface buf nonblock)
  | wake {signal w} (hpc : s.pc = .sleeping w) :
    TxTrans maxpacket s (.wake signal) { s with pc := .loop w }
  | next {w} (hpc : s.pc = .loop w) : TxTrans maxpacket s .next (s.writeNext maxpacket w)
  | copyFromUser {fault w r} (hpc : s.pc = .copy w r) :
    TxTrans maxpacket s (.copyFromUser fault) (s.writeCopy w r fault)
  | putBack {w r next} (hpc : s.pc = .putBack w r next) :
    TxTrans maxpacket s .putBack (s.writePutBack w r next)
  | copied {w r} (hpc : s.pc = .copied w r) : TxTrans maxpacket s .copied (s.writeCopied w r)
  | queueErr {w r} (hpc : s.pc = .queue w r) : TxTrans maxpacket s (.queue true) (s.queueErr w r)
  | queueOk {w r} (hpc : s.pc = .queue w r) (hen : s.enabled = true) :
    TxTrans maxpacket s (.queue false) (s.queueOk w r)
  | listAdd {w r} (hpc : s.pc = .queued w r) :
    TxTrans maxpacket s .listAdd { s with txReqsActive := r :: s.txReqsActive, pc := .loop w }
  | complete {r} (hr : r ∈ s.queued) (hlock : s.pc.locked = false) :
    TxTrans maxpacket s (.complete r) (s.txComplete r)
  | disable (hreset : s.reset = .idle ∨ s.reset = .nullEp) :
    TxTrans maxpacket s .disable { s with reset := .disabling }
  | disabled (hreset : s.reset = .disabling) (hq : s.queued = []) :
    TxTrans maxpacket s .disabled { s with enabled := false, reset := .setReset }
  | setReset (hreset : s.reset = .setReset) :
    TxTrans maxpacket s .setReset { s with resetScale := true, reset := .draining }
  | drain (hreset : s.reset = .draining) :
    TxTrans maxpacket s .drain (s.resetDrain .drainingAgain)
  | drainAgain (hreset : s.reset = .drainingAgain) :
    TxTrans maxpacket s .drain (s.resetDrain .enabling)
  | enable {error} (hreset : s.reset = .enabling) :
    TxTrans maxpacket s (.enable error) { s with enabled := !error, reset := .enablingTest 0 }
  | enableNull {i} (hreset : s.reset = .enablingTest i) :
    TxTrans maxpacket s (.enableTest true) { s with reset := .nullEp }
  | enableTest {i} (hreset : s.reset = .enablingTest i) (hi : i < bulkCalls) :
    TxTrans maxpacket s (.enableTest false) { s with reset := .enablingTest (i + 1) }

/-- **Inversion of a step.** -/
theorem txTrans_of_txStep {maxpacket : ℕ} {s s' : Tx} {a : TxAct}
    (h : txStep maxpacket s a = some s') : TxTrans maxpacket s a s' := by
  cases a with simp only [txStep] at h
  | write | next | copyFromUser | putBack | copied | listAdd =>
    split at h
    · cases h; constructor; assumption
    · cases h
  | wake signal =>
    split at h
    · split_ifs at h; cases h; exact .wake ‹_›
    · cases h
  | queue error =>
    split at h
    · next hpc =>
      cases error with
      | true => cases h; exact .queueErr hpc
      | false =>
        simp only [Bool.false_eq_true, if_false] at h
        split_ifs at h with hen; cases h
        exact .queueOk hpc hen
    · cases h
  | complete r => split_ifs at h with hr; cases h; exact .complete hr.1 hr.2
  | disabled => split_ifs at h with hreset; cases h; exact .disabled hreset.1 hreset.2
  | drain =>
    split_ifs at h with hreset hagain <;> cases h
    · exact .drain hreset
    · exact .drainAgain hagain
  | disable | setReset | enable => split_ifs at h; cases h; constructor; assumption
  | enableTest null =>
    split at h
    · next hreset =>
      cases null with
      | true => cases h; exact .enableNull hreset
      | false =>
        simp only [Bool.false_eq_true, if_false] at h
        split_ifs at h with hi; cases h
        exact .enableTest hreset hi
    · cases h

end LddExample.ScaleUsb
