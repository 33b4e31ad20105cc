import LddExample.Lib.Lts
import Mathlib.Data.Int.Notation

/-!
# The receive side of `scale_usb.c`

`scale_read`, `scale_poll`, `setup_rx_reqs`, `rx_complete` and `scale_soft_reset` as steps on the
fields of `struct scale_dev` they share. A request is named by its number in the pool of `qlen`.

* The call that holds `lock_scale_io` has a program counter `Pc`; the calls that wait for the mutex
  touch nothing. `lock` is held exactly in the states of `Pc.locked`.
* `scale_soft_reset` takes no lock: it has a program counter `ResetPc` of its own.
* `rx_complete` takes no lock either (its `spin_lock_irqsave` is commented out), so the controller
  may run it between any two steps, for a request it has accepted and not completed.
* **`rxStep`**: the step function, with the controller's answers in the label.
-/

namespace LddExample.ScaleUsb

/-- `QLEN` -/
def qlen : ℕ := 10

/-- `USB_BUFSIZE` -/
def usbBufsize : ℕ := 512

/-- `EAGAIN` -/
def eagain : ℤ := 11

/-- `EINVAL` -/
def einval : ℤ := 22

/-- The calls of `adb_create_bulk_endpoints`. Each sets one of the four pairs of `testin_ep` and
`testout_ep`. -/
def bulkCalls : ℕ := 3

/-- `current_rx_req`, `current_rx_bytes` and `current_rx_buf`, in the device or in the locals of a
read. The pointer is a request's buffer and an offset in it. -/
structure CurrentRx where
  req : Option ℕ
  bytes : ℕ
  buf : Option (ℕ × ℕ)

namespace CurrentRx

/-- No position. -/
def null : CurrentRx := ⟨none, 0, none⟩

/-- The rest of the current buffer that no read has delivered yet. -/
def unread (data : ℕ → List UInt8) (c : CurrentRx) : List UInt8 :=
  match c.buf with
  | none => []
  | some (r, off) => ((data r).drop off).take c.bytes

/-- `current_rx_bytes -= size; current_rx_buf += size;` -/
def advance (c : CurrentRx) (size : ℕ) : CurrentRx :=
  { c with bytes := c.bytes - size, buf := c.buf.map fun p => (p.1, p.2 + size) }

end CurrentRx

/-- The call that runs `setup_rx_reqs`. -/
inductive Call
  | read (len : ℕ) (nonblock : Bool)
  | poll

/-- The locals of `scale_read` from its first look at the buffers on; `ubuf` is what it has stored
in the caller's buffer. -/
structure ReadCall where
  len : ℕ
  bytesCopied : ℕ
  currentRx : CurrentRx
  ubuf : List UInt8

/-- Where the holder of `lock_scale_io` stands. -/
inductive Pc
  | idle
  /-- at the head of the loop of `setup_rx_reqs` -/
  | setup (c : Call)
  /-- `usb_ep_queue` has accepted `r`, `list_add` to `rx_reqs_active` follows -/
  | queued (r : ℕ) (c : Call)
  /-- `scale_read` after `setup_rx_reqs` -/
  | take (len : ℕ) (nonblock : Bool)
  /-- in `wait_event_interruptible` -/
  | sleeping (l : ReadCall)
  /-- at the head of the copy loop -/
  | loop (l : ReadCall)
  /-- before `copy_to_user` -/
  | copy (l : ReadCall)
  /-- `size` bytes are copied, `spin_lock_irqsave` follows -/
  | copied (l : ReadCall) (size : ℕ)
  /-- a null pointer was dereferenced -/
  | oops (l : ReadCall)

namespace Pc

/-- `dev->lock` is held. -/
def locked : Pc → Bool
  | setup _ | queued _ _ | take _ _ | loop _ | oops _ => true
  | idle | sleeping _ | copy _ | copied _ _ => false

/-- The request that is about to be put on `rx_reqs_active`. -/
def justQueued : Pc → Option ℕ
  | queued r _ => some r
  | _ => none

/-- The locals of the running read. -/
def readCall : Pc → Option ReadCall
  | sleeping l | loop l | copy l | copied l _ | oops l => some l
  | idle | setup _ | queued _ _ | take _ _ => none

/-- The local `current_rx_req` of the running read. -/
def heldReq (pc : Pc) : Option ℕ :=
  pc.readCall.bind fun l => l.currentRx.req

end Pc

/-- Where `scale_soft_reset` stands. -/
inductive ResetPc
  | idle
  /-- in `usb_ep_disable(dev->out_ep)` -/
  | disabling
  /-- before `if (dev->current_rx_req != NULL)` -/
  | disabled
  /-- before `dev->current_rx_bytes = 0` -/
  | clearBytes
  /-- before `dev->current_rx_buf = NULL` -/
  | clearBuf
  /-- before `dev->reset_scale = 1` -/
  | setReset
  /-- at the head of the loop over `rx_reqs_active` -/
  | draining
  /-- before `usb_ep_enable(dev->out_ep, dev->out)` -/
  | enabling
  /-- before `usb_ep_enable(dev->testin_ep[i], dev->testin[i])` -/
  | enablingTest (i : ℕ)
  /-- `usb_ep_enable` was given a null pointer -/
  | nullEp
  /-- the list head of `rx_buffers` was taken for a request -/
  | oops
deriving DecidableEq

/-- `usb_ep_disable` has returned and `usb_ep_enable` is still to come. -/
def ResetPc.off : ResetPc → Bool
  | disabled | clearBytes | clearBuf | setReset | draining | enabling | oops => true
  | idle | disabling | enablingTest _ | nullEp => false

/-- No soft reset is between its first step and its last loop, which leaves the receive side
alone. -/
def ResetPc.quiet : ResetPc → Bool
  | idle | enablingTest _ | nullEp => true
  | disabling | disabled | clearBytes | clearBuf | setReset | draining | enabling | oops => false

/-- The receive side of the device, its controller and its users. -/
structure Rx where
  rxReqs : List ℕ
  rxReqsActive : List ℕ
  rxBuffers : List ℕ
  currentRx : CurrentRx
  resetScale : Bool
  /-- the `actual` bytes in `req->buf` -/
  data : ℕ → List UInt8
  /-- the state of `out_ep` in the controller -/
  enabled : Bool
  /-- accepted by `usb_ep_queue` and not completed -/
  queued : List ℕ
  pc : Pc
  reset : ResetPc
  /-- history: the payloads completed so far -/
  completed : List UInt8
  /-- history: what each read that returned delivered, with its return value -/
  returned : List (List UInt8 × ℤ)

namespace Rx

/-- The device after a successful `scale_bind`, which adds the requests one by one at the head of
`rx_reqs`. -/
def bind (enabled : Bool) : Rx where
  rxReqs := (List.range qlen).reverse
  rxReqsActive := []
  rxBuffers := []
  currentRx := .null
  resetScale := false
  data := fun _ => []
  enabled := enabled
  queued := []
  pc := .idle
  reset := .idle
  completed := []
  returned := []

/-- `list_del_init(&req->list)`: the request leaves the list it is on. -/
def listDelInit (s : Rx) (r : ℕ) : Rx :=
  { s with
    rxReqs := s.rxReqs.erase r
    rxReqsActive := s.rxReqsActive.erase r
    rxBuffers := s.rxBuffers.erase r }

/-- `rx_complete`; every status but 0 puts the request back on the free list. -/
def rxComplete (s : Rx) (r : ℕ) (status : ℤ) : Rx :=
  let s := s.listDelInit r
  if status = 0 then
    if 0 < (s.data r).length then { s with rxBuffers := s.rxBuffers ++ [r] }
    else { s with rxReqs := r :: s.rxReqs }
  else { s with rxReqs := r :: s.rxReqs }

/-- The controller stores the payload in the buffer, sets the status and calls `rx_complete`. -/
def complete (s : Rx) (r : ℕ) (status : ℤ) (payload : List UInt8) : Rx :=
  rxComplete { s with
    data := fun q => if q = r then payload else s.data q
    queued := s.queued.erase r
    completed := s.completed ++ if status = 0 then payload else [] } r status

/-- A read returns: both locks are released. -/
def ret (s : Rx) (ubuf : List UInt8) (value : ℤ) : Rx :=
  { s with pc := .idle, returned := s.returned ++ [(ubuf, value)] }

/-- `setup_rx_reqs` has returned. -/
def setupReturn (s : Rx) : Call → Rx
  | .read len nonblock => { s with pc := .take len nonblock }
  | .poll => { s with pc := .idle }

/-- `scale_read` up to the wait: the saved position becomes the read's own, and without data the
call returns or sleeps. -/
def readTake (s : Rx) (len : ℕ) (nonblock : Bool) : Rx :=
  let l : ReadCall := ⟨len, 0, s.currentRx, []⟩
  let s := { s with currentRx := .null }
  if l.currentRx.bytes = 0 ∧ s.rxBuffers = [] then
    if nonblock then s.ret [] (-eagain) else { s with pc := .sleeping l }
  else { s with pc := .loop l }

/-- The condition of the copy loop. -/
def More (s : Rx) (l : ReadCall) : Prop :=
  (l.currentRx.bytes ≠ 0 ∨ s.rxBuffers ≠ []) ∧ l.len ≠ 0

instance (s : Rx) (l : ReadCall) : Decidable (s.More l) :=
  inferInstanceAs (Decidable (_ ∧ _))

/-- The copy loop up to `spin_unlock_irqrestore`: without a current buffer the next one is taken,
and one without data goes back to the free list. -/
def readNext (s : Rx) (l : ReadCall) : Rx :=
  if l.currentRx.bytes = 0 then
    match s.rxBuffers with
    | [] => s
    | r :: rest =>
      let s := { s with rxBuffers := rest }
      if (s.data r).length ≠ 0 then
        { s with pc := .copy { l with currentRx := ⟨some r, (s.data r).length, some (r, 0)⟩ } }
      else { s with rxReqs := r :: s.rxReqs, pc := .loop l }
  else { s with pc := .copy l }

/-- `copy_to_user`, which leaves `left` bytes uncopied. -/
def readCopy (s : Rx) (l : ReadCall) (left : ℕ) : Rx :=
  match l.currentRx.buf with
  | none => { s with pc := .oops l }
  | some (r, off) =>
    let size := (if l.len > l.currentRx.bytes then l.currentRx.bytes else l.len) - left
    { s with
      pc := .copied { l with
        bytesCopied := l.bytesCopied + size
        len := l.len - size
        ubuf := l.ubuf ++ ((s.data r).drop off).take size } size }

/-- The copy loop after `copy_to_user`, with `lock` taken again. -/
def readCopied (s : Rx) (l : ReadCall) (size : ℕ) : Rx :=
  if s.resetScale then
    match l.currentRx.req with
    | none => { s with pc := .oops l }
    | some r => { s with rxReqs := r :: s.rxReqs }.ret l.ubuf (-eagain)
  else if size < l.currentRx.bytes then
    { s with pc := .loop { l with currentRx := l.currentRx.advance size } }
  else
    match l.currentRx.req with
    | none => { s with pc := .oops l }
    | some r => { s with rxReqs := r :: s.rxReqs, pc := .loop { l with currentRx := .null } }

/-- The end of `scale_read`: the position is saved in the device. -/
def readReturn (s : Rx) (l : ReadCall) : Rx :=
  { s with currentRx := l.currentRx }.ret l.ubuf
    (if l.bytesCopied ≠ 0 then l.bytesCopied else -eagain)

/-- `scale_soft_reset`: the current request goes back to the free list. -/
def resetCurrent (s : Rx) : Rx :=
  match s.currentRx.req with
  | none => { s with reset := .clearBytes }
  | some r =>
    { s with
      rxReqs := r :: s.rxReqs
      currentRx := { s.currentRx with req := none }
      reset := .clearBytes }

/-- One turn of the loop over `rx_reqs_active` in `scale_soft_reset`; its body takes the request
from `rx_buffers`. -/
def resetDrain (s : Rx) : Rx :=
  if s.rxReqsActive = [] then { s with reset := .enabling }
  else
    match s.rxBuffers with
    | [] => { s with reset := .oops }
    | r :: rest => { s with rxBuffers := rest, rxReqs := r :: s.rxReqs }

end Rx

/-- The steps, with the choices of users, controller and scheduler. -/
inductive RxAct
  /-- `scale_read` gets `lock_scale_io` and `lock` -/
  | read (len : ℕ) (nonblock : Bool)
  /-- `scale_poll` gets `lock_scale_io` and `lock` -/
  | poll
  /-- `usb_ep_queue` for the next free request -/
  | queue (error : Bool)
  /-- `list_add(&req->list, &dev->rx_reqs_active)` -/
  | listAdd
  /-- `setup_rx_reqs` finds `rx_reqs` empty -/
  | setupDone
  /-- `scale_read` takes over the saved position -/
  | take
  /-- the wait ends, by a buffer or by a signal -/
  | wake (signal : Bool)
  /-- one turn of the copy loop up to the copy -/
  | next
  | copyToUser (left : ℕ)
  /-- the turn's rest, after the copy -/
  | copied
  /-- the loop ends and the read returns -/
  | finish
  /-- the controller completes a request -/
  | complete (r : ℕ) (status : ℤ) (payload : List UInt8)
  /-- `scale_soft_reset` calls `usb_ep_disable` -/
  | disable
  /-- `usb_ep_disable` returns: everything queued is completed -/
  | disabled
  | resetCurrent
  | clearBytes
  | clearBuf
  | setReset
  | drain
  /-- `usb_ep_enable` for `out_ep` -/
  | enable (error : Bool)
  /-- `usb_ep_enable` for the next pair of `testin_ep` and `testout_ep` -/
  | enableTest (null : Bool)

open Rx in
/-- **One step.** A completion needs an accepted request and at most `req->length` bytes; a request
is accepted only on an enabled endpoint; `usb_ep_disable` returns when nothing is queued; a pair of
test endpoints that no call of `adb_create_bulk_endpoints` has set is null. -/
def rxStep (s : Rx) : RxAct → Option Rx
  | .read len nonblock =>
    match s.pc with
    | .idle =>
      if len = 0 then some (s.ret [] (-einval))
      else some { s with resetScale := false, pc := .setup (.read len nonblock) }
    | _ => none
  | .poll =>
    match s.pc with
    | .idle => some { s with pc := .setup .poll }
    | _ => none
  | .queue error =>
    match s.pc, s.rxReqs with
    | .setup c, r :: rest =>
      if error then some (s.setupReturn c)
      else if s.enabled then
        some { s with rxReqs := rest, queued := r :: s.queued, pc := .queued r c }
      else none
    | _, _ => none
  | .listAdd =>
    match s.pc with
    | .queued r c => some { s with rxReqsActive := r :: s.rxReqsActive, pc := .setup c }
    | _ => none
  | .setupDone =>
    match s.pc with
    | .setup c => if s.rxReqs = [] then some (s.setupReturn c) else none
    | _ => none
  | .take =>
    match s.pc with
    | .take len nonblock => some (s.readTake len nonblock)
    | _ => none
  | .wake signal =>
    match s.pc with
    | .sleeping l => if signal ∨ s.rxBuffers ≠ [] then some { s with pc := .loop l } else none
    | _ => none
  | .next =>
    match s.pc with
    | .loop l => if s.More l then some (s.readNext l) else none
    | _ => none
  | .copyToUser left =>
    match s.pc with
    | .copy l => some (s.readCopy l left)
    | _ => none
  | .copied =>
    match s.pc with
    | .copied l size => some (s.readCopied l size)
    | _ => none
  | .finish =>
    match s.pc with
    | .loop l => if s.More l then none else some (s.readReturn l)
    | _ => none
  | .complete r status payload =>
    if r ∈ s.queued ∧ payload.length ≤ usbBufsize then some (s.complete r status payload) else none
  | .disable =>
    -- a soft reset that has faulted does not keep the next one from coming
    if s.reset = .idle ∨ s.reset = .nullEp then some { s with reset := .disabling } else none
  | .disabled =>
    if s.reset = .disabling ∧ s.queued = [] then
      some { s with enabled := false, reset := .disabled }
    else none
  | .resetCurrent => if s.reset = .disabled then some s.resetCurrent else none
  | .clearBytes =>
    if s.reset = .clearBytes then
      some { s with currentRx := { s.currentRx with bytes := 0 }, reset := .clearBuf }
    else none
  | .clearBuf =>
    if s.reset = .clearBuf then
      some { s with currentRx := { s.currentRx with buf := none }, reset := .setReset }
    else none
  | .setReset =>
    if s.reset = .setReset then some { s with resetScale := true, reset := .draining } else none
  | .drain => if s.reset = .draining then some s.resetDrain else none
  | .enable error =>
    if s.reset = .enabling then some { s with enabled := !error, reset := .enablingTest 0 }
    else none
  | .enableTest null =>
    match s.reset with
    | .enablingTest i =>
      if null then some { s with reset := .nullEp }
      else if i < bulkCalls then some { s with reset := .enablingTest (i + 1) }
      else none
    | _ => none

/-! ## Frame of a completion -/

section Complete

variable (s : Rx) (r : ℕ) (status : ℤ) (payload : List UInt8)

@[simp] theorem Rx.complete_rxReqsActive :
    (s.complete r status payload).rxReqsActive = s.rxReqsActive.erase r := by
  simp only [complete, rxComplete]
  split_ifs <;> rfl

@[simp] theorem Rx.complete_queued :
    (s.complete r status payload).queued = s.queued.erase r := by
  simp only [complete, rxComplete]
  split_ifs <;> rfl

@[simp] theorem Rx.complete_pc : (s.complete r status payload).pc = s.pc := by
  simp only [complete, rxComplete]
  split_ifs <;> rfl

@[simp] theorem Rx.complete_reset : (s.complete r status payload).reset = s.reset := by
  simp only [complete, rxComplete]
  split_ifs <;> rfl

@[simp] theorem Rx.complete_enabled : (s.complete r status payload).enabled = s.enabled := by
  simp only [complete, rxComplete]
  split_ifs <;> rfl

@[simp] theorem Rx.complete_currentRx : (s.complete r status payload).currentRx = s.currentRx := by
  simp only [complete, rxComplete]
  split_ifs <;> rfl

theorem Rx.complete_data :
    (s.complete r status payload).data = fun q => if q = r then payload else s.data q := by
  simp only [complete, rxComplete]
  split_ifs <;> rfl

variable {payload}

theorem Rx.complete_eq_of_data (h : 0 < payload.length) :
    s.complete r 0 payload =
      { s with
        rxReqs := s.rxReqs.erase r
        rxReqsActive := s.rxReqsActive.erase r
        rxBuffers := s.rxBuffers.erase r ++ [r]
        data := fun q => if q = r then payload else s.data q
        queued := s.queued.erase r
        completed := s.completed ++ payload } := by
  simp [complete, rxComplete, listDelInit, h]

end Complete

/-! ## Inversion -/

/-- Everything a step can do, with the guards it passed. -/
inductive RxTrans (s : Rx) : RxAct → Rx → Prop
  | readZero {nonblock} (hpc : s.pc = .idle) : RxTrans s (.read 0 nonblock) (s.ret [] (-einval))
  | read {len nonblock} (hpc : s.pc = .idle) (hlen : len ≠ 0) :
    RxTrans s (.read len nonblock)
      { s with resetScale := false, pc := .setup (.read len nonblock) }
  | poll (hpc : s.pc = .idle) : RxTrans s .poll { s with pc := .setup .poll }
  | queueErr {c} (hpc : s.pc = .setup c) : RxTrans s (.queue true) (s.setupReturn c)
  | queueOk {c r rest} (hpc : s.pc = .setup c) (hreqs : s.rxReqs = r :: rest)
      (hen : s.enabled = true) :
    RxTrans s (.queue false)
      { s with rxReqs := rest, queued := r :: s.queued, pc := .queued r c }
  | listAdd {r c} (hpc : s.pc = .queued r c) :
    RxTrans s .listAdd { s with rxReqsActive := r :: s.rxReqsActive, pc := .setup c }
  | setupDone {c} (hpc : s.pc = .setup c) : RxTrans s .setupDone (s.setupReturn c)
  | take {len nonblock} (hpc : s.pc = .take len nonblock) :
    RxTrans s .take (s.readTake len nonblock)
  | wake {signal l} (hpc : s.pc = .sleeping l) :
    RxTrans s (.wake signal) { s with pc := .loop l }
  | next {l} (hpc : s.pc = .loop l) (hmore : s.More l) : RxTrans s .next (s.readNext l)
  | copyToUser {left l} (hpc : s.pc = .copy l) :
    RxTrans s (.copyToUser left) (s.readCopy l left)
  | copied {l size} (hpc : s.pc = .copied l size) : RxTrans s .copied (s.readCopied l size)
  | finish {l} (hpc : s.pc = .loop l) (hmore : ¬ s.More l) : RxTrans s .finish (s.readReturn l)
  | complete {r status payload} (hr : r ∈ s.queued) (hlen : payload.length ≤ usbBufsize) :
    RxTrans s (.complete r status payload) (s.complete r status payload)
  | disable (hreset : s.reset = .idle ∨ s.reset = .nullEp) :
    RxTrans s .disable { s with reset := .disabling }
  | disabled (hreset : s.reset = .disabling) (hq : s.queued = []) :
    RxTrans s .disabled { s with enabled := false, reset := .disabled }
  | resetCurrent (hreset : s.reset = .disabled) : RxTrans s .resetCurrent s.resetCurrent
  | clearBytes (hreset : s.reset = .clearBytes) :
    RxTrans s .clearBytes
      { s with currentRx := { s.currentRx with bytes := 0 }, reset := .clearBuf }
  | clearBuf (hreset : s.reset = .clearBuf) :
    RxTrans s .clearBuf
      { s with currentRx := { s.currentRx with buf := none }, reset := .setReset }
  | setReset (hreset : s.reset = .setReset) :
    RxTrans s .setReset { s with resetScale := true, reset := .draining }
  | drain (hreset : s.reset = .draining) : RxTrans s .drain s.resetDrain
  | enable {error} (hreset : s.reset = .enabling) :
    RxTrans s (.enable error) { s with enabled := !error, reset := .enablingTest 0 }
  | enableNull {i} (hreset : s.reset = .enablingTest i) :
    RxTrans s (.enableTest true) { s with reset := .nullEp }
  | enableTest {i} (hreset : s.reset = .enablingTest i) (hi : i < bulkCalls) :
    RxTrans s (.enableTest false) { s with reset := .enablingTest (i + 1) }

/-- **Inversion of a step.** -/
theorem rxTrans_of_rxStep {s s' : Rx} {a : RxAct} (h : rxStep s a = some s') : RxTrans s a s' := by
  cases a with simp only [rxStep] at h
  | read len nonblock =>
    split at h
    · next hpc =>
      split_ifs at h with hlen <;> cases h
      · exact hlen ▸ .readZero hpc
      · exact .read hpc hlen
    · cases h
  | queue error =>
    split at h
    · next hpc hreqs =>
      cases error with
      | true => cases h; exact .queueErr hpc
      | false =>
        simp only [Bool.false_eq_true, if_false] at h
        split_ifs at h with hen; cases h
        exact .queueOk hpc hreqs hen
    · cases h
  | poll | listAdd | take | copyToUser | copied =>
    split at h
    · cases h; constructor; assumption
    · cases h
  | setupDone =>
    split at h
    · split_ifs at h; cases h; exact .setupDone ‹_›
    · cases h
  | wake signal =>
    split at h
    · split_ifs at h; cases h; exact .wake ‹_›
    · cases h
  | next =>
    split at h
    · split_ifs at h with hmore; cases h; exact .next ‹_› hmore
    · cases h
  | finish =>
    split at h
    · split_ifs at h with hmore; cases h; exact .finish ‹_› hmore
    · cases h
  | complete r status payload =>
    split_ifs at h with hr; cases h; exact .complete hr.1 hr.2
  | disabled =>
    split_ifs at h with hreset; cases h; exact .disabled hreset.1 hreset.2
  | disable | resetCurrent | clearBytes | clearBuf | setReset | drain | enable =>
    split_ifs at h; cases h; constructor; assumption
  | enableTest null =>
    split at h
    · next hreset =>
      cases null with
      | true => cases h; exact .enableNull hreset
      | false =>
        simp only [Bool.false_eq_true, if_false] at h
        split_ifs at h with hi; cases h
        exact .enableTest hreset hi
    · cases h

end LddExample.ScaleUsb
