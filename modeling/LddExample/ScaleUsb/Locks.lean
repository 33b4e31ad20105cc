import LddExample.Lib.Lock
import LddExample.ScaleUsb.SoftReset

/-!
# The locks of `scale_usb.c`

Each entry of the driver as a program that takes and releases `lock_scale_io` and `lock`. What a
call finds when it first tests the device is in `LockDev`; the answers of the user's memory, of the
controller and of the device lists after each time `lock` was dropped are in the turns of its loops,
unending sequences of which the call takes as many as it needs. `wakes` says whether its wait ends,
by its event or by a signal. `DevCall.run c n` is the call with at most `n` turns of each loop.

* `DevCall.Relocks`: a non-blocking write without a free request, or a disconnect while a transmit
  request is queued.
* `DevCall.Ends`: a call that comes to an end. Its wait ends, if it waits; `setup_rx_reqs` empties
  `rx_reqs` or is refused; the copies of a read reach the end of what is asked for or completed, or
  find a reset. A soft reset never comes to an end.
* **`disciplined_iff`**: a call returns with both locks free exactly when it ends and does not lock
  again what it holds.
* **`lock_discipline`**: so do all the calls of a context.
-/

namespace LddExample.ScaleUsb

open Lock

/-- The mutex and the spinlock of `struct scale_dev`. -/
inductive ScaleLock
  | lockScaleIo
  | lock
deriving DecidableEq

/-- What an entry finds in the device and in the controller, after a successful `scale_bind`. -/
structure LockDev where
  faults : Faults
  bind : BindDev
  bound : BindDev.init.scaleBind faults qlen = .ret bind 0
  interface : ℤ
  /-- `dev->in` is not null -/
  inDesc : Bool
  /-- `dev->out` is not null -/
  outDesc : Bool
  scaleStatus : ℕ
  rx : Rx
  tx : Tx

/-! ## The entries -/

/-- `ENOTTY` -/
def enotty : ℤ := 25

/-- How a call stands. -/
inductive Outcome
  | returned (value : ℤ)
  /-- the turns of a loop are used up, or the call waits -/
  | running
  /-- a null pointer was dereferenced -/
  | oops
deriving DecidableEq

/-- An iteration of `setup_rx_reqs`. -/
structure SetupTurn where
  rxReqsEmpty : Bool
  queueError : Bool

/-- Whether `setup_rx_reqs`, which takes no lock, is done. `rx_complete` may put requests back on
`rx_reqs` at any time. -/
def setupRxReqs : ℕ → (ℕ → SetupTurn) → Bool
  | 0, _ => false
  | n + 1, turns =>
    if (turns 0).rxReqsEmpty then true
    else if (turns 0).queueError then true
    else setupRxReqs n fun i => turns (i + 1)

/-- An iteration of the copy loop of `scale_read`. -/
structure ReadTurn where
  rxBuffersEmpty : Bool
  /-- `actual` of the first buffer -/
  actual : ℕ
  /-- what `copy_to_user` leaves -/
  left : ℕ
  resetScale : Bool

/-- An iteration of the loop of `scale_write`. -/
structure WriteTurn where
  txReqsEmpty : Bool
  fault : Bool
  resetScale : Bool
  queueError : Bool

/-- The copy loop of `scale_read` and what follows it. -/
def readLoop : ℕ → (ℕ → ReadTurn) → ℕ → ℕ → ℕ → LockM ScaleLock Outcome
  | 0, _, _, _, _ => pure .running
  | n + 1, turns, len, bytesCopied, currentRxBytes =>
    let t := turns 0
    let ts := fun i => turns (i + 1)
    if (currentRxBytes ≠ 0 ∨ t.rxBuffersEmpty = false) ∧ len ≠ 0 then
      if currentRxBytes = 0 ∧ t.actual = 0 then readLoop n ts len bytesCopied 0
      else do
        let bytes := if currentRxBytes = 0 then t.actual else currentRxBytes
        release .lock
        let size := (if len > bytes then bytes else len) - t.left
        acquire .lock
        if t.resetScale then do
          release .lock
          release .lockScaleIo
          pure (.returned (-eagain))
        else
          readLoop n ts (len - size) (bytesCopied + size) (if size < bytes then bytes - size else 0)
    else do
      release .lock
      release .lockScaleIo
      pure (.returned (if bytesCopied ≠ 0 then bytesCopied else -eagain))

/-- `(current_rx_bytes == 0) && list_empty(&dev->rx_buffers)` -/
def Rx.NoData (s : Rx) : Prop :=
  s.currentRx.bytes = 0 ∧ s.rxBuffers = []

instance (s : Rx) : Decidable s.NoData :=
  inferInstanceAs (Decidable (_ ∧ _))

/-- `scale_read`; its wait takes no lock. -/
def scaleRead (d : LockDev) (len : ℕ) (nonblock wakes : Bool) (setup : ℕ → SetupTurn)
    (turns : ℕ → ReadTurn) (n : ℕ) : LockM ScaleLock Outcome :=
  if len = 0 then pure (.returned (-einval))
  else do
    acquire .lockScaleIo
    acquire .lock
    if setupRxReqs n setup = false then pure .running
    else if d.rx.NoData then do
      release .lock
      if nonblock then do
        release .lockScaleIo
        pure (.returned (-eagain))
      else if wakes then do
        acquire .lock
        readLoop n turns len 0 d.rx.currentRx.bytes
      else pure .running
    else readLoop n turns len 0 d.rx.currentRx.bytes

/-- The loop of `scale_write` and what follows it. -/
def writeLoop : ℕ → (ℕ → WriteTurn) → ℕ → ℕ → LockM ScaleLock Outcome
  | 0, _, _, _ => pure .running
  | n + 1, turns, len, bytesCopied =>
    let t := turns 0
    let ts := fun i => turns (i + 1)
    if t.txReqsEmpty = false ∧ len ≠ 0 then do
      let size := if len > usbBufsize then usbBufsize else len
      release .lock
      if t.fault then do
        release .lockScaleIo
        pure (.returned bytesCopied)
      else do
        acquire .lock
        if t.resetScale ∨ t.queueError then do
          release .lock
          release .lockScaleIo
          pure (.returned (-eagain))
        else writeLoop n ts (len - size) (bytesCopied + size)
    else do
      release .lock
      release .lockScaleIo
      pure (.returned (if bytesCopied ≠ 0 then bytesCopied else -eagain))

/-- `scale_write`. Without a free request the path for `O_NONBLOCK` has `mutex_lock` where
`scale_read` has `mutex_unlock`. -/
def scaleWrite (d : LockDev) (len : ℕ) (nonblock wakes : Bool) (turns : ℕ → WriteTurn) (n : ℕ) :
    LockM ScaleLock Outcome :=
  if d.interface < 0 then pure (.returned (-einval))
  else if len = 0 then pure (.returned (-einval))
  else do
    acquire .lockScaleIo
    acquire .lock
    if d.tx.txReqs = [] then do
      release .lock
      if nonblock then do
        acquire .lockScaleIo
        pure (.returned (-eagain))
      else if wakes then do
        acquire .lock
        writeLoop n turns len 0
      else pure .running
    else writeLoop n turns len 0

/-- `scale_poll`; `d` is what it finds after `poll_wait`. -/
def scalePoll (d : LockDev) (setup : ℕ → SetupTurn) (n : ℕ) : LockM ScaleLock Outcome := do
  acquire .lockScaleIo
  acquire .lock
  if setupRxReqs n setup = false then pure .running
  else do
    release .lock
    release .lockScaleIo
    acquire .lock
    let pollout := if d.tx.txReqs ≠ [] then 0x104 else 0
    let pollin := if d.rx.currentRx.bytes ≠ 0 ∨ d.rx.rxBuffers ≠ [] then 0x41 else 0
    release .lock
    pure (.returned (pollout + pollin))

/-- `scale_fsync`; its wait takes no lock. -/
def scaleFsync (d : LockDev) (wakes : Bool) : LockM ScaleLock Outcome := do
  acquire .lock
  let txListEmpty := d.tx.txReqs = []
  release .lock
  if ¬txListEmpty ∧ wakes = false then pure .running
  else pure (.returned 0)

/-- The codes `scale_ioctl` knows, and the others. -/
inductive IoctlCode
  | getScaleUsbStatus
  | setScaleUsbStatus
  | other

/-- `scale_ioctl` -/
def scaleIoctl (d : LockDev) (code : IoctlCode) : LockM ScaleLock Outcome := do
  acquire .lock
  let status : ℤ := match code with
    | .getScaleUsbStatus => d.scaleStatus + if 0 ≤ d.interface then 256 else 0
    | .setScaleUsbStatus => 0
    | .other => -enotty
  release .lock
  pure (.returned status)

/-- `rx_complete`, whose `spin_lock_irqsave` is commented out -/
def rxComplete : LockM ScaleLock Unit := pure ()

/-- `tx_complete` -/
def txComplete : LockM ScaleLock Unit := do
  acquire .lock
  release .lock

/-- `usb_ep_disable` runs the completion of each queued request in the caller's context. -/
def usbEpDisable (complete : LockM ScaleLock Unit) (queued : List ℕ) : LockM ScaleLock Unit :=
  replicate complete queued.length

/-- `if (desc) usb_ep_disable(ep);` -/
def disableIf (desc : Bool) (complete : LockM ScaleLock Unit) (queued : List ℕ) :
    LockM ScaleLock Unit :=
  if desc then usbEpDisable complete queued else pure ()

/-- `scale_reset_interface` -/
def scaleResetInterface (d : LockDev) : LockM ScaleLock Unit :=
  if d.interface < 0 then pure ()
  else do
    disableIf d.inDesc txComplete d.tx.queued
    disableIf d.outDesc rxComplete d.rx.queued

/-- `scale_disconnect` -/
def scaleDisconnect (d : LockDev) : LockM ScaleLock Outcome := do
  acquire .lock
  scaleResetInterface d
  release .lock
  pure (.returned 0)

/-- `scale_soft_reset`, which takes no lock itself; the flags are the failures of
`usb_ep_enable`. -/
def scaleSoftReset (d : LockDev) (inError outError : Bool) (n : ℕ) : LockM ScaleLock Outcome := do
  usbEpDisable txComplete d.tx.queued
  usbEpDisable rxComplete d.rx.queued
  match softReset d.bind n d.tx.queued (d.rx.queued.map fun r => ⟨r, -eshutdown, []⟩) inError
    outError d.rx d.tx with
  | .ret _ _ => pure (.returned 0)
  | .running => pure .running
  | .oops _ _ => pure .oops

/-- A call, with what it finds and the answers it gets. -/
inductive DevCall
  | read (d : LockDev) (len : ℕ) (nonblock wakes : Bool) (setup : ℕ → SetupTurn)
      (turns : ℕ → ReadTurn)
  | write (d : LockDev) (len : ℕ) (nonblock wakes : Bool) (turns : ℕ → WriteTurn)
  | poll (d : LockDev) (setup : ℕ → SetupTurn)
  | fsync (d : LockDev) (wakes : Bool)
  | ioctl (d : LockDev) (code : IoctlCode)
  | disconnect (d : LockDev)
  | softReset (d : LockDev) (inError outError : Bool)

/-- The call with at most `n` turns of each loop. -/
def DevCall.run : DevCall → ℕ → LockM ScaleLock Outcome
  | .read d len nonblock wakes setup turns, n => scaleRead d len nonblock wakes setup turns n
  | .write d len nonblock wakes turns, n => scaleWrite d len nonblock wakes turns n
  | .poll d setup, n => scalePoll d setup n
  | .fsync d wakes, _ => scaleFsync d wakes
  | .ioctl d code, _ => scaleIoctl d code
  | .disconnect d, _ => scaleDisconnect d
  | .softReset d inError outError, n => scaleSoftReset d inError outError n

/-- A call has returned and holds no lock. -/
def Released (v : Outcome) (h : List ScaleLock) : Prop :=
  (∃ value, v = .returned value) ∧ h = []

theorem released_nil (value : ℤ) : Released (.returned value) [] := ⟨⟨value, rfl⟩, rfl⟩

theorem not_released_running (h : List ScaleLock) : ¬Released .running h := by
  rintro ⟨⟨value, hvalue⟩, -⟩
  cases hvalue

theorem not_spec_of_running {x : LockM ScaleLock Outcome} {h h' : List ScaleLock}
    (hrun : x.run h = .ok (.running, h')) : ¬Spec h x Released := by
  rintro ⟨v, h'', hok, hrel⟩
  rw [hrun] at hok
  cases hok
  exact not_released_running _ hrel

theorem spec_release_both (value : ℤ) :
    Spec [.lock, .lockScaleIo]
      (do release .lock; release .lockScaleIo; pure (.returned value) : LockM ScaleLock Outcome)
      Released :=
  Spec.release (Spec.release (Spec.pure (released_nil _)))

/-! ## The loops -/

/-- `setup_rx_reqs` stops: `rx_reqs` is empty, or `usb_ep_queue` fails. -/
def SetupTurn.Ends (t : SetupTurn) : Prop :=
  t.rxReqsEmpty = true ∨ t.queueError = true

theorem setupRxReqs_succ (n : ℕ) (turns : ℕ → SetupTurn) :
    setupRxReqs (n + 1) turns = true ↔
      (turns 0).Ends ∨ setupRxReqs n (fun i => turns (i + 1)) = true := by
  rw [setupRxReqs, SetupTurn.Ends]
  split_ifs <;> simp_all

theorem setupRxReqs_iff (n : ℕ) (turns : ℕ → SetupTurn) :
    setupRxReqs n turns = true ↔ ∃ k < n, (turns k).Ends := by
  induction n generalizing turns with
  | zero => simp [setupRxReqs]
  | succ n ih =>
    rw [setupRxReqs_succ, ih]
    constructor
    · rintro (h | ⟨k, hk, h⟩)
      · exact ⟨0, Nat.succ_pos n, h⟩
      · exact ⟨k + 1, Nat.succ_lt_succ hk, h⟩
    · rintro ⟨k, hk, h⟩
      cases k with
      | zero => exact .inl h
      | succ k => exact .inr ⟨k, Nat.lt_of_succ_lt_succ hk, h⟩

/-- The bytes that are left of `len` and of the current buffer after a turn. -/
def ReadTurn.next (t : ReadTurn) (p : ℕ × ℕ) : ℕ × ℕ :=
  let bytes := if p.2 = 0 then t.actual else p.2
  let size := min p.1 bytes - t.left
  (p.1 - size, bytes - size)

/-- What is left before turn `k`. -/
def readRest (turns : ℕ → ReadTurn) (p : ℕ × ℕ) : ℕ → ℕ × ℕ
  | 0 => p
  | k + 1 => (turns k).next (readRest turns p k)

/-- Nothing is left of `len`, or of the buffers, or the copy of the turn finds a reset. -/
def ReadTurn.Ends (t : ReadTurn) (p : ℕ × ℕ) : Prop :=
  p.1 = 0 ∨ (p.2 = 0 ∧ t.rxBuffersEmpty = true) ∨
    (t.resetScale = true ∧ ¬(p.2 = 0 ∧ t.actual = 0))

instance (t : ReadTurn) (p : ℕ × ℕ) : Decidable (t.Ends p) :=
  inferInstanceAs (Decidable (_ ∨ _ ∨ _))

section ReadLoop

variable {turns : ℕ → ReadTurn} {n len bytesCopied currentRxBytes : ℕ}

theorem readRest_succ (turns : ℕ → ReadTurn) (p : ℕ × ℕ) (k : ℕ) :
    readRest turns p (k + 1) = readRest (fun i => turns (i + 1)) ((turns 0).next p) k := by
  induction k with
  | zero => rfl
  | succ k ih => rw [readRest, ih, readRest]

theorem spec_readLoop_ends (h : (turns 0).Ends (len, currentRxBytes)) :
    Spec [.lock, .lockScaleIo] (readLoop (n + 1) turns len bytesCopied currentRxBytes)
      Released := by
  rw [readLoop]
  refine Spec.ite (fun hmore => ?_) fun _ => spec_release_both _
  obtain h | ⟨hcur, hempty⟩ | ⟨hreset, hcopy⟩ := h
  · exact absurd h hmore.2
  · rw [hempty] at hmore
    exact absurd hcur (hmore.1.resolve_right (by decide))
  · rw [if_neg hcopy]
    refine Spec.release (Spec.acquire (by decide) ?_)
    rw [if_pos hreset]
    exact spec_release_both _

/-- The other turns hold both locks in the end. -/
theorem run_readLoop_turn (bytesCopied : ℕ) (h : ¬(turns 0).Ends (len, currentRxBytes)) :
    ∃ bytesCopied', ∀ n, (readLoop (n + 1) turns len bytesCopied currentRxBytes).run
        [.lock, .lockScaleIo] =
      (readLoop n (fun i => turns (i + 1)) ((turns 0).next (len, currentRxBytes)).1 bytesCopied'
        ((turns 0).next (len, currentRxBytes)).2).run [.lock, .lockScaleIo] := by
  simp only [ReadTurn.Ends, not_or] at h
  obtain ⟨hlen, hdata, hreset⟩ := h
  have hmore : (currentRxBytes ≠ 0 ∨ (turns 0).rxBuffersEmpty = false) ∧ len ≠ 0 := by
    refine ⟨?_, hlen⟩
    rwa [not_and_or, Bool.not_eq_true] at hdata
  by_cases hskip : currentRxBytes = 0 ∧ (turns 0).actual = 0
  · refine ⟨bytesCopied, fun n => ?_⟩
    rw [readLoop, if_pos hmore, if_pos hskip]
    simp [hskip, ReadTurn.next]
  · have hnot : ¬(turns 0).resetScale = true := fun hr => hreset ⟨hr, hskip⟩
    have hrel : (release ScaleLock.lock).run [.lock, .lockScaleIo] = .ok ((), [.lockScaleIo]) := rfl
    have hacq : (acquire ScaleLock.lock).run [.lockScaleIo] = .ok ((), [.lock, .lockScaleIo]) := rfl
    generalize hbytes : (if currentRxBytes = 0 then (turns 0).actual else currentRxBytes) = bytes
    refine ⟨bytesCopied + (min len bytes - (turns 0).left), fun n => ?_⟩
    have hmin : (if len > bytes then bytes else len) = min len bytes := by
      split_ifs <;> omega
    have hsub : (if min len bytes - (turns 0).left < bytes then
        bytes - (min len bytes - (turns 0).left) else 0) =
          bytes - (min len bytes - (turns 0).left) := by
      split_ifs <;> omega
    rw [readLoop, if_pos hmore, if_neg hskip]
    dsimp only
    rw [hbytes, run_bind_ok hrel, run_bind_ok hacq, if_neg hnot, hmin, hsub, ReadTurn.next, hbytes]

/-- **The loop comes back with both locks free once one of its turns ends it.** -/
theorem spec_readLoop {k : ℕ} (hk : (turns k).Ends (readRest turns (len, currentRxBytes) k))
    (hn : k < n) :
    Spec [.lock, .lockScaleIo] (readLoop n turns len bytesCopied currentRxBytes) Released := by
  obtain ⟨n, rfl⟩ := Nat.exists_eq_add_one_of_ne_zero (Nat.ne_zero_of_lt hn)
  induction k generalizing turns n len bytesCopied currentRxBytes with
  | zero => exact spec_readLoop_ends hk
  | succ k ih =>
    by_cases h : (turns 0).Ends (len, currentRxBytes)
    · exact spec_readLoop_ends h
    · rw [readRest_succ] at hk
      obtain ⟨bytesCopied', hrun⟩ := run_readLoop_turn bytesCopied h
      obtain ⟨m, rfl⟩ := Nat.exists_eq_add_one_of_ne_zero (show n ≠ 0 by omega)
      rw [Spec, hrun]
      exact ih hk m (by omega)

/-- **It comes back only then.** -/
theorem ends_of_spec_readLoop
    (hspec : Spec [.lock, .lockScaleIo] (readLoop n turns len bytesCopied currentRxBytes)
      Released) :
    ∃ k, (turns k).Ends (readRest turns (len, currentRxBytes) k) := by
  induction n generalizing turns len bytesCopied currentRxBytes with
  | zero => exact absurd hspec (not_spec_of_running rfl)
  | succ n ih =>
    by_cases h : (turns 0).Ends (len, currentRxBytes)
    · exact ⟨0, h⟩
    · obtain ⟨bytesCopied', hrun⟩ := run_readLoop_turn bytesCopied h
      rw [Spec, hrun] at hspec
      obtain ⟨k, hk⟩ := ih hspec
      exact ⟨k + 1, by rw [readRest_succ]; exact hk⟩

end ReadLoop

/-! ## The calls -/

/-- The write that locks the mutex a second time, and the disconnect whose completions lock the
spinlock it holds. -/
def DevCall.Relocks : DevCall → Prop
  | .write d len nonblock _ _ => 0 ≤ d.interface ∧ len ≠ 0 ∧ d.tx.txReqs = [] ∧ nonblock = true
  | .disconnect d => 0 ≤ d.interface ∧ d.inDesc = true ∧ d.tx.queued ≠ []
  | .read .. | .poll .. | .fsync .. | .ioctl .. | .softReset .. => False

/-- The call comes to an end. -/
def DevCall.Ends : DevCall → Prop
  | .read d len nonblock wakes setup turns =>
    len = 0 ∨ ((∃ k, (setup k).Ends) ∧ ((d.rx.NoData ∧ nonblock = true) ∨
      ((d.rx.NoData → wakes = true) ∧
        ∃ k, (turns k).Ends (readRest turns (len, d.rx.currentRx.bytes) k))))
  | .write d len nonblock wakes _ =>
    d.interface < 0 ∨ len = 0 ∨ d.tx.txReqs ≠ [] ∨ nonblock = true ∨ wakes = true
  | .fsync d wakes => d.tx.txReqs = [] ∨ wakes = true
  | .poll _ setup => ∃ k, (setup k).Ends
  | .softReset .. => False
  | .ioctl .. | .disconnect _ => True

section Calls

variable {d : LockDev} {len n : ℕ} {nonblock wakes : Bool}

theorem run_scaleRead_setup {setup : ℕ → SetupTurn} (turns : ℕ → ReadTurn) (hlen : len ≠ 0)
    (hsetup : setupRxReqs n setup = false) :
    (scaleRead d len nonblock wakes setup turns n).run [] =
      .ok (.running, [.lock, .lockScaleIo]) := by
  rw [scaleRead, if_neg hlen, if_pos hsetup]
  rfl

theorem run_scaleRead {setup : ℕ → SetupTurn} (turns : ℕ → ReadTurn) (hlen : len ≠ 0)
    (hsetup : setupRxReqs n setup = true)
    (hdata : d.rx.NoData → nonblock = false ∧ wakes = true) :
    (scaleRead d len nonblock wakes setup turns n).run [] =
      (readLoop n turns len 0 d.rx.currentRx.bytes).run [.lock, .lockScaleIo] := by
  rw [scaleRead, if_neg hlen, if_neg (by simp [hsetup])]
  by_cases hnone : d.rx.NoData
  · obtain ⟨hnb, hw⟩ := hdata hnone
    rw [if_pos hnone, hnb, hw]
    rfl
  · rw [if_neg hnone]
    rfl

theorem run_scaleRead_waits {setup : ℕ → SetupTurn} (turns : ℕ → ReadTurn) (hlen : len ≠ 0)
    (hsetup : setupRxReqs n setup = true) (hnone : d.rx.NoData) :
    (scaleRead d len false false setup turns n).run [] = .ok (.running, [.lockScaleIo]) := by
  rw [scaleRead, if_neg hlen, if_neg (by simp [hsetup]), if_pos hnone]
  rfl

theorem spec_scaleRead_back {setup : ℕ → SetupTurn} (turns : ℕ → ReadTurn) (hlen : len ≠ 0)
    (hsetup : setupRxReqs n setup = true) (hnone : d.rx.NoData) :
    Spec [] (scaleRead d len true wakes setup turns n) Released := by
  rw [scaleRead, if_neg hlen, if_neg (by simp [hsetup]), if_pos hnone]
  refine Spec.acquire (by decide) (Spec.acquire (by decide) (Spec.release (Spec.release ?_)))
  exact Spec.pure (released_nil _)

theorem spec_scaleRead {setup : ℕ → SetupTurn} {turns : ℕ → ReadTurn}
    (h : (DevCall.read d len nonblock wakes setup turns).Ends) :
    ∃ n, Spec [] (scaleRead d len nonblock wakes setup turns n) Released := by
  by_cases hlen : len = 0
  · refine ⟨0, ?_⟩
    rw [scaleRead, if_pos hlen]
    exact Spec.pure (released_nil _)
  obtain ⟨⟨j, hj⟩, h⟩ := h.resolve_left hlen
  by_cases hback : d.rx.NoData ∧ nonblock = true
  · obtain ⟨hnone, rfl⟩ := hback
    exact ⟨j + 1, spec_scaleRead_back turns hlen
      ((setupRxReqs_iff _ setup).2 ⟨j, Nat.lt_succ_self j, hj⟩) hnone⟩
  · obtain ⟨hw, k, hk⟩ := h.resolve_left hback
    refine ⟨max j k + 1, ?_⟩
    have hsetup : setupRxReqs (max j k + 1) setup = true :=
      (setupRxReqs_iff _ setup).2 ⟨j, by omega, hj⟩
    have hnb : d.rx.NoData → nonblock = false := fun hnone =>
      Bool.not_eq_true _ ▸ fun h => hback ⟨hnone, h⟩
    rw [Spec, run_scaleRead turns hlen hsetup fun hnone => ⟨hnb hnone, hw hnone⟩]
    exact spec_readLoop hk (by omega)

theorem ends_of_spec_scaleRead {setup : ℕ → SetupTurn} {turns : ℕ → ReadTurn}
    (h : Spec [] (scaleRead d len nonblock wakes setup turns n) Released) :
    (DevCall.read d len nonblock wakes setup turns).Ends := by
  by_cases hlen : len = 0
  · exact .inl hlen
  have hsetup : setupRxReqs n setup = true := by
    by_contra hnot
    exact not_spec_of_running (run_scaleRead_setup turns hlen (Bool.not_eq_true _ ▸ hnot)) h
  obtain ⟨j, -, hj⟩ := (setupRxReqs_iff _ setup).1 hsetup
  refine .inr ⟨⟨j, hj⟩, ?_⟩
  by_cases hback : d.rx.NoData ∧ nonblock = true
  · exact .inl hback
  have hnb : d.rx.NoData → nonblock = false := fun hnone =>
    Bool.not_eq_true _ ▸ fun h => hback ⟨hnone, h⟩
  have hw : d.rx.NoData → wakes = true := by
    intro hnone
    by_contra hwakes
    obtain rfl := hnb hnone
    obtain rfl := Bool.not_eq_true _ ▸ hwakes
    exact not_spec_of_running (run_scaleRead_waits turns hlen hsetup hnone) h
  rw [Spec, run_scaleRead turns hlen hsetup fun hnone => ⟨hnb hnone, hw hnone⟩] at h
  exact .inr ⟨hw, ends_of_spec_readLoop h⟩

theorem spec_scalePoll_iff (setup : ℕ → SetupTurn) :
    Spec [] (scalePoll d setup n) Released ↔ setupRxReqs n setup = true := by
  by_cases hsetup : setupRxReqs n setup = true
  · refine iff_of_true ?_ hsetup
    rw [scalePoll, if_neg (by simp [hsetup])]
    refine Spec.acquire (by decide) (Spec.acquire (by decide) (Spec.release (Spec.release ?_)))
    exact Spec.acquire (by decide) (Spec.release (Spec.pure (released_nil _)))
  · refine iff_of_false ?_ hsetup
    have hrun : (scalePoll d setup n).run [] = .ok (.running, [.lock, .lockScaleIo]) := by
      rw [scalePoll, if_pos (Bool.not_eq_true _ ▸ hsetup)]
      rfl
    exact not_spec_of_running hrun

/-- Each turn of the write takes at least one byte. -/
theorem spec_writeLoop (turns : ℕ → WriteTurn) (bytesCopied : ℕ) (hn : len < n) :
    Spec [.lock, .lockScaleIo] (writeLoop n turns len bytesCopied) Released := by
  induction n generalizing turns len bytesCopied with
  | zero => cases hn
  | succ n ih =>
    rw [writeLoop]
    refine Spec.ite (fun hmore => Spec.release (Spec.ite (fun _ => ?_) fun _ => ?_)) fun _ =>
      spec_release_both _
    · exact Spec.release (Spec.pure (released_nil _))
    · refine Spec.acquire (by decide) (Spec.ite (fun _ => ?_) fun _ => ih _ _ ?_)
      · exact spec_release_both _
      · have hlen := hmore.2
        rw [usbBufsize]
        split_ifs <;> omega

theorem spec_scaleWrite {turns : ℕ → WriteTurn}
    (hends : (DevCall.write d len nonblock wakes turns).Ends)
    (h : ¬(DevCall.write d len nonblock wakes turns).Relocks) :
    Spec [] (scaleWrite d len nonblock wakes turns (len + 1)) Released := by
  have hloop := spec_writeLoop turns 0 (Nat.lt_succ_self len)
  refine Spec.ite (fun _ => Spec.pure (released_nil _)) fun hif => ?_
  refine Spec.ite (fun _ => Spec.pure (released_nil _)) fun hlen => ?_
  refine Spec.acquire (by decide) (Spec.acquire (by decide) ?_)
  refine Spec.ite (fun htx => ?_) fun _ => hloop
  refine Spec.release (Spec.ite (fun hnb => ?_) fun hnb => Spec.ite (fun _ => ?_) fun hw => ?_)
  · exact absurd ⟨Int.not_lt.1 hif, hlen, htx, hnb⟩ h
  · exact Spec.acquire (by decide) hloop
  · obtain hneg | hzero | hfree | hb | hwakes := hends
    · exact absurd hneg hif
    · exact absurd hzero hlen
    · exact absurd htx hfree
    · exact absurd hb hnb
    · exact absurd hwakes hw

theorem run_scaleWrite_waits {turns : ℕ → WriteTurn}
    (h : ¬(DevCall.write d len nonblock wakes turns).Ends) (n : ℕ) :
    (scaleWrite d len nonblock wakes turns n).run [] = .ok (.running, [.lockScaleIo]) := by
  simp only [DevCall.Ends, not_or, not_not, Bool.not_eq_true] at h
  obtain ⟨hif, hlen, htx, hnb, hw⟩ := h
  rw [scaleWrite, if_neg hif, if_neg hlen, if_pos htx, hnb, hw]
  rfl

theorem scaleWrite_relocks {turns : ℕ → WriteTurn}
    (h : (DevCall.write d len nonblock wakes turns).Relocks) :
    (scaleWrite d len nonblock wakes turns n).run [] = .error (.acquireHeld .lockScaleIo) := by
  obtain ⟨hif, hlen, htx, hnb⟩ := h
  rw [scaleWrite, if_neg (Int.not_lt.2 hif), if_neg hlen, if_pos htx, if_pos hnb]
  rfl

theorem spec_scaleFsync_iff (d : LockDev) (wakes : Bool) :
    Spec [] (scaleFsync d wakes) Released ↔ (DevCall.fsync d wakes).Ends := by
  by_cases hends : (DevCall.fsync d wakes).Ends
  · refine iff_of_true (Spec.acquire (by decide) (Spec.release ?_)) hends
    refine Spec.ite (fun h => ?_) fun _ => ?_
    · obtain htx | hw := hends
      · exact absurd htx h.1
      · exact absurd (hw.symm.trans h.2) (by decide)
    · exact Spec.pure (released_nil _)
  · refine iff_of_false ?_ hends
    simp only [DevCall.Ends, not_or, Bool.not_eq_true] at hends
    have hrun : (scaleFsync d wakes).run [] = (if ¬d.tx.txReqs = [] ∧ wakes = false then
        pure .running else pure (.returned 0) : LockM ScaleLock Outcome).run [] := rfl
    rw [if_pos hends] at hrun
    exact not_spec_of_running hrun

theorem spec_txComplete {h : List ScaleLock} (hl : .lock ∉ h) :
    Spec h txComplete fun _ h' => h' = h :=
  Spec.acquire hl (Spec.release_last _)

theorem spec_disable_rx (h : List ScaleLock) (queued : List ℕ) :
    Spec h (usbEpDisable rxComplete queued) fun _ h' => h' = h :=
  Spec.replicate (Spec.pure rfl) _

theorem spec_scaleDisconnect (h : ¬(DevCall.disconnect d).Relocks) :
    Spec [] (scaleDisconnect d) Released := by
  have hreset : Spec [.lock] (scaleResetInterface d) fun _ h' => h' = [.lock] := by
    refine Spec.ite (fun _ => Spec.pure rfl) fun hif => ?_
    refine Spec.bind (Q := fun _ h' => h' = [ScaleLock.lock]) ?_ fun _ h' he => ?_
    · refine Spec.ite (fun hin => ?_) fun _ => Spec.pure rfl
      have hq : d.tx.queued = [] := by
        by_contra hne
        exact h ⟨Int.not_lt.1 hif, hin, hne⟩
      rw [usbEpDisable, hq]
      exact Spec.pure rfl
    · subst he
      exact Spec.ite (fun _ => spec_disable_rx _ _) fun _ => Spec.pure rfl
  refine Spec.acquire (by decide) (hreset.bind fun _ h' he => ?_)
  subst he
  exact Spec.release (Spec.pure (released_nil _))

theorem scaleDisconnect_relocks (h : (DevCall.disconnect d).Relocks) :
    (scaleDisconnect d).run [] = .error (.acquireHeld .lock) := by
  obtain ⟨hif, hin, hq⟩ := h
  obtain ⟨r, rest, hcons⟩ := List.exists_cons_of_ne_nil hq
  have hdis : (usbEpDisable txComplete d.tx.queued).run [ScaleLock.lock] =
      .error (.acquireHeld .lock) := by
    rw [hcons]
    rfl
  have hreset : (scaleResetInterface d).run [ScaleLock.lock] = .error (.acquireHeld .lock) := by
    rw [scaleResetInterface, if_neg (Int.not_lt.2 hif), disableIf, if_pos hin]
    exact run_bind_error hdis
  have hacq : (acquire ScaleLock.lock).run [] = .ok ((), [.lock]) := rfl
  rw [scaleDisconnect, run_bind_ok hacq]
  exact run_bind_error hreset

/-- Its completions leave the locks alone, and it does not return. -/
theorem spec_scaleSoftReset (d : LockDev) (inError outError : Bool) (n : ℕ) :
    Spec [] (scaleSoftReset d inError outError n) fun v h => ¬Released v h := by
  refine (Spec.replicate (spec_txComplete (by decide)) _).bind fun _ h' he => ?_
  subst he
  refine (spec_disable_rx _ _).bind fun _ h' he => ?_
  subst he
  split
  next hret => exact absurd hret (softReset_ne_ret d.bound)
  next => exact Spec.pure (not_released_running _)
  next =>
    refine Spec.pure ?_
    rintro ⟨⟨value, hvalue⟩, -⟩
    cases hvalue

end Calls

/-- **A call returns with both locks free exactly when it ends and does not lock again what it
holds.** -/
theorem disciplined_iff (c : DevCall) :
    (∃ n, Spec [] (c.run n) Released) ↔ c.Ends ∧ ¬c.Relocks := by
  cases c with
  | read d len nonblock wakes setup turns =>
    rw [and_iff_left (show ¬(DevCall.read d len nonblock wakes setup turns).Relocks from id)]
    exact ⟨fun ⟨_, h⟩ => ends_of_spec_scaleRead h, spec_scaleRead⟩
  | write d len nonblock wakes turns =>
    constructor
    · rintro ⟨n, h⟩
      refine ⟨?_, fun hre => Spec.not_of_error (scaleWrite_relocks hre) h⟩
      by_contra hends
      exact not_spec_of_running (run_scaleWrite_waits hends n) h
    · rintro ⟨hends, hre⟩
      exact ⟨_, spec_scaleWrite hends hre⟩
  | fsync d wakes =>
    rw [and_iff_left (show ¬(DevCall.fsync d wakes).Relocks from id), ← spec_scaleFsync_iff]
    exact ⟨fun ⟨_, h⟩ => h, fun h => ⟨0, h⟩⟩
  | disconnect d =>
    constructor
    · rintro ⟨n, h⟩
      exact ⟨trivial, fun hre => Spec.not_of_error (scaleDisconnect_relocks hre) h⟩
    · rintro ⟨-, hre⟩
      exact ⟨0, spec_scaleDisconnect hre⟩
  | softReset d inError outError =>
    refine iff_of_false ?_ fun h => h.1
    rintro ⟨n, h⟩
    obtain ⟨v, h', -, hrel, hnot⟩ := h.and (spec_scaleSoftReset d inError outError n)
    exact hnot hrel
  | poll d setup =>
    rw [and_iff_left (show ¬(DevCall.poll d setup).Relocks from id)]
    constructor
    · rintro ⟨n, h⟩
      obtain ⟨k, -, hk⟩ := (setupRxReqs_iff n setup).1 ((spec_scalePoll_iff setup).1 h)
      exact ⟨k, hk⟩
    · rintro ⟨k, hk⟩
      exact ⟨k + 1, (spec_scalePoll_iff setup).2
        ((setupRxReqs_iff _ setup).2 ⟨k, Nat.lt_succ_self k, hk⟩)⟩
  | ioctl =>
    refine iff_of_true ⟨0, ?_⟩ ⟨trivial, id⟩
    exact Spec.acquire (by decide) (Spec.release (Spec.pure (released_nil _)))

/-! ## Sequences of calls -/

/-- A context between its calls, in a call that has not returned, or ended by a misuse. -/
inductive Context
  | returned (held : List ScaleLock)
  | inCall (v : Outcome)
  | misused (m : Misuse ScaleLock)

/-- The next call of the context, with at most `turns c` turns of its loops. A context that is not
between calls makes none. -/
def callStep (turns : DevCall → ℕ) : Context → DevCall → Option Context
  | .returned held, c =>
    match (c.run (turns c)).run held with
    | .ok (.returned _, held') => some (.returned held')
    | .ok (v, _) => some (.inCall v)
    | .error m => some (.misused m)
  | s, _ => some s

/-- Every call so far has returned, without misuse and with both locks free. -/
def Context.Disciplined : Context → Prop
  | .returned held => held = []
  | .inCall _ | .misused _ => False

/-- The next call of the context, if it makes one, returns with both locks free. -/
def Context.Releases (turns : DevCall → ℕ) : Context → DevCall → Prop
  | .returned held, c => Spec held (c.run (turns c)) Released
  | .inCall _, _ | .misused _, _ => True

theorem callStep_disciplined {turns : DevCall → ℕ} {s s' : Context} {c : DevCall}
    (hs : s.Disciplined) (h : callStep turns s c = some s') :
    s'.Disciplined ↔ s.Releases turns c := by
  cases s with
  | returned held =>
    simp only [callStep] at h
    simp only [Context.Releases, Spec, Released]
    cases hrun : (c.run (turns c)).run held with
    | error m =>
      rw [hrun] at h
      cases h
      exact iff_of_false id fun ⟨_, _, hok, _⟩ => by cases hok
    | ok r =>
      obtain ⟨v, held'⟩ := r
      rw [hrun] at h
      cases v with
      | returned value =>
        cases h
        exact ⟨fun hnil => ⟨_, _, rfl, ⟨value, rfl⟩, hnil⟩, fun ⟨_, _, hok, _, hnil⟩ => by
          cases hok
          exact hnil⟩
      | running | oops =>
        cases h
        exact iff_of_false id fun ⟨_, _, hok, ⟨_, hv⟩, _⟩ => by
          cases hok
          cases hv
  | inCall | misused => exact hs.elim

theorem callStep_total (turns : DevCall → ℕ) (s : Context) (c : DevCall) :
    ∃ s', callStep turns s c = some s' := by
  cases s with
  | returned held =>
    simp only [callStep]
    split <;> exact ⟨_, rfl⟩
  | inCall | misused => exact ⟨_, rfl⟩

/-- All calls return with both locks free exactly when each one does that starts with both free. -/
theorem always_disciplined_iff (turns : DevCall → ℕ) (cs : List DevCall) :
    Lts.Always (callStep turns) Context.Disciplined (.returned []) cs ↔
      ∀ c ∈ cs, Spec [] (c.run (turns c)) Released := by
  induction cs with
  | nil => exact iff_of_true rfl fun _ hc => nomatch hc
  | cons c cs ih =>
    obtain ⟨s, hs⟩ := callStep_total turns (.returned []) c
    have hstep := callStep_disciplined (s := .returned []) rfl hs
    rw [Lts.always_cons_of_step hs, List.forall_mem_cons,
      and_iff_right (show (Context.returned []).Disciplined from rfl)]
    constructor
    · intro hall
      have hdisc := hall.head
      refine ⟨hstep.1 hdisc, ih.1 ?_⟩
      cases s with
      | returned held =>
        obtain rfl : held = [] := hdisc
        exact hall
      | inCall | misused => exact hdisc.elim
    · rintro ⟨hc, hcs⟩
      have hdisc := hstep.2 hc
      cases s with
      | returned held =>
        obtain rfl : held = [] := hdisc
        exact ih.2 hcs
      | inCall | misused => exact hdisc.elim

/-- A device in use, with all its transmit requests queued. -/
def busyDev : LockDev where
  faults := plenty fun _ => false
  bind := _
  bound := rfl
  interface := 0
  inDesc := true
  outDesc := true
  scaleStatus := 0
  rx := .bind true
  tx := { Tx.bind true with
    txReqs := []
    txReqsActive := List.range qlen
    queued := List.range qlen }

-- ten writes without a completion lead there
example : (Lts.exec (txStep 64) (Tx.bind true)
    ((List.replicate qlen [TxAct.write 0 [65] true, .next, .copyFromUser false, .copied,
      .queue false, .listAdd, .next]).flatten ++ [.write 0 [65] true])).map
        (fun s => (s.txReqs, s.pc matches .stuck _)) = some ([], true) := by
  decide

end LddExample.ScaleUsb
