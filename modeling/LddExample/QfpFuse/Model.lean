import LddExample.Lib.Interact
import Mathlib.Data.Int.Notation

/-!
# The QFPROM driver

The driver lets a process read and blow the fuses of a QFPROM through `ioctl`. It acts on the
memory-mapped words of the PROM, on a regulator that has to be on while a fuse is blown, and on the
memory of the process.

* `Io`: the actions; `Fuse` is the monad of the driver. A `Fault` is an access outside the buffer
  that was allocated.
* `qfpFuseWaitForFuseBlow`, `qfpFuseWriteWord`: one word, with the regulator and the verification.
* `qfpFuseIoctl`: the two commands, with the check of the request and every error path.
* `qfpFuseOpen`, `qfpFuseRelease`, `session`: the life of an open file.
-/

namespace LddExample.QfpFuse

open Interact

/-- `struct qfp_fuse_req` -/
structure Req where
  offset : UInt32
  size : UInt32
  data : UInt32
deriving DecidableEq

/-- `qfp_qfprom_base` and `qfp_qfprom_end` -/
structure Prom where
  qfpromBase : UInt32
  qfpromEnd : UInt32

/-- What the driver calls: the registers, the regulator and the kernel. -/
inductive Io
  | readl (addr : UInt32)
  | writel (data addr : UInt32)
  | regulatorGet
  | regulatorPut
  | regulatorEnable
  | regulatorDisable
  | msleep (ms : ℕ)
  | udelay (us : ℕ)
  /-- the private data of a file -/
  | kmalloc
  /-- memory for a number of words -/
  | kzalloc (words : ℕ)
  | kfree
  | downInterruptible
  | up
  /-- `copy_from_user` of the request -/
  | copyReq (arg : UInt32)
  /-- `copy_from_user` of a number of words -/
  | copyIn (data : UInt32) (words : ℕ)
  /-- `copy_to_user` -/
  | copyOut (data : UInt32) (buf : List UInt32)

/-- The calls that can fail answer whether they did what they are for. -/
def Io.Answer : Io → Type
  | .readl _ => UInt32
  | .regulatorGet | .regulatorEnable | .regulatorDisable | .kmalloc | .kzalloc _
  | .downInterruptible | .copyOut .. => Bool
  | .copyReq _ => Option Req
  | .copyIn .. => Option (ℕ → UInt32)
  | .writel .. | .regulatorPut | .msleep _ | .udelay _ | .kfree | .up => Unit

/-- An access to `buf` outside its words. -/
inductive Fault
  | outOfBounds
deriving DecidableEq

/-- The errors that the operations return. -/
inductive Errno
  | enotty
  | efault
  | enomem
  | erestartsys
  | etimedout
  /-- what `regulator_get` failed with -/
  | regulator
deriving DecidableEq

/-- A function of `qfp_fuse.c`. -/
abbrev Fuse := Driver Io Io.Answer Fault

/-- `readl` -/
def readl (addr : UInt32) : Fuse UInt32 := .perform (Io.readl addr)

/-- `writel` -/
def writel (data addr : UInt32) : Fuse Unit := .perform (Io.writel data addr)

/-- `regulator_get` -/
def regulatorGet : Fuse Bool := .perform Io.regulatorGet

/-- `regulator_put` -/
def regulatorPut : Fuse Unit := .perform Io.regulatorPut

/-- `regulator_enable` -/
def regulatorEnable : Fuse Bool := .perform Io.regulatorEnable

/-- `regulator_disable` -/
def regulatorDisable : Fuse Bool := .perform Io.regulatorDisable

/-- `msleep` -/
def msleep (ms : ℕ) : Fuse Unit := .perform (Io.msleep ms)

/-- `udelay` -/
def udelay (us : ℕ) : Fuse Unit := .perform (Io.udelay us)

/-- `kmalloc` -/
def kmalloc : Fuse Bool := .perform Io.kmalloc

/-- `kzalloc` -/
def kzalloc (words : ℕ) : Fuse Bool := .perform (Io.kzalloc words)

/-- `kfree` -/
def kfree : Fuse Unit := .perform Io.kfree

/-- `down_interruptible` -/
def downInterruptible : Fuse Bool := .perform Io.downInterruptible

/-- `up` -/
def up : Fuse Unit := .perform Io.up

/-- `copy_from_user` of the request at `arg` -/
def copyReq (arg : UInt32) : Fuse (Option Req) := .perform (Io.copyReq arg)

/-- `copy_from_user` of the words at `data` -/
def copyIn (data : UInt32) (words : ℕ) : Fuse (Option (ℕ → UInt32)) :=
  .perform (Io.copyIn data words)

/-- `copy_to_user` of the words to `data` -/
def copyOut (data : UInt32) (buf : List UInt32) : Fuse Bool := .perform (Io.copyOut data buf)

/-! ## One word -/

/-- `QFPROM_BLOW_TIMEOUT_US` -/
def qfpromBlowTimeoutUs : ℕ := 10

/-- `QFPROM_BLOW_TIMER_VALUE` -/
def qfpromBlowTimerValue : UInt32 := 10 * 83

/-- `QFPROM_BLOW_STATUS_BUSY` -/
def qfpromBlowStatusBusy : UInt32 := 0x01

/-- `QFPROM_BLOW_STATUS_ERROR` -/
def qfpromBlowStatusError : UInt32 := 0x02

/-- `QFPROM_BLOW_TIMER_OFFSET` -/
def Prom.blowTimer (p : Prom) : UInt32 := p.qfpromBase + 0x2038

/-- `QFPROM_BLOW_STATUS_OFFSET` -/
def Prom.blowStatus (p : Prom) : UInt32 := p.qfpromBase + 0x204C

/-- The loop; `timeout` turns are left. -/
def waitLoop (p : Prom) : ℕ → Fuse (Except Errno UInt32)
  | 0 => pure (.error .etimedout)
  | timeout + 1 => do
    let status ← readl p.blowStatus
    if status &&& qfpromBlowStatusBusy = 0 then
      pure (.ok status)
    else
      udelay 1
      waitLoop p timeout

/-- `qfp_fuse_wait_for_fuse_blow` -/
def qfpFuseWaitForFuseBlow (p : Prom) : Fuse (Except Errno UInt32) :=
  waitLoop p qfpromBlowTimeoutUs

/-- `qfp_fuse_write_word` -/
def qfpFuseWriteWord (p : Prom) (addr data : UInt32) : Fuse (Except Errno Unit) := do
  writel qfpromBlowTimerValue p.blowTimer
  if !(← regulatorEnable) then
    return .error .efault
  msleep 1
  writel data addr
  if !(← regulatorDisable) then
    return .error .efault
  msleep 1
  match ← qfpFuseWaitForFuseBlow p with
  | .error e => return .error e
  | .ok blowStatus =>
    if blowStatus &&& qfpromBlowStatusError ≠ 0 then
      return .error .efault
    let readData ← readl addr
    if readData ≠ data then
      return .error .efault
    return .ok ()

/-! ## The commands -/

/-- `QFP_FUSE_IOC_MAGIC` -/
def qfpFuseIocMagic : UInt32 := 0x92

/-- `QFP_FUSE_IOC_WRITE` -/
def qfpFuseIocWrite : UInt32 := 0x9201

/-- `QFP_FUSE_IOC_READ` -/
def qfpFuseIocRead : UInt32 := 0x9202

/-- `(u32 *) (qfp_qfprom_base + req.offset) + i` -/
def Prom.word (p : Prom) (req : Req) (i : ℕ) : UInt32 :=
  p.qfpromBase + req.offset + 4 * UInt32.ofNat i

/-- The words of the buffer of a request: `4 * req.size` bytes, in 32 bits. -/
def Req.words (req : Req) : ℕ := (4 * req.size).toNat / 4

/-- Neither of the two checks refuses the request. -/
def Prom.accepts (p : Prom) (req : Req) : Bool :=
  req.size ≠ 0 && p.qfpromBase + req.offset + req.size * 4 ≤ p.qfpromEnd

/-- What both commands begin with. -/
def getReq (p : Prom) (arg : UInt32) : Fuse (Except Errno Req) := do
  if arg = 0 then
    return .error .efault
  match ← copyReq arg with
  | none => return .error .efault
  | some req => if p.accepts req then return .ok req else return .error .efault

/-- The loop over the words that are read; `left` turns are left, `i` is the next word. -/
def readLoop (p : Prom) (req : Req) : ℕ → ℕ → List UInt32 → Fuse (List UInt32)
  | 0, _, buf => pure buf
  | left + 1, i, buf => do
    let v ← readl (p.word req i)
    if i < buf.length then readLoop p req left (i + 1) (buf.set i v) else .fail .outOfBounds

/-- `case QFP_FUSE_IOC_READ` -/
def iocRead (p : Prom) (arg : UInt32) : Fuse (Except Errno Unit) := do
  match ← getReq p arg with
  | .error e => return .error e
  | .ok req =>
    if !(← kzalloc req.words) then
      return .error .enomem
    if !(← downInterruptible) then
      kfree
      return .error .erestartsys
    let buf ← readLoop p req req.size.toNat 0 (List.replicate req.words 0)
    let copied ← copyOut req.data buf
    up
    kfree
    return if copied then .ok () else .error .efault

/-- The loop over the words that are written. -/
def writeLoop (p : Prom) (req : Req) (buf : List UInt32) : ℕ → ℕ → Fuse (Except Errno Unit)
  | 0, _ => pure (.ok ())
  | left + 1, i =>
    match buf[i]? with
    | none => .fail .outOfBounds
    | some v => do
      match ← qfpFuseWriteWord p (p.word req i) v with
      | .error e => return .error e
      | .ok () => writeLoop p req buf left (i + 1)

/-- `case QFP_FUSE_IOC_WRITE` -/
def iocWrite (p : Prom) (arg : UInt32) : Fuse (Except Errno Unit) := do
  match ← getReq p arg with
  | .error e => return .error e
  | .ok req =>
    if !(← kzalloc req.words) then
      return .error .enomem
    match ← copyIn req.data req.words with
    | none =>
      kfree
      return .error .efault
    | some data =>
      if !(← downInterruptible) then
        kfree
        return .error .erestartsys
      let err ← writeLoop p req ((List.range req.words).map data) req.size.toNat 0
      up
      kfree
      return err

/-- `qfp_fuse_ioctl` -/
def qfpFuseIoctl (p : Prom) (cmd arg : UInt32) : Fuse (Except Errno Unit) :=
  if (cmd >>> 8) &&& 0xff ≠ qfpFuseIocMagic then pure (.error .enotty)
  else if cmd = qfpFuseIocRead then iocRead p arg
  else if cmd = qfpFuseIocWrite then iocWrite p arg
  else pure (.error .enotty)

/-! ## An open file -/

/-- `private_data` is empty in a file that is opened. -/
def qfpFuseOpen : Fuse (Except Errno Unit) := do
  if !(← kmalloc) then
    return .error .enomem
  if !(← regulatorGet) then
    return .error .regulator
  return .ok ()

/-- `qfp_fuse_release` -/
def qfpFuseRelease : Fuse Unit := do
  regulatorPut
  kfree

/-- Commands one after the other. -/
def calls (p : Prom) : List (UInt32 × UInt32) → Fuse (List (Except Errno Unit))
  | [] => pure []
  | (cmd, arg) :: rest => do
    let r ← qfpFuseIoctl p cmd arg
    let rs ← calls p rest
    return r :: rs

/-- A file is opened, used and closed; when it cannot be opened nothing follows. -/
def session (p : Prom) (cmds : List (UInt32 × UInt32)) :
    Fuse (Except Errno (List (Except Errno Unit))) := do
  match ← qfpFuseOpen with
  | .error e => return .error e
  | .ok () =>
    let rs ← calls p cmds
    qfpFuseRelease
    return .ok rs

end LddExample.QfpFuse
