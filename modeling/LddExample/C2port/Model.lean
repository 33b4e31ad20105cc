import LddExample.Lib.Interact
import Mathlib.Data.Int.Notation

/-!
# The C2 port driver

The driver talks to a micro controller over two lines, the clock C2CK and the data line C2D, that
it moves by the operations of a board. Everything above the lines is in `core.c`: the four register
accesses, the polling of the target, the flash programming sequences and the files in sysfs.

* `Pin`: the operations of `struct c2port_ops` and the delays; `Port` is the monad of the driver.
* `c2portWriteAr`, `c2portReadAr`, `c2portWriteDr`, `c2portReadDr`: one frame each.
* `c2portPollInBusy`, `c2portPollOutReady`: frames until a bit of the status has the value.
* `storeFlashAccess`, `writeFlashErase`, `readFlashData`, `writeFlashData`: the flash programming
  sequences. The result of some writes is not looked at.
* `Request.check`, `Request.body`: a file operation is checked before the mutex is taken and done
  behind it; `serveAll` does operations one after the other.
-/

namespace LddExample.C2port

open Interact

/-! ## The lines -/

/-- `struct c2port_ops`, `udelay` and the interrupts of the processor. -/
inductive Pin
  | access (status : Bool)
  | c2dDir (dir : Bool)
  | c2dGet
  | c2dSet (status : Bool)
  | c2ckSet (status : Bool)
  | udelay (us : ℕ)
  | localIrqDisable
  | localIrqEnable
deriving DecidableEq

/-- Only `c2d_get` has a result. -/
def Pin.Answer : Pin → Type
  | .c2dGet => Bool
  | _ => Unit

/-- The errors that the operations return. -/
inductive Errno
  | eio
  | ebusy
  | einval
deriving DecidableEq

/-- A function of `core.c`. -/
abbrev Port := Driver Pin Pin.Answer Errno

/-- `ops->access` -/
def access (status : Bool) : Port Unit := .perform (Pin.access status)

/-- `0` is output, `1` is input. -/
def c2dDir (dir : Bool) : Port Unit := .perform (Pin.c2dDir dir)

/-- `ops->c2d_get` -/
def c2dGet : Port Bool := .perform Pin.c2dGet

/-- `ops->c2d_set` -/
def c2dSet (status : Bool) : Port Unit := .perform (Pin.c2dSet status)

/-- `ops->c2ck_set` -/
def c2ckSet (status : Bool) : Port Unit := .perform (Pin.c2ckSet status)

/-- `udelay` -/
def udelay (us : ℕ) : Port Unit := .perform (Pin.udelay us)

/-- `mdelay` -/
def mdelay (ms : ℕ) : Port Unit := udelay (1000 * ms)

/-- `local_irq_disable` -/
def localIrqDisable : Port Unit := .perform Pin.localIrqDisable

/-- `local_irq_enable` -/
def localIrqEnable : Port Unit := .perform Pin.localIrqEnable

/-! ## Signals -/

/-- The clock is kept low for `us` microseconds. -/
def lowFor (us : ℕ) : Port Unit := do
  localIrqDisable
  c2ckSet false
  udelay us
  c2ckSet true
  localIrqEnable
  udelay 1

/-- `c2port_reset` -/
def c2portReset : Port Unit := lowFor 25

/-- `c2port_strobe_ck` -/
def c2portStrobeCk : Port Unit := lowFor 1

/-! ## Frames -/

/-- One bit of a field that the driver sends. -/
def sendBit (b : Bool) : Port Unit := do
  c2dSet b
  c2portStrobeCk

/-- `for (i = 0; i < n; i++)` of the ADDRESS and DATA fields that are sent -/
def sendBits : ℕ → UInt8 → Port Unit
  | 0, _ => pure ()
  | n + 1, v => do
    sendBit (v &&& 0x01 != 0)
    sendBits n (v >>> 1)

/-- The same loop of the fields that are read. -/
def readBits : ℕ → UInt8 → Port UInt8
  | 0, v => pure v
  | n + 1, v => do
    let v := v >>> 1
    c2portStrobeCk
    if ← c2dGet then readBits n (v ||| 0x80) else readBits n v

/-- The WAIT field; `timeout` turns are left. -/
def waitField : ℕ → Port Unit
  | 0 => .fail .eio
  | timeout + 1 => do
    c2portStrobeCk
    if ← c2dGet then
      pure ()
    else
      udelay 1
      waitField timeout

/-- `c2port_write_ar` -/
def c2portWriteAr (addr : UInt8) : Port Unit := do
  -- START field
  c2portStrobeCk
  -- INS field (11b, LSB first)
  c2dDir false
  sendBit true
  sendBit true
  -- ADDRESS field
  sendBits 8 addr
  -- STOP field
  c2dDir true
  c2portStrobeCk

/-- `c2port_read_ar` -/
def c2portReadAr : Port UInt8 := do
  c2portStrobeCk
  -- INS field (10b, LSB first)
  c2dDir false
  sendBit false
  sendBit true
  -- ADDRESS field
  c2dDir true
  let addr ← readBits 8 0
  c2portStrobeCk
  pure addr

/-- `c2port_write_dr` -/
def c2portWriteDr (data : UInt8) : Port Unit := do
  c2portStrobeCk
  -- INS field (01b, LSB first)
  c2dDir false
  sendBit true
  sendBit false
  -- LENGTH field (00b, LSB first -> 1 byte)
  sendBit false
  sendBit false
  -- DATA field
  sendBits 8 data
  -- WAIT field
  c2dDir true
  waitField 20
  c2portStrobeCk

/-- `c2port_read_dr` -/
def c2portReadDr : Port UInt8 := do
  c2portStrobeCk
  -- INS field (00b, LSB first)
  c2dDir false
  sendBit false
  sendBit false
  -- LENGTH field (00b, LSB first -> 1 byte)
  sendBit false
  sendBit false
  -- WAIT field
  c2dDir true
  waitField 20
  -- DATA field
  let data ← readBits 8 0
  c2portStrobeCk
  pure data

/-- Read the status until it is as `done` says; `timeout` turns are left. -/
def pollAr (done : UInt8 → Bool) : ℕ → Port Unit
  | 0 => .fail .eio
  | timeout + 1 => do
    let addr ← c2portReadAr
    if done addr then
      pure ()
    else
      udelay 1
      pollAr done timeout

/-- `c2port_poll_in_busy` -/
def c2portPollInBusy : Port Unit := pollAr (fun addr => addr &&& 0x02 == 0) 20

/-- `c2port_poll_out_ready` -/
def c2portPollOutReady : Port Unit := pollAr (fun addr => addr &&& 0x01 != 0) 10000

/-! ## Flash programming -/

/-- `C2PORT_DEVICEID` -/
def c2portDeviceid : UInt8 := 0x00

/-- `C2PORT_REVID` -/
def c2portRevid : UInt8 := 0x01

/-- `C2PORT_FPCTL` -/
def c2portFpctl : UInt8 := 0x02

/-- `C2PORT_FPDAT` -/
def c2portFpdat : UInt8 := 0xb4

/-- `C2PORT_DEVICE_ERASE` -/
def c2portDeviceErase : UInt8 := 0x03

/-- `C2PORT_BLOCK_READ` -/
def c2portBlockRead : UInt8 := 0x06

/-- `C2PORT_BLOCK_WRITE` -/
def c2portBlockWrite : UInt8 := 0x07

/-- `C2PORT_COMMAND_OK` -/
def c2portCommandOk : UInt8 := 0x0d

/-- `__c2port_show_dev_id` and `__c2port_show_rev_id`: the number that is printed -/
def showRegister (reg : UInt8) : Port UInt8 := do
  c2portWriteAr reg
  c2portReadDr

/-- `__c2port_store_flash_access` from the choice of the control register on -/
def storeFlashAccess : Port Unit := do
  c2portWriteAr c2portFpctl
  c2portWriteDr 0x02
  c2portWriteDr 0x01
  mdelay 25

/-- A byte for the flash programming interface, and the wait for its acknowledge. The result of
`c2port_write_dr` is dropped. -/
def sendByte (data : UInt8) : Port Unit := do
  let _ ← ((c2portWriteDr data).attempt : Port (Except Errno Unit))
  c2portPollInBusy

/-- Wait for status information and read it. -/
def readStatus : Port Unit := do
  c2portPollOutReady
  let status ← c2portReadDr
  if status ≠ c2portCommandOk then .fail .ebusy

/-- Target the flash programming data register and send a command. -/
def sendCommand (command : UInt8) : Port Unit := do
  c2portWriteAr c2portFpdat
  sendByte command
  readStatus

/-- `__c2port_write_flash_erase` -/
def writeFlashErase : Port Unit := do
  sendCommand c2portDeviceErase
  -- the arming sequence
  sendByte 0xde
  sendByte 0xad
  sendByte 0xa5
  c2portPollOutReady

/-- Address and size of a block. `c2port_write_dr` takes a byte, so that the high part of the
address is cut. -/
def sendBlock (offset n : ℕ) : Port Unit := do
  sendByte (UInt8.ofNat (offset >>> 8))
  sendByte (UInt8.ofNat (offset &&& 0x00ff))
  sendByte (UInt8.ofNat n)
  readStatus

/-- The loop of `__c2port_read_flash_data` over the bytes of the block. -/
def readBlock : ℕ → Port (List UInt8)
  | 0 => pure []
  | n + 1 => do
    c2portPollOutReady
    let b ← c2portReadDr
    let bs ← readBlock n
    pure (b :: bs)

/-- `__c2port_read_flash_data`; `size` is `ops->block_size * ops->blocks_num`. -/
def readFlashData (size offset count : ℕ) : Port (List UInt8) :=
  if size ≤ offset then
    pure []
  else
    let nread := min (min 128 (size - offset)) count
    if nread = 0 then
      pure []
    else do
      sendCommand c2portBlockRead
      sendBlock offset nread
      readBlock nread

/-- The loop of `__c2port_write_flash_data` over the bytes of the block. -/
def writeBlock : List UInt8 → Port Unit
  | [] => pure ()
  | b :: bs => do
    c2portWriteDr b
    c2portPollInBusy
    writeBlock bs

/-- `__c2port_write_flash_data`: the number of bytes written -/
def writeFlashData (size offset : ℕ) (buffer : List UInt8) : Port ℕ :=
  let nwrite := min (min 128 buffer.length) (size - offset)
  if size ≤ offset then
    .fail .einval
  else do
    sendCommand c2portBlockWrite
    sendBlock offset nwrite
    writeBlock (buffer.take nwrite)
    c2portPollOutReady
    pure nwrite

/-! ## The files in sysfs -/

/-- `struct c2port_device`: the fields that the files read and write -/
structure C2portDevice where
  access : Bool
  flashAccess : Bool
deriving DecidableEq

/-- `c2port_device_register` leaves both off. -/
def C2portDevice.init : C2portDevice := ⟨false, false⟩

/-- A read or write of a file; a number is what `sscanf` found. -/
inductive Request
  | accessStore (status : Option ℤ)
  | storeReset
  | showDevId
  | showRevId
  | storeFlashAccess (status : Option ℤ)
  | storeFlashErase
  | readFlashData (offset count : ℕ)
  | writeFlashData (offset : ℕ) (buffer : List UInt8)
deriving DecidableEq

/-- What a file operation gives its caller. -/
inductive Reply
  | count
  | value (data : UInt8)
  | bytes (data : List UInt8)
  | written (n : ℕ)
deriving DecidableEq

/-- The checks before `mutex_lock`. -/
def Request.check (dev : C2portDevice) : Request → Except Errno Unit
  | .accessStore none | .storeFlashAccess none => .error .einval
  | .accessStore (some _) | .storeFlashAccess (some _) => .ok ()
  | .storeReset | .showDevId | .showRevId => if dev.access then .ok () else .error .ebusy
  | .storeFlashErase | .readFlashData _ _ | .writeFlashData _ _ =>
    if dev.access && dev.flashAccess then .ok () else .error .ebusy

/-- The part behind `mutex_lock`: the device after it and what is done on the lines. -/
def Request.body (size : ℕ) (dev : C2portDevice) : Request → C2portDevice × Port Reply
  | .accessStore status =>
    let on : Bool := status.getD 0 != 0
    ({ dev with access := on }, do
      if on then c2ckSet true
      C2port.access on
      if on then c2dDir true
      pure .count)
  | .storeReset => ({ dev with flashAccess := false }, do c2portReset; pure .count)
  | .showDevId => (dev, .value <$> showRegister c2portDeviceid)
  | .showRevId => (dev, .value <$> showRegister c2portRevid)
  | .storeFlashAccess status =>
    if !dev.access then
      (dev, .fail .ebusy)
    else
      let on : Bool := status.getD 0 != 0
      -- the field is set before the key codes are sent, and stays when they fail
      ({ dev with flashAccess := on }, do
        if on then C2port.storeFlashAccess
        pure .count)
  | .storeFlashErase => (dev, do writeFlashErase; pure .count)
  | .readFlashData offset count => (dev, .bytes <$> C2port.readFlashData size offset count)
  | .writeFlashData offset buffer => (dev, .written <$> C2port.writeFlashData size offset buffer)

/-- A file operation on a board with the states `σ`, with no other caller. -/
def Request.serve {σ : Type} (h : Hardware Pin Pin.Answer σ) (size : ℕ) (r : Request)
    (s : C2portDevice × σ) : Except Errno Reply × (C2portDevice × σ) :=
  match r.check s.1 with
  | .error e => (.error e, s)
  | .ok _ =>
    let (dev, p) := r.body size s.1
    let (reply, board) := run h p s.2
    (reply, dev, board)

/-- File operations one after the other. -/
def serveAll {σ : Type} (h : Hardware Pin Pin.Answer σ) (size : ℕ) :
    List Request → C2portDevice × σ → List (Except Errno Reply) × (C2portDevice × σ)
  | [], s => ([], s)
  | r :: rs, s =>
    let (reply, s) := r.serve h size s
    let (replies, s) := serveAll h size rs s
    (reply :: replies, s)

end LddExample.C2port
