import LddExample.Lib.Bytes

/-!
# The bridge from SPI to APB

The driver sends messages with `spi_sync` and asks the device for the state of its last operation.
The bus is a sequence of replies: reply `n` answers the `n`-th call of `spi_sync`.

* `Reply`, `Reply.fill`: what a call returns and what it leaves in the receive buffer; a failed call
  may have stored a part of the bytes.
* `spi2apbWrite`, `spi2apbOperationQuery`: one message each. The query goes by the word that stands
  in its buffer, not by the result of `spi_sync`.
* `safeWriteLoop`, `safeWriteChunk`: a write and a query, repeated while the word has an error bit.
* `spi2apbSafeWrite`: chunk after chunk, until one fails.
* `spi2apbRead`, `spi2apbSafeRead`: the same loop around a read, of the whole buffer at once.
-/

namespace LddExample.Spi

open Bytes

/-- `APB_CMD_WRITE` -/
def apbCmdWrite : ℕ := 0x00000011

/-- `APB_CMD_READ` -/
def apbCmdRead : ℕ := 0x00000077

/-- `APB_CMD_READ_BEGIN` -/
def apbCmdReadBegin : ℕ := 0x000000aa

/-- `APB_CMD_QUERY` -/
def apbCmdQuery : ℕ := 0x000000ff

/-- `APB_OP_STATE_ID_MASK` -/
def apbOpStateIdMask : ℕ := 0xffff0000

/-- `APB_OP_STATE_ID` -/
def apbOpStateId : ℕ := 0x16080000

/-- `APB_OP_STATE_MASK` -/
def apbOpStateMask : ℕ := 0x0000ffff

/-- `APB_MAX_OP_BYTES` -/
def apbMaxOpBytes : ℕ := 60000

/-- `APB_SAFE_OPERATION_TRY_MAX` -/
def apbSafeOperationTryMax : ℕ := 3

/-! ## Messages -/

/-- `struct spi_transfer`: bytes to send, or the length of a buffer to fill. -/
inductive Transfer
  | tx (bytes : List UInt8)
  | rx (len : ℕ)
deriving DecidableEq

/-- What one call of `spi_sync` does: its result, the bytes on the line, and how many of them a
failed call has stored. -/
structure Reply where
  ret : ℤ
  miso : ℕ → UInt8
  stored : ℕ

/-- The first bytes on the line. -/
def Reply.received (reply : Reply) (len : ℕ) : List UInt8 :=
  (List.range len).map reply.miso

/-- The receive buffer after the call. -/
def Reply.fill (reply : Reply) (buf : List UInt8) : List UInt8 :=
  let len := if reply.ret = 0 then buf.length else min reply.stored buf.length
  reply.received len ++ buf.drop len

/-- A call of `spi_sync` -/
structure Event where
  msg : List Transfer
  reply : Reply

@[simp] theorem Reply.length_fill (reply : Reply) (buf : List UInt8) :
    (reply.fill buf).length = buf.length := by
  rw [fill, received]
  split_ifs
  · simp
  · simp

theorem Reply.fill_of_ret {reply : Reply} (h : reply.ret = 0) (buf : List UInt8) :
    reply.fill buf = reply.received buf.length := by
  rw [fill, if_pos h, List.drop_length, List.append_nil]

/-! ## The driver -/

section Driver

variable (bus : ℕ → Reply)

/-- The message of `spi2apb_write` -/
def writeMessage (addr : BitVec 32) (data : List UInt8) : List Transfer :=
  [.tx (leBytes 4 apbCmdWrite), .tx (leBytes 4 addr.toNat), .tx data]

/-- `spi2apb_write(spi, addr, data, data_len)`, as call `n` of `spi_sync` -/
def spi2apbWrite (n : ℕ) (addr : BitVec 32) (data : List UInt8) : ℤ × List Event :=
  ((bus n).ret, [⟨writeMessage addr data, bus n⟩])

/-- The message of `spi2apb_operation_query` -/
def queryMessage : List Transfer :=
  [.tx (leBytes 4 apbCmdQuery), .rx 4]

/-- The word has the state ID. -/
def HasId (state : List UInt8) : Prop :=
  leVal state &&& apbOpStateIdMask = apbOpStateId

instance (state : List UInt8) : Decidable (HasId state) :=
  inferInstanceAs (Decidable (_ = _))

/-- The error bits of the word. -/
def opState (state : List UInt8) : ℕ :=
  leVal state &&& apbOpStateMask

/-- `spi2apb_operation_query(spi, &state)`, as call `n` of `spi_sync` -/
def spi2apbOperationQuery (n : ℕ) (state : List UInt8) : ℤ × List UInt8 × List Event :=
  -- the result of `spi_sync` is not looked at
  let state := (bus n).fill state
  (if HasId state then 0 else -1, state, [⟨queryMessage, bus n⟩])

/-- The loop of `_spi2apb_safe_write`; `left` is `APB_SAFE_OPERATION_TRY_MAX - try`. -/
def safeWriteLoop (addr : BitVec 32) (data : List UInt8) :
    ℕ → ℕ → List UInt8 → ℤ × List Event
  | left, n, state =>
    -- neither is the result of the write
    let (_, sent) := spi2apbWrite bus n addr data
    let (ret, state, asked) := spi2apbOperationQuery bus (n + 1) state
    if ret ≠ 0 then (-1, sent ++ asked)
    else if opState state = 0 then (opState state, sent ++ asked)
    else
      match left with
      | 0 => (opState state, sent ++ asked)
      | left + 1 =>
        let (ret, rest) := safeWriteLoop addr data left (n + 2) state
        (ret, sent ++ asked ++ rest)

/-- `_spi2apb_safe_write(spi, addr, data, data_len)` -/
def safeWriteChunk (n : ℕ) (addr : BitVec 32) (data : List UInt8) : ℤ × List Event :=
  safeWriteLoop bus addr data apbSafeOperationTryMax n (leBytes 4 0)

/-- `spi2apb_safe_write(spi, addr, data, data_len)`: its result, and the calls of `spi_sync` that
each `_spi2apb_safe_write` has made. -/
def spi2apbSafeWrite (n : ℕ) (addr : BitVec 32) (data : List UInt8) : ℤ × List (List Event) :=
  if 0 < data.length then
    let slen := min data.length apbMaxOpBytes
    let (ret, events) := safeWriteChunk bus n addr (data.take slen)
    if ret ≠ 0 then (ret, [events])
    else
      let (ret, calls) :=
        spi2apbSafeWrite (n + events.length) (addr + BitVec.ofNat 32 slen) (data.drop slen)
      (ret, events :: calls)
  else (0, [])
termination_by data.length
decreasing_by
  have hmax : 0 < apbMaxOpBytes := by decide
  rw [List.length_drop]
  omega

/-- `read_cmd` of `spi2apb_read`: the word count in the upper half. -/
def readCmd (dataLen : ℕ) : ℕ :=
  let realLen := min dataLen apbMaxOpBytes
  apbCmdRead ||| (realLen <<< 14 &&& 0xffff0000)

/-- The message of `spi2apb_read` -/
def readMessage (addr : BitVec 32) (dataLen : ℕ) : List Transfer :=
  [.tx (leBytes 4 (readCmd dataLen)), .tx (leBytes 4 addr.toNat), .tx (leBytes 4 0),
    .tx (leBytes 4 apbCmdReadBegin), .rx dataLen]

/-- `spi2apb_read(spi, addr, data, data_len)`, as call `n` of `spi_sync` -/
def spi2apbRead (n : ℕ) (addr : BitVec 32) (data : List UInt8) : ℤ × List UInt8 × List Event :=
  ((bus n).ret, (bus n).fill data, [⟨readMessage addr data.length, bus n⟩])

/-- The loop of `spi2apb_safe_read`; `left` is `APB_SAFE_OPERATION_TRY_MAX - try`. -/
def safeReadLoop (addr : BitVec 32) :
    ℕ → ℕ → List UInt8 → List UInt8 → ℤ × List UInt8 × List Event
  | left, n, data, state =>
    let (_, data, sent) := spi2apbRead bus n addr data
    let (ret, state, asked) := spi2apbOperationQuery bus (n + 1) state
    if ret ≠ 0 then (-1, data, sent ++ asked)
    else if opState state = 0 then (opState state, data, sent ++ asked)
    else
      match left with
      | 0 => (opState state, data, sent ++ asked)
      | left + 1 =>
        let (ret, data, rest) := safeReadLoop addr left (n + 2) data state
        (ret, data, sent ++ asked ++ rest)

/-- `spi2apb_safe_read(spi, addr, data, data_len)` -/
def spi2apbSafeRead (n : ℕ) (addr : BitVec 32) (data : List UInt8) :
    ℤ × List UInt8 × List Event :=
  safeReadLoop bus addr apbSafeOperationTryMax n data (leBytes 4 0)

end Driver

end LddExample.Spi
