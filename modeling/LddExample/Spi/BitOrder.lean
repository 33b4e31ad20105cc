import LddExample.Spi.Model
import Mathlib.Tactic.IntervalCases

/-!
# Words for a device that takes the low bit first

The controller sends each byte with its high bit first. Before the device is told to do the same,
it takes bytes in with the low bit first, and `spi2apb_lsb_w32` turns every byte of its message
around.

* `int8Msb2lsb`, `int32Msb2lsb`: the two loops.
* `spi2apbLsbW32`, `spi2apbSwitchToMsb`: the messages.
* `wire bytes`, `Shifter`: the bits on the line, and the shift register of a device.
* `received_wire`: what a device takes in, in either order.
* **`lsb_received_iff`**: the words that such a device takes for plain writes are exactly those that
  `spi2apb_lsb_w32` sends.
-/

namespace LddExample.Spi

open Bytes

/-! ## The driver -/

/-- `int8_msb2lsb(src)` -/
def int8Msb2lsb (src : BitVec 8) : BitVec 8 :=
  (List.range 8).foldl (fun dst i => dst ||| (((src >>> i) &&& (0x01 : BitVec 8)) <<< (7 - i))) 0

/-- `int32_msb2lsb(src)` -/
def int32Msb2lsb (src : BitVec 32) : BitVec 32 :=
  (List.range 4).foldl (fun dst i =>
    let shift := i * 8
    let byte := ((src >>> shift) &&& (0xff : BitVec 32)).setWidth 8
    dst ||| ((int8Msb2lsb byte).setWidth 32 <<< shift)) 0

/-- The message of `spi2apb_lsb_w32` -/
def lsbMessage (addr data : BitVec 32) : List Transfer :=
  [.tx (leBytes 4 (int32Msb2lsb (BitVec.ofNat 32 apbCmdWrite)).toNat),
    .tx (leBytes 4 (int32Msb2lsb addr).toNat), .tx (leBytes 4 (int32Msb2lsb data).toNat)]

section Driver

variable (bus : ℕ → Reply)

/-- `spi2apb_lsb_w32(spi, addr, data)`, as call `n` of `spi_sync` -/
def spi2apbLsbW32 (n : ℕ) (addr data : BitVec 32) : ℤ × List Event :=
  ((bus n).ret, [⟨lsbMessage addr data, bus n⟩])

/-- `spi2apb_w32(spi, addr, data)`, as call `n` of `spi_sync` -/
def spi2apbW32 (n : ℕ) (addr data : BitVec 32) : ℤ × List Event :=
  spi2apbWrite bus n addr (leBytes 4 data.toNat)

/-- `SPI_CTRL0` -/
def spiCtrl0 : BitVec 32 := 0x11060000

/-- `SPI_ENR` -/
def spiEnr : BitVec 32 := 0x11060008

/-- `spi2apb_switch_to_msb(spi)`, from call `n` of `spi_sync` on; the results are not looked at. -/
def spi2apbSwitchToMsb (n : ℕ) : List Event :=
  (spi2apbLsbW32 bus n spiEnr 0).2 ++ (spi2apbLsbW32 bus (n + 1) spiCtrl0 0x108002).2

/-- A sequence of 32-bit writes, from call `n` of `spi_sync` on -/
def writes (w32 : ℕ → BitVec 32 → BitVec 32 → ℤ × List Event) :
    ℕ → List (BitVec 32 × BitVec 32) → List Event
  | _, [] => []
  | n, (addr, data) :: ws => (w32 n addr data).2 ++ writes w32 (n + 1) ws

end Driver

/-! ## The line -/

/-- The bytes that the events have sent. -/
def sent (events : List Event) : List UInt8 :=
  events.flatMap fun e => e.msg.flatMap fun
    | .tx bytes => bytes
    | .rx _ => []

/-- The bits of a byte, highest first. -/
def bitsMsb (b : UInt8) : List Bool :=
  (List.range 8).map fun i => b.toBitVec.getMsbD i

/-- The bits of a message on the wire. -/
def wire (bytes : List UInt8) : List Bool := bytes.flatMap bitsMsb

/-- The order in which a device puts the bits together. -/
inductive BitOrder
  | msbFirst
  | lsbFirst
deriving DecidableEq

/-- A shift register: the bits of the byte that is coming in, and the bytes so far. -/
structure Shifter where
  reg : BitVec 8
  count : ℕ
  bytes : List UInt8
deriving DecidableEq

/-- The register with one more bit. -/
def BitOrder.shift : BitOrder → BitVec 8 → Bool → BitVec 8
  | .msbFirst, reg, b => (reg <<< 1) ||| (BitVec.ofBool b).setWidth 8
  | .lsbFirst, reg, b => (reg >>> 1) ||| ((BitVec.ofBool b).setWidth 8 <<< 7)

/-- One bit comes in. -/
def Shifter.clock (order : BitOrder) (s : Shifter) (b : Bool) : Shifter :=
  let reg := order.shift s.reg b
  if s.count = 7 then ⟨0, 0, s.bytes ++ [⟨reg⟩]⟩ else ⟨reg, s.count + 1, s.bytes⟩

/-- The bytes that a device puts together from the bits on the line. -/
def received (order : BitOrder) (bits : List Bool) : List UInt8 :=
  (bits.foldl (Shifter.clock order) ⟨0, 0, []⟩).bytes

/-- What a device makes of a byte on the line. -/
def BitOrder.byte : BitOrder → UInt8 → UInt8
  | .msbFirst, b => b
  | .lsbFirst, b => ⟨int8Msb2lsb b.toBitVec⟩

theorem int8Msb2lsb_eq (v : BitVec 8) : int8Msb2lsb v = v.reverse := by
  ext i hi
  interval_cases i <;>
    simp [int8Msb2lsb, List.range_succ, BitVec.getElem_reverse, BitVec.getMsbD_eq_getLsbD]

theorem foldl_clock {order : BitOrder} {reg : BitVec 8} {count : ℕ} {bytes : List UInt8}
    {bits : List Bool} {b : Bool} (h : count + bits.length = 7) :
    (bits ++ [b]).foldl (Shifter.clock order) ⟨reg, count, bytes⟩
      = ⟨0, 0, bytes ++ [⟨(bits ++ [b]).foldl order.shift reg⟩]⟩ := by
  induction bits generalizing reg count with
  | nil => exact if_pos h
  | cons b' bits ih =>
    rw [List.length_cons] at h
    have hcount : ¬ count = 7 := by omega
    rw [List.cons_append, List.foldl_cons, List.foldl_cons, Shifter.clock, if_neg hcount]
    exact ih (by change count + 1 + bits.length = 7; omega)

theorem foldl_shift_bitsMsb (order : BitOrder) (b : UInt8) :
    (bitsMsb b).foldl order.shift 0 = (order.byte b).toBitVec := by
  simp only [bitsMsb, List.range_succ, List.range_zero, List.nil_append, List.cons_append,
    List.map_cons, List.map_nil, List.foldl_cons, List.foldl_nil]
  ext i hi
  cases order with
  | msbFirst =>
    interval_cases i <;> simp [BitOrder.shift, BitOrder.byte, BitVec.getMsbD_eq_getLsbD]
  | lsbFirst =>
    rw [BitOrder.byte, int8Msb2lsb_eq, BitVec.getElem_reverse]
    interval_cases i <;> simp [BitOrder.shift, BitVec.getMsbD_eq_getLsbD]

theorem foldl_clock_bitsMsb (order : BitOrder) (b : UInt8) (bytes : List UInt8) :
    (bitsMsb b).foldl (Shifter.clock order) ⟨0, 0, bytes⟩ = ⟨0, 0, bytes ++ [order.byte b]⟩ := by
  have hlast : bitsMsb b = ((List.range 7).map fun i => b.toBitVec.getMsbD i)
      ++ [b.toBitVec.getMsbD 7] := by
    rw [bitsMsb, List.range_succ, List.map_append, List.map_singleton]
  have hbits := foldl_shift_bitsMsb order b
  rw [hlast] at hbits ⊢
  rw [foldl_clock (by rw [List.length_map, List.length_range]), hbits]

/-- **What a device takes in.** -/
theorem received_wire (order : BitOrder) (bytes : List UInt8) :
    received order (wire bytes) = bytes.map order.byte := by
  have hrun : ∀ before : List UInt8, (wire bytes).foldl (Shifter.clock order) ⟨0, 0, before⟩
      = ⟨0, 0, before ++ bytes.map order.byte⟩ := by
    induction bytes with
    | nil => exact fun before => by rw [List.map_nil, List.append_nil]; rfl
    | cons b bytes ih =>
      intro before
      rw [wire, List.flatMap_cons, List.foldl_append, foldl_clock_bitsMsb, ← wire, ih,
        List.append_assoc, List.singleton_append, List.map_cons]
  rw [received, hrun, List.nil_append]

/-! ## Words -/

theorem byte_lsbFirst_byte (b : UInt8) : BitOrder.lsbFirst.byte (BitOrder.lsbFirst.byte b) = b := by
  simp only [BitOrder.byte, int8Msb2lsb_eq, BitVec.reverse_reverse_eq]

theorem map_lsbFirst_eq_iff {bytes bytes' : List UInt8} :
    bytes.map BitOrder.lsbFirst.byte = bytes' ↔ bytes = bytes'.map BitOrder.lsbFirst.byte := by
  have htwice : ∀ l : List UInt8,
      (l.map BitOrder.lsbFirst.byte).map BitOrder.lsbFirst.byte = l := by
    intro l
    rw [List.map_map]
    exact (List.map_congr_left fun b _ => byte_lsbFirst_byte b).trans (List.map_id l)
  constructor
  · rintro rfl
    exact (htwice bytes).symm
  · rintro rfl
    exact htwice bytes'

theorem leBytes_toNat (w : BitVec 32) :
    leBytes 4 w.toNat = (List.range 4).map fun i => (⟨w.extractLsb' (8 * i) 8⟩ : UInt8) := by
  have hbyte : ∀ i, UInt8.ofNat (w.toNat / 2 ^ (8 * i) % 256) = ⟨w.extractLsb' (8 * i) 8⟩ := by
    intro i
    apply UInt8.toNat_inj.mp
    simp [Nat.shiftRight_eq_div_pow]
  simp only [leBytes, Nat.div_div_eq_div_mul, List.range_succ, List.range_zero, List.nil_append,
    List.cons_append, List.map_cons, List.map_nil, ← hbyte]
  norm_num

theorem int32Msb2lsb_extract (w : BitVec 32) {i : ℕ} (hi : i < 4) :
    (int32Msb2lsb w).extractLsb' (8 * i) 8 = int8Msb2lsb (w.extractLsb' (8 * i) 8) := by
  have hbyte : ∀ i, ((w >>> (i * 8)) &&& (0xff : BitVec 32)).setWidth 8
      = w.extractLsb' (8 * i) 8 := by
    intro i
    ext j hj
    interval_cases j <;> simp [Nat.mul_comm]
  simp only [int32Msb2lsb, hbyte, List.range_succ, List.range_zero, List.nil_append,
    List.cons_append, List.foldl_cons, List.foldl_nil]
  -- which bits a byte has does not matter from here on
  generalize int8Msb2lsb = f
  ext j hj
  interval_cases i <;> interval_cases j <;> simp

/-- A word that is turned around has its bytes turned around, in their places. -/
theorem leBytes_int32Msb2lsb (w : BitVec 32) :
    leBytes 4 (int32Msb2lsb w).toNat = (leBytes 4 w.toNat).map BitOrder.lsbFirst.byte := by
  rw [leBytes_toNat, leBytes_toNat, List.map_map]
  refine List.map_congr_left fun i hi => ?_
  rw [int32Msb2lsb_extract w (List.mem_range.mp hi)]
  rfl

variable (bus : ℕ → Reply)

theorem sent_append (es es' : List Event) : sent (es ++ es') = sent es ++ sent es' :=
  List.flatMap_append

theorem sent_spi2apbLsbW32 (n : ℕ) (addr data : BitVec 32) :
    sent (spi2apbLsbW32 bus n addr data).2
      = (sent (spi2apbW32 bus n addr data).2).map BitOrder.lsbFirst.byte := by
  simp only [sent, spi2apbLsbW32, spi2apbW32, spi2apbWrite, lsbMessage, writeMessage,
    List.flatMap_cons, List.flatMap_nil, List.append_nil, List.map_append, leBytes_int32Msb2lsb]
  rfl

theorem sent_writes (n : ℕ) (ws : List (BitVec 32 × BitVec 32)) :
    sent (writes (spi2apbLsbW32 bus) n ws)
      = (sent (writes (spi2apbW32 bus) n ws)).map BitOrder.lsbFirst.byte := by
  induction ws generalizing n with
  | nil => rfl
  | cons w ws ih =>
    rw [writes, writes, sent_append, sent_append, List.map_append, ih, sent_spi2apbLsbW32]

/-- **Words for an LSB-first device.** Whatever `spi_sync` answers, a device that takes the low bit
first takes the bytes of a sequence of plain writes in exactly if the line carries what
`spi2apb_lsb_w32` sends for them; so does it with the two writes of `spi2apb_switch_to_msb`. -/
theorem lsb_received_iff (bus : ℕ → Reply) (n : ℕ) (ws : List (BitVec 32 × BitVec 32))
    (bytes : List UInt8) :
    (received .lsbFirst (wire bytes) = sent (writes (spi2apbW32 bus) n ws) ↔
      bytes = sent (writes (spi2apbLsbW32 bus) n ws)) ∧
    received .lsbFirst (wire (sent (spi2apbSwitchToMsb bus n)))
      = sent (writes (spi2apbW32 bus) n [(spiEnr, 0), (spiCtrl0, 0x108002)]) := by
  have hiff : ∀ ws bytes, received .lsbFirst (wire bytes) = sent (writes (spi2apbW32 bus) n ws) ↔
      bytes = sent (writes (spi2apbLsbW32 bus) n ws) := by
    intro ws bytes
    rw [received_wire, map_lsbFirst_eq_iff, sent_writes]
  exact ⟨hiff ws bytes, (hiff _ _).mpr rfl⟩

end LddExample.Spi
