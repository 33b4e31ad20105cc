import LddExample.Lib.Bytes
import LddExample.Lib.Loop

/-!
# The page-table generator

The model of `MMU_tablel3` in `test_mmu/mmu_tools.py`. The script builds every entry object of the
three levels up front; `items` lists the objects in the order in which they are written to the
image, and the same object may stand in it more than once. An object is named here by its level and
its index in `mmu_table[level]` (`Ref`), so that `is` on objects is `=` on names.

* `reallocL2`, `reallocL3`: replace a fault or block entry by a table of the next level.
* `realloctb`, `mmumap`: the two loops over a virtual range.
* `write2bin`: the little-endian image; `getmmusize_fromelf` is its argument `mmusize`.

Line 310 of the script (`entry_addr = ...` in the `1G` branch) stands one column to the left of the
lines around it; it is read here as part of that branch. Addresses are natural numbers, and an end
`virt_begin + (phy_end - phy_begin)` below zero is `0`: both loops compare it with a counter that
is never negative.
-/

namespace LddExample.Mmu

open Bytes Loop

/-! ## Descriptor fields -/

/-- `TT_S1_ATTR_FAULT` -/
def ttS1AttrFault : ℕ := 0

/-- `TT_S1_ATTR_BLOCK`, at levels 1 and 2 -/
def ttS1AttrBlock : ℕ := 1

/-- `TT_S1_ATTR_TABLE`, at levels 1 and 2 -/
def ttS1AttrTable : ℕ := 3

/-- `TT_S1_ATTR_PAGE`, at level 3 -/
def ttS1AttrPage : ℕ := 3

/-- `TT_S1_ATTR_MATTR_LSB` -/
def ttS1AttrMattrLsb : ℕ := 2

/-- `TT_S1_ATTR_NS` -/
def ttS1AttrNs : ℕ := 1 <<< 5

/-- `TT_S1_ATTR_AP_RW_PL1` -/
def ttS1AttrApRwPl1 : ℕ := 0 <<< 6

/-- `TT_S1_ATTR_SH_INNER` -/
def ttS1AttrShInner : ℕ := 3 <<< 8

/-- `TT_S1_ATTR_AF` -/
def ttS1AttrAf : ℕ := 1 <<< 10

/-- `TT_S1_ATTR_nG` -/
def ttS1AttrNg : ℕ := 1 <<< 11

/-- The memory types a map entry can name. -/
inductive MemType
  | device | cacheable | uncacheable
  deriving DecidableEq, Repr

/-- `attrs[...]`. -/
def attrs : MemType → ℕ
  | .device => (0 <<< ttS1AttrMattrLsb) ||| ttS1AttrApRwPl1 ||| ttS1AttrAf ||| ttS1AttrNg
  | .cacheable =>
    (4 <<< ttS1AttrMattrLsb) ||| ttS1AttrApRwPl1 ||| ttS1AttrShInner ||| ttS1AttrAf ||| ttS1AttrNg
  | .uncacheable =>
    (2 <<< ttS1AttrMattrLsb) ||| ttS1AttrApRwPl1 ||| ttS1AttrShInner ||| ttS1AttrAf ||| ttS1AttrNg

/-- The `attr` argument of the calls of `mmumap` in `gen_elxbin`: `el1` adds the non-secure bit. -/
def genElxbinAttr (el1 : Bool) (m : MemType) : ℕ := if el1 then attrs m ||| ttS1AttrNs else attrs m

/-! ## The objects -/

/-- The level of a table. -/
inductive Level
  | l1 | l2 | l3
  deriving DecidableEq, Repr

/-- The name of an entry object: `mmu_table[lvl][idx]`. -/
structure Ref where
  lvl : Level
  idx : ℕ
  deriving DecidableEq, Repr

/-- `MMU_table`: one entry object. -/
structure MMUTable where
  entryIdx : ℕ := 0
  /-- For a table the offset of its first entry in the image, for a block or page its address. -/
  entryAddr : ℕ := 0
  /-- The offset of the object itself in the image. -/
  relAddr : ℕ := 0
  attr : ℕ := 0
  memAttr : ℕ := 0
  use : Bool := false
  type : Level := .l1
  deriving DecidableEq, Repr

/-- `granularity["4K"]`, the only one `gen_elxbin` asks for. -/
def entryNum : ℕ := 512

/-- The lengths of the three lists of `mmu_table`. -/
def size : Level → ℕ
  | .l1 => entryNum
  | .l2 => entryNum * entryNum
  | .l3 => 8 * entryNum * entryNum

/-- How the script can end without a result. -/
inductive Err
  | indexError | structError | exit | outOfFuel
  deriving DecidableEq, Repr

/-- The state of an `MMU_tablel3`. -/
structure MMUTablel3 where
  table : Ref → MMUTable
  relAddr : ℕ
  items : List Ref

namespace MMUTablel3

/-- `__init__`: the `l1` objects are placed first, in order. -/
def init : MMUTablel3 where
  table r := { relAddr := if r.lvl = .l1 ∧ r.idx < entryNum then 8 * r.idx else 0 }
  relAddr := 8 * entryNum
  items := (List.range entryNum).map (Ref.mk .l1)

variable (t : MMUTablel3)

/-- Read the object `mmu_table[lvl][idx]`. -/
def fetch (r : Ref) : Except Err MMUTable :=
  if r.idx < size r.lvl then .ok (t.table r) else .error .indexError

/-- Change the object `mmu_table[lvl][idx]`. -/
def store (r : Ref) (e : MMUTable) : Except Err MMUTablel3 :=
  if r.idx < size r.lvl then .ok { t with table := Function.update t.table r e }
  else .error .indexError

/-! ## Splitting an entry -/

/-- One turn of the loop of `realloc_l2` or `realloc_l3`: entry `base + i` of level `lvl` takes over
its share of a block `up`, or becomes a fault, and is appended to `items`. -/
def reallocBody (up : Ref) (lvl : Level) (base shift childAttr : ℕ) (t : MMUTablel3) (i : ℕ) :
    Except Err MMUTablel3 :=
  (t.fetch up).bind fun e =>
  (t.fetch ⟨lvl, base + i⟩).bind fun c =>
  let c := if e.attr = ttS1AttrBlock then
      { c with attr := childAttr, memAttr := e.memAttr, entryAddr := e.entryAddr + i * 2 ^ shift }
    else { c with attr := ttS1AttrFault }
  (t.store ⟨lvl, base + i⟩ { c with relAddr := t.relAddr, type := lvl }).bind fun t =>
  .ok { t with items := t.items ++ [⟨lvl, base + i⟩], relAddr := t.relAddr + 8 }

/-- The common body of `realloc_l2` and `realloc_l3`. -/
def realloc (up : Ref) (lvl : Level) (base shift childAttr blocksize : ℕ) : Except Err MMUTablel3 :=
  (t.fetch up).bind fun e =>
  if e.attr = 0 ∨ e.attr = ttS1AttrBlock then
    ((List.range blocksize).foldlM (reallocBody up lvl base shift childAttr) t).bind fun t =>
    (t.fetch ⟨lvl, base⟩).bind fun c =>
    (t.fetch up).bind fun e =>
    t.store up { e with entryAddr := c.relAddr, entryIdx := base, attr := ttS1AttrTable }
  else .ok t

/-- `realloc_l2(g, m, blocksize)`. -/
def reallocL2 (g m blocksize : ℕ) : Except Err MMUTablel3 :=
  t.realloc ⟨.l1, g⟩ .l2 (m - m % 512) 21 ttS1AttrBlock blocksize

/-- `realloc_l3(m, k, blocksize)`. -/
def reallocL3 (m k blocksize : ℕ) : Except Err MMUTablel3 :=
  t.realloc ⟨.l2, m⟩ .l3 k 12 ttS1AttrPage blocksize

/-! ## The loops -/

end MMUTablel3

/-- The granularity of a map entry; a string other than the three known ones selects no branch. -/
inductive Gran
  | g1G | g2M | g4K
  | other (name : String)
  deriving DecidableEq, Repr

/-- The granularity that a map entry names. -/
def Gran.ofString (s : String) : Gran :=
  if s = "1G" then .g1G else if s = "2M" then .g2M else if s = "4K" then .g4K else .other s

/-- The granule of a granularity. -/
def Gran.size : Gran → ℕ
  | .g1G => 2 ^ 30
  | .g2M => 2 ^ 21
  | .g4K => 2 ^ 12
  | .other _ => 0

/-- `align(addr, ali)`. -/
def align (addr ali : ℕ) : ℕ := addr - addr % ali

/-- The table `ln` of `align_lx`: the address bits below an entry of a level. -/
def Level.ln : Level → ℕ
  | .l1 => 30
  | .l2 => 21
  | .l3 => 12

/-- `align_lx(lx, addr)`. -/
def alignLx (lx : Level) (addr : ℕ) : ℕ := addr >>> lx.ln <<< lx.ln

namespace MMUTablel3

/-- One turn of the loop of `realloctb`. -/
def realloctbBody (gran : Gran) (s : MMUTablel3 × ℕ) : Except Err (MMUTablel3 × ℕ) :=
  let (t, start) := s
  let (g, m, k) := (start >>> 30, start >>> 21, start >>> 12)
  match gran with
  | .g1G => .ok (t, start + 2 ^ 30)
  | .g2M => (t.reallocL2 g m 512).bind fun t => .ok (t, start + 2 ^ 30)
  | .g4K => (t.reallocL2 g m 512).bind fun t =>
      (t.reallocL3 m k 512).bind fun t => .ok (t, start + 2 ^ 21)
  | .other _ => .ok (t, start)

/-- Where the loop of `realloctb` starts. -/
def realloctbStart (start : ℕ) : Gran → ℕ
  | .g2M => align start (2 ^ 30)
  | .g4K => align start (2 ^ 21)
  | .g1G | .other _ => start

/-- `realloctb(begin, end, gran)`. -/
def realloctb (t : MMUTablel3) (start stop : ℕ) (gran : Gran) : Except Err MMUTablel3 :=
  (whileLt .outOfFuel stop Prod.snd (realloctbBody gran) stop (t, realloctbStart start gran)).bind
    fun s => .ok s.1

/-- Write a block or page descriptor into an entry object. -/
def putEntry (t : MMUTablel3) (r : Ref) (entry attr memAttr : ℕ) : Except Err MMUTablel3 :=
  (t.fetch r).bind fun e =>
  t.store r { e with entryAddr := entry, attr := attr, memAttr := memAttr, use := true }

/-- One turn of the loop of `mmumap`; the state holds the tables, `start` and `phy_addr`. -/
def mmumapBody (gran : Gran) (attr : ℕ) (s : MMUTablel3 × ℕ × ℕ) :
    Except Err (MMUTablel3 × ℕ × ℕ) :=
  let (t, start, phyAddr) := s
  let (g, m, k) := (start >>> 30, start >>> 21, start >>> 12)
  match gran with
  | .g1G => (t.putEntry ⟨.l1, g⟩ (alignLx .l1 phyAddr) ttS1AttrBlock attr).bind fun t =>
      .ok (t, start + 2 ^ 30, phyAddr + 2 ^ 30)
  | .g2M => (t.putEntry ⟨.l2, m⟩ (alignLx .l2 phyAddr) ttS1AttrBlock attr).bind fun t =>
      .ok (t, start + 2 ^ 21, phyAddr + 2 ^ 21)
  | .g4K => (t.putEntry ⟨.l3, k⟩ (alignLx .l3 phyAddr) ttS1AttrPage attr).bind fun t =>
      .ok (t, start + 2 ^ 12, phyAddr + 2 ^ 12)
  | .other _ => .ok (t, start, phyAddr)

end MMUTablel3

/-- One element of a `map` list, as `mmumap` receives it. -/
structure MapEntry where
  phyBegin : ℕ
  phyEnd : ℕ
  virtBegin : ℕ
  gran : Gran
  attr : ℕ
  deriving DecidableEq, Repr

namespace MapEntry

variable (e : MapEntry)

/-- `virt_begin + (phy_end - phy_begin)`. -/
def stop : ℕ := e.virtBegin + e.phyEnd - e.phyBegin

end MapEntry

namespace MMUTablel3

/-- `mmumap(phy_begin, phy_end, virt_begin, gran, attr)`. -/
def mmumap (t : MMUTablel3) (e : MapEntry) : Except Err MMUTablel3 :=
  (t.realloctb e.virtBegin e.stop e.gran).bind fun t =>
  (whileLt .outOfFuel e.stop (fun s => s.2.1) (mmumapBody e.gran e.attr) e.stop
    (t, e.virtBegin, e.phyBegin)).bind fun s => .ok s.1

/-- The calls of `mmumap` that `gen_elxbin` makes for a `map` list. -/
def mmumapAll (t : MMUTablel3) (es : List MapEntry) : Except Err MMUTablel3 := es.foldlM mmumap t

/-! ## The image -/

/-- The value packed for an entry object; `none` is the `check == False` exit. -/
def encode (addr : ℕ) (t : MMUTable) : Option ℕ :=
  if t.type = .l3 ∧ t.attr = ttS1AttrPage then some (t.entryAddr ||| t.attr ||| t.memAttr)
  else if t.type ≠ .l3 ∧ t.attr = ttS1AttrTable then
    some ((t.entryAddr + addr) ||| t.attr ||| t.memAttr)
  else if t.attr = ttS1AttrBlock then some (t.entryAddr ||| t.attr ||| t.memAttr)
  else if t.attr = ttS1AttrFault then some (t.entryAddr ||| t.attr ||| t.memAttr)
  else none

/-- `struct.pack('<Q', x)`. -/
def packQ (x : ℕ) : Except Err (List UInt8) :=
  if x < 2 ^ 64 then .ok (leBytes 8 x) else .error .structError

/-- One turn of the loop of `write2bin`. -/
def write2binBody (t : MMUTablel3) (addr : ℕ) (b : List UInt8) (r : Ref) :
    Except Err (List UInt8) :=
  match encode addr (t.table r) with
  | none => .error .exit
  | some x => (packQ x).bind fun w => .ok (b ++ w)

/-- `write2bin(addr, elx, elf)`: the bytes of the image, when they fit into the `mmusize` bytes that
the ELF file reserves. -/
def write2bin (t : MMUTablel3) (addr mmusize : ℕ) : Except Err (List UInt8) :=
  (t.items.foldlM (t.write2binBody addr) []).bind fun b =>
  if b.length > mmusize then .error .exit else .ok b

end MMUTablel3

end LddExample.Mmu
