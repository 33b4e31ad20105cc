import LddExample.Lib.CString

/-!
# The mirror module

`net/mirror.c`: `option_setup` reads a text such as `eth1/eth2@eth0`, takes a reference to each data
port and to the mirror port and registers `mirror_func`, which copies the packets of the data ports
to the mirror port. `acleanup_module` gives the references back.

* The memory of `opt` is a buffer that the loop cuts with NUL bytes and mends again.
* `ports_dev` has `MAX_PORTS` entries. A store behind the last one ends the model's run
  (`Result.overrun`): what stands there is up to the linker.
* `lookups`, `gets` and `puts` are history: the names given to `dev_get_by_name`, the references
  obtained and those given to `dev_put`.
* **`optionSetup`**: the whole function, for any table of interfaces `devGetByName`.
-/

namespace LddExample.Net

open CString

/-- `MAX_PORTS` -/
def maxPorts : ℕ := 32

/-- `EBUSY` -/
def ebusy : ℤ := 16

/-- `ENODEV` -/
def enodev : ℤ := 19

/-- `EINVAL` -/
def einval : ℤ := 22

/-- `/` -/
def slash : UInt8 := 0x2f

/-- `,` -/
def comma : UInt8 := 0x2c

/-- `@` -/
def atSign : UInt8 := 0x40

/-- A `struct net_device`; no two have the same `ifindex`. -/
structure NetDevice where
  ifindex : ℕ
deriving DecidableEq

/-- The module's variables. -/
structure Mirror where
  /-- what `opt` points to -/
  mem : List UInt8
  portsDev : ℕ → Option NetDevice
  ifindexBits : BitVec 32
  mirror : Option NetDevice
  /-- `mirror_proto` is registered -/
  registered : Bool
  lookups : List (List UInt8)
  gets : List NetDevice
  puts : List NetDevice

/-- How `option_setup` ends. -/
inductive Result
  | ret (s : Mirror) (value : ℤ)
  /-- a store to `ports_dev[MAX_PORTS]` -/
  | overrun (s : Mirror)
  /-- the loop used up its fuel -/
  | outOfFuel

/-- One pass of the loop ends it or goes on, with `from` and `count`. -/
inductive Pass
  | stop (r : Result)
  | go (s : Mirror) (fromPtr count : ℕ)

/-- `1 << ifindex`, with the count taken modulo 32. -/
def portBit (dev : NetDevice) : BitVec 32 :=
  1#32 <<< (dev.ifindex % 32)

namespace Mirror

/-- The module as it is loaded, with the option text in memory. -/
def init (mem : List UInt8) : Mirror where
  mem := mem
  portsDev := fun _ => none
  ifindexBits := 0
  mirror := none
  registered := false
  lookups := []
  gets := []
  puts := []

/-- `is_ports` -/
def isPorts (s : Mirror) (dev : NetDevice) : ℕ :=
  if s.ifindexBits &&& portBit dev ≠ 0 then 1 else 0

/-- `free_ports` -/
def freePorts (s : Mirror) : Mirror :=
  { s with puts := s.puts ++ (List.range 32).filterMap s.portsDev }

/-- `acleanup_module` -/
def acleanupModule (s : Mirror) : Mirror :=
  freePorts { s with registered := false, puts := s.puts ++ s.mirror.toList }

/-- `*p = c` -/
def write (s : Mirror) (p : ℕ) (c : UInt8) : Mirror :=
  { s with mem := s.mem.set p c }

/-- `dev_get_by_name` for the string at `p`, as history. -/
def lookup (s : Mirror) (p : ℕ) (dev : Option NetDevice) : Mirror :=
  { s with
    lookups := s.lookups ++ [cstr s.mem p]
    gets := s.gets ++ dev.toList }

/-- `ports_dev[count++] = dev` and the bit of `dev` -/
def setPort (s : Mirror) (count : ℕ) (dev : NetDevice) : Mirror :=
  { s with
    portsDev := fun i => if i = count then some dev else s.portsDev i
    ifindexBits := s.ifindexBits ||| portBit dev }

end Mirror

/-- The characters that end a data port. -/
def isSep (c : UInt8) : Bool :=
  c = slash ∨ c = atSign ∨ c = comma ∨ c = 0

section Setup

variable (devGetByName : List UInt8 → Option NetDevice)

/-- The loop body at a separator. -/
def dataPort (s : Mirror) (toPtr fromPtr cur count : ℕ) : Pass :=
  let tmp := s.mem.getD cur 0
  let s := s.write cur 0
  if cstr s.mem toPtr = cstr s.mem fromPtr then .stop (.ret s.freePorts (-ebusy))
  else
    let dev := devGetByName (cstr s.mem fromPtr)
    let s := s.lookup fromPtr dev
    match dev with
    | none => .stop (.ret s.freePorts (-enodev))
    | some dev =>
      if count < maxPorts then .go ((s.setPort count dev).write cur tmp) (cur + 1) (count + 1)
      else .stop (.overrun s)

/-- `option_setup` behind the loop. -/
def setMirror (s : Mirror) (toPtr : ℕ) : Result :=
  let dev := devGetByName (cstr s.mem toPtr)
  let s := { s.lookup toPtr dev with mirror := dev }
  match dev with
  | none => .ret s (-enodev)
  | some _ => .ret { s with registered := true } 0

/-- The loop over the data ports. -/
def portsLoop : ℕ → Mirror → ℕ → ℕ → ℕ → ℕ → Result
  | 0, _, _, _, _, _ => .outOfFuel
  | fuel + 1, s, toPtr, fromPtr, cur, count =>
    if cur ≤ strlen s.mem then
      if isSep (s.mem.getD cur 0) then
        match dataPort devGetByName s toPtr fromPtr cur count with
        | .stop r => r
        | .go s fromPtr count => portsLoop fuel s toPtr fromPtr (cur + 1) count
      else portsLoop fuel s toPtr fromPtr (cur + 1) count
    else setMirror devGetByName s toPtr

/-- **`option_setup`** -/
def optionSetup (s : Mirror) : Result :=
  match strchr s.mem atSign with
  | none => .ret s (-einval)
  | some toPtr => portsLoop devGetByName (s.mem.length + 1) (s.write toPtr 0) (toPtr + 1) 0 0 0

end Setup

/-! ## Packets -/

/-- A `struct sk_buff`: the bytes of its buffer before and behind `data`. -/
structure SkBuff where
  dev : NetDevice
  headroom : List UInt8
  data : List UInt8
  macLen : ℕ

/-- `mirror_func`, with the copy that it gives to `dev_queue_xmit`; `clone` says that `skb_clone`
found memory. The data begins with the link-layer header again. -/
def mirrorFunc (s : Mirror) (skb : SkBuff) (dev : NetDevice) (clone : Bool) : Option SkBuff :=
  if s.isPorts dev = 1 then
    if clone then
      s.mirror.map fun mirror =>
        let k := skb.headroom.length - skb.macLen
        { skb with
          dev := mirror
          headroom := skb.headroom.take k
          data := skb.headroom.drop k ++ skb.data }
    else none
  else none

end LddExample.Net
