import LddExample.Lib.Lts
import Mathlib.Data.List.Nodup
import Mathlib.Data.List.Perm.Subperm
import Mathlib.Data.List.Range

/-!
# Registering C2 ports

A port that is registered gets a number and a device of the class. The device is created with the
number 0 for its `dev_t`, and destroyed by the number of the port: `device_destroy` takes the first
device of the class with that `dev_t`.

* `PortClass`: the numbers, the ports and the devices.
* `c2portDeviceRegister`, `c2portDeviceUnregister`: the two calls, with any answers of the kernel.
* `PortClass.Matched`: every port has its device, and no device is left of a port that was freed.
* `OldestFirst`: the port that is unregistered has the number 0 and is the oldest one.
* **`matched_iff_oldestFirst`**: a run keeps ports and devices matched exactly if it unregisters
  like that. So does every run with at most one port at a time.
-/

namespace LddExample.C2port

/-! ## The calls -/

/-- A port that is registered: its block of memory and its number. -/
structure Registered where
  block : ℕ
  id : ℕ
deriving DecidableEq

/-- A device of the class, with the name `c2port` and a number. -/
structure ClassDevice where
  devt : ℕ
  id : ℕ
  drvdata : ℕ
deriving DecidableEq

/-- `c2port_idr`, the ports in the order of registration, the devices of `c2port_class` in theirs,
and how many blocks were allocated. -/
structure PortClass where
  idr : List ℕ
  ports : List Registered
  devices : List ClassDevice
  blocks : ℕ
deriving DecidableEq

/-- The class before any registration. -/
def PortClass.init : PortClass := ⟨[], [], [], 0⟩

/-- `idr_alloc`: the lowest number that is free -/
def idrAlloc (idr : List ℕ) : ℕ :=
  ((List.range (idr.length + 1)).find? fun id => id ∉ idr).getD 0

/-- `ops` says that all operations are there, the others that the call of the kernel succeeds. A
device whose name is taken is not created. -/
def c2portDeviceRegister (ops kmalloc idr create : Bool) (s : PortClass) : PortClass :=
  if !ops || !kmalloc then s
  else
    let block := s.blocks
    let s := { s with blocks := s.blocks + 1 }
    if !idr then s
    else
      let id := idrAlloc s.idr
      let s := { s with idr := s.idr ++ [id] }
      if !create || s.devices.any (fun d => d.id == id) then
        { s with idr := s.idr.erase id }
      else
        { s with
          devices := s.devices ++ [⟨0, id, block⟩]
          ports := s.ports ++ [⟨block, id⟩] }

/-- `device_destroy(c2port_class, devt)` -/
def deviceDestroy (devt : ℕ) (devices : List ClassDevice) : List ClassDevice :=
  devices.eraseP fun d => d.devt == devt

/-- The call for the port with the given block; the block is freed. -/
def c2portDeviceUnregister (block : ℕ) (s : PortClass) : PortClass :=
  match s.ports.find? fun p => p.block == block with
  | none => s
  | some p =>
    { s with
      idr := s.idr.erase p.id
      devices := deviceDestroy p.id s.devices
      ports := s.ports.erase p }

/-- A registration, with the calls of the kernel that succeed, or the end of one. -/
inductive RegAct
  | register (ops kmalloc idr create : Bool)
  | unregister (block : ℕ)
deriving DecidableEq

/-- One call of `core.c` on the class. -/
def regStep (s : PortClass) : RegAct → Option PortClass
  | .register ops kmalloc idr create => some (c2portDeviceRegister ops kmalloc idr create s)
  | .unregister block => some (c2portDeviceUnregister block s)

/-! ## Ports and devices -/

/-- The devices of the class are those of the registered ports. -/
def PortClass.Matched (s : PortClass) : Prop :=
  (s.devices.map (·.drvdata)).Perm (s.ports.map (·.block))

/-- A port is unregistered only as the oldest one and with the number 0. -/
def OldestFirst (s : PortClass) : RegAct → Prop
  | .register .. => True
  | .unregister block => ∀ p ∈ s.ports, p.block = block → p.id = 0 ∧ s.ports.head? = some p

/-- The device of a port -/
def Registered.device (p : Registered) : ClassDevice := ⟨0, p.id, p.block⟩

/-- The devices are those of the ports, in the same order; blocks differ. -/
structure PortClass.Ordered (s : PortClass) : Prop where
  idr : s.idr = s.ports.map (·.id)
  devices : s.devices = s.ports.map Registered.device
  nodup : (s.ports.map (·.block)).Nodup
  fresh : ∀ p ∈ s.ports, p.block < s.blocks

theorem PortClass.Ordered.matched {s : PortClass} (hs : s.Ordered) : s.Matched := by
  rw [PortClass.Matched, hs.devices, List.map_map]
  exact .refl _

theorem idrAlloc_not_mem (idr : List ℕ) : idrAlloc idr ∉ idr := by
  rw [idrAlloc]
  cases hfind : (List.range (idr.length + 1)).find? fun id => id ∉ idr with
  | some id => simpa using List.find?_some hfind
  | none =>
    have hall : List.range (idr.length + 1) ⊆ idr := by
      intro id hid
      simpa using List.find?_eq_none.mp hfind id hid
    have hle := (List.nodup_range.subperm hall).length_le
    rw [List.length_range] at hle
    omega

/-! ## Steps -/

variable {s s' : PortClass}

/-- **What `c2port_device_register` can do**: nothing but use up a block, or add a port. -/
theorem register_cases (s : PortClass) (ops kmalloc idr create : Bool) :
    (∃ n, s.blocks ≤ n ∧
      c2portDeviceRegister ops kmalloc idr create s = { s with blocks := n }) ∨
    c2portDeviceRegister ops kmalloc idr create s =
      ⟨s.idr ++ [idrAlloc s.idr], s.ports ++ [⟨s.blocks, idrAlloc s.idr⟩],
        s.devices ++ [⟨0, idrAlloc s.idr, s.blocks⟩], s.blocks + 1⟩ := by
  have hfree := idrAlloc_not_mem s.idr
  rw [c2portDeviceRegister]
  split_ifs with hops hidr
  · exact .inl ⟨s.blocks, Nat.le_refl _, rfl⟩
  · exact .inl ⟨s.blocks + 1, Nat.le_succ _, rfl⟩
  · dsimp only
    split_ifs with hcreate
    · refine .inl ⟨s.blocks + 1, Nat.le_succ _, ?_⟩
      rw [List.erase_append_right _ hfree, List.erase_cons_head, List.append_nil]
    · exact .inr rfl

theorem register_ordered (hs : s.Ordered) (ops kmalloc idr create : Bool) :
    (c2portDeviceRegister ops kmalloc idr create s).Ordered := by
  obtain ⟨n, hn, heq⟩ | heq := register_cases s ops kmalloc idr create
  · rw [heq]
    exact ⟨hs.idr, hs.devices, hs.nodup, fun p hp => Nat.lt_of_lt_of_le (hs.fresh p hp) hn⟩
  · rw [heq]
    refine ⟨?_, ?_, ?_, fun p hp => ?_⟩
    · rw [List.map_append, ← hs.idr]
      rfl
    · rw [List.map_append, ← hs.devices]
      rfl
    · rw [List.map_append]
      refine hs.nodup.append (List.nodup_singleton _) ?_
      intro b hb hnew
      obtain ⟨p, hp, rfl⟩ := List.mem_map.mp hb
      have hlt := hs.fresh p hp
      have hsame : p.block = s.blocks := List.mem_singleton.mp hnew
      omega
    · obtain hp | hp := List.mem_append.mp hp
      · exact Nat.lt_succ_of_lt (hs.fresh p hp)
      · obtain rfl := List.mem_singleton.mp hp
        exact Nat.lt_succ_self _

theorem mem_ports_of_find {block : ℕ} {p : Registered}
    (h : s.ports.find? (fun p => p.block == block) = some p) : p ∈ s.ports ∧ p.block = block :=
  ⟨List.mem_of_find?_eq_some h, by simpa using List.find?_some h⟩

theorem PortClass.Ordered.eq_of_block (hs : s.Ordered) {p q : Registered} (hp : p ∈ s.ports)
    (hq : q ∈ s.ports) (h : p.block = q.block) : p = q :=
  List.inj_on_of_nodup_map hs.nodup hp hq h

theorem unregister_ordered (hs : s.Ordered) {block : ℕ} (hold : OldestFirst s (.unregister block)) :
    (c2portDeviceUnregister block s).Ordered := by
  rw [c2portDeviceUnregister]
  cases hfind : s.ports.find? fun p => p.block == block with
  | none => exact hs
  | some p =>
    obtain ⟨hp, hblock⟩ := mem_ports_of_find hfind
    obtain ⟨hzero, hhead⟩ := hold p hp hblock
    obtain ⟨rest, hports⟩ := List.head?_eq_some_iff.mp hhead
    obtain ⟨hidr, hdevices, hnodup, hfresh⟩ := hs
    rw [hports] at hidr hdevices hnodup hfresh
    dsimp only
    rw [hports, List.erase_cons_head]
    refine ⟨?_, ?_, (List.nodup_cons.mp hnodup).2, fun q hq => hfresh q (List.mem_cons_of_mem p hq)⟩
    · dsimp only
      rw [hidr, List.map_cons, List.erase_cons_head]
    · dsimp only
      rw [hdevices, deviceDestroy, List.map_cons, List.eraseP_cons_of_pos]
      rw [hzero]
      rfl

theorem PortClass.Ordered.find_block (hs : s.Ordered) {p : Registered} (hp : p ∈ s.ports) :
    s.ports.find? (fun q => q.block == p.block) = some p := by
  cases hfind : s.ports.find? fun q => q.block == p.block with
  | none => exact absurd (beq_self_eq_true p.block) (List.find?_eq_none.mp hfind p hp)
  | some q =>
    obtain ⟨hq, hblock⟩ := mem_ports_of_find hfind
    rw [hs.eq_of_block hp hq hblock.symm]

theorem PortClass.Ordered.deviceDestroy_eq (hs : s.Ordered) {devt : ℕ} (hne : devt ≠ 0) :
    deviceDestroy devt s.devices = s.devices := by
  refine List.eraseP_of_forall_not fun d hd => ?_
  rw [hs.devices] at hd
  obtain ⟨q, -, rfl⟩ := List.mem_map.mp hd
  simpa [Registered.device] using fun h => hne h.symm

/-- **Any other port** leaves a device behind, or takes that of another port. -/
theorem oldestFirst_of_matched (hs : s.Ordered) {block : ℕ}
    (h : (c2portDeviceUnregister block s).Matched) : OldestFirst s (.unregister block) := by
  rintro p hp rfl
  rw [c2portDeviceUnregister, hs.find_block hp] at h
  change ((deviceDestroy p.id s.devices).map (·.drvdata)).Perm
    ((s.ports.erase p).map (·.block)) at h
  have hlen : 0 < s.ports.length := List.length_pos_of_mem hp
  have hzero : p.id = 0 := by
    by_contra hne
    have hcount := h.length_eq
    rw [hs.deviceDestroy_eq hne, hs.devices, List.length_map, List.length_map, List.length_map,
      List.length_erase_of_mem hp] at hcount
    omega
  refine ⟨hzero, ?_⟩
  cases hports : s.ports with
  | nil =>
    rw [hports] at hlen
    exact absurd hlen (Nat.lt_irrefl 0)
  | cons q rest =>
    -- the device of `q` is the one that is destroyed
    by_cases heq : q = p
    · rw [heq]
      rfl
    · have hnodup := hs.nodup
      rw [hs.devices, hports, deviceDestroy, List.map_cons,
        List.eraseP_cons_of_pos (by rw [hzero]; rfl), List.map_map] at h
      rw [hports, List.map_cons, List.nodup_cons] at hnodup
      have hkept : q.block ∈ ((q :: rest).erase p).map (·.block) :=
        List.mem_map_of_mem ((List.mem_erase_of_ne heq).mpr List.mem_cons_self)
      exact absurd (h.mem_iff.mpr hkept) hnodup.1

/-! ## Runs -/

theorem regStep_total (s : PortClass) (a : RegAct) : ∃ s', regStep s a = some s' := by
  cases a with
  | register ops kmalloc idr create => exact ⟨_, rfl⟩
  | unregister block => exact ⟨_, rfl⟩

theorem regStep_ordered (hs : s.Ordered) {a : RegAct} (h : regStep s a = some s')
    (ha : OldestFirst s a) : s'.Ordered := by
  cases a with
  | register ops kmalloc idr create =>
    obtain rfl := Option.some.inj h
    exact register_ordered hs ops kmalloc idr create
  | unregister block =>
    obtain rfl := Option.some.inj h
    exact unregister_ordered hs ha

theorem oldestFirst_of_regStep (hs : s.Ordered) {a : RegAct} (h : regStep s a = some s')
    (hmatched : s'.Matched) : OldestFirst s a := by
  cases a with
  | register ops kmalloc idr create => exact trivial
  | unregister block =>
    obtain rfl := Option.some.inj h
    exact oldestFirst_of_matched hs hmatched

/-- There is at most one port. -/
def PortClass.Single (s : PortClass) : Prop := s.ports.length ≤ 1

/-- The only port has the number 0. -/
def PortClass.First (s : PortClass) : Prop := ∀ p ∈ s.ports, p.id = 0

theorem oldestFirst_of_single (hone : s.Single) (hfirst : s.First) (a : RegAct) :
    OldestFirst s a := by
  cases a with
  | register ops kmalloc idr create => exact trivial
  | unregister block =>
    intro p hp _
    refine ⟨hfirst p hp, ?_⟩
    obtain ⟨q, hq⟩ : ∃ q, s.ports = [q] :=
      List.length_eq_one_iff.mp (Nat.le_antisymm hone (List.length_pos_of_mem hp))
    rw [hq] at hp ⊢
    rw [List.mem_singleton.mp hp]
    rfl

/-- A port that is alone after its registration has got the lowest number. -/
theorem regStep_first (hs : s.Ordered) (hfirst : s.First) {a : RegAct}
    (h : regStep s a = some s') (hone : s'.Single) : s'.First := by
  cases a with
  | register ops kmalloc idr create =>
    obtain rfl := Option.some.inj h
    obtain ⟨n, -, heq⟩ | heq := register_cases s ops kmalloc idr create
    · rw [heq]
      exact hfirst
    · rw [heq] at hone ⊢
      rw [PortClass.Single, List.length_append, List.length_singleton] at hone
      have hnone : s.ports = [] := List.length_eq_zero_iff.mp (by omega)
      have hidr : s.idr = [] := by rw [hs.idr, hnone]; rfl
      intro p hp
      rw [hnone, hidr] at hp
      rw [List.mem_singleton.mp hp]
      rfl
  | unregister block =>
    obtain rfl := Option.some.inj h
    intro p hp
    rw [c2portDeviceUnregister] at hp
    cases hfind : s.ports.find? fun p => p.block == block with
    | none =>
      rw [hfind] at hp
      exact hfirst p hp
    | some q =>
      rw [hfind] at hp
      exact hfirst p (List.mem_of_mem_erase hp)

theorem meets_of_single {run : List RegAct} (hs : s.Ordered) (hfirst : s.First)
    (h : Lts.Always regStep PortClass.Single s run) : Lts.Meets regStep OldestFirst s run := by
  induction run generalizing s with
  | nil => exact trivial
  | cons a run ih =>
    have ha : OldestFirst s a := oldestFirst_of_single h.1 hfirst a
    refine ⟨ha, fun s' hs' => ?_⟩
    have hrest := h.2 s' hs'
    have hone : s'.Single := by
      cases run with
      | nil => exact hrest
      | cons b run => exact hrest.1
    exact ih (regStep_ordered hs hs' ha) (regStep_first hs hfirst hs' hone) hrest

theorem ordered_init : PortClass.init.Ordered := ⟨rfl, rfl, List.nodup_nil, nofun⟩

/-- **Ports and their devices.** In a run of registrations and unregistrations, whatever the kernel
refuses, the devices of the class are always those of the ports exactly if each port that is
unregistered is the oldest one and has the number 0. A run with at most one port at a time does
this. -/
theorem matched_iff_oldestFirst (run : List RegAct) :
    (Lts.Always regStep PortClass.Matched .init run ↔
      Lts.Meets regStep OldestFirst .init run) ∧
    (Lts.Always regStep PortClass.Single .init run →
      Lts.Always regStep PortClass.Matched .init run) := by
  have hiff : Lts.Always regStep PortClass.Matched .init run ↔
      Lts.Meets regStep OldestFirst .init run :=
    Lts.always_iff_meets_of_inv (fun _ => PortClass.Ordered.matched)
      (fun _ _ _ hs h => oldestFirst_of_regStep hs h) (fun _ _ _ hs h => regStep_ordered hs h)
      regStep_total ordered_init
  exact ⟨hiff, fun hone => hiff.mpr (meets_of_single ordered_init nofun hone)⟩

/-- A port is registered and unregistered twice; the second `device_create` fails at first. -/
def onePort : List RegAct :=
  [.register true true true true, .unregister 0, .register true true true false,
    .register true true true true, .unregister 2]

theorem matched_onePort : Lts.Always regStep PortClass.Matched .init onePort := by
  refine (matched_iff_oldestFirst onePort).2 ?_
  simp only [Lts.Always, onePort, regStep, Option.some.injEq, forall_eq', PortClass.Single]
  decide

-- the device of the port with the number 1 stays, with a pointer to memory that was freed
example : (Lts.exec regStep .init [.register true true true true, .register true true true true,
    .unregister 1]).map (fun s => (s.ports, s.devices))
      = some ([⟨0, 0⟩], [⟨0, 0, 0⟩, ⟨0, 1, 1⟩]) := by
  decide

end LddExample.C2port
