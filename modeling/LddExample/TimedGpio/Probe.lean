import LddExample.Lib.Bytes
import LddExample.Lib.Lts
import Mathlib.Data.Int.Notation
import Mathlib.Data.List.Nodup
import Mathlib.Data.List.Perm.Basic
import Mathlib.Logic.Function.Basic

/-!
# Binding and removing timed GPIOs

`timed_gpio_probe` requests each GPIO of the platform data and registers a timed output for it; when
one of them fails it undoes the earlier ones. `timed_gpio_remove` undoes all of them. Every call
that the kernel may refuse is refused or not as `fail` says; a GPIO that is requested already is
refused, and so is a second device of a name in the class.

* `World`: the class, the requested GPIOs, the registered devices and the allocated blocks.
* `timedOutputDevRegister`, `timedGpioProbe`, `timedGpioRemove`: the functions of
  `timed_output.c` and `timed_gpio.c`.
* `Owns foreign ds w`: the GPIOs and devices of `w` are those of `ds`, besides foreign GPIOs.
* `owns_probeLoop`: the loop adds its GPIOs, or leaves everything as it was.
* `Board.Room`: the counter of the class, an `int`, does not wrap in a probe.
* **`resources_exact`**: after any sequence of probes and removals, of any platform data, exactly
  the GPIOs, devices and blocks of the bound instances are taken.
* **`vibrators_refused`**: the platform data of `timed_gpiodev.c` is never bound.
-/

namespace LddExample.TimedGpio

open Lts

/-! ## The kernel -/

/-- `EBUSY` -/
def ebusy : ℕ := 16

/-- `EEXIST` -/
def eexist : ℕ := 17

/-- `ENODEV` -/
def enodev : ℕ := 19

/-- `EINVAL` -/
def einval : ℕ := 22

/-- `ENOMEM` -/
def enomem : ℕ := 12

/-- `struct timed_gpio` -/
structure Gpio where
  name : Option String
  gpio : ℕ
  maxTimeout : ℤ
  activeLow : Bool

/-- A device of the class; `index` is the bits of the `int`, as they stand in `MKDEV(0, index)`. -/
structure Device where
  index : UInt32
  name : String

/-- `struct timed_gpio_data` of a registered GPIO -/
structure Data where
  dev : Device
  gpio : ℕ
  maxTimeout : ℤ
  activeLow : Bool

/-- `timed_output_class` -/
inductive ClassPtr
  | null
  | made
  /-- what a failing `class_create` leaves there -/
  | err
deriving DecidableEq

/-- What the driver finds in the kernel. -/
structure World where
  cls : ClassPtr
  /-- the bits of the `atomic_t` -/
  deviceCount : UInt32
  gpios : List ℕ
  devices : List Device
  lines : ℕ → Bool
  blocks : ℕ
  /-- how many calls were made that the kernel may refuse -/
  calls : ℕ

section

variable (fail : ℕ → Option ℕ)

/-- The kernel's word on the next call. -/
def ask (w : World) : Option ℕ × World := (fail w.calls, { w with calls := w.calls + 1 })

/-- `gpio_request` -/
def gpioRequest (gpio : ℕ) (w : World) : Except ℕ Unit × World :=
  match ask fail w with
  | (some e, w) => (.error e, w)
  | (none, w) =>
    if gpio ∈ w.gpios then (.error ebusy, w) else (.ok (), { w with gpios := gpio :: w.gpios })

/-- `gpio_free` -/
def gpioFree (gpio : ℕ) (w : World) : World := { w with gpios := w.gpios.erase gpio }

/-- `gpio_direction_output` -/
def gpioDirectionOutput (gpio : ℕ) (value : Bool) (w : World) : World :=
  { w with lines := Function.update w.lines gpio value }

/-- `device_create` -/
def deviceCreate (dev : Device) (w : World) : Except ℕ Unit × World :=
  match ask fail w with
  | (some e, w) => (.error e, w)
  | (none, w) =>
    if w.cls ≠ .made then (.error enodev, w)
    else if dev.name ∈ w.devices.map Device.name then (.error eexist, w)
    else (.ok (), { w with devices := dev :: w.devices })

/-- `device_destroy`, by the number of the device. -/
def deviceDestroy (index : UInt32) (w : World) : World :=
  { w with devices := w.devices.filter fun dev => dev.index ≠ index }

/-- `device_create_file` -/
def deviceCreateFile (w : World) : Except ℕ Unit × World :=
  match ask fail w with
  | (some e, w) => (.error e, w)
  | (none, w) => (.ok (), w)

/-! ## Timed outputs -/

/-- `create_timed_output_class` -/
def createTimedOutputClass (w : World) : Except ℕ Unit × World :=
  match w.cls with
  | .null =>
    match ask fail w with
    | (some e, w) => (.error e, { w with cls := .err })
    | (none, w) => (.ok (), { w with cls := .made, deviceCount := 0 })
  | _ => (.ok (), w)

/-- The functions `enable` and `get_time` of a timed GPIO are there; the name may be missing. -/
def timedOutputDevRegister (name : Option String) (w : World) : Except ℕ Device × World :=
  match name with
  | none => (.error einval, w)
  | some name =>
    match createTimedOutputClass fail w with
    | (.error e, w) => (.error e, w)
    | (.ok (), w) =>
      let dev := ⟨w.deviceCount + 1, name⟩
      match deviceCreate fail dev { w with deviceCount := w.deviceCount + 1 } with
      | (.error e, w) => (.error e, w)
      | (.ok (), w) =>
        match deviceCreateFile fail w with
        | (.error e, w) => (.error e, deviceDestroy dev.index w)
        | (.ok (), w) => (.ok dev, w)

/-- `gpio_enable` with 0 clears the line. -/
def timedOutputDevUnregister (x : Data) (w : World) : World :=
  deviceDestroy x.dev.index (gpioDirectionOutput x.gpio x.activeLow w)

/-! ## Timed GPIOs -/

/-- The device goes before its GPIO. -/
def release (x : Data) (w : World) : World := gpioFree x.gpio (timedOutputDevUnregister x w)

/-- Release the GPIOs of a list in its order, and free the data. -/
def releaseAll (ds : List Data) (w : World) : World :=
  let w := ds.foldl (fun w x => release x w) w
  { w with blocks := w.blocks - 1 }

/-- The loop of `timed_gpio_probe`; `done` are the GPIOs of the turns before, the last one first, as
`err_out` takes them. -/
def probeLoop : List Gpio → List Data → World → Except ℕ (List Data) × World
  | [], done, w => (.ok done.reverse, w)
  | cur :: gpios, done, w =>
    match gpioRequest fail cur.gpio w with
    | (.error e, w) => (.error e, releaseAll done w)
    | (.ok (), w) =>
      match timedOutputDevRegister fail cur.name w with
      | (.error e, w) => (.error e, releaseAll done (gpioFree cur.gpio w))
      | (.ok dev, w) =>
        probeLoop gpios (⟨dev, cur.gpio, cur.maxTimeout, cur.activeLow⟩ :: done)
          (gpioDirectionOutput cur.gpio cur.activeLow w)

/-- `timed_gpio_probe` -/
def timedGpioProbe (pdata : Option (List Gpio)) (w : World) :
    Except ℕ (List Data) × World :=
  match pdata with
  | none => (.error ebusy, w)
  | some gpios =>
    match ask fail w with
    | (some _, w) => (.error enomem, w)
    | (none, w) => probeLoop fail gpios [] { w with blocks := w.blocks + 1 }

end

/-- `timed_gpio_remove` -/
def timedGpioRemove (ds : List Data) (w : World) : World := releaseAll ds w

/-! ## The class and its devices -/

/-- The devices of the class are told apart by index and by name, and the next index is new. -/
structure Registry (w : World) : Prop where
  indices : (w.devices.map Device.index).Nodup
  names : (w.devices.map Device.name).Nodup
  count : ∀ dev ∈ w.devices, dev.index.toNat ≤ w.deviceCount.toNat
  cls : w.cls = .null → w.devices = []

/-- Nothing but the devices and the class is touched. -/
structure Frame (w w' : World) : Prop where
  gpios : w'.gpios = w.gpios
  lines : w'.lines = w.lines
  blocks : w'.blocks = w.blocks

variable (fail : ℕ → Option ℕ) {w : World}

theorem registry_createClass (hw : Registry w) :
    Registry (createTimedOutputClass fail w).2 ∧
      (createTimedOutputClass fail w).2.devices = w.devices ∧
      (createTimedOutputClass fail w).2.deviceCount.toNat ≤ w.deviceCount.toNat ∧
      Frame w (createTimedOutputClass fail w).2 := by
  unfold createTimedOutputClass
  cases hcls : w.cls with
  | made | err => exact ⟨hw, rfl, Nat.le_refl _, rfl, rfl, rfl⟩
  | null =>
    have hnil := hw.cls hcls
    unfold ask
    cases fail w.calls with
    | some e =>
      exact ⟨⟨hw.indices, hw.names, hw.count, fun h => by cases h⟩, rfl, Nat.le_refl _, rfl, rfl,
        rfl⟩
    | none =>
      -- the counter starts again, and the class has no device yet
      refine ⟨⟨hw.indices, hw.names, fun dev hdev => ?_, fun h => by cases h⟩, rfl, Nat.zero_le _,
        rfl, rfl, rfl⟩
      rw [show _ = _ from hnil] at hdev
      cases hdev

theorem filter_index_of_le {l : List Device} {i : UInt32} (hroom : i.toNat + 1 < 2 ^ 32)
    (h : ∀ dev ∈ l, dev.index.toNat ≤ i.toNat) :
    l.filter (fun dev => dev.index ≠ i + 1) = l := by
  refine List.filter_eq_self.mpr fun dev hdev => decide_eq_true fun heq => ?_
  have hle := h dev hdev
  rw [heq, Bytes.toNat_succ hroom] at hle
  omega

theorem registry_deviceCreate (hw : Registry w) (hroom : w.deviceCount.toNat + 1 < 2 ^ 32)
    (name : String) :
    let r := deviceCreate fail ⟨w.deviceCount + 1, name⟩
      { w with deviceCount := w.deviceCount + 1 }
    Registry r.2 ∧ Frame w r.2 ∧ r.2.deviceCount = w.deviceCount + 1 ∧
      r.2.devices =
        match r.1 with
        | .ok _ => ⟨w.deviceCount + 1, name⟩ :: w.devices
        | .error _ => w.devices := by
  have hsucc := Bytes.toNat_succ hroom
  have hcount : ∀ dev ∈ w.devices, dev.index.toNat ≤ (w.deviceCount + 1).toNat := fun dev hdev =>
    hsucc ▸ Nat.le_succ_of_le (hw.count dev hdev)
  have hsame : ∀ calls, Registry { w with deviceCount := w.deviceCount + 1, calls := calls } :=
    fun _ => ⟨hw.indices, hw.names, hcount, hw.cls⟩
  simp only [deviceCreate, ask]
  cases fail w.calls with
  | some e => exact ⟨hsame _, ⟨rfl, rfl, rfl⟩, rfl, rfl⟩
  | none =>
    dsimp only
    split_ifs with hcls hname
    · exact ⟨hsame _, ⟨rfl, rfl, rfl⟩, rfl, rfl⟩
    · exact ⟨hsame _, ⟨rfl, rfl, rfl⟩, rfl, rfl⟩
    · have hmade : w.cls = .made := not_not.mp hcls
      refine ⟨⟨?_, ?_, ?_, fun h => ?_⟩, ⟨rfl, rfl, rfl⟩, rfl, rfl⟩
      · refine List.nodup_cons.mpr ⟨fun hmem => ?_, hw.indices⟩
        obtain ⟨dev, hdev, hindex⟩ := List.mem_map.mp hmem
        have hle := hw.count dev hdev
        dsimp only at hindex
        rw [hindex, hsucc] at hle
        omega
      · exact List.nodup_cons.mpr ⟨hname, hw.names⟩
      · intro dev hdev
        rcases List.mem_cons.mp hdev with rfl | hmem
        · exact Nat.le_refl _
        · exact hcount dev hmem
      · rw [show _ = _ from hmade] at h
        cases h

/-- **Registering adds one device or none.** -/
theorem registry_register (hw : Registry w) (hroom : w.deviceCount.toNat + 1 < 2 ^ 32)
    (name : Option String) :
    Registry (timedOutputDevRegister fail name w).2 ∧
      Frame w (timedOutputDevRegister fail name w).2 ∧
      (timedOutputDevRegister fail name w).2.deviceCount.toNat ≤ w.deviceCount.toNat + 1 ∧
      match (timedOutputDevRegister fail name w).1 with
      | .ok dev => name = some dev.name ∧
          (timedOutputDevRegister fail name w).2.devices = dev :: w.devices
      | .error _ => (timedOutputDevRegister fail name w).2.devices = w.devices := by
  cases name with
  | none => exact ⟨hw, ⟨rfl, rfl, rfl⟩, Nat.le_succ _, rfl⟩
  | some name =>
    obtain ⟨hw₁, hdev₁, hle₁, hfr₁⟩ := registry_createClass fail hw
    unfold timedOutputDevRegister
    dsimp only
    generalize createTimedOutputClass fail w = r at hw₁ hdev₁ hle₁ hfr₁
    obtain ⟨out, w₁⟩ := r
    cases out with
    | error e => exact ⟨hw₁, hfr₁, Nat.le_succ_of_le hle₁, hdev₁⟩
    | ok _ =>
      dsimp only at hle₁
      have hroom₁ : w₁.deviceCount.toNat + 1 < 2 ^ 32 := by omega
      have hle : (w₁.deviceCount + 1).toNat ≤ w.deviceCount.toNat + 1 := by
        rw [Bytes.toNat_succ hroom₁]
        omega
      obtain ⟨hw₂, hfr₂, hcount₂, hdev₂⟩ := registry_deviceCreate fail hw₁ hroom₁ name
      have hfr : ∀ {w'}, Frame w₁ w' → Frame w w' := fun h =>
        ⟨h.gpios.trans hfr₁.gpios, h.lines.trans hfr₁.lines, h.blocks.trans hfr₁.blocks⟩
      dsimp only at hdev₁ ⊢
      generalize deviceCreate fail ⟨w₁.deviceCount + 1, name⟩
        { w₁ with deviceCount := w₁.deviceCount + 1 } = r at hw₂ hfr₂ hcount₂ hdev₂
      obtain ⟨out, w₂⟩ := r
      cases out with
      | error e => exact ⟨hw₂, hfr hfr₂, hcount₂ ▸ hle, hdev₂.trans hdev₁⟩
      | ok _ =>
        dsimp only at hw₂ hcount₂ hdev₂ ⊢
        unfold deviceCreateFile ask
        cases fail w₂.calls with
        | none =>
          refine ⟨⟨hw₂.indices, hw₂.names, hw₂.count, hw₂.cls⟩,
            hfr ⟨hfr₂.gpios, hfr₂.lines, hfr₂.blocks⟩, hcount₂ ▸ hle, rfl, ?_⟩
          rw [← hdev₁]
          exact hdev₂
        | some e =>
          -- `device_destroy` takes the new device away again
          have hback : w₂.devices.filter (fun dev => dev.index ≠ w₁.deviceCount + 1) =
              w₁.devices := by
            rw [hdev₂, List.filter_cons_of_neg (by simp)]
            exact filter_index_of_le hroom₁ hw₁.count
          have hsub := w₂.devices.filter_sublist (p := fun dev => dev.index ≠ w₁.deviceCount + 1)
          refine ⟨⟨hw₂.indices.sublist (hsub.map _), hw₂.names.sublist (hsub.map _),
            fun dev hdev => hw₂.count dev (hsub.subset hdev), fun h => ?_⟩,
            hfr ⟨hfr₂.gpios, hfr₂.lines, hfr₂.blocks⟩, hcount₂ ▸ hle, hback.trans hdev₁⟩
          change w₂.devices.filter (fun dev => dev.index ≠ w₁.deviceCount + 1) = []
          rw [hw₂.cls h, List.filter_nil]

/-! ## What is taken -/

/-- The GPIOs and the devices are those of `ds`, besides foreign GPIOs. -/
structure Owns (foreign : List ℕ) (ds : List Data) (w : World) : Prop where
  registry : Registry w
  gpios : w.gpios.Perm (ds.map Data.gpio ++ foreign)
  once : w.gpios.Nodup
  devices : w.devices.Perm (ds.map Data.dev)
  lines : ∀ x ∈ ds, w.lines x.gpio = x.activeLow

variable {foreign : List ℕ} {ds : List Data} {x : Data}

theorem Owns.perm (h : Owns foreign ds w) {ds' : List Data} (hp : ds.Perm ds') :
    Owns foreign ds' w where
  registry := h.registry
  gpios := h.gpios.trans ((hp.map _).append_right _)
  once := h.once
  devices := h.devices.trans (hp.map _)
  lines y hy := h.lines y (hp.mem_iff.mpr hy)

theorem Owns.count (h : Owns foreign ds w) (blocks calls : ℕ) :
    Owns foreign ds { w with blocks := blocks, calls := calls } where
  registry := ⟨h.registry.indices, h.registry.names, h.registry.count, h.registry.cls⟩
  gpios := h.gpios
  once := h.once
  devices := h.devices
  lines := h.lines

theorem Owns.of_frame (h : Owns foreign ds w) {w' : World} (hw : Registry w') (hfr : Frame w w')
    (hdev : w'.devices = w.devices) : Owns foreign ds w' where
  registry := hw
  gpios := hfr.gpios ▸ h.gpios
  once := hfr.gpios ▸ h.once
  devices := hdev ▸ h.devices
  lines := hfr.lines ▸ h.lines

theorem owns_gpioRequest (h : Owns foreign ds w) (gpio : ℕ) :
    (gpioRequest fail gpio w).2.blocks = w.blocks ∧
      (gpioRequest fail gpio w).2.deviceCount = w.deviceCount ∧
      match (gpioRequest fail gpio w).1 with
      | .ok _ => Owns (gpio :: foreign) ds (gpioRequest fail gpio w).2
      | .error _ => Owns foreign ds (gpioRequest fail gpio w).2 := by
  have hsame : Owns foreign ds { w with calls := w.calls + 1 } := h.count _ _
  simp only [gpioRequest, ask]
  cases fail w.calls with
  | some e => exact ⟨rfl, rfl, hsame⟩
  | none =>
    dsimp only
    split_ifs with hmem
    · exact ⟨rfl, rfl, hsame⟩
    · exact ⟨rfl, rfl, ⟨hsame.registry.indices, hsame.registry.names, hsame.registry.count,
        hsame.registry.cls⟩, (h.gpios.cons gpio).trans List.perm_middle.symm,
        List.nodup_cons.mpr ⟨hmem, h.once⟩, h.devices, h.lines⟩

theorem owns_gpioFree {gpio : ℕ} (h : Owns (gpio :: foreign) ds w) :
    Owns foreign ds (gpioFree gpio w) where
  registry := ⟨h.registry.indices, h.registry.names, h.registry.count, h.registry.cls⟩
  gpios := by
    have hp := h.gpios.trans List.perm_middle
    exact (hp.erase gpio).trans (by rw [List.erase_cons_head])
  once := h.once.erase gpio
  devices := h.devices
  lines := h.lines

theorem Owns.gpio_ne (h : Owns (x.gpio :: foreign) ds w) {y : Data} (hy : y ∈ ds) :
    y.gpio ≠ x.gpio := by
  have hnodup := (h.gpios.trans List.perm_middle).nodup_iff.mp h.once
  intro heq
  refine (List.nodup_cons.mp hnodup).1 (List.mem_append_left _ ?_)
  exact heq ▸ List.mem_map_of_mem hy

theorem Owns.register (h : Owns (x.gpio :: foreign) ds w) {w' : World} (hw : Registry w')
    (hfr : Frame w w') (hdev : w'.devices = x.dev :: w.devices) :
    Owns foreign (x :: ds) (gpioDirectionOutput x.gpio x.activeLow w') where
  registry := ⟨hw.indices, hw.names, hw.count, hw.cls⟩
  gpios := by
    change w'.gpios.Perm _
    rw [hfr.gpios]
    exact h.gpios.trans List.perm_middle
  once := by
    change w'.gpios.Nodup
    exact hfr.gpios ▸ h.once
  devices := by
    change w'.devices.Perm _
    rw [hdev]
    exact h.devices.cons x.dev
  lines y hy := by
    rcases List.mem_cons.mp hy with rfl | hmem
    · exact Function.update_self ..
    · refine (Function.update_of_ne (h.gpio_ne hmem) ..).trans ?_
      rw [hfr.lines]
      exact h.lines y hmem

theorem owns_release (h : Owns foreign (x :: ds) w) : Owns foreign ds (release x w) := by
  have hp : w.devices.Perm (x.dev :: ds.map Data.dev) := h.devices
  have hnodup := (hp.map Device.index).nodup_iff.mp h.registry.indices
  have hnew := (List.nodup_cons.mp hnodup).1
  have hgpios : (x.gpio :: (ds.map Data.gpio ++ foreign)).Nodup := h.gpios.nodup_iff.mp h.once
  have hfilter : (x.dev :: ds.map Data.dev).filter (fun dev => dev.index ≠ x.dev.index) =
      ds.map Data.dev := by
    rw [List.filter_cons_of_neg (by simp)]
    refine List.filter_eq_self.mpr fun dev hdev => ?_
    refine decide_eq_true fun heq => hnew ?_
    exact heq ▸ List.mem_map_of_mem hdev
  have hsub := w.devices.filter_sublist (p := fun dev => dev.index ≠ x.dev.index)
  refine ⟨⟨h.registry.indices.sublist (hsub.map _), h.registry.names.sublist (hsub.map _),
    fun dev hdev => h.registry.count dev (hsub.subset hdev), fun hcls => ?_⟩, ?_,
    h.once.erase x.gpio, ?_, fun y hy => ?_⟩
  · change w.devices.filter (fun dev => dev.index ≠ x.dev.index) = []
    rw [h.registry.cls hcls, List.filter_nil]
  · have herase := h.gpios.erase x.gpio
    rwa [List.map_cons, List.cons_append, List.erase_cons_head] at herase
  · have hperm := hp.filter fun dev => decide (dev.index ≠ x.dev.index)
    rwa [hfilter] at hperm
  · have hne : y.gpio ≠ x.gpio := by
      intro heq
      refine (List.nodup_cons.mp hgpios).1 (List.mem_append_left _ ?_)
      exact heq ▸ List.mem_map_of_mem hy
    exact (Function.update_of_ne hne ..).trans (h.lines y (List.mem_cons_of_mem _ hy))

theorem owns_releaseAll {old : List Data} (h : Owns foreign (ds ++ old) w) :
    Owns foreign old (releaseAll ds w) ∧ (releaseAll ds w).blocks = w.blocks - 1 := by
  unfold releaseAll
  dsimp only
  have hall : Owns foreign old (ds.foldl (fun w x => release x w) w) ∧
      (ds.foldl (fun w x => release x w) w).blocks = w.blocks := by
    induction ds generalizing w with
    | nil => exact ⟨h, rfl⟩
    | cons x ds ih => exact ih (owns_release h)
  obtain ⟨hown, hblocks⟩ := hall
  exact ⟨hown.count _ _, congrArg (· - 1) hblocks⟩

/-! ## Probing -/

/-- The platform data that the data of a GPIO came from. -/
def Data.toGpio (x : Data) : Gpio := ⟨some x.dev.name, x.gpio, x.maxTimeout, x.activeLow⟩

/-- **The loop of the probe.** It adds its GPIOs to those of the turns before, or gives all of them
back. -/
theorem owns_probeLoop (old : List Data) (gpios : List Gpio) :
    ∀ (done : List Data) (w : World), Owns foreign (done ++ old) w →
      w.deviceCount.toNat + gpios.length < 2 ^ 32 →
      match (probeLoop fail gpios done w).1 with
      | .ok ds => Owns foreign (ds ++ old) (probeLoop fail gpios done w).2 ∧
          (probeLoop fail gpios done w).2.blocks = w.blocks ∧
          ds.map Data.toGpio = done.reverse.map Data.toGpio ++ gpios
      | .error _ => Owns foreign old (probeLoop fail gpios done w).2 ∧
          (probeLoop fail gpios done w).2.blocks = w.blocks - 1 := by
  induction gpios with
  | nil =>
    intro done w h _
    exact ⟨h.perm ((List.reverse_perm done).symm.append_right old), rfl,
      (List.append_nil _).symm⟩
  | cons cur gpios ih =>
    intro done w h hroom
    rw [List.length_cons] at hroom
    obtain ⟨hblocks₁, hcount₁, h₁⟩ := owns_gpioRequest fail h cur.gpio
    unfold probeLoop
    generalize gpioRequest fail cur.gpio w = r at hblocks₁ hcount₁ h₁
    obtain ⟨out, w₁⟩ := r
    cases out with
    | error e =>
      obtain ⟨hown, hblocks⟩ := owns_releaseAll h₁
      exact ⟨hown, hblocks.trans (congrArg (· - 1) hblocks₁)⟩
    | ok _ =>
      dsimp only at hcount₁
      obtain ⟨hw₂, hfr₂, hle₂, h₂⟩ :=
        registry_register fail h₁.registry (by rw [hcount₁]; omega) cur.name
      dsimp only at h₁ hblocks₁ hw₂ hfr₂ hle₂ h₂ ⊢
      generalize timedOutputDevRegister fail cur.name w₁ = r at hw₂ hfr₂ hle₂ h₂
      obtain ⟨out, w₂⟩ := r
      have hblocks₂ : w₂.blocks = w.blocks := hfr₂.blocks.trans hblocks₁
      cases out with
      | error e =>
        obtain ⟨hown, hblocks⟩ := owns_releaseAll (owns_gpioFree (h₁.of_frame hw₂ hfr₂ h₂))
        exact ⟨hown, hblocks.trans (congrArg (· - 1) hblocks₂)⟩
      | ok dev =>
        obtain ⟨hname, hdev⟩ := h₂
        have hown := Owns.register (x := ⟨dev, cur.gpio, cur.maxTimeout, cur.activeLow⟩) h₁ hw₂
          hfr₂ hdev
        dsimp only at hle₂
        rw [hcount₁] at hle₂
        have hrest := ih (⟨dev, cur.gpio, cur.maxTimeout, cur.activeLow⟩ :: done) _ hown (by
          change w₂.deviceCount.toNat + gpios.length < 2 ^ 32
          omega)
        dsimp only
        generalize probeLoop fail gpios (⟨dev, cur.gpio, cur.maxTimeout, cur.activeLow⟩ :: done)
          (gpioDirectionOutput cur.gpio cur.activeLow w₂) = r at hrest
        obtain ⟨out, w₃⟩ := r
        cases out with
        | error e =>
          obtain ⟨hown₃, hblocks₃⟩ := hrest
          exact ⟨hown₃, hblocks₃.trans (congrArg (· - 1) hblocks₂)⟩
        | ok ds =>
          obtain ⟨hown₃, hblocks₃, hds⟩ := hrest
          refine ⟨hown₃, hblocks₃.trans hblocks₂, hds.trans ?_⟩
          have hcur : Data.toGpio ⟨dev, cur.gpio, cur.maxTimeout, cur.activeLow⟩ = cur := by
            rw [Data.toGpio, ← hname]
          rw [List.reverse_cons, List.map_append, List.map_singleton, hcur, List.append_assoc]
          rfl

theorem owns_probe {old : List Data} (h : Owns foreign old w) (pdata : Option (List Gpio))
    (hroom : w.deviceCount.toNat + (pdata.getD []).length < 2 ^ 32) :
    match (timedGpioProbe fail pdata w).1 with
    | .ok ds => Owns foreign (ds ++ old) (timedGpioProbe fail pdata w).2 ∧
        (timedGpioProbe fail pdata w).2.blocks = w.blocks + 1 ∧
        pdata = some (ds.map Data.toGpio)
    | .error _ => Owns foreign old (timedGpioProbe fail pdata w).2 ∧
        (timedGpioProbe fail pdata w).2.blocks = w.blocks := by
  cases pdata with
  | none => exact ⟨h, rfl⟩
  | some gpios =>
    unfold timedGpioProbe ask
    cases fail w.calls with
    | some e => exact ⟨h.count _ _, rfl⟩
    | none =>
      have hloop := owns_probeLoop fail old gpios []
        { w with blocks := w.blocks + 1, calls := w.calls + 1 } (h.count _ _) hroom
      dsimp only
      generalize probeLoop fail gpios []
        { w with blocks := w.blocks + 1, calls := w.calls + 1 } = r at hloop
      obtain ⟨out, w'⟩ := r
      cases out with
      | error e => exact hloop
      | ok ds =>
        obtain ⟨hown, hblocks, hds⟩ := hloop
        exact ⟨hown, hblocks, congrArg some hds.symm⟩

/-! ## Instances -/

/-- The kernel, and the data of the bound instances of the driver. -/
structure Board where
  world : World
  bound : List (List Data)

/-- Before the first module is loaded; others have requested `foreign`. -/
def Board.start (foreign : List ℕ) (lines : ℕ → Bool) : Board where
  world :=
    { cls := .null, deviceCount := 0, gpios := foreign, devices := [], lines, blocks := 0,
      calls := 0 }
  bound := []

/-- What happens to the modules and their instances. -/
inductive BoardAct
  | timedOutputInit
  | probe (pdata : Option (List Gpio))
  /-- the instance `k` goes -/
  | remove (k : ℕ)

/-- **One step.** -/
def boardStep (b : Board) : BoardAct → Option Board
  | .timedOutputInit => some { b with world := (createTimedOutputClass fail b.world).2 }
  | .probe pdata =>
    match timedGpioProbe fail pdata b.world with
    | (.ok ds, world) => some ⟨world, ds :: b.bound⟩
    | (.error _, world) => some ⟨world, b.bound⟩
  | .remove k =>
    match b.bound[k]? with
    | some ds => some ⟨timedGpioRemove ds b.world, b.bound.eraseIdx k⟩
    | none => none

/-- The counter of the class has room for the GPIOs of a probe. -/
def Board.Room (b : Board) : BoardAct → Prop
  | .probe pdata => b.world.deviceCount.toNat + (pdata.getD []).length < 2 ^ 32
  | .timedOutputInit | .remove _ => True

instance (b : Board) : ∀ a, Decidable (b.Room a)
  | .probe _ => inferInstanceAs (Decidable (_ < _))
  | .timedOutputInit | .remove _ => isTrue trivial

/-- The books of the bound instances. -/
structure Board.Exact (foreign : List ℕ) (b : Board) : Prop where
  owns : Owns foreign b.bound.flatten b.world
  blocks : b.world.blocks = b.bound.length

theorem exact_start (hforeign : foreign.Nodup) (lines : ℕ → Bool) :
    (Board.start foreign lines).Exact foreign where
  owns :=
    { registry := ⟨List.nodup_nil, List.nodup_nil, fun _ h => (by cases h), fun _ => rfl⟩
      gpios := .refl _
      once := hforeign
      devices := .refl _
      lines := fun _ h => by cases h }
  blocks := rfl

/-- **Each operation keeps the books.** -/
theorem Board.Exact.step {b b' : Board} (h : b.Exact foreign) {a : BoardAct} (hroom : b.Room a)
    (hs : boardStep fail b a = some b') : b'.Exact foreign := by
  cases a with simp only [boardStep] at hs
  | timedOutputInit =>
    cases hs
    obtain ⟨hw, hdev, -, hfr⟩ := registry_createClass fail h.owns.registry
    exact ⟨h.owns.of_frame hw hfr hdev, hfr.blocks.trans h.blocks⟩
  | probe pdata =>
    have hprobe := owns_probe fail h.owns pdata hroom
    generalize timedGpioProbe fail pdata b.world = r at hs hprobe
    obtain ⟨out, w⟩ := r
    cases out with
    | ok ds =>
      cases hs
      exact ⟨hprobe.1, hprobe.2.1.trans (congrArg (· + 1) h.blocks)⟩
    | error e =>
      cases hs
      exact ⟨hprobe.1, hprobe.2.trans h.blocks⟩
  | remove k =>
    cases hk : b.bound[k]? with rw [hk] at hs
    | none => cases hs
    | some ds =>
      cases hs
      obtain ⟨hlt, hds⟩ := List.getElem?_eq_some_iff.mp hk
      have hperm : b.bound.flatten.Perm (ds ++ (b.bound.eraseIdx k).flatten) := by
        have := (List.getElem_cons_eraseIdx_perm hlt).symm.flatten
        rwa [hds, List.flatten_cons] at this
      obtain ⟨hown, hblocks⟩ := owns_releaseAll (h.owns.perm hperm)
      refine ⟨hown, hblocks.trans ?_⟩
      rw [h.blocks, List.length_eraseIdx_of_lt hlt]

/-- **The books are right.** After any sequence of probes and removals, and whatever the kernel
refused, as long as the counter of the class does not wrap: the requested GPIOs are the foreign ones
and those of the bound instances, each once; the devices of the class are those of the bound
instances, no two of one name or one index; there is a block for each instance; and the lines of the
instances are at their idle level. -/
theorem resources_exact (hforeign : foreign.Nodup) (lines : ℕ → Bool) {l : List BoardAct}
    {b : Board} (hroom : Meets (boardStep fail) Board.Room (.start foreign lines) l)
    (h : exec (boardStep fail) (.start foreign lines) l = some b) :
    b.world.gpios.Perm (b.bound.flatten.map Data.gpio ++ foreign) ∧ b.world.gpios.Nodup ∧
      b.world.devices.Perm (b.bound.flatten.map Data.dev) ∧
      (b.world.devices.map Device.name).Nodup ∧ (b.world.devices.map Device.index).Nodup ∧
      b.world.blocks = b.bound.length ∧
      ∀ x ∈ b.bound.flatten, b.world.lines x.gpio = x.activeLow := by
  have hI : b.Exact foreign :=
    exec_induction (fun _ _ _ hI hr hs => hI.step fail hr hs) (exact_start hforeign lines) hroom h
  exact ⟨hI.owns.gpios, hI.owns.once, hI.owns.devices, hI.owns.registry.names,
    hI.owns.registry.indices, hI.blocks, hI.owns.lines⟩

/-- Two instances are bound, a third one fails in its second turn, and the first one goes. -/
def threeProbes : List BoardAct :=
  [.timedOutputInit, .probe (some [⟨some "a", 1, 100, false⟩, ⟨some "b", 2, 100, true⟩]),
    .probe (some [⟨some "c", 3, 100, true⟩]),
    .probe (some [⟨some "d", 4, 100, true⟩, ⟨some "e", 1, 100, true⟩]), .remove 1]

theorem resources_exact_three :
    ∃ b, exec (boardStep fun _ => none) (.start [9] fun _ => false) threeProbes = some b ∧
      b.bound.map (·.map Data.gpio) = [[3]] ∧ b.world.gpios = [3, 9] ∧ b.world.blocks = 1 ∧
      b.world.gpios.Perm (b.bound.flatten.map Data.gpio ++ [9]) :=
  ⟨_, rfl, rfl, rfl, rfl,
    (resources_exact (fun _ => none) (List.nodup_singleton 9) _ (l := threeProbes) (by decide)
      rfl).1⟩

/-- The names of the platform data that was bound are there and differ. -/
theorem names_of_probe {old ds : List Data} {gpios : List Gpio} (h : Owns foreign old w)
    (hroom : w.deviceCount.toNat + gpios.length < 2 ^ 32)
    (hok : (timedGpioProbe fail (some gpios) w).1 = .ok ds) : (gpios.map Gpio.name).Nodup := by
  have hprobe := owns_probe fail h (some gpios) hroom
  rw [hok] at hprobe
  obtain ⟨hown, -, hds⟩ := hprobe
  have hnames : ((ds ++ old).map fun x => x.dev.name).Nodup := by
    have := (hown.devices.map Device.name).nodup_iff.mp hown.registry.names
    rwa [List.map_map] at this
  rw [Option.some.inj hds, List.map_map]
  rw [List.map_append] at hnames
  have hsome := (List.nodup_append.mp hnames).1.map fun _ _ => Option.some.inj
  rwa [List.map_map] at hsome

/-- `tgpios` of `timed_gpiodev.c` -/
def tgpios : List Gpio :=
  [⟨some "vibrator", 7, 100000000, false⟩, ⟨some "vibrator", 8, 100000000, false⟩]

/-- **The two vibrators have one name**, so the probe of the platform device always fails. -/
theorem vibrators_refused {b : Board} (h : b.Exact foreign)
    (hroom : b.Room (.probe (some tgpios))) :
    ∃ e, (timedGpioProbe fail (some tgpios) b.world).1 = .error e := by
  cases hr : (timedGpioProbe fail (some tgpios) b.world).1 with
  | error e => exact ⟨e, rfl⟩
  | ok ds => exact absurd (names_of_probe fail h.owns hroom hr) (by decide)

end LddExample.TimedGpio
