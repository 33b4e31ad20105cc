import Mathlib.Data.Int.Notation
import Mathlib.Data.List.Nodup
import Mathlib.Data.List.Range
import Mathlib.Tactic.SplitIfs

/-!
# The composite framework: building a device

A gadget is put together out of configurations and functions while it is bound: the driver adds
configurations, a configuration's `bind` adds functions, and a function's `bind` asks for interface
numbers and string numbers. The callbacks may ask for anything in any order, and succeed or fail.

* `Descriptor`, `UsbFunction`, `Configuration`, `Cdev`: the data.
* `usbInterfaceId`, `usbStringId`, `usbStringIdsTab`, `usbStringIdsN`: the numbers.
* `usbAddFunction`, `usbAddConfig`: with one run of the callback as the list of what it asks for.
* `usbStringIdsTab_eq`, `usbStringIdsN_eq`: the batch calls hand out what single calls would.
* **`built`**: whatever the callbacks do, string numbers are handed out once, in order and up to
  254; configuration values differ; interface tables are in bounds. When no configuration covers up
  for a function that failed, every interface belongs to a function of its configuration.
-/

namespace LddExample.Composite

/-! ## Data -/

/-- A descriptor: the first byte is its length, the second its type. -/
structure Descriptor where
  bytes : List UInt8
  bLength : (bytes.getD 0 0).toNat = bytes.length
  header : 2 ≤ bytes.length
deriving DecidableEq

/-- The second byte of a descriptor is its type. -/
def Descriptor.bDescriptorType (d : Descriptor) : UInt8 := d.bytes.getD 1 0

/-- `struct usb_gadget_strings`: pairs of number and UTF-8 text -/
structure UsbGadgetStrings where
  language : UInt16
  strings : List (UInt8 × List UInt8)
deriving DecidableEq

/-- `struct usb_function` after its `bind`; a callback is there or not. -/
structure UsbFunction where
  strings : List UsbGadgetStrings
  descriptors : Option (List Descriptor)
  hsDescriptors : Option (List Descriptor)
  bind : Bool
  setAlt : Bool
  getAlt : Bool
  disable : Bool
  setup : Bool
  suspend : Bool
  resume : Bool
deriving DecidableEq

/-- `struct usb_configuration`. Functions are named by numbers. The slots of `interface` from
`next_interface_id` on are `NULL` and left out here. -/
structure Configuration where
  bConfigurationValue : UInt8
  iConfiguration : UInt8
  bmAttributes : UInt8
  bMaxPower : UInt8
  descriptors : Option (List Descriptor)
  strings : List UsbGadgetStrings
  setup : Bool
  functions : List ℕ
  interface : List ℕ
  highspeed : Bool
  fullspeed : Bool
deriving DecidableEq

/-- `next_string_id`, and the numbers that were handed out. -/
structure StringIds where
  next : ℕ
  granted : List ℕ
deriving DecidableEq

/-- `EBUSY` -/
def ebusy : ℤ := 16

/-- `ENODEV` -/
def enodev : ℤ := 19

/-- `EINVAL` -/
def einval : ℤ := 22

/-- `MAX_CONFIG_INTERFACES` -/
def maxConfigInterfaces : ℕ := 16

/-! ## Numbers -/

/-- `usb_interface_id` -/
def usbInterfaceId (config : Configuration) (function : ℕ) : ℤ × Configuration :=
  if config.interface.length < maxConfigInterfaces then
    (config.interface.length, { config with interface := config.interface ++ [function] })
  else
    (-enodev, config)

/-- `usb_string_id` -/
def usbStringId (s : StringIds) : ℤ × StringIds :=
  if s.next < 254 then
    (s.next + 1, ⟨s.next + 1, s.granted ++ [s.next + 1]⟩)
  else
    (-enodev, s)

/-- The loop of `usb_string_ids_tab` over `n` strings: the numbers it writes into the table, and
`next` behind it unless it gives up. -/
def stringIdsLoop : ℕ → ℕ → List ℕ × Option ℕ
  | next, 0 => ([], some next)
  | next, n + 1 =>
    if 254 ≤ next then
      ([], none)
    else
      let (ids, last) := stringIdsLoop (next + 1) n
      ((next + 1) :: ids, last)

/-- The numbers in the table after a failure are not handed out. -/
def usbStringIdsTab (s : StringIds) (n : ℕ) : ℤ × StringIds :=
  match stringIdsLoop s.next n with
  | (ids, some next) => (0, ⟨next, s.granted ++ ids⟩)
  | (_, none) => (-enodev, s)

/-- The first of `n` numbers. -/
def usbStringIdsN (s : StringIds) (n : ℕ) : ℤ × StringIds :=
  if 254 < n ∨ 254 < s.next + n then
    (-enodev, s)
  else
    (s.next + 1, ⟨s.next + n, s.granted ++ List.range' (s.next + 1) n⟩)

/-! ## Functions and configurations -/

/-- What a `bind` callback asks for string numbers. -/
inductive Ask
  | stringId
  | stringIdsTab (n : ℕ)
  | stringIdsN (n : ℕ)
deriving DecidableEq

/-- The string identifiers after a request for some. -/
def Ask.run (s : StringIds) : Ask → StringIds
  | .stringId => (usbStringId s).2
  | .stringIdsTab n => (usbStringIdsTab s n).2
  | .stringIdsN n => (usbStringIdsN s n).2

/-- What the `bind` callback of a function asks for. -/
inductive FunctionAsk
  | string (a : Ask)
  | interfaceId
deriving DecidableEq

/-- A configuration that is being bound. -/
structure Work where
  config : Configuration
  ids : StringIds
deriving DecidableEq

/-- The work after a request of a function. -/
def FunctionAsk.run (function : ℕ) (w : Work) : FunctionAsk → Work
  | .string a => { w with ids := a.run w.ids }
  | .interfaceId => { w with config := (usbInterfaceId w.config function).2 }

/-- A run of a function's `bind`: what it asks for and what it returns. -/
structure FunctionBind where
  asks : List FunctionAsk
  value : ℤ
deriving DecidableEq

variable (fns : ℕ → UsbFunction)

/-- The call of `function->bind`, with the function in the list. -/
def bindFunction (function : ℕ) (bind : FunctionBind) (w : Work) : ℤ × Work :=
  if (fns function).bind then
    let w := bind.asks.foldl (FunctionAsk.run function) w
    if bind.value < 0 then
      -- its interfaces stay in the table
      (bind.value, { w with config := { w.config with
        functions := w.config.functions.erase function } })
    else
      (bind.value, w)
  else
    (0, w)

/-- `usb_add_function` -/
def usbAddFunction (function : ℕ) (bind : FunctionBind) (w : Work) : ℤ × Work :=
  if !(fns function).setAlt || !(fns function).disable then
    (-einval, w)
  else
    let (value, w) := bindFunction fns function bind { w with config := { w.config with
      functions := w.config.functions ++ [function] } }
    (value, { w with config := { w.config with
      fullspeed := w.config.fullspeed || (fns function).descriptors.isSome
      highspeed := w.config.highspeed || (fns function).hsDescriptors.isSome } })

/-- What the `bind` callback of a configuration does. -/
inductive ConfigAsk
  | string (a : Ask)
  | addFunction (function : ℕ) (bind : FunctionBind)
deriving DecidableEq

/-- The work after a request of a configuration. -/
def ConfigAsk.run (w : Work) : ConfigAsk → Work
  | .string a => { w with ids := a.run w.ids }
  | .addFunction function bind => (usbAddFunction fns function bind w).2

/-- `struct usb_composite_dev`: what is built -/
structure Cdev where
  configs : List Configuration
  ids : StringIds
deriving DecidableEq

/-- `kzalloc` -/
def Cdev.init : Cdev := ⟨[], 0, []⟩

/-- A run of a configuration's `bind`. -/
structure ConfigBind where
  asks : List ConfigAsk
  value : ℤ
deriving DecidableEq

/-- `usb_add_config` without the reset of the endpoints -/
def usbAddConfig (config : Configuration) (bind : Option ConfigBind) (s : Cdev) : ℤ × Cdev :=
  match bind with
  | none => (-einval, s)
  | some bind =>
    if config.bConfigurationValue = 0 then
      (-einval, s)
    else if s.configs.any fun c => c.bConfigurationValue == config.bConfigurationValue then
      (-ebusy, s)
    else
      let w := bind.asks.foldl (ConfigAsk.run fns)
        ⟨{ config with functions := [], interface := [] }, s.ids⟩
      if bind.value < 0 then
        -- the string numbers are not given back
        (bind.value, { s with ids := w.ids })
      else
        (bind.value, ⟨s.configs ++ [w.config], w.ids⟩)

/-- What the driver's `bind` does. -/
inductive DeviceAsk
  | string (a : Ask)
  | addConfig (config : Configuration) (bind : Option ConfigBind)
deriving DecidableEq

/-- The device after a request of the driver. -/
def DeviceAsk.run (s : Cdev) : DeviceAsk → Cdev
  | .string a => { s with ids := a.run s.ids }
  | .addConfig config bind => (usbAddConfig fns config bind s).2

/-- The device after a run of the driver's `bind`. -/
def build (l : List DeviceAsk) : Cdev := l.foldl (DeviceAsk.run fns) .init

/-! ## String numbers -/

/-- `n` numbers, if there are as many. -/
def StringIds.take (s : StringIds) (n : ℕ) : StringIds :=
  if s.next + n ≤ 254 then ⟨s.next + n, s.granted ++ List.range' (s.next + 1) n⟩ else s

theorem usbStringId_eq (s : StringIds) : (usbStringId s).2 = s.take 1 := by
  rw [usbStringId, StringIds.take]
  by_cases hnext : s.next < 254
  · rw [if_pos hnext, if_pos (by omega)]
    rfl
  · rw [if_neg hnext, if_neg (by omega)]

theorem stringIdsLoop_eq (next n : ℕ) (hn : next + n ≤ 254) :
    stringIdsLoop next n = (List.range' (next + 1) n, some (next + n)) := by
  induction n generalizing next with
  | zero => rfl
  | succ n ih =>
    have hlast : next + 1 + n = next + (n + 1) := by omega
    rw [stringIdsLoop, if_neg (by omega), ih (next + 1) (by omega), List.range'_succ, hlast]

theorem stringIdsLoop_none (next n : ℕ) (hnext : next ≤ 254) (hn : 254 < next + n) :
    (stringIdsLoop next n).2 = none := by
  induction n generalizing next with
  | zero => omega
  | succ n ih =>
    rw [stringIdsLoop]
    split_ifs with hfull
    · rfl
    · exact ih (next + 1) (by omega) (by omega)

theorem usbStringIdsTab_eq (s : StringIds) (n : ℕ) (hs : s.next ≤ 254) :
    (usbStringIdsTab s n).2 = s.take n := by
  rw [usbStringIdsTab, StringIds.take]
  by_cases hn : s.next + n ≤ 254
  · rw [stringIdsLoop_eq s.next n hn, if_pos hn]
  · have hnone := stringIdsLoop_none s.next n hs (by omega)
    rw [if_neg hn]
    cases hloop : stringIdsLoop s.next n with
    | mk ids last =>
      rw [hloop] at hnone
      obtain rfl : last = none := hnone
      rfl

theorem usbStringIdsN_eq (s : StringIds) (n : ℕ) : (usbStringIdsN s n).2 = s.take n := by
  rw [usbStringIdsN, StringIds.take]
  by_cases hn : s.next + n ≤ 254
  · rw [if_neg (by omega), if_pos hn]
  · rw [if_pos (by omega), if_neg hn]

/-- The numbers handed out are those from 1 to `next`, in order. -/
structure StringIds.Exact (s : StringIds) : Prop where
  le : s.next ≤ 254
  granted : s.granted = List.range' 1 s.next

theorem StringIds.Exact.take {s : StringIds} (hs : s.Exact) (n : ℕ) : (s.take n).Exact := by
  rw [StringIds.take]
  split_ifs with hn
  · refine ⟨hn, ?_⟩
    rw [hs.granted, Nat.add_comm s.next 1, List.range'_append_1]
  · exact hs

theorem StringIds.Exact.ask {s : StringIds} (hs : s.Exact) (a : Ask) : (a.run s).Exact := by
  cases a with
  | stringId =>
    rw [Ask.run, usbStringId_eq]
    exact hs.take 1
  | stringIdsTab n =>
    rw [Ask.run, usbStringIdsTab_eq s n hs.le]
    exact hs.take n
  | stringIdsN n =>
    rw [Ask.run, usbStringIdsN_eq]
    exact hs.take n

/-! ## Interfaces -/

/-- A function that `usb_add_function` takes. -/
def UsbFunction.Usable (f : UsbFunction) : Prop := f.setAlt = true ∧ f.disable = true

/-- What holds of every configuration, whatever its callbacks do. -/
structure Configuration.Sound (c : Configuration) : Prop where
  length : c.interface.length ≤ maxConfigInterfaces
  usable : ∀ f, f ∈ c.functions ∨ f ∈ c.interface → (fns f).Usable

/-- Every interface belongs to a function of the configuration. -/
def Configuration.Owned (c : Configuration) : Prop := ∀ f ∈ c.interface, f ∈ c.functions

variable {fns}

theorem usbInterfaceId_cases (c : Configuration) (f : ℕ) :
    (usbInterfaceId c f).2 = c ∨ c.interface.length < maxConfigInterfaces ∧
      (usbInterfaceId c f).2 = { c with interface := c.interface ++ [f] } := by
  rw [usbInterfaceId]
  split_ifs with hlen
  · exact .inr ⟨hlen, rfl⟩
  · exact .inl rfl

theorem Configuration.Sound.interfaceId {c : Configuration} {f : ℕ} (hc : c.Sound fns)
    (hf : f ∈ c.functions) : ((usbInterfaceId c f).2).Sound fns := by
  obtain heq | ⟨hlen, heq⟩ := usbInterfaceId_cases c f
  · rw [heq]
    exact hc
  · rw [heq]
    refine ⟨?_, fun f' hf' => ?_⟩
    · change (c.interface ++ [f]).length ≤ _
      rw [List.length_append, List.length_singleton]
      omega
    · change f' ∈ c.functions ∨ f' ∈ c.interface ++ [f] at hf'
      rw [List.mem_append, List.mem_singleton] at hf'
      obtain hf' | hf' | rfl := hf'
      · exact hc.usable f' (.inl hf')
      · exact hc.usable f' (.inr hf')
      · exact hc.usable f' (.inl hf)

theorem Configuration.Owned.interfaceId {c : Configuration} {f : ℕ} (hc : c.Owned)
    (hf : f ∈ c.functions) : (usbInterfaceId c f).2.Owned := by
  obtain heq | ⟨-, heq⟩ := usbInterfaceId_cases c f
  · rw [heq]
    exact hc
  · rw [heq]
    intro f' hf'
    change f' ∈ c.interface ++ [f] at hf'
    rw [List.mem_append, List.mem_singleton] at hf'
    obtain hf' | rfl := hf'
    · exact hc f' hf'
    · exact hf

/-- A configuration that is being bound; `owned` says that no function has failed so far. -/
structure Work.Inv (fns : ℕ → UsbFunction) (v : UInt8) (owned : Prop) (w : Work) : Prop where
  ids : w.ids.Exact
  value : w.config.bConfigurationValue = v
  sound : w.config.Sound fns
  owned : owned → w.config.Owned

variable {owned : Prop} {v : UInt8}

theorem Work.Inv.ask {f : ℕ} (a : FunctionAsk) {w : Work} (hw : w.Inv fns v owned)
    (hf : f ∈ w.config.functions) :
    (a.run f w).Inv fns v owned ∧ (a.run f w).config.functions = w.config.functions := by
  cases a with
  | string a => exact ⟨⟨hw.ids.ask a, hw.value, hw.sound, hw.owned⟩, rfl⟩
  | interfaceId =>
    have hsame : (usbInterfaceId w.config f).2.bConfigurationValue = v ∧
        (usbInterfaceId w.config f).2.functions = w.config.functions := by
      obtain heq | ⟨-, heq⟩ := usbInterfaceId_cases w.config f
      · rw [heq]
        exact ⟨hw.value, rfl⟩
      · rw [heq]
        exact ⟨hw.value, rfl⟩
    exact ⟨⟨hw.ids, hsame.1, hw.sound.interfaceId hf, fun h => (hw.owned h).interfaceId hf⟩,
      hsame.2⟩

theorem Work.Inv.asks {f : ℕ} (l : List FunctionAsk) {w : Work} (hw : w.Inv fns v owned)
    (hf : f ∈ w.config.functions) : (l.foldl (FunctionAsk.run f) w).Inv fns v owned := by
  induction l generalizing w with
  | nil => exact hw
  | cons a l ih =>
    obtain ⟨hinv, hfuns⟩ := hw.ask a hf
    exact ih hinv (by rw [hfuns]; exact hf)

/-- **A function is added.** When its `bind` fails, its interfaces may stay behind. -/
theorem Work.Inv.addFunction (f : ℕ) (bind : FunctionBind) {w : Work} (hw : w.Inv fns v owned) :
    (usbAddFunction fns f bind w).2.Inv fns v (owned ∧ 0 ≤ bind.value) := by
  rw [usbAddFunction]
  split_ifs with hcheck
  · exact ⟨hw.ids, hw.value, hw.sound, fun h => hw.owned h.1⟩
  · have husable : (fns f).Usable := by
      simpa [UsbFunction.Usable] using hcheck
    have hlisted : Work.Inv fns v owned { w with config := { w.config with
        functions := w.config.functions ++ [f] } } := by
      refine ⟨hw.ids, hw.value, ⟨hw.sound.length, fun f' hf' => ?_⟩, fun h f' hf' => ?_⟩
      · dsimp only at hf'
        rw [List.mem_append, List.mem_singleton] at hf'
        obtain (hf' | rfl) | hf' := hf'
        · exact hw.sound.usable f' (.inl hf')
        · exact husable
        · exact hw.sound.usable f' (.inr hf')
      · exact List.mem_append_left _ (hw.owned h f' hf')
    have hasks := hlisted.asks bind.asks (f := f) (by simp)
    suffices hbind : (bindFunction fns f bind { w with config := { w.config with
        functions := w.config.functions ++ [f] } }).2.Inv fns v (owned ∧ 0 ≤ bind.value) from
      ⟨hbind.ids, hbind.value, ⟨hbind.sound.length, hbind.sound.usable⟩, hbind.owned⟩
    rw [bindFunction]
    split_ifs with hb hv
    · refine ⟨hasks.ids, hasks.value, ⟨hasks.sound.length, fun f' hf' => ?_⟩, fun h => ?_⟩
      · obtain hf' | hf' := hf'
        · exact hasks.sound.usable f' (.inl (List.mem_of_mem_erase hf'))
        · exact hasks.sound.usable f' (.inr hf')
      · omega
    · exact ⟨hasks.ids, hasks.value, hasks.sound, fun h => hasks.owned h.1⟩
    · exact ⟨hlisted.ids, hlisted.value, hlisted.sound, fun h => hlisted.owned h.1⟩

/-- A callback of a configuration in which no function fails. -/
def ConfigAsk.Passes : ConfigAsk → Prop
  | .string _ => True
  | .addFunction _ bind => 0 ≤ bind.value

theorem Work.Inv.configAsks (l : List ConfigAsk) {w : Work} (hw : w.Inv fns v owned) :
    (l.foldl (ConfigAsk.run fns) w).Inv fns v (owned ∧ ∀ a ∈ l, a.Passes) := by
  induction l generalizing w owned with
  | nil => exact ⟨hw.ids, hw.value, hw.sound, fun h => hw.owned h.1⟩
  | cons a l ih =>
    have hstep : (a.run fns w).Inv fns v (owned ∧ a.Passes) := by
      cases a with
      | string a => exact ⟨hw.ids.ask a, hw.value, hw.sound, fun h => hw.owned h.1⟩
      | addFunction f bind => exact hw.addFunction f bind
    obtain ⟨hids, hvalue, hsound, howned⟩ := ih hstep
    refine ⟨hids, hvalue, hsound, fun h => howned ⟨⟨h.1, ?_⟩, fun b hb => ?_⟩⟩
    · exact h.2 a List.mem_cons_self
    · exact h.2 b (List.mem_cons_of_mem a hb)

/-- A configuration whose `bind` succeeds had no function that failed. -/
def DeviceAsk.PassesOn : DeviceAsk → Prop
  | .string _ => True
  | .addConfig _ none => True
  | .addConfig _ (some bind) => 0 ≤ bind.value → ∀ a ∈ bind.asks, a.Passes

instance instDecidablePasses : ∀ a : ConfigAsk, Decidable a.Passes
  | .string _ => isTrue trivial
  | .addFunction _ bind => inferInstanceAs (Decidable (0 ≤ bind.value))

instance instDecidablePassesOn : ∀ a : DeviceAsk, Decidable a.PassesOn
  | .string _ => isTrue trivial
  | .addConfig _ none => isTrue trivial
  | .addConfig _ (some bind) =>
    inferInstanceAs (Decidable (0 ≤ bind.value → ∀ a ∈ bind.asks, a.Passes))

/-- What holds of every device, whatever the callbacks do. -/
structure Cdev.Inv (fns : ℕ → UsbFunction) (owned : Prop) (s : Cdev) : Prop where
  ids : s.ids.Exact
  values : (s.configs.map (·.bConfigurationValue)).Nodup
  nonzero : ∀ c ∈ s.configs, c.bConfigurationValue ≠ 0
  sound : ∀ c ∈ s.configs, c.Sound fns
  owned : owned → ∀ c ∈ s.configs, c.Owned

theorem Cdev.Inv.addConfig (config : Configuration) (bind : Option ConfigBind) {s : Cdev}
    (hs : s.Inv fns owned) :
    (usbAddConfig fns config bind s).2.Inv fns
      (owned ∧ (DeviceAsk.addConfig config bind).PassesOn) := by
  have hkeep : s.Inv fns (owned ∧ (DeviceAsk.addConfig config bind).PassesOn) :=
    ⟨hs.ids, hs.values, hs.nonzero, hs.sound, fun h => hs.owned h.1⟩
  cases bind with
  | none => exact hkeep
  | some bind =>
    have hstart : Work.Inv fns config.bConfigurationValue True
        ⟨{ config with functions := [], interface := [] }, s.ids⟩ :=
      ⟨hs.ids, rfl, ⟨Nat.zero_le _, fun f hf => by simp at hf⟩, fun _ f hf => by simp at hf⟩
    have hw := hstart.configAsks bind.asks
    rw [usbAddConfig]
    dsimp only
    split_ifs with hzero hdup hfail
    · exact hkeep
    · exact hkeep
    · exact ⟨hw.ids, hs.values, hs.nonzero, hs.sound, fun h => hs.owned h.1⟩
    · generalize bind.asks.foldl (ConfigAsk.run fns)
        ⟨{ config with functions := [], interface := [] }, s.ids⟩ = w at hw
      have hfresh : w.config.bConfigurationValue ∉ s.configs.map (·.bConfigurationValue) := by
        rw [hw.value]
        intro hmem
        obtain ⟨c, hc, heq⟩ := List.mem_map.mp hmem
        exact hdup (List.any_eq_true.mpr ⟨c, hc, beq_iff_eq.mpr heq⟩)
      refine ⟨hw.ids, ?_, fun c hc => ?_, fun c hc => ?_, fun h c hc => ?_⟩
      · rw [List.map_append]
        exact hs.values.append (List.nodup_singleton _) (List.disjoint_singleton.mpr hfresh)
      all_goals
        dsimp only at hc
        rw [List.mem_append, List.mem_singleton] at hc
        obtain hc | rfl := hc
      · exact hs.nonzero c hc
      · rw [hw.value]
        exact hzero
      · exact hs.sound c hc
      · exact hw.sound
      · exact hs.owned h.1 c hc
      · exact hw.owned ⟨trivial, h.2 (by omega)⟩

theorem Cdev.Inv.deviceAsks (l : List DeviceAsk) {s : Cdev} (hs : s.Inv fns owned) :
    (l.foldl (DeviceAsk.run fns) s).Inv fns (owned ∧ ∀ a ∈ l, a.PassesOn) := by
  induction l generalizing s owned with
  | nil => exact ⟨hs.ids, hs.values, hs.nonzero, hs.sound, fun h => hs.owned h.1⟩
  | cons a l ih =>
    have hstep : (a.run fns s).Inv fns (owned ∧ a.PassesOn) := by
      cases a with
      | string a => exact ⟨hs.ids.ask a, hs.values, hs.nonzero, hs.sound, fun h => hs.owned h.1⟩
      | addConfig config bind => exact hs.addConfig config bind
    obtain ⟨hids, hvalues, hnonzero, hsound, howned⟩ := ih hstep
    refine ⟨hids, hvalues, hnonzero, hsound, fun h => howned ⟨⟨h.1, ?_⟩, fun b hb => ?_⟩⟩
    · exact h.2 a List.mem_cons_self
    · exact h.2 b (List.mem_cons_of_mem a hb)

theorem build_inv (fns : ℕ → UsbFunction) (l : List DeviceAsk) :
    (build fns l).Inv fns (∀ a ∈ l, a.PassesOn) := by
  have hinit : Cdev.Inv fns True .init :=
    ⟨⟨Nat.zero_le _, rfl⟩, List.nodup_nil, nofun, nofun, fun _ => nofun⟩
  obtain ⟨hids, hvalues, hnonzero, hsound, howned⟩ := hinit.deviceAsks l
  exact ⟨hids, hvalues, hnonzero, hsound, fun h => howned ⟨trivial, h⟩⟩

/-- **A device that was built.** Whatever the callbacks ask for and return: string numbers are
handed out once and in order, none above 254; the values of the configurations differ and are not
zero; every interface table is in bounds and leads to functions with `set_alt` and `disable`. When
no configuration covers up for a function that failed, every interface belongs to one of its
functions. -/
theorem built (fns : ℕ → UsbFunction) (l : List DeviceAsk) :
    let s := build fns l
    s.ids.granted = List.range' 1 s.ids.next ∧ s.ids.next ≤ 254 ∧
      (s.configs.map (·.bConfigurationValue)).Nodup ∧
      (∀ c ∈ s.configs, c.bConfigurationValue ≠ 0 ∧ c.interface.length ≤ maxConfigInterfaces ∧
        ∀ f, f ∈ c.functions ∨ f ∈ c.interface → (fns f).Usable) ∧
      ((∀ a ∈ l, a.PassesOn) → ∀ c ∈ s.configs, ∀ f ∈ c.interface, f ∈ c.functions) := by
  intro s
  have hs := build_inv fns l
  refine ⟨hs.ids.granted, hs.ids.le, hs.values, fun c hc => ?_, hs.owned⟩
  exact ⟨hs.nonzero c hc, (hs.sound c hc).length, (hs.sound c hc).usable⟩

/-- A function with all callbacks and no descriptors. -/
def plainFunction : UsbFunction := ⟨[], none, none, true, true, false, true, false, false, false⟩

/-- A configuration with the value 1. -/
def plainConfig : Configuration := ⟨1, 0, 0, 0, none, [], false, [], [], false, false⟩

-- a configuration that covers up for a function keeps an interface of nobody
example : (build (fun _ => plainFunction) [.addConfig plainConfig
    (some ⟨[.addFunction 7 ⟨[.interfaceId], -enodev⟩], 0⟩)]).configs.map
      (fun c => (c.functions, c.interface)) = [([], [7])] := by
  decide

end LddExample.Composite
