import LddExample.Composite.Model
import Mathlib.Data.Fintype.Card
import Mathlib.Data.List.GetD

/-!
# Configuration descriptors

The host learns from the device descriptor, or from the device qualifier, how many configurations
there are, and asks for the descriptor of each by its index. A configuration that has no function
for the speed in question is left out of both. A reply is the header of the configuration and the
descriptors of its functions behind it, in a buffer of 1024 bytes.

* `configBuf`, `configDesc`, `countConfigs`: the functions of the framework.
* `parse`: a host that walks the reply by the length bytes.
* `Configuration.all`: the descriptors of a configuration at a speed.
* `parse_concat`: descriptors behind each other are found again.
* **`configs_enumerated`**: the indices below the number of configurations, and only these, are
  those of the configurations for the speed; a reply fails exactly when it does not fit; else the
  host finds its length in the header, and the header and all descriptors in their order.
-/

namespace LddExample.Composite

/-- `enum usb_device_speed` -/
inductive Speed
  | unknown
  | low
  | full
  | high
deriving DecidableEq

/-- `struct usb_gadget`: the speeds it can have, and the one it has -/
structure Gadget where
  dualspeed : Bool
  otg : Bool
  speed : Speed
deriving DecidableEq

/-- `USB_BUFSIZ` -/
def usbBufsiz : ℕ := 1024

/-- `USB_DT_CONFIG_SIZE` -/
def usbDtConfigSize : ℕ := 9

/-- `USB_DT_DEVICE` -/
def usbDtDevice : UInt8 := 0x01

/-- `USB_DT_CONFIG` -/
def usbDtConfig : UInt8 := 0x02

/-- `USB_DT_DEVICE_QUALIFIER` -/
def usbDtDeviceQualifier : UInt8 := 0x06

/-- `USB_DT_OTHER_SPEED_CONFIG` -/
def usbDtOtherSpeedConfig : UInt8 := 0x07

/-! ## `config.c` and `composite.c` -/

/-- The loop of `usb_descriptor_fillbuf` -/
def usbDescriptorFillbuf : ℕ → List Descriptor → Except ℤ (List UInt8)
  | _, [] => .ok []
  | buflen, d :: src =>
    if buflen < d.bytes.length then
      .error (-einval)
    else
      (usbDescriptorFillbuf (buflen - d.bytes.length) src).map (d.bytes ++ ·)

variable (fns : ℕ → UsbFunction)

/-- The descriptors of a function for a speed. -/
def speedDescriptors (high : Bool) (f : ℕ) : Option (List Descriptor) :=
  if high then (fns f).hsDescriptors else (fns f).descriptors

/-- `list_for_each_entry(f, &config->functions, list)` of `config_buf` -/
def functionsBuf (high : Bool) : ℕ → List ℕ → Except ℤ (List UInt8)
  | _, [] => .ok []
  | len, f :: fs =>
    match speedDescriptors fns high f with
    | none => functionsBuf high len fs
    | some ds => (usbDescriptorFillbuf len ds).bind fun b =>
      (functionsBuf high (len - b.length) fs).map (b ++ ·)

/-- The header of a configuration of `total` bytes; `vbusDraw` is `CONFIG_USB_GADGET_VBUS_DRAW`. -/
def configHeader (vbusDraw : ℕ) (config : Configuration) (type : UInt8) (total : ℕ) : List UInt8 :=
  [9, type, UInt8.ofNat total, UInt8.ofNat (total / 256), UInt8.ofNat config.interface.length,
    config.bConfigurationValue, config.iConfiguration, 0x80 ||| config.bmAttributes,
    if config.bMaxPower ≠ 0 then config.bMaxPower else UInt8.ofNat (vbusDraw / 2)]

/-- The bytes of `buf` up to the result of `config_buf`. -/
def configBuf (vbusDraw : ℕ) (config : Configuration) (high : Bool) (type : UInt8) :
    Except ℤ (List UInt8) :=
  let len := usbBufsiz - usbDtConfigSize
  let otg : Except ℤ (List UInt8) := match config.descriptors with
    | none => .ok []
    | some ds => usbDescriptorFillbuf len ds
  otg.bind fun b => (functionsBuf fns high (len - b.length) config.functions).map fun b' =>
    configHeader vbusDraw config type (usbDtConfigSize + (b ++ b').length) ++ (b ++ b')

/-- The speed whose configurations are asked for: the other one, or the current one. -/
def Gadget.hs (g : Gadget) (other : Bool) : Bool :=
  g.dualspeed && ((g.speed == .high) ^^ other)

/-- A configuration that works at the speed. -/
def Configuration.works (high : Bool) (c : Configuration) : Bool :=
  if high then c.highspeed else c.fullspeed

/-- `list_for_each_entry(c, &cdev->configs, list)` of `config_desc` -/
def configAt (high : Bool) : ℕ → List Configuration → Option Configuration
  | _, [] => none
  | wValue, c :: cs =>
    if !c.works high then configAt high wValue cs
    else if wValue = 0 then some c
    else configAt high (wValue - 1) cs

/-- `config_desc` -/
def configDesc (vbusDraw : ℕ) (g : Gadget) (configs : List Configuration) (wValue : UInt16) :
    Except ℤ (List UInt8) :=
  let type := (wValue >>> 8).toUInt8
  let high := g.hs (type == usbDtOtherSpeedConfig)
  match configAt high (wValue &&& 0xff).toNat configs with
  | some c => configBuf fns vbusDraw c high type
  | none => .error (-einval)

/-- `count_configs` -/
def countConfigs (g : Gadget) (configs : List Configuration) (type : UInt8) : ℕ :=
  let high := g.hs (type == usbDtDeviceQualifier)
  configs.foldl (fun count c => if c.works high then count + 1 else count) 0

/-! ## Filling the buffer -/

/-- The bytes of descriptors behind each other. -/
def concat (ds : List Descriptor) : List UInt8 := ds.flatMap (·.bytes)

theorem usbDescriptorFillbuf_eq (buflen : ℕ) (ds : List Descriptor) :
    usbDescriptorFillbuf buflen ds =
      if (concat ds).length ≤ buflen then .ok (concat ds) else .error (-einval) := by
  induction ds generalizing buflen with
  | nil => rfl
  | cons d ds ih =>
    have hlen : (concat (d :: ds)).length = d.bytes.length + (concat ds).length := by
      simp [concat]
    rw [usbDescriptorFillbuf, hlen]
    by_cases hd : buflen < d.bytes.length
    · rw [if_pos hd, if_neg (by omega)]
    · rw [if_neg hd, ih]
      by_cases hfit : (concat ds).length ≤ buflen - d.bytes.length
      · rw [if_pos hfit, if_pos (by omega)]
        rfl
      · rw [if_neg hfit, if_neg (by omega)]
        rfl

/-- The descriptors of functions for a speed. -/
def functionsAll (high : Bool) (fs : List ℕ) : List Descriptor :=
  fs.flatMap fun f => (speedDescriptors fns high f).getD []

theorem functionsBuf_eq (high : Bool) (len : ℕ) (fs : List ℕ) :
    functionsBuf fns high len fs =
      if (concat (functionsAll fns high fs)).length ≤ len then
        .ok (concat (functionsAll fns high fs))
      else .error (-einval) := by
  induction fs generalizing len with
  | nil => rfl
  | cons f fs ih =>
    have hall : concat (functionsAll fns high (f :: fs)) =
        concat ((speedDescriptors fns high f).getD []) ++ concat (functionsAll fns high fs) := by
      simp [concat, functionsAll]
    rw [functionsBuf, hall]
    cases speedDescriptors fns high f with
    | none => exact ih len
    | some ds =>
      rw [Option.getD_some, List.length_append]
      dsimp only
      rw [usbDescriptorFillbuf_eq]
      by_cases hds : (concat ds).length ≤ len
      · rw [if_pos hds]
        change (functionsBuf fns high (len - (concat ds).length) fs).map _ = _
        rw [ih]
        by_cases hfs : (concat (functionsAll fns high fs)).length ≤ len - (concat ds).length
        · rw [if_pos hfs, if_pos (by omega)]
          rfl
        · rw [if_neg hfs, if_neg (by omega)]
          rfl
      · rw [if_neg hds, if_neg (by omega)]
        rfl

/-- All descriptors of a configuration at a speed. -/
def Configuration.all (high : Bool) (c : Configuration) : List Descriptor :=
  c.descriptors.getD [] ++ functionsAll fns high c.functions

/-- **A configuration is sent whole or not at all.** -/
theorem configBuf_eq (vbusDraw : ℕ) (c : Configuration) (high : Bool) (type : UInt8) :
    configBuf fns vbusDraw c high type =
      if usbDtConfigSize + (concat (c.all fns high)).length ≤ usbBufsiz then
        .ok (configHeader vbusDraw c type (usbDtConfigSize + (concat (c.all fns high)).length) ++
          concat (c.all fns high))
      else .error (-einval) := by
  have hall : concat (c.all fns high) =
      concat (c.descriptors.getD []) ++ concat (functionsAll fns high c.functions) := by
    simp [concat, Configuration.all]
  have hotg : (match c.descriptors with
      | none => .ok []
      | some ds => usbDescriptorFillbuf (usbBufsiz - usbDtConfigSize) ds : Except ℤ (List UInt8)) =
        usbDescriptorFillbuf (usbBufsiz - usbDtConfigSize) (c.descriptors.getD []) := by
    cases c.descriptors with
    | none => rfl
    | some ds => rfl
  have hsizes : usbDtConfigSize = 9 ∧ usbBufsiz = 1024 := ⟨rfl, rfl⟩
  dsimp only [configBuf]
  rw [hotg, usbDescriptorFillbuf_eq, hall, List.length_append]
  by_cases hds : (concat (c.descriptors.getD [])).length ≤ usbBufsiz - usbDtConfigSize
  · rw [if_pos hds]
    change (functionsBuf fns high _ c.functions).map _ = _
    rw [functionsBuf_eq]
    by_cases hfs : (concat (functionsAll fns high c.functions)).length ≤
        usbBufsiz - usbDtConfigSize - (concat (c.descriptors.getD [])).length
    · rw [if_pos hfs, if_pos (by omega), ← List.length_append]
      rfl
    · rw [if_neg hfs, if_neg (by omega)]
      rfl
  · rw [if_neg hds, if_neg (by omega)]
    rfl

/-! ## A host -/

/-- A host that walks a reply by the length bytes, at most `n` descriptors. -/
def parse : ℕ → List UInt8 → Option (List (List UInt8))
  | _, [] => some []
  | 0, _ :: _ => none
  | n + 1, b :: bs =>
    if b < 2 ∨ (b :: bs).length < b.toNat then
      none
    else
      (parse n ((b :: bs).drop b.toNat)).map ((b :: bs).take b.toNat :: ·)

theorem parse_cons (d : Descriptor) (n : ℕ) (rest : List UInt8) :
    parse (n + 1) (d.bytes ++ rest) = (parse n rest).map (d.bytes :: ·) := by
  obtain ⟨bytes, hlen, hheader⟩ := d
  cases bytes with
  | nil => simp at hheader
  | cons b bs =>
    rw [List.getD_cons_zero] at hlen
    have htwo : ¬(b < 2 ∨ (b :: bs ++ rest).length < b.toNat) := by
      rw [List.length_append, ← hlen, UInt8.lt_iff_toNat_lt]
      change ¬(b.toNat < 2 ∨ _)
      omega
    dsimp only
    rw [List.cons_append, parse, ← List.cons_append, if_neg htwo, hlen, List.drop_left,
      List.take_left]

/-- **Descriptors behind each other are found again.** -/
theorem parse_concat (ds : List Descriptor) (n : ℕ) (hn : ds.length ≤ n) :
    parse n (concat ds) = some (ds.map (·.bytes)) := by
  induction ds generalizing n with
  | nil => cases n <;> rfl
  | cons d ds ih =>
    obtain ⟨n, rfl⟩ : ∃ m, n = m + 1 := ⟨n - 1, by rw [List.length_cons] at hn; omega⟩
    rw [List.length_cons] at hn
    have hconcat : concat (d :: ds) = d.bytes ++ concat ds := rfl
    rw [hconcat, parse_cons, ih n (by omega)]
    rfl

theorem configAt_eq (high : Bool) (i : ℕ) (configs : List Configuration) :
    configAt high i configs = (configs.filter (Configuration.works high))[i]? := by
  induction configs generalizing i with
  | nil => rfl
  | cons c cs ih =>
    rw [configAt]
    cases hc : c.works high with
    | false => rw [List.filter_cons_of_neg (by simp [hc]), if_pos (by simp), ih]
    | true =>
      rw [List.filter_cons_of_pos hc, if_neg (by simp)]
      cases i with
      | zero => rfl
      | succ i => exact ih i

theorem countConfigs_eq (g : Gadget) (configs : List Configuration) (type : UInt8) :
    countConfigs g configs type =
      (configs.filter (Configuration.works (g.hs (type == usbDtDeviceQualifier)))).length := by
  have hfold : ∀ (high : Bool) (count : ℕ), configs.foldl
      (fun count c => if c.works high then count + 1 else count) count =
        count + (configs.filter (Configuration.works high)).length := by
    intro high
    induction configs with
    | nil => exact fun count => rfl
    | cons c cs ih =>
      intro count
      rw [List.foldl_cons, ih]
      cases hc : c.works high with
      | false => rw [List.filter_cons_of_neg (by simp [hc]), if_neg (by simp)]
      | true =>
        rw [List.filter_cons_of_pos hc, if_pos rfl, List.length_cons]
        omega
  rw [countConfigs, hfold, Nat.zero_add]

/-- `wValue` of the request for the descriptor of configuration `i`. -/
def configRequest (other : Bool) (i : ℕ) : UInt16 :=
  UInt16.ofNat ((if other then usbDtOtherSpeedConfig else usbDtConfig).toNat * 256 + i)

theorem configRequest_bytes (other : Bool) {i : ℕ} (hi : i < 256) :
    (configRequest other i >>> 8).toUInt8 =
        (if other then usbDtOtherSpeedConfig else usbDtConfig) ∧
      (configRequest other i &&& 0xff).toNat = i := by
  have hall : ∀ (other : Bool) (i : Fin 256), (configRequest other i >>> 8).toUInt8 =
      (if other then usbDtOtherSpeedConfig else usbDtConfig) ∧
        (configRequest other i &&& 0xff).toNat = i := by
    decide +kernel
  exact hall other ⟨i, hi⟩

/-- The header is a descriptor. -/
def headerDescriptor (vbusDraw : ℕ) (c : Configuration) (type : UInt8) (total : ℕ) : Descriptor :=
  ⟨configHeader vbusDraw c type total, rfl, by simp [configHeader]⟩

/-- What the host finds in the reply for a configuration. -/
structure Sent (vbusDraw : ℕ) (high : Bool) (type : UInt8) (c : Configuration)
    (reply : List UInt8) : Prop where
  length : reply.length ≤ usbBufsiz
  total : (reply.getD 2 0).toNat + 256 * (reply.getD 3 0).toNat = reply.length
  interfaces : (reply.getD 4 0).toNat = c.interface.length
  value : reply.getD 5 0 = c.bConfigurationValue
  descriptors : parse reply.length reply =
    some (configHeader vbusDraw c type reply.length :: (c.all fns high).map (·.bytes))

variable {fns}

theorem length_le_concat (ds : List Descriptor) : ds.length ≤ (concat ds).length := by
  induction ds with
  | nil => exact le_rfl
  | cons d ds ih =>
    have hconcat : concat (d :: ds) = d.bytes ++ concat ds := rfl
    have hheader := d.header
    rw [hconcat, List.length_append, List.length_cons]
    omega

theorem configBuf_sent {vbusDraw : ℕ} {c : Configuration} (hc : c.Sound fns) {high : Bool}
    {type : UInt8} {reply : List UInt8} (h : configBuf fns vbusDraw c high type = .ok reply) :
    Sent fns vbusDraw high type c reply := by
  rw [configBuf_eq] at h
  split_ifs at h with hfit
  cases h
  have hlen : (configHeader vbusDraw c type (usbDtConfigSize + (concat (c.all fns high)).length) ++
      concat (c.all fns high)).length = usbDtConfigSize + (concat (c.all fns high)).length := by
    rw [List.length_append]
    rfl
  have hsmall : usbDtConfigSize + (concat (c.all fns high)).length < 65536 :=
    lt_of_le_of_lt hfit (by decide)
  refine ⟨by rwa [hlen], ?_, ?_, rfl, ?_⟩
  · rw [hlen]
    change (UInt8.ofNat _).toNat + 256 * (UInt8.ofNat (_ / 256)).toNat = _
    rw [UInt8.toNat_ofNat', UInt8.toNat_ofNat']
    omega
  · change (UInt8.ofNat c.interface.length).toNat = _
    have hle : c.interface.length ≤ 16 := hc.length
    rw [UInt8.toNat_ofNat']
    omega
  · rw [hlen]
    have hparse := parse_concat (headerDescriptor vbusDraw c type
      (usbDtConfigSize + (concat (c.all fns high)).length) :: c.all fns high)
      (usbDtConfigSize + (concat (c.all fns high)).length) (by
        have hle := length_le_concat (c.all fns high)
        rw [List.length_cons, show usbDtConfigSize = 9 from rfl]
        omega)
    exact hparse

/-- At most 255 configurations, since their values differ and are not zero. -/
theorem Cdev.Inv.configs_length {owned : Prop} {s : Cdev} (hs : s.Inv fns owned) :
    s.configs.length < 256 := by
  have hnodup : ((0 :: s.configs.map (·.bConfigurationValue)).map UInt8.toFin).Nodup := by
    refine List.Nodup.map (fun a b hab => UInt8.toFin_inj.mp hab) ?_
    refine List.nodup_cons.mpr ⟨fun hzero => ?_, hs.values⟩
    obtain ⟨c, hc, heq⟩ := List.mem_map.mp hzero
    exact hs.nonzero c hc heq
  have hcard := hnodup.length_le_card
  rw [List.length_map, List.length_cons, List.length_map, Fintype.card_fin] at hcard
  exact hcard

/-- **Configurations are enumerated.** At the current or at the other speed, the number the host is
told is that of the configurations for the speed, and they have the indices below it in their
order. The descriptor of an index is sent exactly when there is such a configuration and it fits
into the buffer; then the host finds the length, the number of interfaces and the value in the
header, and behind it all descriptors of the configuration for that speed. -/
theorem configs_enumerated (fns : ℕ → UsbFunction) (l : List DeviceAsk) (vbusDraw : ℕ) (g : Gadget)
    (other : Bool) :
    let high := g.hs other
    let type := if other then usbDtOtherSpeedConfig else usbDtConfig
    let configs := (build fns l).configs.filter (Configuration.works high)
    let desc := fun i => configDesc fns vbusDraw g (build fns l).configs (configRequest other i)
    countConfigs g (build fns l).configs (if other then usbDtDeviceQualifier else usbDtDevice) =
        configs.length ∧ configs.length < 256 ∧
      (∀ i, i < 256 → ((∃ reply, desc i = .ok reply) ↔ ∃ c, configs[i]? = some c ∧
        usbDtConfigSize + (concat (c.all fns high)).length ≤ usbBufsiz)) ∧
      ∀ i c reply, i < 256 → configs[i]? = some c → desc i = .ok reply →
        Sent fns vbusDraw high type c reply := by
  intro high type configs desc
  have hbuilt := build_inv fns l
  have hdesc : ∀ i, i < 256 → desc i = match configs[i]? with
      | some c => configBuf fns vbusDraw c high type
      | none => .error (-einval) := by
    intro i hi
    obtain ⟨htype, hindex⟩ := configRequest_bytes other hi
    have hother : ((configRequest other i >>> 8).toUInt8 == usbDtOtherSpeedConfig) = other := by
      rw [htype]
      cases other <;> rfl
    change configDesc fns vbusDraw g (build fns l).configs (configRequest other i) = _
    rw [configDesc, hother, hindex, htype, configAt_eq]
  refine ⟨?_, ?_, fun i hi => ?_, fun i c reply hi hc hreply => ?_⟩
  · rw [countConfigs_eq]
    cases other <;> rfl
  · exact lt_of_le_of_lt (List.length_filter_le _ _) hbuilt.configs_length
  · rw [hdesc i hi]
    cases configs[i]? with
    | none => simp
    | some c =>
      dsimp only
      rw [configBuf_eq]
      by_cases hfit : usbDtConfigSize + (concat (c.all fns high)).length ≤ usbBufsiz
      · rw [if_pos hfit]
        exact ⟨fun _ => ⟨c, rfl, hfit⟩, fun _ => ⟨_, rfl⟩⟩
      · rw [if_neg hfit]
        constructor
        · rintro ⟨reply, h⟩
          cases h
        · rintro ⟨c', hc', hfit'⟩
          cases hc'
          exact absurd hfit' hfit
  · rw [hdesc i hi, hc] at hreply
    have hmem : c ∈ (build fns l).configs := List.mem_of_mem_filter (List.mem_of_getElem? hc)
    exact configBuf_sent (hbuilt.sound c hmem) hreply

end LddExample.Composite
