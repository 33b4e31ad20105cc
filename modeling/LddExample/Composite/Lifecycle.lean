import LddExample.Composite.Model

/-!
# The life of a composite device

A driver is registered, its gadget is bound and later unbound. Every allocation and every callback
on the way may fail.

* `ConfigAsk.adds`, `DeviceAsk.adds`, `DeviceAsk.drops`: the functions that `usb_add_function` has
  put into a configuration, and those whose configuration failed afterwards.
* `Framework`: the state of the framework, with a record of what became of the functions.
* `compositeBind`, `compositeUnbind`, `usbCompositeProbe`, `usbCompositeUnregister`,
  `usbRemoveConfig`: the steps; `LifeAct` is one of them.
* `Framework.Balanced`: nothing is lost, except the functions that a failed configuration drops.
* **`lifecycle`**: every run keeps this.
-/

namespace LddExample.Composite

variable (fns : ℕ → UsbFunction)

/-! ## What becomes of a function -/

/-- The functions that a call has put into the configuration. -/
def ConfigAsk.adds : ConfigAsk → List ℕ
  | .string _ => []
  | .addFunction f bind =>
    if (fns f).setAlt && (fns f).disable && (!(fns f).bind || 0 ≤ bind.value) then [f] else []

/-- `usb_add_config` calls the configuration's `bind`. -/
def Cdev.takes (s : Cdev) (config : Configuration) : Bool :=
  config.bConfigurationValue ≠ 0 &&
    !s.configs.any fun c => c.bConfigurationValue == config.bConfigurationValue

/-- The functions that are bound for a request of the driver. -/
def DeviceAsk.adds (s : Cdev) : DeviceAsk → List ℕ
  | .addConfig config (some bind) =>
    if s.takes config then bind.asks.flatMap (ConfigAsk.adds fns) else []
  | _ => []

/-- The functions of a configuration that fails: it is taken off the list, and they are left
without a call of their `unbind`. -/
def DeviceAsk.drops (s : Cdev) : DeviceAsk → List ℕ
  | .addConfig config (some bind) =>
    if s.takes config && bind.value < 0 then bind.asks.flatMap (ConfigAsk.adds fns) else []
  | _ => []

/-! ## The framework -/

/-- What `composite_bind` allocates. -/
inductive Block
  | cdev
  | req
  | buf
deriving DecidableEq

/-- `composite` and the data of the gadget. `added`, `unbound` and `dropped` record what became of
the functions, `cdevs` how often a `cdev` was allocated, `driverUnbinds` how often the driver's
`unbind` was called. -/
structure Framework where
  composite : Option ℕ
  cdev : Option Cdev
  blocks : List Block
  file : Bool
  added : List ℕ
  unbound : List ℕ
  dropped : List ℕ
  cdevs : ℕ
  driverUnbinds : ℕ
deriving DecidableEq

/-- The framework before any driver is registered. -/
def Framework.init : Framework := ⟨none, none, [], false, [], [], [], 0, 0⟩

/-- `ENOMEM` -/
def enomem : ℤ := 12

/-- A step of the driver's `bind` -/
def Framework.ask (s : Framework) (a : DeviceAsk) : Framework :=
  match s.cdev with
  | none => s
  | some cdev =>
    { s with
      cdev := some (a.run fns cdev)
      added := s.added ++ a.adds fns cdev
      dropped := s.dropped ++ a.drops fns cdev }

/-- The functions that `unbind_config` takes out of the list, one after another. -/
def unbindConfig (config : Configuration) : List ℕ := config.functions

/-- The end of `composite_unbind`: `kfree(NULL)` does nothing. -/
def freeBlocks (blocks : List Block) : List Block :=
  let blocks := if .req ∈ blocks then (blocks.erase .buf).erase .req else blocks
  blocks.erase .cdev

/-- The driver's `unbind` is called for a gadget whose `bind` failed, too. -/
def compositeUnbind (s : Framework) : Framework :=
  match s.cdev with
  | none => s
  | some cdev =>
    { s with
      composite := none
      cdev := none
      blocks := freeBlocks s.blocks
      file := false
      unbound := s.unbound ++ cdev.configs.flatMap unbindConfig
      driverUnbinds := s.driverUnbinds + 1 }

/-- What the kernel and the driver answer while a gadget is bound. -/
structure Answers where
  /-- `usb_gadget_probe_driver` calls `composite_bind` -/
  accepted : Bool
  cdev : Bool
  req : Bool
  buf : Bool
  asks : List DeviceAsk
  value : ℤ
  createFile : ℤ
deriving DecidableEq

/-- `composite_bind` without the overrides of the device descriptor -/
def compositeBind (p : Answers) (s : Framework) : ℤ × Framework :=
  if !p.cdev then
    -- `composite` stays set
    (-enomem, s)
  else
    let s := { s with cdev := some .init, blocks := s.blocks ++ [.cdev], cdevs := s.cdevs + 1 }
    if !p.req then (-enomem, compositeUnbind s)
    else
      let s := { s with blocks := s.blocks ++ [.req] }
      if !p.buf then (-enomem, compositeUnbind s)
      else
        let s := { s with blocks := s.blocks ++ [.buf] }
        let s := p.asks.foldl (Framework.ask fns) s
        if p.value < 0 then (p.value, compositeUnbind s)
        else if p.createFile ≠ 0 then (p.createFile, compositeUnbind s)
        else (0, { s with file := true })

/-- `valid`: neither the driver nor its descriptor nor `bind` is `NULL`. -/
def usbCompositeProbe (driver : ℕ) (valid : Bool) (p : Answers) (s : Framework) : ℤ × Framework :=
  if !valid || s.composite.isSome then
    (-einval, s)
  else
    let s := { s with composite := some driver }
    if p.accepted then compositeBind fns p s else (-enodev, s)

/-- The controller unbinds the gadget that is bound. -/
def usbCompositeUnregister (driver : ℕ) (s : Framework) : Framework :=
  if s.composite ≠ some driver then s else compositeUnbind s

/-- `usb_remove_config(cdev, config)` for the configuration with the value `v` -/
def usbRemoveConfig (v : UInt8) (s : Framework) : Framework :=
  match s.cdev with
  | none => s
  | some cdev =>
    match cdev.configs.find? fun c => c.bConfigurationValue == v with
    | none => s
    | some config =>
      { s with
        cdev := some { cdev with configs := cdev.configs.erase config }
        unbound := s.unbound ++ unbindConfig config }

/-- What drivers and the controller do to the framework. -/
inductive LifeAct
  | probe (driver : ℕ) (valid : Bool) (p : Answers)
  | unregister (driver : ℕ)
  | removeConfig (v : UInt8)
deriving DecidableEq

/-- The framework after an action. -/
def LifeAct.run (s : Framework) : LifeAct → Framework
  | .probe driver valid p => (usbCompositeProbe fns driver valid p s).2
  | .unregister driver => usbCompositeUnregister driver s
  | .removeConfig v => usbRemoveConfig v s

/-! ## Functions of a configuration -/

variable {fns}

theorem FunctionAsk.functions_foldl {f : ℕ} (l : List FunctionAsk) (w : Work) :
    (l.foldl (FunctionAsk.run f) w).config.functions = w.config.functions := by
  induction l generalizing w with
  | nil => rfl
  | cons a l ih =>
    rw [List.foldl_cons, ih]
    cases a with
    | string a => rfl
    | interfaceId =>
      obtain heq | ⟨-, heq⟩ := usbInterfaceId_cases w.config f
      · rw [FunctionAsk.run, heq]
      · rw [FunctionAsk.run, heq]

theorem perm_erase_concat (l : List ℕ) (f : ℕ) : ((l ++ [f]).erase f).Perm l := by
  have hhead : (l ++ [f]).Perm (f :: l) := List.perm_append_singleton f l
  simpa using hhead.erase f

theorem ConfigAsk.functions_run (a : ConfigAsk) (w : Work) :
    (a.run fns w).config.functions.Perm (w.config.functions ++ a.adds fns) := by
  cases a with
  | string a => rw [ConfigAsk.adds, List.append_nil]; exact .refl _
  | addFunction f bind =>
    rw [ConfigAsk.run, ConfigAsk.adds, usbAddFunction]
    cases hset : (fns f).setAlt with
    | false => simp
    | true =>
      cases hdis : (fns f).disable with
      | false => simp
      | true =>
        rw [if_neg (by simp), bindFunction]
        cases hbind : (fns f).bind with
        | false => simp
        | true =>
          rw [if_pos rfl]
          by_cases hvalue : bind.value < 0
          · rw [if_pos hvalue, if_neg (by simpa using hvalue), List.append_nil]
            dsimp only
            rw [FunctionAsk.functions_foldl]
            exact perm_erase_concat _ f
          · rw [if_neg hvalue, if_pos (by simpa using hvalue)]
            dsimp only
            rw [FunctionAsk.functions_foldl]

theorem ConfigAsk.functions_foldl (fns : ℕ → UsbFunction) (l : List ConfigAsk) (w : Work) :
    (l.foldl (ConfigAsk.run fns) w).config.functions.Perm
      (w.config.functions ++ l.flatMap (ConfigAsk.adds fns)) := by
  induction l generalizing w with
  | nil => rw [List.flatMap_nil, List.append_nil]; exact .refl _
  | cons a l ih =>
    rw [List.foldl_cons, List.flatMap_cons, ← List.append_assoc]
    exact (ih _).trans ((a.functions_run w).append_right _)

/-- The functions in the configurations of a device. -/
def Cdev.live (s : Cdev) : List ℕ := s.configs.flatMap unbindConfig

theorem usbAddConfig_eq (config : Configuration) (bind : ConfigBind) (s : Cdev) :
    (usbAddConfig fns config (some bind) s).2 =
      if s.takes config then
        let w := bind.asks.foldl (ConfigAsk.run fns)
          ⟨{ config with functions := [], interface := [] }, s.ids⟩
        if bind.value < 0 then { s with ids := w.ids } else ⟨s.configs ++ [w.config], w.ids⟩
      else s := by
  rw [usbAddConfig, Cdev.takes]
  by_cases hzero : config.bConfigurationValue = 0
  · rw [if_pos hzero, if_neg (by simp [hzero])]
  · rw [if_neg hzero]
    cases hdup : s.configs.any fun c => c.bConfigurationValue == config.bConfigurationValue with
    | true => simp
    | false =>
      have htakes : (decide (config.bConfigurationValue ≠ 0) && !false) = true := by simp [hzero]
      rw [if_neg Bool.false_ne_true, if_pos htakes]
      by_cases hvalue : bind.value < 0
      · rw [if_pos hvalue, if_pos hvalue]
      · rw [if_neg hvalue, if_neg hvalue]

/-- **A step of the driver's `bind`**: each function that it adds is in a configuration or
dropped. -/
theorem DeviceAsk.live_run (a : DeviceAsk) (s : Cdev) :
    (s.live ++ a.adds fns s).Perm ((a.run fns s).live ++ a.drops fns s) := by
  cases a with
  | string a => exact .refl _
  | addConfig config bind =>
    cases bind with
    | none => exact .refl _
    | some bind =>
      rw [DeviceAsk.run, usbAddConfig_eq, DeviceAsk.adds, DeviceAsk.drops]
      cases htakes : s.takes config with
      | false => exact .refl _
      | true =>
        rw [if_pos rfl, if_pos rfl, Bool.true_and]
        by_cases hvalue : bind.value < 0
        · rw [if_pos hvalue, if_pos (by simpa using hvalue)]
          exact .refl _
        · rw [if_neg hvalue, if_neg (by simpa using hvalue), List.append_nil]
          have hfuns := ConfigAsk.functions_foldl fns bind.asks
            ⟨{ config with functions := [], interface := [] }, s.ids⟩
          rw [Cdev.live, Cdev.live, List.flatMap_append, List.flatMap_singleton]
          exact hfuns.symm.append_left _

/-! ## The books -/

/-- The functions in the configurations of the gadget, if there is one. -/
def Framework.live (s : Framework) : List ℕ := s.cdev.elim [] Cdev.live

/-- **The books are right.** What was allocated is there or freed; a function that was added is in a
configuration, was unbound, or was dropped by a configuration that failed. -/
structure Framework.Balanced (s : Framework) : Prop where
  blocks : s.blocks = if s.cdev.isSome then [.cdev, .req, .buf] else []
  file : s.file = s.cdev.isSome
  registered : s.cdev.isSome → s.composite.isSome
  functions : s.added.Perm (s.unbound ++ s.dropped ++ s.live)
  unbinds : s.driverUnbinds + s.cdev.elim 0 (fun _ => 1) = s.cdevs

/-- The books of a gadget that is being bound, with the blocks it has got so far. -/
structure Framework.Bound (blocks : List Block) (s : Framework) : Prop where
  cdev : s.cdev.isSome
  blocks : s.blocks = blocks
  registered : s.composite.isSome
  functions : s.added.Perm (s.unbound ++ s.dropped ++ s.live)
  unbinds : s.driverUnbinds + 1 = s.cdevs

variable {s : Framework} {blocks : List Block}

theorem Framework.Bound.ask (hs : s.Bound blocks) (a : DeviceAsk) :
    (s.ask fns a).Bound blocks := by
  obtain ⟨cdev, hcdev⟩ := Option.isSome_iff_exists.mp hs.cdev
  have hfuns := hs.functions
  rw [Framework.live, hcdev, Option.elim_some] at hfuns
  rw [Framework.ask, hcdev]
  refine ⟨rfl, hs.blocks, hs.registered, ?_, hs.unbinds⟩
  rw [Framework.live, Option.elim_some]
  have hstep : (s.unbound ++ s.dropped ++ cdev.live ++ a.adds fns cdev).Perm
      (s.unbound ++ s.dropped ++ ((a.run fns cdev).live ++ a.drops fns cdev)) := by
    rw [List.append_assoc]
    exact (a.live_run cdev).append_left _
  refine ((hfuns.append_right _).trans hstep).trans ?_
  rw [List.append_assoc, List.append_assoc, List.append_assoc]
  exact (List.perm_append_comm.append_left _).append_left _

theorem Framework.Bound.asks (hs : s.Bound blocks) (l : List DeviceAsk) :
    (l.foldl (Framework.ask fns) s).Bound blocks := by
  induction l generalizing s with
  | nil => exact hs
  | cons a l ih => exact ih (hs.ask a)

/-- Unbinding frees each of the blocks that a gadget has got. -/
theorem Framework.Bound.unbind (hs : s.Bound blocks)
    (hblocks : blocks = [.cdev] ∨ blocks = [.cdev, .req] ∨ blocks = [.cdev, .req, .buf]) :
    (compositeUnbind s).Balanced := by
  obtain ⟨cdev, hcdev⟩ := Option.isSome_iff_exists.mp hs.cdev
  have hfuns := hs.functions
  rw [Framework.live, hcdev, Option.elim_some] at hfuns
  have hfree : freeBlocks s.blocks = [] := by
    rw [hs.blocks]
    obtain rfl | rfl | rfl := hblocks <;> rfl
  rw [compositeUnbind, hcdev]
  refine ⟨hfree, rfl, nofun, hfuns.trans ?_, hs.unbinds⟩
  rw [Framework.live, Option.elim_none, List.append_nil, List.append_assoc, List.append_assoc]
  exact List.perm_append_comm.append_left _

theorem Framework.Bound.complete (hs : s.Bound [.cdev, .req, .buf]) :
    Framework.Balanced { s with file := true } := by
  obtain ⟨cdev, hcdev⟩ := Option.isSome_iff_exists.mp hs.cdev
  have hunbinds := hs.unbinds
  refine ⟨?_, hs.cdev.symm, fun _ => hs.registered, hs.functions, ?_⟩
  · rw [hcdev]
    exact hs.blocks
  · rw [hcdev]
    exact hunbinds

theorem Framework.Balanced.bound (hs : s.Balanced) (hcdev : s.cdev.isSome) :
    s.Bound [.cdev, .req, .buf] := by
  refine ⟨hcdev, ?_, hs.registered hcdev, hs.functions, ?_⟩
  · rw [hs.blocks, if_pos hcdev]
  · obtain ⟨cdev, heq⟩ := Option.isSome_iff_exists.mp hcdev
    have hunbinds := hs.unbinds
    rw [heq] at hunbinds
    exact hunbinds

/-! ## Steps -/

/-- A configuration of the driver fails only before it has a function. -/
def DeviceAsk.DropsNothing (fns : ℕ → UsbFunction) : DeviceAsk → Prop
  | .addConfig _ (some bind) => bind.value < 0 → bind.asks.flatMap (ConfigAsk.adds fns) = []
  | _ => True

theorem DeviceAsk.DropsNothing.drops {a : DeviceAsk} (ha : a.DropsNothing fns) (s : Cdev) :
    a.drops fns s = [] := by
  cases a with
  | string a => rfl
  | addConfig config bind =>
    cases bind with
    | none => rfl
    | some bind =>
      rw [DeviceAsk.drops]
      split_ifs with hdrops
      · exact ha (by simp_all)
      · rfl

theorem Framework.dropped_asks {l : List DeviceAsk} (hl : ∀ a ∈ l, a.DropsNothing fns)
    (s : Framework) : (l.foldl (Framework.ask fns) s).dropped = s.dropped := by
  induction l generalizing s with
  | nil => rfl
  | cons a l ih =>
    rw [List.foldl_cons, ih fun b hb => hl b (List.mem_cons_of_mem a hb), Framework.ask]
    cases s.cdev with
    | none => rfl
    | some cdev =>
      dsimp only
      rw [(hl a List.mem_cons_self).drops, List.append_nil]

/-- **What `composite_bind` can do**: nothing, unbind what it has, or succeed. -/
theorem compositeBind_cases (fns : ℕ → UsbFunction) (hs : s.Balanced) (hnone : s.cdev = none)
    (hreg : s.composite.isSome) (p : Answers) :
    (p.cdev = false ∧ (compositeBind fns p s).2 = s) ∨
    ∃ s' blocks, s'.Bound blocks ∧
      (blocks = [.cdev] ∨ blocks = [.cdev, .req] ∨ blocks = [.cdev, .req, .buf]) ∧
      ((∀ a ∈ p.asks, a.DropsNothing fns) → s'.dropped = s.dropped) ∧
      ((compositeBind fns p s).2 = compositeUnbind s' ∨
        blocks = [.cdev, .req, .buf] ∧ (compositeBind fns p s).2 = { s' with file := true }) := by
  have hempty : s.blocks = [] := by rw [hs.blocks, hnone]; rfl
  have hstart : ∀ blocks, Framework.Bound blocks { s with
      cdev := some Cdev.init, blocks := blocks, cdevs := s.cdevs + 1 } := by
    intro blocks
    have hunbinds := hs.unbinds
    have hfuns := hs.functions
    rw [hnone] at hunbinds
    rw [Framework.live, hnone] at hfuns
    exact ⟨rfl, rfl, hreg, hfuns, congrArg (· + 1) hunbinds⟩
  rw [compositeBind, hempty]
  by_cases hc : p.cdev
  · right
    rw [if_neg (by simpa using hc)]
    by_cases hr : p.req
    · rw [if_neg (by simpa using hr)]
      by_cases hb : p.buf
      · rw [if_neg (by simpa using hb)]
        refine ⟨_, _, (hstart [.cdev, .req, .buf]).asks p.asks, .inr (.inr rfl),
          fun hl => Framework.dropped_asks hl _, ?_⟩
        by_cases hv : p.value < 0
        · exact .inl (congrArg Prod.snd (if_pos hv))
        · by_cases hf : p.createFile = 0
          · refine .inr ⟨rfl, ?_⟩
            exact congrArg Prod.snd ((if_neg hv).trans (if_neg (not_not_intro hf)))
          · exact .inl (congrArg Prod.snd ((if_neg hv).trans (if_pos hf)))
      · rw [if_pos (by simpa using hb)]
        exact ⟨_, _, hstart [.cdev, .req], .inr (.inl rfl), fun _ => rfl, .inl rfl⟩
    · rw [if_pos (by simpa using hr)]
      exact ⟨_, _, hstart [.cdev], .inl rfl, fun _ => rfl, .inl rfl⟩
  · left
    rw [if_pos (by simpa using hc)]
    exact ⟨by simpa using hc, rfl⟩

/-- A driver that is registered has a gadget, so that the next one can be registered after it. -/
def Framework.Freed (s : Framework) : Prop := s.composite.isSome → s.cdev.isSome

/-- A driver is not turned away before its `cdev` is there. -/
def LifeAct.ReachesBind : LifeAct → Prop
  | .probe _ _ p => p.accepted = true ∧ p.cdev = true
  | _ => True

/-- No configuration of a probe fails after it has a function. -/
def LifeAct.DropsNothing (fns : ℕ → UsbFunction) : LifeAct → Prop
  | .probe _ _ p => ∀ a ∈ p.asks, a.DropsNothing fns
  | _ => True

/-- What one step keeps. -/
structure Kept (fns : ℕ → UsbFunction) (a : LifeAct) (s s' : Framework) : Prop where
  balanced : s'.Balanced
  freed : a.ReachesBind → s.Freed → s'.Freed
  dropped : a.DropsNothing fns → s'.dropped = s.dropped

theorem compositeUnbind_freed (hcdev : s.cdev.isSome) : (compositeUnbind s).Freed := by
  obtain ⟨cdev, heq⟩ := Option.isSome_iff_exists.mp hcdev
  rw [compositeUnbind, heq]
  exact nofun

theorem compositeUnbind_dropped (s : Framework) : (compositeUnbind s).dropped = s.dropped := by
  rw [compositeUnbind]
  cases s.cdev with
  | none => rfl
  | some cdev => rfl

theorem kept_probe (hs : s.Balanced) (driver : ℕ) (valid : Bool) (p : Answers) :
    Kept fns (.probe driver valid p) s (usbCompositeProbe fns driver valid p s).2 := by
  rw [usbCompositeProbe]
  split_ifs with hrefused haccepted
  · exact ⟨hs, fun _ hfreed => hfreed, fun _ => rfl⟩
  · have hnone : s.cdev = none := by
      have hreg := hs.registered
      cases hcdev : s.cdev with
      | none => rfl
      | some cdev => simp_all
    have hset : Framework.Balanced { s with composite := some driver } :=
      ⟨hs.blocks, hs.file, fun _ => rfl, hs.functions, hs.unbinds⟩
    obtain ⟨hc, heq⟩ | ⟨s', blocks, hbound, hblocks, hdropped, heq | ⟨rfl, heq⟩⟩ :=
      compositeBind_cases fns hset hnone rfl p
    · rw [heq]
      exact ⟨hset, fun hreach => by simp [LifeAct.ReachesBind, hc] at hreach, fun _ => rfl⟩
    · rw [heq]
      exact ⟨hbound.unbind hblocks, fun _ _ => compositeUnbind_freed hbound.cdev,
        fun hd => (compositeUnbind_dropped s').trans (hdropped hd)⟩
    · rw [heq]
      exact ⟨hbound.complete, fun _ _ _ => hbound.cdev, hdropped⟩
  · exact ⟨⟨hs.blocks, hs.file, fun _ => rfl, hs.functions, hs.unbinds⟩,
      fun hreach => absurd hreach.1 haccepted, fun _ => rfl⟩

theorem kept_unregister (hs : s.Balanced) (driver : ℕ) :
    Kept fns (.unregister driver) s (usbCompositeUnregister driver s) := by
  rw [usbCompositeUnregister]
  split_ifs with hother
  · exact ⟨hs, fun _ hfreed => hfreed, fun _ => rfl⟩
  · cases hcdev : s.cdev with
    | none =>
      have hsame : compositeUnbind s = s := by rw [compositeUnbind, hcdev]
      rw [hsame]
      exact ⟨hs, fun _ hfreed => hfreed, fun _ => rfl⟩
    | some cdev =>
      have hsome : s.cdev.isSome := by rw [hcdev]; rfl
      exact ⟨(hs.bound hsome).unbind (.inr (.inr rfl)), fun _ _ => compositeUnbind_freed hsome,
        fun _ => compositeUnbind_dropped s⟩

theorem kept_removeConfig (hs : s.Balanced) (v : UInt8) :
    Kept fns (.removeConfig v) s (usbRemoveConfig v s) := by
  rw [usbRemoveConfig]
  cases hcdev : s.cdev with
  | none => exact ⟨hs, fun _ hfreed => hfreed, fun _ => rfl⟩
  | some cdev =>
    have hsome : s.cdev.isSome := by rw [hcdev]; rfl
    dsimp only
    cases hfind : cdev.configs.find? fun c => c.bConfigurationValue == v with
    | none => exact ⟨hs, fun _ hfreed => hfreed, fun _ => rfl⟩
    | some config =>
      have hbound := hs.bound hsome
      have hlive : cdev.live.Perm (unbindConfig config
          ++ (cdev.configs.erase config).flatMap unbindConfig) :=
        (List.perm_cons_erase (List.mem_of_find?_eq_some hfind)).flatMap_right unbindConfig
      have hfuns := hs.functions
      rw [Framework.live, hcdev, Option.elim_some] at hfuns
      refine ⟨⟨hbound.blocks, ?_, fun _ => hbound.registered, ?_, hbound.unbinds⟩,
        fun _ _ _ => rfl, fun _ => rfl⟩
      · exact hs.file.trans hsome
      · refine (hfuns.trans (hlive.append_left _)).trans ?_
        rw [List.append_assoc, List.append_assoc, List.append_assoc]
        exact (List.perm_append_comm_assoc _ _ _).append_left _

theorem kept_run (hs : s.Balanced) (a : LifeAct) : Kept fns a s (a.run fns s) := by
  cases a with
  | probe driver valid p => exact kept_probe hs driver valid p
  | unregister driver => exact kept_unregister hs driver
  | removeConfig v => exact kept_removeConfig hs v

theorem kept_foldl (fns : ℕ → UsbFunction) (hs : s.Balanced) (run : List LifeAct) :
    (run.foldl (LifeAct.run fns) s).Balanced ∧
      ((∀ a ∈ run, a.ReachesBind) → s.Freed → (run.foldl (LifeAct.run fns) s).Freed) ∧
      ((∀ a ∈ run, a.DropsNothing fns) →
        (run.foldl (LifeAct.run fns) s).dropped = s.dropped) := by
  induction run generalizing s with
  | nil => exact ⟨hs, fun _ hfreed => hfreed, fun _ => rfl⟩
  | cons a run ih =>
    have hstep : Kept fns a s (a.run fns s) := kept_run hs a
    obtain ⟨hbalanced, hfreed, hdropped⟩ := ih hstep.balanced
    refine ⟨hbalanced, fun hreach h => ?_, fun hdrops => ?_⟩
    · exact hfreed (fun b hb => hreach b (List.mem_cons_of_mem a hb))
        (hstep.freed (hreach a List.mem_cons_self) h)
    · exact (hdropped fun b hb => hdrops b (List.mem_cons_of_mem a hb)).trans
        (hstep.dropped (hdrops a List.mem_cons_self))

theorem balanced_init : Framework.init.Balanced :=
  ⟨rfl, rfl, nofun, .refl _, rfl⟩

/-- **The life cycle.** In every run of registrations, removals and unregistrations, whatever fails,
the books are right. A driver stays registered without a gadget only after one was turned away
before its `cdev` was there; and when no configuration fails after it has got a function, every
function that was added is in a configuration or was unbound once. -/
theorem lifecycle (fns : ℕ → UsbFunction) (run : List LifeAct) :
    let s := run.foldl (LifeAct.run fns) .init
    s.Balanced ∧ ((∀ a ∈ run, a.ReachesBind) → s.Freed) ∧
      ((∀ a ∈ run, a.DropsNothing fns) → s.added.Perm (s.unbound ++ s.live)) := by
  intro s
  obtain ⟨hbalanced, hfreed, hdropped⟩ := kept_foldl fns balanced_init run
  refine ⟨hbalanced, fun hreach => hfreed hreach nofun, fun hdrops => ?_⟩
  have hfuns := hbalanced.functions
  rw [hdropped hdrops] at hfuns
  rw [List.append_assoc] at hfuns
  exact hfuns

/-- One configuration with one function; `createFile` is the answer of `device_create_file`. -/
def plainAnswers (createFile : ℤ) : Answers :=
  ⟨true, true, true, true,
    [.addConfig plainConfig (some ⟨[.addFunction 7 ⟨[.interfaceId], 0⟩], 0⟩)], 0, createFile⟩

/-- The first registration fails at its end, the second succeeds. -/
def twoProbes : List LifeAct :=
  [.probe 0 true (plainAnswers (-enomem)), .probe 0 true (plainAnswers 0)]

theorem lifecycle_twoProbes :
    let s := twoProbes.foldl (LifeAct.run fun _ => plainFunction) .init
    s.Balanced ∧ s.Freed ∧ s.added.Perm (s.unbound ++ s.live) ∧ s.added = [7, 7] := by
  have hreach : ∀ a ∈ twoProbes, a.ReachesBind := by
    intro a ha
    simp only [twoProbes, List.mem_cons, List.not_mem_nil, or_false] at ha
    obtain rfl | rfl := ha <;> exact ⟨rfl, rfl⟩
  have hdrops : ∀ a ∈ twoProbes, a.DropsNothing fun _ => plainFunction := by
    have hask : ∀ createFile, ∀ b ∈ (plainAnswers createFile).asks,
        b.DropsNothing fun _ => plainFunction := by
      intro createFile b hb
      obtain rfl := List.mem_singleton.mp hb
      exact nofun
    intro a ha
    simp only [twoProbes, List.mem_cons, List.not_mem_nil, or_false] at ha
    obtain rfl | rfl := ha
    · exact hask _
    · exact hask _
  obtain ⟨hbalanced, hfreed, hfuns⟩ := lifecycle (fun _ => plainFunction) twoProbes
  exact ⟨hbalanced, hfreed hreach, hfuns hdrops, by decide⟩

-- the function of a configuration that fails is never unbound
example : ([.probe 0 true ⟨true, true, true, true, [.addConfig plainConfig
    (some ⟨[.addFunction 7 ⟨[], 0⟩], -enodev⟩)], 0, 0⟩, .unregister 0].foldl
      (LifeAct.run fun _ => plainFunction) .init).dropped = [7] := by
  decide

end LddExample.Composite
