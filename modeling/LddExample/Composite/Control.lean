import LddExample.Composite.Strings
import LddExample.Lib.Interact

/-!
# Control requests of a composite device

Requests of the host change the configuration: the functions of the old one are disabled, those of
the new one are set to their first setting, and the endpoints of each are noted so that requests for
an endpoint find their function. The functions are called back and may answer anything.

* `Call`, `Prog`: the callbacks and what is asked of the controller; a pointer that is not there
  ends a program.
* `Ctl`, `Device`: what requests change, and what does not.
* `resetConfig`, `setConfig`, `compositeSetup`, `compositeDisconnect`, `usbCompositeSetupContinue`,
  `compositeSuspend`, `compositeResume`: the entry points; `Act` is a call of one of them.
-/

namespace LddExample.Composite

open Interact ScaleUsb

/-! ## Callbacks -/

/-- What the framework calls: the callbacks of functions and configurations, and the controller. -/
inductive Call
  | setAlt (f intf alt : ℕ)
  | getAlt (f intf : ℕ)
  | disable (f : ℕ)
  | setup (f : ℕ)
  | configSetup (bConfigurationValue : UInt8)
  | epQueue (data : List UInt8) (zero : Bool)
  | vbusDraw (mA : ℕ)
  | suspend (f : ℕ)
  | resume (f : ℕ)
deriving DecidableEq

/-- The callbacks that return an `int`, and `usb_ep_queue`. -/
def Call.Answer : Call → Type
  | .setAlt .. | .getAlt .. | .setup _ | .configSetup _ | .epQueue .. => ℤ
  | _ => Unit

/-- How the framework can fault. -/
inductive Fault
  | nullPointer
deriving DecidableEq

/-- A function of `composite.c`. -/
abbrev Prog := Driver Call Call.Answer Fault

/-- `f->set_alt`, which is there. -/
def callSetAlt (f intf alt : ℕ) : Prog ℤ := .perform (Call.setAlt f intf alt)

/-- `f->get_alt` -/
def getAlt (f intf : ℕ) : Prog ℤ := .perform (Call.getAlt f intf)

/-- `f->disable` -/
def disable (f : ℕ) : Prog Unit := .perform (Call.disable f)

/-- `f->suspend` -/
def callSuspend (f : ℕ) : Prog Unit := .perform (Call.suspend f)

/-- `f->resume` -/
def callResume (f : ℕ) : Prog Unit := .perform (Call.resume f)

/-- `f->setup` -/
def functionSetup (f : ℕ) : Prog ℤ := .perform (Call.setup f)

/-- `c->setup` -/
def configSetup (c : Configuration) : Prog ℤ := .perform (Call.configSetup c.bConfigurationValue)

/-- `usb_ep_queue` of `cdev->req`, with the data of its buffer. -/
def usbEpQueue (data : List UInt8) (zero : Bool) : Prog ℤ := .perform (Call.epQueue data zero)

/-- `usb_gadget_vbus_draw` -/
def usbGadgetVbusDraw (mA : ℕ) : Prog Unit := .perform (Call.vbusDraw mA)

/-! ## The device -/

/-- `struct usb_composite_dev`: what requests change. `endpoints f` is the bitmap of a function and
`buf` the buffer of `cdev->req`. -/
structure Ctl where
  config : Option Configuration
  endpoints : ℕ → ℕ → Bool
  delayedStatus : ℕ
  suspended : Bool
  buf : List UInt8

/-- After `composite_bind` no configuration is set. -/
def Ctl.init : Ctl := ⟨none, fun _ _ => false, 0, false, []⟩

/-- What does not change: the device that was built, its strings and device descriptor up to
`bNumConfigurations`, and `CONFIG_USB_GADGET_VBUS_DRAW`. -/
structure Device where
  fns : ℕ → UsbFunction
  configs : List Configuration
  strings : DeviceStrings
  desc : List UInt8
  vbusDraw : ℕ

/-- `USB_GADGET_DELAYED_STATUS` -/
def usbGadgetDelayedStatus : ℤ := 0x7fff

/-- `USB_DT_ENDPOINT` -/
def usbDtEndpoint : UInt8 := 0x05

/-- The bit of an endpoint address. -/
def endpointBit (addr : UInt8) : ℕ := (((addr &&& 0x80) >>> 3) ||| (addr &&& 0x0f)).toNat

/-- The bits of the endpoints among descriptors. -/
def endpointBits (ds : List Descriptor) : List ℕ :=
  (ds.filter fun d => d.bDescriptorType = usbDtEndpoint).map fun d => endpointBit (d.bytes.getD 2 0)

/-- `bitmap_zero` -/
def Ctl.clear (s : Ctl) (f : ℕ) : Ctl :=
  { s with endpoints := fun g b => if g = f then false else s.endpoints g b }

/-- `set_bit` for each endpoint among descriptors -/
def Ctl.note (s : Ctl) (f : ℕ) (ds : List Descriptor) : Ctl :=
  { s with endpoints := fun g b =>
      if g = f then s.endpoints g b || (endpointBits ds).contains b else s.endpoints g b }

/-- `cdev->delayed_status++` when a function asks for it -/
def Ctl.delay (s : Ctl) (result : ℤ) : Ctl :=
  if result = usbGadgetDelayedStatus then { s with delayedStatus := s.delayedStatus + 1 } else s

/-! ## Configurations -/

variable (D : Device) (g : Gadget)

/-- `f->set_alt(f, intf, alt)` -/
def setAlt (f intf alt : ℕ) : Prog ℤ :=
  if (D.fns f).setAlt then callSetAlt f intf alt else .fail .nullPointer

/-- `list_for_each_entry(f, &cdev->config->functions, list)` of `reset_config` -/
def disableAll : List ℕ → Ctl → Prog Ctl
  | [], s => pure s
  | f :: fs, s => do
    if (D.fns f).disable then disable f
    disableAll fs (s.clear f)

/-- `reset_config` -/
def resetConfig (s : Ctl) : Prog Ctl :=
  match s.config with
  | none => .fail .nullPointer
  | some c => do
    let s ← disableAll D c.functions s
    pure { s with config := none }

/-- `if (cdev->config) reset_config(cdev)` -/
def leaveConfig (s : Ctl) : Prog Ctl := if s.config.isSome then resetConfig D s else pure s

/-- The loop over the interfaces in `set_config`, from interface `tmp` on. -/
def startInterfaces : ℕ → List ℕ → ℤ → Ctl → Prog (ℤ × Ctl)
  | _, [], result, s => pure (result, s)
  | tmp, f :: fs, _, s =>
    match speedDescriptors D.fns (g.speed == .high) f with
    | none => .fail .nullPointer
    | some ds => do
      let s := s.note f ds
      let result ← setAlt D f tmp 0
      if result < 0 then
        let s ← resetConfig D s
        pure (result, s)
      else
        startInterfaces (tmp + 1) fs result (s.delay result)

/-- What may be drawn without a configuration. -/
def Gadget.power (g : Gadget) : ℕ := if g.otg then 8 else 100

/-- What a configuration draws. -/
def Configuration.power (c : Configuration) : ℕ :=
  if c.bMaxPower ≠ 0 then 2 * c.bMaxPower.toNat else D.vbusDraw

/-- `done:` of `set_config` -/
def setConfigDone (power : ℕ) (result : ℤ) (s : Ctl) : Prog (ℤ × Ctl) := do
  usbGadgetVbusDraw power
  pure (if 0 ≤ result ∧ s.delayedStatus ≠ 0 then usbGadgetDelayedStatus else result, s)

/-- `set_config` -/
def setConfig (number : ℕ) (s : Ctl) : Prog (ℤ × Ctl) := do
  let s ← leaveConfig D s
  if number = 0 then
    setConfigDone g.power 0 s
  else
    match D.configs.find? fun c => c.bConfigurationValue.toNat == number with
    | none => setConfigDone g.power (-einval) s
    | some c => do
      let (result, s) ← startInterfaces D g 0 c.interface 0 { s with config := some c }
      setConfigDone (if result < 0 then g.power else c.power D) result s

/-! ## Requests -/

/-- `memcpy` to the beginning of `req->buf` -/
def Ctl.put (s : Ctl) (data : List UInt8) : Ctl :=
  { s with buf := data ++ s.buf.drop data.length }

/-- `device_qual` -/
def deviceQual : List UInt8 :=
  [10, usbDtDeviceQualifier] ++ (D.desc.drop 2).take 6 ++
    [UInt8.ofNat (countConfigs g D.configs usbDtDeviceQualifier), 0]

/-- The descriptors that the framework answers: what is written into the buffer and `value`. -/
def getDescriptor (ctrl : CtrlRequest) : Except ℤ (List UInt8 × ℕ) :=
  let wLength := ctrl.wLength.toNat
  let cut := fun reply : List UInt8 => (reply, min wLength reply.length)
  let type := (ctrl.wValue >>> 8).toUInt8
  if type = usbDtDevice then
    let desc := D.desc ++ [UInt8.ofNat (countConfigs g D.configs usbDtDevice)]
    let value := min wLength desc.length
    .ok (desc.take value, value)
  else if type = usbDtDeviceQualifier then
    if g.dualspeed then .ok (cut (deviceQual D g)) else .error (-eopnotsupp)
  else if type = usbDtConfig ∨ type = usbDtOtherSpeedConfig ∧ g.dualspeed = true then
    (configDesc D.fns D.vbusDraw g D.configs ctrl.wValue).map cut
  else if type = usbDtString then
    (getString D.fns D.strings D.configs ctrl.wIndex ctrl.wValue.toUInt8).map cut
  else
    .error (-eopnotsupp)

/-- `cdev->config->interface[intf]`, with a check of the index -/
def Ctl.interfaceOf (s : Ctl) (ctrl : CtrlRequest) : Option ℕ :=
  s.config.bind fun c => c.interface[(ctrl.wIndex &&& 0xff).toNat]?

/-- A reply before the status phase. -/
def respond (wLength : ℕ) (value : ℤ) (s : Ctl) : Prog (ℤ × Ctl) :=
  if 0 ≤ value ∧ value ≠ usbGadgetDelayedStatus then do
    let value ← usbEpQueue (s.buf.take value.toNat) (decide (value.toNat < wLength))
    pure (value, s)
  else
    pure (value, s)

/-- `cdev->config->setup` -/
def configRequest? (s : Ctl) : Prog ℤ :=
  match s.config with
  | none => pure (-eopnotsupp)
  | some c => if c.setup then configSetup c else pure (-eopnotsupp)

/-- The function that is asked when the framework does not know the request. -/
def recipient (ctrl : CtrlRequest) (s : Ctl) : Except Fault (Option ℕ) :=
  let recip := ctrl.bRequestType &&& 0x1f
  if recip = 1 then
    .ok (s.interfaceOf ctrl)
  else if recip = 2 then
    match s.config with
    | none => .error .nullPointer
    | some c => .ok (c.functions.find? fun f => s.endpoints f (endpointBit ctrl.wIndex.toUInt8))
  else
    .ok none

/-- `unknown:` -/
def unknown (ctrl : CtrlRequest) (s : Ctl) : Prog (ℤ × Ctl) :=
  match recipient ctrl s with
  | .error e => .fail e
  | .ok none => do
    let value ← configRequest? s
    pure (value, s)
  | .ok (some f) => do
    let value ← if (D.fns f).setup then functionSetup f else configRequest? s
    pure (value, s)

/-- `composite_setup` -/
def compositeSetup (ctrl : CtrlRequest) (s : Ctl) : Prog (ℤ × Ctl) :=
  let wLength := ctrl.wLength.toNat
  if ctrl.bRequest = usbReqGetDescriptor ∧ ctrl.bRequestType = usbDirIn then
    match getDescriptor D g ctrl with
    | .ok (data, value) => respond wLength value (s.put data)
    | .error e => respond wLength e s
  else if ctrl.bRequest = usbReqSetConfiguration ∧ ctrl.bRequestType = 0 then do
    let (value, s) ← setConfig D g ctrl.wValue.toNat s
    respond wLength value s
  else if ctrl.bRequest = usbReqGetConfiguration ∧ ctrl.bRequestType = usbDirIn then
    respond wLength (min wLength 1 : ℕ) (s.put [(s.config.map (·.bConfigurationValue)).getD 0])
  else if ctrl.bRequest = usbReqSetInterface ∧ ctrl.bRequestType = usbRecipInterface then
    match s.interfaceOf ctrl with
    | none => respond wLength (-eopnotsupp) s
    | some f =>
      if ctrl.wValue ≠ 0 ∧ (D.fns f).setAlt = false then
        respond wLength (-eopnotsupp) s
      else do
        let value ← setAlt D f ctrl.wIndex.toNat ctrl.wValue.toNat
        respond wLength value (s.delay value)
  else if ctrl.bRequest = usbReqGetInterface ∧
      ctrl.bRequestType = usbDirIn ||| usbRecipInterface then
    match s.interfaceOf ctrl with
    | none => respond wLength (-eopnotsupp) s
    | some f => do
      let value ← if (D.fns f).getAlt then getAlt f ctrl.wIndex.toNat else pure 0
      if value < 0 then
        respond wLength value s
      else
        respond wLength (min wLength 1 : ℕ) (s.put [UInt8.ofNat value.toNat])
  else
    unknown D ctrl s

/-! ## The other entry points -/

/-- `composite_disconnect` -/
def compositeDisconnect (s : Ctl) : Prog Ctl := leaveConfig D s

/-- `usb_composite_setup_continue` -/
def usbCompositeSetupContinue (s : Ctl) : Prog Ctl :=
  if s.delayedStatus = 0 then
    pure s
  else do
    let s := { s with delayedStatus := s.delayedStatus - 1 }
    if s.delayedStatus = 0 then
      let _ ← usbEpQueue [] false
    pure s

/-- The functions that have the callback are called. -/
def callEach (has : ℕ → Bool) (call : ℕ → Prog Unit) : List ℕ → Prog Unit
  | [] => pure ()
  | f :: fs => do
    if has f then call f
    callEach has call fs

/-- The functions of the current configuration. -/
def Ctl.functions (s : Ctl) : List ℕ := (s.config.map (·.functions)).getD []

/-- `composite_suspend` -/
def compositeSuspend (s : Ctl) : Prog Ctl := do
  callEach (fun f => (D.fns f).suspend) callSuspend s.functions
  usbGadgetVbusDraw 2
  pure { s with suspended := true }

/-- The current configuration draws its power again. -/
def drawAgain (s : Ctl) : Prog Unit :=
  match s.config with
  | none => pure ()
  | some c => usbGadgetVbusDraw (c.power D)

/-- `composite_resume` -/
def compositeResume (s : Ctl) : Prog Ctl := do
  callEach (fun f => (D.fns f).resume) callResume s.functions
  drawAgain D s
  pure { s with suspended := false }

/-- What the controller and the functions do to the framework. -/
inductive Act
  | setup (g : Gadget) (ctrl : CtrlRequest)
  | disconnect
  | setupContinue
  | suspend
  | resume

/-- The entry point behind an action. -/
def Act.prog (s : Ctl) : Act → Prog Ctl
  | .setup g ctrl => Prod.snd <$> compositeSetup D g ctrl s
  | .disconnect => compositeDisconnect D s
  | .setupContinue => usbCompositeSetupContinue s
  | .suspend => compositeSuspend D s
  | .resume => compositeResume D s

end LddExample.Composite
