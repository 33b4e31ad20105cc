import LddExample.ScaleUsb.Rx
import LddExample.ScaleUsb.Setup
import Mathlib.Logic.Function.Iterate

/-!
# Responses to control requests

What `scale_setup` stores in the buffer of `dev->req` and hands to `ep0`, with the helpers it uses
from `usbstring.c` and `config.c`. What it does to the configuration is in `SetupDev.scaleSetup`.

* `ReqBuf`: the buffer. `memcpy` and `memset` fail when they leave it, or read past the end of a
  table.
* `vendorTable`: the vendor requests, one row for each `if` of the source.
* `CtrlRequest.setupSwitch`: the switch of `scale_setup`, with `value`, `test_vendor` and the
  buffer.
* **`setupReply`**: the whole call, with what is queued on `ep0`.
-/

namespace LddExample.ScaleUsb

/-! ## The buffer -/

/-- `USB_DESC_BUFSIZE` -/
def usbDescBufsize : ℕ := 256

/-- How building the response can go wrong. -/
inductive SetupFault
  /-- a copy reads past the end of its table -/
  | srcOverrun
  /-- a write past the end of `req->buf` -/
  | bufOverrun
  /-- `memset` with a negative length -/
  | negativeLength
deriving DecidableEq

/-- `req->buf` -/
abbrev ReqBuf := { b : List UInt8 // b.length = usbDescBufsize }

namespace ReqBuf

/-- The buffer with the bytes `src` from `off` on. -/
def put (b : ReqBuf) (off : ℕ) (src : List UInt8) : Except SetupFault ReqBuf :=
  if h : off + src.length ≤ usbDescBufsize then
    .ok ⟨b.1.take off ++ src ++ b.1.drop (off + src.length), by
      rw [List.length_append, List.length_append, List.length_take, List.length_drop, b.2]
      omega⟩
  else .error .bufOverrun

/-- `memcpy(req->buf + off, src, n)` -/
def memcpy (b : ReqBuf) (off : ℕ) (src : List UInt8) (n : ℕ) : Except SetupFault ReqBuf :=
  if n ≤ src.length then b.put off (src.take n) else .error .srcOverrun

/-- `memset(req->buf + off, 0, n)` -/
def memset (b : ReqBuf) (off : ℕ) (n : ℤ) : Except SetupFault ReqBuf :=
  if 0 ≤ n then b.put off (List.replicate n.toNat 0) else .error .negativeLength

end ReqBuf

/-! ## Tables -/

/-- `EOPNOTSUPP` -/
def eopnotsupp : ℤ := 95

/-- `report_desc` -/
def reportDesc : List UInt8 :=
  [0x05, 0x01, 0x09, 0x02, 0xa1, 0x01, 0x09, 0x01, 0xa1, 0x00, 0x05, 0x09, 0x19, 0x01, 0x29,
    0x03, 0x15, 0x00, 0x25, 0x01, 0x95, 0x03, 0x75, 0x01, 0x81, 0x02, 0x95, 0x01, 0x75, 0x05,
    0x81, 0x01, 0x05, 0x01, 0x09, 0x30, 0x09, 0x31, 0x09, 0x38, 0x15, 0x81, 0x25, 0x7f, 0x75,
    0x08, 0x95, 0x03, 0x81, 0x06, 0xc0, 0xc0]

/-- `config_desc1` -/
def configDesc1 : List UInt8 :=
  [9, 2, 9, 0, 1, 1, 0, 0x80, 50]

/-- What `usb_ep_autoconfig` leaves in an endpoint descriptor. -/
structure DmxEp where
  bEndpointAddress : UInt8
  wMaxPacketSize : UInt16

/-- A bulk endpoint descriptor of `DMX512_DUMMY`. -/
def DmxEp.desc (ep : DmxEp) (bInterval : UInt8) : List UInt8 :=
  [7, 5, ep.bEndpointAddress, 2, ep.wMaxPacketSize.toUInt8, (ep.wMaxPacketSize >>> 8).toUInt8,
    bInterval]

/-- The endpoint descriptors of `DMX512_DUMMY` after `scale_bind`. -/
structure DmxEps where
  ep2Out : DmxEp
  ep5Out : DmxEp
  ep8Out : DmxEp
  ep2In : DmxEp
  ep5In : DmxEp
  ep8In : DmxEp

/-- `fs_dmx_scale_function` from its third entry on, where `config_buf1` starts -/
def dmxFunction (eps : DmxEps) : List (List UInt8) :=
  [[9, 4, 0, 0, 6, 0xff, 0, 0, 0], eps.ep2Out.desc 1, eps.ep5Out.desc 1, eps.ep8Out.desc 0,
    eps.ep2In.desc 1, eps.ep5In.desc 1, eps.ep8In.desc 1]

/-- The text of `strings[0]`. -/
def stringTest : List UInt8 :=
  [0x6a, 0x6f, 0x79, 0x20, 0x73, 0x74, 0x72, 0x69, 0x6e, 0x67, 0x20, 0x74, 0x65, 0x73, 0x74, 0x21]

/-- `manufacturer` -/
def manufacturer : List UInt8 := [0x53, 0x49, 0x55, 0x44, 0x49, 0x38, 0x41]

/-- `product_desc` -/
def productDesc : List UInt8 :=
  [0x22, 0x30, 0x30, 0x30, 0x30, 0x30, 0x30, 0x30, 0x32, 0x37, 0x39, 0x41, 0x38, 0x20, 0x20]

/-- `serial_num` -/
def serialNum : List UInt8 := [0x31, 0x36, 0x32, 0x32, 0x31, 0x36]

/-- `pnp_string` as it is loaded -/
def pnpInit : List UInt8 :=
  [0x58, 0x58, 0x4d, 0x46, 0x47, 0x3a, 0x6c, 0x69, 0x6e, 0x75, 0x78, 0x3b, 0x4d, 0x44, 0x4c,
    0x3a, 0x73, 0x63, 0x61, 0x6c, 0x65, 0x3b, 0x43, 0x4c, 0x53, 0x3a, 0x43, 0x4f, 0x4d, 0x4d,
    0x3b, 0x53, 0x4e, 0x3a, 0x31, 0x3b] ++ List.replicate 988 0

/-- The response to the strings `0x0301` and `0x0302`. -/
def dmxString : List UInt8 :=
  [0x22, 0x03, 0x30, 0x00, 0x30, 0x00, 0x30, 0x00, 0x30, 0x00, 0x30, 0x00, 0x30, 0x00, 0x30,
    0x00, 0x32, 0x00, 0x37, 0x00, 0x39, 0x00, 0x41, 0x00, 0x38, 0x00, 0x00, 0x00, 0x00, 0x00,
    0x00, 0x00, 0x00]

/-- How a vendor request computes `value`. -/
inductive Count
  /-- `value = wLength` -/
  | whole
  /-- `value = min(wLength, n)` -/
  | atMost (n : ℕ)

/-- `value` -/
def Count.value (wLength : ℕ) : Count → ℕ
  | whole => wLength
  | atMost n => min wLength n

/-- A vendor request and its response. -/
structure VendorRow where
  bRequest : UInt8
  wValue : UInt16
  wIndex : UInt16
  count : Count
  /-- sets `test_vendor = 1` -/
  testVendor : Bool
  response : List UInt8

/-- The requests of `USB_TYPE_VENDOR`. -/
def vendorTable : List VendorRow := [
  ⟨0x31, 0x0008, 0x0000, .whole, false,
    [0x05, 0x00, 0x00, 0x00, 0x00]⟩,
  ⟨0x25, 0x0000, 0x0000, .whole, false,
    [0x45, 0xb5, 0xf8, 0x52, 0x00, 0x00, 0x00, 0x00, 0x00]⟩,
  ⟨0x02, 0x0001, 0x0000, .whole, false,
    [0x3c, 0x00, 0x00, 0x00, 0x00, 0x00, 0x00, 0x00, 0xcd, 0xcc, 0xcc, 0xcc, 0xcc, 0xcc, 0x45,
      0x40, 0xaa, 0xf1, 0xd2, 0x4d, 0x62, 0x10, 0x0f, 0x40, 0x00, 0x00, 0x00, 0x00, 0x01, 0x00,
      0x00, 0x00, 0x00]⟩,
  ⟨0x02, 0x0000, 0x0000, .atMost 64, true,
    [0xa8, 0x79, 0x02, 0x00, 0x87, 0x00, 0x00, 0x02, 0x00, 0x00, 0x00, 0x00, 0x53, 0x49, 0x55,
      0x44, 0x49, 0x38, 0x41, 0x00, 0x00, 0x00, 0x44, 0x45, 0x46, 0x41, 0x55, 0x4c, 0x54, 0x00,
      0x00, 0x00, 0x1f, 0x03, 0x1b, 0x0a, 0xb0, 0x04, 0x12, 0x00, 0x03, 0x00, 0x03, 0x00, 0x64,
      0x00, 0x12, 0x00, 0x02, 0x00, 0x01, 0x00, 0x64, 0x00, 0x12, 0x00, 0x02, 0x00, 0x01, 0x00,
      0x57, 0x86, 0xfd, 0xff, 0x00]⟩,
  ⟨0x21, 0x0000, 0x0001, .atMost 1, false,
    [0x01, 0x00]⟩,
  ⟨0x21, 0x0000, 0x0000, .atMost 64, false,
    [0x7b, 0xef, 0x19, 0x4f, 0x1e, 0xb1, 0xe8, 0x08, 0x68, 0xc4, 0xa2, 0x94, 0xdf, 0xda, 0x8e,
      0x6b, 0x13, 0x41, 0x02, 0xdb, 0x2c, 0x35, 0x82, 0x22, 0x9a, 0xb6, 0x80, 0x95, 0x6e, 0x0f,
      0xf2, 0x21, 0x7e, 0x0f, 0xf6, 0xa8, 0xb8, 0x86, 0x4d, 0x47, 0x65, 0x4a, 0xcd, 0x50, 0xda,
      0xf1, 0x59, 0x92, 0x73, 0xef, 0xfb, 0x8e, 0xda, 0xbd, 0xca, 0xc2, 0xfd, 0xc6, 0x75, 0x5c,
      0x83, 0x4f, 0xea, 0x46, 0x00]⟩,
  ⟨0x21, 0x0001, 0x0000, .atMost 64, false,
    [0xe8, 0xc2, 0xf6, 0xd4, 0xe6, 0x8d, 0x94, 0x20, 0x54, 0xf8, 0x8b, 0xbb, 0x34, 0xac, 0xcf,
      0x0b, 0xef, 0xef, 0x66, 0x2c, 0xfc, 0x2d, 0x14, 0x57, 0xa8, 0xfb, 0x5d, 0xb0, 0x00, 0x4e,
      0xa9, 0x9d, 0x00] ++ List.replicate 32 0⟩,
  ⟨0x06, 0x0002, 0x0000, .atMost 1, false,
    [0x00, 0x00]⟩,
  ⟨0x20, 0x0000, 0x0001, .atMost 2, false,
    [0x12, 0x00, 0x00]⟩,
  ⟨0x20, 0x0000, 0x0002, .atMost 2, false,
    [0x03, 0x00, 0x00]⟩,
  ⟨0x20, 0x0000, 0x0000, .atMost 2, false,
    [0xb0, 0x04, 0x00]⟩,
  ⟨0x20, 0x0000, 0x0003, .atMost 2, false,
    [0x03, 0x00, 0x00]⟩,
  ⟨0x20, 0x0000, 0x0101, .atMost 2, false,
    [0x12, 0x00, 0x00]⟩,
  ⟨0x20, 0x0000, 0x0102, .atMost 2, false,
    [0x02, 0x00, 0x00]⟩,
  ⟨0x20, 0x0000, 0x0100, .atMost 2, false,
    [0x64, 0x00, 0x00]⟩,
  ⟨0x20, 0x0000, 0x0103, .atMost 2, false,
    [0x01, 0x00, 0x00]⟩,
  ⟨0x30, 0xffff, 0x0000, .atMost 0, false,
    [0x01, 0x00, 0x00]⟩,
  ⟨0x30, 0x0000, 0x0001, .atMost 0, false,
    [0x01, 0x00, 0x00]⟩,
  ⟨0x30, 0x0000, 0x0000, .atMost 0, false,
    [0x01, 0x00, 0x00]⟩]

/-! ## The state -/

/-- What the responses depend on besides the configuration. -/
structure SetupStatics where
  /-- the numbers that `usb_string_id` gave to the three strings -/
  iManufacturer : UInt8
  iProduct : UInt8
  iSerialNumber : UInt8
  bcdDevice : UInt16
  dmxEps : DmxEps
  scaleStatus : UInt8
  /-- the calls of `scale_bind` before the last one -/
  rebinds : ℕ

/-- `strlen` -/
def strlen (s : List UInt8) : ℕ := (s.takeWhile (· ≠ 0)).length

/-- `scale_bind`: the length of the string replaces its first two bytes. -/
def bindPnp (p : List UInt8) : List UInt8 :=
  UInt8.ofNat (strlen p >>> 8 &&& 0xff) :: UInt8.ofNat (strlen p &&& 0xff) :: p.drop 2

namespace SetupStatics

variable (st : SetupStatics)

/-- `pnp_string` -/
def pnpString : List UInt8 := bindPnp^[st.rebinds + 1] pnpInit

/-- `(pnp_string[0]<<8)|pnp_string[1]` -/
def pnpValue : ℕ := (st.pnpString.getD 0 0).toNat <<< 8 ||| (st.pnpString.getD 1 0).toNat

/-- `device_desc` -/
def deviceDesc : List UInt8 :=
  [0x12, 0x01, 0x10, 0x01, 0x00, 0x00, 0x00, 0x40, 0x44, 0x62, 0x31, 0x04, st.bcdDevice.toUInt8,
    (st.bcdDevice >>> 8).toUInt8, st.iManufacturer, st.iProduct, st.iSerialNumber, 1]

/-- `strings` -/
def strings : List (UInt8 × List UInt8) :=
  [(0, stringTest), (st.iManufacturer, manufacturer), (st.iProduct, productDesc),
    (st.iSerialNumber, serialNum)]

end SetupStatics

/-! ## `usbstring.c` and `config.c` -/

/-- `utf8_to_utf16le`: the units it stores, and whether it returns their number or -1. -/
def utf8ToUtf16le : ℕ → List UInt8 → List UInt16 × Bool
  | 0, _ | _, [] => ([], true)
  | len + 1, c :: s =>
    if c = 0 then ([], true)
    else if c &&& 0x80 = 0 then
      let (us, ok) := utf8ToUtf16le len s
      (c.toUInt16 :: us, ok)
    else if c &&& 0xe0 = 0xc0 then
      match s with
      | c₁ :: s =>
        if c₁ &&& 0xc0 ≠ 0x80 then ([], false)
        else
          let (us, ok) := utf8ToUtf16le len s
          (((c &&& 0x1f).toUInt16 <<< 6 ||| (c₁ &&& 0x3f).toUInt16) :: us, ok)
      | [] => ([], false)
    else if c &&& 0xf0 = 0xe0 then
      match s with
      | c₁ :: c₂ :: s =>
        let uchar := (c &&& 0x0f).toUInt16 <<< 12 ||| (c₁ &&& 0x3f).toUInt16 <<< 6 |||
          (c₂ &&& 0x3f).toUInt16
        if c₁ &&& 0xc0 ≠ 0x80 ∨ c₂ &&& 0xc0 ≠ 0x80 ∨ 0xd800 ≤ uchar ∧ uchar ≤ 0xdfff then
          ([], false)
        else
          let (us, ok) := utf8ToUtf16le len s
          (uchar :: us, ok)
      | _ => ([], false)
    else ([], false)

/-- The bytes of 16-bit units, least significant first. -/
def utf16leBytes (us : List UInt16) : List UInt8 :=
  us.flatMap fun u : UInt16 => [u.toUInt8, (u >>> 8).toUInt8]

/-- `usb_gadget_get_string(&stringtab, id, buf)`, with its result -/
def usbGadgetGetString (st : SetupStatics) (id : UInt8) (b : ReqBuf) :
    Except SetupFault (ℤ × ReqBuf) :=
  if id = 0 then (b.put 0 [4, 3, 0x09, 0x04]).bind fun b => .ok (4, b)
  else
    match st.strings.find? fun s => s.1 = id with
    | none => .ok (-einval, b)
    | some (_, s) =>
      let len := min 126 (strlen s)
      (b.memset 2 (2 * len)).bind fun b =>
        let (us, ok) := utf8ToUtf16le len s
        (b.put 2 (utf16leBytes us)).bind fun b =>
          if ok then
            let size := UInt8.ofNat ((us.length + 1) * 2)
            (b.put 0 [size, 3]).bind fun b => .ok (size.toNat, b)
          else .ok (-einval, b)

/-- `usb_descriptor_fillbuf(buf + start, ..)` with `off` as `dest` -/
def usbDescriptorFillbuf (start : ℕ) :
    ℕ → ℕ → List (List UInt8) → ReqBuf → Except SetupFault (ℤ × ReqBuf)
  | off, _, [], b => .ok (off - start, b)
  | off, buflen, src :: rest, b =>
    let len := (src.getD 0 0).toNat
    if buflen < len then .ok (-einval, b)
    else (b.memcpy off src len).bind fun b =>
      usbDescriptorFillbuf start (off + len) (buflen - len) rest b

/-- `USB_DT_CONFIG_SIZE` -/
def usbDtConfigSize : ℕ := 9

/-- `usb_gadget_config_buf(&config_desc1, buf, USB_DESC_BUFSIZE, ..)` -/
def usbGadgetConfigBuf (desc : List (List UInt8)) (b : ReqBuf) : Except SetupFault (ℤ × ReqBuf) :=
  (b.memcpy 0 configDesc1 usbDtConfigSize).bind fun b =>
  (usbDescriptorFillbuf usbDtConfigSize usbDtConfigSize (usbDescBufsize - usbDtConfigSize) desc
    b).bind fun (len, b) =>
  if len < 0 then .ok (len, b)
  else
    let len := len + usbDtConfigSize
    if 0xffff < len then .ok (-einval, b)
    else
      (b.put 0 [9, 2, UInt8.ofNat len.toNat, UInt8.ofNat (len.toNat / 256)]).bind fun b =>
      (b.put 7 [configDesc1.getD 7 0 ||| 0x80]).bind fun b => .ok (len, b)

/-- `config_buf1(speed, buf, type, index, is_otg)`; `DMX512_DUMMY` makes the speed irrelevant. -/
def configBuf1 (eps : DmxEps) (type : UInt8) (index : UInt16) (b : ReqBuf) :
    Except SetupFault (ℤ × ReqBuf) :=
  if 1 ≤ index then .ok (-einval, b)
  else
    (b.memset 0 usbDescBufsize).bind fun b =>
    (usbGadgetConfigBuf (dmxFunction eps) b).bind fun (len, b) =>
    if len < 0 then .ok (len, b) else (b.put 1 [type]).bind fun b => .ok (len, b)

/-! ## `scale_setup` -/

/-- `USB_TYPE_VENDOR` -/
def usbTypeVendor : UInt8 := 0x40

/-- `USB_DIR_IN` -/
def usbDirIn : UInt8 := 0x80

/-- `USB_REQ_GET_DESCRIPTOR` -/
def usbReqGetDescriptor : UInt8 := 0x06

/-- `USB_REQ_GET_CONFIGURATION` -/
def usbReqGetConfiguration : UInt8 := 0x08

/-- `USB_REQ_GET_INTERFACE` -/
def usbReqGetInterface : UInt8 := 0x0a

/-- `value`, `test_vendor` and the buffer at the end of the switch. -/
structure Reply where
  value : ℤ
  testVendor : ℕ
  buf : ReqBuf

/-- `value` keeps its first value. -/
def stall (b : ReqBuf) : Except SetupFault Reply := .ok ⟨-eopnotsupp, 0, b⟩

/-- `value = min(wLength, (u16) value)` for a `value` that is not negative -/
def cutValue (wLength : ℕ) (value : ℤ) : ℤ :=
  if 0 ≤ value then min (wLength : ℤ) (value % 65536) else value

namespace CtrlRequest

variable (ctrl : CtrlRequest)

/-- The case `USB_DT_STRING`. -/
def getString (st : SetupStatics) (b : ReqBuf) : Except SetupFault Reply :=
  (usbGadgetGetString st ctrl.wValue.toUInt8 b).bind fun (value, b) =>
  (if ctrl.wIndex = 0x0409 ∧ ctrl.wValue = 0x0301 then
    (b.memcpy 0 dmxString 32).bind fun b => .ok (32, 0, b)
  else if ctrl.wIndex = 0x0409 ∧ ctrl.wValue = 0x0302 then
    (b.memcpy 0 dmxString 32).bind fun b => .ok (32, 2, b)
  else .ok (value, 0, b)).bind fun (value, testVendor, b) =>
  .ok ⟨cutValue ctrl.wLength.toNat value, testVendor, b⟩

/-- The case `USB_REQ_GET_DESCRIPTOR`. -/
def getDescriptor (st : SetupStatics) (b : ReqBuf) : Except SetupFault Reply :=
  let wLength := ctrl.wLength.toNat
  if ctrl.bRequestType ≠ usbDirIn then
    (b.memcpy 0 reportDesc reportDesc.length).bind fun b =>
      .ok ⟨min wLength reportDesc.length, 0, b⟩
  else if ctrl.wValue >>> 8 = 1 then
    let value := min wLength st.deviceDesc.length
    (b.memcpy 0 st.deviceDesc value).bind fun b => .ok ⟨value, 0, b⟩
  else if ctrl.wValue >>> 8 = 2 then
    (configBuf1 st.dmxEps (ctrl.wValue >>> 8).toUInt8 (ctrl.wValue &&& 0xff) b).bind
      fun (value, b) => .ok ⟨cutValue wLength value, 0, b⟩
  else if ctrl.wValue >>> 8 = 3 then ctrl.getString st b
  else stall b

/-- A single byte is stored. -/
def replyByte (x : UInt8) (b : ReqBuf) : Except SetupFault Reply :=
  (b.put 0 [x]).bind fun b => .ok ⟨min ctrl.wLength.toNat 1, 0, b⟩

/-- The case `USB_TYPE_STANDARD`. -/
def standard (d : SetupDev) (st : SetupStatics) (r : EnableResults) (b : ReqBuf) :
    Except SetupFault Reply :=
  if ctrl.bRequest = usbReqGetDescriptor then ctrl.getDescriptor st b
  else if ctrl.bRequest = usbReqSetConfiguration then
    if ctrl.bRequestType ≠ 0 then stall b
    else .ok ⟨if ctrl.wValue = devConfigValue ∨ ctrl.wValue = 0 then 0 else -einval, 0, b⟩
  else if ctrl.bRequest = usbReqGetConfiguration then
    if ctrl.bRequestType ≠ usbDirIn then stall b else ctrl.replyByte d.config b
  else if ctrl.bRequest = usbReqSetInterface then
    if ctrl.bRequestType ≠ usbRecipInterface ∨ d.config = 0 then stall b
    else
      let d := if d.interface = scaleInterface then d.scaleResetInterface else d
      .ok ⟨(d.setScaleInterface r).2, 0, b⟩
  else if ctrl.bRequest = usbReqGetInterface then
    if ctrl.bRequestType ≠ usbDirIn ||| usbRecipInterface ∨ d.config = 0 then stall b
    else ctrl.replyByte (UInt8.ofInt d.interface) b
  else stall b

/-- The case `USB_TYPE_CLASS`. -/
def classReply (st : SetupStatics) (b : ReqBuf) : Except SetupFault Reply :=
  if ctrl.bRequest = 0 then
    if ctrl.wIndex >>> 8 ≠ 0 then stall b
    else (b.memcpy 0 st.pnpString st.pnpValue).bind fun b => .ok ⟨st.pnpValue, 0, b⟩
  else if ctrl.bRequest = 1 then
    if ctrl.wIndex ≠ 0 then stall b else ctrl.replyByte st.scaleStatus b
  else if ctrl.bRequest = 2 then
    if ctrl.wIndex ≠ 0 then stall b else .ok ⟨0, 0, b⟩
  else stall b

/-- The row of a vendor request. -/
def vendorRow : Option VendorRow :=
  vendorTable.find? fun row =>
    row.bRequest = ctrl.bRequest ∧ row.wValue = ctrl.wValue ∧ row.wIndex = ctrl.wIndex

/-- The case `USB_TYPE_VENDOR`. -/
def vendor (b : ReqBuf) : Except SetupFault Reply :=
  match ctrl.vendorRow with
  | none => stall b
  | some row =>
    let value := row.count.value ctrl.wLength.toNat
    (b.memcpy 0 row.response value).bind fun b => .ok ⟨value, if row.testVendor then 1 else 0, b⟩

/-- The switch of `scale_setup`. -/
def setupSwitch (d : SetupDev) (st : SetupStatics) (r : EnableResults) (b : ReqBuf) :
    Except SetupFault Reply :=
  let type := ctrl.bRequestType &&& usbTypeMask
  if type = usbTypeStandard then ctrl.standard d st r b
  else if type = usbTypeClass then ctrl.classReply st b
  else if type = usbTypeVendor then ctrl.vendor b
  else stall b

end CtrlRequest

/-- `dev->req` as it is queued on `ep0`. -/
structure Queued where
  length : ℕ
  zero : Bool
  buf : ReqBuf

/-- What `scale_setup` queues, and its return value; `queueResult` is the answer of
`usb_ep_queue`. -/
def setupReply (d : SetupDev) (st : SetupStatics) (ctrl : CtrlRequest) (r : EnableResults)
    (b : ReqBuf) (queueResult : ℤ) : Except SetupFault (Option Queued × ℤ) :=
  let wLength := ctrl.wLength.toNat
  (ctrl.setupSwitch d st r b).bind fun reply =>
  if 0 ≤ reply.value then
    let length := if reply.testVendor = 1 then 64 else if reply.testVendor = 2 then 32 else wLength
    let zero := reply.testVendor = 1 ∨ reply.value < wLength
    (reply.buf.memset reply.value.toNat (usbDescBufsize - reply.value)).bind fun b =>
      .ok (some ⟨length, zero, b⟩, if 0 ≤ queueResult then wLength else queueResult)
  else .ok (none, reply.value)

end LddExample.ScaleUsb
