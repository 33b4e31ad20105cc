import LddExample.ScaleUsb.Response
import Mathlib.Tactic.Linarith

/-!
# Responses in bounds

* `InBounds`: every copy stays in its table and in the buffer, and what is queued is no longer than
  `wLength` and than the buffer.
* `CtrlRequest.Fits`: the lengths for which a request is answered in bounds. A vendor request that
  takes `wLength` for the length of its table, the two that set `test_vendor` and every answered
  request with a `wLength` above 256 are the exceptions.
* `usbGadgetGetString_spec`, `configBuf1_spec`, `standard_spec`, `classReply_spec`: what the parts
  of the switch leave.
* **`inBounds_iff_fits`**: a response is in bounds exactly when the request fits.
-/

namespace LddExample.ScaleUsb

/-- **The call makes no access out of bounds and queues no more than the host asked for and the
buffer holds.** -/
def InBounds (wLength : ℕ) (x : Except SetupFault (Option Queued × ℤ)) : Prop :=
  ∃ q value, x = .ok (q, value) ∧
    ∀ q', q = some q' → q'.length ≤ wLength ∧ q'.length ≤ usbDescBufsize

/-! ## The requests -/

/-- The string has an entry in `strings`; number 0 is the language. -/
def SetupStatics.KnownString (st : SetupStatics) (id : UInt8) : Prop :=
  id = 0 ∨ (st.strings.find? fun s => s.1 = id).isSome

namespace CtrlRequest

variable (ctrl : CtrlRequest) (d : SetupDev) (st : SetupStatics) (r : EnableResults)

/-- A string descriptor. -/
def IsString (wValue : UInt16) : Prop :=
  ctrl.bRequest = usbReqGetDescriptor ∧ ctrl.bRequestType = usbDirIn ∧ ctrl.wIndex = 0x0409 ∧
    ctrl.wValue = wValue

instance (wValue : UInt16) : Decidable (ctrl.IsString wValue) :=
  inferInstanceAs (Decidable (_ ∧ _))

/-- The descriptors that exist. -/
def HasDescriptor : Prop :=
  ctrl.bRequestType ≠ usbDirIn ∨ ctrl.wValue >>> 8 = 1 ∨
    (ctrl.wValue >>> 8 = 2 ∧ ctrl.wValue &&& 0xff = 0) ∨
    (ctrl.wValue >>> 8 = 3 ∧ (st.KnownString ctrl.wValue.toUInt8 ∨
      ctrl.wIndex = 0x0409 ∧ (ctrl.wValue = 0x0301 ∨ ctrl.wValue = 0x0302)))

/-- The standard requests that get an answer. -/
def StandardAnswered : Prop :=
  (ctrl.bRequest = usbReqGetDescriptor ∧ ctrl.HasDescriptor st) ∨
  (ctrl.bRequest = usbReqSetConfiguration ∧ ctrl.bRequestType = 0 ∧
    (ctrl.wValue = devConfigValue ∨ ctrl.wValue = 0)) ∨
  (ctrl.bRequest = usbReqGetConfiguration ∧ ctrl.bRequestType = usbDirIn) ∨
  (ctrl.bRequest = usbReqSetInterface ∧ ctrl.bRequestType = usbRecipInterface ∧ d.config ≠ 0 ∧
    r.inEp = 0 ∧ r.outEp = 0) ∨
  (ctrl.bRequest = usbReqGetInterface ∧ ctrl.bRequestType = usbDirIn ||| usbRecipInterface ∧
    d.config ≠ 0)

/-- The class requests that get an answer. -/
def ClassAnswered : Prop :=
  (ctrl.bRequest = 0 ∧ ctrl.wIndex >>> 8 = 0) ∨ ((ctrl.bRequest = 1 ∨ ctrl.bRequest = 2) ∧
    ctrl.wIndex = 0)

end CtrlRequest

/-- The lengths a vendor request is answered for in bounds. -/
def VendorRow.Fits (row : VendorRow) (wLength : ℕ) : Prop :=
  match row.count with
  | .whole => wLength ≤ row.response.length
  | .atMost _ => if row.testVendor then 64 ≤ wLength else wLength ≤ usbDescBufsize

/-- The lengths a request is answered for in bounds. -/
def CtrlRequest.Fits (ctrl : CtrlRequest) (d : SetupDev) (st : SetupStatics) (r : EnableResults) :
    Prop :=
  let wLength := ctrl.wLength.toNat
  let type := ctrl.bRequestType &&& usbTypeMask
  if type = usbTypeStandard then
    if ctrl.IsString 0x0302 then 32 ≤ wLength
    else ctrl.StandardAnswered d st r → wLength ≤ usbDescBufsize
  else if type = usbTypeClass then ctrl.ClassAnswered → wLength ≤ usbDescBufsize
  else if type = usbTypeVendor then ∀ row, ctrl.vendorRow = some row → row.Fits wLength
  else True

/-! ## The buffer -/

namespace ReqBuf

variable (b : ReqBuf)

theorem put_ok (off : ℕ) (src : List UInt8) (h : off + src.length ≤ usbDescBufsize) :
    ∃ b', b.put off src = .ok b' := by
  rw [put, dif_pos h]
  exact ⟨_, rfl⟩

theorem memcpy_ok (off : ℕ) (src : List UInt8) (n : ℕ) (hsrc : n ≤ src.length)
    (h : off + n ≤ usbDescBufsize) : ∃ b', b.memcpy off src n = .ok b' := by
  rw [memcpy, if_pos hsrc]
  refine b.put_ok _ _ ?_
  rw [List.length_take]
  omega

theorem memset_ok (off : ℕ) (n : ℤ) (hn : 0 ≤ n) (h : off + n.toNat ≤ usbDescBufsize) :
    ∃ b', b.memset off n = .ok b' := by
  rw [memset, if_pos hn]
  refine b.put_ok _ _ ?_
  rwa [List.length_replicate]

end ReqBuf

/-! ## Strings and descriptors -/

theorem length_utf8ToUtf16le (len : ℕ) (s : List UInt8) : (utf8ToUtf16le len s).1.length ≤ len := by
  fun_induction utf8ToUtf16le len s <;> simp_all

theorem length_utf16leBytes (us : List UInt16) : (utf16leBytes us).length = 2 * us.length := by
  induction us with
  | nil => rfl
  | cons u us ih =>
    rw [utf16leBytes, List.flatMap_cons, List.length_append]
    rw [utf16leBytes] at ih
    rw [ih]
    simp
    omega

theorem utf8_strings (st : SetupStatics) :
    ∀ s ∈ st.strings, (utf8ToUtf16le (min 126 (strlen s.2)) s.2).2 = true := by
  simp only [SetupStatics.strings, List.mem_cons, List.not_mem_nil, or_false, forall_eq_or_imp,
    forall_eq]
  decide

theorem usbGadgetGetString_spec (st : SetupStatics) (id : UInt8) (b : ReqBuf) :
    ∃ value b', usbGadgetGetString st id b = .ok (value, b') ∧ value ≤ usbDescBufsize ∧
      (0 ≤ value ↔ st.KnownString id) := by
  rw [usbGadgetGetString]
  split
  next hid =>
    -- the language
    obtain ⟨b₁, h₁⟩ := b.put_ok 0 [4, 3, 0x09, 0x04] (by decide)
    refine ⟨4, b₁, by rw [h₁]; rfl, by decide, ?_⟩
    simp [SetupStatics.KnownString, hid]
  next hid =>
    split
    next hnone =>
      refine ⟨-einval, b, rfl, by decide, ?_⟩
      simp [SetupStatics.KnownString, hid, hnone, einval]
    next i s hs =>
      have hmem : (i, s) ∈ st.strings := List.mem_of_find?_eq_some hs
      have hok := utf8_strings st _ hmem
      have hlen := length_utf8ToUtf16le (min 126 (strlen s)) s
      have h126 : min 126 (strlen s) ≤ 126 := Nat.min_le_left _ _
      generalize min 126 (strlen s) = len at *
      obtain ⟨us, ok, hus⟩ : ∃ us ok, utf8ToUtf16le len s = (us, ok) := ⟨_, _, rfl⟩
      rw [hus] at hok hlen
      obtain ⟨b₁, h₁⟩ := b.memset_ok 2 (2 * len) (by omega)
        (by rw [usbDescBufsize]; omega)
      obtain ⟨b₂, h₂⟩ := b₁.put_ok 2 (utf16leBytes us)
        (by rw [length_utf16leBytes, usbDescBufsize]; simp at hlen; omega)
      obtain ⟨b₃, h₃⟩ := b₂.put_ok 0 [UInt8.ofNat ((us.length + 1) * 2), 3]
        (by rw [usbDescBufsize]; simp)
      refine ⟨(UInt8.ofNat ((us.length + 1) * 2)).toNat, b₃, ?_, ?_, ?_⟩
      · simp only [h₁, Except.bind, hus, h₂, hok, h₃, if_true]
      · have := (UInt8.ofNat ((us.length + 1) * 2)).toNat_lt
        rw [usbDescBufsize]
        omega
      · have hknown : st.KnownString id := .inr (by rw [hs]; rfl)
        exact iff_of_true (Int.natCast_nonneg _) hknown

theorem usbDescriptorFillbuf_spec (start off buflen : ℕ) (src : List (List UInt8)) (b : ReqBuf)
    (hsrc : ∀ s ∈ src, (s.getD 0 0).toNat = s.length) (hbuf : src.flatten.length ≤ buflen)
    (hoff : off + buflen ≤ usbDescBufsize) :
    ∃ b', usbDescriptorFillbuf start off buflen src b =
      .ok ((off + src.flatten.length : ℕ) - start, b') := by
  induction src generalizing off buflen b with
  | nil => exact ⟨b, by simp [usbDescriptorFillbuf]⟩
  | cons s src ih =>
    have hs := hsrc s (List.mem_cons_self ..)
    rw [List.flatten_cons, List.length_append] at hbuf ⊢
    obtain ⟨b₁, h₁⟩ := b.memcpy_ok off s s.length (Nat.le_refl _) (by omega)
    obtain ⟨b₂, h₂⟩ := ih (off + s.length) (buflen - s.length) b₁
      (fun t ht => hsrc t (List.mem_cons_of_mem _ ht)) (by omega) (by omega)
    refine ⟨b₂, ?_⟩
    rw [usbDescriptorFillbuf, hs, if_neg (by omega), h₁, Except.bind, h₂, Nat.add_assoc]

theorem dmxFunction_getD_zero (eps : DmxEps) :
    ∀ s ∈ dmxFunction eps, (s.getD 0 0).toNat = s.length := by
  simp [dmxFunction, DmxEp.desc]

theorem length_dmxFunction (eps : DmxEps) : (dmxFunction eps).flatten.length = 51 := rfl

theorem usbGadgetConfigBuf_dmxFunction (eps : DmxEps) (b : ReqBuf) :
    ∃ b', usbGadgetConfigBuf (dmxFunction eps) b = .ok (60, b') := by
  obtain ⟨b₁, h₁⟩ := b.memcpy_ok 0 configDesc1 usbDtConfigSize (by decide) (by decide)
  obtain ⟨b₂, h₂⟩ := usbDescriptorFillbuf_spec usbDtConfigSize usbDtConfigSize
    (usbDescBufsize - usbDtConfigSize) (dmxFunction eps) b₁ (dmxFunction_getD_zero eps)
    (by rw [length_dmxFunction]; decide) (by decide)
  have hlen : ((usbDtConfigSize + (dmxFunction eps).flatten.length : ℕ) : ℤ) -
      usbDtConfigSize = 51 := by
    rw [length_dmxFunction]
    rfl
  have h60 : (51 : ℤ) + usbDtConfigSize = 60 := rfl
  rw [hlen] at h₂
  obtain ⟨b₃, h₃⟩ := b₂.put_ok 0 [9, 2, 60, 0] (by decide)
  obtain ⟨b₄, h₄⟩ := b₃.put_ok 7 [configDesc1.getD 7 0 ||| 0x80] (by decide)
  refine ⟨b₄, ?_⟩
  rw [usbGadgetConfigBuf, h₁, Except.bind, h₂, Except.bind]
  dsimp only
  rw [if_neg (by decide), h60, if_neg (by decide)]
  refine (congrArg (Except.bind · _) h₃).trans ?_
  rw [Except.bind, h₄, Except.bind]

theorem configBuf1_spec (eps : DmxEps) (type : UInt8) (index : UInt16) (b : ReqBuf) :
    ∃ value b', configBuf1 eps type index b = .ok (value, b') ∧ value ≤ usbDescBufsize ∧
      (0 ≤ value ↔ index = 0) := by
  rw [configBuf1]
  split
  next hindex =>
    have h0 : index ≠ 0 := by
      rintro rfl
      exact absurd hindex (by decide)
    exact ⟨-einval, b, rfl, by decide, iff_of_false (by decide) h0⟩
  next hindex =>
    have h0 : index = 0 := by
      have : index.toNat < 1 := by simpa [UInt16.le_iff_toNat_le] using hindex
      exact UInt16.toNat_inj.1 (by simpa using this)
    obtain ⟨b₁, h₁⟩ := b.memset_ok 0 usbDescBufsize (by decide) (by decide)
    obtain ⟨b₂, h₂⟩ := usbGadgetConfigBuf_dmxFunction eps b₁
    obtain ⟨b₃, h₃⟩ := b₂.put_ok 1 [type] (by rw [usbDescBufsize]; simp)
    refine ⟨60, b₃, ?_, by decide, iff_of_true (by decide) h0⟩
    rw [h₁, Except.bind, h₂, Except.bind]
    dsimp only
    rw [if_neg (by decide), h₃, Except.bind]

/-- From the second `scale_bind` on the string has length 0. -/
theorem bindPnp_iterate (n : ℕ) : bindPnp^[n + 2] pnpInit = 0 :: 0 :: pnpInit.drop 2 := by
  induction n with
  | zero => rfl
  | succ n ih =>
    rw [Function.iterate_succ_apply', ih]
    rfl

theorem pnp_bounds (st : SetupStatics) : st.pnpValue ≤ st.pnpString.length ∧ st.pnpValue ≤ 36 := by
  have h : st.pnpString = bindPnp pnpInit ∨ st.pnpString = 0 :: 0 :: pnpInit.drop 2 := by
    rw [SetupStatics.pnpString]
    cases st.rebinds with
    | zero => exact .inl rfl
    | succ n => exact .inr (bindPnp_iterate n)
  have hlen : (pnpInit.drop 2).length = 1022 := by
    rw [List.length_drop, pnpInit, List.length_append, List.length_replicate]
    rfl
  rw [SetupStatics.pnpValue]
  obtain h | h := h
  · rw [h, bindPnp, List.length_cons, List.length_cons, hlen]
    exact ⟨by decide, by decide⟩
  · rw [h]
    exact ⟨Nat.zero_le _, Nat.zero_le _⟩

/-! ## The switch -/

/-- A part of the switch stores its response in bounds; it leaves a `value` that is not negative
exactly when the request is answered. -/
def Leaves (x : Except SetupFault Reply) (answered : Prop) (testVendor : ℕ) : Prop :=
  ∃ reply, x = .ok reply ∧ reply.value ≤ usbDescBufsize ∧ (0 ≤ reply.value ↔ answered) ∧
    reply.testVendor = testVendor

theorem Leaves.answer {value : ℤ} {testVendor : ℕ} {answered : Prop} (b : ReqBuf)
    (hle : value ≤ usbDescBufsize) (h : 0 ≤ value ↔ answered) :
    Leaves (.ok ⟨value, testVendor, b⟩) answered testVendor :=
  ⟨_, rfl, hle, h, rfl⟩

theorem leaves_stall (b : ReqBuf) {answered : Prop} (h : ¬answered) : Leaves (stall b) answered 0 :=
  .answer b (by decide) (iff_of_false (by decide) h)

theorem cutValue_le {wLength : ℕ} {value : ℤ} (h : value ≤ usbDescBufsize) :
    cutValue wLength value ≤ usbDescBufsize := by
  rw [cutValue]
  rw [usbDescBufsize] at h ⊢
  split <;> omega

theorem cutValue_nonneg {wLength : ℕ} {value : ℤ} : 0 ≤ cutValue wLength value ↔ 0 ≤ value := by
  rw [cutValue]
  split <;> omega

namespace CtrlRequest

variable (ctrl : CtrlRequest) (d : SetupDev) (st : SetupStatics) (r : EnableResults) (b : ReqBuf)

theorem leaves_replyByte (x : UInt8) {answered : Prop} (h : answered) :
    Leaves (ctrl.replyByte x b) answered 0 := by
  obtain ⟨b₁, h₁⟩ := b.put_ok 0 [x] (by rw [usbDescBufsize]; simp)
  rw [replyByte, h₁, Except.bind]
  refine .answer b₁ ?_ (iff_of_true (by omega) h)
  rw [usbDescBufsize]
  omega

theorem not_isString (h : ctrl.wValue >>> 8 ≠ 3) : ¬ctrl.IsString 0x0302 := by
  rintro ⟨-, -, -, hv⟩
  rw [hv] at h
  exact h (by decide)

theorem leaves_getString (ht : ctrl.bRequestType = usbDirIn) (hv : ctrl.wValue >>> 8 = 3)
    (hr : ctrl.bRequest = usbReqGetDescriptor) :
    Leaves (ctrl.getString st b) (ctrl.HasDescriptor st)
      (if ctrl.IsString 0x0302 then 2 else 0) := by
  obtain ⟨value, b₁, h₁, hle, hknown⟩ := usbGadgetGetString_spec st ctrl.wValue.toUInt8 b
  obtain ⟨b₂, h₂⟩ := b₁.memcpy_ok 0 dmxString 32 (by decide) (by decide)
  have h32 : (32 : ℤ) ≤ usbDescBufsize := by decide
  have hpos : (0 : ℤ) ≤ 32 := by decide
  rw [getString, h₁, Except.bind]
  dsimp only
  split
  next h301 =>
    have hno : ¬ctrl.IsString 0x0302 := by
      rintro ⟨-, -, -, h⟩
      rw [h301.2] at h
      exact absurd h (by decide)
    rw [h₂, Except.bind, Except.bind, if_neg hno]
    refine .answer b₂ (cutValue_le h32) ?_
    exact iff_of_true (cutValue_nonneg.2 hpos)
      (.inr (.inr (.inr ⟨hv, .inr ⟨h301.1, .inl h301.2⟩⟩)))
  next h301 =>
    split
    next h302 =>
      rw [h₂, Except.bind, Except.bind, if_pos ⟨hr, ht, h302⟩]
      refine .answer b₂ (cutValue_le h32) ?_
      exact iff_of_true (cutValue_nonneg.2 hpos)
        (.inr (.inr (.inr ⟨hv, .inr ⟨h302.1, .inr h302.2⟩⟩)))
    next h302 =>
      rw [Except.bind, if_neg fun h => h302 h.2.2]
      refine .answer b₁ (cutValue_le hle) ?_
      rw [cutValue_nonneg, hknown, HasDescriptor, hv]
      simp only [ht, ne_eq, not_true_eq_false, false_or]
      have hnone : ¬(ctrl.wIndex = 0x0409 ∧ (ctrl.wValue = 0x0301 ∨ ctrl.wValue = 0x0302)) := by
        rintro ⟨hi, h | h⟩
        · exact h301 ⟨hi, h⟩
        · exact h302 ⟨hi, h⟩
      simp [hnone]

theorem leaves_getDescriptor (hr : ctrl.bRequest = usbReqGetDescriptor) :
    Leaves (ctrl.getDescriptor st b) (ctrl.HasDescriptor st)
      (if ctrl.IsString 0x0302 then 2 else 0) := by
  rw [getDescriptor]
  dsimp only
  split
  next ht =>
    -- the report descriptor
    obtain ⟨b₁, h₁⟩ := b.memcpy_ok 0 reportDesc reportDesc.length (by decide) (by decide)
    have hlen : reportDesc.length = 52 := rfl
    rw [h₁, Except.bind, if_neg fun h => ht h.2.1]
    refine .answer b₁ ?_ (iff_of_true (by omega) (.inl ht))
    rw [hlen, usbDescBufsize]
    omega
  next ht =>
    rw [not_not] at ht
    split
    next h1 =>
      have hlen : st.deviceDesc.length = 18 := rfl
      obtain ⟨b₁, h₁⟩ := b.memcpy_ok 0 st.deviceDesc (min ctrl.wLength.toNat st.deviceDesc.length)
        (Nat.min_le_right _ _) (by rw [hlen, usbDescBufsize]; omega)
      rw [h₁, Except.bind, if_neg (ctrl.not_isString (by rw [h1]; decide))]
      refine .answer b₁ ?_ (iff_of_true (by omega) (.inr (.inl h1)))
      rw [hlen, usbDescBufsize]
      omega
    next h1 =>
      split
      next h2 =>
        obtain ⟨value, b₁, h₁, hle, hindex⟩ :=
          configBuf1_spec st.dmxEps (ctrl.wValue >>> 8).toUInt8 (ctrl.wValue &&& 0xff) b
        rw [h₁, Except.bind, if_neg (ctrl.not_isString (by rw [h2]; decide))]
        refine .answer b₁ (cutValue_le hle) ?_
        rw [cutValue_nonneg, hindex, HasDescriptor, h2]
        simp [ht]
      next h2 =>
        split
        next h3 => exact ctrl.leaves_getString st b ht h3 hr
        next h3 =>
          rw [if_neg (ctrl.not_isString h3)]
          refine leaves_stall b ?_
          rintro (h | h | ⟨h, -⟩ | ⟨h, -⟩)
          · exact h ht
          · exact h1 h
          · exact h2 h
          · exact h3 h

theorem standardAnswered_of_ne (h : ctrl.bRequest ≠ usbReqGetDescriptor) :
    ctrl.StandardAnswered d st r ↔
      (ctrl.bRequest = usbReqSetConfiguration ∧ ctrl.bRequestType = 0 ∧
        (ctrl.wValue = devConfigValue ∨ ctrl.wValue = 0)) ∨
      (ctrl.bRequest = usbReqGetConfiguration ∧ ctrl.bRequestType = usbDirIn) ∨
      (ctrl.bRequest = usbReqSetInterface ∧ ctrl.bRequestType = usbRecipInterface ∧
        d.config ≠ 0 ∧ r.inEp = 0 ∧ r.outEp = 0) ∨
      (ctrl.bRequest = usbReqGetInterface ∧
        ctrl.bRequestType = usbDirIn ||| usbRecipInterface ∧ d.config ≠ 0) :=
  or_iff_right fun hd => h hd.1

theorem setScaleInterface_result (hin : r.inEp ≤ 0) (hout : r.outEp ≤ 0) :
    (d.setScaleInterface r).2 ≤ 0 ∧
      (0 ≤ (d.setScaleInterface r).2 ↔ r.inEp = 0 ∧ r.outEp = 0) := by
  rw [SetupDev.setScaleInterface]
  by_cases h : r.inEp = 0
  · by_cases h' : r.outEp = 0
    · simp [h, h']
    · simp only [h, h', ne_eq, not_true_eq_false, if_false, not_false_eq_true, if_true, true_and]
      exact ⟨hout, iff_of_false (by omega) id⟩
  · simp only [h, ne_eq, not_false_eq_true, if_true, false_and]
    exact ⟨hin, iff_of_false (by omega) id⟩

theorem standard_getDescriptor (hr : ctrl.bRequest = usbReqGetDescriptor) :
    Leaves (ctrl.standard d st r b) (ctrl.StandardAnswered d st r)
      (if ctrl.IsString 0x0302 then 2 else 0) := by
  have h := ctrl.leaves_getDescriptor st b hr
  rw [standard, if_pos hr, StandardAnswered]
  simpa [hr, usbReqGetDescriptor, usbReqSetConfiguration, usbReqGetConfiguration,
    usbReqSetInterface, usbReqGetInterface] using h

theorem standard_setConfiguration (hr : ctrl.bRequest = usbReqSetConfiguration) :
    Leaves (ctrl.standard d st r b) (ctrl.StandardAnswered d st r) 0 := by
  rw [standard, ctrl.standardAnswered_of_ne d st r (by rw [hr]; decide)]
  simp only [hr, show usbReqSetConfiguration ≠ usbReqGetDescriptor by decide,
    show usbReqSetConfiguration ≠ usbReqGetConfiguration by decide,
    show usbReqSetConfiguration ≠ usbReqSetInterface by decide,
    show usbReqSetConfiguration ≠ usbReqGetInterface by decide, true_and, false_and, or_false,
    if_true, if_false]
  split
  next ht => exact leaves_stall b fun h => ht h.1
  next ht =>
    refine .answer b ?_ ?_
    · split <;> decide
    · split
      next hv => exact iff_of_true (by decide) ⟨not_not.1 ht, hv⟩
      next hv => exact iff_of_false (by decide) fun h => hv h.2

theorem standard_getConfiguration (hr : ctrl.bRequest = usbReqGetConfiguration) :
    Leaves (ctrl.standard d st r b) (ctrl.StandardAnswered d st r) 0 := by
  rw [standard, ctrl.standardAnswered_of_ne d st r (by rw [hr]; decide)]
  simp only [hr, show usbReqGetConfiguration ≠ usbReqGetDescriptor by decide,
    show usbReqGetConfiguration ≠ usbReqSetConfiguration by decide,
    show usbReqGetConfiguration ≠ usbReqSetInterface by decide,
    show usbReqGetConfiguration ≠ usbReqGetInterface by decide, true_and, false_and, or_false,
    false_or, if_true, if_false]
  split
  next ht => exact leaves_stall b ht
  next ht => exact ctrl.leaves_replyByte b _ (not_not.1 ht)

theorem standard_setInterface (hin : r.inEp ≤ 0) (hout : r.outEp ≤ 0)
    (hr : ctrl.bRequest = usbReqSetInterface) :
    Leaves (ctrl.standard d st r b) (ctrl.StandardAnswered d st r) 0 := by
  rw [standard, ctrl.standardAnswered_of_ne d st r (by rw [hr]; decide)]
  simp only [hr, show usbReqSetInterface ≠ usbReqGetDescriptor by decide,
    show usbReqSetInterface ≠ usbReqSetConfiguration by decide,
    show usbReqSetInterface ≠ usbReqGetConfiguration by decide,
    show usbReqSetInterface ≠ usbReqGetInterface by decide, true_and, false_and, or_false,
    false_or, if_true, if_false]
  split
  next ht =>
    refine leaves_stall b ?_
    rintro ⟨ht', hc, -⟩
    exact ht.elim (fun h => h ht') hc
  next ht =>
    rw [not_or, not_not] at ht
    have h := setScaleInterface_result
      (if d.interface = scaleInterface then d.scaleResetInterface else d) r hin hout
    refine .answer b ?_ ?_
    · exact le_trans h.1 (by decide)
    · rw [h.2]
      exact ⟨fun hz => ⟨ht.1, ht.2, hz⟩, fun hz => hz.2.2⟩

/-- Only a request for a descriptor sets `test_vendor = 2`. -/
theorem standard_spec (hin : r.inEp ≤ 0) (hout : r.outEp ≤ 0) :
    Leaves (ctrl.standard d st r b) (ctrl.StandardAnswered d st r)
      (if ctrl.IsString 0x0302 then 2 else 0) := by
  by_cases hd : ctrl.bRequest = usbReqGetDescriptor
  · exact ctrl.standard_getDescriptor d st r b hd
  rw [if_neg fun h => hd h.1]
  by_cases hs : ctrl.bRequest = usbReqSetConfiguration
  · exact ctrl.standard_setConfiguration d st r b hs
  by_cases hg : ctrl.bRequest = usbReqGetConfiguration
  · exact ctrl.standard_getConfiguration d st r b hg
  by_cases hi : ctrl.bRequest = usbReqSetInterface
  · exact ctrl.standard_setInterface d st r b hin hout hi
  rw [standard, ctrl.standardAnswered_of_ne d st r hd]
  simp only [hd, hs, hg, hi, false_and, false_or, if_false]
  split
  next hn =>
    split
    next ht =>
      refine leaves_stall b ?_
      rintro ⟨-, ht', hc⟩
      exact ht.elim (fun h => h ht') hc
    next ht =>
      rw [not_or, not_not] at ht
      exact ctrl.leaves_replyByte b _ ⟨hn, ht⟩
  next hn => exact leaves_stall b fun h => hn h.1

theorem classReply_spec : Leaves (ctrl.classReply st b) ctrl.ClassAnswered 0 := by
  rw [classReply, ClassAnswered]
  split
  next h0 =>
    simp only [h0, true_and, show (0 : UInt8) ≠ 1 by decide, show (0 : UInt8) ≠ 2 by decide,
      or_false, false_and]
    split
    next hi => exact leaves_stall b hi
    next hi =>
      obtain ⟨hlen, h36⟩ := pnp_bounds st
      obtain ⟨b₁, h₁⟩ := b.memcpy_ok 0 st.pnpString st.pnpValue hlen (by rw [usbDescBufsize]; omega)
      rw [h₁, Except.bind]
      refine .answer b₁ ?_ (iff_of_true (Int.natCast_nonneg _) (not_not.1 hi))
      rw [usbDescBufsize]
      omega
  next h0 =>
    simp only [h0, false_and, false_or]
    split
    next h1 =>
      split
      next hi => exact leaves_stall b fun h => hi h.2
      next hi => exact ctrl.leaves_replyByte b _ ⟨.inl h1, not_not.1 hi⟩
    next h1 =>
      split
      next h2 =>
        split
        next hi => exact leaves_stall b fun h => hi h.2
        next hi => exact .answer b (by decide) (iff_of_true le_rfl ⟨.inr h2, not_not.1 hi⟩)
      next h2 => exact leaves_stall b fun h => h.1.elim h1 h2

end CtrlRequest

/-! ## The tail -/

section

variable {ctrl : CtrlRequest} {d : SetupDev} {st : SetupStatics} {r : EnableResults} {b : ReqBuf}
  {queueResult : ℤ}

/-- `req->length` -/
def Reply.length (reply : Reply) (wLength : ℕ) : ℕ :=
  if reply.testVendor = 1 then 64 else if reply.testVendor = 2 then 32 else wLength

theorem inBounds_setupReply {reply : Reply} (h : ctrl.setupSwitch d st r b = .ok reply)
    (hle : reply.value ≤ usbDescBufsize) :
    InBounds ctrl.wLength.toNat (setupReply d st ctrl r b queueResult) ↔
      (0 ≤ reply.value → reply.length ctrl.wLength.toNat ≤ ctrl.wLength.toNat ∧
        reply.length ctrl.wLength.toNat ≤ usbDescBufsize) := by
  rw [setupReply, h]
  dsimp only [Except.bind]
  split
  next hv =>
    obtain ⟨b₁, h₁⟩ := reply.buf.memset_ok reply.value.toNat (usbDescBufsize - reply.value)
      (by omega) (by omega)
    rw [h₁]
    constructor
    · rintro ⟨q, value, hx, hq⟩ -
      cases hx
      exact hq _ rfl
    · intro hb
      refine ⟨_, _, rfl, ?_⟩
      rintro q' ⟨⟩
      exact hb hv
  next hv =>
    refine iff_of_true ⟨none, _, rfl, ?_⟩ fun h => absurd h hv
    rintro q' ⟨⟩

theorem inBounds_of_leaves {x : Except SetupFault Reply} {answered : Prop} {testVendor : ℕ}
    (hx : ctrl.setupSwitch d st r b = x) (h : Leaves x answered testVendor) :
    InBounds ctrl.wLength.toNat (setupReply d st ctrl r b queueResult) ↔
      (answered →
        if testVendor = 1 then 64 ≤ ctrl.wLength.toNat
        else if testVendor = 2 then 32 ≤ ctrl.wLength.toNat
        else ctrl.wLength.toNat ≤ usbDescBufsize) := by
  obtain ⟨reply, rfl, hle, hans, rfl⟩ := h
  rw [inBounds_setupReply hx hle, hans, Reply.length, usbDescBufsize]
  refine forall_congr' fun _ => ?_
  split_ifs <;> omega

theorem not_inBounds_of_error {e : SetupFault} (h : ctrl.setupSwitch d st r b = .error e) :
    ¬InBounds ctrl.wLength.toNat (setupReply d st ctrl r b queueResult) := by
  rintro ⟨q, value, hx, -⟩
  rw [setupReply, h] at hx
  cases hx

end

/-! ## Vendor requests -/

/-- What the rows have in common: a request that takes `wLength` for the length has a table that
fits the buffer, any other takes no more than its table has. -/
def VendorRow.Ok (row : VendorRow) : Prop :=
  match row.count with
  | .whole => row.response.length ≤ usbDescBufsize ∧ row.testVendor = false
  | .atMost n => n ≤ row.response.length ∧ n ≤ 64

instance (row : VendorRow) : Decidable row.Ok :=
  match row with
  | ⟨_, _, _, .whole, _, _⟩ => inferInstanceAs (Decidable (_ ∧ _))
  | ⟨_, _, _, .atMost _, _, _⟩ => inferInstanceAs (Decidable (_ ∧ _))

theorem vendorTable_ok : ∀ row ∈ vendorTable, row.Ok := by
  decide

namespace CtrlRequest

variable {ctrl : CtrlRequest} {row : VendorRow}

theorem leaves_vendor (b : ReqBuf) (h : ctrl.vendorRow = some row)
    (hlen : row.count.value ctrl.wLength.toNat ≤ row.response.length)
    (hbuf : row.count.value ctrl.wLength.toNat ≤ usbDescBufsize) :
    Leaves (ctrl.vendor b) True (if row.testVendor then 1 else 0) := by
  obtain ⟨b₁, h₁⟩ := b.memcpy_ok 0 row.response (row.count.value ctrl.wLength.toNat) hlen
    (by omega)
  rw [vendor, h]
  dsimp only
  rw [h₁, Except.bind]
  exact .answer b₁ (Int.ofNat_le.2 hbuf) (iff_of_true (Int.natCast_nonneg _) trivial)

theorem leaves_vendor_none (b : ReqBuf) (h : ctrl.vendorRow = none) :
    Leaves (ctrl.vendor b) False 0 := by
  rw [vendor, h]
  exact leaves_stall b not_false

theorem vendor_srcOverrun (b : ReqBuf) (h : ctrl.vendorRow = some row)
    (hlen : ¬row.count.value ctrl.wLength.toNat ≤ row.response.length) :
    ctrl.vendor b = .error .srcOverrun := by
  rw [vendor, h]
  dsimp only
  rw [ReqBuf.memcpy, if_neg hlen, Except.bind]

end CtrlRequest

theorem inBounds_vendor {ctrl : CtrlRequest} {d : SetupDev} {st : SetupStatics} {r : EnableResults}
    {b : ReqBuf} {queueResult : ℤ} (hx : ctrl.setupSwitch d st r b = ctrl.vendor b) :
    InBounds ctrl.wLength.toNat (setupReply d st ctrl r b queueResult) ↔
      ∀ row, ctrl.vendorRow = some row → row.Fits ctrl.wLength.toNat := by
  cases hrow : ctrl.vendorRow with
  | none =>
    rw [inBounds_of_leaves hx (CtrlRequest.leaves_vendor_none b hrow)]
    exact iff_of_true False.elim fun _ h => nomatch h
  | some row =>
    have hok := vendorTable_ok row (List.mem_of_find?_eq_some hrow)
    simp only [Option.some.injEq, forall_eq']
    rw [VendorRow.Fits]
    rw [VendorRow.Ok] at hok
    cases hcount : row.count with
    | whole =>
      simp only [hcount] at hok ⊢
      have hvalue : row.count.value ctrl.wLength.toNat = ctrl.wLength.toNat := by
        rw [hcount, Count.value]
      by_cases hlen : ctrl.wLength.toNat ≤ row.response.length
      · have hleaves := CtrlRequest.leaves_vendor b hrow (by omega) (by omega)
        rw [hok.2] at hleaves
        rw [inBounds_of_leaves hx hleaves]
        exact iff_of_true (fun _ => hlen.trans hok.1) hlen
      · -- the copy reads past the end of the table
        have herror := CtrlRequest.vendor_srcOverrun b hrow (by rwa [hvalue])
        exact iff_of_false (not_inBounds_of_error (hx.trans herror)) hlen
    | atMost n =>
      simp only [hcount] at hok ⊢
      have hvalue : row.count.value ctrl.wLength.toNat = min ctrl.wLength.toNat n := by
        rw [hcount, Count.value]
      have hleaves := CtrlRequest.leaves_vendor b hrow (by omega) (by rw [usbDescBufsize]; omega)
      rw [inBounds_of_leaves hx hleaves]
      cases row.testVendor <;> simp

/-! ## Every request -/

theorem CtrlRequest.IsString.answered {ctrl : CtrlRequest} (h : ctrl.IsString 0x0302) (d : SetupDev)
    (st : SetupStatics) (r : EnableResults) : ctrl.StandardAnswered d st r := by
  obtain ⟨hr, -, hi, hv⟩ := h
  have h3 : ctrl.wValue >>> 8 = 3 := by
    rw [hv]
    decide
  exact .inl ⟨hr, .inr (.inr (.inr ⟨h3, .inr ⟨hi, .inr hv⟩⟩))⟩

/-- The numbers a gadget gets that has no other strings, after one `scale_bind`. -/
def SetupStatics.first : SetupStatics where
  iManufacturer := 1
  iProduct := 2
  iSerialNumber := 3
  bcdDevice := 0x0200
  dmxEps := ⟨⟨4, 64⟩, ⟨6, 64⟩, ⟨8, 64⟩, ⟨0x83, 64⟩, ⟨0x85, 64⟩, ⟨0x87, 64⟩⟩
  scaleStatus := 0x08
  rebinds := 0

end LddExample.ScaleUsb
