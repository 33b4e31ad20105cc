import LddExample.Composite.Descriptors
import LddExample.ScaleUsb.ResponseBounds
import Mathlib.Data.Finset.Card
import Mathlib.Data.List.TakeWhile

/-!
# String descriptors

String number zero lists the languages of all string tables of the device; any other number is
looked up in the tables of the language asked for, unless the driver overrides it. A text is kept as
UTF-8 and sent as UTF-16.

* `Encodes u s`: the bytes that stand for the unit `u`; longer forms than needed are among them.
* **`utf8ToUtf16le_iff`**: the conversion succeeds exactly on texts of such forms, and gives their
  units.
* `utf8`, `encodes_utf8`: the usual form of a character of the basic plane.
* `collectLangs`, `lookupString`, `getString`: the functions of the framework.
* **`languages_listed`**: up to 126 languages are listed, each once; with more the reply is empty.
* **`text_sent`**: the host reads the text of the first table of the language that has the number.
-/

namespace LddExample.Composite

open ScaleUsb (utf8ToUtf16le utf16leBytes strlen)

/-! ## Texts -/

/-- The forms of a unit that `utf8_to_utf16le` takes. -/
inductive Encodes : UInt16 → List UInt8 → Prop
  | one (c : UInt8) (hc : c ≠ 0) (hlow : c &&& 0x80 = 0) : Encodes c.toUInt16 [c]
  | two (c c₁ : UInt8) (hc : c &&& 0xe0 = 0xc0) (hc₁ : c₁ &&& 0xc0 = 0x80) :
    Encodes ((c &&& 0x1f).toUInt16 <<< 6 ||| (c₁ &&& 0x3f).toUInt16) [c, c₁]
  | three (c c₁ c₂ : UInt8) (u : UInt16) (hc : c &&& 0xf0 = 0xe0) (hc₁ : c₁ &&& 0xc0 = 0x80)
    (hc₂ : c₂ &&& 0xc0 = 0x80) (hu : u = (c &&& 0x0f).toUInt16 <<< 12 |||
      (c₁ &&& 0x3f).toUInt16 <<< 6 ||| (c₂ &&& 0x3f).toUInt16) (hs : ¬(0xd800 ≤ u ∧ u ≤ 0xdfff)) :
    Encodes u [c, c₁, c₂]

/-- The units of a text, up to `len`; `rest` is what is not looked at. -/
inductive Decodes : ℕ → List UInt8 → List UInt16 → Prop
  | full (s : List UInt8) : Decodes 0 s []
  | nil (len : ℕ) : Decodes len [] []
  | stop (len : ℕ) (s : List UInt8) : Decodes len (0 :: s) []
  | unit {len : ℕ} {u : UInt16} {b s : List UInt8} {us : List UInt16} (hu : Encodes u b)
    (hs : Decodes len s us) : Decodes (len + 1) (b ++ s) (u :: us)

theorem lead_two : ∀ c : UInt8, c &&& 0xe0 = 0xc0 → c ≠ 0 ∧ c &&& 0x80 ≠ 0 := by
  have hall : ∀ n : Fin 256, UInt8.ofFin n &&& 0xe0 = 0xc0 →
      UInt8.ofFin n ≠ 0 ∧ UInt8.ofFin n &&& 0x80 ≠ 0 := by
    decide +kernel
  exact fun c => hall c.toFin

theorem lead_three : ∀ c : UInt8, c &&& 0xf0 = 0xe0 →
    c ≠ 0 ∧ c &&& 0x80 ≠ 0 ∧ c &&& 0xe0 ≠ 0xc0 := by
  have hall : ∀ n : Fin 256, UInt8.ofFin n &&& 0xf0 = 0xe0 →
      UInt8.ofFin n ≠ 0 ∧ UInt8.ofFin n &&& 0x80 ≠ 0 ∧ UInt8.ofFin n &&& 0xe0 ≠ 0xc0 := by
    decide +kernel
  exact fun c => hall c.toFin

theorem utf8ToUtf16le_one {c : UInt8} (hc : c ≠ 0) (hlow : c &&& 0x80 = 0) (len : ℕ)
    (s : List UInt8) : utf8ToUtf16le (len + 1) (c :: s) =
      (c.toUInt16 :: (utf8ToUtf16le len s).1, (utf8ToUtf16le len s).2) := by
  rw [ScaleUsb.utf8ToUtf16le.eq_def]
  dsimp only
  rw [if_neg hc, if_pos hlow]

theorem utf8ToUtf16le_two {c c₁ : UInt8} (hc : c &&& 0xe0 = 0xc0) (hc₁ : c₁ &&& 0xc0 = 0x80)
    (len : ℕ) (s : List UInt8) : utf8ToUtf16le (len + 1) (c :: c₁ :: s) =
      (((c &&& 0x1f).toUInt16 <<< 6 ||| (c₁ &&& 0x3f).toUInt16) :: (utf8ToUtf16le len s).1,
        (utf8ToUtf16le len s).2) := by
  obtain ⟨hne, hhigh⟩ := lead_two c hc
  rw [ScaleUsb.utf8ToUtf16le.eq_def]
  dsimp only
  rw [if_neg hne, if_neg hhigh, if_pos hc, if_neg (not_not.mpr hc₁)]

theorem utf8ToUtf16le_three {c c₁ c₂ : UInt8} {u : UInt16} (hc : c &&& 0xf0 = 0xe0)
    (hc₁ : c₁ &&& 0xc0 = 0x80) (hc₂ : c₂ &&& 0xc0 = 0x80) (hu : u = (c &&& 0x0f).toUInt16 <<< 12 |||
      (c₁ &&& 0x3f).toUInt16 <<< 6 ||| (c₂ &&& 0x3f).toUInt16) (hs : ¬(0xd800 ≤ u ∧ u ≤ 0xdfff))
    (len : ℕ) (s : List UInt8) : utf8ToUtf16le (len + 1) (c :: c₁ :: c₂ :: s) =
      (u :: (utf8ToUtf16le len s).1, (utf8ToUtf16le len s).2) := by
  obtain ⟨hne, hhigh, htwo⟩ := lead_three c hc
  rw [ScaleUsb.utf8ToUtf16le.eq_def]
  dsimp only
  rw [if_neg hne, if_neg hhigh, if_neg htwo, if_pos hc, ← hu, if_neg]
  rintro (h | h | h)
  · exact h hc₁
  · exact h hc₂
  · exact hs h

theorem utf8ToUtf16le_unit {u : UInt16} {b : List UInt8} (hu : Encodes u b) (len : ℕ)
    (s : List UInt8) : utf8ToUtf16le (len + 1) (b ++ s) =
      (u :: (utf8ToUtf16le len s).1, (utf8ToUtf16le len s).2) := by
  cases hu with
  | one c hc hlow => exact utf8ToUtf16le_one hc hlow len s
  | two c c₁ hc hc₁ => exact utf8ToUtf16le_two hc hc₁ len s
  | three c c₁ c₂ u hc hc₁ hc₂ hu hs => exact utf8ToUtf16le_three hc hc₁ hc₂ hu hs len s

theorem Decodes.utf8ToUtf16le_eq {len : ℕ} {s : List UInt8} {us : List UInt16}
    (h : Decodes len s us) : utf8ToUtf16le len s = (us, true) := by
  induction h with
  | full s => cases s <;> rfl
  | nil len => cases len <;> rfl
  | stop len s => cases len <;> rfl
  | unit hu _ ih => rw [utf8ToUtf16le_unit hu, ih]

theorem decodes_of_utf8ToUtf16le (len : ℕ) (s : List UInt8)
    (h : (utf8ToUtf16le len s).2 = true) : Decodes len s (utf8ToUtf16le len s).1 := by
  fun_induction utf8ToUtf16le len s with
  | case1 s => exact .full s
  | case2 len => exact .nil len
  | case3 len s => exact .stop _ s
  | case4 len c s hc hlow us ok hrest ih =>
    rw [hrest] at ih
    exact .unit (.one c hc hlow) (ih h)
  | case5 => cases h
  | case6 len c _ _ hc c₁ s hc₁ us ok hrest ih =>
    rw [hrest] at ih
    exact .unit (.two c c₁ hc (not_not.mp hc₁)) (ih h)
  | case7 => cases h
  | case8 => cases h
  | case9 len c _ _ _ hc c₁ c₂ s u hu us ok hrest ih =>
    rw [hrest] at ih
    rw [not_or, not_or, not_not, not_not] at hu
    exact .unit (.three c c₁ c₂ u hc hu.1 hu.2.1 rfl hu.2.2) (ih h)
  | case10 => cases h
  | case11 => cases h

/-- **The conversion is exact.** -/
theorem utf8ToUtf16le_iff (len : ℕ) (s : List UInt8) (us : List UInt16) :
    utf8ToUtf16le len s = (us, true) ↔ Decodes len s us := by
  constructor
  · intro h
    have hdecodes := decodes_of_utf8ToUtf16le len s (by rw [h])
    rwa [h] at hdecodes
  · exact Decodes.utf8ToUtf16le_eq

/-! ## Characters of the basic plane -/

/-- The usual form of a unit. -/
def utf8 (u : UInt16) : List UInt8 :=
  let n := u.toNat
  if n < 0x80 then [UInt8.ofNat n]
  else if n < 0x800 then [UInt8.ofNat (0xc0 + n / 64), UInt8.ofNat (0x80 + n % 64)]
  else [UInt8.ofNat (0xe0 + n / 4096), UInt8.ofNat (0x80 + n / 64 % 64),
    UInt8.ofNat (0x80 + n % 64)]

/-- Not the end of the text and no half of a pair. -/
def Plain (u : UInt16) : Prop := u ≠ 0 ∧ ¬(0xd800 ≤ u ∧ u ≤ 0xdfff)

theorem low_byte : ∀ n < 64, UInt8.ofNat (0x80 + n) &&& 0xc0 = 0x80 ∧
    (UInt8.ofNat (0x80 + n) &&& 0x3f).toUInt16 = UInt16.ofNat n := by
  decide +kernel

theorem two_byte : ∀ n < 32, UInt8.ofNat (0xc0 + n) &&& 0xe0 = 0xc0 ∧
    (UInt8.ofNat (0xc0 + n) &&& 0x1f).toUInt16 = UInt16.ofNat n := by
  decide +kernel

theorem three_byte : ∀ n < 16, UInt8.ofNat (0xe0 + n) &&& 0xf0 = 0xe0 ∧
    (UInt8.ofNat (0xe0 + n) &&& 0x0f).toUInt16 = UInt16.ofNat n := by
  decide +kernel

theorem one_byte : ∀ n < 128, n ≠ 0 → UInt8.ofNat n ≠ 0 ∧ UInt8.ofNat n &&& 0x80 = 0 ∧
    (UInt8.ofNat n).toUInt16 = UInt16.ofNat n := by
  decide +kernel

theorem shift_or (k : UInt16) {a b : ℕ} (hb : b < 2 ^ (k.toNat % 16))
    (ha : a * 2 ^ (k.toNat % 16) + b < 65536) :
    UInt16.ofNat a <<< k ||| UInt16.ofNat b = UInt16.ofNat (a * 2 ^ (k.toNat % 16) + b) := by
  have hpos : 0 < 2 ^ (k.toNat % 16) := Nat.two_pow_pos _
  have hle : a ≤ a * 2 ^ (k.toNat % 16) := Nat.le_mul_of_pos_right a hpos
  have hnat : ∀ n, n < 65536 → (UInt16.ofNat n).toNat = n := fun n hn => by
    rw [UInt16.toNat_ofNat']
    exact Nat.mod_eq_of_lt hn
  apply UInt16.toNat_inj.mp
  rw [UInt16.toNat_or, UInt16.toNat_shiftLeft, hnat a (by omega), hnat b (by omega), hnat _ ha,
    Nat.shiftLeft_eq, Nat.mod_eq_of_lt (by omega), Nat.mul_comm a, Nat.two_pow_add_eq_or_of_lt hb]

theorem encodes_utf8 {u : UInt16} (hu : Plain u) : Encodes u (utf8 u) := by
  have hlt : u.toNat < 65536 := u.toNat_lt_size
  have hself : UInt16.ofNat u.toNat = u := UInt16.ofNat_toNat
  rw [utf8]
  split_ifs with hone htwo
  · have hne : u.toNat ≠ 0 := fun h => hu.1 (UInt16.toNat_inj.mp h)
    obtain ⟨hc, hlow, hunit⟩ := one_byte u.toNat hone hne
    have henc := Encodes.one _ hc hlow
    rwa [hunit, hself] at henc
  · obtain ⟨hc, hhigh⟩ := two_byte (u.toNat / 64) (by omega)
    obtain ⟨hc₁, hlow⟩ := low_byte (u.toNat % 64) (by omega)
    have henc := Encodes.two _ _ hc hc₁
    have hor := shift_or 6 (a := u.toNat / 64) (b := u.toNat % 64) (Nat.mod_lt _ (by decide)) (by
      change u.toNat / 64 * 64 + _ < _
      omega)
    rw [hhigh, hlow, hor] at henc
    have hsum : u.toNat / 64 * 2 ^ (UInt16.toNat 6 % 16) + u.toNat % 64 = u.toNat :=
      Nat.div_add_mod' u.toNat 64
    rwa [hsum, hself] at henc
  · obtain ⟨hc, hhigh⟩ := three_byte (u.toNat / 4096) (by omega)
    obtain ⟨hc₁, hmid⟩ := low_byte (u.toNat / 64 % 64) (by omega)
    obtain ⟨hc₂, hlow⟩ := low_byte (u.toNat % 64) (by omega)
    refine .three _ _ _ u hc hc₁ hc₂ ?_ hu.2
    have hor := shift_or 6 (a := u.toNat / 64 % 64) (b := u.toNat % 64) (Nat.mod_lt _ (by decide))
      (by
        change u.toNat / 64 % 64 * 64 + _ < _
        omega)
    have hor' := shift_or 12 (a := u.toNat / 4096) (b := u.toNat % 4096) (Nat.mod_lt _ (by decide))
      (by
        change u.toNat / 4096 * 4096 + _ < _
        omega)
    have hsum : u.toNat / 64 % 64 * 2 ^ (UInt16.toNat 6 % 16) + u.toNat % 64 = u.toNat % 4096 := by
      change u.toNat / 64 % 64 * 64 + _ = _
      omega
    have hsum' : u.toNat / 4096 * 2 ^ (UInt16.toNat 12 % 16) + u.toNat % 4096 = u.toNat :=
      Nat.div_add_mod' u.toNat 4096
    rw [hsum] at hor
    rw [hsum', hself] at hor'
    rw [hhigh, hmid, hlow, UInt16.or_assoc, hor, hor']

theorem decodes_utf8 (len : ℕ) (us : List UInt16) (hus : ∀ u ∈ us, Plain u) :
    Decodes len (us.flatMap utf8) (us.take len) := by
  induction us generalizing len with
  | nil =>
    rw [List.take_nil]
    exact .nil len
  | cons u us ih =>
    cases len with
    | zero => exact .full _
    | succ len =>
      exact .unit (encodes_utf8 (hus u List.mem_cons_self))
        (ih len fun v hv => hus v (List.mem_cons_of_mem u hv))

/-! ## `usbstring.c` and `composite.c` -/

/-- `USB_DT_STRING` -/
def usbDtString : UInt8 := 0x03

/-- `usb_gadget_get_string`: the bytes of the descriptor -/
def usbGadgetGetString (table : UsbGadgetStrings) (id : UInt8) : Except ℤ (List UInt8) :=
  if id = 0 then
    .ok ([4, usbDtString] ++ utf16leBytes [table.language])
  else
    match table.strings.find? fun s => s.1 == id with
    | none => .error (-einval)
    | some (_, s) =>
      match utf8ToUtf16le (min 126 (strlen s)) s with
      | (us, true) => .ok ([UInt8.ofNat ((us.length + 1) * 2), usbDtString] ++ utf16leBytes us)
      | (_, false) => .error (-einval)

/-- The inner loop of `collect_langs` from a cell on; `n` cells are before `&buf[126]`. -/
def collectLang (language : UInt16) : ℕ → List UInt16 → List UInt16
  | _, [] => []
  | 0, _ :: buf => language :: buf
  | n + 1, w :: buf =>
    if w = 0 then language :: buf
    else if w = language then w :: buf
    else w :: collectLang language n buf

/-- `collect_langs` -/
def collectLangs (sp : List UsbGadgetStrings) (buf : List UInt16) : List UInt16 :=
  sp.foldl (fun buf s => collectLang s.language 126 buf) buf

/-- `lookup_string` -/
def lookupString (sp : List UsbGadgetStrings) (language : UInt16) (id : UInt8) :
    Option (List UInt8) :=
  sp.findSome? fun s => if s.language ≠ language then none else (usbGadgetGetString s id).toOption

/-- The string tables of a device, and the texts that the driver puts in the place of others: each
with its number, `NULL` as `none`. -/
structure DeviceStrings where
  strings : List UsbGadgetStrings
  overrides : List (UInt8 × Option (List UInt8))
deriving DecidableEq

variable (fns : ℕ → UsbFunction)

/-- The arrays of tables in the order in which they are visited. -/
def DeviceStrings.arrays (d : DeviceStrings) (configs : List Configuration) :
    List (List UsbGadgetStrings) :=
  d.strings :: configs.flatMap fun c => c.strings :: c.functions.map fun f => (fns f).strings

/-- The answer for string number zero, with the languages in the cells of `s->wData`. -/
def languageReply (wData : List UInt16) : Except ℤ (List UInt8) :=
  let langs := wData.takeWhile (· ≠ 0)
  if langs.length = 0 then
    .error (-einval)
  else
    let bLength := UInt8.ofNat (2 * (langs.length + 1))
    .ok (([bLength, usbDtString] ++ utf16leBytes wData).take bLength.toNat)

/-- `get_string` for the identifier 0. -/
def getLanguages (arrays : List (List UsbGadgetStrings)) : Except ℤ (List UInt8) :=
  languageReply (arrays.foldl (fun buf sp => collectLangs sp buf) (List.replicate 127 0))

/-- `get_string` -/
def getString (d : DeviceStrings) (configs : List Configuration) (language : UInt16) (id : UInt8) :
    Except ℤ (List UInt8) :=
  if id = 0 then
    getLanguages (d.arrays fns configs)
  else
    match (d.overrides.find? fun o => o.1 == id).bind (·.2) with
    | some str => usbGadgetGetString ⟨language, [(0xff, str)]⟩ 0xff
    | none =>
      match (d.arrays fns configs).findSome? fun sp => lookupString sp language id with
      | some reply => .ok reply
      | none => .error (-einval)

/-! ## Languages -/

/-- The cells of the buffer: languages and then zeros. -/
def cells (l : List UInt16) : List UInt16 := l ++ List.replicate (127 - l.length) 0

theorem collectLang_append (language : UInt16) (l rest : List UInt16) (n : ℕ) (hl : ∀ w ∈ l, w ≠ 0)
    (hn : l.length ≤ n) :
    collectLang language n (l ++ 0 :: rest) =
      if language ∈ l then l ++ 0 :: rest else l ++ language :: rest := by
  induction l generalizing n with
  | nil =>
    cases n with
    | zero => rfl
    | succ n => rw [List.nil_append, collectLang, if_pos rfl]; simp
  | cons w l ih =>
    obtain ⟨n, rfl⟩ : ∃ m, n = m + 1 := ⟨n - 1, by rw [List.length_cons] at hn; omega⟩
    rw [List.cons_append, collectLang, if_neg (hl w List.mem_cons_self)]
    by_cases hw : w = language
    · rw [if_pos hw, if_pos (by simp [hw])]
    · rw [if_neg hw, ih n (fun v hv => hl v (List.mem_cons_of_mem w hv)) (by simpa using hn)]
      by_cases hmem : language ∈ l
      · rw [if_pos hmem, if_pos (List.mem_cons_of_mem w hmem)]
      · rw [if_neg hmem, if_neg (by simp [hmem, Ne.symm hw])]
        rfl

/-- Before the buffer is full, a language that is new goes behind the others. -/
theorem collectLang_cells (language : UInt16) (l : List UInt16) (hl : ∀ w ∈ l, w ≠ 0)
    (hlen : l.length ≤ 126) : collectLang language 126 (cells l) =
      cells (if language = 0 ∨ language ∈ l then l else l ++ [language]) := by
  have hcells : cells l = l ++ 0 :: List.replicate (126 - l.length) 0 := by
    rw [cells, show 127 - l.length = 126 - l.length + 1 by omega, List.replicate_succ]
  rw [hcells, collectLang_append language l _ 126 hl hlen]
  by_cases hmem : language ∈ l
  · rw [if_pos hmem, if_pos (.inr hmem), hcells]
  · rw [if_neg hmem]
    by_cases hzero : language = 0
    · rw [if_pos (.inl hzero), hcells, hzero]
    · rw [if_neg (by simp [hmem, hzero]), cells, List.append_assoc, List.length_append]
      simp

theorem collectLang_nonzero {language : UInt16} (hlang : language ≠ 0) (n : ℕ) (buf : List UInt16)
    (hbuf : ∀ w ∈ buf, w ≠ 0) : (∀ w ∈ collectLang language n buf, w ≠ 0) ∧
      (collectLang language n buf).length = buf.length := by
  induction buf generalizing n with
  | nil => cases n <;> exact ⟨hbuf, rfl⟩
  | cons w buf ih =>
    have hrest : ∀ v ∈ buf, v ≠ 0 := fun v hv => hbuf v (List.mem_cons_of_mem w hv)
    have hw : w ≠ 0 := hbuf w List.mem_cons_self
    cases n with
    | zero => exact ⟨List.forall_mem_cons.mpr ⟨hlang, hrest⟩, rfl⟩
    | succ n =>
      rw [collectLang, if_neg hw]
      split_ifs with heq
      · exact ⟨hbuf, rfl⟩
      · obtain ⟨hnz, hlen⟩ := ih n hrest
        exact ⟨List.forall_mem_cons.mpr ⟨hw, hnz⟩, by rw [List.length_cons, hlen]; rfl⟩

/-- The languages of tables that are not zero. -/
def languages (langs : List UInt16) : Finset UInt16 := langs.toFinset.erase 0

/-- The buffer after the languages `langs`: each of them once, or too many. -/
def Collected (langs buf : List UInt16) : Prop :=
  (∃ l : List UInt16, l.Nodup ∧ l.length ≤ 126 ∧ l.toFinset = languages langs ∧ buf = cells l) ∨
    126 < (languages langs).card ∧ (0 ∉ langs → buf.length = 127 ∧ ∀ w ∈ buf, w ≠ 0)

theorem mem_languages {langs : List UInt16} {w : UInt16} :
    w ∈ languages langs ↔ w ≠ 0 ∧ w ∈ langs := by
  rw [languages, Finset.mem_erase, List.mem_toFinset]

theorem languages_append_self {langs : List UInt16} {w : UInt16}
    (hw : w = 0 ∨ w ∈ languages langs) : languages (langs ++ [w]) = languages langs := by
  ext v
  simp only [mem_languages, List.mem_append, List.mem_singleton] at hw ⊢
  obtain rfl | hw := hw
  · tauto
  · constructor
    · rintro ⟨hv, h | rfl⟩
      · exact ⟨hv, h⟩
      · exact hw
    · exact fun h => ⟨h.1, .inl h.2⟩

theorem languages_append_new {langs : List UInt16} {w : UInt16} (hw : w ≠ 0) :
    languages (langs ++ [w]) = insert w (languages langs) := by
  ext v
  simp only [mem_languages, List.mem_append, List.mem_singleton, Finset.mem_insert]
  constructor
  · rintro ⟨hv, h | rfl⟩
    · exact .inr ⟨hv, h⟩
    · exact .inl rfl
  · rintro (rfl | h)
    · exact ⟨hw, .inr rfl⟩
    · exact ⟨h.1, .inl h.2⟩

/-- **One table.** -/
theorem Collected.step {langs buf : List UInt16} (h : Collected langs buf) (language : UInt16) :
    Collected (langs ++ [language]) (collectLang language 126 buf) := by
  obtain ⟨l, hnodup, hlen, hset, rfl⟩ | ⟨hcard, hfull⟩ := h
  · have hmem : ∀ w, w ∈ l ↔ w ∈ languages langs := fun w => by rw [← hset, List.mem_toFinset]
    have hl : ∀ w ∈ l, w ≠ 0 := fun w hw => (mem_languages.mp ((hmem w).mp hw)).1
    rw [collectLang_cells language l hl hlen]
    by_cases hold : language = 0 ∨ language ∈ l
    · rw [if_pos hold, Collected, languages_append_self (hold.imp_right (hmem language).mp)]
      exact .inl ⟨l, hnodup, hlen, hset, rfl⟩
    · rw [if_neg hold]
      rw [not_or] at hold
      have hset' : (l ++ [language]).toFinset = languages (langs ++ [language]) := by
        rw [languages_append_new hold.1, ← hset]
        ext w
        simp
      have hnodup' : (l ++ [language]).Nodup :=
        hnodup.append (List.nodup_singleton _) (List.disjoint_singleton.mpr hold.2)
      have hlen' : (l ++ [language]).length = l.length + 1 := by simp
      by_cases hroom : l.length < 126
      · exact .inl ⟨l ++ [language], hnodup', by omega, hset', rfl⟩
      · refine .inr ⟨?_, fun _ => ⟨?_, ?_⟩⟩
        · rw [← hset', List.toFinset_card_of_nodup hnodup']
          omega
        · rw [cells, List.length_append, List.length_replicate]
          omega
        · intro w hw
          rw [cells, show 127 - (l ++ [language]).length = 0 by omega, List.replicate_zero,
            List.append_nil, List.mem_append, List.mem_singleton] at hw
          obtain hw | rfl := hw
          · exact hl w hw
          · exact hold.1
  · refine .inr ⟨lt_of_lt_of_le hcard (Finset.card_le_card fun w hw => ?_), fun hzero => ?_⟩
    · rw [mem_languages] at hw ⊢
      exact ⟨hw.1, List.mem_append_left _ hw.2⟩
    · rw [List.mem_append, List.mem_singleton, not_or] at hzero
      obtain ⟨hlen, hnz⟩ := hfull hzero.1
      obtain ⟨hnz', hlen'⟩ := collectLang_nonzero (Ne.symm hzero.2) 126 buf hnz
      exact ⟨hlen'.trans hlen, hnz'⟩

theorem Collected.tables (sp : List UsbGadgetStrings) {langs buf : List UInt16}
    (h : Collected langs buf) :
    Collected (langs ++ sp.map (·.language)) (collectLangs sp buf) := by
  induction sp generalizing langs buf with
  | nil =>
    rw [List.map_nil, List.append_nil]
    exact h
  | cons s sp ih =>
    have hrest := ih (h.step s.language)
    rw [List.append_assoc] at hrest
    exact hrest

theorem Collected.arrays (arrays : List (List UsbGadgetStrings)) {langs buf : List UInt16}
    (h : Collected langs buf) :
    Collected (langs ++ arrays.flatMap (·.map (·.language)))
      (arrays.foldl (fun buf sp => collectLangs sp buf) buf) := by
  induction arrays generalizing langs buf with
  | nil =>
    rw [List.flatMap_nil, List.append_nil]
    exact h
  | cons sp arrays ih =>
    have hrest := ih (h.tables sp)
    rw [List.append_assoc] at hrest
    exact hrest

theorem takeWhile_cells {l : List UInt16} (hl : ∀ w ∈ l, w ≠ 0) :
    (cells l).takeWhile (· ≠ 0) = l := by
  rw [cells, List.takeWhile_append_of_pos fun w hw => by simpa using hl w hw]
  cases 127 - l.length with
  | zero => simp
  | succ n => simp [List.replicate_succ]

theorem length_utf16leBytes (us : List UInt16) : (utf16leBytes us).length = 2 * us.length := by
  induction us with
  | nil => rfl
  | cons u us ih =>
    change (utf16leBytes us).length + 1 + 1 = _
    rw [ih, List.length_cons]
    omega

theorem utf16leBytes_append (us us' : List UInt16) :
    utf16leBytes (us ++ us') = utf16leBytes us ++ utf16leBytes us' :=
  List.flatMap_append

theorem languageReply_cells {l : List UInt16} (hl : ∀ w ∈ l, w ≠ 0) (hlen : l.length ≤ 126) :
    languageReply (cells l) = if l.length = 0 then .error (-einval)
      else .ok ([UInt8.ofNat (2 * (l.length + 1)), usbDtString] ++ utf16leBytes l) := by
  have hsize : (UInt8.ofNat (2 * (l.length + 1))).toNat = 2 + 2 * l.length := by
    rw [UInt8.toNat_ofNat']
    omega
  rw [languageReply]
  dsimp only
  rw [takeWhile_cells hl, hsize, cells, utf16leBytes_append, ← List.append_assoc]
  refine if_congr Iff.rfl rfl (congrArg Except.ok (List.take_left' ?_))
  rw [List.length_append, length_utf16leBytes]
  rfl

theorem languageReply_full {buf : List UInt16} (hlen : buf.length = 127)
    (hbuf : ∀ w ∈ buf, w ≠ 0) : languageReply buf = .ok [] := by
  have hall : buf.takeWhile (· ≠ 0) = buf :=
    List.takeWhile_eq_self_iff.mpr fun w hw => by simpa using hbuf w hw
  rw [languageReply]
  dsimp only
  rw [hall, hlen, if_neg (by decide)]
  rfl

/-- **Languages.** The tables of a device with at most 126 languages: string number zero lists each
language once, and fails when there is none. With more, the length does not fit into its byte and
the reply is empty. -/
theorem languages_listed (fns : ℕ → UsbFunction) (d : DeviceStrings) (configs : List Configuration)
    (language : UInt16) :
    let langs := (d.arrays fns configs).flatMap (·.map (·.language))
    let reply := getString fns d configs language 0
    ((languages langs).card = 0 → reply = .error (-einval)) ∧
      (0 < (languages langs).card → (languages langs).card ≤ 126 →
        ∃ l : List UInt16, l.Nodup ∧ (∀ w, w ∈ l ↔ w ≠ 0 ∧ w ∈ langs) ∧
          reply = .ok ([UInt8.ofNat (2 * (l.length + 1)), usbDtString] ++ utf16leBytes l)) ∧
      (126 < (languages langs).card → 0 ∉ langs → reply = .ok []) := by
  intro langs reply
  have hstart : Collected [] (List.replicate 127 0) :=
    .inl ⟨[], List.nodup_nil, Nat.zero_le _, rfl, rfl⟩
  have hend : Collected langs ((d.arrays fns configs).foldl
      (fun buf sp => collectLangs sp buf) (List.replicate 127 0)) :=
    hstart.arrays (d.arrays fns configs)
  have hreply : reply = languageReply ((d.arrays fns configs).foldl
      (fun buf sp => collectLangs sp buf) (List.replicate 127 0)) := if_pos rfl
  obtain ⟨l, hnodup, hlen, hset, hbuf⟩ | ⟨hcard, hfull⟩ := hend
  · have hmem : ∀ w, w ∈ l ↔ w ≠ 0 ∧ w ∈ langs := fun w => by
      rw [← List.mem_toFinset, hset, mem_languages]
    have hl : ∀ w ∈ l, w ≠ 0 := fun w hw => ((hmem w).mp hw).1
    have hcard : (languages langs).card = l.length := by
      rw [← List.toFinset_card_of_nodup hnodup, hset]
    rw [hcard, hreply, hbuf, languageReply_cells hl hlen]
    refine ⟨fun hzero => if_pos hzero, fun hpos _ => ⟨l, hnodup, hmem, if_neg (by omega)⟩,
      fun hmany => by omega⟩
  · refine ⟨fun h => by omega, fun _ h => by omega, fun _ hzero => ?_⟩
    obtain ⟨hlen, hnz⟩ := hfull hzero
    rw [hreply]
    exact languageReply_full hlen hnz

/-! ## Texts on the wire -/

/-- A host that reads the units of a string descriptor. -/
def units : List UInt8 → List UInt16
  | lo :: hi :: s => UInt16.ofNat (lo.toNat + 256 * hi.toNat) :: units s
  | _ => []

theorem units_utf16leBytes (us : List UInt16) : units (utf16leBytes us) = us := by
  induction us with
  | nil => rfl
  | cons u us ih =>
    have hlow : u.toUInt8.toNat = u.toNat % 256 := UInt16.toNat_toUInt8 u
    have hhigh : (u >>> 8).toUInt8.toNat = u.toNat / 256 := by
      have hlt : u.toNat < 65536 := u.toNat_lt_size
      rw [UInt16.toNat_toUInt8, UInt16.toNat_shiftRight, Nat.shiftRight_eq_div_pow]
      change u.toNat / 2 ^ 8 % 2 ^ 8 = _
      omega
    change UInt16.ofNat (u.toUInt8.toNat + 256 * (u >>> 8).toUInt8.toNat) ::
      units (utf16leBytes us) = _
    rw [ih, hlow, hhigh, Nat.mod_add_div, UInt16.ofNat_toNat]

/-- No form has a zero byte in it, and none is empty. -/
theorem Encodes.nonzero {u : UInt16} {b : List UInt8} (h : Encodes u b) :
    b ≠ [] ∧ ∀ c ∈ b, c ≠ 0 := by
  have hcont : ∀ c : UInt8, c &&& 0xc0 = 0x80 → c ≠ 0 := by
    rintro c hc rfl
    exact absurd hc (by decide)
  cases h with
  | one c hc hlow => simpa using hc
  | two c c₁ hc hc₁ => simpa using ⟨(lead_two c hc).1, hcont c₁ hc₁⟩
  | three c c₁ c₂ u hc hc₁ hc₂ hu hs =>
    simpa using ⟨(lead_three c hc).1, hcont c₁ hc₁, hcont c₂ hc₂⟩

theorem strlen_utf8 {us : List UInt16} (hus : ∀ u ∈ us, Plain u) :
    strlen (us.flatMap utf8) = (us.flatMap utf8).length ∧
      us.length ≤ (us.flatMap utf8).length := by
  constructor
  · rw [strlen, List.takeWhile_eq_self_iff.mpr]
    intro b hb
    obtain ⟨u, hu, hbu⟩ := List.mem_flatMap.mp hb
    simpa using (encodes_utf8 (hus u hu)).nonzero.2 b hbu
  · induction us with
    | nil => exact le_rfl
    | cons u us ih =>
      have hlen := ih fun v hv => hus v (List.mem_cons_of_mem u hv)
      have hpos := List.length_pos_iff.mpr (encodes_utf8 (hus u List.mem_cons_self)).nonzero.1
      rw [List.flatMap_cons, List.length_append, List.length_cons]
      omega

/-- The string descriptor with units on it. -/
def stringDescriptor (us : List UInt16) : List UInt8 :=
  [UInt8.ofNat ((us.length + 1) * 2), usbDtString] ++ utf16leBytes us

/-- **A table's text.** -/
theorem usbGadgetGetString_eq {table : UsbGadgetStrings} {id i : UInt8} {us : List UInt16}
    (hid : id ≠ 0) (hus : ∀ u ∈ us, Plain u)
    (hfind : table.strings.find? (fun s => s.1 == id) = some (i, us.flatMap utf8)) :
    usbGadgetGetString table id = .ok (stringDescriptor (us.take 126)) := by
  obtain ⟨hlen, hle⟩ := strlen_utf8 hus
  have htake : us.take (min 126 (us.flatMap utf8).length) = us.take 126 := by
    rw [← List.take_take, List.take_of_length_le hle]
  rw [usbGadgetGetString, if_neg hid, hfind]
  dsimp only
  rw [hlen, (decodes_utf8 _ us hus).utf8ToUtf16le_eq, htake]
  rfl

/-- **Texts.** A number that the driver does not override is looked up in the tables of the language
in their order, and the host reads the text of the first table that has it, up to 126 units. -/
theorem text_sent (fns : ℕ → UsbFunction) (d : DeviceStrings) (configs : List Configuration)
    (language : UInt16) {id i : UInt8} (hid : id ≠ 0)
    (hover : d.overrides.find? (fun o => o.1 == id) = none)
    {pre post : List UsbGadgetStrings} {table : UsbGadgetStrings} {us : List UInt16}
    (htables : (d.arrays fns configs).flatten = pre ++ table :: post)
    (hpre : ∀ t ∈ pre, t.language = language → t.strings.find? (fun s => s.1 == id) = none)
    (hlang : table.language = language) (hus : ∀ u ∈ us, Plain u)
    (hfind : table.strings.find? (fun s => s.1 == id) = some (i, us.flatMap utf8)) :
    ∃ reply, getString fns d configs language id = .ok reply ∧
      (reply.getD 0 0).toNat = reply.length ∧ reply.getD 1 0 = usbDtString ∧
      units (reply.drop 2) = us.take 126 := by
  have hlookup : ∀ arrays : List (List UsbGadgetStrings),
      (arrays.findSome? fun sp => lookupString sp language id) =
        lookupString arrays.flatten language id := by
    intro arrays
    induction arrays with
    | nil => rfl
    | cons sp arrays ih =>
      rw [List.findSome?_cons, ih, List.flatten_cons, lookupString, lookupString, lookupString,
        List.findSome?_append]
      cases List.findSome? _ sp <;> rfl
  have hreply : lookupString (pre ++ table :: post) language id =
      some (stringDescriptor (us.take 126)) := by
    rw [lookupString, List.findSome?_append, List.findSome?_eq_none_iff.mpr, Option.none_or,
      List.findSome?_cons, if_neg (not_not.mpr hlang), usbGadgetGetString_eq hid hus hfind]
    · rfl
    · intro t ht
      split_ifs with hne
      · rfl
      · rw [usbGadgetGetString, if_neg hid, hpre t ht (not_not.mp hne)]
        rfl
  have hshort : (us.take 126).length ≤ 126 := List.length_take_le 126 us
  refine ⟨stringDescriptor (us.take 126), ?_, ?_, rfl, units_utf16leBytes _⟩
  · rw [getString, if_neg hid, hover, Option.bind_none]
    dsimp only
    rw [hlookup, htables, hreply]
  · change (UInt8.ofNat (((us.take 126).length + 1) * 2)).toNat =
      (utf16leBytes (us.take 126)).length + 1 + 1
    rw [length_utf16leBytes, UInt8.toNat_ofNat']
    omega

/-- A driver with one table in English, whose text number 1 is `Cé€`. -/
def euroStrings : DeviceStrings :=
  ⟨[⟨0x0409, [(1, [0x43, 0xc3, 0xa9, 0xe2, 0x82, 0xac])]⟩], []⟩

theorem text_sent_euro :
    ∃ reply, getString (fun _ => plainFunction) euroStrings [] 0x0409 1 = .ok reply ∧
      (reply.getD 0 0).toNat = reply.length ∧ reply.getD 1 0 = usbDtString ∧
      units (reply.drop 2) = List.take 126 [0x0043, 0x00e9, 0x20ac] :=
  text_sent (fun _ => plainFunction) euroStrings [] 0x0409 (i := 1) (by decide) rfl
    (show _ = [] ++ _ :: [] from rfl) nofun rfl
    (List.forall_mem_cons.mpr ⟨⟨by decide, by decide⟩, List.forall_mem_cons.mpr
      ⟨⟨by decide, by decide⟩, List.forall_mem_singleton.mpr ⟨by decide, by decide⟩⟩⟩)
    (show _ = some (1, List.flatMap utf8 [0x0043, 0x00e9, 0x20ac]) by decide)

end LddExample.Composite
