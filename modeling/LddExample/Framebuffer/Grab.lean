import LddExample.Lib.Loop
import Mathlib.Data.List.Basic
import Mathlib.Tactic.IntervalCases
import Mathlib.Tactic.Ring

/-!
# Grabbing the framebuffer

`fbgrab.c` reads the framebuffer, converts its pixels to 32 bits and hands the rows to libpng.
`unsigned int` has 32 bits and wraps, an overflow of `int` is a fault, and so is an access outside
one of the two buffers.

* `Shot`: the size of the picture and where the channels of a pixel are.
* `pixel1555`, `pixel565`, `pixel888`, `pixel8888`: one turn of the four conversions.
* `grab`: the rows of the picture for the bytes that were read.
* `Grabs s bits`: the pictures that are converted without a fault, in closed form; the depth 15 is
  not among them, since `buf_size` has no `+ 7`.
* **`grab_iff`**: `grab` succeeds exactly for these, if the data is there.
* **`grab_pixels`**: the rows show the pixels of the framebuffer.
-/

namespace LddExample.Framebuffer

/-- The size, and `srcBlue`, `srcGreen`, `srcRed`, `srcAlpha`: the bytes of a pixel of up to 32 bits
that hold the channels. -/
structure Shot where
  width : ℕ
  height : ℕ
  srcBlue : ℕ
  srcGreen : ℕ
  srcRed : ℕ
  srcAlpha : Option ℕ
  width_pos : 0 < width
  height_pos : 0 < height
  blue_lt : srcBlue < 4
  green_lt : srcGreen < 4
  red_lt : srcRed < 4
  alpha_lt : ∀ a ∈ srcAlpha, a < 4

/-- How `fbgrab` can go wrong. -/
inductive GrabFault
  | intOverflow
  | inOverrun
  | outOverrun
  /-- the program ends: the file is too short, or the depth is not supported -/
  | exit
deriving DecidableEq

/-- A pixel of `outbuffer`. -/
structure Pixel where
  blue : UInt8
  green : UInt8
  red : UInt8
  alpha : UInt8
deriving DecidableEq

/-- A byte of the buffer that was read. -/
def peek (buf : List UInt8) (i : ℕ) : Except GrabFault UInt8 :=
  match buf[i]? with
  | some b => .ok b
  | none => .error .inOverrun

/-- A store into the buffer of the picture. -/
def poke (buf : List UInt8) (i : ℕ) (b : UInt8) : Except GrabFault (List UInt8) :=
  if i < buf.length then .ok (buf.set i b) else .error .outOverrun

/-! ## One pixel -/

/-- A turn of `convert1555to32`. -/
def pixel1555 (inbuffer : List UInt8) (k : ℕ) : Except GrabFault Pixel := do
  let hi ← peek inbuffer (2 * k + 1)
  let lo ← peek inbuffer (2 * k)
  return ⟨(hi &&& 0x7C) <<< 1, (((hi &&& 0x3) <<< 3) ||| ((lo &&& 0xE0) >>> 5)) <<< 3,
    (lo &&& 0x1f) <<< 3, 0⟩

/-- A turn of `convert565to32`. -/
def pixel565 (inbuffer : List UInt8) (k : ℕ) : Except GrabFault Pixel := do
  let lo ← peek inbuffer (2 * k)
  let hi ← peek inbuffer (2 * k + 1)
  return ⟨(lo &&& 0x1f) <<< 3, (((hi &&& 0x7) <<< 3) ||| ((lo &&& 0xE0) >>> 5)) <<< 2, hi &&& 0xF8,
    0⟩

/-- A turn of `convert888to32`. -/
def pixel888 (s : Shot) (inbuffer : List UInt8) (k : ℕ) : Except GrabFault Pixel := do
  let blue ← peek inbuffer ((k * 3 + s.srcBlue) % 2 ^ 32)
  let green ← peek inbuffer ((k * 3 + s.srcGreen) % 2 ^ 32)
  let red ← peek inbuffer ((k * 3 + s.srcRed) % 2 ^ 32)
  return ⟨blue, green, red, 0⟩

/-- A turn of `convert8888to32`. -/
def pixel8888 (s : Shot) (inbuffer : List UInt8) (k : ℕ) : Except GrabFault Pixel := do
  let blue ← peek inbuffer ((k * 4 + s.srcBlue) % 2 ^ 32)
  let green ← peek inbuffer ((k * 4 + s.srcGreen) % 2 ^ 32)
  let red ← peek inbuffer ((k * 4 + s.srcRed) % 2 ^ 32)
  match s.srcAlpha with
  | some a =>
    let alpha ← peek inbuffer ((k * 4 + a) % 2 ^ 32)
    return ⟨blue, green, red, alpha⟩
  | none => return ⟨blue, green, red, 0xff⟩

/-! ## The picture -/

/-- `outbuffer[(i << 2) + Blue]` and so on -/
def putPixel (out : List UInt8) (k : ℕ) (p : Pixel) : Except GrabFault (List UInt8) := do
  let out ← poke out (4 * k % 2 ^ 32) p.blue
  let out ← poke out (4 * k % 2 ^ 32 + 1) p.green
  let out ← poke out (4 * k % 2 ^ 32 + 2) p.red
  poke out (4 * k % 2 ^ 32 + 3) p.alpha

/-- The loop of a conversion; `left` turns are left. -/
def convertLoop (pixel : ℕ → Except GrabFault Pixel) :
    ℕ → ℕ → List UInt8 → Except GrabFault (List UInt8)
  | 0, _, out => .ok out
  | left + 1, k, out => do
    let p ← pixel k
    let out ← putPixel out k p
    convertLoop pixel left (k + 1) out

/-- `switch (bits)` of `convert_and_write` -/
def convert (s : Shot) (bits : ℕ) (inbuffer out : List UInt8) : Except GrabFault (List UInt8) :=
  match bits with
  | 15 => convertLoop (pixel1555 inbuffer) (s.height * s.width * 2 % 2 ^ 32 / 2) 0 out
  | 16 => convertLoop (pixel565 inbuffer) (s.height * s.width * 2 % 2 ^ 32 / 2) 0 out
  | 24 => convertLoop (pixel888 s inbuffer) (s.height * s.width % 2 ^ 32) 0 out
  | 32 => convertLoop (pixel8888 s inbuffer) (s.height * s.width % 2 ^ 32) 0 out
  | _ => .error .exit

/-- The bytes from `row_pointers[i]` on -/
def pngRow (s : Shot) (out : List UInt8) (i : ℕ) : List UInt8 :=
  (out.drop (i * 4 * s.width)).take (4 * s.width)

/-- The rows that `write_PNG` hands to libpng; `i * 4 * width` is an `int`. -/
def pngRows (s : Shot) (out : List UInt8) : ℕ → Except GrabFault (List (List UInt8))
  | 0 => .ok []
  | i + 1 => do
    let rows ← pngRows s out i
    if 2 ^ 31 ≤ i * 4 * s.width then .error .intOverflow
    else if out.length < i * 4 * s.width + 4 * s.width then .error .outOverrun
    else .ok (rows ++ [pngRow s out i])

/-- `main`, whose calls of `malloc` succeed. `fb` is what its one `read` can deliver, from the
offset of the visible screen on: Linux reads at most `0x7ffff000` bytes at a time. -/
def grab (s : Shot) (bits : ℕ) (fb : List UInt8) : Except GrabFault (List (List UInt8)) := do
  if 2 ^ 31 ≤ s.width * s.height then
    .error .intOverflow
  else
    let bufSize := s.width * s.height * (bits / 8) % 2 ^ 32
    if fb.length < bufSize then
      .error .exit
    else
      let out ← convert s bits (fb.take bufSize) (List.replicate (s.width * s.height * 4) 0)
      pngRows s out s.height

/-! ## The loop -/

/-- The program got through. -/
def Good {α : Type} (x : Except GrabFault α) : Prop := ∃ a, x = .ok a

variable {s : Shot} {pixel : ℕ → Except GrabFault Pixel} {out out' inbuffer : List UInt8}

theorem good_bind {α β : Type} {x : Except GrabFault α} {f : α → Except GrabFault β} :
    Good (x >>= f) ↔ ∃ a, x = .ok a ∧ Good (f a) := by
  cases x with
  | error e => exact ⟨fun ⟨_, h⟩ => (by cases h), fun ⟨_, h, _⟩ => (by cases h)⟩
  | ok a => exact ⟨fun h => ⟨a, rfl, h⟩, fun ⟨_, h, h'⟩ => Except.ok.inj h ▸ h'⟩

theorem good_peek {buf : List UInt8} {i : ℕ} : Good (peek buf i) ↔ i < buf.length := by
  unfold peek Good
  cases h : buf[i]? with
  | none =>
    have hle := List.getElem?_eq_none_iff.mp h
    exact iff_of_false (fun ⟨_, h'⟩ => by cases h') (by omega)
  | some b => exact iff_of_true ⟨b, rfl⟩ (List.getElem?_eq_some_iff.mp h).1

theorem peek_eq {buf : List UInt8} {i : ℕ} {b : UInt8} (h : peek buf i = .ok b) :
    buf[i]? = some b := by
  unfold peek at h
  cases hb : buf[i]? with
  | none =>
    rw [hb] at h
    cases h
  | some b' =>
    rw [hb] at h
    rw [Except.ok.inj h]

theorem putPixel_eq {k : ℕ} {p : Pixel} (hk : 4 * k % 2 ^ 32 + 3 < out.length) :
    putPixel out k p = .ok ((((out.set (4 * k % 2 ^ 32) p.blue).set (4 * k % 2 ^ 32 + 1)
      p.green).set (4 * k % 2 ^ 32 + 2) p.red).set (4 * k % 2 ^ 32 + 3) p.alpha) := by
  unfold putPixel
  generalize 4 * k % 2 ^ 32 = i at hk
  have hpoke : ∀ {buf : List UInt8} {j : ℕ} {b : UInt8}, buf.length = out.length → j ≤ i + 3 →
      poke buf j b = .ok (buf.set j b) := fun hlen hj => if_pos (by omega)
  rw [hpoke rfl (by omega)]
  change poke _ (i + 1) _ >>= _ = _
  rw [hpoke List.length_set (by omega)]
  change poke _ (i + 2) _ >>= _ = _
  rw [hpoke (by simp only [List.length_set]) (by omega)]
  exact hpoke (by simp only [List.length_set]) (by omega)

theorem poke_length {i : ℕ} {b : UInt8} (h : poke out i b = .ok out') :
    out'.length = out.length := by
  unfold poke at h
  split at h
  · rw [← Except.ok.inj h, List.length_set]
  · cases h

theorem putPixel_length {k : ℕ} {p : Pixel} (h : putPixel out k p = .ok out') :
    out'.length = out.length := by
  obtain ⟨out₁, h₁, h⟩ := Loop.bind_eq_ok h
  obtain ⟨out₂, h₂, h⟩ := Loop.bind_eq_ok h
  obtain ⟨out₃, h₃, h⟩ := Loop.bind_eq_ok h
  rw [poke_length h, poke_length h₃, poke_length h₂, poke_length h₁]

theorem convertLoop_length {left k : ℕ} (h : convertLoop pixel left k out = .ok out') :
    out'.length = out.length := by
  induction left generalizing k out with
  | zero => rw [Except.ok.inj h]
  | succ left ih =>
    obtain ⟨p, -, h⟩ := Loop.bind_eq_ok h
    obtain ⟨out₁, hput, h⟩ := Loop.bind_eq_ok h
    rw [ih h, putPixel_length hput]

/-- The pixel `k` of a buffer. -/
def HasPixel (out : List UInt8) (k : ℕ) (p : Pixel) : Prop :=
  out[4 * k]? = some p.blue ∧ out[4 * k + 1]? = some p.green ∧ out[4 * k + 2]? = some p.red ∧
    out[4 * k + 3]? = some p.alpha

theorem good_convertLoop {left k : ℕ} (hout : 4 * (k + left) ≤ out.length) :
    Good (convertLoop pixel left k out) ↔ ∀ j, k ≤ j → j < k + left → Good (pixel j) := by
  induction left generalizing k out with
  | zero => exact iff_of_true ⟨out, rfl⟩ fun j h₁ h₂ => by omega
  | succ left ih =>
    have hk : 4 * k % 2 ^ 32 + 3 < out.length := by
      have := Nat.mod_le (4 * k) (2 ^ 32)
      omega
    rw [convertLoop, good_bind]
    constructor
    · rintro ⟨p, hp, hgood⟩ j h₁ h₂
      rw [good_bind] at hgood
      obtain ⟨out', hput, hrest⟩ := hgood
      have hlen := putPixel_length hput
      rw [ih (by omega)] at hrest
      obtain rfl | hlt := Nat.eq_or_lt_of_le h₁
      · exact ⟨p, hp⟩
      · exact hrest j hlt (by omega)
    · intro hall
      obtain ⟨p, hp⟩ := hall k (Nat.le_refl k) (by omega)
      refine ⟨p, hp, ?_⟩
      rw [putPixel_eq hk, good_bind]
      refine ⟨_, rfl, ?_⟩
      rw [ih (by simp only [List.length_set]; omega)]
      exact fun j h₁ h₂ => hall j (by omega) (by omega)

/-- **The pixels of a conversion**, as long as no index of `outbuffer` wraps. -/
theorem convertLoop_pixels {left k : ℕ} (hout : 4 * (k + left) ≤ out.length)
    (hwrap : 4 * (k + left) ≤ 2 ^ 32) (h : convertLoop pixel left k out = .ok out') :
    (∀ i, i < 4 * k → out'[i]? = out[i]?) ∧
      ∀ j, k ≤ j → j < k + left → ∃ p, pixel j = .ok p ∧ HasPixel out' j p := by
  induction left generalizing k out with
  | zero =>
    obtain rfl := Except.ok.inj h
    exact ⟨fun _ _ => rfl, fun j h₁ h₂ => by omega⟩
  | succ left ih =>
    have hmod : 4 * k % 2 ^ 32 = 4 * k := Nat.mod_eq_of_lt (by omega)
    rw [convertLoop] at h
    obtain ⟨p, hp, h⟩ := Loop.bind_eq_ok h
    rw [putPixel_eq (by omega), hmod] at h
    obtain ⟨hbefore, hafter⟩ := ih (by simp only [List.length_set]; omega) (by omega) h
    refine ⟨fun i hi => ?_, fun j h₁ h₂ => ?_⟩
    · rw [hbefore i (by omega), List.getElem?_set_ne (by omega), List.getElem?_set_ne (by omega),
        List.getElem?_set_ne (by omega), List.getElem?_set_ne (by omega)]
    · obtain rfl | hlt := Nat.eq_or_lt_of_le h₁
      · refine ⟨p, hp, ?_, ?_, ?_, ?_⟩
        · rw [hbefore _ (by omega), List.getElem?_set_ne (by omega),
            List.getElem?_set_ne (by omega), List.getElem?_set_ne (by omega),
            List.getElem?_set_self (by omega)]
        · rw [hbefore _ (by omega), List.getElem?_set_ne (by omega),
            List.getElem?_set_ne (by omega),
            List.getElem?_set_self (by simp only [List.length_set]; omega)]
        · rw [hbefore _ (by omega), List.getElem?_set_ne (by omega),
            List.getElem?_set_self (by simp only [List.length_set]; omega)]
        · rw [hbefore _ (by omega),
            List.getElem?_set_self (by simp only [List.length_set]; omega)]
      · exact hafter j hlt (by omega)

/-! ## Which pictures are converted -/

/-- The pictures that `grab` gets through with. -/
def Grabs (s : Shot) (bits : ℕ) : Prop :=
  s.width * s.height < 2 ^ 31 ∧ 4 * s.width * (s.height - 1) < 2 ^ 31 ∧
    (bits = 16 ∨
      bits = 24 ∧ 3 * (s.width * s.height) < 2 ^ 32 ∧ s.srcBlue < 3 ∧ s.srcGreen < 3 ∧
        s.srcRed < 3 ∨
      bits = 32 ∧ s.width * s.height < 2 ^ 30)

instance (s : Shot) (bits : ℕ) : Decidable (Grabs s bits) :=
  inferInstanceAs (Decidable (_ ∧ _ ∧ (_ ∨ _ ∨ _)))

theorem good_peek_bind {α : Type} {buf : List UInt8} {i : ℕ} {f : UInt8 → Except GrabFault α}
    {c : Prop} (hf : ∀ b, Good (f b) ↔ c) : Good (peek buf i >>= f) ↔ i < buf.length ∧ c := by
  rw [good_bind, ← good_peek]
  constructor
  · rintro ⟨b, hb, hgood⟩
    exact ⟨⟨b, hb⟩, (hf b).mp hgood⟩
  · rintro ⟨⟨b, hb⟩, hc⟩
    exact ⟨b, hb, (hf b).mpr hc⟩

theorem good_pure {α : Type} (a : α) : Good (pure a : Except GrabFault α) ↔ True :=
  iff_of_true ⟨a, rfl⟩ trivial

theorem good_pixel1555 {k : ℕ} :
    Good (pixel1555 inbuffer k) ↔ 2 * k + 1 < inbuffer.length := by
  rw [pixel1555, good_peek_bind fun _ => good_peek_bind fun _ => good_pure _, and_true]
  omega

theorem good_pixel565 {k : ℕ} : Good (pixel565 inbuffer k) ↔ 2 * k + 1 < inbuffer.length := by
  rw [pixel565, good_peek_bind fun _ => good_peek_bind fun _ => good_pure _, and_true]
  omega

theorem good_pixel888 {k : ℕ} : Good (pixel888 s inbuffer k) ↔
    (k * 3 + s.srcBlue) % 2 ^ 32 < inbuffer.length ∧
      (k * 3 + s.srcGreen) % 2 ^ 32 < inbuffer.length ∧
      (k * 3 + s.srcRed) % 2 ^ 32 < inbuffer.length := by
  rw [pixel888, good_peek_bind fun _ => good_peek_bind fun _ => good_peek_bind fun _ => good_pure _,
    and_true]

theorem good_pixel8888 {k : ℕ} : Good (pixel8888 s inbuffer k) ↔
    (k * 4 + s.srcBlue) % 2 ^ 32 < inbuffer.length ∧
      (k * 4 + s.srcGreen) % 2 ^ 32 < inbuffer.length ∧
      (k * 4 + s.srcRed) % 2 ^ 32 < inbuffer.length ∧
      ∀ a ∈ s.srcAlpha, (k * 4 + a) % 2 ^ 32 < inbuffer.length := by
  have halpha : ∀ blue green red, Good (match s.srcAlpha with
      | some a => do
        let alpha ← peek inbuffer ((k * 4 + a) % 2 ^ 32)
        return ⟨blue, green, red, alpha⟩
      | none => return (⟨blue, green, red, 0xff⟩ : Pixel)) ↔
      ∀ a ∈ s.srcAlpha, (k * 4 + a) % 2 ^ 32 < inbuffer.length := by
    intro blue green red
    cases s.srcAlpha with
    | none => exact iff_of_true ⟨_, rfl⟩ nofun
    | some a =>
      rw [good_peek_bind fun _ => good_pure _, and_true]
      exact ⟨fun h _ ha => Option.some.inj ha ▸ h, fun h => h a rfl⟩
  rw [pixel8888, good_peek_bind fun _ => good_peek_bind fun _ => good_peek_bind fun _ =>
    halpha _ _ _]

/-- Three bytes for a pixel: the last pixel tells whether a channel is behind its pixel, and the
first pixel whose index wraps is read from the two bytes in front. -/
theorem good_convert888 {n : ℕ} (hpos : 0 < n) (hsize : n < 2 ^ 31)
    (hin : inbuffer.length = n * 3 % 2 ^ 32) :
    (∀ k, 0 ≤ k → k < 0 + n % 2 ^ 32 → Good (pixel888 s inbuffer k)) ↔
      3 * n < 2 ^ 32 ∧ s.srcBlue < 3 ∧ s.srcGreen < 3 ∧ s.srcRed < 3 := by
  have hblue := s.blue_lt
  have hgreen := s.green_lt
  have hred := s.red_lt
  constructor
  · intro hall
    have hfits : 3 * n < 2 ^ 32 := by
      by_contra hwrap
      have hlen : inbuffer.length = n * 3 - 2 ^ 32 := by omega
      obtain ⟨h, -, -⟩ := good_pixel888.mp (hall (n - 1431655765) (by omega) (by omega))
      rw [Nat.mod_eq_of_lt (by omega)] at h
      omega
    rw [Nat.mod_eq_of_lt (by omega)] at hin
    obtain ⟨hb, hg, hr⟩ := good_pixel888.mp (hall (n - 1) (by omega) (by omega))
    have hmod : ∀ c, c < 4 → (n - 1) * 3 + c < 2 ^ 32 → ((n - 1) * 3 + c) % 2 ^ 32 < n * 3 →
        c < 3 := fun c _ hlt h => by rw [Nat.mod_eq_of_lt hlt] at h; omega
    rw [hin] at hb hg hr
    exact ⟨hfits, hmod _ hblue (by omega) hb, hmod _ hgreen (by omega) hg,
      hmod _ hred (by omega) hr⟩
  · rintro ⟨hfits, hb, hg, hr⟩ k _ hk
    rw [Nat.mod_eq_of_lt (by omega)] at hin hk
    have hmod : ∀ c, c < 3 → (k * 3 + c) % 2 ^ 32 < inbuffer.length := fun c hc => by
      rw [Nat.mod_eq_of_lt (by omega), hin]
      omega
    exact good_pixel888.mpr ⟨hmod _ hb, hmod _ hg, hmod _ hr⟩

theorem good_convert8888 {n : ℕ} (hsize : n < 2 ^ 31) (hin : inbuffer.length = n * 4 % 2 ^ 32) :
    (∀ k, 0 ≤ k → k < 0 + n % 2 ^ 32 → Good (pixel8888 s inbuffer k)) ↔ n < 2 ^ 30 := by
  have hblue := s.blue_lt
  have hgreen := s.green_lt
  have hred := s.red_lt
  constructor
  · intro hall
    by_contra hwrap
    obtain ⟨h, -⟩ := good_pixel8888.mp (hall (n - 2 ^ 30) (by omega) (by omega))
    omega
  · intro hfits k _ hk
    refine good_pixel8888.mpr ⟨by omega, by omega, by omega, fun a ha => ?_⟩
    have := s.alpha_lt a ha
    omega

/-- **The four conversions.** -/
theorem good_convert {bits : ℕ} (hsize : s.width * s.height < 2 ^ 31)
    (hin : inbuffer.length = s.width * s.height * (bits / 8) % 2 ^ 32)
    (hout : out.length = s.width * s.height * 4) :
    Good (convert s bits inbuffer out) ↔
      bits = 16 ∨
        bits = 24 ∧ 3 * (s.width * s.height) < 2 ^ 32 ∧ s.srcBlue < 3 ∧ s.srcGreen < 3 ∧
          s.srcRed < 3 ∨
        bits = 32 ∧ s.width * s.height < 2 ^ 30 := by
  have hpos : 0 < s.width * s.height := Nat.mul_pos s.width_pos s.height_pos
  have hcomm : s.height * s.width = s.width * s.height := Nat.mul_comm _ _
  unfold convert
  rw [hcomm]
  generalize s.width * s.height = n at *
  split
  · -- the last pixel has its second byte behind the buffer
    rw [good_convertLoop (by omega)]
    refine iff_of_false (fun hall => ?_) (by omega)
    have := good_pixel1555.mp (hall (n - 1) (by omega) (by omega))
    omega
  · rw [good_convertLoop (by omega)]
    refine iff_of_true (fun j _ hj => good_pixel565.mpr ?_) (.inl rfl)
    omega
  · rw [good_convertLoop (by omega), good_convert888 hpos hsize hin]
    omega
  · rw [good_convertLoop (by omega), good_convert8888 hsize hin]
    omega
  · next h15 h16 h24 h32 =>
    refine iff_of_false (fun ⟨_, h⟩ => by cases h) ?_
    rintro (h | ⟨h, -⟩ | ⟨h, -⟩)
    · exact h16 h
    · exact h24 h
    · exact h32 h

/-! ## The rows -/

/-- The rows are cut out of `outbuffer` one after another, up to the row whose start does not fit
into an `int`. -/
theorem pngRows_eq (hout : out.length = s.width * s.height * 4) {n : ℕ} (hn : n ≤ s.height) :
    (4 * s.width * (n - 1) < 2 ^ 31 → pngRows s out n = .ok ((List.range n).map (pngRow s out))) ∧
      (2 ^ 31 ≤ 4 * s.width * (n - 1) → ¬ Good (pngRows s out n)) := by
  induction n with
  | zero => exact ⟨fun _ => rfl, fun h => by omega⟩
  | succ n ih =>
    obtain ⟨hok, hbad⟩ := ih (by omega)
    have hstart : 4 * s.width * (n + 1 - 1) = n * 4 * s.width := by
      rw [Nat.add_sub_cancel]
      ring
    have hprev : 4 * s.width * (n - 1) ≤ n * 4 * s.width := by
      rw [← hstart]
      exact Nat.mul_le_mul_left _ (by omega)
    have hroom : n * 4 * s.width + 4 * s.width ≤ out.length := by
      calc n * 4 * s.width + 4 * s.width = (n + 1) * (4 * s.width) := by ring
        _ ≤ s.height * (4 * s.width) := Nat.mul_le_mul_right _ hn
        _ = out.length := by rw [hout]; ring
    rw [hstart, pngRows]
    constructor
    · intro hlt
      rw [hok (by omega)]
      change ite _ _ _ = _
      rw [if_neg (by omega), if_neg (by omega), List.range_succ, List.map_append]
      rfl
    · intro hle hgood
      obtain ⟨rows, -, hrest⟩ := good_bind.mp hgood
      rw [if_pos hle] at hrest
      obtain ⟨_, h⟩ := hrest
      cases h

theorem convert_length {bits : ℕ} (h : convert s bits inbuffer out = .ok out') :
    out'.length = out.length := by
  unfold convert at h
  split at h
  · exact convertLoop_length h
  · exact convertLoop_length h
  · exact convertLoop_length h
  · exact convertLoop_length h
  · cases h

theorem good_pngRows (hout : out.length = s.width * s.height * 4) :
    Good (pngRows s out s.height) ↔ 4 * s.width * (s.height - 1) < 2 ^ 31 := by
  obtain ⟨hok, hbad⟩ := pngRows_eq hout (Nat.le_refl s.height)
  refine ⟨fun hgood => ?_, fun hlt => ⟨_, hok hlt⟩⟩
  by_contra hle
  exact hbad (by omega) hgood

theorem good_convert_rows {bits : ℕ} (hsize : s.width * s.height < 2 ^ 31)
    (hin : inbuffer.length = s.width * s.height * (bits / 8) % 2 ^ 32) :
    Good (do
      let out ← convert s bits inbuffer (List.replicate (s.width * s.height * 4) 0)
      pngRows s out s.height) ↔ Grabs s bits := by
  have hconv := good_convert (s := s) hsize hin
    (List.length_replicate (n := s.width * s.height * 4) (a := (0 : UInt8)))
  have hrows : ∀ {out}, convert s bits inbuffer (List.replicate (s.width * s.height * 4) 0)
      = .ok out → (Good (pngRows s out s.height) ↔ 4 * s.width * (s.height - 1) < 2 ^ 31) :=
    fun h => good_pngRows (by rw [convert_length h, List.length_replicate])
  rw [good_bind, Grabs, ← hconv]
  constructor
  · rintro ⟨out, hout, hgood⟩
    exact ⟨hsize, (hrows hout).mp hgood, out, hout⟩
  · rintro ⟨_, hlt, out, hout⟩
    exact ⟨out, hout, (hrows hout).mpr hlt⟩

theorem Grabs.size {bits : ℕ} (h : Grabs s bits) :
    s.width * s.height * (bits / 8) % 2 ^ 32 = s.width * s.height * (bits / 8) := by
  refine Nat.mod_eq_of_lt ?_
  obtain ⟨hsize, -, rfl | ⟨rfl, h, -⟩ | ⟨rfl, h⟩⟩ := h <;> omega

/-- **What is grabbed.** The program gets through exactly with the pictures of `Grabs` and with
enough data. -/
theorem grab_iff (s : Shot) (bits : ℕ) (fb : List UInt8) :
    Good (grab s bits fb) ↔
      Grabs s bits ∧ s.width * s.height * (bits / 8) ≤ fb.length := by
  unfold grab
  by_cases hsize : s.width * s.height < 2 ^ 31
  · rw [if_neg (by omega)]
    by_cases hdata : fb.length < s.width * s.height * (bits / 8) % 2 ^ 32
    · rw [if_pos hdata]
      refine iff_of_false (fun ⟨_, h⟩ => by cases h) (fun ⟨hgrabs, henough⟩ => ?_)
      rw [hgrabs.size] at hdata
      omega
    · rw [if_neg hdata, good_convert_rows hsize (List.length_take_of_le (by omega))]
      refine ⟨fun hgrabs => ⟨hgrabs, ?_⟩, And.left⟩
      rw [hgrabs.size] at hdata
      omega
  · rw [if_pos (by omega)]
    exact iff_of_false (fun ⟨_, h⟩ => by cases h) (fun ⟨⟨h, _⟩, _⟩ => hsize h)

/-! ## The pixels -/

/-- `p` is the pixel `k` of the framebuffer. With 16 bits, the two bytes are those that the
conversion back gives. -/
def Shows (s : Shot) (bits : ℕ) (fb : List UInt8) (k : ℕ) (p : Pixel) : Prop :=
  match bits with
  | 16 => fb[2 * k]? = some ((p.green <<< 3) ||| (p.blue >>> 3)) ∧
      fb[2 * k + 1]? = some (p.red ||| (p.green >>> 5)) ∧
      p.blue &&& 0x07 = 0 ∧ p.green &&& 0x03 = 0 ∧ p.red &&& 0x07 = 0 ∧ p.alpha = 0
  | 24 => fb[3 * k + s.srcBlue]? = some p.blue ∧ fb[3 * k + s.srcGreen]? = some p.green ∧
      fb[3 * k + s.srcRed]? = some p.red ∧ p.alpha = 0
  | 32 => fb[4 * k + s.srcBlue]? = some p.blue ∧ fb[4 * k + s.srcGreen]? = some p.green ∧
      fb[4 * k + s.srcRed]? = some p.red ∧
      (∀ a ∈ s.srcAlpha, fb[4 * k + a]? = some p.alpha) ∧ (s.srcAlpha = none → p.alpha = 0xff)
  | _ => False

theorem peek_take {fb : List UInt8} {m i : ℕ} {b : UInt8} (h : peek (fb.take m) i = .ok b) :
    fb[i]? = some b := by
  have h := peek_eq h
  rw [List.getElem?_take] at h
  split at h
  · exact h
  · cases h

theorem shows565 {fb : List UInt8} {m k : ℕ} {p : Pixel}
    (h : pixel565 (fb.take m) k = .ok p) : Shows s 16 fb k p := by
  obtain ⟨lo, hlo, h⟩ := Loop.bind_eq_ok h
  obtain ⟨hi, hhi, h⟩ := Loop.bind_eq_ok h
  obtain rfl := Except.ok.inj h
  refine ⟨(peek_take hlo).trans (congrArg some ?_), (peek_take hhi).trans (congrArg some ?_), ?_,
    ?_, ?_, rfl⟩
  all_goals
    apply UInt8.toBitVec_inj.mp
    ext i hlt
    interval_cases i <;> simp

theorem shows888 {fb : List UInt8} {m k : ℕ} {p : Pixel} (hk : 3 * k + 3 < 2 ^ 32)
    (h : pixel888 s (fb.take m) k = .ok p) : Shows s 24 fb k p := by
  have hmod : ∀ {c b}, c < 4 → peek (fb.take m) ((k * 3 + c) % 2 ^ 32) = .ok b →
      fb[3 * k + c]? = some b := by
    intro c b hc hb
    rw [Nat.mod_eq_of_lt (by omega), Nat.mul_comm] at hb
    exact peek_take hb
  obtain ⟨blue, hblue, h⟩ := Loop.bind_eq_ok h
  obtain ⟨green, hgreen, h⟩ := Loop.bind_eq_ok h
  obtain ⟨red, hred, h⟩ := Loop.bind_eq_ok h
  obtain rfl := Except.ok.inj h
  exact ⟨hmod s.blue_lt hblue, hmod s.green_lt hgreen, hmod s.red_lt hred, rfl⟩

theorem shows8888 {fb : List UInt8} {m k : ℕ} {p : Pixel} (hk : 4 * k + 3 < 2 ^ 32)
    (h : pixel8888 s (fb.take m) k = .ok p) : Shows s 32 fb k p := by
  have hmod : ∀ {c b}, c < 4 → peek (fb.take m) ((k * 4 + c) % 2 ^ 32) = .ok b →
      fb[4 * k + c]? = some b := by
    intro c b hc hb
    rw [Nat.mod_eq_of_lt (by omega), Nat.mul_comm] at hb
    exact peek_take hb
  obtain ⟨blue, hblue, h⟩ := Loop.bind_eq_ok h
  obtain ⟨green, hgreen, h⟩ := Loop.bind_eq_ok h
  obtain ⟨red, hred, h⟩ := Loop.bind_eq_ok h
  cases ha : s.srcAlpha with
  | none =>
    rw [ha] at h
    obtain rfl := Except.ok.inj h
    exact ⟨hmod s.blue_lt hblue, hmod s.green_lt hgreen, hmod s.red_lt hred,
      fun a h' => (by rw [ha] at h'; cases h'), fun _ => rfl⟩
  | some a =>
    rw [ha] at h
    obtain ⟨alpha, halpha, h⟩ := Loop.bind_eq_ok h
    obtain rfl := Except.ok.inj h
    refine ⟨hmod s.blue_lt hblue, hmod s.green_lt hgreen, hmod s.red_lt hred, fun a' h' => ?_,
      fun h' => (by rw [ha] at h'; cases h')⟩
    rw [ha] at h'
    obtain rfl := Option.some.inj h'
    exact hmod (s.alpha_lt a ha) halpha

theorem convert_shows {bits m : ℕ} {fb : List UInt8} (hgrabs : Grabs s bits)
    (hwrap : 4 * (s.width * s.height) ≤ 2 ^ 32) (hout : out.length = s.width * s.height * 4)
    (h : convert s bits (fb.take m) out = .ok out') {k : ℕ} (hk : k < s.width * s.height) :
    ∃ p, HasPixel out' k p ∧ Shows s bits fb k p := by
  obtain ⟨hsize, -, hbits⟩ := hgrabs
  have hcomm : s.height * s.width = s.width * s.height := Nat.mul_comm _ _
  unfold convert at h
  rw [hcomm] at h
  generalize s.width * s.height = n at *
  obtain rfl | ⟨rfl, hfits, -⟩ | ⟨rfl, hfits⟩ := hbits
  · obtain ⟨-, hpixels⟩ := convertLoop_pixels (by omega) (by omega) h
    obtain ⟨p, hp, hhas⟩ := hpixels k (Nat.zero_le k) (by omega)
    exact ⟨p, hhas, shows565 hp⟩
  · obtain ⟨-, hpixels⟩ := convertLoop_pixels (by omega) (by omega) h
    obtain ⟨p, hp, hhas⟩ := hpixels k (Nat.zero_le k) (by omega)
    exact ⟨p, hhas, shows888 (by omega) hp⟩
  · obtain ⟨-, hpixels⟩ := convertLoop_pixels (by omega) (by omega) h
    obtain ⟨p, hp, hhas⟩ := hpixels k (Nat.zero_le k) (by omega)
    exact ⟨p, hhas, shows8888 (by omega) hp⟩

theorem HasPixel.row {x y : ℕ} {p : Pixel} (hx : x < s.width)
    (h : HasPixel out (y * s.width + x) p) : HasPixel (pngRow s out y) x p := by
  have hrow : ∀ c, c < 4 → (pngRow s out y)[4 * x + c]? = out[4 * (y * s.width + x) + c]? := by
    intro c hc
    rw [pngRow, List.getElem?_take, if_pos (by omega), List.getElem?_drop]
    congr 1
    ring
  obtain ⟨hblue, hgreen, hred, halpha⟩ := h
  exact ⟨(hrow 0 (by omega)).trans hblue, (hrow 1 (by omega)).trans hgreen,
    (hrow 2 (by omega)).trans hred, (hrow 3 (by omega)).trans halpha⟩

theorem pngRow_length (hout : out.length = s.width * s.height * 4) {y : ℕ} (hy : y < s.height) :
    (pngRow s out y).length = 4 * s.width := by
  refine List.length_take_of_le ?_
  rw [List.length_drop, hout, Nat.le_sub_iff_add_le']
  · calc y * 4 * s.width + 4 * s.width = (y + 1) * (4 * s.width) := by ring
      _ ≤ s.height * (4 * s.width) := Nat.mul_le_mul_right _ hy
      _ = s.width * s.height * 4 := by ring
  · calc y * 4 * s.width = y * (4 * s.width) := by ring
      _ ≤ s.height * (4 * s.width) := Nat.mul_le_mul_right _ hy.le
      _ = s.width * s.height * 4 := by ring

theorem Grabs.no_wrap {bits : ℕ} (h : Grabs s bits) (hwidth : s.width ≤ 2 ^ 30) :
    4 * (s.width * s.height) ≤ 2 ^ 32 := by
  obtain ⟨-, hrows, -⟩ := h
  obtain ⟨m, hm⟩ : ∃ m, s.height = m + 1 := ⟨s.height - 1, by have := s.height_pos; omega⟩
  rw [hm, Nat.add_sub_cancel] at hrows
  calc 4 * (s.width * s.height) = 4 * s.width * m + 4 * s.width := by rw [hm]; ring
    _ ≤ 2 ^ 32 := by
      obtain rfl | hpos := Nat.eq_zero_or_pos m
      · omega
      · have := Nat.le_mul_of_pos_right (4 * s.width) hpos
        omega

/-- **What the picture shows.** With enough data for a picture of at most `2 ^ 30` columns, `rows`
has each row of the picture, and in it each pixel of the framebuffer. -/
theorem grab_pixels (s : Shot) (bits : ℕ) (fb : List UInt8) (hgrabs : Grabs s bits)
    (hwidth : s.width ≤ 2 ^ 30) (hdata : s.width * s.height * (bits / 8) ≤ fb.length) :
    ∃ rows, grab s bits fb = .ok rows ∧ rows.length = s.height ∧
      ∀ y, y < s.height → ∃ row, rows[y]? = some row ∧ row.length = 4 * s.width ∧
        ∀ x, x < s.width → ∃ p, HasPixel row x p ∧ Shows s bits fb (y * s.width + x) p := by
  have hout := List.length_replicate (n := s.width * s.height * 4) (a := (0 : UInt8))
  have hin : (fb.take (s.width * s.height * (bits / 8))).length
      = s.width * s.height * (bits / 8) % 2 ^ 32 := by
    rw [List.length_take_of_le hdata, hgrabs.size]
  obtain ⟨hsize, hrows, hbits⟩ := id hgrabs
  obtain ⟨out, hconv⟩ := (good_convert hsize hin hout).mpr hbits
  have hlen := (convert_length hconv).trans hout
  refine ⟨(List.range s.height).map (pngRow s out), ?_, ?_,
    fun y hy => ⟨pngRow s out y, ?_, pngRow_length hlen hy, fun x hx => ?_⟩⟩
  · unfold grab
    rw [if_neg (by omega), hgrabs.size, if_neg (by omega), hconv]
    exact (pngRows_eq hlen (Nat.le_refl _)).1 hrows
  · rw [List.length_map, List.length_range]
  · rw [List.getElem?_map, List.getElem?_range hy]
    rfl
  · have hk : y * s.width + x < s.width * s.height := by
      calc y * s.width + x < y * s.width + s.width := by omega
        _ = (y + 1) * s.width := by ring
        _ ≤ s.height * s.width := Nat.mul_le_mul_right _ hy
        _ = s.width * s.height := Nat.mul_comm _ _
    obtain ⟨p, hhas, hshows⟩ := convert_shows hgrabs (hgrabs.no_wrap hwidth) hout hconv hk
    exact ⟨p, hhas.row hx, hshows⟩

/-- Two pixels below each other -/
def tower : Shot where
  width := 1
  height := 2
  srcBlue := 0
  srcGreen := 1
  srcRed := 2
  srcAlpha := none
  width_pos := Nat.one_pos
  height_pos := Nat.two_pos
  blue_lt := by decide
  green_lt := by decide
  red_lt := by decide
  alpha_lt := nofun

theorem grab_pixels_tower : Grabs tower 16 ∧ tower.width ≤ 2 ^ 30 ∧
    ∃ rows, grab tower 16 [0x34, 0x12, 0xff, 0x07] = .ok rows ∧ rows.length = 2 ∧
      ∀ y, y < 2 → ∃ row, rows[y]? = some row ∧ row.length = 4 ∧
        ∀ x, x < 1 → ∃ p, HasPixel row x p ∧
          Shows tower 16 [0x34, 0x12, 0xff, 0x07] (y * 1 + x) p :=
  have hgrabs : Grabs tower 16 := by decide
  ⟨hgrabs, by decide, grab_pixels tower 16 [0x34, 0x12, 0xff, 0x07] hgrabs (by decide) (by decide)⟩

/-- The depth 15 is converted behind the end of the buffer, whatever the picture is. -/
example : ¬ Grabs tower 15 := by decide

end LddExample.Framebuffer
