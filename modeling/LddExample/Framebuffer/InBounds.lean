import LddExample.Framebuffer.RoundTrip

/-!
# The bounds of `show_bmp`

Width, height and depth come from the file, the number of lines from its length; nothing is checked
against `tmp` or the screen.

* `ScreenInfo`: any values in `struct fb_var_screeninfo`; `screensize` is computed in 32 bits.
* `InBounds`: no run of `show_bmp` on the file leaves `tmp` or the screen or an `int`.
* `RowOk`: one line lands on the screen; `RowOk.between`: it does if a line above and one below do.
* `safe_showLoop_iff`, `safe_showLoop_wide`: the loop, for lines that fit in `tmp` and for others.
* **`inBounds_iff`**: the condition on the header fields, the length of the file and the screen.
-/

namespace LddExample.Framebuffer

open Bytes Loop

/-- The fields of `struct fb_var_screeninfo` that `main` reads. -/
structure ScreenInfo where
  xres : UInt32
  yres : UInt32
  bitsPerPixel : UInt32

namespace ScreenInfo

variable (v : ScreenInfo)

/-- `vinfo.xres * vinfo.yres * vinfo.bits_per_pixel / 8` -/
def screensize : ℕ := (v.xres * v.yres * v.bitsPerPixel / 8).toNat

/-- The global variable `xres`. -/
def xresInt : ℤ := toInt32 v.xres.toNat

/-- The global variable `bits_per_pixel`. -/
def bitsInt : ℤ := toInt32 v.bitsPerPixel.toNat

end ScreenInfo

/-- A run with any fuel raises no fault. -/
def Safe {α : Type} (run : ℕ → Except BmpFault α) : Prop :=
  ∀ fuel e, run fuel = .error e → e = .outOfFuel

/-- **`show_bmp` stays in bounds**: no `fread` stores more than `sizeof(tmp)` bytes, no `memcpy`
leaves the screen, and no `int` that leads to their arguments overflows. -/
def InBounds (v : ScreenInfo) (file : List UInt8) : Prop :=
  ∀ screen : List UInt8, screen.length = v.screensize →
    Safe fun fuel => showBmpOn v.xresInt v.bitsInt fuel file screen

/-! ## The offset of a line -/

/-- Line `y` of `n` bytes lands on a screen of `size` bytes. -/
structure RowOk (n : ℕ) (h X B : ℤ) (size y : ℕ) : Prop where
  sub : Fits32 (h - y)
  pred : Fits32 (h - y - 1)
  pixel : Fits32 ((h - y - 1) * X)
  bit : Fits32 ((h - y - 1) * X * B)
  nonneg : 0 ≤ ((h - y - 1) * X * B).tdiv 8
  le : ((h - y - 1) * X * B).tdiv 8 + n ≤ size

theorem int32_error {x : ℤ} {e : BmpFault} (h : int32 x = .error e) : e = .intOverflow := by
  unfold int32 at h
  split_ifs at h
  cases h
  rfl

theorem location_error {h y X B : ℤ} {e : BmpFault} (herr : location h y X B = .error e) :
    e = .intOverflow := by
  obtain h₁ | ⟨x₁, -, herr⟩ := bind_eq_error herr
  · exact int32_error h₁
  obtain h₂ | ⟨x₂, -, herr⟩ := bind_eq_error herr
  · exact int32_error h₂
  obtain h₃ | ⟨x₃, -, herr⟩ := bind_eq_error herr
  · exact int32_error h₃
  obtain h₄ | ⟨x₄, -, herr⟩ := bind_eq_error herr
  · exact int32_error h₄
  cases herr

theorem rowOk_iff {n : ℕ} {h X B : ℤ} {size y : ℕ} :
    RowOk n h X B size y ↔ ∃ loc : ℕ, location h y X B = .ok loc ∧ loc + n ≤ size := by
  constructor
  · intro hrow
    obtain ⟨loc, hloc⟩ := Int.eq_ofNat_of_zero_le hrow.nonneg
    have hle := hrow.le
    refine ⟨loc, ?_, by omega⟩
    rw [location_of_fits hrow.sub hrow.pred hrow.pixel hrow.bit, hloc]
  · rintro ⟨loc, hloc, hle⟩
    obtain ⟨hsub, hpred, hpixel, hbit, hval⟩ := fits_of_location hloc
    exact ⟨hsub, hpred, hpixel, hbit, by omega, by omega⟩

theorem Fits32.between {a b c : ℤ} (ha : Fits32 a) (hc : Fits32 c)
    (h : (a ≤ b ∧ b ≤ c) ∨ (c ≤ b ∧ b ≤ a)) : Fits32 b := by
  unfold Fits32 at *
  omega

theorem mul_between {a b c : ℤ} (hab : a ≤ b) (hbc : b ≤ c) (K : ℤ) :
    (a * K ≤ b * K ∧ b * K ≤ c * K) ∨ (c * K ≤ b * K ∧ b * K ≤ a * K) := by
  rcases le_total 0 K with hK | hK
  · exact .inl ⟨mul_le_mul_of_nonneg_right hab hK, mul_le_mul_of_nonneg_right hbc hK⟩
  · exact .inr ⟨mul_le_mul_of_nonpos_right hbc hK, mul_le_mul_of_nonpos_right hab hK⟩

/-- **The offset is linear in the line**: between two lines that land on the screen all lines do. -/
theorem RowOk.between {n : ℕ} {h X B : ℤ} {size y₁ y y₂ : ℕ} (h₁ : RowOk n h X B size y₁)
    (h₂ : RowOk n h X B size y₂) (hy₁ : y₁ ≤ y) (hy₂ : y ≤ y₂) : RowOk n h X B size y := by
  have hle : h - y₂ - 1 ≤ h - y - 1 := by omega
  have hge : h - y - 1 ≤ h - y₁ - 1 := by omega
  have hpixel := mul_between hle hge X
  have hbit := mul_between hle hge (X * B)
  simp only [← mul_assoc] at hbit
  have hdiv : ∀ {a b : ℤ}, a ≤ b → a.tdiv 8 ≤ b.tdiv 8 := fun hab =>
    Int.tdiv_le_tdiv (by norm_num) hab
  have hlo₁ := h₁.nonneg
  have hlo₂ := h₂.nonneg
  have hhi₁ := h₁.le
  have hhi₂ := h₂.le
  refine ⟨h₂.sub.between h₁.sub (.inl ⟨by omega, by omega⟩), h₂.pred.between h₁.pred
    (.inl ⟨hle, hge⟩), h₂.pixel.between h₁.pixel hpixel, h₂.bit.between h₁.bit hbit, ?_, ?_⟩
  · rcases hbit with ⟨hb, -⟩ | ⟨hb, -⟩ <;> have := hdiv hb <;> omega
  · rcases hbit with ⟨-, hb⟩ | ⟨-, hb⟩ <;> have := hdiv hb <;> omega

/-! ## The loop -/

section ShowLoop

variable {n : ℕ} {h X B : ℤ} {data screen : List UInt8} {y : ℕ}

/-- The next turn stores a line and counts it. -/
def TurnOk (n : ℕ) (h X B : ℤ) (size y : ℕ) : Prop := RowOk n h X B size y ∧ y + 1 < 2 ^ 31

theorem showLoop_turn (htmp : n ≤ tmpSize) (hle : n ≤ data.length)
    (hturn : TurnOk n h X B screen.length y) : ∃ screen' : List UInt8,
      screen'.length = screen.length ∧ ∀ fuel, showLoop n h X B (fuel + 1) y data screen =
        showLoop n h X B fuel (y + 1) (data.drop n) screen' := by
  obtain ⟨hrow, hy⟩ := hturn
  obtain ⟨loc, hloc, hin⟩ := rowOk_iff.1 hrow
  have hlen : (data.take n).length = n := by
    rw [List.length_take]
    omega
  refine ⟨screen.take loc ++ data.take n ++ screen.drop (loc + n), ?_, fun fuel => ?_⟩
  · simp only [List.length_append, List.length_take, List.length_drop]
    omega
  · have hline : showLoop n h X B (fuel + 1) y (data.take n ++ data.drop n) screen = _ :=
      showLoop_line hlen htmp hloc hin hy
    rwa [List.take_append_drop] at hline

theorem showLoop_fault (htmp : n ≤ tmpSize) (hle : n ≤ data.length)
    (hturn : ¬TurnOk n h X B screen.length y) (fuel : ℕ) :
    ∃ e, showLoop n h X B (fuel + 1) y data screen = .error e ∧ e ≠ .outOfFuel := by
  have hlen : (data.take n).length = n := by
    rw [List.length_take]
    omega
  rw [showLoop, fread_natCast, if_neg (by omega), if_neg (by omega)]
  cases hloc : location h y X B with
  | error e =>
    refine ⟨e, rfl, ?_⟩
    rw [location_error hloc]
    decide
  | ok loc =>
    rw [Except.bind]
    by_cases hin : 0 ≤ loc ∧ loc + (data.take n).length ≤ screen.length
    · -- the line is stored, so its number is the last one of `int`
      obtain ⟨l, rfl⟩ := Int.eq_ofNat_of_zero_le hin.1
      have hy : ¬y + 1 < 2 ^ 31 := fun hy =>
        hturn ⟨rowOk_iff.2 ⟨l, hloc, by omega⟩, hy⟩
      have hover : int32 ((y : ℤ) + 1) = .error .intOverflow := if_neg (by omega)
      rw [memcpy, if_pos hin, Except.bind, hover]
      exact ⟨.intOverflow, rfl, by decide⟩
    · rw [memcpy, if_neg hin]
      exact ⟨.screenOverrun, rfl, by decide⟩

theorem showLoop_no_fault (htmp : n ≤ tmpSize)
    (hall : ∀ i, (i + 1) * n ≤ data.length → TurnOk n h X B screen.length (y + i)) :
    Safe fun fuel => showLoop n h X B fuel y data screen := by
  intro fuel
  induction fuel generalizing y data screen with
  | zero =>
    intro e he
    cases he
    rfl
  | succ fuel ih =>
    intro e he
    dsimp only at he
    rcases Nat.lt_or_ge data.length n with hlt | hle
    · rw [showLoop_short hlt htmp] at he
      cases he
    · have hturn : TurnOk n h X B screen.length y := hall 0 (by omega)
      obtain ⟨screen', hscreen, heq⟩ := showLoop_turn htmp hle hturn
      rw [heq] at he
      refine ih (fun i hi => ?_) e he
      rw [List.length_drop] at hi
      have hnext := hall (i + 1) (by rw [Nat.succ_mul]; omega)
      rw [hscreen, show y + 1 + i = y + (i + 1) by omega]
      exact hnext

theorem turnOk_of_safe (htmp : n ≤ tmpSize) (hle : n ≤ data.length)
    (hsafe : Safe fun fuel => showLoop n h X B fuel y data screen) :
    TurnOk n h X B screen.length y := by
  by_contra hturn
  obtain ⟨e, he, hne⟩ := showLoop_fault htmp hle hturn 0
  exact hne (hsafe 1 e he)

/-- **Lines that fit in `tmp` are in bounds exactly when every full line of the file is.** -/
theorem safe_showLoop_iff (htmp : n ≤ tmpSize) :
    (Safe fun fuel => showLoop n h X B fuel y data screen) ↔
      ∀ i, (i + 1) * n ≤ data.length → TurnOk n h X B screen.length (y + i) := by
  refine ⟨fun hsafe i => ?_, showLoop_no_fault htmp⟩
  induction i generalizing y data screen with
  | zero =>
    intro hle
    exact turnOk_of_safe htmp (by omega) hsafe
  | succ i ih =>
    intro hle
    rw [Nat.succ_mul] at hle
    have hfirst : n ≤ data.length := by omega
    have hturn := turnOk_of_safe htmp hfirst hsafe
    obtain ⟨screen', hscreen, heq⟩ := showLoop_turn htmp hfirst hturn
    have hrest : Safe fun fuel => showLoop n h X B fuel (y + 1) (data.drop n) screen' :=
      fun fuel e he => hsafe (fuel + 1) e ((heq fuel).trans he)
    have hnext := ih hrest (by rw [List.length_drop]; omega)
    rwa [hscreen, show y + 1 + i = y + (i + 1) by omega] at hnext

/-- **Other lines are never stored; the first `fread` takes what is left of the file.** -/
theorem safe_showLoop_wide {L : ℤ} (hL : L < 0 ∨ tmpSize < L) :
    (Safe fun fuel => showLoop L h X B fuel y data screen) ↔ data.length ≤ tmpSize := by
  have hread : tmpSize < (fread L data).length ↔ tmpSize < data.length := by
    rw [fread]
    split_ifs
    · rfl
    · rw [List.length_take]
      omega
  have hlen : (fread L data).length ≤ data.length := by
    rw [fread]
    split_ifs
    · rfl
    · exact List.length_take_le' _ _
  constructor
  · intro hsafe
    by_contra hover
    have hfault : showLoop L h X B 1 y data screen = .error .tmpOverrun := by
      rw [showLoop, if_pos (hread.2 (by omega))]
    cases hsafe 1 _ hfault
  · intro hle fuel e he
    cases fuel with
    | zero =>
      cases he
      rfl
    | succ fuel =>
      dsimp only at he
      rw [showLoop, if_neg (by omega), if_pos (by omega)] at he
      cases he

end ShowLoop

/-! ## The lines of a file -/

/-- The first and the last line decide. -/
theorem turns_iff {n : ℕ} {h X B : ℤ} {size k : ℕ} :
    (∀ i < k, TurnOk n h X B size i) ↔
      k = 0 ∨ RowOk n h X B size 0 ∧ RowOk n h X B size (k - 1) ∧ k < 2 ^ 31 := by
  constructor
  · intro hall
    rcases Nat.eq_zero_or_pos k with rfl | hk
    · exact .inl rfl
    · have hlast := hall (k - 1) (by omega)
      exact .inr ⟨(hall 0 hk).1, hlast.1, by have := hlast.2; omega⟩
  · rintro (rfl | ⟨hfirst, hlast, hk⟩) i hi
    · omega
    · exact ⟨hfirst.between hlast (Nat.zero_le i) (by omega), by omega⟩

variable (file : List UInt8)

/-- The width, as `show_bmp` reads the header. -/
def ciWidth : ℤ := chartolong ((((file.drop 14).take 40).drop 4).take 4)

/-- The height. -/
def ciHeight : ℤ := chartolong ((((file.drop 14).take 40).drop 8).take 4)

/-- The bits of a pixel, from four bytes where the header has two. -/
def ciBitCount : ℤ := chartolong ((((file.drop 14).take 40).drop 14).take 4)

/-- `(ciWidth * ciBitCount + 31) / 32 * 4` -/
def lineBytes : ℤ := (ciWidth file * ciBitCount file + 31).tdiv 32 * 4

/-- Both headers are there, and the type is `BM`. -/
def HasHeaders : Prop := 54 ≤ file.length ∧ file.take 2 = [0x42, 0x4d]

/-- The number of full lines behind the headers. -/
def lines : ℕ := (file.length - 54) / (lineBytes file).toNat

/-- The length of a line is none for `tmp`, but what is left of the file fits in `tmp`; or it is
one, and the first and the last line land on the screen. -/
def RowsOk (v : ScreenInfo) : Prop :=
  ((lineBytes file < 0 ∨ tmpSize < lineBytes file) ∧ file.length - 54 ≤ tmpSize) ∨
  (0 < lineBytes file ∧ lineBytes file ≤ tmpSize ∧ (lines file = 0 ∨
    RowOk (lineBytes file).toNat (ciHeight file) v.xresInt v.bitsInt v.screensize 0 ∧
    RowOk (lineBytes file).toNat (ciHeight file) v.xresInt v.bitsInt v.screensize
      (lines file - 1) ∧ lines file < 2 ^ 31))

/-- **What the header fields, the length of the file and the screen have to satisfy.** -/
structure Displayable (v : ScreenInfo) : Prop where
  width : Fits32 (ciWidth file * ciBitCount file)
  width31 : Fits32 (ciWidth file * ciBitCount file + 31)
  rows : RowsOk file v

variable {file}

theorem showBmpOn_of_not_hasHeaders (hno : ¬HasHeaders file) (X B : ℤ) (screen : List UInt8) :
    ∃ r, ∀ fuel, showBmpOn X B fuel file screen = .ok (r, screen) := by
  have hfile : (file.take 14).length = min 14 file.length := List.length_take
  have hinfo : ((file.drop 14).take 40).length = min 40 (file.length - 14) := by
    rw [List.length_take, List.length_drop]
  have hbm : (file.take 14).take 2 = file.take 2 := by
    rw [List.take_take, Nat.min_eq_left (by omega)]
  simp only [showBmpOn, hfile, hinfo, hbm]
  by_cases h₁ : min 14 file.length ≠ 14
  · exact ⟨-2, fun _ => if_pos h₁⟩
  · by_cases h₂ : file.take 2 ≠ [0x42, 0x4d]
    · exact ⟨-3, fun _ => by rw [if_neg h₁, if_pos h₂]⟩
    · have h₃ : min 40 (file.length - 14) ≠ 40 := fun hlen =>
        hno ⟨by omega, not_not.1 h₂⟩
      exact ⟨-4, fun _ => by rw [if_neg h₁, if_neg h₂, if_pos h₃]⟩

theorem showBmpOn_of_hasHeaders (hhead : HasHeaders file) (X B : ℤ) (fuel : ℕ)
    (screen : List UInt8) : showBmpOn X B fuel file screen =
      (bytesPerLine (ciWidth file) (ciBitCount file)).bind fun bpl =>
        (showLoop bpl (ciHeight file) X B fuel 0 (file.drop 54) screen).map
          fun screen => (0, screen) := by
  obtain ⟨hlen, hbm⟩ := hhead
  have hfile : (file.take 14).length = 14 := by
    rw [List.length_take]
    omega
  have hinfo : ((file.drop 14).take 40).length = 40 := by
    rw [List.length_take, List.length_drop]
    omega
  have htype : (file.take 14).take 2 = [0x42, 0x4d] := by
    rw [List.take_take, Nat.min_eq_left (by omega), hbm]
  rw [showBmpOn, if_neg (by omega), htype, if_neg (by simp), if_neg (by omega)]
  rfl

theorem safe_map {α β : Type} {run : ℕ → Except BmpFault α} (f : α → β) :
    (Safe fun fuel => (run fuel).map f) ↔ Safe run := by
  refine forall_congr' fun fuel => forall_congr' fun e => ?_
  dsimp only
  cases run fuel with
  | ok a => exact iff_of_true (fun h => by cases h) fun h => by cases h
  | error e' =>
    constructor
    · intro h he
      cases he
      exact h rfl
    · intro h he
      cases he
      exact h rfl

theorem safe_lines_iff {v : ScreenInfo} {screen : List UInt8}
    (hscreen : screen.length = v.screensize) :
    (Safe fun fuel => showLoop (lineBytes file) (ciHeight file) v.xresInt v.bitsInt fuel 0
      (file.drop 54) screen) ↔ RowsOk file v := by
  unfold RowsOk
  by_cases hwide : lineBytes file < 0 ∨ tmpSize < lineBytes file
  · rw [safe_showLoop_wide hwide, List.length_drop]
    constructor
    · intro hle
      exact .inl ⟨hwide, hle⟩
    · rintro (⟨-, hle⟩ | ⟨hpos, hle, -⟩)
      · exact hle
      · omega
  · unfold lines
    obtain ⟨n, hn⟩ := Int.eq_ofNat_of_zero_le (show 0 ≤ lineBytes file by omega)
    rw [hn] at hwide ⊢
    rw [safe_showLoop_iff (by omega), hscreen, List.length_drop, Int.toNat_natCast]
    simp only [Nat.zero_add]
    rcases Nat.eq_zero_or_pos n with rfl | hpos
    · -- lines of no bytes: the loop goes on until `line_y` overflows
      refine iff_of_false (fun hall => ?_) ?_
      · have := (hall (2 ^ 31) (by omega)).2
        omega
      · rintro (⟨h, -⟩ | ⟨h, -⟩) <;> omega
    · have hlines : (∀ i, (i + 1) * n ≤ file.length - 54 →
          TurnOk n (ciHeight file) v.xresInt v.bitsInt v.screensize i) ↔
          ∀ i < (file.length - 54) / n,
            TurnOk n (ciHeight file) v.xresInt v.bitsInt v.screensize i :=
        forall_congr' fun i => by rw [← Nat.le_div_iff_mul_le hpos, Nat.succ_le_iff]
      rw [hlines, turns_iff]
      constructor
      · intro hrows
        exact .inr ⟨by omega, by omega, hrows⟩
      · rintro (⟨h, -⟩ | ⟨-, -, hrows⟩)
        · omega
        · exact hrows

/-- **`show_bmp` stays in bounds exactly for files without headers and for files whose lines are
displayable.** -/
theorem inBounds_iff (v : ScreenInfo) (file : List UInt8) :
    InBounds v file ↔ (HasHeaders file → Displayable file v) := by
  by_cases hhead : HasHeaders file
  · rw [forall_prop_of_true hhead]
    have hshow := showBmpOn_of_hasHeaders hhead v.xresInt v.bitsInt
    obtain ⟨hw, hw31, hbpl⟩ | ⟨hover, hbpl⟩ :=
      bytesPerLine_cases (ciWidth file) (ciBitCount file)
    · have hsafe : ∀ screen : List UInt8, screen.length = v.screensize →
          ((Safe fun fuel => showBmpOn v.xresInt v.bitsInt fuel file screen) ↔
            RowsOk file v) := fun screen hscreen => by
        simp only [hshow, hbpl, Except.bind]
        exact (safe_map _).trans (safe_lines_iff hscreen)
      constructor
      · intro hin
        refine ⟨hw, hw31, (hsafe (List.replicate v.screensize 0) List.length_replicate).1 ?_⟩
        exact hin _ List.length_replicate
      · intro hdisp screen hscreen
        exact (hsafe screen hscreen).2 hdisp.rows
    · refine iff_of_false (fun hin => ?_) fun hdisp => hover ⟨hdisp.width, hdisp.width31⟩
      have hfault : showBmpOn v.xresInt v.bitsInt 0 file (List.replicate v.screensize 0) =
          .error .intOverflow := by
        rw [hshow, hbpl]
        rfl
      cases hin _ List.length_replicate 0 _ hfault
  · refine iff_of_true (fun screen _ fuel e he => ?_) fun h => absurd h hhead
    obtain ⟨r, hok⟩ := showBmpOn_of_not_hasHeaders hhead v.xresInt v.bitsInt screen
    dsimp only at he
    rw [hok] at he
    cases he

/-- A screen of one pixel of 32 bits. -/
def onePixel : ScreenInfo := ⟨1, 1, 32⟩

/-- A picture of one pixel of 32 bits, with a second line behind the first. -/
def trailingLine : List UInt8 :=
  [0x42, 0x4d] ++ List.replicate 12 0 ++
    ([40, 0, 0, 0] ++ [1, 0, 0, 0] ++ [1, 0, 0, 0] ++ [1, 0, 32, 0] ++ List.replicate 24 0) ++
    [1, 2, 3, 4, 5, 6, 7, 8]

/-- **The second line is stored in front of the screen.** -/
theorem trailingLine_not_inBounds : ciHeight trailingLine = 1 ∧
    showBmpOn onePixel.xresInt onePixel.bitsInt 3 trailingLine [0, 0, 0, 0] =
      .error .screenOverrun ∧ ¬InBounds onePixel trailingLine := by
  have hfault : showBmpOn onePixel.xresInt onePixel.bitsInt 3 trailingLine [0, 0, 0, 0] =
      .error .screenOverrun := by decide +kernel
  refine ⟨by decide, hfault, fun hin => ?_⟩
  cases hin [0, 0, 0, 0] (by decide) 3 _ hfault

end LddExample.Framebuffer
