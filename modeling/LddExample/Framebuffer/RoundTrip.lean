import LddExample.Framebuffer.Bmp
import LddExample.Lib.Loop
import Mathlib.Tactic.Linarith

/-!
# Screenshots and their display

* `Restored g fb`: `show_bmp` stores the captured bytes `fb` back, whatever was on the screen.
* `Geometry.Fits`: the lines have a multiple of 4 bytes and fit in `tmp`, the depth fits in
  `biBitCount`, and the offset of the last line fits in an `int` when counted in bits.
* `showLoop_rows`: lines of the file's own length land where they were taken from.
* `showLoop_ok`: what a loop that ends without a fault has written, for any length of the lines.
* **`restored_iff_fits`**: a screenshot is restored exactly when the geometry fits.
-/

namespace LddExample.Framebuffer

open Bytes Loop

/-- **`show_bmp` stores back every byte that `test_fd_app1` captured.** -/
def Restored (g : Geometry) (fb : List UInt8) : Prop :=
  ∃ file, captureBmp g fb = some file ∧
    ∀ screen : List UInt8, screen.length = g.size →
      ∃ fuel, showBmp g fuel file screen = .ok (0, fb)

/-- What the two programs agree on. -/
structure Geometry.Fits (g : Geometry) : Prop where
  aligned : g.row % 4 = 0
  tmp : g.row ≤ tmpSize
  depth : g.bitsPerPixel < 65536
  offset : (g.yres - 1) * g.xres * g.bitsPerPixel < 2 ^ 31

namespace Geometry

variable (g : Geometry)

theorem exists_bytes : ∃ c, g.bitsPerPixel = 8 * c ∧ g.row = g.xres * c := by
  obtain ⟨c, hc⟩ := g.bits_dvd
  exact ⟨c, hc, by rw [row, hc, Nat.mul_div_cancel_left c (by norm_num)]⟩

theorem eight_mul_row : 8 * g.row = g.xres * g.bitsPerPixel := by
  obtain ⟨c, hc, hrow⟩ := g.exists_bytes
  rw [hc, hrow]
  ring

theorem size_eq : g.size = g.yres * g.row := by
  have h8 := g.eight_mul_row
  rw [size]
  refine Nat.div_eq_of_eq_mul_left (by norm_num) ?_
  calc g.xres * g.yres * g.bitsPerPixel = g.yres * (g.xres * g.bitsPerPixel) := by ring
    _ = g.yres * g.row * 8 := by rw [← h8]; ring

theorem row_pos : 0 < g.row := by
  have h8 := g.eight_mul_row
  have : 0 < g.xres * g.bitsPerPixel := Nat.mul_pos g.xres_pos g.bits_pos
  omega

theorem size_pos : 0 < g.size := by
  rw [g.size_eq]
  exact Nat.mul_pos g.yres_pos g.row_pos

end Geometry

/-! ## The file -/

/-- The last `m` lines from the bottom up, `n` bytes each. -/
def bottomUp (fb : List UInt8) (n : ℕ) : ℕ → List UInt8
  | 0 => []
  | m + 1 => (fb.drop (n * m)).take n ++ bottomUp fb n m

theorem length_of_slice {buf line : List UInt8} {off n : ℕ} (h : slice buf off n = some line) :
    line.length = n := by
  unfold slice at h
  split_ifs at h with hlen
  cases h
  rw [List.length_take, List.length_drop]
  omega

theorem length_writeRows {g : Geometry} {imgBuf data : List UInt8} {m : ℕ}
    (h : writeRows g imgBuf m = some data) : data.length = m * (g.row % 2 ^ 32) := by
  induction m generalizing data with
  | zero =>
    cases h
    simp
  | succ m ih =>
    obtain ⟨line, hline, h⟩ := Option.bind_eq_some_iff.1 h
    obtain ⟨rest, hrest, hdata⟩ := Option.bind_eq_some_iff.1 h
    cases hdata
    rw [List.length_append, ih hrest, length_of_slice hline, ← Geometry.row, Nat.succ_mul,
      Nat.add_comm]

theorem writeRows_eq {g : Geometry} {fb : List UInt8} (hfb : fb.length = g.size)
    (hsize : g.size < 2 ^ 32) {m : ℕ} (hm : m ≤ g.yres) :
    writeRows g fb m = some (bottomUp fb g.row m) := by
  induction m with
  | zero => rfl
  | succ m ih =>
    have hle : (m + 1) * g.row ≤ g.size := by
      rw [g.size_eq]
      exact Nat.mul_le_mul_right _ hm
    have hoff : g.xres * m * (g.bitsPerPixel / 8) = g.row * m := by
      rw [Geometry.row]
      ring
    have hsum : (m + 1) * g.row = g.row * m + g.row := by ring
    have hrow : g.row % 2 ^ 32 = g.row := Nat.mod_eq_of_lt (by omega)
    have hrm : g.row * m % 2 ^ 32 = g.row * m := Nat.mod_eq_of_lt (by omega)
    rw [writeRows, hoff, ← Geometry.row, hrow, hrm, slice, if_pos (by omega),
      ih (Nat.le_of_succ_le hm)]
    rfl

theorem length_fileHead (g : Geometry) : (fileHead g).length = 14 := by
  simp [fileHead]

theorem length_infoHead (g : Geometry) : (infoHead g).length = 40 := by
  simp [infoHead]

theorem captureBmp_eq_some {g : Geometry} {fb file : List UInt8}
    (h : captureBmp g fb = some file) :
    ∃ data, file = fileHead g ++ infoHead g ++ data ∧
      data.length = g.yres * (g.row % 2 ^ 32) := by
  unfold captureBmp at h
  split_ifs at h
  obtain ⟨data, hdata, rfl⟩ := Option.map_eq_some_iff.1 h
  exact ⟨data, rfl, length_writeRows hdata⟩

theorem chartolong_leBytes (n : ℕ) : chartolong (leBytes 4 n) = toInt32 n := by
  rw [chartolong, leVal_leBytes, toInt32, toInt32, show 256 ^ 4 = 2 ^ 32 by norm_num, Nat.mod_mod]

/-- **What `show_bmp` reads in the headers.** -/
theorem showBmp_capture (g : Geometry) (data : List UInt8) (fuel : ℕ) (screen : List UInt8) :
    showBmp g fuel (fileHead g ++ infoHead g ++ data) screen =
      (bytesPerLine (toInt32 g.xres) (toInt32 (g.bitsPerPixel % 65536))).bind fun bpl =>
        (showLoop bpl (toInt32 g.yres) (toInt32 g.xres) (toInt32 g.bitsPerPixel) fuel 0 data
          screen).map fun screen => (0, screen) := by
  have hfile : (fileHead g ++ infoHead g ++ data).take 14 = fileHead g := by
    rw [List.append_assoc, ← length_fileHead g, List.take_left]
  have hrest : (fileHead g ++ infoHead g ++ data).drop 14 = infoHead g ++ data := by
    rw [List.append_assoc, ← length_fileHead g, List.drop_left]
  have hinfo : (infoHead g ++ data).take 40 = infoHead g := by
    rw [← length_infoHead g, List.take_left]
  have hdata : (fileHead g ++ infoHead g ++ data).drop 54 = data := by
    have hlen : (fileHead g ++ infoHead g).length = 54 := by
      rw [List.length_append, length_fileHead, length_infoHead]
    rw [← hlen, List.drop_left]
  have hbm : (fileHead g).take 2 = [0x42, 0x4d] := by
    simp [fileHead, leBytes]
  have hw : ((infoHead g).drop 4).take 4 = leBytes 4 g.xres := rfl
  have hh : ((infoHead g).drop 8).take 4 = leBytes 4 g.yres := rfl
  have hb : ((infoHead g).drop 14).take 4 = leBytes 4 (g.bitsPerPixel % 65536) := by
    -- the two bytes after `biBitCount` are those of `biCompression`
    have hlow : ((infoHead g).drop 14).take 4 = leBytes 2 g.bitsPerPixel ++ [0, 0] := rfl
    have h₁ : g.bitsPerPixel % 65536 % 256 = g.bitsPerPixel % 256 := by omega
    have h₂ : g.bitsPerPixel % 65536 / 256 = g.bitsPerPixel / 256 % 256 := by omega
    have h₃ : g.bitsPerPixel / 256 % 256 / 256 = 0 := by omega
    rw [hlow]
    simp [leBytes, h₁, h₂, h₃]
  rw [showBmp, showBmpOn, hfile, hrest, hinfo, hdata, if_neg (by simp [length_fileHead]), hbm,
    if_neg (by simp), if_neg (by simp [length_infoHead]), hw, hh, hb, chartolong_leBytes,
    chartolong_leBytes, chartolong_leBytes]

/-! ## Arithmetic of `int` -/

theorem int32_of_range {x : ℤ} (h₁ : -2 ^ 31 ≤ x) (h₂ : x < 2 ^ 31) : int32 x = .ok x :=
  if_pos ⟨h₁, h₂⟩

theorem int32_eq_ok {x y : ℤ} (h : int32 x = .ok y) : y = x ∧ -2 ^ 31 ≤ x ∧ x < 2 ^ 31 := by
  unfold int32 at h
  split_ifs at h with hr
  cases h
  exact ⟨rfl, hr⟩

theorem toInt32_of_lt {n : ℕ} (h : n < 2 ^ 31) : toInt32 n = n := by
  have hmod : n % 2 ^ 32 = n := Nat.mod_eq_of_lt (by omega)
  rw [toInt32, hmod, if_pos h]

theorem toInt32_cases {n : ℕ} (h : n < 2 ^ 32) :
    (n < 2 ^ 31 ∧ toInt32 n = n) ∨ (2 ^ 31 ≤ n ∧ toInt32 n = n - 2 ^ 32) := by
  by_cases hn : n < 2 ^ 31
  · exact .inl ⟨hn, toInt32_of_lt hn⟩
  · have hmod : n % 2 ^ 32 = n := Nat.mod_eq_of_lt h
    exact .inr ⟨by omega, by rw [toInt32, hmod, if_neg hn]⟩

/-- The value is one of `int`. -/
def Fits32 (x : ℤ) : Prop := -2 ^ 31 ≤ x ∧ x < 2 ^ 31

theorem bytesPerLine_cases (w b : ℤ) :
    (Fits32 (w * b) ∧ Fits32 (w * b + 31) ∧
      bytesPerLine w b = .ok ((w * b + 31).tdiv 32 * 4)) ∨
    ¬(Fits32 (w * b) ∧ Fits32 (w * b + 31)) ∧ bytesPerLine w b = .error .intOverflow := by
  unfold bytesPerLine
  by_cases h₁ : Fits32 (w * b)
  · rw [int32_of_range h₁.1 h₁.2, Except.bind]
    by_cases h₂ : Fits32 (w * b + 31)
    · have hlo : (-2 ^ 31 : ℤ).tdiv 32 ≤ (w * b + 31).tdiv 32 :=
        Int.tdiv_le_tdiv (by norm_num) h₂.1
      have hhi : (w * b + 31).tdiv 32 ≤ (2 ^ 31 : ℤ).tdiv 32 :=
        Int.tdiv_le_tdiv (by norm_num) h₂.2.le
      have hends : (-2 ^ 31 : ℤ).tdiv 32 = -2 ^ 26 ∧ (2 ^ 31 : ℤ).tdiv 32 = 2 ^ 26 := by decide
      rw [int32_of_range h₂.1 h₂.2, Except.bind, int32_of_range (by omega) (by omega)]
      exact .inl ⟨h₁, h₂, rfl⟩
    · have hover : int32 (w * b + 31) = .error .intOverflow := if_neg h₂
      rw [hover]
      exact .inr ⟨fun h => h₂ h.2, rfl⟩
  · have hover : int32 (w * b) = .error .intOverflow := if_neg h₁
    rw [hover]
    exact .inr ⟨fun h => h₁ h.1, rfl⟩

theorem location_of_fits {h y X B : ℤ} (h₁ : Fits32 (h - y)) (h₂ : Fits32 (h - y - 1))
    (h₃ : Fits32 ((h - y - 1) * X)) (h₄ : Fits32 ((h - y - 1) * X * B)) :
    location h y X B = .ok (((h - y - 1) * X * B).tdiv 8) := by
  rw [location, int32_of_range h₁.1 h₁.2, Except.bind, int32_of_range h₂.1 h₂.2, Except.bind,
    int32_of_range h₃.1 h₃.2, Except.bind, int32_of_range h₄.1 h₄.2, Except.bind]

theorem fits_of_location {h y X B loc : ℤ} (hok : location h y X B = .ok loc) :
    Fits32 (h - y) ∧ Fits32 (h - y - 1) ∧ Fits32 ((h - y - 1) * X) ∧
      Fits32 ((h - y - 1) * X * B) ∧ loc = ((h - y - 1) * X * B).tdiv 8 := by
  obtain ⟨_, h₁, hok⟩ := bind_eq_ok hok
  obtain ⟨rfl, hsub⟩ := int32_eq_ok h₁
  obtain ⟨_, h₂, hok⟩ := bind_eq_ok hok
  obtain ⟨rfl, hpred⟩ := int32_eq_ok h₂
  obtain ⟨_, h₃, hok⟩ := bind_eq_ok hok
  obtain ⟨rfl, hpixel⟩ := int32_eq_ok h₃
  obtain ⟨_, h₄, hok⟩ := bind_eq_ok hok
  obtain ⟨rfl, hbit⟩ := int32_eq_ok h₄
  exact ⟨hsub, hpred, hpixel, hbit, (Except.ok.inj hok).symm⟩

theorem location_eq {h y X B : ℕ} {m : ℕ} (hy : y + (m + 1) = h) (hh : h < 2 ^ 31)
    (hX : m * X < 2 ^ 31) (hB : m * X * B < 2 ^ 31) :
    location h y X B = .ok ((m * X * B / 8 : ℕ) : ℤ) := by
  have hm : (h : ℤ) - y - 1 = m := by omega
  have hX' : (m : ℤ) * X = (m * X : ℕ) := by push_cast; ring
  have hB' : (m : ℤ) * X * B = (m * X * B : ℕ) := by push_cast; ring
  have hloc := location_of_fits (h := h) (y := y) (X := X) (B := B) ⟨by omega, by omega⟩
    ⟨by omega, by omega⟩ (by rw [hm, hX']; exact ⟨by omega, by omega⟩)
    (by rw [hm, hB']; exact ⟨by omega, by omega⟩)
  rw [hloc, hm, hB']
  rfl

/-! ## The loop -/

theorem memcpy_eq {screen tmp : List UInt8} {loc : ℕ} (h : loc + tmp.length ≤ screen.length) :
    memcpy screen loc tmp =
      .ok (screen.take loc ++ tmp ++ screen.drop (loc + tmp.length)) := by
  rw [memcpy, if_pos ⟨by omega, by omega⟩, Int.toNat_natCast]

theorem fread_natCast (n : ℕ) (data : List UInt8) : fread n data = data.take n := by
  rw [fread, if_neg (by omega), Int.toNat_natCast]

theorem showLoop_line {n fuel y loc : ℕ} {h X B : ℤ} {tmp rest screen : List UInt8}
    (hlen : tmp.length = n) (htmp : n ≤ tmpSize) (hloc : location h y X B = .ok loc)
    (hle : loc + n ≤ screen.length) (hy : y + 1 < 2 ^ 31) :
    showLoop n h X B (fuel + 1) y (tmp ++ rest) screen =
      showLoop n h X B fuel (y + 1) rest (screen.take loc ++ tmp ++ screen.drop (loc + n)) := by
  have hread : fread n (tmp ++ rest) = tmp := by
    rw [fread_natCast, ← hlen, List.take_left]
  rw [showLoop, hread, if_neg (by omega), if_neg (by omega), hloc, Except.bind,
    memcpy_eq (by omega), Except.bind, int32_of_range (by omega) (by omega), Except.bind,
    List.drop_left, hlen]

theorem showLoop_short {n fuel y : ℕ} {h X B : ℤ} {data screen : List UInt8}
    (hlt : data.length < n) (htmp : n ≤ tmpSize) :
    showLoop n h X B (fuel + 1) y data screen = .ok screen := by
  have hread : fread n data = data := by
    rw [fread_natCast, List.take_of_length_le (by omega)]
  rw [showLoop, hread, if_neg (by omega), if_pos (by omega)]

/-! ## Lines of the file's own length -/

/-- A screen that holds `fb` from `k + n` on holds it from `k` on when the `n` bytes before are
stored. -/
theorem splice_line {fb screen : List UInt8} {k n : ℕ} (hlen : screen.length = fb.length)
    (hle : k + n ≤ fb.length) :
    (screen.take (k + n) ++ fb.drop (k + n)).take k ++ (fb.drop k).take n ++
      (screen.take (k + n) ++ fb.drop (k + n)).drop (k + n) = screen.take k ++ fb.drop k := by
  have htake : (screen.take (k + n)).length = k + n := by
    rw [List.length_take]
    omega
  have hfront : (screen.take (k + n) ++ fb.drop (k + n)).take k = screen.take k := by
    rw [List.take_append_of_le_length (by omega), List.take_take, Nat.min_eq_left (by omega)]
  have hback : (screen.take (k + n) ++ fb.drop (k + n)).drop (k + n) = fb.drop (k + n) :=
    List.drop_left' htake
  rw [hfront, hback, List.append_assoc, ← List.drop_drop, List.take_append_drop]

/-- **The lines that are left land where they were taken from.** -/
theorem showLoop_rows {n h X B : ℕ} {fb screen : List UInt8} (hn : 0 < n) (htmp : n ≤ tmpSize)
    (hrow : 8 * n = X * B) (hsize : fb.length = h * n) (hscreen : screen.length = fb.length)
    (hh : h < 2 ^ 31) (hX : (h - 1) * X < 2 ^ 31) (hB : (h - 1) * X * B < 2 ^ 31) {m : ℕ}
    (hm : m ≤ h) :
    showLoop n h X B (m + 1) (h - m) (bottomUp fb n m)
      (screen.take (n * m) ++ fb.drop (n * m)) = .ok fb := by
  induction m with
  | zero =>
    rw [bottomUp, showLoop_short hn htmp]
    simp
  | succ m ih =>
    have hle : n * m + n ≤ fb.length := by
      calc n * m + n = (m + 1) * n := by ring
        _ ≤ h * n := Nat.mul_le_mul_right _ hm
        _ = fb.length := hsize.symm
    have hlen : ((fb.drop (n * m)).take n).length = n := by
      rw [List.length_take, List.length_drop]
      omega
    have hoff : m * X * B / 8 = n * m := by
      refine Nat.div_eq_of_eq_mul_left (by norm_num) ?_
      calc m * X * B = m * (X * B) := by ring
        _ = n * m * 8 := by rw [← hrow]; ring
    have hmX : m * X ≤ (h - 1) * X := Nat.mul_le_mul_right _ (by omega)
    have hmB : m * X * B ≤ (h - 1) * X * B := Nat.mul_le_mul_right _ hmX
    have hloc : location h (h - (m + 1) : ℕ) X B = .ok ((n * m : ℕ) : ℤ) := by
      rw [location_eq (m := m) (by omega) hh (by omega) (by omega), hoff]
    have hscr : n * m + n ≤ (screen.take (n * m + n) ++ fb.drop (n * m + n)).length := by
      rw [List.length_append, List.length_take, List.length_drop]
      omega
    have hnext : h - (m + 1) + 1 = h - m := by omega
    rw [bottomUp, Nat.mul_succ, showLoop_line hlen htmp hloc hscr (by omega),
      splice_line hscreen hle, hnext]
    exact ih (by omega)

theorem bytesPerLine_eq {X b : ℕ} (h : X * b + 31 < 2 ^ 31) :
    bytesPerLine X b = .ok ((X * b + 31) / 32 * 4 : ℕ) := by
  have hdiv : ((X : ℤ) * b + 31).tdiv 32 = ((X * b + 31) / 32 : ℕ) := by
    rw [Int.tdiv_eq_ediv_of_nonneg (by positivity)]
    push_cast
    rfl
  have hXb : (X : ℤ) * b = (X * b : ℕ) := by push_cast; rfl
  obtain ⟨-, -, hok⟩ | ⟨hno, -⟩ := bytesPerLine_cases X b
  · rw [hok, hdiv]
    push_cast
    rfl
  · rw [hXb] at hno
    exact absurd ⟨⟨by omega, by omega⟩, ⟨by omega, by omega⟩⟩ hno

namespace Geometry.Fits

variable {g : Geometry} (hfit : g.Fits)
include hfit

theorem xres_le : g.xres ≤ tmpSize := by
  have h8 := g.eight_mul_row
  have hbits := g.bits_dvd
  have hpos := g.bits_pos
  have htmp := hfit.tmp
  have : g.xres * 8 ≤ g.xres * g.bitsPerPixel := Nat.mul_le_mul_left _ (by omega)
  omega

theorem offset_row : 8 * ((g.yres - 1) * g.row) < 2 ^ 31 := by
  have h8 := g.eight_mul_row
  have hoff := hfit.offset
  calc 8 * ((g.yres - 1) * g.row) = (g.yres - 1) * (8 * g.row) := by ring
    _ = (g.yres - 1) * g.xres * g.bitsPerPixel := by rw [h8]; ring
    _ < 2 ^ 31 := hoff

theorem size_lt : g.size < 2 ^ 31 := by
  have hoff := hfit.offset_row
  have htmp := hfit.tmp
  have hsum : g.yres * g.row = (g.yres - 1) * g.row + g.row := by
    obtain ⟨y, hy⟩ := Nat.exists_eq_add_of_lt g.yres_pos
    rw [hy]
    simp
    ring
  rw [g.size_eq, hsum]
  rw [tmpSize] at htmp
  omega

theorem bytesPerLine_row : bytesPerLine g.xres g.bitsPerPixel = .ok (g.row : ℤ) := by
  have h8 := g.eight_mul_row
  have htmp := hfit.tmp
  have hal := hfit.aligned
  rw [tmpSize] at htmp
  rw [bytesPerLine_eq (by omega), ← h8, show (8 * g.row + 31) / 32 * 4 = g.row by omega]

/-- **A geometry that fits is restored.** -/
theorem restored {fb : List UInt8} (hfb : fb.length = g.size) : Restored g fb := by
  have hsize := hfit.size_lt
  have hoff := hfit.offset_row
  have hyres : g.yres - 1 ≤ (g.yres - 1) * g.row := Nat.le_mul_of_pos_right _ g.row_pos
  have hxres := hfit.xres_le
  have hdepth := hfit.depth
  have hds : dataSize g = g.size := by
    have hprod : g.xres * g.yres * (g.bitsPerPixel / 8) = g.size := by
      rw [g.size_eq, Geometry.row]
      ring
    rw [dataSize, hprod, Nat.mod_eq_of_lt (by omega)]
  have hfile : captureBmp g fb = some (fileHead g ++ infoHead g ++ bottomUp fb g.row g.yres) := by
    rw [captureBmp, hds, if_neg (by omega), ← hfb, List.take_length,
      writeRows_eq hfb (by omega) le_rfl]
    rfl
  refine ⟨_, hfile, fun screen hscreen => ⟨g.yres + 1, ?_⟩⟩
  rw [tmpSize] at hxres
  have hX : (g.yres - 1) * g.xres < 2 ^ 31 :=
    lt_of_le_of_lt (Nat.le_mul_of_pos_right _ g.bits_pos) hfit.offset
  have hrows := showLoop_rows (h := g.yres) (m := g.yres) g.row_pos hfit.tmp g.eight_mul_row
    (by rw [hfb, g.size_eq]) (hscreen.trans hfb.symm) (by omega) hX hfit.offset le_rfl
  rw [showBmp_capture, Nat.mod_eq_of_lt hdepth, toInt32_of_lt (by omega), toInt32_of_lt (by omega),
    toInt32_of_lt (by omega), hfit.bytesPerLine_row, Except.bind]
  rw [Nat.sub_self, Nat.mul_comm, ← g.size_eq, List.take_of_length_le (by omega),
    List.drop_of_length_le (by omega), List.append_nil] at hrows
  rw [hrows]
  rfl

end Geometry.Fits

/-! ## Any run of the loop -/

theorem memcpy_eq_ok {screen tmp final : List UInt8} {loc : ℤ}
    (h : memcpy screen loc tmp = .ok final) :
    ∃ l : ℕ, loc = l ∧ l + tmp.length ≤ screen.length ∧
      final = screen.take l ++ tmp ++ screen.drop (l + tmp.length) := by
  unfold memcpy at h
  split_ifs at h with hr
  obtain ⟨l, rfl⟩ := Int.eq_ofNat_of_zero_le hr.1
  cases h
  exact ⟨l, rfl, by omega, rfl⟩

theorem getElem?_splice {screen tmp : List UInt8} {loc n p : ℕ} (hin : loc + n ≤ screen.length)
    (hlen : tmp.length = n) (hp : ¬ (loc ≤ p ∧ p < loc + n)) :
    (screen.take loc ++ tmp ++ screen.drop (loc + n))[p]? = screen[p]? := by
  have htake : (screen.take loc).length = loc := by
    rw [List.length_take]
    omega
  by_cases hlt : p < loc
  · rw [List.append_assoc, List.getElem?_append_left (by omega), List.getElem?_take_of_lt hlt]
  · have happ : (screen.take loc ++ tmp).length = loc + n := by
      rw [List.length_append, htake, hlen]
    rw [List.getElem?_append_right (by omega), happ, List.getElem?_drop]
    congr 1
    omega

theorem showLoop_cases {n fuel y : ℕ} {h X B : ℤ} {data screen final : List UInt8}
    (hok : showLoop n h X B fuel y data screen = .ok final) :
    (data.length < n ∧ final = screen) ∨
    ∃ fuel' loc : ℕ, fuel = fuel' + 1 ∧ n ≤ tmpSize ∧ n ≤ data.length ∧
      location h y X B = .ok loc ∧ loc + n ≤ screen.length ∧
      showLoop n h X B fuel' (y + 1) (data.drop n)
        (screen.take loc ++ data.take n ++ screen.drop (loc + n)) = .ok final := by
  cases fuel with
  | zero => cases hok
  | succ fuel =>
    rw [showLoop, fread_natCast] at hok
    have hlen : (data.take n).length = min n data.length := List.length_take
    split_ifs at hok with htmp hshort
    · cases hok
      exact .inl ⟨by omega, rfl⟩
    · have hn : (data.take n).length = n := by omega
      obtain ⟨loc, hloc, hok⟩ := bind_eq_ok hok
      obtain ⟨screen', hcpy, hok⟩ := bind_eq_ok hok
      obtain ⟨-, -, hok⟩ := bind_eq_ok hok
      obtain ⟨l, rfl, hle, rfl⟩ := memcpy_eq_ok hcpy
      rw [hn] at hok hle htmp
      exact .inr ⟨fuel, l, rfl, by omega, by omega, hloc, hle, hok⟩

/-- **Every full line of the file is stored, and nothing else is written.** -/
theorem showLoop_ok {n : ℕ} {h X B : ℤ} (hn : 0 < n) {fuel y : ℕ}
    {data screen final : List UInt8} (hok : showLoop n h X B fuel y data screen = .ok final) :
    (∀ i, (i + 1) * n ≤ data.length → n ≤ tmpSize ∧
      ∃ loc : ℕ, location h (y + i : ℕ) X B = .ok loc ∧ loc + n ≤ screen.length) ∧
    ∀ p, p < screen.length → final[p]? ≠ screen[p]? → ∃ i loc : ℕ, (i + 1) * n ≤ data.length ∧
      location h (y + i : ℕ) X B = .ok loc ∧ loc ≤ p ∧ p < loc + n := by
  induction fuel generalizing y data screen with
  | zero => cases hok
  | succ fuel ih =>
    obtain ⟨hlt, rfl⟩ | ⟨fuel', loc, hfuel, htmp, hle, hloc, hin, hrest⟩ := showLoop_cases hok
    · refine ⟨fun i hi => ?_, fun p _ hne => absurd rfl hne⟩
      have : n ≤ (i + 1) * n := Nat.le_mul_of_pos_left _ (Nat.succ_pos i)
      omega
    · cases hfuel
      obtain ⟨hin', hcov'⟩ := ih hrest
      have hscr : (screen.take loc ++ data.take n ++ screen.drop (loc + n)).length =
          screen.length := by
        simp only [List.length_append, List.length_take, List.length_drop]
        omega
      rw [hscr] at hin' hcov'
      have hdrop : (data.drop n).length = data.length - n := List.length_drop
      have hshift : ∀ i, (i + 1 + 1) * n = (i + 1) * n + n := fun i => by ring
      have hy : ∀ i, y + 1 + i = y + (i + 1) := fun i => by omega
      constructor
      · intro i hi
        cases i with
        | zero => exact ⟨htmp, loc, hloc, hin⟩
        | succ i =>
          have hi' := hshift i
          rw [← hy]
          exact hin' i (by omega)
      · intro p hp hne
        by_cases hpl : loc ≤ p ∧ p < loc + n
        · exact ⟨0, loc, by omega, hloc, hpl⟩
        · have hlen : (data.take n).length = n := by
            rw [List.length_take]
            omega
          have hsame := getElem?_splice hin hlen hpl
          obtain ⟨i, loc', hi, hloc', hpl'⟩ := hcov' p hp (by rw [hsame]; exact hne)
          have hi' := hshift i
          exact ⟨i + 1, loc', by omega, by rw [← hy]; exact hloc', hpl'⟩

theorem showLoop_neg {L h X B : ℤ} (hL : L < 0) {fuel y : ℕ} {data screen final : List UInt8}
    (hok : showLoop L h X B fuel y data screen = .ok final) : final = screen := by
  cases fuel with
  | zero => cases hok
  | succ fuel =>
    rw [showLoop] at hok
    split_ifs at hok with _ hne
    · cases hok
      rfl
    · omega

/-- With lines of no bytes the loop never ends. -/
theorem showLoop_zero {h X B : ℤ} {fuel y : ℕ} {data screen final : List UInt8} :
    showLoop 0 h X B fuel y data screen ≠ .ok final := by
  intro hok
  induction fuel generalizing y data screen with
  | zero => cases hok
  | succ fuel ih =>
    obtain ⟨hlt, -⟩ | ⟨fuel', loc, hfuel, -, -, -, -, hrest⟩ := showLoop_cases (n := 0) hok
    · omega
    · cases hfuel
      exact ih hrest

/-! ## Geometries that are restored -/

theorem bytesPerLine_eq_ok {X n b : ℕ} {W : ℤ} (hW : toInt32 X = W) (hX : X < 2 ^ 32) (hn : 0 < n)
    (h : bytesPerLine W b = .ok (n : ℤ)) :
    W = X ∧ X * b + 31 < 2 ^ 31 ∧ n = (X * b + 31) / 32 * 4 := by
  obtain ⟨-, ⟨-, hlt⟩, hok⟩ | ⟨-, herr⟩ := bytesPerLine_cases W b
  swap
  · rw [herr] at h
    cases h
  rw [hok] at h
  have hval : (n : ℤ) = (W * b + 31).tdiv 32 * 4 := (Except.ok.inj h).symm
  have hWX : W = X := by
    obtain ⟨-, hX'⟩ | ⟨-, hX'⟩ := toInt32_cases hX
    · rw [← hW, hX']
    · -- a negative width gives no positive line length
      have hneg : W * b ≤ 0 := by
        refine mul_nonpos_of_nonpos_of_nonneg ?_ (by omega)
        omega
      have hdiv : (W * b + 31).tdiv 32 ≤ 0 := by
        have hmul := Int.tdiv_mul_le (W * b + 31) (show (32 : ℤ) ≠ 0 by norm_num)
        split_ifs at hmul <;> omega
      omega
  subst hWX
  have hcast : (X : ℤ) * b + 31 = (X * b + 31 : ℕ) := by push_cast; rfl
  rw [hcast] at hlt hval
  rw [Int.tdiv_eq_ediv_of_nonneg (by omega)] at hval
  exact ⟨rfl, by omega, by omega⟩

theorem location_eq_ok {h y X c loc : ℤ} (hok : location h y X (8 * c) = .ok loc) :
    loc = (h - y - 1) * (X * c) ∧ -2 ^ 31 ≤ 8 * loc ∧ 8 * loc < 2 ^ 31 := by
  obtain ⟨-, -, -, ⟨hlo, hhi⟩, rfl⟩ := fits_of_location hok
  have hmul : (h - y - 1) * X * (8 * c) = 8 * ((h - y - 1) * (X * c)) := by ring
  rw [hmul] at hlo hhi ⊢
  rw [Int.mul_tdiv_cancel_left _ (by norm_num)]
  exact ⟨rfl, hlo, hhi⟩

/-- What a display that restores every screen does with lines of `n` bytes: each full line of the
file lies on the screen and each byte of the screen lies in one of them. -/
structure Lines (g : Geometry) (n : ℕ) : Prop where
  pos : 0 < n
  bpl : bytesPerLine (toInt32 g.xres) (g.bitsPerPixel % 65536 : ℕ) = .ok n
  inside : ∀ i, (i + 1) * n ≤ g.yres * (g.row % 2 ^ 32) → n ≤ tmpSize ∧ ∃ loc : ℕ,
    location (toInt32 g.yres) i (toInt32 g.xres) (toInt32 g.bitsPerPixel) = .ok loc ∧
      loc + n ≤ g.size
  covered : ∀ p, p < g.size → ∃ i loc : ℕ, (i + 1) * n ≤ g.yres * (g.row % 2 ^ 32) ∧
    location (toInt32 g.yres) i (toInt32 g.xres) (toInt32 g.bitsPerPixel) = .ok loc ∧
      loc ≤ p ∧ p < loc + n

theorem Geometry.depth (g : Geometry) : ∃ c : ℤ, toInt32 g.bitsPerPixel = 8 * c ∧
    ((0 < c ∧ g.bitsPerPixel < 2 ^ 31) ∨ (c < 0 ∧ 8 * c = g.bitsPerPixel - 2 ^ 32)) := by
  have hdvd := g.bits_dvd
  have hpos := g.bits_pos
  have hlt := g.bits_lt
  obtain ⟨hsmall, hB⟩ | ⟨-, hB⟩ := toInt32_cases hlt
  · exact ⟨(g.bitsPerPixel / 8 : ℕ), by omega, .inl ⟨by omega, hsmall⟩⟩
  · exact ⟨(g.bitsPerPixel / 8 : ℕ) - 2 ^ 29, by omega, .inr ⟨by omega, by omega⟩⟩

theorem Restored.showLoop {g : Geometry} {fb : List UInt8} (h : Restored g fb) :
    ∃ data : List UInt8, data.length = g.yres * (g.row % 2 ^ 32) ∧
      ∀ screen : List UInt8, screen.length = g.size → ∃ L fuel,
        bytesPerLine (toInt32 g.xres) (g.bitsPerPixel % 65536 : ℕ) = .ok L ∧
        showLoop L (toInt32 g.yres) (toInt32 g.xres) (toInt32 g.bitsPerPixel) fuel 0 data screen =
          .ok fb := by
  obtain ⟨file, hfile, hshow⟩ := h
  obtain ⟨data, rfl, hdata⟩ := captureBmp_eq_some hfile
  have hb : toInt32 (g.bitsPerPixel % 65536) = (g.bitsPerPixel % 65536 : ℕ) :=
    toInt32_of_lt (by omega)
  refine ⟨data, hdata, fun screen hscreen => ?_⟩
  obtain ⟨fuel, hok⟩ := hshow screen hscreen
  rw [showBmp_capture, hb] at hok
  obtain ⟨L, hL, hok⟩ := bind_eq_ok hok
  refine ⟨L, fuel, hL, ?_⟩
  cases hrun : Framebuffer.showLoop L (toInt32 g.yres) (toInt32 g.xres) (toInt32 g.bitsPerPixel)
    fuel 0 data screen with
  | error e =>
    rw [hrun] at hok
    cases hok
  | ok final =>
    rw [hrun] at hok
    cases hok
    rfl

theorem exists_ne_at {fb : List UInt8} {p : ℕ} (hp : p < fb.length) :
    ∃ screen : List UInt8, screen.length = fb.length ∧ fb[p]? ≠ screen[p]? := by
  refine ⟨fb.set p (fb[p] + 1), List.length_set, ?_⟩
  rw [List.getElem?_set_self hp, List.getElem?_eq_getElem hp]
  intro heq
  have heq := Option.some.inj heq
  grind

theorem Restored.lines {g : Geometry} {fb : List UInt8} (hfb : fb.length = g.size)
    (h : Restored g fb) : ∃ n, Lines g n := by
  obtain ⟨data, hdata, hloop⟩ := h.showLoop
  rw [← hfb] at hloop
  obtain ⟨screen, hscreen, hne⟩ := exists_ne_at (hfb ▸ g.size_pos)
  obtain ⟨L, fuel, hL, hok⟩ := hloop screen hscreen
  obtain ⟨n, rfl⟩ : ∃ n : ℕ, L = n := by
    refine Int.eq_ofNat_of_zero_le (not_lt.1 fun hneg => ?_)
    exact hne (by rw [showLoop_neg hneg hok])
  have hpos : 0 < n := by
    refine Nat.pos_of_ne_zero fun h0 => ?_
    subst h0
    exact showLoop_zero hok
  have hin := (showLoop_ok hpos hok).1
  simp only [Nat.zero_add, hdata, hscreen, hfb] at hin
  refine ⟨n, hpos, hL, hin, fun p hp => ?_⟩
  obtain ⟨screen', hscreen', hne'⟩ := exists_ne_at (hfb ▸ hp)
  obtain ⟨L', fuel', hL', hok'⟩ := hloop screen' hscreen'
  cases hL.symm.trans hL'
  have hcov := (showLoop_ok hpos hok').2 p (by omega) hne'
  simp only [Nat.zero_add, hdata] at hcov
  exact hcov

namespace Lines

variable {g : Geometry} {n : ℕ} (hl : Lines g n)
include hl

theorem width : toInt32 g.xres = g.xres ∧ g.xres * (g.bitsPerPixel % 65536) + 31 < 2 ^ 31 ∧
    n = (g.xres * (g.bitsPerPixel % 65536) + 31) / 32 * 4 :=
  bytesPerLine_eq_ok rfl g.xres_lt hl.pos hl.bpl

/-- The first byte of the screen is written by the top line, so the file has `yres` lines of the
length that `show_bmp` reads. -/
theorem height : toInt32 g.yres = g.yres ∧ n ≤ g.row % 2 ^ 32 := by
  obtain ⟨c, hB, hc⟩ := g.depth
  obtain ⟨i, loc, hi, hloc, hle, -⟩ := hl.covered 0 g.size_pos
  obtain rfl : loc = 0 := by omega
  rw [hl.width.1, hB] at hloc
  obtain ⟨hzero, -, -⟩ := location_eq_ok hloc
  have hne : (g.xres : ℤ) * c ≠ 0 := by
    have := g.xres_pos
    refine mul_ne_zero (by omega) (by omega)
  have hrow : toInt32 g.yres - i - 1 = 0 := (mul_eq_zero.1 hzero.symm).resolve_right hne
  obtain ⟨-, hH⟩ | ⟨-, hH⟩ := toInt32_cases g.yres_lt
  · refine ⟨hH, ?_⟩
    have hlast : i + 1 = g.yres := by omega
    rw [hlast] at hi
    exact Nat.le_of_mul_le_mul_left hi g.yres_pos
  · have := g.yres_lt
    omega

/-- The last byte of the screen is written by a line that ends there. -/
theorem last : n ≤ g.size ∧ ∃ i : ℕ, (i + 1) * n ≤ g.yres * (g.row % 2 ^ 32) ∧
    location g.yres i g.xres (toInt32 g.bitsPerPixel) = .ok ((g.size : ℤ) - n) := by
  have hpos := g.size_pos
  obtain ⟨i, loc, hi, hloc, -, hlt⟩ := hl.covered (g.size - 1) (by omega)
  obtain ⟨-, loc', hloc', hle⟩ := hl.inside i hi
  rw [hl.width.1, hl.height.1] at hloc hloc'
  cases hloc.symm.trans hloc'
  have heq : (loc : ℤ) = g.size - n := by omega
  exact ⟨by omega, i, hi, by rw [hloc, heq]⟩

theorem first : n ≤ tmpSize ∧ ∃ loc : ℕ,
    location g.yres 0 g.xres (toInt32 g.bitsPerPixel) = .ok loc ∧ loc + n ≤ g.size := by
  have hn := hl.height.2
  have hle : (0 + 1) * n ≤ g.yres * (g.row % 2 ^ 32) := by
    rw [Nat.one_mul]
    exact le_trans hn (Nat.le_mul_of_pos_left _ g.yres_pos)
  have h := hl.inside 0 hle
  rw [hl.width.1, hl.height.1] at h
  exact h

/-- A depth that is a negative `int` leaves one line, one pixel wide, of which the third chunk
overflows. -/
theorem depth_lt : g.bitsPerPixel < 2 ^ 31 := by
  by_contra hge
  have hbits := g.bits_lt
  have hx := g.xres_pos
  have h8 := g.eight_mul_row
  obtain ⟨c, hB, hc⟩ := g.depth
  have hneg : c < 0 ∧ 8 * c = g.bitsPerPixel - 2 ^ 32 := by omega
  obtain ⟨htmp, loc, hloc, -⟩ := hl.first
  rw [hB] at hloc
  obtain ⟨hval, -, -⟩ := location_eq_ok hloc
  have hrowneg : (g.xres : ℤ) * c < 0 := mul_neg_of_pos_of_neg (by omega) hneg.1
  have hyres : g.yres = 1 := by
    have hnn : (g.yres : ℤ) - 0 - 1 ≤ 0 := nonpos_of_mul_nonneg_left (by omega) hrowneg
    have := g.yres_pos
    omega
  obtain ⟨-, i, -, hlast⟩ := hl.last
  rw [hB] at hlast
  obtain ⟨-, -, hlt⟩ := location_eq_ok hlast
  have hsize : g.size = g.row := by rw [g.size_eq, hyres, Nat.one_mul]
  have hxb : g.xres * 2 ^ 31 ≤ g.xres * g.bitsPerPixel := Nat.mul_le_mul_left _ (by omega)
  rw [tmpSize] at htmp
  have hxres : g.xres = 1 := by omega
  rw [hxres, Nat.one_mul] at h8
  have hmod : g.row % 2 ^ 32 = g.row := Nat.mod_eq_of_lt (by omega)
  obtain ⟨-, loc₂, hloc₂, -⟩ := hl.inside 2 (by rw [hyres, hmod]; omega)
  rw [hl.width.1, hl.height.1, hB, hyres, hxres] at hloc₂
  obtain ⟨hval₂, -, hlt₂⟩ := location_eq_ok hloc₂
  push_cast at hval₂
  omega

theorem row_eq : n = g.row := by
  obtain ⟨hle, i, -, hlast⟩ := hl.last
  obtain ⟨c, hc, hrow⟩ := g.exists_bytes
  rw [toInt32_of_lt hl.depth_lt, hc, Nat.cast_mul] at hlast
  obtain ⟨hval, -, -⟩ := location_eq_ok hlast
  have hn : n = (i + 1) * g.row := by
    zify
    rw [g.size_eq, hrow] at hval
    rw [hrow]
    push_cast at hval ⊢
    linarith
  have hmod : g.row % 2 ^ 32 ≤ g.row := Nat.mod_le _ _
  have hge : g.row ≤ (i + 1) * g.row := Nat.le_mul_of_pos_left _ (Nat.succ_pos i)
  have := hl.height.2
  omega

/-- A truncated `biBitCount` gives lines that are too short. -/
theorem bits_lt_65536 : g.bitsPerPixel < 65536 := by
  have hn := hl.row_eq
  have h8 := g.eight_mul_row
  have hx := g.xres_pos
  obtain ⟨-, -, hbpl⟩ := hl.width
  by_contra hge
  have hmul : g.xres * (g.bitsPerPixel % 65536 + 65536) ≤ g.xres * g.bitsPerPixel :=
    Nat.mul_le_mul_left _ (by omega)
  rw [Nat.mul_add] at hmul
  omega

theorem offset_lt : (g.yres - 1) * g.xres * g.bitsPerPixel < 2 ^ 31 := by
  obtain ⟨-, loc, hloc, -⟩ := hl.first
  obtain ⟨c, hc, -⟩ := g.exists_bytes
  rw [toInt32_of_lt hl.depth_lt, hc, Nat.cast_mul] at hloc
  obtain ⟨hval, -, hlt⟩ := location_eq_ok hloc
  have hy := g.yres_pos
  zify
  rw [hc]
  push_cast [Nat.cast_sub hy]
  calc ((g.yres : ℤ) - 1) * g.xres * (8 * c) = 8 * ((g.yres - 0 - 1) * (g.xres * c)) := by ring
    _ = 8 * loc := by rw [hval]
    _ < 2 ^ 31 := hlt

/-- **A geometry that is restored fits.** -/
theorem fits : g.Fits := by
  have hn := hl.row_eq
  obtain ⟨-, -, hbpl⟩ := hl.width
  exact ⟨by omega, hn ▸ hl.first.1, hl.bits_lt_65536, hl.offset_lt⟩

end Lines

/-- **A screenshot is restored exactly when the geometry fits.** -/
theorem restored_iff_fits (g : Geometry) (fb : List UInt8) (hfb : fb.length = g.size) :
    Restored g fb ↔ g.Fits := by
  constructor
  · intro h
    obtain ⟨n, hl⟩ := h.lines hfb
    exact hl.fits
  · intro hfit
    exact hfit.restored hfb

/-- Two lines of one pixel of 32 bits. -/
def twoPixels : Geometry :=
  ⟨1, 2, 32, by decide, by decide, by decide, by decide, by decide, by decide, by decide⟩

theorem restored_twoPixels :
    [1, 2, 3, 4, 5, 6, 7, 8].length = twoPixels.size ∧
      Restored twoPixels [1, 2, 3, 4, 5, 6, 7, 8] :=
  ⟨rfl, (restored_iff_fits twoPixels [1, 2, 3, 4, 5, 6, 7, 8] rfl).2
    ⟨by decide, by decide, by decide, by decide⟩⟩

/-- Two lines of two pixels of 8 bits. -/
def bytePixels : Geometry :=
  ⟨2, 2, 8, by decide, by decide, by decide, by decide, by decide, by decide, by decide⟩

/-- The file holds lines of 2 bytes, `show_bmp` reads lines of 4 and stores the first of them
across the end of the screen. -/
theorem not_restored_bytePixels :
    [1, 2, 3, 4].length = bytePixels.size ∧ ¬ Restored bytePixels [1, 2, 3, 4] := by
  refine ⟨rfl, fun h => ?_⟩
  obtain ⟨n, hl⟩ := h.lines rfl
  exact absurd hl.fits.aligned (by decide)

example : (captureBmp bytePixels [1, 2, 3, 4]).map
    (fun file => showBmp bytePixels 2 file [0, 0, 0, 0]) = some (.error .screenOverrun) := rfl

end LddExample.Framebuffer
