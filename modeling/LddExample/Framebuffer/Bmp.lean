import LddExample.Lib.Bytes
import Mathlib.Data.Int.Notation

/-!
# Screenshots of the framebuffer

`test_fd_app1.c` stores the framebuffer in a BMP file, `show_bmp` of `test_fb_app.c` copies such a
file to the framebuffer. `int`, `long` and pointers have 32 bits, as the 14 and 40 bytes of the
headers need it.

* `Geometry`: the fields of `struct fb_var_screeninfo` that both programs read.
* `captureBmp`: the file the first program writes.
* `showBmp`: what the second one makes of a file. An overflow of `int` and an access outside `tmp`
  or the screen are faults.
-/

namespace LddExample.Framebuffer

open Bytes

/-- The geometry of a framebuffer, `bits_per_pixel` a multiple of 8. -/
structure Geometry where
  xres : ℕ
  yres : ℕ
  bitsPerPixel : ℕ
  xres_pos : 0 < xres
  yres_pos : 0 < yres
  bits_pos : 0 < bitsPerPixel
  bits_dvd : 8 ∣ bitsPerPixel
  xres_lt : xres < 2 ^ 32
  yres_lt : yres < 2 ^ 32
  bits_lt : bitsPerPixel < 2 ^ 32

namespace Geometry

/-- The bytes of one line. -/
def row (g : Geometry) : ℕ := g.xres * (g.bitsPerPixel / 8)

/-- The bytes of the screen. -/
def size (g : Geometry) : ℕ := g.xres * g.yres * g.bitsPerPixel / 8

end Geometry

/-! ## `test_fd_app1` -/

/-- `data_size`, in unsigned arithmetic -/
def dataSize (g : Geometry) : ℕ := g.xres * g.yres * (g.bitsPerPixel / 8) % 2 ^ 32

/-- `BITMAPFILEHEADER`: `bfType`, `bfSize`, `bfReserved1`, `bfReserved2`, `bfOffBits` -/
def fileHead (g : Geometry) : List UInt8 :=
  leBytes 2 0x4d42 ++ leBytes 4 (14 + 40 + dataSize g) ++ leBytes 2 0 ++ leBytes 2 0 ++
    leBytes 4 (14 + 40)

/-- `BITMAPINFOHEADER`: `biSize`, `biWidth`, `biHeight`, `biPlanes`, `biBitCount` and six fields
that are 0, the first of them `biCompression` -/
def infoHead (g : Geometry) : List UInt8 :=
  leBytes 4 40 ++ leBytes 4 g.xres ++ leBytes 4 g.yres ++ leBytes 2 1 ++
    leBytes 2 g.bitsPerPixel ++ leBytes 4 0 ++ leBytes 4 0 ++ leBytes 4 0 ++ leBytes 4 0 ++
    leBytes 4 0 ++ leBytes 4 0

/-- `n` bytes at offset `off` of a buffer. -/
def slice (buf : List UInt8) (off n : ℕ) : Option (List UInt8) :=
  if off + n ≤ buf.length then some ((buf.drop off).take n) else none

/-- The loop over the lines with `m` of them left, so that `yres - i - 1` is `m - 1`. -/
def writeRows (g : Geometry) (imgBuf : List UInt8) : ℕ → Option (List UInt8)
  | 0 => some []
  | m + 1 => do
    let line ← slice imgBuf (g.xres * m * (g.bitsPerPixel / 8) % 2 ^ 32)
      (g.xres * (g.bitsPerPixel / 8) % 2 ^ 32)
    let rest ← writeRows g imgBuf m
    pure (line ++ rest)

/-- The file written for the framebuffer `fb`; there is none when `data_size` is negative or the
loop leaves the buffer. -/
def captureBmp (g : Geometry) (fb : List UInt8) : Option (List UInt8) :=
  if 2 ^ 31 ≤ dataSize g then none
  else (writeRows g (fb.take (dataSize g)) g.yres).map fun data => fileHead g ++ infoHead g ++ data

/-! ## `show_bmp` -/

/-- How `bmp.c` can go wrong. -/
inductive BmpFault
  | intOverflow
  | tmpOverrun
  | screenOverrun
  | outOfFuel
deriving DecidableEq

/-- `sizeof(tmp)` -/
def tmpSize : ℕ := 1024 * 10

/-- The result of an operation on `int`. -/
def int32 (x : ℤ) : Except BmpFault ℤ :=
  if -2 ^ 31 ≤ x ∧ x < 2 ^ 31 then .ok x else .error .intOverflow

/-- The `int` with the given 32 bits. -/
def toInt32 (n : ℕ) : ℤ :=
  if n % 2 ^ 32 < 2 ^ 31 then (n % 2 ^ 32 : ℕ) else (n % 2 ^ 32 : ℕ) - 2 ^ 32

/-- `chartolong(string, 4)` -/
def chartolong (string : List UInt8) : ℤ := toInt32 (leVal string)

/-- `(ciWidth * ciBitCount + 31) / 32 * 4` -/
def bytesPerLine (ciWidth ciBitCount : ℤ) : Except BmpFault ℤ :=
  (int32 (ciWidth * ciBitCount)).bind fun x =>
    (int32 (x + 31)).bind fun x => int32 (x.tdiv 32 * 4)

/-- `(ciHeight - line_y - 1) * xres * bits_per_pixel / 8` -/
def location (ciHeight lineY xres bitsPerPixel : ℤ) : Except BmpFault ℤ :=
  (int32 (ciHeight - lineY)).bind fun x => (int32 (x - 1)).bind fun x =>
    (int32 (x * xres)).bind fun x => (int32 (x * bitsPerPixel)).bind fun x => .ok (x.tdiv 8)

/-- What `fread` of `n` bytes stores, for a count that becomes a `size_t`. -/
def fread (n : ℤ) (data : List UInt8) : List UInt8 :=
  if n < 0 then data else data.take n.toNat

/-- `memcpy(fbp + location, tmp, BytesPerLine)` -/
def memcpy (screen : List UInt8) (loc : ℤ) (tmp : List UInt8) : Except BmpFault (List UInt8) :=
  if 0 ≤ loc ∧ loc + tmp.length ≤ screen.length then
    .ok (screen.take loc.toNat ++ tmp ++ screen.drop (loc.toNat + tmp.length))
  else .error .screenOverrun

/-- The loop of `show_bmp`. A short `fread` leaves it, so `feof` is false whenever it is tested. -/
def showLoop (bpl ciHeight xres bitsPerPixel : ℤ) :
    ℕ → ℕ → List UInt8 → List UInt8 → Except BmpFault (List UInt8)
  | 0, _, _, _ => .error .outOfFuel
  | fuel + 1, lineY, data, screen =>
    let tmp := fread bpl data
    if tmpSize < tmp.length then .error .tmpOverrun
    else if (tmp.length : ℤ) ≠ bpl then .ok screen
    else
      (location ciHeight lineY xres bitsPerPixel).bind fun loc =>
        (memcpy screen loc tmp).bind fun screen =>
          (int32 (lineY + 1)).bind fun _ =>
            showLoop bpl ciHeight xres bitsPerPixel fuel (lineY + 1) (data.drop tmp.length) screen

/-- `show_bmp` for a file that can be opened, with the global variables `xres` and `bits_per_pixel`:
its return value and the screen. `ciBitCount` is read with the two bytes that follow it. -/
def showBmpOn (xres bitsPerPixel : ℤ) (fuel : ℕ) (file screen : List UInt8) :
    Except BmpFault (ℤ × List UInt8) :=
  let fileHead := file.take 14
  let infoHead := (file.drop 14).take 40
  if fileHead.length ≠ 14 then .ok (-2, screen)
  else if fileHead.take 2 ≠ [0x42, 0x4d] then .ok (-3, screen)
  else if infoHead.length ≠ 40 then .ok (-4, screen)
  else
    let ciWidth := chartolong ((infoHead.drop 4).take 4)
    let ciHeight := chartolong ((infoHead.drop 8).take 4)
    let ciBitCount := chartolong ((infoHead.drop 14).take 4)
    (bytesPerLine ciWidth ciBitCount).bind fun bpl =>
      (showLoop bpl ciHeight xres bitsPerPixel fuel 0 (file.drop 54) screen).map
        fun screen => (0, screen)

/-- `show_bmp` on a framebuffer of the given geometry. -/
def showBmp (g : Geometry) (fuel : ℕ) (file screen : List UInt8) :
    Except BmpFault (ℤ × List UInt8) :=
  showBmpOn (toInt32 g.xres) (toInt32 g.bitsPerPixel) fuel file screen

end LddExample.Framebuffer
