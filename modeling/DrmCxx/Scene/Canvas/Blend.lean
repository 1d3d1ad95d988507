import Mathlib.Algebra.Order.Ring.Int
import Mathlib.Data.Nat.Notation
import Mathlib.Order.Lattice

/-!
# Blending on the CPU

The pixel arithmetic of `CompositeCanvas`: premultiplied SRC_OVER, the clipping of one axis, the
nearest-neighbour sampling, and the conversion of a row to the scanout format. A pixel is the
32-bit word `0xAARRGGBB`.
-/

namespace DrmCxx.Scene

/-- `std::int32_t` arithmetic; C++ leaves a signed overflow undefined, here it wraps. -/
def i32 (z : ℤ) : ℤ := z.bmod (2 ^ 32)

/-- A conversion to `std::uint32_t`. -/
def u32 (z : ℤ) : ℕ := (z % 2 ^ 32).toNat

/-- `fourcc_code`. -/
def fourccCode (a b c d : Char) : UInt32 :=
  a.val ||| (b.val <<< 8) ||| (c.val <<< 16) ||| (d.val <<< 24)

def drmFormatArgb8888 : UInt32 := fourccCode 'A' 'R' '2' '4'

def drmFormatXrgb8888 : UInt32 := fourccCode 'X' 'R' '2' '4'

def drmFormatXbgr8888 : UInt32 := fourccCode 'X' 'B' '2' '4'

def drmFormatAbgr8888 : UInt32 := fourccCode 'A' 'B' '2' '4'

def drmFormatRgb565 : UInt32 := fourccCode 'R' 'G' '1' '6'

def drmFormatBgr565 : UInt32 := fourccCode 'B' 'G' '1' '6'

def drmFormatNv12 : UInt32 := fourccCode 'N' 'V' '1' '2'

/-- Pixels by column and row. -/
abbrev Pixmap := ℕ → ℕ → UInt32

namespace CompositeCanvas

/-! ### Pixels -/

def packArgb (a r g b : UInt32) : UInt32 :=
  (a <<< 24) ||| (r <<< 16) ||| (g <<< 8) ||| b

def componentA (pixel : UInt32) : UInt32 := (pixel >>> 24) &&& 0xFF

def componentR (pixel : UInt32) : UInt32 := (pixel >>> 16) &&& 0xFF

def componentG (pixel : UInt32) : UInt32 := (pixel >>> 8) &&& 0xFF

def componentB (pixel : UInt32) : UInt32 := pixel &&& 0xFF

/-- A `ToneMapper`: four 16-bit channels in one word. -/
abbrev ToneMapper := UInt64 → UInt64

def applyToneMapperArgb (argb : UInt32) (mapper : ToneMapper) : UInt32 :=
  let wide (c : UInt32) : UInt64 := c.toUInt64 * 257
  let out := mapper (wide (componentR argb) ||| (wide (componentG argb) <<< 16) |||
    (wide (componentB argb) <<< 32) ||| (wide (componentA argb) <<< 48))
  let narrow (shift : UInt64) : UInt32 := (((out >>> shift) &&& 0xFFFF).toUInt32 + 128) / 257
  packArgb (narrow 48) (narrow 0) (narrow 16) (narrow 32)

/-- Premultiplied SRC_OVER. -/
def blendPixelOver (src dst : UInt32) : UInt32 :=
  let sa := componentA src
  if sa = 0 then dst
  else if sa = 0xFF then src
  else
    let inv := 255 - sa
    let channel (s d : UInt32) : UInt32 := min (s + (d * inv + 127) / 255) 0xFF
    packArgb (channel sa (componentA dst)) (channel (componentR src) (componentR dst))
      (channel (componentG src) (componentG dst)) (channel (componentB src) (componentB dst))

/-- Scales every channel by `planeAlpha8 / 255`. -/
def modulatePixel (planeAlpha8 s : UInt32) : UInt32 :=
  let scale (c : UInt32) : UInt32 := (c * planeAlpha8 + 127) / 255
  packArgb (scale (componentA s)) (scale (componentR s)) (scale (componentG s))
    (scale (componentB s))

/-! ### Clipping and sampling -/

structure AxisRange where
  /-- First destination pixel touched. -/
  dstStart : ℕ := 0
  /-- One past the last. -/
  dstEnd : ℕ := 0
  srcStart : ℕ := 0
  srcSpan : ℕ := 0
  deriving DecidableEq, Repr

/-- One rectangle's side against a buffer's extent: the first visible pixel and how many. -/
def clipSide (pos : ℤ) (size extent : ℕ) : Option (ℕ × ℕ) :=
  let clipLeft := max 0 (i32 (-pos))
  let posClipped := i32 (pos + clipLeft)
  let visible := min (size - u32 clipLeft) (u32 (extent - posClipped))
  if i32 extent ≤ posClipped ∨ visible = 0 then none
  else some (u32 posClipped, visible)

def clipAxis (dstPos : ℤ) (dstSize dstExtent : ℕ) (srcPos : ℤ) (srcSize srcExtent : ℕ) :
    Option AxisRange :=
  if dstSize = 0 ∨ srcSize = 0 then none
  else
    match clipSide srcPos srcSize srcExtent, clipSide dstPos dstSize dstExtent with
    | some src, some dst =>
      some
        { dstStart := dst.1
          dstEnd := u32 (dst.1 + dst.2)
          srcStart := src.1
          srcSpan := src.2 }
    | _, _ => none

def mapSrcIndex (dstIdx dstVisible srcSpan : ℕ) : ℕ :=
  if dstVisible ≤ 1 then 0 else u32 (dstIdx * srcSpan) / dstVisible

def formatSupported (fourcc : UInt32) : Bool :=
  fourcc = drmFormatArgb8888 || fourcc = drmFormatXrgb8888

def sourceIsOpaque (fourcc : UInt32) : Bool :=
  fourcc = drmFormatXrgb8888

/-- CPU-mapped source pixels, read as 32-bit words. -/
structure PixelSpan where
  word : ℕ → UInt32
  /-- In bytes. -/
  size : ℕ
  aligned : Bool := true

structure CompositeSrc where
  pixels : Option PixelSpan := none
  srcStrideBytes : UInt32 := 0
  srcWidth : UInt32 := 0
  srcHeight : UInt32 := 0
  drmFourcc : UInt32
  planeAlpha : UInt16 := 0xFFFF
  toneMapper : Option ToneMapper := none

structure CompositeRect where
  x : Int32 := 0
  y : Int32 := 0
  w : UInt32 := 0
  h : UInt32 := 0
  deriving DecidableEq, Repr

/-- The checks of `blend_into` on its source: the pixels it may read. -/
def CompositeSrc.readable (src : CompositeSrc) : Option PixelSpan :=
  src.pixels.filter fun p =>
    formatSupported src.drmFourcc &&
      decide (src.srcWidth.toNat * 4 ≤ src.srcStrideBytes.toNat) &&
      decide (src.srcHeight.toNat * src.srcStrideBytes.toNat ≤ p.size) && p.aligned

/-- KMS plane alpha rounded to 8 bits. -/
def planeAlpha8 (alpha : UInt16) : UInt32 :=
  (alpha.toUInt32 * 255 + 32767) / 65535

/-- What `blend_into` makes of one sampled source word and the pixel under it. -/
def CompositeSrc.shade (src : CompositeSrc) (s under : UInt32) : UInt32 :=
  let alpha8 := planeAlpha8 src.planeAlpha
  let s := if sourceIsOpaque src.drmFourcc then s ||| 0xFF000000 else s
  if sourceIsOpaque src.drmFourcc ∧ ¬ alpha8 < 0xFF ∧ src.toneMapper.isNone then s
  else
    let s := match src.toneMapper with
      | some mapper => applyToneMapperArgb s mapper
      | none => s
    let s := if alpha8 < 0xFF then modulatePixel alpha8 s else s
    blendPixelOver s under

/-- The source column or row sampled for the destination index `d`. -/
def sampleIndex (noScale : Bool) (r : AxisRange) (d : ℕ) : ℕ :=
  r.srcStart +
    (if noScale then d - r.dstStart
    else mapSrcIndex (d - r.dstStart) (r.dstEnd - r.dstStart) r.srcSpan)

/-- `blend_into` once both axes are clipped. -/
def blendRange (dst : Pixmap) (src : CompositeSrc) (pixels : PixelSpan) (xr yr : AxisRange) :
    Pixmap := fun x y =>
  if xr.dstStart ≤ x ∧ x < xr.dstEnd ∧ yr.dstStart ≤ y ∧ y < yr.dstEnd then
    let noScale : Bool :=
      xr.srcSpan = xr.dstEnd - xr.dstStart ∧ yr.srcSpan = yr.dstEnd - yr.dstStart
    let sx := sampleIndex noScale xr x
    let sy := sampleIndex noScale yr y
    src.shade (pixels.word (sy * (src.srcStrideBytes.toNat / 4) + sx)) (dst x y)
  else dst x y

/-- The two axes `blend_into` clips. -/
def blendAxes (dstWidth dstHeight : ℕ) (src : CompositeSrc) (srcRect dstRect : CompositeRect) :
    Option (AxisRange × AxisRange) := do
  let xr ← clipAxis dstRect.x.toInt dstRect.w.toNat dstWidth srcRect.x.toInt srcRect.w.toNat
    src.srcWidth.toNat
  let yr ← clipAxis dstRect.y.toInt dstRect.h.toNat dstHeight srcRect.y.toInt srcRect.h.toNat
    src.srcHeight.toNat
  pure (xr, yr)

/-- `blend_into`, on a destination of `dstWidth` by `dstHeight` pixels. -/
def blendInto (dst : Pixmap) (dstWidth dstHeight : ℕ) (src : CompositeSrc)
    (srcRect dstRect : CompositeRect) : Pixmap :=
  match src.readable, blendAxes dstWidth dstHeight src srcRect dstRect with
  | some pixels, some (xr, yr) => blendRange dst src pixels xr yr
  | _, _ => dst

/-- `clear_into`. -/
def clearInto (dst : Pixmap) (dstWidth dstHeight : ℕ) (x y w h : Int32) : Pixmap :=
  if w.toInt ≤ 0 ∨ h.toInt ≤ 0 then dst
  else fun px py =>
    if x.toInt ≤ px ∧ (px : ℤ) < min (dstWidth : ℤ) (x.toInt + w.toInt) ∧
        y.toInt ≤ py ∧ (py : ℤ) < min (dstHeight : ℤ) (y.toInt + h.toInt) then 0
    else dst px py

/-! ### Scanout formats -/

def pack565 (hi5 g lo5 : UInt32) : UInt32 :=
  ((hi5 >>> 3) <<< 11) ||| ((g >>> 2) <<< 5) ||| (lo5 >>> 3)

/-- One pixel of `convert_row`; a 16-bit format fills the low half. -/
def convertPixel (outFourcc p : UInt32) : UInt32 :=
  if outFourcc = drmFormatXbgr8888 ∨ outFourcc = drmFormatAbgr8888 then
    packArgb (componentA p) (componentB p) (componentG p) (componentR p)
  else if outFourcc = drmFormatRgb565 then pack565 (componentR p) (componentG p) (componentB p)
  else if outFourcc = drmFormatBgr565 then pack565 (componentB p) (componentG p) (componentR p)
  else p

def convertRow (outFourcc : UInt32) (row : List UInt32) : List UInt32 :=
  row.map (convertPixel outFourcc)

end CompositeCanvas

end DrmCxx.Scene
