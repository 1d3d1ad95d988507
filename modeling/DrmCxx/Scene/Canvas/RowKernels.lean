import DrmCxx.Lib.ByteView
import DrmCxx.Scene.Canvas.Blend

/-!
# Rows of pixels

The inner loops of `blend_into`, which are the copy loop for opaque sources and the loops without
scaling, and those of `convert_row`, with the NEON routines that take their place on builds that
have them.
-/

namespace DrmCxx.Scene.CompositeCanvas

open Lib.ByteView Lib.Neon Lib.Sweep

/-- The words from a pointer on. Rows are shorter than `2 ^ 30` pixels, so no counter wraps. -/
abbrev Row := ℕ → UInt32

/-! ### NEON routines -/

def neonRowPureOpaque (dst src : Row) (n : ℕ) : Row :=
  let alpha := vdupqNU32 0xFF000000
  let copy4 (i : ℕ) (dst : Row) : Row := vst1qU32 i (vorrqU32 (vld1qU32 src i) alpha) dst
  let (i, dst) := whileFits 16 n (fun i dst =>
    copy4 (i + 12) (copy4 (i + 8) (copy4 (i + 4) (copy4 i dst)))) 0 dst
  let (i, dst) := whileFits 4 n copy4 i dst
  (whileFits 1 n (fun i dst => Function.update dst i (src i ||| 0xFF000000)) i dst).2

/-- The division by 255 on lanes. -/
def div255 (x : Uint16x8) : Uint16x8 :=
  vshrqNU16 (vaddqU16 (vaddqU16 x (vshrqNU16 x 8)) (vdupqNU16 1)) 8

/-- Eight pixels of `neon_row_blend_over`. -/
def neonBlend8 (src : Row) (forceOpaqueSrc : Bool) (i : ℕ) (dst : Row) : Row :=
  let opaqueA := vdupNU8 0xFF
  let loaded := vld4U8 src i
  let s : Uint8x8x4 := if forceOpaqueSrc then Function.update loaded 3 opaqueA else loaded
  let d := vld4U8 dst i
  let inv8 := vsubU8 opaqueA (s 3)
  let out : Uint8x8x4 := fun c =>
    vqmovnU16 (vaddqU16 (div255 (vmlalU8 (vdupqNU16 127) (d c) inv8)) (vmovlU8 (s c)))
  vst4U8 i out dst

/-- The source word with its alpha forced, for a source without alpha. -/
def opaqueFixUp (opaqueSrc : Bool) (s : UInt32) : UInt32 :=
  if opaqueSrc then s ||| 0xFF000000 else s

def neonRowBlendOver (dst src : Row) (n : ℕ) (forceOpaqueSrc : Bool) : Row :=
  let (i, dst) := whileFits 8 n (neonBlend8 src forceOpaqueSrc) 0 dst
  (whileFits 1 n (fun i dst =>
    Function.update dst i (blendPixelOver (opaqueFixUp forceOpaqueSrc (src i)) (dst i))) i dst).2

/-! ### One row of `blend_into` -/

/-- The source word as it is blended: opaque where the format is, tone-mapped, and scaled by the
plane alpha. -/
def CompositeSrc.prepare (src : CompositeSrc) (s : UInt32) : UInt32 :=
  let alpha8 := planeAlpha8 src.planeAlpha
  let s := opaqueFixUp (sourceIsOpaque src.drmFourcc) s
  let s := match src.toneMapper with
    | some mapper => applyToneMapperArgb s mapper
    | none => s
  if alpha8 < 0xFF then modulatePixel alpha8 s else s

def CompositeSrc.modulateAlpha (src : CompositeSrc) : Bool := planeAlpha8 src.planeAlpha < 0xFF

def CompositeSrc.pureOpaqueCopy (src : CompositeSrc) : Bool :=
  sourceIsOpaque src.drmFourcc && !src.modulateAlpha && src.toneMapper.isNone

/-- `for (dx = 0; dx < n; ++dx) dst[dx] = pixel(dx, dst[dx])`. -/
def rowLoop (n : ℕ) (pixel : ℕ → UInt32 → UInt32) (dst : Row) : Row :=
  (whileFits 1 n (fun dx dst => Function.update dst dx (pixel dx (dst dx))) 0 dst).2

/-- The row after a routine that was given the pointer `base` words into it. -/
def atOffset (base : ℕ) (routine : Row → Row) (row : Row) : Row := fun x =>
  if x < base then row x else routine (fun dx => row (base + dx)) (x - base)

/-- One row of `blend_into`, on a build with or without NEON. -/
def blendRow (neon noScale : Bool) (src : CompositeSrc) (xr : AxisRange) (dstRow srcRow : Row) :
    Row :=
  let n := xr.dstEnd - xr.dstStart
  let opaqueSrc := sourceIsOpaque src.drmFourcc
  atOffset xr.dstStart (fun dstPx =>
    if noScale then
      let srcPx : Row := fun dx => srcRow (xr.srcStart + dx)
      if src.pureOpaqueCopy then
        if neon then neonRowPureOpaque dstPx srcPx n
        else rowLoop n (fun dx _ => srcPx dx ||| 0xFF000000) dstPx
      else if neon && src.toneMapper.isNone && !src.modulateAlpha then
        neonRowBlendOver dstPx srcPx n opaqueSrc
      else rowLoop n (fun dx under => blendPixelOver (src.prepare (srcPx dx)) under) dstPx
    else
      let srcPx : Row := fun dx => srcRow (xr.srcStart + mapSrcIndex dx n xr.srcSpan)
      if src.pureOpaqueCopy then rowLoop n (fun dx _ => srcPx dx ||| 0xFF000000) dstPx
      else rowLoop n (fun dx under => blendPixelOver (src.prepare (srcPx dx)) under) dstPx)
    dstRow

/-- The plain path: every pixel is fixed up and blended by itself. -/
def plainRow (noScale : Bool) (src : CompositeSrc) (xr : AxisRange) (dstRow srcRow : Row) : Row :=
  fun x =>
    if xr.dstStart ≤ x ∧ x < xr.dstEnd then
      blendPixelOver (src.prepare (srcRow (sampleIndex noScale xr x))) (dstRow x)
    else dstRow x

/-- `blend_into` by rows, once both axes are clipped. -/
def blendRangeOn (neon : Bool) (dst : Pixmap) (src : CompositeSrc) (pixels : PixelSpan)
    (xr yr : AxisRange) : Pixmap := fun x y =>
  if yr.dstStart ≤ y ∧ y < yr.dstEnd then
    let noScale : Bool :=
      xr.srcSpan = xr.dstEnd - xr.dstStart ∧ yr.srcSpan = yr.dstEnd - yr.dstStart
    let sy := sampleIndex noScale yr y
    blendRow neon noScale src xr (fun x => dst x y)
      (fun sx => pixels.word (sy * (src.srcStrideBytes.toNat / 4) + sx)) x
  else dst x y

/-! ### Conversion to the scanout format

`convert_row` on the bytes it reads and writes. -/

/-- Red and blue change places; the bytes are blue, green, red and alpha. -/
def swapRedBlue {β : Type*} (b : Fin 4 → β) : Fin 4 → β :=
  Function.update (Function.update b 0 (b 2)) 2 (b 0)

/-- The element of `size` bytes at the offset `i * size`, which is a `std::uint32_t`. -/
def elementAt (size i : ℕ) : ℕ := i * size % 2 ^ 32 / size

/-- One pixel of `row_swap_rb`. -/
def swapPixel (src : Row) (i : ℕ) (dst : Row) : Row :=
  let o := elementAt 4 i
  Function.update dst o (word (swapRedBlue (byte (src o))))

/-- Eight pixels of it. -/
def neonSwap8 (src : Row) (i : ℕ) (dst : Row) : Row :=
  let o := elementAt 4 i
  vst4U8 o (swapRedBlue (vld4U8 src o)) dst

def rowSwapRb (neon : Bool) (dst src : Row) (n : ℕ) : Row :=
  if neon then
    let (i, dst) := whileFits 8 n (neonSwap8 src) 0 dst
    (whileFits 1 n (swapPixel src) i dst).2
  else (whileFits 1 n (swapPixel src) 0 dst).2

/-- Eight pixels of `row_pack_565`. -/
def neonPack8 (src : Row) (swapRb : Bool) (i : ℕ) (dst : ℕ → UInt16) : ℕ → UInt16 :=
  let s := vld4U8 src (elementAt 4 i)
  let hi8 := if swapRb then s 0 else s 2
  let lo8 := if swapRb then s 2 else s 0
  let hi := vshlqNU16 (vshrqNU16 (vmovlU8 hi8) 3) 11
  let grn := vshlqNU16 (vshrqNU16 (vmovlU8 (s 1)) 2) 5
  let lo := vshrqNU16 (vmovlU8 lo8) 3
  vst1qU16 (elementAt 2 i) (vorrqU16 (vorrqU16 hi grn) lo) dst

/-- The 16-bit value of one pixel in the scalar loop. -/
def packPixel565 (swapRb : Bool) (s : UInt32) : UInt16 :=
  let b := (byte s 0).toUInt32
  let g := (byte s 1).toUInt32
  let r := (byte s 2).toUInt32
  (pack565 (if swapRb then b else r) g (if swapRb then r else b)).toUInt16

/-- One pixel of `row_pack_565`. -/
def packPixel (src : Row) (swapRb : Bool) (i : ℕ) (dst : ℕ → UInt16) : ℕ → UInt16 :=
  Function.update dst (elementAt 2 i) (packPixel565 swapRb (src (elementAt 4 i)))

def rowPack565 (neon : Bool) (dst : ℕ → UInt16) (src : Row) (n : ℕ) (swapRb : Bool) :
    ℕ → UInt16 :=
  if neon then
    let (i, dst) := whileFits 8 n (neonPack8 src swapRb) 0 dst
    (whileFits 1 n (packPixel src swapRb) i dst).2
  else (whileFits 1 n (packPixel src swapRb) 0 dst).2

def memcpy (dst src : Bytes) (n : ℕ) : Bytes := fun i => if i < n then src i else dst i

/-- `convert_row`; the shadow's pixels are words. -/
def convertRowInto (neon : Bool) (dst : Bytes) (src : Row) (pixelCount : ℕ) (outFourcc : UInt32) :
    Bytes :=
  if outFourcc = drmFormatArgb8888 ∨ outFourcc = drmFormatXrgb8888 then
    memcpy dst (bytes wordBytes src) (pixelCount * 4)
  else if outFourcc = drmFormatXbgr8888 ∨ outFourcc = drmFormatAbgr8888 then
    onElements wordBytes (fun row => rowSwapRb neon row src pixelCount) dst
  else if outFourcc = drmFormatRgb565 ∨ outFourcc = drmFormatBgr565 then
    onElements halfBytes
      (fun row => rowPack565 neon row src pixelCount (outFourcc = drmFormatBgr565)) dst
  else memcpy dst (bytes wordBytes src) (pixelCount * 4)

end DrmCxx.Scene.CompositeCanvas
