import DrmCxx.Scene.Canvas.RowKernels

/-!
# What a blend touches

`blend_into` as the words it reads and writes: its entry guards, and the indices its loops compute
for each pixel, in 32 bits where the code computes them so. The lanes of a NEON row touch the same
words as the loops they replace.
-/

namespace DrmCxx.Scene.CompositeCanvas

/-- Writable pixels given as bytes. -/
structure ByteSpan where
  size : ℕ
  aligned : Bool := true

/-- The arguments of `blend_into`. -/
structure BlendCall where
  dst : Option ByteSpan
  dstStrideBytes : UInt32
  dstWidth : UInt32
  dstHeight : UInt32
  src : CompositeSrc
  srcRect : CompositeRect
  dstRect : CompositeRect

/-- The words touched for one pixel. -/
structure Access where
  srcIndex : ℕ
  dstRow : ℕ
  dstColumn : ℕ
  dstIndex : ℕ
  deriving DecidableEq, Repr

/-- Unsigned division; `none` where C++ leaves it undefined. -/
def divU32 (a b : ℕ) : Option ℕ := if b = 0 then none else some (a / b)

/-- `map_src_index`, with its division checked. -/
def checkedSrcIndex (dstIdx dstVisible srcSpan : ℕ) : Option ℕ :=
  if dstVisible ≤ 1 then some 0 else divU32 (u32 (dstIdx * srcSpan)) dstVisible

namespace AxisRange

/-- `dst_end - dst_start`. -/
def visible (r : AxisRange) : ℕ := u32 ((r.dstEnd : ℤ) - r.dstStart)

/-- The index of the `d`-th visible pixel into the visible source. -/
def mapped (noScale : Bool) (r : AxisRange) (d : ℕ) : Option ℕ :=
  if noScale then some d else checkedSrcIndex d r.visible r.srcSpan

end AxisRange

namespace BlendCall

/-- The destination guards. -/
def writable (c : BlendCall) : Option ByteSpan :=
  c.dst.filter fun s =>
    c.dstWidth ≠ 0 && c.dstHeight ≠ 0 &&
      decide (c.dstWidth.toNat * 4 ≤ c.dstStrideBytes.toNat) &&
      decide (c.dstHeight.toNat * c.dstStrideBytes.toNat ≤ s.size) && s.aligned

/-- What the guards let through: both spans and both clipped axes. -/
structure Admitted where
  dst : ByteSpan
  src : PixelSpan
  xr : AxisRange
  yr : AxisRange

def admitted (c : BlendCall) : Option Admitted := do
  let dst ← c.writable
  let src ← c.src.readable
  let (xr, yr) ← blendAxes c.dstWidth.toNat c.dstHeight.toNat c.src c.srcRect c.dstRect
  pure ⟨dst, src, xr, yr⟩

def dstStridePx (c : BlendCall) : ℕ := c.dstStrideBytes.toNat / 4

def srcStridePx (c : BlendCall) : ℕ := c.src.srcStrideBytes.toNat / 4

/-- The words touched for the pixel `dx`, `dy` of the loops. Pointers are not 32-bit; the indices
computed before they become one are. -/
def access (c : BlendCall) (xr yr : AxisRange) (dx dy : ℕ) : Option Access := do
  let noScale : Bool := xr.srcSpan = xr.visible ∧ yr.srcSpan = yr.visible
  let sy := u32 (yr.srcStart + (← yr.mapped noScale dy))
  let mx ← xr.mapped noScale dx
  let sx := if noScale then xr.srcStart + mx else u32 (xr.srcStart + mx)
  let row := u32 (yr.dstStart + dy)
  let column :=
    if c.src.pureOpaqueCopy && !noScale then u32 (xr.dstStart + dx) else xr.dstStart + dx
  pure ⟨sy * c.srcStridePx + sx, row, column, row * c.dstStridePx + column⟩

end BlendCall

end DrmCxx.Scene.CompositeCanvas
