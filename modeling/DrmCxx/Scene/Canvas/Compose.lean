import DrmCxx.Planes.Allocator.State
import DrmCxx.Scene.Canvas.CompositeCanvas
import DrmCxx.Scene.Lowering

/-!
# The composition fallback

The blend loop of `compose_unassigned`: layers without a plane are painted back to front onto the
CPU canvas, each from the crop and to the destination of its description.
-/

namespace DrmCxx.Scene

open Planes CompositeCanvas

/-- A layer the loop blends: unrotated, in a format the canvas reads, of a framebuffer's height, and
mapped for reading by a mapping that covers the buffer. -/
structure ComposedLayer where
  desc : LayerDesc
  pixels : PixelSpan
  strideBytes : UInt32
  supported : formatSupported desc.format.drmFourcc.toUInt32 = true
  unrotated : desc.display.rotation = 0 ∨ desc.display.rotation = rotate0
  height_lt : desc.format.height.toUInt32.toNat < 2 ^ 31
  stride_ok : desc.format.width.toUInt32.toNat * 4 ≤ strideBytes.toNat
  size_ok : desc.format.height.toUInt32.toNat * strideBytes.toNat ≤ pixels.size
  aligned : pixels.aligned = true

/-- `round_px`: a 16.16 value to the nearest pixel. -/
def roundPx (v : UInt32) : UInt32 := (v + 0x8000) >>> 16

namespace LayerDesc

/-- The source of the layer's blend, without its pixels. -/
def compositeSrc (d : LayerDesc) : CompositeSrc where
  srcWidth := d.format.width.toUInt32
  srcHeight := d.format.height.toUInt32
  drmFourcc := d.format.drmFourcc.toUInt32
  planeAlpha := d.display.alpha

/-- The crop the canvas samples: whole pixels. -/
def blendSrcRect (d : LayerDesc) : CompositeRect :=
  match d.display.srcRectFixed with
  | some f => ⟨(roundPx f.x).toInt32, (roundPx f.y).toInt32, roundPx f.w, roundPx f.h⟩
  | none =>
    let r := d.display.srcRect
    ⟨r.x, r.y, r.w, r.h⟩

def blendDstRect (d : LayerDesc) : CompositeRect :=
  let r := d.display.dstRect
  ⟨r.x, r.y, r.w, r.h⟩

end LayerDesc

namespace ComposedLayer

def src (l : ComposedLayer) : CompositeSrc :=
  { l.desc.compositeSrc with pixels := some l.pixels, srcStrideBytes := l.strideBytes }

def srcRect (l : ComposedLayer) : CompositeRect := l.desc.blendSrcRect

def dstRect (l : ComposedLayer) : CompositeRect := l.desc.blendDstRect

/-- `zpos.value_or(0)`. -/
def zpos (l : ComposedLayer) : ℤ := (l.desc.display.zpos.getD 0).toInt

end ComposedLayer

/-- The layers are given in scene order; `sort` is the library's `std::sort`. -/
def composeUnassigned (sort : StdSort) (size : CanvasSize) (c : CompositeCanvas)
    (layers : List ComposedLayer) : CompositeCanvas :=
  let sorted := sort.sort (fun a b => decide (a.zpos < b.zpos)) layers
  sorted.foldl (fun c l => c.blend size l.src l.srcRect l.dstRect) (c.beginFrame.clear size)

end DrmCxx.Scene
