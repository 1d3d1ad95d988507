import DrmCxx.Csd.CompositePresenter
import DrmCxx.Scene.Canvas.RowKernels

/-!
# The framebuffer presenter

`csd::FramebufferPresenter`: decorations are blended into a shadow of a Linux framebuffer, and the
damaged lines converted into its memory. There is one buffer, so a converted line is shown at once.
-/

namespace DrmCxx.Csd

open Lib Lib.ByteView Scene Scene.CompositeCanvas

/-- The format `convert_row` has to emit for a pixel layout. -/
def fbFourccFor (bpp redOffset blueOffset transpLength : UInt32) : Option UInt32 :=
  if bpp = 32 then
    let hasAlpha : Bool := transpLength ≠ 0
    if blueOffset < redOffset then
      some (if hasAlpha then drmFormatArgb8888 else drmFormatXrgb8888)
    else some (if hasAlpha then drmFormatAbgr8888 else drmFormatXbgr8888)
  else if bpp = 16 then
    some (if blueOffset < redOffset then drmFormatRgb565 else drmFormatBgr565)
  else none

/-- A decoration mapped for reading, and where it lands. -/
structure FbBlitItem where
  pixels : PixelSpan
  stride : UInt32
  width : UInt32
  height : UInt32
  x : Int32
  y : Int32
  fourcc : UInt32

def FbBlitItem.src (item : FbBlitItem) : CompositeSrc where
  pixels := some item.pixels
  srcStrideBytes := item.stride
  srcWidth := item.width
  srcHeight := item.height
  drmFourcc := item.fourcc

/-! ### `compose_into_framebuffer` -/

/-- One item blended into the shadow, where it is damaged. -/
def blendItem (size : CanvasSize) (damage : DamageRect) (shadow : Pixmap) (item : FbBlitItem) :
    Pixmap :=
  let d := intersectRect item.x.toInt item.y.toInt item.width.toNat item.height.toNat damage
  if d.empty then shadow
  else
    blendInto shadow size.width size.height item.src
      (CompositePresenter.canvasRect (d.x - item.x.toInt) (d.y - item.y.toInt) d.w d.h)
      (CompositePresenter.canvasRect d.x d.y d.w d.h)

/-- The damage is cleared, and the items laid on it. -/
def composeShadow (size : CanvasSize) (damage : DamageRect) (items : List FbBlitItem)
    (shadow : Pixmap) : Pixmap :=
  items.foldl (blendItem size damage)
    (clearInto shadow size.width size.height (.ofInt damage.x) (.ofInt damage.y) (.ofInt damage.w)
      (.ofInt damage.h))

/-- One scanline of the shadow, converted into its line of the framebuffer. -/
def convertLine (neon : Bool) (size : CanvasSize) (stride fourcc : UInt32) (shadow : Pixmap)
    (fb : ByteView.Bytes) (row : ℕ) : ByteView.Bytes :=
  fromPointer (row * stride.toNat)
    (fun dst => convertRowInto neon dst (fun x => shadow x row) size.width fourcc) fb

/-- The damaged scanlines, from the first to the last. -/
def convertLines (neon : Bool) (size : CanvasSize) (stride fourcc : UInt32) (damage : DamageRect)
    (shadow : Pixmap) (fb : ByteView.Bytes) : ByteView.Bytes :=
  let yEnd := u32 (damage.y + damage.h)
  (List.range' (u32 damage.y) (yEnd - u32 damage.y)).foldl
    (convertLine neon size stride fourcc shadow) fb

/-- `compose_into_framebuffer` on a shadow of the framebuffer's size. -/
def composeIntoFramebuffer (neon : Bool) (size : CanvasSize) (fb : ByteView.Bytes)
    (fbStride fbFourcc : UInt32) (shadow : Pixmap) (items : List FbBlitItem) (damage : DamageRect) :
    Pixmap × ByteView.Bytes :=
  if damage.empty then (shadow, fb)
  else
    let shadow := composeShadow size damage items shadow
    (shadow, convertLines neon size fbStride fbFourcc damage shadow fb)

/-! ### The presenter -/

/-- What the two `FBIOGET` ioctls tell. The driver's lines have room for their pixels. -/
structure FbScreeninfo where
  size : CanvasSize
  bitsPerPixel : UInt32
  redOffset : UInt32
  blueOffset : UInt32
  transpLength : UInt32
  lineLength : UInt32
  line_ok : size.width * bitsPerPixel.toNat ≤ 8 * lineLength.toNat

structure FramebufferPresenter where
  size : CanvasSize
  /-- The mapped memory. -/
  fb : ByteView.Bytes
  /-- Bytes per line. -/
  stride : UInt32
  fourcc : UInt32
  shadow : Pixmap := fun _ _ => 0
  prevSlots : List DamageSlot := []

namespace FramebufferPresenter

/-- `create`; the arguments are how `open`, the ioctls and `mmap` end. -/
def create (opened : Option Errc) (info : Option FbScreeninfo) (mapped : Option ByteView.Bytes) :
    Except Errc FramebufferPresenter :=
  match opened with
  | some errno => .error errno
  | none =>
    match info with
    | none => .error (.other 5)
    | some info =>
      match fbFourccFor info.bitsPerPixel info.redOffset info.blueOffset info.transpLength with
      | none => .error .notSupported
      | some fourcc =>
        match mapped with
        | none => .error (.other 5)
        | some fb => .ok { size := info.size, fb, stride := info.lineLength, fourcc }

/-- The decorations that overlap the damage, mapped for reading. -/
def mapItems (damage : DamageRect) : List SurfaceRef → Except Errc (List FbBlitItem)
  | [] => .ok []
  | ref :: refs =>
    match ref.surface with
    | none => mapItems damage refs
    | some s =>
      if (intersectRect ref.x.toInt ref.y.toInt s.width.toNat s.height.toNat damage).empty then
        mapItems damage refs
      else
        match ref.mapError with
        | some e => .error e
        | none =>
          (mapItems damage refs).map fun items =>
            { pixels := s.pixels
              stride := s.stride
              width := s.width
              height := s.height
              x := ref.x
              y := ref.y
              fourcc := drmFormatArgb8888 } :: items

/-- What changed since the last frame. -/
def damage (p : FramebufferPresenter) (refs : List SurfaceRef) : DamageRect :=
  computeDamage p.size p.prevSlots (refs.map (·.slot))

/-- `apply`; on a build with or without NEON. -/
def apply (neon : Bool) (p : FramebufferPresenter) (refs : List SurfaceRef) :
    FramebufferPresenter × Except Errc Unit :=
  let damage := p.damage refs
  match if damage.empty then .ok [] else mapItems damage refs with
  | .error e => (p, .error e)
  | .ok items =>
    let composed := composeIntoFramebuffer neon p.size p.fb p.stride p.fourcc p.shadow items damage
    ({ p with shadow := composed.1, fb := composed.2, prevSlots := refs.map (·.slot) }, .ok ())

end FramebufferPresenter

end DrmCxx.Csd
