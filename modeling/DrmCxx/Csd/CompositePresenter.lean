import DrmCxx.Csd.Damage
import DrmCxx.Errc
import DrmCxx.Lib.Indices

/-!
# The composite presenter

`csd::CompositePresenter`: window decorations are blended over a backdrop into one canvas, and only
where the frame differs from the one before.
-/

namespace DrmCxx.Csd

open Scene Scene.CompositeCanvas

/-! ### Decorations -/

/-- A surface that is not empty, with its pixels at the time of a call. -/
structure Surface where
  width : UInt32
  height : UInt32
  /-- In bytes. -/
  stride : UInt32
  contentGeneration : UInt64
  pixels : PixelSpan
  stride_ok : width.toNat * 4 ≤ stride.toNat
  size_ok : height.toNat * stride.toNat ≤ pixels.size
  aligned : pixels.aligned = true

structure SurfaceRef where
  /-- `none` is a null pointer, or an empty surface. -/
  surface : Option Surface := none
  x : Int32 := 0
  y : Int32 := 0
  /-- Why `Surface::paint` cannot map it for reading, if it cannot. -/
  mapError : Option Errc := none

def Surface.src (s : Surface) : CompositeSrc where
  pixels := some s.pixels
  srcStrideBytes := s.stride
  srcWidth := s.width
  srcHeight := s.height
  drmFourcc := drmFormatArgb8888

def SurfaceRef.slot (ref : SurfaceRef) : DamageSlot :=
  match ref.surface with
  | none => {}
  | some s =>
    { armed := true, x := ref.x, y := ref.y, w := s.width, h := s.height
      gen := s.contentGeneration }

/-! ### The canvas plane -/

/-- The properties of the canvas plane that are written. -/
structure PlaneSlot where
  planeId : UInt32
  crtcId : UInt32
  fbIdProp : UInt32
  crtcIdProp : UInt32
  crtcXProp : UInt32
  crtcYProp : UInt32
  crtcWProp : UInt32
  crtcHProp : UInt32
  srcXProp : UInt32
  srcYProp : UInt32
  srcWProp : UInt32
  srcHProp : UInt32

structure PropertyWrite where
  objectId : UInt32
  propertyId : UInt32
  value : UInt64
  deriving DecidableEq, Repr

def to16_16 (pixels : ℕ) : UInt64 := .ofNat (pixels * 2 ^ 16)

def computeCanvasWrites (slot : PlaneSlot) (fbId : UInt32) (size : CanvasSize) :
    List PropertyWrite :=
  [(slot.fbIdProp, fbId.toUInt64), (slot.crtcIdProp, slot.crtcId.toUInt64), (slot.crtcXProp, 0),
    (slot.crtcYProp, 0), (slot.crtcWProp, .ofNat size.width), (slot.crtcHProp, .ofNat size.height),
    (slot.srcXProp, 0), (slot.srcYProp, 0), (slot.srcWProp, to16_16 size.width),
    (slot.srcHProp, to16_16 size.height)].map fun w => ⟨slot.planeId, w.1, w.2⟩

/-! ### The presenter -/

structure CompositePresenter where
  slot : PlaneSlot
  canvas : CompositeCanvas
  /-- The framebuffers of the canvas's buffers. -/
  fbIds : Fin 2 → UInt32
  /-- The backdrop's words, if it has the canvas's size. -/
  background : Option (ℕ → UInt32)
  prevSlots : List DamageSlot := []
  prevDamage : DamageRect := {}

namespace CompositePresenter

/-- A presenter as `create` returns it. -/
def created (slot : PlaneSlot) (outputFourcc : UInt32) (fbIds : Fin 2 → UInt32)
    (background : Option (ℕ → UInt32)) : CompositePresenter where
  slot := slot
  canvas := .created outputFourcc
  fbIds := fbIds
  background := background

/-- The rectangle a canvas call takes: its corner signed, its extents not. -/
def canvasRect (x y : ℤ) (w h : ℕ) : CompositeRect :=
  ⟨.ofInt x, .ofInt y, .ofNat w, .ofNat h⟩

def backdropSrc (size : CanvasSize) (word : ℕ → UInt32) : CompositeSrc where
  pixels := some { word, size := size.width * size.height * 4 }
  srcStrideBytes := .ofNat (size.width * 4)
  srcWidth := .ofNat size.width
  srcHeight := .ofNat size.height
  drmFourcc := drmFormatXrgb8888

/-- The loop over the decorations, with the error that ends it. -/
def blendSurfaces (size : CanvasSize) (region : DamageRect) :
    CompositeCanvas → List SurfaceRef → CompositeCanvas × Option Errc
  | canvas, [] => (canvas, none)
  | canvas, ref :: refs =>
    match ref.surface with
    | none => blendSurfaces size region canvas refs
    | some s =>
      let d := intersectRect ref.x.toInt ref.y.toInt s.width.toNat s.height.toNat region
      if d.empty then blendSurfaces size region canvas refs
      else
        match ref.mapError with
        | some e => (canvas, some e)
        | none =>
          blendSurfaces size region
            (canvas.blend size s.src
              (canvasRect (d.x - ref.x.toInt) (d.y - ref.y.toInt) d.w d.h)
              (canvasRect d.x d.y d.w d.h))
            refs

/-- The region is cleared, and the backdrop laid on it. -/
def layBackdrop (size : CanvasSize) (background : Option (ℕ → UInt32)) (region : DamageRect)
    (canvas : CompositeCanvas) : CompositeCanvas :=
  let canvas := canvas.clearRect size (.ofInt region.x) (.ofInt region.y) (.ofInt region.w)
    (.ofInt region.h)
  let r := canvasRect region.x region.y region.w region.h
  match background with
  | none => canvas
  | some word => canvas.blend size (backdropSrc size word) r r

/-- The region is painted again, the backdrop first. -/
def paintRegion (size : CanvasSize) (p : CompositePresenter) (region : DamageRect)
    (refs : List SurfaceRef) : CompositeCanvas × Option Errc :=
  let canvas := p.canvas.beginFrame
  if region.empty then (canvas, none)
  else blendSurfaces size region (layBackdrop size p.background region canvas) refs

/-- What changed since the last frame. -/
def damage (size : CanvasSize) (p : CompositePresenter) (refs : List SurfaceRef) : DamageRect :=
  computeDamage size p.prevSlots (refs.map (·.slot))

/-- What is painted again: what the last frame damaged is not yet in the other buffer. -/
def region (size : CanvasSize) (p : CompositePresenter) (refs : List SurfaceRef) : DamageRect :=
  unionRect (p.damage size refs) p.prevDamage

/-- `apply`; `addError` is an error of `add_property`. The canvas's `flush` has none. -/
def apply (size : CanvasSize) (p : CompositePresenter) (refs : List SurfaceRef)
    (addError : Option Errc) : CompositePresenter × Except Errc (List PropertyWrite) :=
  match p.paintRegion size (p.region size refs) refs with
  | (canvas, some e) => ({ p with canvas }, .error e)
  | (canvas, none) =>
    let canvas := canvas.flush size
    let p' := { p with
      canvas
      prevSlots := refs.map (·.slot)
      prevDamage := p.damage size refs }
    match addError with
    | some e => (p', .error e)
    | none => (p', .ok (computeCanvasWrites p.slot (p.fbIds canvas.backIndex) size))

end CompositePresenter

end DrmCxx.Csd
