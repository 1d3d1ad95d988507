import DrmCxx.Planes.PlaneRegistry
import DrmCxx.Scene.Canvas.Blend
import DrmCxx.Scene.ExternalDmaBufPool
import Mathlib.Data.List.Nodup
import Mathlib.Logic.Function.Basic

/-!
# Lowering

`LayerScene` copies each layer's description into the property bag of its `planes::Layer` before
it places the frame: the geometry, clipped at the top and left edges, and a zpos that may be
replaced to reach PRIMARY's slot or to break a tie.
-/

namespace DrmCxx.Scene

open Planes

/-! ### Descriptions -/

/-- Signed 32-bit origin, unsigned 32-bit extents. -/
structure Rect where
  x : Int32 := 0
  y : Int32 := 0
  w : UInt32 := 0
  h : UInt32 := 0
  deriving DecidableEq, Repr

/-- A rectangle in 16.16 fixed point. -/
structure FixedRect where
  x : UInt32 := 0
  y : UInt32 := 0
  w : UInt32 := 0
  h : UInt32 := 0
  deriving DecidableEq, Repr

structure DisplayParams where
  srcRect : Rect := {}
  srcRectFixed : Option FixedRect := none
  dstRect : Rect := {}
  rotation : UInt64 := 0
  alpha : UInt16 := 0xFFFF
  zpos : Option Int32 := none
  deriving DecidableEq, Repr

inductive BindingModel
  | sceneSubmitsFbId
  | driverOwnsBinding
  deriving DecidableEq, Repr

/-- A layer as its caller describes it now: the display, the source's format and binding, and the
allocator hints. `force_composited` is fixed when the layer is added. -/
structure LayerDesc where
  display : DisplayParams := {}
  format : SourceFormat := ⟨0, 0, 0, 0⟩
  bindingModel : BindingModel := .sceneSubmitsFbId
  contentType : ContentType := .generic
  updateHintHz : ℕ := 0
  appPriority : ℕ := 0
  forceComposited : Bool := false
  deriving DecidableEq, Repr

/-! ### Geometry -/

/-- `to_16_16`. -/
def to16_16 (v : UInt32) : ℕ := v.toNat * 2 ^ 16

/-- One axis of a plane: the destination in pixels, the source in 16.16. Every product below stays
inside 64 bits. -/
structure PlaneSpan where
  dst : ℤ
  dstLen : ℕ
  src : ℕ
  srcLen : ℕ
  deriving DecidableEq, Repr

def clipLeading (s : PlaneSpan) : PlaneSpan :=
  let clip := (-s.dst).toNat
  if 0 ≤ s.dst ∨ s.dstLen = 0 ∨ 2 ^ 32 ≤ s.dstLen ∨ 2 ^ 32 ≤ s.srcLen ∨ s.dstLen ≤ clip then s
  else
    let kept := s.dstLen - clip
    let scaled := s.srcLen * kept
    let newSrcLen :=
      if s.srcLen < s.dstLen * 2 ^ 16 then (scaled + s.dstLen - 1) / s.dstLen
      else scaled / s.dstLen
    { dst := 0, dstLen := kept, src := s.src + (s.srcLen - newSrcLen), srcLen := newSrcLen }

/-- The formats whose chroma is subsampled. -/
def subsampledFormats : List UInt32 :=
  [fourccCode 'N' 'V' '1' '2', fourccCode 'N' 'V' '2' '1', fourccCode 'N' 'V' '1' '6',
    fourccCode 'N' 'V' '6' '1', fourccCode 'N' 'V' '1' '5', fourccCode 'N' 'V' '2' '0',
    fourccCode 'P' '0' '1' '0', fourccCode 'P' '0' '1' '2', fourccCode 'P' '0' '1' '6',
    fourccCode 'P' '2' '1' '0', fourccCode 'Y' 'U' 'V' '9', fourccCode 'Y' 'V' 'U' '9',
    fourccCode 'Y' 'U' '1' '1', fourccCode 'Y' 'V' '1' '1', fourccCode 'Y' 'U' '1' '2',
    fourccCode 'Y' 'V' '1' '2', fourccCode 'Y' 'U' '1' '6', fourccCode 'Y' 'V' '1' '6',
    fourccCode 'Y' 'U' 'Y' 'V', fourccCode 'Y' 'V' 'Y' 'U', fourccCode 'U' 'Y' 'V' 'Y',
    fourccCode 'V' 'Y' 'U' 'Y', fourccCode 'Y' '2' '1' '0', fourccCode 'Y' '2' '1' '2',
    fourccCode 'Y' '2' '1' '6']

def chromaSubsampled (fourcc : UInt32) : Bool := subsampledFormats.contains fourcc

/-- `DRM_MODE_ROTATE_0`. -/
def rotate0 : UInt64 := 1

def clipApplies (rotation : UInt64) (fourcc : UInt32) : Bool :=
  (rotation = 0 || rotation = rotate0) && !chromaSubsampled fourcc

/-- The source's origin and length on one axis, as `lower_layer` resolves them. -/
def srcSpan (pos : Int32) (len extent : UInt32) (fixed : Option (UInt32 × UInt32)) : ℕ × ℕ :=
  match fixed with
  | some (fpos, flen) => (fpos.toNat, if flen ≠ 0 then flen.toNat else to16_16 extent)
  | none => (to16_16 pos.toUInt32, to16_16 (if len ≠ 0 then len else extent))

/-- The two axes `lower_layer` writes. -/
def planeSpans (desc : LayerDesc) : PlaneSpan × PlaneSpan :=
  let d := desc.display
  let sx := srcSpan d.srcRect.x d.srcRect.w desc.format.width.toUInt32
    (d.srcRectFixed.map fun f => (f.x, f.w))
  let sy := srcSpan d.srcRect.y d.srcRect.h desc.format.height.toUInt32
    (d.srcRectFixed.map fun f => (f.y, f.h))
  let x : PlaneSpan := ⟨d.dstRect.x.toInt, d.dstRect.w.toNat, sx.1, sx.2⟩
  let y : PlaneSpan := ⟨d.dstRect.y.toInt, d.dstRect.h.toNat, sy.1, sy.2⟩
  if clipApplies d.rotation desc.format.drmFourcc.toUInt32 then (clipLeading x, clipLeading y)
  else (x, y)

/-! ### The property bag -/

/-- The zpos `lower_layer` writes, if any: the hint replaces an unset zpos, and with
`hintOverrides` the caller's too. -/
def loweredZpos (zpos : Option Int32) (hint : Option UInt64) (hintOverrides : Bool) :
    Option UInt64 :=
  match hint with
  | some z => if hintOverrides || zpos.isNone then some z else zpos.map fun z => .ofInt z.toInt
  | none => zpos.map fun z => .ofInt z.toInt

/-- A property written only when there is a value for it. -/
def setPropertyIf (l : Planes.Layer) (t : PropTag) (v : Option UInt64) : Planes.Layer :=
  match v with
  | some v => l.setProperty t v
  | none => l

/-- `lower_layer`, onto the bag `dst`. -/
def lowerLayer (desc : LayerDesc) (dst : Planes.Layer) (fbId : UInt64) (crtcId : CrtcId)
    (hint : Option UInt64) (hintOverrides : Bool) : Planes.Layer :=
  let d := desc.display
  let driverOwnsBinding := desc.bindingModel = .driverOwnsBinding
  let x := (planeSpans desc).1
  let y := (planeSpans desc).2
  let dst := { dst with externallyBound := driverOwnsBinding }
  let dst := setPropertyIf dst .fbId (if driverOwnsBinding then none else some fbId)
  let dst := dst.setProperty .crtcId crtcId.toUInt64
  let dst := (dst.setProperty .crtcX (.ofInt x.dst)).setProperty .crtcY (.ofInt y.dst)
  let dst := (dst.setProperty .crtcW x.dstLen.toUInt64).setProperty .crtcH y.dstLen.toUInt64
  let dst := (dst.setProperty .srcX x.src.toUInt64).setProperty .srcY y.src.toUInt64
  let dst := (dst.setProperty .srcW x.srcLen.toUInt64).setProperty .srcH y.srcLen.toUInt64
  let dst := dst.setProperty .pixelFormat desc.format.drmFourcc.toUInt64
  let dst := dst.setProperty .fbModifier desc.format.modifier.toUInt64
  let dst := setPropertyIf dst .rotation (if d.rotation ≠ 0 then some d.rotation else none)
  let dst := setPropertyIf dst .zpos (loweredZpos d.zpos hint hintOverrides)
  let dst := dst.setProperty .alpha d.alpha.toUInt64
  { dst with
    contentType := desc.contentType
    updateHz := if desc.updateHintHz ≠ 0 then desc.updateHintHz else dst.updateHz
    appPriority := desc.appPriority }

/-! ### The frame's zpos -/

/-- One acquired layer: the address of its bag, its description, and the framebuffer. -/
structure LoweringInput where
  layer : Planes.LayerId
  desc : LayerDesc
  fbId : UInt64

def LoweringInput.zpos (a : LoweringInput) : Option ℤ := a.desc.display.zpos.map (·.toInt)

/-- One layer's turn in the scan of `bottom_slot_layer`: the lowest so far and whether it is
alone. -/
def lowerOf (best : Option (Planes.LayerId × ℤ × Bool)) (l : Planes.LayerId) (z : ℤ) :
    Option (Planes.LayerId × ℤ × Bool) :=
  match best with
  | none => some (l, z, true)
  | some (lowest, lowestZ, unique) =>
    if z < lowestZ then some (l, z, true)
    else some (lowest, lowestZ, unique && decide (z ≠ lowestZ))

/-- `bottom_slot_layer`: the unique lowest layer, when every other one is above the slot. -/
def bottomSlotLayer (acqs : List LoweringInput) (pin : UInt64) : Option Planes.LayerId :=
  if acqs.any (·.zpos.isNone) then none
  else
    match acqs.foldl (fun best a => lowerOf best a.layer (a.zpos.getD 0)) none with
    | some (lowest, lowestZ, true) =>
      if acqs.any fun a =>
          a.layer ≠ lowest &&
            (decide (a.zpos.getD lowestZ < 0) || decide (a.zpos.getD lowestZ ≤ pin.toNat)) then
        none
      else some lowest
    | _ => none

/-- The layer steered onto PRIMARY's zpos. -/
def hintTarget (primaryZposHint : Option UInt64) (acqs : List LoweringInput) :
    Option Planes.LayerId :=
  match primaryZposHint with
  | none => none
  | some hint =>
    if acqs.any fun a => a.zpos.any fun z => UInt64.ofInt z = hint then none
    else
      match acqs.find? (·.zpos.isNone) with
      | some a => some a.layer
      | none => bottomSlotLayer acqs hint

structure ZposEntry where
  layer : Planes.LayerId
  z : ℤ
  /-- `0` for the hint target, which wins ties. -/
  rank : ℕ
  order : ℕ

def ZposEntry.le (a b : ZposEntry) : Bool :=
  decide (a.z < b.z) ||
    (a.z = b.z && (decide (a.rank < b.rank) || (a.rank = b.rank && decide (a.order ≤ b.order))))

def zposEntries (primaryZposHint : Option UInt64) (target : Option Planes.LayerId)
    (acqs : List LoweringInput) : List ZposEntry :=
  acqs.zipIdx.filterMap fun (a, i) =>
    match primaryZposHint with
    | some hint =>
      if target = some a.layer then some ⟨a.layer, hint.toInt64.toInt, 0, i⟩
      else a.zpos.map fun z => ⟨a.layer, z, 1, i⟩
    | none => a.zpos.map fun z => ⟨a.layer, z, 1, i⟩

/-- The largest zpos of the CRTC's planes. -/
def zposCap (registry : PlaneRegistry) (crtcIndex : Option ℕ) : Option ℤ :=
  match crtcIndex with
  | none => none
  | some i =>
    (registry.forCrtc i).foldl
      (fun cap p =>
        match p.zposMax with
        | some z => if p.type ≠ .cursor then some (max (cap.getD 0) z.toInt64.toInt) else cap
        | none => cap)
      none

/-- Bumps the entries to increasing values; `none` when there is no room. -/
def bumpTies (cap : Option ℤ) :
    Option ℤ → List ZposEntry → Option (List (Planes.LayerId × UInt64))
  | _, [] => some []
  | prev, e :: es =>
    let v := match prev with
      | none => e.z
      | some p => max e.z (p + 1)
    if v < 0 ∨ cap.any (· < v) then none
    else
      (bumpTies cap (some v) es).map fun rest =>
        if v ≠ e.z then (e.layer, .ofInt v) :: rest else rest

/-- `uniquify_zpos`: the layers whose zpos is replaced. -/
def uniquifyZpos (primaryZposHint : Option UInt64) (cap : Option ℤ)
    (target : Option Planes.LayerId) (acqs : List LoweringInput) :
    List (Planes.LayerId × UInt64) :=
  let entries := (zposEntries primaryZposHint target acqs).mergeSort ZposEntry.le
  if (entries.zip entries.tail).any fun (a, b) => a.z = b.z then (bumpTies cap none entries).getD []
  else []

/-! ### The lowering loop -/

/-- What a build knows when it lowers its layers. -/
structure LoweringFrame where
  crtcId : CrtcId
  primaryZposHint : Option UInt64
  registry : PlaneRegistry
  crtcIndex : Option ℕ
  /-- In acquisition order, with the framebuffers. -/
  acquired : List (Planes.LayerId × UInt64)
  nodupAcquired : (acquired.map Prod.fst).Nodup := by decide
  /-- Layers the frame composites, by the stream constraint or a demotion. -/
  transient : Planes.LayerId → Bool
  /-- Layers whose pin is honoured. -/
  pinned : Planes.LayerId → Bool

namespace LoweringFrame

def inputs (f : LoweringFrame) (descs : Planes.LayerId → LayerDesc) : List LoweringInput :=
  f.acquired.map fun a => ⟨a.1, descs a.1, a.2⟩

def target (f : LoweringFrame) (acqs : List LoweringInput) : Option Planes.LayerId :=
  hintTarget f.primaryZposHint acqs

/-- The layer's zpos hint, and whether it replaces the caller's zpos. -/
def hintFor (f : LoweringFrame) (acqs : List LoweringInput) (l : Planes.LayerId) :
    Option UInt64 × Bool :=
  let target := f.target acqs
  let overrides := uniquifyZpos f.primaryZposHint (zposCap f.registry f.crtcIndex) target acqs
  match overrides.findRev? fun o => o.1 = l with
  | some o => (some o.2, true)
  | none => if target = some l then (f.primaryZposHint, true) else (none, false)

/-- One turn of the loop, with the flags the build sets on every acquired layer. -/
def lowerOne (f : LoweringFrame) (acqs : List LoweringInput) (a : LoweringInput)
    (dst : Planes.Layer) : Planes.Layer :=
  let hint := f.hintFor acqs a.layer
  let dst := { dst with transientComposited := f.transient a.layer }
  { lowerLayer a.desc dst a.fbId f.crtcId hint.1 hint.2 with pinned := f.pinned a.layer }

/-- Lowers every acquired layer. -/
def lowerAll (f : LoweringFrame) (descs : Planes.LayerId → LayerDesc) (heap : Heap) : Heap :=
  let acqs := f.inputs descs
  acqs.foldl (fun heap a => Function.update heap a.layer (f.lowerOne acqs a (heap a.layer))) heap

end LoweringFrame

end DrmCxx.Scene
