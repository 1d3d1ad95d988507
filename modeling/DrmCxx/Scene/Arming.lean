import DrmCxx.Scene.Placement

/-!
# Arming the planes of a frame

The passes that write to the planes the allocator assigned: sticky properties, acquire fences,
damage clips, the amdgpu colour pipeline, and the hard pins.
-/

namespace DrmCxx.Scene

open Lib Modeset
open Planes (PlaneId PlaneCapabilities PropTag Heap Flags Device)

namespace SceneState

variable (dev : SceneDevice) (s : SceneState)

/-- The plane a layer was placed on. -/
def assignedPlane (a : AcquiredLayer) : Option PlaneId := (s.heap a.layer).assignedPlane

/-- The plane of a layer, the allocator's or its stream's. -/
def planeOf (a : AcquiredLayer) : Option PlaneId :=
  (s.assignedPlane a).or a.slot.streamPinnedPlaneId

/-- The plane takes writes to the property. -/
def takes (dev : SceneDevice) (p : PlaneId) (prop : PlaneProp) : Bool :=
  ((dev.traits p).prop prop).any fun info => !info.immutable

/-! ### Sticky properties -/

/-- The writes of a pass that remembers them. -/
abbrev StickyWrites := (PlaneId → PlaneStickyProps) × AtomicRequest

/-- `write_enum`: skipped while the plane holds the value; a TEST is not remembered. -/
def writeSticky (dev : SceneDevice) (testOnly : Bool) (p : PlaneId) (prop : PlaneProp)
    (get : PlaneStickyProps → Option UInt64)
    (put : PlaneStickyProps → Option UInt64 → PlaneStickyProps) (value : Option UInt64)
    (w : StickyWrites) : StickyWrites :=
  match value with
  | none => w
  | some v =>
    if !takes dev p prop || get (w.1 p) = some v then w
    else
      (if testOnly then w.1 else Function.update w.1 p (put (w.1 p) (some v)),
        w.2 ++ [((p, .plane prop), v)])

/-- `arm_layer_plane_blend_defaults`, one layer. -/
def armBlendDefault (testOnly : Bool) (w : StickyWrites) (a : AcquiredLayer) : StickyWrites :=
  match s.planeOf a with
  | none => w
  | some p =>
    if (s.planeCapsFor dev p).isNone then w
    else writeSticky dev testOnly p .pixelBlendMode (·.pixelBlendMode)
      (fun props v => { props with pixelBlendMode := v }) (dev.traits p).blendModePremultiplied w

/-- The encoding asked for, BT.709 by default, else an entry the driver has. -/
def colorEncodingValue (t : PlaneTraits) (wanted : Option ColorEncoding) : Option UInt64 :=
  if t.hasColorEncoding then
    (t.colorEncoding (wanted.getD .bt709)).or
      ((t.colorEncoding .bt709).or (t.colorEncoding .bt601))
  else none

def colorRangeValue (t : PlaneTraits) (wanted : Option ColorRange) : Option UInt64 :=
  if t.hasColorRange then
    (t.colorRange (wanted.getD .limited)).or ((t.colorRange .limited).or (t.colorRange .full))
  else none

/-- `arm_layer_plane_color_props`, one layer. -/
def armColorProps (testOnly : Bool) (w : StickyWrites) (a : AcquiredLayer) : StickyWrites :=
  match s.planeOf a with
  | none => w
  | some p =>
    if (s.planeCapsFor dev p).isNone then w
    else
      let w := writeSticky dev testOnly p .colorEncoding (·.colorEncoding)
        (fun props v => { props with colorEncoding := v })
        (colorEncodingValue (dev.traits p) a.attrs.colorEncoding) w
      writeSticky dev testOnly p .colorRange (·.colorRange)
        (fun props v => { props with colorRange := v })
        (colorRangeValue (dev.traits p) a.attrs.colorRange) w

/-- Both passes over the acquired layers. -/
def armStickyProps (testOnly : Bool) (as : List AcquiredLayer) : StickyWrites :=
  as.foldl (s.armColorProps dev testOnly)
    (as.foldl (s.armBlendDefault dev testOnly) (s.stickyProps, []))

/-! ### Per-frame properties -/

/-- `arm_layer_acquire_fences`, one layer; without `IN_FENCE_FD` the scene waits itself. -/
def armAcquireFence (a : AcquiredLayer) : AtomicRequest :=
  match a.buffer.acquireFence, s.assignedPlane a with
  | some fence, some p =>
    if dev.planes.advertises p .inFenceFd && !dev.planes.isImmutable p .inFenceFd then
      [((p, .tag .inFenceFd), fence)]
    else []
  | _, _ => []

/-- A damage rectangle cut to the buffer; `none` when nothing is left. -/
def clipDamage (width height : ℕ) (d : DamageRect) : Option ClipRect :=
  let r : ClipRect :=
    ⟨max 0 d.x, max 0 d.y, min width (d.x + d.w), min height (d.y + d.h)⟩
  if r.x2 > r.x1 ∧ r.y2 > r.y1 then some r else none

/-- `k_max_damage_rects`. -/
def maxDamageRects : ℕ := 16

/-- `arm_layer_damage_clips`, one layer. -/
def armDamageClips (q : FrameAnswers) (a : AcquiredLayer) : AtomicRequest :=
  if a.buffer.damage.length > maxDamageRects then []
  else
    match s.assignedPlane a with
    | none => []
    | some p =>
      let fmt := a.attrs.desc.format
      let rects := a.buffer.damage.filterMap (clipDamage fmt.width fmt.height)
      if ((dev.traits p).prop .fbDamageClips).isNone || rects.isEmpty then []
      else match q.damageBlob rects with
        | some blob => if blob = 0 then [] else [((p, .plane .fbDamageClips), blob.toUInt64)]
        | none => []

/-- One piece of the amdgpu pipeline. -/
inductive AmdPiece
  | tf (prop : PlaneProp) (f : PlaneTransferFunction) (inverse : Bool)
  | value (prop : PlaneProp) (v : UInt64)
  | blob (prop : PlaneProp) (content : List UInt64)
  deriving DecidableEq, Repr

def ColorLutEntry.pack (e : ColorLutEntry) : UInt64 :=
  e.r.toUInt64 ||| (e.g.toUInt64 <<< 16) ||| (e.b.toUInt64 <<< 32)

/-- A LUT is a blob when it has entries. -/
def lutPiece (prop : PlaneProp) (lut : List ColorLutEntry) : Option AmdPiece :=
  if lut.isEmpty then none else some (.blob prop (lut.map ColorLutEntry.pack))

/-- The pieces that are set, in pipeline order. -/
def amdPieces (c : AmdPlaneColor) : List AmdPiece :=
  [c.degammaTf.map fun f => .tf .amdDegammaTf f false,
    c.hdrMult.map fun v => .value .amdHdrMult v,
    c.shaperTf.map fun f => .tf .amdShaperTf f true,
    lutPiece .amdShaperLut c.shaperLut,
    lutPiece .amdLut3d c.lut3d,
    c.blendTf.map fun f => .tf .amdBlendTf f false,
    lutPiece .amdBlendLut c.blendLut,
    c.ctm.map fun m => .blob .amdCtm m].filterMap id

/-- The write of a piece, where the plane has the property. Only a blob can fail. -/
def writePiece (dev : SceneDevice) (q : FrameAnswers) (p : PlaneId) :
    AmdPiece → Except Errc AtomicRequest
  | .tf prop f inverse =>
    if ((dev.traits p).prop prop).isNone then .ok []
    else .ok (((dev.traits p).transferFunction prop f inverse).toList.map fun v =>
      ((p, .plane prop), v))
  | .value prop v =>
    .ok (if ((dev.traits p).prop prop).isNone then [] else [((p, .plane prop), v)])
  | .blob prop content =>
    if ((dev.traits p).prop prop).isNone then .ok []
    else (q.colorBlob content).map fun blob => [((p, .plane prop), blob.toUInt64)]

/-- The pieces of one layer, on the plane it was placed on. -/
def armAmdLayer (q : FrameAnswers) (a : AcquiredLayer) : Except Errc AtomicRequest :=
  match s.assignedPlane a with
  | none => .ok []
  | some p => ((amdPieces a.attrs.amdColor).mapM (writePiece dev q p)).map List.flatten

/-- `arm_layer_amd_plane_color`: the first failure ends the pass. -/
def armAmdPlaneColor (q : FrameAnswers) (as : List AcquiredLayer) : Except Errc AtomicRequest :=
  (as.mapM (s.armAmdLayer dev q)).map List.flatten

/-! ### Hard pins -/

def pinVerdict (handle : ℕ) (p : PlaneId) (hash : UInt64) : PinVerdict :=
  ((s.pinVerdicts.find? fun v => v.handle = handle && v.plane = p && v.hash = hash).map
    (·.verdict)).getD .unknown

/-- `k_max_pin_verdicts`. -/
def maxPinVerdicts : ℕ := 64

def rememberPin (handle : ℕ) (p : PlaneId) (hash : UInt64) (verdict : PinVerdict) : SceneState :=
  { s with
    pinVerdicts := (if s.pinVerdicts.length ≥ maxPinVerdicts then [] else s.pinVerdicts) ++
      [⟨handle, p, hash, verdict⟩] }

/-- `pin_is_honorable`. -/
def pinIsHonorable (p : PlaneId) (desc : LayerDesc) (reserved : List PlaneId) : Bool :=
  !reserved.contains p &&
    (s.planeCapsFor dev p).any fun caps =>
      caps.type ≠ .cursor &&
        scansOut caps desc.format.drmFourcc.toUInt32 desc.format.modifier.toUInt64

/-- One turn of the reservation of hard pins: the flags, the reserved planes, and the failures. -/
def reservePin (acc : SceneState × List PlaneId × ℕ) (a : AcquiredLayer) :
    SceneState × List PlaneId × ℕ :=
  let (s, reserved, failed) := acc
  let s := { s with
    heap := Function.update s.heap a.layer { s.heap a.layer with pinned := false } }
  match a.attrs.pinnedPlaneId with
  | none => (s, reserved, failed)
  | some p =>
    if s.cachedCrtcIndex.isNone || !s.pinIsHonorable dev p a.attrs.desc reserved ||
        s.pinVerdict a.handle p (Planes.propertyHash (s.heap a.layer).props) = .rejected then
      (s, reserved, failed + 1)
    else
      ({ s with
          heap := Function.update s.heap a.layer
            { s.heap a.layer with pinned := true, assignedPlane := some p } },
        reserved ++ [p], failed)

/-- `stacked_zpos_of`: the zpos the allocator numbered the plane with. -/
def stackedZposOf (p : PlaneId) : Option UInt64 := s.allocator.zposStack.lookup p

/-- The value a pinned layer's property is written with. -/
def pinValue (p : PlaneId) (t : PropTag) (v : UInt64) : UInt64 :=
  match t with
  | .alpha => ((s.planeCapsFor dev p).map fun caps => Planes.rescaleAlpha v caps.alphaMax).getD v
  | .zpos => (s.stackedZposOf p).getD v
  | _ => v

/-- Every set property of a pinned layer that its plane takes. -/
def pinWrites (l : Planes.Layer) (p : PlaneId) : AtomicRequest :=
  PropTag.all.filterMap fun t =>
    (l.props t).bind fun v =>
      if dev.planes.advertises p t && !dev.planes.isImmutable p t &&
          !(t = .zpos && (s.planeCapsFor dev p).any Planes.zposFixed) then
        some ((p, .tag t), s.pinValue dev p t v)
      else none

/-- One of the scene's own TESTs. -/
def testRequest (req : AtomicRequest) (flags : Flags) : Option Errc × SceneState :=
  (dev.test s.tests req flags, { s with tests := s.tests + 1 })

/-- A pin the driver rejected: the plane is turned off and the layer composited. -/
def rejectPin (a : AcquiredLayer) (p : PlaneId) (hash : UInt64) : SceneState :=
  let s := s.rememberPin a.handle p hash .rejected
  { s with
    heap := Function.update s.heap a.layer
      { s.heap a.layer with pinned := false, assignedPlane := none, needsComposition := true }
    allocator := s.allocator.invalidateAllocation }

end SceneState

namespace Placing

variable (dev : SceneDevice) (w : Placing)

def write (req : AtomicRequest) : Placing := { w with request := w.request ++ req }

/-- `arm_pinned_layers`, one layer. A pin is TESTed once for its plane and geometry. -/
def armPinnedLayer (flags : Flags) (a : AcquiredLayer) : Placing :=
  let s := w.scene
  match (s.heap a.layer).pinned, a.attrs.pinnedPlaneId with
  | true, some p =>
    let hash := Planes.propertyHash (s.heap a.layer).props
    let armed := w.write (s.pinWrites dev (s.heap a.layer) p)
    let place (s : SceneState) : Placing :=
      { armed with scene := { s with
          heap := Function.update s.heap a.layer { s.heap a.layer with assignedPlane := some p } } }
    if s.pinVerdict a.handle p hash ≠ .unknown then place s
    else
      let (verdict, s) := s.testRequest dev armed.request flags
      match verdict with
      | none => place (s.rememberPin a.handle p hash .proven)
      | some .permissionDenied => place s
      | some _ =>
        { scene := s.rejectPin a p hash
          request := w.request ++ dev.planes.disableWrites p
          report := { w.report with pinsFailed := w.report.pinsFailed + 1 } }
  | _, _ => w

def armPinnedLayers (flags : Flags) (as : List AcquiredLayer) : Placing :=
  as.foldl (fun w a => w.armPinnedLayer dev flags a) w

end Placing

end DrmCxx.Scene
