import DrmCxx.Planes.Allocator.Apply
import DrmCxx.Scene.CompositionTarget
import DrmCxx.Scene.OutputSignaling
import DrmCxx.Scene.SceneObjects

/-!
# The state of a scene

What `LayerScene::Impl` knows when it builds a frame: its layers, the output it is bound to, what
the caller asked for, and everything it remembers of earlier frames. A layer is known by the slot it
sits in, and its `planes::Layer` by an address in the scene's heap.
-/

namespace DrmCxx.Scene

open Modeset
open Planes (PlaneId CrtcId PlaneCapabilities PropertyInfo DRMPlaneType Heap Flags)

/-! ### The device -/

inductive ColorEncoding
  | bt601
  | bt709
  | bt2020
  deriving DecidableEq, Repr

inductive ColorRange
  | limited
  | full
  deriving DecidableEq, Repr

inductive PlaneTransferFunction
  | default
  | identity
  | srgb
  | bt709
  | pq
  | gamma22
  | gamma24
  | gamma26
  deriving DecidableEq, Repr

/-- The capabilities of a plane that only the scene reads. -/
structure PlaneTraits where
  blendModePremultiplied : Option UInt64 := none
  hasPerPlaneAlpha : Bool := false
  hasColorEncoding : Bool := false
  colorEncoding : ColorEncoding → Option UInt64 := fun _ => none
  hasColorRange : Bool := false
  colorRange : ColorRange → Option UInt64 := fun _ => none
  /-- The bare format list. -/
  formats : List UInt32 := []
  prop : PlaneProp → Option PropertyInfo := fun _ => none
  /-- `resolve_plane_tf_enum`; the flag selects the inverse functions. -/
  transferFunction : PlaneProp → PlaneTransferFunction → Bool → Option UInt64 := fun _ _ _ => none

/-- The mode a CRTC is set to. -/
structure DisplayMode where
  hdisplay : ℕ
  vdisplay : ℕ
  name : ℕ := 0
  deriving DecidableEq, Repr

/-- The device of a scene. The allocator's view of it, and the answers to what the scene asks of it
itself; the scene's own TESTs are numbered like the allocator's. -/
structure SceneDevice where
  planes : Planes.Device
  traits : PlaneId → PlaneTraits
  /-- `cache_object_properties`: what a CRTC and a connector have, if they can be read. -/
  objectProperties : CrtcId → ObjectId → Except Errc OutputProperties
  asyncFlipSupported : Bool := false
  test : ℕ → AtomicRequest → Flags → Option Errc

/-! ### Layers -/

structure ColorLutEntry where
  r : UInt16
  g : UInt16
  b : UInt16
  deriving DecidableEq, Repr

/-- The amdgpu colour pipeline of a plane, each piece optional. The multiplier and the matrix are in
the property's fixed point. -/
structure AmdPlaneColor where
  degammaTf : Option PlaneTransferFunction := none
  hdrMult : Option UInt64 := none
  shaperTf : Option PlaneTransferFunction := none
  shaperLut : List ColorLutEntry := []
  lut3d : List ColorLutEntry := []
  blendTf : Option PlaneTransferFunction := none
  blendLut : List ColorLutEntry := []
  ctm : Option (List UInt64) := none
  deriving DecidableEq, Repr

/-- What a caller sets on a layer. -/
structure LayerAttrs where
  desc : LayerDesc := {}
  pinnedPlaneId : Option PlaneId := none
  contentColor : ContentColor := {}
  colorEncoding : Option ColorEncoding := none
  colorRange : Option ColorRange := none
  amdColor : AmdPlaneColor := {}
  deriving DecidableEq, Repr

/-- A slot of the handle table, with its layer's settings and the address of its `planes::Layer`. -/
structure SceneSlot extends Slot where
  attrs : LayerAttrs := {}
  planesLayer : Planes.LayerId := 0
  /-- The plane the layer's stream consumer is bound to. -/
  streamPinnedPlaneId : Option PlaneId := none
  deriving DecidableEq, Repr

/-- The slot holds a layer. -/
def SceneSlot.live (s : SceneSlot) : Bool := s.alive && s.sceneLayer.isSome

/-! ### What earlier frames left -/

/-- `PlaneStickyProps`. -/
structure PlaneStickyProps where
  pixelBlendMode : Option UInt64 := none
  colorEncoding : Option UInt64 := none
  colorRange : Option UInt64 := none
  deriving DecidableEq, Repr

inductive PinVerdict
  | unknown
  | proven
  | rejected
  deriving DecidableEq, Repr

structure PinVerdictEntry where
  handle : ℕ
  plane : PlaneId
  hash : UInt64
  verdict : PinVerdict
  deriving DecidableEq, Repr

structure CanvasState where
  target : Option CompositionTarget := none
  /-- `last_canvas_plane_id_`: the plane the next canvas prefers. -/
  lastPlane : Option PlaneId := none
  /-- `committed_canvas_plane_`. -/
  committedPlane : Option PlaneId := none
  provenPlanes : List PlaneId := []
  rejectedPlanes : List PlaneId := []
  /-- The native planes the verdicts were reached beside, in order. -/
  verdictNatives : List PlaneId := []
  testing : Bool := true

inductive StreamMixingMode
  | unsupported
  | exclusive
  | mixed
  deriving DecidableEq, Repr

/-- `LayerScene::Composition`. -/
inductive Composition
  | auto
  | forceCpu
  deriving DecidableEq, Repr

theorem gpuTried_of_available (hasEgl : Bool) (composition : Composition) :
    false = true → hasEgl = true ∧ composition = .auto :=
  fun h => absurd h Bool.false_ne_true

/-! ### The scene -/

structure SceneState where
  crtcId : CrtcId
  connectorId : ObjectId
  mode : DisplayMode
  /-- `props_` and `connector_caps_`, cached for the output the scene is bound to. -/
  properties : OutputProperties
  slots : List SceneSlot := []
  freeIds : List ℕ := []
  /-- Each layer has a `planes::Layer` of its own. -/
  nodupTwins : ((slots.filter (·.live)).map (·.planesLayer)).Nodup := by decide
  /-- The layers whose hints changed since they were last committed. -/
  hintsDirty : LayerId → Bool := fun _ => false
  /-- `output_`, and the layers it holds. The composition layer is a placeholder without properties
  of which only the dirty flag is ever read. -/
  output : Planes.Output
  heap : Heap
  placeholderDirty : Bool := true
  allocator : Planes.Allocator := {}
  stickyProps : PlaneId → PlaneStickyProps := fun _ => {}
  canvas : CanvasState := {}
  demoted : List Planes.LayerId := []
  pinVerdicts : List PinVerdictEntry := []
  primaryZposHint : Option UInt64 := none
  cachedCrtcIndex : Option ℕ := none
  mixing : StreamMixingMode := .unsupported
  mixingProbeRan : Bool := false
  firstCommit : Bool := true
  suspended : Bool := false
  modeBlob : Option BlobId := none
  forceFullWrites : Bool := false
  externalReservedPlanes : List PlaneId := []
  claimedElsewhere : List PlaneId := []
  requests : OutputRequests := {}
  signaling : OutputState := {}
  composition : Composition := .auto
  /-- `DRM_CXX_HAS_EGL`. -/
  hasEgl : Bool := false
  gpuCompositionUnavailable : Bool := false
  /-- Only a composition that may use the GPU finds it unavailable. -/
  gpuTried : gpuCompositionUnavailable = true → hasEgl = true ∧ composition = .auto := by
    exact gpuTried_of_available _ _
  /-- TESTs the scene issued itself. -/
  tests : ℕ := 0
  /-- Times it armed a canvas. -/
  armings : ℕ := 0

namespace SceneState

variable (dev : SceneDevice) (s : SceneState)

def liveSlots : List SceneSlot := s.slots.filter (·.live)

/-- The addresses of the live layers. -/
def twins : List Planes.LayerId := s.liveSlots.map (·.planesLayer)

/-- `slot_for`, on the handle table. -/
def slotFor (h : LayerHandle) : Option SceneSlot :=
  if h.id = 0 then none
  else (s.slots[h.id - 1]?).filter fun slot => slot.alive && slot.generation = h.generation

/-- `registry_`, without the planes other scenes claimed. -/
def registry : Planes.PlaneRegistry :=
  { dev.planes.registry with excluded := s.claimedElsewhere }

/-- `resolve_crtc_index`. -/
def resolveCrtcIndex : Option ℕ :=
  s.cachedCrtcIndex.or (dev.planes.crtcs.bind fun cs => cs.findIdx? (· = s.crtcId))

/-- `compute_primary_zpos_hint`, of a CRTC. -/
def primaryZposHintOf (registry : Planes.PlaneRegistry) (crtcs : Option (List CrtcId))
    (crtc : CrtcId) : Option UInt64 :=
  (crtcs.bind fun cs => cs.findIdx? (· = crtc)).bind fun i =>
    (registry.planes.find? fun p =>
      p.type = .primary && p.compatibleWithCrtc i && p.zposMin.isSome).bind (·.zposMin)

end SceneState

end DrmCxx.Scene
