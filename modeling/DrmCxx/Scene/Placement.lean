import DrmCxx.Scene.RingPresenter
import DrmCxx.Scene.SceneState

/-!
# Placing a frame

The placement half of `build_frame_into`: what is reserved before the allocator runs, the passes
that write to the planes it assigned, hard pins, and the composition canvas.
-/

namespace DrmCxx.Scene

open Lib Modeset
open Planes (PlaneId CrtcId PlaneCapabilities PropTag Heap Flags Device)

/-! ### The answers of one frame -/

structure AcquiredFrame where
  fbId : UInt64
  /-- The sync_file the producer's render signals. -/
  acquireFence : Option UInt64 := none
  damage : List DamageRect := []
  deriving DecidableEq, Repr

/-- One acquired layer: its slot as the build found it, and the buffer. -/
structure AcquiredLayer where
  slot : SceneSlot
  handle : ℕ
  buffer : AcquiredFrame
  deriving DecidableEq, Repr

namespace AcquiredLayer

def layer (a : AcquiredLayer) : Planes.LayerId := a.slot.planesLayer

def attrs (a : AcquiredLayer) : LayerAttrs := a.slot.attrs

/-- `scene_layer`. -/
def sceneLayer (a : AcquiredLayer) : LayerId := (a.slot.sceneLayer.map (·.id)).getD 0

end AcquiredLayer

/-- A damage clip: two corners. -/
structure ClipRect where
  x1 : ℤ
  y1 : ℤ
  x2 : ℤ
  y2 : ℤ
  deriving DecidableEq, Repr

/-- What the sources, the kernel and the canvas answer while one frame is built. -/
structure FrameAnswers where
  bindToPlane : SourceId → PlaneId → Bool := fun _ _ => true
  acquire : LayerId → Except Errc AcquiredFrame
  mapForRead : LayerId → Option ReadMapping
  exportDmaBuf : LayerId → Option DmaBufDesc := fun _ => none
  modeBlob : Except Errc BlobId
  hdrBlob : HdrSourceMetadata → Except Errc BlobId
  damageBlob : List ClipRect → Option BlobId := fun _ => none
  colorBlob : List UInt64 → Except Errc BlobId
  /-- The framebuffers of a new canvas. -/
  createCanvas : CompositeCanvasConfig → Option (Fin 2 → UInt64)
  /-- `GlCompositor::create`. -/
  createGl : CompositeCanvasConfig → Option EglSupport := fun _ => none
  /-- `eglMakeCurrent` when the frame begins, and for a layer's blend. -/
  beginsFrame : Bool := true
  makesCurrent : LayerId → Bool := fun _ => true
  createsImage : LayerId → Bool := fun _ => true
  /-- What a flush of the compositor publishes. -/
  swapBuffers : Option UInt64 := none
  /-- The write of the `n`-th arming of a canvas that the request has no memory for. -/
  canvasRoom : ℕ → Option ℕ := fun _ => none
  /-- The plane state `drmModeGetPlane` reads. -/
  kernel : Kernel

inductive PlacementKind
  | assignedToPlane
  | composited
  | unassigned
  deriving DecidableEq, Repr

structure LayerPlacementEntry where
  handle : ℕ
  placement : PlacementKind
  planeId : PlaneId := 0
  deriving DecidableEq, Repr

structure CommitReport where
  layersTotal : ℕ := 0
  layersAssigned : ℕ := 0
  layersComposited : ℕ := 0
  layersUnassigned : ℕ := 0
  layersSkippedNoFrame : ℕ := 0
  compositionBuckets : ℕ := 0
  pinsFailed : ℕ := 0
  hdrDowngradedNoMaxBpc : Bool := false
  placements : List LayerPlacementEntry := []
  deriving DecidableEq, Repr

/-- A frame while it is placed. -/
structure Placing where
  scene : SceneState
  request : AtomicRequest
  report : CommitReport

namespace SceneState

variable (dev : SceneDevice) (s : SceneState)

/-! ### The planes of the CRTC -/

/-- `registry_.for_crtc`, once the CRTC has an index. -/
def crtcPlanes : List PlaneCapabilities :=
  match s.cachedCrtcIndex with
  | some i => (s.registry dev).forCrtc i
  | none => []

/-- `plane_caps_for`. -/
def planeCapsFor (p : PlaneId) : Option PlaneCapabilities :=
  (s.crtcPlanes dev).find? fun caps => caps.id = p

/-- `scans_out`: a plane without `IN_FORMATS` has its bare formats in the table, as linear. -/
def scansOut (p : PlaneCapabilities) (fourcc : UInt32) (modifier : UInt64) : Bool :=
  Planes.layerFitsPlane p.formatTable fourcc modifier

def canvasFormats : List UInt32 :=
  [fourccCode 'A' 'R' '2' '4', fourccCode 'X' 'R' '2' '4', fourccCode 'X' 'B' '2' '4',
    fourccCode 'A' 'B' '2' '4', fourccCode 'R' 'G' '1' '6', fourccCode 'B' 'G' '1' '6']

def canvasFormatForPlane (p : PlaneCapabilities) : Option UInt32 :=
  canvasFormats.find? fun fourcc => scansOut p fourcc Planes.modLinear

/-- `plane_hosts_canvas`: once there is a canvas its format is settled. -/
def planeHostsCanvas (p : PlaneCapabilities) : Bool :=
  match s.canvas.target with
  | some t => scansOut p t.drmFourcc Planes.modLinear
  | none => (canvasFormatForPlane p).isSome

/-- `planes_stack_by_id`. -/
def planesStackById : Bool :=
  !(s.crtcPlanes dev).any fun p => p.type ≠ .cursor && p.zposMin.isSome

def isMultirectVirtual (p : PlaneId) : Bool :=
  dev.planes.registry.planes.any fun caps => caps.id = p && caps.multirectParent.isSome

/-- `inject_modeset_state`, with the mode blob. -/
def modesetWrites (blob : BlobId) : AtomicRequest :=
  [((s.crtcId, .output .modeId), blob.toUInt64), ((s.crtcId, .output .active), 1),
    ((s.connectorId, .tag .crtcId), s.crtcId.toUInt64)]

/-- `ensure_mode_blob`. -/
def ensureModeBlob (q : FrameAnswers) : Except Errc BlobId :=
  match s.modeBlob with
  | some blob => .ok blob
  | none => q.modeBlob

/-- `DRM_MODE_ATOMIC_ALLOW_MODESET`. -/
def allowModeset : Flags := 0x0400

/-- `DRM_MODE_ATOMIC_TEST_ONLY`. -/
def testOnlyFlag : Flags := 0x0100

/-- `DRM_MODE_PAGE_FLIP_ASYNC`. -/
def pageFlipAsync : Flags := 0x02

/-- The allocator's view of the device: the scene decorates its TESTs and says where the canvas
fits. -/
def allocatorDevice (q : FrameAnswers) : Device :=
  { dev.planes with
    registry := s.registry dev
    canvasHost := some s.planeHostsCanvas
    testPreparer := some fun _ flags =>
      if flags &&& allowModeset = 0 then .ok [] else (s.ensureModeBlob q).map s.modesetWrites }

/-! ### Streams -/

/-- `pick_stream_plane`: an OVERLAY first, else the first PRIMARY. -/
def pickStreamPlane (fourcc : UInt32) (taken : List PlaneId) : Option PlaneId :=
  let free := (s.crtcPlanes dev).filter fun p =>
    p.type ≠ .cursor && s.canvas.lastPlane ≠ some p.id && !taken.contains p.id &&
      (dev.traits p.id).formats.contains fourcc
  ((free.find? (·.type ≠ .primary)).or free.head?).map (·.id)

/-- One slot's turn: the pin it gets, when the source can be bound. -/
def streamPinOf (q : FrameAnswers) (taken : List PlaneId) (slot : SceneSlot) : Option PlaneId :=
  match slot.live, slot.streamPinnedPlaneId, slot.sceneLayer with
  | true, none, some layer =>
    if slot.attrs.desc.bindingModel = .driverOwnsBinding then
      (s.pickStreamPlane dev slot.attrs.desc.format.drmFourcc.toUInt32 taken).filter
        (q.bindToPlane layer.source)
    else none
  | _, pin, _ => pin

def pinStreams (q : FrameAnswers) : List PlaneId → List SceneSlot → List SceneSlot
  | _, [] => []
  | taken, slot :: slots =>
    let pin := s.streamPinOf dev q taken slot
    { slot with streamPinnedPlaneId := pin } ::
      pinStreams q (if slot.streamPinnedPlaneId.isNone then taken ++ pin.toList else taken) slots

theorem live_pinStreams (q : FrameAnswers) (taken : List PlaneId) (slots : List SceneSlot) :
    ((s.pinStreams dev q taken slots).filter (·.live)).map (·.planesLayer) =
      (slots.filter (·.live)).map (·.planesLayer) := by
  induction slots generalizing taken with
  | nil => rfl
  | cons slot slots ih =>
    rw [pinStreams, List.filter_cons, List.filter_cons]
    cases h : slot.live with
    | true =>
      rw [if_pos (by exact h), if_pos rfl, List.map_cons, List.map_cons, ih]
    | false => rw [if_neg (by simpa [SceneSlot.live] using h), if_neg Bool.false_ne_true, ih]

/-- `ensure_stream_layer_pins`. -/
def ensureStreamLayerPins (q : FrameAnswers) : SceneState :=
  if s.cachedCrtcIndex.isNone then s
  else
    { s with
      slots := s.pinStreams dev q
        (s.slots.filterMap fun slot => if slot.alive then slot.streamPinnedPlaneId else none)
        s.slots
      nodupTwins := by rw [live_pinStreams]; exact s.nodupTwins }

/-- Non-stream layers are composited beside a stream the driver will not mix with. -/
def exclusiveConstraint : Bool :=
  s.mixingProbeRan && s.mixing = .exclusive &&
    s.liveSlots.any fun slot => slot.attrs.desc.bindingModel = .driverOwnsBinding

/-- `apply_exclusive_mixing_constraint`, and the demotions that stick. -/
def markTransient : SceneState :=
  { s with
    heap := fun l =>
      match s.liveSlots.find? fun slot => slot.planesLayer = l with
      | some slot =>
        { s.heap l with
          transientComposited :=
            (s.exclusiveConstraint && slot.attrs.desc.bindingModel ≠ .driverOwnsBinding) ||
              s.demoted.contains l }
      | none => s.heap l }

/-! ### Acquisition -/

/-- `acquire_all`: the acquisitions and the layers without a frame, up to the first error. -/
def acquireSlots (q : FrameAnswers) :
    List (SceneSlot × ℕ) → List AcquiredLayer × ℕ × Option Errc
  | [] => ([], 0, none)
  | (slot, idx) :: slots =>
    match slot.live, slot.sceneLayer with
    | true, some layer =>
      match q.acquire layer.id with
      | .ok buffer =>
        let rest := acquireSlots q slots
        (⟨slot, idx + 1, buffer⟩ :: rest.1, rest.2)
      | .error .resourceUnavailableTryAgain =>
        let rest := acquireSlots q slots
        (rest.1, rest.2.1 + 1, rest.2.2)
      | .error e => ([], 0, some e)
    | _, _ => acquireSlots q slots

def acquireAll (q : FrameAnswers) : List AcquiredLayer × ℕ × Option Errc :=
  acquireSlots q s.slots.zipIdx

theorem acquireSlots_sublist (q : FrameAnswers) (slots : List (SceneSlot × ℕ)) :
    ((acquireSlots q slots).1.map (·.layer)).Sublist
      (((slots.map Prod.fst).filter (·.live)).map (·.planesLayer)) := by
  induction slots with
  | nil => exact List.Sublist.refl _
  | cons e slots ih =>
    obtain ⟨slot, idx⟩ := e
    have hskip : ((acquireSlots q slots).1.map (·.layer)).Sublist
        ((((slot :: slots.map Prod.fst)).filter (·.live)).map (·.planesLayer)) :=
      ih.trans (((List.sublist_cons_self _ _).filter _).map _)
    rw [acquireSlots]
    split
    · rename_i layer hlive _
      split
      · simpa [List.filter_cons, hlive, AcquiredLayer.layer] using ih
      · exact hskip
      · exact List.nil_sublist _
    · exact hskip

/-! ### Lowering -/

theorem nodup_acquired (q : FrameAnswers) :
    (((s.acquireAll q).1.map fun a => (a.layer, a.buffer.fbId)).map Prod.fst).Nodup := by
  rw [List.map_map]
  refine (s.nodupTwins.sublist ?_ : ((s.acquireAll q).1.map (·.layer)).Nodup)
  simpa [acquireAll] using acquireSlots_sublist q s.slots.zipIdx

/-- The lowering loop, over the layers acquired. -/
def loweringFrame (q : FrameAnswers) : LoweringFrame where
  crtcId := s.crtcId
  primaryZposHint := s.primaryZposHint
  registry := s.registry dev
  crtcIndex := s.cachedCrtcIndex
  acquired := (s.acquireAll q).1.map fun a => (a.layer, a.buffer.fbId)
  nodupAcquired := s.nodup_acquired q
  transient l := (s.heap l).transientComposited
  pinned _ := false

/-- The description of the layer at an address. -/
def descOf (l : Planes.LayerId) : LayerDesc :=
  ((s.liveSlots.find? fun slot => slot.planesLayer = l).map (·.attrs.desc)).getD {}

def lower (q : FrameAnswers) : SceneState :=
  { s with heap := (s.loweringFrame dev q).lowerAll s.descOf s.heap }

end SceneState

end DrmCxx.Scene
