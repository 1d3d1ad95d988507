import DrmCxx.Scene.Arming

/-!
# The canvas plane

Where the composition canvas goes: the plane reserved for it, the candidates in order of preference,
the TESTs that choose among them, and the layers it takes over.
-/

namespace DrmCxx.Scene

open Lib Modeset CompositeCanvas
open Planes (PlaneId PlaneCapabilities PropTag Flags)

namespace SceneState

variable (dev : SceneDevice) (s : SceneState)

/-! ### Reservation -/

def layerCount : ℕ := s.slots.length - s.freeIds.length

/-- The live layers, as `bottom_slot_layer` sees them. -/
def liveInputs : List LoweringInput :=
  s.liveSlots.map fun slot => ⟨slot.planesLayer, slot.attrs.desc, 0⟩

/-- Some live layer can take PRIMARY's slot. -/
def primaryEligible (pin : UInt64) : Bool :=
  s.liveInputs.any (fun a => a.zpos.all fun z => UInt64.ofInt z = pin) ||
    (bottomSlotLayer s.liveInputs pin).isSome

def canvasEligible : List PlaneCapabilities :=
  (s.crtcPlanes dev).filter fun p => p.type ≠ .cursor && s.planeHostsCanvas p

/-- `pick_canvas_reservation_if_needed`: PRIMARY when no layer can anchor it, else an OVERLAY when
there are more layers than planes. -/
def pickCanvasReservationIfNeeded : Option PlaneId :=
  if s.cachedCrtcIndex.isNone || s.planesStackById dev then none
  else
    let eligible := s.canvasEligible dev
    let primaryFallback := (eligible.find? (·.type = .primary)).map (·.id)
    if s.primaryZposHint.any (fun pin => primaryFallback.isSome && !s.primaryEligible pin) &&
        s.layerCount > 0 then
      primaryFallback
    else if eligible.isEmpty || s.layerCount ≤ eligible.length then none
    else ((eligible.find? (·.type = .overlay)).map (·.id)).or primaryFallback

/-! ### Candidates -/

def inUse (as : List AcquiredLayer) (p : PlaneId) : Bool :=
  as.any fun a => s.assignedPlane a = some p

/-- The plane is free, and the canvas can be on it. -/
def canvasCandidate (as : List AcquiredLayer) (p : PlaneCapabilities) : Bool :=
  p.type ≠ .cursor && !s.inUse as p.id && s.planeHostsCanvas p &&
    Planes.multirectPairingOk p.multirectParent (s.inUse as)

/-- Where planes are stacked by id the allocator says where the canvas goes. -/
def preferredCanvasPlane : Option PlaneId :=
  if s.planesStackById dev then s.allocator.search.canvasPlane.or s.canvas.lastPlane
  else s.canvas.lastPlane

/-- `canvas_plane_candidates`: the preferred plane, then OVERLAYs, then PRIMARYs. -/
def canvasPlaneCandidates (as : List AcquiredLayer) : List PlaneCapabilities :=
  let planes := s.crtcPlanes dev
  let preferred := (planes.find? fun p => s.preferredCanvasPlane dev = some p.id).filter
    (s.canvasCandidate as)
  let rest := planes.filter fun p => s.canvasCandidate as p && preferred ≠ some p
  let ordered := rest.filter (·.type = .overlay) ++ rest.filter (·.type ≠ .overlay)
  preferred.toList ++
    if s.planesStackById dev then dev.planes.stdSort.sort (fun a b => a.id > b.id) ordered
    else ordered

/-- The largest `std::int32_t`. -/
def maxZpos : UInt64 := 0x7fffffff

/-- `choose_canvas_zpos`. -/
def chooseCanvasZpos : Int32 :=
  match s.allocator.canvasZpos with
  | some slot => (min slot maxZpos).toUInt32.toInt32
  | none =>
    match (s.allocator.zposStack.map (·.2) ++ s.primaryZposHint.toList).max? with
    | some top => (min (top + 1) maxZpos).toUInt32.toInt32
    | none => 0

/-- The zpos the canvas is written with on a plane. -/
def clampCanvasZpos (p : PlaneCapabilities) (zpos : Int32) : Int32 :=
  let z := match p.zposMax with
    | some hi => min zpos hi.toUInt32.toInt32
    | none => zpos
  match p.zposMin with
  | some lo => max z lo.toUInt32.toInt32
  | none => z

/-- A write of the canvas to a property its plane takes. -/
def canvasWrite (dev : SceneDevice) (p : PlaneId) (t : PropTag) (v : UInt64) : AtomicRequest :=
  if dev.planes.advertises p t && !dev.planes.isImmutable p t then [((p, .tag t), v)] else []

/-- The writes of `arm_composition_canvas`. -/
def armCompositionCanvas (t : CompositionTarget) (p : PlaneCapabilities) (zpos : Int32) :
    AtomicRequest :=
  let put := canvasWrite dev p.id
  let traits := dev.traits p.id
  put .fbId t.fbId ++ put .crtcId s.crtcId.toUInt64 ++ put .crtcX 0 ++ put .crtcY 0 ++
    put .crtcW t.width.toUInt64 ++ put .crtcH t.height.toUInt64 ++ put .srcX 0 ++ put .srcY 0 ++
    put .srcW (t.width.toUInt64 <<< 16) ++ put .srcH (t.height.toUInt64 <<< 16) ++
    (match traits.blendModePremultiplied with
      | some v =>
        if takes dev p.id .pixelBlendMode then [((p.id, .plane .pixelBlendMode), v)] else []
      | none => []) ++
    (if traits.hasPerPlaneAlpha then put .alpha p.alphaMax else []) ++
    p.resetOnArmProps.map (fun prop => ((p.id, .driverPrivate prop), 0)) ++
    if Planes.zposFixed p then [] else put .zpos (UInt64.ofInt (clampCanvasZpos p zpos).toInt)

/-- `arm_composition_canvas`: the writes it adds, and whether it adds them all. -/
def armCanvas (q : FrameAnswers) (t : CompositionTarget) (p : PlaneCapabilities) (zpos : Int32) :
    AtomicRequest × Bool × SceneState :=
  let writes := s.armCompositionCanvas dev t p zpos
  let room := (q.canvasRoom s.armings).getD writes.length
  (writes.take room, writes.length ≤ room, { s with armings := s.armings + 1 })

/-! ### The composition target -/

/-- The GPU is still to be tried. -/
def triesGpu : Bool := s.hasEgl && s.composition = .auto && !s.gpuCompositionUnavailable

theorem triesGpu_iff : s.triesGpu = true ↔
    (s.hasEgl = true ∧ s.composition = .auto) ∧ s.gpuCompositionUnavailable = false := by
  simp [triesGpu]

/-- `make_composition_target`: the GPU once, else the CPU canvas. -/
def makeCompositionTarget (q : FrameAnswers) (cfg : CompositeCanvasConfig) :
    SceneState × Option CompositionTarget :=
  let sized := cfg.canvasWidth ≠ 0 && cfg.canvasHeight ≠ 0
  let cpu := if sized then (q.createCanvas cfg).map (.ofCanvas cfg) else none
  if h : s.triesGpu then
    match if sized then q.createGl cfg else none with
    | some egl => (s, some (.ofGl cfg egl))
    | none =>
      ({ s with
        gpuCompositionUnavailable := true, gpuTried := fun _ => (s.triesGpu_iff.mp h).1 }, cpu)
  else (s, cpu)

/-- `ensure_composition_canvas`: made on first use, in a format the plane scans out. -/
def ensureCompositionCanvas (q : FrameAnswers) (p : PlaneCapabilities) : SceneState :=
  match s.canvas.target with
  | some _ => s
  | none =>
    let made := s.makeCompositionTarget q ⟨s.mode.hdisplay, s.mode.vdisplay,
      (canvasFormatForPlane p).getD (fourccCode 'A' 'R' '2' '4')⟩
    { made.1 with canvas := { made.1.canvas with target := made.2 } }

/-! ### Verdicts -/

def provePlane (p : PlaneId) : SceneState :=
  { s with canvas := { s.canvas with provenPlanes := s.canvas.provenPlanes ++ [p] } }

def rejectPlane (p : PlaneId) : SceneState :=
  { s with canvas := { s.canvas with rejectedPlanes := s.canvas.rejectedPlanes ++ [p] } }

/-- The frame's rejections are forgotten, and nothing is tested any more. -/
def stopTesting : SceneState :=
  { s with canvas := { s.canvas with rejectedPlanes := [], testing := false } }

/-- The native planes of the frame, in order. -/
def nativePlanes (as : List AcquiredLayer) : List PlaneId :=
  (as.filterMap fun a =>
    if (s.heap a.layer).needsComposition then none else s.assignedPlane a).insertionSort (· ≤ ·)

/-- The verdicts hold beside one set of native planes. -/
def refreshVerdicts (as : List AcquiredLayer) : SceneState :=
  if s.nativePlanes as = s.canvas.verdictNatives then s
  else
    { s with
      canvas := { s.canvas with
        provenPlanes := [], rejectedPlanes := [], verdictNatives := s.nativePlanes as
        testing := true } }

/-! ### Demotion -/

/-- The DMA-BUF a layer is composited from; none when the CPU composites. -/
def dmaBufOf (q : FrameAnswers) (a : AcquiredLayer) : Option DmaBufDesc :=
  if s.composition = .forceCpu then none else q.exportDmaBuf a.sceneLayer

/-- The canvas can draw the layer. -/
def drawable (q : FrameAnswers) (a : AcquiredLayer) : Bool :=
  (s.dmaBufOf q a).isSome || (q.mapForRead a.sceneLayer).isSome

def displayZpos (a : AcquiredLayer) : ℤ := (a.attrs.desc.display.zpos.getD 0).toInt

/-- Only a layer the allocator placed can be demoted. -/
def demotable (a : AcquiredLayer) : Bool :=
  let l := s.heap a.layer
  !l.needsComposition && l.assignedPlane.isSome && !l.pinned && !l.externallyBound &&
    a.slot.streamPinnedPlaneId.isNone

/-- Lowest keep priority first, topmost on a tie. -/
def demotesBefore (a b : AcquiredLayer) : Prop :=
  let pa := Planes.keepPriority (s.heap a.layer)
  let pb := Planes.keepPriority (s.heap b.layer)
  pa < pb ∨ pa = pb ∧ displayZpos a ≥ displayZpos b

instance (a b : AcquiredLayer) : Decidable (s.demotesBefore a b) :=
  inferInstanceAs (Decidable (_ ∨ _ ∧ _))

/-- `pick_demotion`. -/
def pickDemotion (q : FrameAnswers) (as : List AcquiredLayer) : Option AcquiredLayer :=
  ((as.filter s.demotable).insertionSort s.demotesBefore).find? (s.drawable q)

end SceneState

namespace Placing

variable (dev : SceneDevice) (w : Placing)

/-- One candidate of `canvas_plane_feasible`: armed, TESTed and rolled back. A canvas that cannot be
armed counts as rejected. -/
def probeVerdict (q : FrameAnswers) (flags : Flags) (t : CompositionTarget) (zpos : Int32)
    (p : PlaneCapabilities) (s : SceneState) : Option Errc × SceneState :=
  let (writes, armed, s) := s.armCanvas dev q t p zpos
  if armed then s.testRequest dev (w.request ++ writes) flags else (some .invalidArgument, s)

/-- The candidates tried one after the other beside the native planes. -/
def probeCanvas (q : FrameAnswers) (flags : Flags) (t : CompositionTarget) (zpos : Int32) :
    List PlaneCapabilities → SceneState → Bool × SceneState
  | [], s => (false, s)
  | p :: ps, s =>
    if s.canvas.provenPlanes.contains p.id then (true, s)
    else if s.canvas.rejectedPlanes.contains p.id then probeCanvas q flags t zpos ps s
    else
      let (verdict, s) := w.probeVerdict dev q flags t zpos p s
      match verdict with
      | none => (true, s.provePlane p.id)
      | some .permissionDenied => (true, s)
      | some _ => probeCanvas q flags t zpos ps (s.rejectPlane p.id)

/-- `canvas_plane_feasible`: true when nothing is composited or nothing can be tested. -/
def canvasPlaneFeasible (q : FrameAnswers) (flags : Flags) (as : List AcquiredLayer) :
    Bool × SceneState :=
  let s := w.scene.refreshVerdicts as
  if !(as.any fun a => (s.heap a.layer).needsComposition) || !s.canvas.testing ||
      s.cachedCrtcIndex.isNone then
    (true, s)
  else
    let candidates := s.canvasPlaneCandidates dev as
    match candidates with
    | [] => (true, s)
    | first :: _ =>
      let s := s.ensureCompositionCanvas q first
      match s.canvas.target with
      | none => (true, s)
      | some t =>
        if !t.armable || t.fbId = 0 then (true, s)
        else w.probeCanvas dev q flags t s.chooseCanvasZpos candidates s

/-- A plane the canvas is armed on, with the writes. -/
abbrev ArmedCanvas := PlaneCapabilities × AtomicRequest

/-- The loop of `arm_canvas_tested`: the first candidate that is armed and that the kernel
accepts. -/
def armCanvasLoop (q : FrameAnswers) (flags : Flags) (t : CompositionTarget) (zpos : Int32) :
    List PlaneCapabilities → SceneState → Option ArmedCanvas × SceneState
  | [], s => (none, s)
  | p :: ps, s =>
    if s.canvas.rejectedPlanes.contains p.id then armCanvasLoop q flags t zpos ps s
    else
      let (writes, armed, s) := s.armCanvas dev q t p zpos
      if !armed then armCanvasLoop q flags t zpos ps s
      else if s.canvas.provenPlanes.contains p.id then (some (p, writes), s)
      else
        let (verdict, s) := s.testRequest dev (w.request ++ writes) flags
        match verdict with
        | none => (some (p, writes), s.provePlane p.id)
        | some .permissionDenied => (some (p, writes), s)
        | some _ => armCanvasLoop q flags t zpos ps (s.rejectPlane p.id)

/-- The first candidate is armed without a TEST. -/
def armFirst (q : FrameAnswers) (t : CompositionTarget) (zpos : Int32) (first : PlaneCapabilities)
    (s : SceneState) : Option PlaneCapabilities × AtomicRequest × SceneState :=
  let (writes, armed, s) := s.armCanvas dev q t first zpos
  (if armed then some first else none, writes, s)

/-- `arm_canvas_tested`: the plane, what was written, and the scene. When no candidate passes, the
first one is armed and testing stops; writes before a failure stay. -/
def armCanvasTested (q : FrameAnswers) (flags : Flags) (t : CompositionTarget) (zpos : Int32)
    (first : PlaneCapabilities) (candidates : List PlaneCapabilities) :
    Option PlaneCapabilities × AtomicRequest × SceneState :=
  let s := w.scene
  if !s.canvas.testing then armFirst dev q t zpos first s
  else
    match w.armCanvasLoop dev q flags t zpos candidates s with
    | (some (p, writes), s) => (some p, writes, s)
    | (none, s) => armFirst dev q t zpos first s.stopTesting

def setScene (s : SceneState) : Placing := { w with scene := s }

/-- What `compose_unassigned` leaves. -/
structure Composed where
  placing : Placing
  /-- The plane the canvas is armed on. -/
  armed : Option PlaneId := none
  /-- The layers it holds pixels or a DMA-BUF of. -/
  cached : List AcquiredLayer := []

/-- The composition canvas forgets its plane. -/
def forgetCanvasPlane : Placing :=
  w.setScene { w.scene with canvas := { w.scene.canvas with lastPlane := none } }

/-! ### Painting -/

/-- What a target is handed of a layer: its DMA-BUF if the target can import it, else its pixels. -/
def blendOf (q : FrameAnswers) (t : CompositionTarget) (a : AcquiredLayer) : Option LayerBlend :=
  let d := a.attrs.desc
  let call (src : CompositeSrc) (dmaBuf : Option DmaBufDesc) : LayerBlend :=
    { handle := a.handle, src, dmaBuf, srcRect := d.blendSrcRect, dstRect := d.blendDstRect
      current := q.makesCurrent a.sceneLayer, image := q.createsImage a.sceneLayer }
  match (w.scene.dmaBufOf q a).filter fun _ => t.supportsDmaBufImport d.compositeSrc.drmFourcc with
  | some dmaBuf => some (call d.compositeSrc dmaBuf)
  | none =>
    (q.mapForRead a.sceneLayer).map fun m =>
      call { d.compositeSrc with pixels := some m.pixels, srcStrideBytes := m.stride } none

/-- The blend loop: the target, and the layers it was handed. A layer it cannot sample is
dropped. -/
def blendLayers (q : FrameAnswers) :
    CompositionTarget → List AcquiredLayer → CompositionTarget × List AcquiredLayer
  | t, [] => (t, [])
  | t, a :: as =>
    match w.blendOf q t a with
    | none => blendLayers q t as
    | some b =>
      let (t, handed) := blendLayers q (t.blend b) as
      (t, a :: handed)

/-- The layers back to front. -/
def paintOrder (collected : List AcquiredLayer) : List AcquiredLayer :=
  dev.planes.stdSort.sort (fun a b => SceneState.displayZpos a < SceneState.displayZpos b) collected

/-- The scene keeps the painted target. -/
def keepTarget (t : CompositionTarget) : Placing :=
  w.setScene { w.scene with canvas := { w.scene.canvas with target := some t } }

/-- The part of `compose_unassigned` that arms a painted canvas. -/
def armPainted (q : FrameAnswers) (flags : Flags) (t : CompositionTarget)
    (handed : List AcquiredLayer) (first : PlaneCapabilities)
    (candidates : List PlaneCapabilities) :
    Composed :=
  match w.armCanvasTested dev q flags t w.scene.chooseCanvasZpos first candidates with
  | (none, writes, s) =>
    { placing := { w with scene := s, request := w.request ++ writes }, cached := handed }
  | (some p, writes, s) =>
    { placing :=
        { scene := { s with canvas := { s.canvas with lastPlane := some p.id } }
          request := w.request ++ writes
          report := { w.report with
            layersComposited := w.report.layersComposited + handed.length
            compositionBuckets := w.report.compositionBuckets + 1 } }
      armed := some p.id
      cached := handed }

/-- The part of `compose_unassigned` that paints the canvas. -/
def paintCanvas (q : FrameAnswers) (flags : Flags) (collected : List AcquiredLayer)
    (t : CompositionTarget) (first : PlaneCapabilities) (candidates : List PlaneCapabilities) :
    Composed :=
  let painted := w.blendLayers q (t.beginFrame q.beginsFrame) (paintOrder dev collected)
  if painted.2.isEmpty then { placing := (w.keepTarget painted.1).forgetCanvasPlane }
  else
    let flushed := painted.1.flush q.swapBuffers
    if !flushed.2 then { placing := w.keepTarget flushed.1, cached := painted.2 }
    else (w.keepTarget flushed.1).armPainted dev q flags flushed.1 painted.2 first candidates

/-- `compose_unassigned`. -/
def composeUnassigned (q : FrameAnswers) (flags : Flags) (as : List AcquiredLayer) : Composed :=
  let s := w.scene
  let collected := as.filter fun a => (s.heap a.layer).needsComposition && s.drawable q a
  if collected.isEmpty then { placing := w.forgetCanvasPlane }
  else if s.cachedCrtcIndex.isNone then { placing := w, cached := collected }
  else
    match s.canvasPlaneCandidates dev as with
    | [] => { placing := w, cached := collected }
    | first :: rest =>
      let w := w.setScene (s.ensureCompositionCanvas q first)
      match w.scene.canvas.target with
      | none => { placing := w, cached := collected }
      | some t =>
        if !t.armable then { placing := w, cached := collected }
        else w.paintCanvas dev q flags collected t first (first :: rest)

end Placing

end DrmCxx.Scene
