import DrmCxx.Scene.CanvasPlane

/-!
# Building and finishing a frame

`LayerScene::Impl::build_frame_into` and `finalize_frame`: the layers are acquired and lowered,
placed as often as it takes to find room for the canvas, the output's properties are written, and
the kernel's verdict is taken over.
-/

namespace DrmCxx

/-! ### The order of the layers -/

/-- `apply` reorders the layers of its output and keeps them. -/
theorem Planes.Allocator.apply_layers_perm (d : Planes.Device) (a : Planes.Allocator)
    (f : Planes.Frame) : (a.apply d f).layers.Perm f.output.layers := by
  have happlied : ∀ (t : Planes.Allocator.Attempt) (heap : Planes.Heap),
      (t.applied f heap).layers = f.output.layers := by
    intro t heap
    unfold Planes.Allocator.Attempt.applied
    split <;> rfl
  simp only [Planes.Allocator.apply, Planes.Allocator.answerFrame]
  split
  · rw [happlied]
  · exact d.stdSort.perm _ _

namespace Scene

open Lib Modeset
open Planes (PlaneId Flags)

/-- `FrameBuildState`, with the request it was built into. -/
structure BuiltFrame where
  acquisitions : List AcquiredLayer
  request : AtomicRequest
  effectiveFlags : Flags
  testOnly : Bool
  canvasPlane : Option PlaneId
  /-- The layers whose pixels or DMA-BUF it holds. -/
  cached : List AcquiredLayer
  fbDeltaFastPath : Bool
  report : CommitReport

/-- A build with what it leaves of the scene. A suspended scene builds nothing. -/
structure SceneBuild where
  scene : SceneState
  result : Except Errc (Option BuiltFrame)

namespace SceneState

variable (dev : SceneDevice) (s : SceneState)

/-! ### Before the allocator -/

/-- The frame's modeset allowance. -/
def modesetFlags : Flags := if s.firstCommit then allowModeset else 0

/-- The flags of the scene's own TESTs; never the page flip event. -/
def verifyFlags : Flags := testOnlyFlag ||| s.modesetFlags

/-- The first commit's modeset, with the blob it makes. -/
def beginModeset (q : FrameAnswers) : Except Errc (SceneState × AtomicRequest) :=
  if !s.firstCommit then .ok (s, [])
  else
    (s.ensureModeBlob q).map fun blob => ({ s with modeBlob := some blob }, s.modesetWrites blob)

/-- The canvas reservation, which sticks to the plane it found. -/
def reserveCanvas : SceneState × List PlaneId :=
  match s.pickCanvasReservationIfNeeded dev with
  | none => (s, [])
  | some p =>
    let p := s.canvas.lastPlane.getD p
    ({ s with canvas := { s.canvas with lastPlane := some p } },
      if isMultirectVirtual dev p then [] else [p])

/-- Everything `apply` must leave alone: the canvas, streams, other owners' planes, hard pins. -/
def reservePlanes (as : List AcquiredLayer) : SceneState × List PlaneId × ℕ :=
  let (s, canvas) := s.reserveCanvas dev
  as.foldl (reservePin dev)
    (s, canvas ++ as.filterMap (·.slot.streamPinnedPlaneId) ++ s.externalReservedPlanes ++
      s.claimedElsewhere, 0)

/-! ### The placement loop -/

/-- What one frame's placement rounds share. -/
structure Round where
  answers : FrameAnswers
  acquired : List AcquiredLayer
  reserved : List PlaneId
  flags : Flags
  testOnly : Bool

/-- A layer whose hints changed may want another plane. -/
def dropStaleAllocation : SceneState :=
  if s.liveSlots.any (fun slot => slot.sceneLayer.any (s.hintsDirty ·.id)) then
    { s with allocator := s.allocator.invalidateAllocation }
  else s

def allocatorFrame (r : Round) : Planes.Frame where
  output := s.output
  heap := Function.update s.heap s.output.compositionLayer { dirty := s.placeholderDirty }
  flags := r.flags
  reserved := r.reserved
  testOnly := r.testOnly
  kernel := r.answers.kernel

/-- `Allocator::apply` in the scene. -/
def applied (r : Round) : Planes.Applied :=
  s.allocator.apply (s.allocatorDevice dev r.answers) (s.allocatorFrame r)

/-- The scene after `apply` returned. -/
def afterApply (r : Round) : SceneState :=
  let applied := s.applied dev r
  { s with
    allocator := applied.allocator
    heap := applied.heap
    placeholderDirty := (applied.heap s.output.compositionLayer).dirty
    output := { s.output with
      layers := applied.layers
      nodupLayers := (Planes.Allocator.apply_layers_perm _ _ _).nodup_iff.mpr
        s.output.nodupLayers } }

/-- The writes of the passes after `apply`, and the sticky properties they leave. -/
def armPasses (r : Round) : SceneState × Except Errc AtomicRequest :=
  let (sticky, stickyWrites) := s.armStickyProps dev r.testOnly r.acquired
  let s := { s with stickyProps := sticky }
  (s, (s.armAmdPlaneColor dev r.answers r.acquired).map fun amd =>
    stickyWrites ++ r.acquired.flatMap (s.armAcquireFence dev) ++
      r.acquired.flatMap (s.armDamageClips dev r.answers) ++ amd)

/-- How one turn of the placement loop ends. -/
inductive RoundEnd
  | failed (scene : SceneState) (error : Errc)
  | placed (placing : Placing) (feasible : Bool)

end SceneState

/-- The last part of a turn: the pins, and the search for a canvas plane. -/
def Placing.settle (dev : SceneDevice) (r : SceneState.Round) (w : Placing) : SceneState.RoundEnd :=
  let flags := w.scene.verifyFlags
  let w := if w.scene.cachedCrtcIndex.isSome then w.armPinnedLayers dev flags r.acquired else w
  let (feasible, s) := w.canvasPlaneFeasible dev r.answers flags r.acquired
  .placed (w.setScene s) feasible

namespace SceneState

variable (dev : SceneDevice) (s : SceneState)

/-- One turn of the placement loop: `apply`, the passes, and the rest. -/
def placeRound (r : Round) (request : AtomicRequest) (report : CommitReport) : RoundEnd :=
  let s := s.dropStaleAllocation
  let applied := s.applied dev r
  let s := s.afterApply dev r
  match applied.result with
  | .error e => .failed s e
  | .ok placed =>
    match s.armPasses dev r with
    | (s, .error e) => .failed s e
    | (s, .ok writes) =>
      let streams := r.acquired.countP (·.slot.streamPinnedPlaneId.isSome)
      Placing.settle dev r ⟨s, request ++ applied.request ++ writes,
        { report with layersAssigned := placed + streams }⟩

/-- One more layer moves into the composition, and the frame is placed again. -/
def demote (victim : Planes.LayerId) : SceneState :=
  { s with
    heap := Function.update s.heap victim { s.heap victim with transientComposited := true }
    demoted := s.demoted ++ [victim]
    allocator := s.allocator.invalidateAllocation }

/-- The placement loop. Each turn demotes an acquired layer, so their number bounds the turns. -/
def placeRounds (r : Round) (request : AtomicRequest) (report : CommitReport) :
    ℕ → SceneState → RoundEnd
  | fuel, s =>
    match s.placeRound dev r request report, fuel with
    | .placed w false, fuel + 1 =>
      match w.scene.pickDemotion r.answers r.acquired with
      | some victim => placeRounds r request report fuel (w.scene.demote victim.layer)
      | none => .placed w false
    | ended, _ => ended

/-! ### After the placement -/

/-- The canvas left its plane: unless a layer took it, it is turned off. -/
def leaveCanvasPlane (as : List AcquiredLayer) (armed : Option PlaneId) : AtomicRequest :=
  match s.canvas.committedPlane with
  | none => []
  | some old =>
    if armed = some old ||
        as.any fun a =>
          s.assignedPlane a = some old || a.slot.streamPinnedPlaneId = some old then []
    else dev.planes.disableWrites old

def placementEntry (cached : List AcquiredLayer) (a : AcquiredLayer) : LayerPlacementEntry :=
  match s.assignedPlane a, s.canvas.lastPlane with
  | some p, _ => ⟨a.handle, .assignedToPlane, p⟩
  | none, some canvas =>
    if cached.contains a then ⟨a.handle, .composited, canvas⟩ else ⟨a.handle, .unassigned, 0⟩
  | none, none => ⟨a.handle, .unassigned, 0⟩

/-- What is neither assigned, composited nor skipped, the placements, and whether the layers' HDR is
not signalled. -/
def finishReport (as : List AcquiredLayer) (cached : List AcquiredLayer) (report : CommitReport) :
    CommitReport :=
  { report with
    layersUnassigned := report.layersTotal -
      (report.layersAssigned + report.layersComposited + report.layersSkippedNoFrame)
    placements := as.map (s.placementEntry cached)
    hdrDowngradedNoMaxBpc :=
      (deriveOutputSignaling (as.map (·.attrs.contentColor)) s.properties.caps).hdrDowngraded }

/-- The page flip goes out asynchronously only when it is nothing but a flip. -/
def stripAsync (dev : SceneDevice) (testOnly : Bool) (flags : Flags) : Flags :=
  if flags &&& pageFlipAsync ≠ 0 &&
      (!dev.asyncFlipSupported || testOnly || flags &&& allowModeset ≠ 0) then
    flags ^^^ (flags &&& pageFlipAsync)
  else flags

/-- The build from a settled placement on. -/
def finishBuild (r : Round) (w : Placing) : SceneBuild :=
  let composed := w.composeUnassigned dev r.answers w.scene.verifyFlags r.acquired
  let w := composed.placing
  let s := w.scene
  let report := s.finishReport r.acquired composed.cached w.report
  let signaled := s.signaling.signal s.properties s.requests
    ⟨r.acquired.map (·.attrs.contentColor), r.answers.hdrBlob⟩
  let s' := { s with signaling := signaled.state }
  match signaled.error with
  | some e => ⟨s', .error e⟩
  | none =>
    let flags := if signaled.needsModeset then r.flags ||| allowModeset else r.flags
    { scene := s'
      result := .ok (some
        { acquisitions := r.acquired
          request := w.request ++ s.leaveCanvasPlane dev r.acquired composed.armed ++
            signaled.writes
          effectiveFlags := stripAsync dev r.testOnly flags
          testOnly := r.testOnly
          canvasPlane := composed.armed
          cached := composed.cached
          fbDeltaFastPath := s.allocator.diagnostics.fbDeltaFastPath
          report := report }) }

/-- A build whose layers are acquired and lowered. -/
def placeAndFinish (r : Round) (request : AtomicRequest) (report : CommitReport) : SceneBuild :=
  match placeRounds dev r request report r.acquired.length s with
  | .failed s e => ⟨s, .error e⟩
  | .placed w _ => finishBuild dev r w

/-- The scene when it acquires: the streams have their planes, and the layers that composite this
frame are marked. -/
def prepared (q : FrameAnswers) : SceneState :=
  ({ s with cachedCrtcIndex := s.resolveCrtcIndex dev }.ensureStreamLayerPins dev q).markTransient

/-- The scene with the frame's layers lowered. -/
def lowered (q : FrameAnswers) : SceneState := (s.prepared dev q).lower dev q

/-- `build_frame_into`. -/
def buildFrameInto (q : FrameAnswers) (callerFlags : Flags) (testOnly : Bool) : SceneBuild :=
  if s.suspended then ⟨s, .ok none⟩
  else
    match (s.prepared dev q).acquireAll q with
    | (_, _, some e) => ⟨s.prepared dev q, .error e⟩
    | (acquired, skipped, none) =>
      let s := s.lowered dev q
      match s.beginModeset q with
      | .error e => ⟨s, .error e⟩
      | .ok (s, request) =>
        let (s, reserved, pinsFailed) := s.reservePlanes dev acquired
        s.placeAndFinish dev
          { answers := q, acquired, reserved, flags := callerFlags ||| s.modesetFlags, testOnly }
          request
          { layersTotal := s.layerCount, layersSkippedNoFrame := skipped, pinsFailed }

/-! ### The kernel's verdict -/

/-- `finalize_frame`, over what a build left. -/
def finalizeFrame (f : BuiltFrame) (kernelResult : Except Errc Unit) : SceneState :=
  match kernelResult with
  | .error .permissionDenied => { s with suspended := true }
  | .error _ =>
    if f.fbDeltaFastPath then { s with allocator := s.allocator.invalidateAllocation } else s
  | .ok () =>
    if f.testOnly then s
    else
      { s with
        signaling := s.signaling.committed
        firstCommit := false
        canvas := { s.canvas with committedPlane := f.canvasPlane }
        hintsDirty := fun l =>
          s.hintsDirty l && !s.liveSlots.any fun slot => slot.sceneLayer.any (·.id = l)
        heap := s.output.markClean s.heap
        placeholderDirty := false }

end SceneState

end Scene

end DrmCxx
