import DrmCxx.Planes.Allocator.Search

/-!
# `Allocator::apply`

A frame is answered from the previous allocation, on one of three paths, or by a full search.
-/

namespace DrmCxx.Planes

open DrmCxx.Lib DrmCxx.Modeset

/-- The arguments of one `apply()`, with the heap its layers live in and the kernel state
`drmModeGetPlane` reads. -/
structure Frame where
  output : Output
  heap : Heap
  flags : Flags := 0
  reserved : List PlaneId := []
  testOnly : Bool := false
  kernel : Kernel := fun _ => 0

/-- What one `apply()` leaves behind. -/
structure Applied where
  result : Except Errc ℕ
  allocator : Allocator
  heap : Heap
  /-- `output.layers()`; a search sorts it. -/
  layers : List LayerId
  /-- The writes added to the caller's request. -/
  request : AtomicRequest
  /-- The planes those writes arm, each with the layer it is armed for. -/
  armed : List (PlaneId × LayerId)

namespace Frame

variable (f : Frame)

/-- Layers the allocator decides about: not the canvas, not the ones the scene arms itself. -/
def isScene (l : LayerId) : Bool :=
  !f.output.isCompositionLayer l && !(f.heap l).externallyBound && !(f.heap l).pinned

def sceneLayers : List LayerId := f.output.layers.filter f.isScene

/-- The heap at the start of a placement. A pinned layer keeps the plane the scene gave it. -/
def resetHeap : Heap := fun l =>
  if l ∈ f.output.layers then
    { f.heap l with
      needsComposition := false
      assignedPlane := if (f.heap l).pinned then (f.heap l).assignedPlane else none }
  else f.heap l

end Frame

/-- The layers of an armed assignment get their planes. -/
def assignPlanes (heap : Heap) : List (PlaneId × LayerId) → Heap
  | [] => heap
  | (p, l) :: es =>
    assignPlanes (Function.update heap l
      { heap l with assignedPlane := some p, needsComposition := false }) es

namespace Output

/-- Scene layers without a plane are left to the composition. -/
def markUnassigned (o : Output) (heap : Heap) : Heap := fun l =>
  if l ∈ o.layers ∧ (heap l).assignedPlane = none ∧ o.isCompositionLayer l = false ∧
      (heap l).externallyBound = false ∧ (heap l).pinned = false then
    { heap l with needsComposition := true }
  else heap l

def anyComposited (o : Output) (heap : Heap) : Bool :=
  o.layers.any fun l => (heap l).needsComposition

/-- Each scene layer with its zpos and the plane it stacks at, its own or the canvas. -/
def stackPosition (o : Output) (heap : Heap) (a : Assignment) (canvas : Option PlaneId)
    (l : LayerId) : Option (UInt64 × Option PlaneId × Bool) :=
  if o.isCompositionLayer l || (heap l).externallyBound || (heap l).pinned then none
  else
    let z := (heap l).zpos.getD 0
    match a.entries.find? (fun e => e.2 = l) with
    | some e => some (z, some e.1, false)
    | none => some (z, canvas, true)

/-- A lower zpos sits on a lower plane, or both on the canvas. -/
def orderedPair (x y : UInt64 × Option PlaneId × Bool) : Bool :=
  x.1 ≥ y.1 ||
    match x.2.1, y.2.1 with
    | some px, some py => !(px > py || (px = py && !(x.2.2 && y.2.2)))
    | _, _ => false

def planeOrderConsistent (o : Output) (heap : Heap) (a : Assignment) (canvas : Option PlaneId) :
    Bool :=
  let pos := o.layers.filterMap (o.stackPosition heap a canvas)
  pos.all fun x => pos.all fun y => orderedPair x y

end Output

namespace Allocator

variable (d : Device) (a : Allocator) (f : Frame)

/-- A scene layer that neither held a plane nor was composited last frame. -/
def isNewLayer (l : LayerId) : Bool :=
  !a.previousAllocation.hasLayer l && !(f.heap l).needsComposition

/-- A new layer, or a shrink that leaves composition running, needs a search. -/
def forceSearch : Bool :=
  a.previousAllocationValid &&
    (f.sceneLayers.any (a.isNewLayer f) ||
      (f.output.layers.length < a.committedLayerCount &&
        f.sceneLayers.any fun l => (f.heap l).needsComposition))

/-- Every plane of the previous allocation still shows the layer and the placement the kernel last
accepted. -/
def isFbOnlyFrame : Bool :=
  !a.previousAllocation.isEmpty && a.previousAllocation.entries.all fun (p, l) =>
    f.output.layers.contains l && (a.lastCommitted.find? p).any fun s =>
      s.layer = some l && s.hash = propertyHash (f.heap l).props

/-- The search of this frame, its layers in the order given. -/
def context (heap : Heap) (layers : List LayerId) : SearchContext where
  device := d
  crtcIndex := d.crtcIndex f.output.crtcId
  output := f.output
  layers := layers
  heap := heap
  flags := f.flags
  reserved := f.reserved
  previous := if a.previousAllocationValid then some a.previousAllocation else none
  maxTestCommits := a.maxTestCommits

def recordStack (stack : ZposStack) (anyComposited : Bool) : Allocator :=
  { a with
    zposStack := stack.written
    canvasZpos := if anyComposited then stack.canvas else none }

/-- The previous allocation without the layers that left. -/
def prunePrevious : Allocator :=
  { a with previousAllocation :=
      a.previousAllocation.filter fun e => f.output.layers.contains e.2 }

/-- The global rules the remembered assignment has to pass. -/
def warmStartOk (heap : Heap) : Bool :=
  let prev := a.previousAllocation
  !prev.isEmpty && d.stackingConsistent heap prev && d.multirectComplete prev &&
    if d.stacksByPlaneId (d.crtcIndex f.output.crtcId) then
      f.output.planeOrderConsistent heap prev a.previousCanvasPlane
    else (f.output.canvasBounds heap prev).feasible

/-- The previous allocation written to the request: disables first, then the planes kept. -/
def armPrevious (heap : Heap) : Allocator × Heap × AtomicRequest :=
  let crtcIndex := d.crtcIndex f.output.crtcId
  let prev := a.previousAllocation
  let (a, disables) := disablePlanes d f.testOnly a
    (d.unusedPlanes crtcIndex f.reserved prev.contains)
  let stack := d.stackedZpos crtcIndex f.output heap prev
  let (a, writes) := applyAssignment d heap stack f.testOnly a prev.entries
  let heap := f.output.markUnassigned (assignPlanes heap prev.entries)
  let a := if d.stacksByPlaneId crtcIndex then
      { a with search := { a.search with canvasPlane := a.previousCanvasPlane } }
    else a
  (a.recordStack stack (f.output.anyComposited heap), f.output.markClean heap, disables ++ writes)

/-- One try at the previous allocation. If it does not answer, the next path goes on from its
allocator. -/
structure Attempt where
  allocator : Allocator
  answer : Except Errc (Heap × AtomicRequest)

/-- `apply_previous_allocation`. -/
def applyPreviousAllocation (heap : Heap) (skipTest : Bool) : Attempt :=
  if a.previousAllocation.entries.any (fun e => f.reserved.contains e.1) then
    ⟨a, .error .resourceUnavailableTryAgain⟩
  else
    let a := a.prunePrevious f
    if !a.warmStartOk d f heap then ⟨a, .error .resourceUnavailableTryAgain⟩
    else
      let tested := if skipTest then (none, a.search)
        else (a.context d f heap f.output.layers).tryTestCommit a.search a.previousAllocation
      let a := a.setSearch tested.2
      match tested.1 with
      | some .permissionDenied => ⟨a, .error .permissionDenied⟩
      | some _ => ⟨a, .error .resourceUnavailableTryAgain⟩
      | none =>
        let (armed, heap, req) := a.armPrevious d f heap
        ⟨armed, .ok (heap, req)⟩

/-- The first PRIMARY of the CRTC the assignment leaves free, for the composition layer. -/
def compositionPlane (best : Assignment) : Option PlaneId :=
  ((d.registry.forCrtc (d.crtcIndex f.output.crtcId)).find? fun p =>
    p.type = .primary && !best.contains p.id).map (·.id)

/-- The composition layer parked on a plane, as `full_search` does it off the plane-order path. -/
def parkedComposition (best : Assignment) (heap : Heap) : Option (LayerId × PlaneId) :=
  if f.output.anyComposited heap && !d.stacksByPlaneId (d.crtcIndex f.output.crtcId) then
    (compositionPlane d f best).map fun p => (f.output.compositionLayer, p)
  else none

def parkHeap (heap : Heap) : Option (LayerId × PlaneId) → Heap
  | some (l, p) => Function.update heap l { heap l with assignedPlane := some p }
  | none => heap

/-- The composition layer is written in full, and no snapshot is taken. -/
def parkWrites (heap : Heap) : Option (LayerId × PlaneId) → AtomicRequest
  | some (l, p) => d.applyLayerToPlane (heap l) p none
  | none => []

/-- The assignment a search found, written to the request. -/
def armBest (heap : Heap) (best : Assignment) (layers : List LayerId) : Applied :=
  let crtcIndex := d.crtcIndex f.output.crtcId
  let committedBefore := !a.lastCommitted.isEmpty
  let stack := d.stackedZpos crtcIndex f.output heap best
  let (a, writes) := applyAssignment d heap stack f.testOnly a best.entries
  let heap := f.output.markUnassigned (assignPlanes heap best.entries)
  let anyComposited := f.output.anyComposited heap
  let parked := parkedComposition d f best heap
  let keep := fun p => best.contains p || parked.any fun e => e.2 = p
  let hasSceneLayers := f.output.layers.any fun l => !f.output.isCompositionLayer l
  let (a, disables) :=
    if (committedBefore || !a.foreignLit.isEmpty) && hasSceneLayers then
      disablePlanes d f.testOnly a (d.unusedPlanes crtcIndex f.reserved keep)
    else (a, [])
  let canvas := if anyComposited then a.search.canvasPlane else none
  let a := { a.recordStack stack anyComposited with
    search := { a.search with canvasPlane := canvas }
    previousAllocation := best
    previousAllocationValid := !best.isEmpty
    previousCanvasPlane := canvas }
  { result := .ok best.size
    allocator := a
    heap := f.output.markClean (parkHeap heap parked)
    layers := layers
    request := writes ++ parkWrites d heap parked ++ disables
    armed := best.entries ++ parked.toList.map Prod.swap }

def sortLayersByZpos (heap : Heap) (layers : List LayerId) : List LayerId :=
  d.stdSort.sort (fun x y => (heap x).zpos.getD 0 < (heap y).zpos.getD 0) layers

def fullSearch (heap : Heap) : Applied :=
  let layers := sortLayersByZpos d heap f.output.layers
  let (best, s) := (a.context d f heap layers).searchAssignment a.search
  (a.setSearch s).armBest d f heap best layers

/-- The allocator at the start of a frame. -/
def beginFrame : Allocator :=
  let a := { a with
    search := { a.search with testCommitsThisFrame := 0, canvasPlane := none }
    diagnostics := {}
    committedLayerCount := if f.testOnly then a.committedLayerCount else f.output.layers.length }
  if a.lastCommitted.isEmpty && !f.output.layers.isEmpty then
    a.readForeignLit d f.kernel (d.crtcIndex f.output.crtcId) f.output.crtcId
  else a

/-- A path answers the frame by placing it or by losing the master; other failures fall through. -/
def Attempt.answers (t : Attempt) : Bool :=
  match t.answer with
  | .ok _ => true
  | .error e => e = .permissionDenied

def Attempt.applied (t : Attempt) (f : Frame) (heap : Heap) : Applied :=
  match t.answer with
  | .ok (heap, req) =>
    let prev := t.allocator.previousAllocation
    ⟨.ok prev.size, t.allocator, heap, f.output.layers, req, prev.entries⟩
  | .error e => ⟨.error e, t.allocator, heap, f.output.layers, [], []⟩

/-- A path is tried, or passed over. -/
def attempt (heap : Heap) (wanted skipTest : Bool) : Attempt :=
  if wanted then a.applyPreviousAllocation d f heap skipTest
  else ⟨a, .error .resourceUnavailableTryAgain⟩

def markFbDelta (t : Attempt) : Attempt :=
  match t.answer with
  | .ok _ =>
    let diag := { t.allocator.diagnostics with fbDeltaFastPath := true }
    { t with allocator := t.allocator.setDiagnostics diag }
  | .error _ => t

/-- The paths that replay the previous allocation, in turn: FB-only, clean, warm start. -/
def cachedAnswer (force : Bool) (heap : Heap) : Attempt :=
  let cached := a.previousAllocationValid && !force
  let fbOnly := a.attempt d f heap (!f.testOnly && cached && a.isFbOnlyFrame f) true
  if fbOnly.answers then markFbDelta fbOnly
  else
    let clean := fbOnly.allocator.attempt d f heap
      (!f.output.anyLayerDirty f.heap && cached) false
    if clean.answers then clean
    else clean.allocator.attempt d f heap cached false

def answerFrame (force : Bool) (heap : Heap) : Applied :=
  let t := a.cachedAnswer d f force heap
  if t.answers then t.applied f heap else t.allocator.fullSearch d f heap

/-- `Allocator::apply`. -/
def apply : Applied :=
  let r := (a.beginFrame d f).answerFrame d f (a.forceSearch f) f.resetHeap
  let issued := r.allocator.search.testCommitsThisFrame
  let diag := { r.allocator.diagnostics with testCommitsIssued := issued }
  { r with allocator := r.allocator.setDiagnostics diag }

end Allocator

end DrmCxx.Planes
