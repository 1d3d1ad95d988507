import DrmCxx.Errc
import DrmCxx.Scene.InFlight
import DrmCxx.Scene.RingPresenter

/-!
# Layers, sources and their acquisitions

The handle table of `LayerScene::Impl`, the acquisitions in flight, and the retire rings that keep
removed layers and replaced sources alive. An object lives as long as the table or a ring owns
it; acquisitions refer to objects by identity, as the code's raw pointers do.
-/

namespace DrmCxx.Scene

abbrev SourceId := ℕ

abbrev LayerId := ℕ

/-- One acquisition's buffer. -/
abbrev BufferId := ℕ

/-- A `scene::Layer`, which owns its source. -/
structure SceneLayer where
  id : LayerId
  source : SourceId
  deriving DecidableEq, Repr

structure LayerHandle where
  id : ℕ
  generation : ℕ
  deriving DecidableEq, Repr

structure Slot where
  generation : ℕ := 0
  alive : Bool := false
  sceneLayer : Option SceneLayer := none
  deriving DecidableEq, Repr

structure AcquisitionSlot where
  sceneLayer : LayerId
  buffer : BufferId
  releaseFence : Option SyncFence := none
  /-- The source this buffer goes back to when its layer's source was replaced. -/
  retiredSource : Option SourceId := none
  deriving DecidableEq, Repr

/-- Objects waiting for the rotations that drain their acquisitions. -/
structure RetireRing (α : Type*) where
  pending : List α := []
  prev : List α := []
  prevPrev : List α := []
  deriving DecidableEq, Repr

namespace RetireRing

variable {α : Type*}

def retire (r : RetireRing α) (a : α) : RetireRing α :=
  { r with pending := r.pending ++ [a] }

/-- An accepted commit destroys the oldest objects and moves the others on. -/
def advance (r : RetireRing α) : RetireRing α :=
  { pending := [], prev := r.pending, prevPrev := r.prev }

def objects (r : RetireRing α) : List α :=
  r.pending ++ r.prev ++ r.prevPrev

end RetireRing

structure SceneObjects where
  slots : List Slot := []
  /-- Freed slot indices, used from the back. -/
  freeIds : List ℕ := []
  inFlight : InFlight AcquisitionSlot := {}
  retiredLayers : RetireRing SceneLayer := {}
  retiredSources : RetireRing SourceId := {}
  suspended : Bool := false
  lastCommitSeq : ℕ := 0
  deriving DecidableEq, Repr

namespace SceneObjects

/-! ### Ownership -/

def slotLayers (s : SceneObjects) : List SceneLayer :=
  s.slots.filterMap (·.sceneLayer)

/-- Every layer object that is alive. -/
def layers (s : SceneObjects) : List SceneLayer :=
  s.slotLayers ++ s.retiredLayers.objects

def findLayer (s : SceneObjects) (id : LayerId) : Option SceneLayer :=
  s.layers.find? (·.id = id)

def sourceAlive (s : SceneObjects) (source : SourceId) : Bool :=
  decide (source ∈ s.layers.map (·.source)) || decide (source ∈ s.retiredSources.objects)

/-! ### The handle table -/

/-- The index of the slot a handle names, unless the handle is stale. -/
def slotFor (s : SceneObjects) (h : LayerHandle) : Option ℕ :=
  if h.id = 0 then none
  else match s.slots[h.id - 1]? with
    | some slot => if slot.alive ∧ slot.generation = h.generation then some (h.id - 1) else none
    | none => none

/-- `add_layer`, with the layer object built around its source. -/
def addLayer (s : SceneObjects) (layer : SceneLayer) : SceneObjects × LayerHandle :=
  match s.freeIds.getLast? with
  | some idx =>
    let generation := (s.slots[idx]?.map (·.generation)).getD 0 + 1
    ({ s with
        slots := s.slots.set idx ⟨generation, true, some layer⟩
        freeIds := s.freeIds.dropLast },
      ⟨idx + 1, generation⟩)
  | none =>
    ({ s with slots := s.slots ++ [⟨1, true, some layer⟩] }, ⟨s.slots.length + 1, 1⟩)

/-- The retargeting of `replace_source`: in-flight buffers of the layer go back to `old`. -/
def retarget (layer : LayerId) (old : SourceId) (a : AcquisitionSlot) : AcquisitionSlot :=
  if a.sceneLayer = layer ∧ a.retiredSource = none then { a with retiredSource := some old } else a

def replaceSource (s : SceneObjects) (h : LayerHandle) (newSource : SourceId) : SceneObjects :=
  match s.slotFor h with
  | none => s
  | some idx =>
    match s.slots[idx]? with
    | some ⟨generation, alive, some layer⟩ =>
      { s with
        slots := s.slots.set idx ⟨generation, alive, some { layer with source := newSource }⟩
        inFlight :=
          { prev := s.inFlight.prev.map (retarget layer.id layer.source)
            prevPrev := s.inFlight.prevPrev.map (retarget layer.id layer.source) }
        retiredSources := s.retiredSources.retire layer.source }
    | _ => s

def removeLayer (s : SceneObjects) (h : LayerHandle) : SceneObjects :=
  match s.slotFor h with
  | none => s
  | some idx =>
    match s.slots[idx]? with
    | some ⟨generation, _, layer⟩ =>
      { s with
        slots := s.slots.set idx ⟨generation, false, none⟩
        retiredLayers :=
          { s.retiredLayers with pending := s.retiredLayers.pending ++ layer.toList }
        freeIds := s.freeIds ++ [idx] }
    | none => s

/-! ### Acquisition and release -/

/-- `acquire_all` over the remaining slots: each live layer's source answers with a buffer or
with `EAGAIN`. Buffers are numbered from `next`; each comes with the source that was asked. -/
def acquireSlots (ready : SourceId → Bool) :
    BufferId → List Slot → List (AcquisitionSlot × SourceId)
  | _, [] => []
  | next, slot :: slots =>
    match slot.alive, slot.sceneLayer with
    | true, some layer =>
      if ready layer.source then
        ({ sceneLayer := layer.id, buffer := next }, layer.source) ::
          acquireSlots ready (next + 1) slots
      else acquireSlots ready next slots
    | _, _ => acquireSlots ready next slots

def acquireAll (s : SceneObjects) (ready : SourceId → Bool) (next : BufferId) :
    List (AcquisitionSlot × SourceId) :=
  acquireSlots ready next s.slots

/-- Where `release_all` returns a buffer: the retired source, else its layer's. -/
def releaseTarget (s : SceneObjects) (a : AcquisitionSlot) : Option SourceId :=
  match a.retiredSource with
  | some source => some source
  | none => (s.findLayer a.sceneLayer).map (·.source)

/-- The stamp of an accepted commit's OUT_FENCE, for sources that want it. -/
def stamp (s : SceneObjects) (wants : SourceId → Bool) (outFence : Option SyncFence)
    (a : AcquisitionSlot) : AcquisitionSlot :=
  match outFence, s.findLayer a.sceneLayer with
  | some fence, some layer =>
    if wants layer.source then { a with releaseFence := some fence } else a
  | _, _ => a

/-- `finalize_frame` of an accepted commit, after `prevPrev` is released. -/
def finalizeAccepted (s : SceneObjects) (wants : SourceId → Bool)
    (outFence : Option SyncFence) (acquisitions : List AcquisitionSlot) : SceneObjects :=
  { s with
    inFlight := s.inFlight.rotate (s.stamp wants outFence) acquisitions
    retiredLayers := s.retiredLayers.advance
    retiredSources := s.retiredSources.advance
    lastCommitSeq := s.lastCommitSeq + 1 }

/-- `finalize_frame` of a rejected request, after its acquisitions are released. -/
def finalizeRejected (s : SceneObjects) (error : Errc) : SceneObjects :=
  { s with suspended := s.suspended || decide (error = .permissionDenied) }

/-- `release_pending_acquisitions`, after both rings are released. -/
def drain (s : SceneObjects) : SceneObjects :=
  { s with inFlight := {}, retiredLayers := {}, retiredSources := {} }

/-- `release_displaced` acts for the most recent real commit only. -/
def releasesDisplaced (s : SceneObjects) (commitSeq : ℕ) : Bool :=
  decide (commitSeq ≠ 0 ∧ commitSeq = s.lastCommitSeq)

end SceneObjects

end DrmCxx.Scene
