import DrmCxx.Planes.Layer
import DrmCxx.Scene.SceneObjects
import Mathlib.Data.List.Sort

/-!
# Building a frame

`build_frame_into` from the buffers it acquires to the state it hands to `finalize_frame`, with
each place it can fail at. What the sources, the allocator, the property store and the kernel
answer is an input of the build.
-/

namespace DrmCxx.Scene

open DrmCxx.Planes (PlaneId)

/-! ### The answers -/

/-- One arming pass over the placed layers: the answers to the property writes and the blob
creations it makes for a layer on its plane, in order. -/
abbrev ArmingPass := LayerId → PlaneId → List (Except Errc Unit)

/-- The first failure ends the pass. -/
def ArmingPass.run (pass : ArmingPass) (plane : LayerId → Option PlaneId) :
    List AcquisitionSlot → Except Errc Unit
  | [] => .ok ()
  | a :: as => do
    match plane a.sceneLayer with
    | some p => (pass a.sceneLayer p).forM id
    | none => .ok ()
    ArmingPass.run pass plane as

/-- The answers of one placement round. -/
structure PlacementRound where
  /-- `Allocator::apply`: the plane of each layer it placed. -/
  apply : Except Errc (LayerId → Option PlaneId)
  /-- `IN_FENCE_FD` of the buffers that carry a fence. -/
  acquireFences : ArmingPass
  /-- `FB_DAMAGE_CLIPS` of the buffers that carry damage. -/
  damageClips : ArmingPass
  /-- `AMD_PLANE_*`, with the blobs of its LUTs and its matrix. -/
  amdPlaneColor : ArmingPass
  /-- The planes of the hard pins that are honoured. -/
  pinnedPlane : LayerId → Option PlaneId
  pinnedLayers : ArmingPass
  canvasFeasible : Bool
  /-- The canvas can draw the layer, and nothing but the allocator placed it. -/
  demotable : LayerId → Bool
  keepPriority : LayerId → ℤ
  zpos : LayerId → ℤ

/-- The answers of one build. The rounds are indexed by the layers demoted before them. -/
structure BuildAnswers where
  acquire : SourceId → Except Errc Unit
  ensureModeBlob : Except Errc Unit
  injectModesetState : Except Errc Unit
  round : List LayerId → PlacementRound
  injectOutputColorspace : Except Errc Unit
  injectHdrOutputMetadata : Except Errc Unit
  injectVrrEnabled : Except Errc Unit
  injectOutputRegammaTf : Except Errc Unit

/-! ### Acquisition -/

/-- `acquire_all`: what was pushed before it returned, and how it returned. `EAGAIN` skips the
layer, any other error ends the loop. -/
def acquireUntilError (acquire : SourceId → Except Errc Unit) :
    BufferId → List Slot → List (AcquisitionSlot × SourceId) × Except Errc Unit
  | _, [] => ([], .ok ())
  | next, slot :: slots =>
    match slot.alive, slot.sceneLayer with
    | true, some layer =>
      match acquire layer.source with
      | .ok () =>
        let rest := acquireUntilError acquire (next + 1) slots
        (({ sceneLayer := layer.id, buffer := next }, layer.source) :: rest.1, rest.2)
      | .error .resourceUnavailableTryAgain => acquireUntilError acquire next slots
      | .error e => ([], .error e)
    | _, _ => acquireUntilError acquire next slots

/-- `release_all`: each buffer with the source it is returned to. -/
def SceneObjects.releaseAll (s : SceneObjects) (as : List AcquisitionSlot) :
    List (BufferId × Option SourceId) :=
  as.map fun a => (a.buffer, s.releaseTarget a)

/-! ### Placement -/

namespace PlacementRound

variable (r : PlacementRound)

/-- The passes that write to the planes just assigned, in order. -/
def arm (assigned : LayerId → Option PlaneId) (as : List AcquisitionSlot) : Except Errc Unit := do
  r.acquireFences.run assigned as
  r.damageClips.run assigned as
  r.amdPlaneColor.run assigned as
  r.pinnedLayers.run r.pinnedPlane as

/-- The order layers are demoted in: lowest priority first, topmost on a tie. -/
def demotesBefore (x y : LayerId) : Prop :=
  r.keepPriority x < r.keepPriority y ∨ r.keepPriority x = r.keepPriority y ∧ r.zpos x ≥ r.zpos y

instance (x y : LayerId) : Decidable (r.demotesBefore x y) :=
  inferInstanceAs (Decidable (_ ∨ _ ∧ _))

/-- `pick_demotion`: a layer demoted before is composited already. -/
def pickDemotion (assigned : LayerId → Option PlaneId) (as : List AcquisitionSlot)
    (demoted : List LayerId) : Option LayerId :=
  let natives := (as.map (·.sceneLayer)).filter fun l =>
    (assigned l).isSome && !demoted.contains l
  (natives.insertionSort r.demotesBefore).find? r.demotable

end PlacementRound

inductive PlacementError
  | allocator (error : Errc)
  | arming (error : Errc)
  deriving DecidableEq, Repr

/-- How one placement round ends. -/
inductive RoundExit
  | failed (error : PlacementError)
  | placed
  /-- No canvas plane fits beside the native planes: one more layer is demoted. -/
  | demote (victim : LayerId)
  deriving DecidableEq, Repr

/-- One turn of the placement loop, after these demotions. -/
def PlacementRound.exit (r : PlacementRound) (as : List AcquisitionSlot)
    (demoted : List LayerId) : RoundExit :=
  match r.apply with
  | .error e => .failed (.allocator e)
  | .ok assigned =>
    match r.arm assigned as with
    | .error e => .failed (.arming e)
    | .ok () =>
      if r.canvasFeasible then .placed
      else
        match r.pickDemotion assigned as demoted with
        | some victim => .demote victim
        | none => .placed

/-- The placement loop. A round demotes an acquired layer, so the acquisitions bound the rounds. -/
def placeRounds (round : List LayerId → PlacementRound) (as : List AcquisitionSlot) :
    ℕ → List LayerId → Except PlacementError Unit × List LayerId
  | fuel, demoted =>
    match (round demoted).exit as demoted, fuel with
    | .failed e, _ => (.error e, demoted)
    | .demote victim, fuel + 1 => placeRounds round as fuel (demoted ++ [victim])
    | _, _ => (.ok (), demoted)

/-! ### The build -/

/-- The scene as a build finds it and leaves it. -/
structure FrameBuilder where
  objects : SceneObjects
  /-- `scratch_acquisitions_`. The next build clears it and releases nothing. -/
  scratch : List AcquisitionSlot
  /-- Demotions that stick until the layer set changes. -/
  demoted : List LayerId
  firstCommit : Bool
  nextBuffer : BufferId

/-- A call, with what it took from the sources and gave back to them. -/
structure FrameCall where
  builder : FrameBuilder
  acquired : List (AcquisitionSlot × SourceId) := []
  released : List (BufferId × Option SourceId) := []
  /-- The acquisitions of the returned state, if one was returned. -/
  result : Except Errc (Option (List AcquisitionSlot))
  /-- The kernel accepted the frame, and it was no test. -/
  committed : Bool := false

namespace FrameBuilder

variable (b : FrameBuilder) (q : BuildAnswers)

def acquisitions : List (AcquisitionSlot × SourceId) :=
  (acquireUntilError q.acquire b.nextBuffer b.objects.slots).1

/-- The modeset of a first commit. -/
def modeset : Except Errc Unit :=
  if b.firstCommit then do
    q.ensureModeBlob
    q.injectModesetState
  else .ok ()

def placement : Except PlacementError Unit × List LayerId :=
  placeRounds q.round ((b.acquisitions q).map (·.1)) (b.acquisitions q).length b.demoted

/-- Connector and CRTC properties, written once the planes are settled. -/
def outputSignaling (q : BuildAnswers) : Except Errc Unit := do
  q.injectOutputColorspace
  q.injectHdrOutputMetadata
  q.injectVrrEnabled
  q.injectOutputRegammaTf

/-- An exit through `release_all(acquisitions)`. -/
def releasing (demoted : List LayerId) (error : Errc) : FrameCall where
  builder := { b with
    scratch := [], demoted, nextBuffer := b.nextBuffer + (b.acquisitions q).length }
  acquired := b.acquisitions q
  released := b.objects.releaseAll ((b.acquisitions q).map (·.1))
  result := .error error

/-- A plain `return` of the arming pass's error: the acquisitions stay in the scratch vector. -/
def returning (demoted : List LayerId) (error : Errc) : FrameCall where
  builder := { b with
    scratch := (b.acquisitions q).map (·.1), demoted
    nextBuffer := b.nextBuffer + (b.acquisitions q).length }
  acquired := b.acquisitions q
  result := .error error

/-- The acquisitions move into the returned state. -/
def returningState (demoted : List LayerId) : FrameCall where
  builder := { b with
    scratch := [], demoted, nextBuffer := b.nextBuffer + (b.acquisitions q).length }
  acquired := b.acquisitions q
  result := .ok (some ((b.acquisitions q).map (·.1)))

/-- `build_frame_into`. A suspended scene returns a null build before it acquires anything. -/
def buildFrameInto : FrameCall :=
  if b.objects.suspended then { builder := b, result := .ok none }
  else
    match (acquireUntilError q.acquire b.nextBuffer b.objects.slots).2 with
    | .error e => b.releasing q b.demoted e
    | .ok () =>
      match b.modeset q with
      | .error e => b.releasing q b.demoted e
      | .ok () =>
        match b.placement q with
        | (.error (.allocator e), demoted) => b.releasing q demoted e
        | (.error (.arming e), demoted) => b.returning q demoted e
        | (.ok (), demoted) =>
          match outputSignaling q with
          | .error e => b.releasing q demoted e
          | .ok () => b.returningState q demoted

end FrameBuilder

/-! ### The end of a frame -/

/-- What becomes of a returned state. -/
inductive FrameEnding
  /-- The state is dropped, and its deleter runs. -/
  | destroyed
  | finalized (kernelResult : Except Errc Unit) (outFence : Option SyncFence)

namespace FrameCall

variable (c : FrameCall)

/-- `release_all(state->acquisitions)`, with the scene's objects as they are then. -/
def release (as : List AcquisitionSlot) : FrameCall :=
  { c with released := c.released ++ c.builder.objects.releaseAll as }

/-- `finalize_frame`, or the deleter of the state. -/
def finish (wants : SourceId → Bool) (testOnly : Bool) (ending : FrameEnding) : FrameCall :=
  match c.result with
  | .ok (some as) =>
    match ending with
    | .destroyed => c.release as
    | .finalized (.error e) _ =>
      let c := c.release as
      { c with builder := { c.builder with objects := c.builder.objects.finalizeRejected e } }
    | .finalized (.ok ()) outFence =>
      if testOnly then c.release as
      else
        let c := c.release c.builder.objects.inFlight.prevPrev
        let objects := c.builder.objects.finalizeAccepted wants outFence as
        { c with builder := { c.builder with objects, firstCommit := false }, committed := true }
  | _ => c

end FrameCall

/-- A frame from its build to the end of its state. -/
def FrameBuilder.frame (b : FrameBuilder) (q : BuildAnswers) (wants : SourceId → Bool)
    (testOnly : Bool) (ending : FrameEnding) : FrameCall :=
  (b.buildFrameInto q).finish wants testOnly ending

end DrmCxx.Scene
