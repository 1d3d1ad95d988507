import DrmCxx.Errc
import DrmCxx.Planes.Layer

/-!
# Scene sets

`SceneSet::commit` and `test` over several scenes: the scenes are partitioned into groups, each
group's request is built with the planes of the other scenes left out, the groups are submitted in
turn, and the owner of every plane is recorded.
-/

namespace DrmCxx.Scene

open DrmCxx.Planes (PlaneId CrtcId)

abbrev SceneIndex := ℕ

/-! ### Groups -/

inductive NarrowPolicy
  | combined
  | autoOnModeset
  | perCrtc
  deriving DecidableEq, Repr

structure SceneSlotState where
  isHole : Bool
  wantsModeset : Bool
  deriving DecidableEq, Repr

/-- The indices of the slots that `p` selects, in order. -/
def slotIndices (slots : List SceneSlotState) (p : SceneSlotState → Bool) : List SceneIndex :=
  (slots.zipIdx.filter fun s => !s.1.isHole && p s.1).map (·.2)

/-- One group of all these scenes, if there are any. -/
def oneGroup : List SceneIndex → List (List SceneIndex)
  | [] => []
  | idx :: group => [idx :: group]

def partitionForPolicy (slots : List SceneSlotState) : NarrowPolicy → List (List SceneIndex)
  | .perCrtc => (slotIndices slots fun _ => true).map ([·])
  | .autoOnModeset =>
    let modeset := slotIndices slots (·.wantsModeset)
    let steady := slotIndices slots fun s => !s.wantsModeset
    if modeset ≠ [] ∧ steady ≠ [] then [modeset, steady] else oneGroup (modeset ++ steady)
  | .combined => oneGroup (slotIndices slots fun _ => true)

/-! ### What a scene arms -/

/-- A layer of a built frame: whether its source had a buffer, the plane it was placed on, and the
plane its stream is bound to. -/
structure LayerPlacement where
  acquired : Bool
  assignedPlane : Option PlaneId := none
  streamPinnedPlane : Option PlaneId := none
  deriving DecidableEq, Repr

/-- What a build leaves for the set. -/
structure FrameBuildState where
  layers : List LayerPlacement
  canvasPlane : Option PlaneId := none
  effectiveFlags : ℕ := 0
  deriving DecidableEq, Repr

namespace FrameBuildState

def planes (layers : List LayerPlacement) (canvas : Option PlaneId) : List PlaneId :=
  layers.flatMap (fun l => l.assignedPlane.toList ++ l.streamPinnedPlane.toList) ++ canvas.toList

/-- `armed_planes_of`: it walks the acquisitions. -/
def armedPlanes (b : FrameBuildState) : List PlaneId :=
  planes (b.layers.filter (·.acquired)) b.canvasPlane

/-- The planes that show the scene once its request is accepted. A layer without a buffer keeps
its plane, which the allocator arms with the framebuffer of an earlier frame. -/
def litPlanes (b : FrameBuildState) : List PlaneId :=
  planes b.layers b.canvasPlane

/-- `set_planes_claimed_elsewhere`: no layer or canvas is put on these planes. A stream stays on
the plane it was bound to. -/
def leaveOut (claimed : List PlaneId) (b : FrameBuildState) : FrameBuildState :=
  { b with
    layers := b.layers.map fun l =>
      { l with assignedPlane := l.assignedPlane.filter fun p => !claimed.contains p }
    canvasPlane := b.canvasPlane.filter fun p => !claimed.contains p }

end FrameBuildState

/-! ### Plane claims -/

structure PlaneClaim where
  plane : PlaneId
  owner : SceneIndex
  deriving DecidableEq, Repr

abbrev Claims := List PlaneClaim

namespace Claims

/-- The planes other scenes hold. -/
def elsewhere (claims : Claims) (idx : SceneIndex) : List PlaneId :=
  (claims.filter (·.owner ≠ idx)).map (·.plane)

/-- One plane of a claim: it changes its owner, or is new. -/
def take (claims : Claims) (idx : SceneIndex) (plane : PlaneId) : Claims :=
  if claims.any (·.plane = plane) then
    claims.map fun c => if c.plane = plane then { c with owner := idx } else c
  else claims ++ [⟨plane, idx⟩]

/-- The scene gives up what it held and claims what it armed. -/
def claim (claims : Claims) (idx : SceneIndex) (armed : List PlaneId) : Claims :=
  armed.foldl (fun claims p => claims.take idx p) (claims.filter (·.owner ≠ idx))

/-- The claims after the groups were submitted: a scene that failed keeps what it held, unless a
committed scene took it. -/
def reconcile (claims old : Claims) (failed : SceneIndex → Bool) : Claims :=
  let kept := claims.filter fun c => !failed c.owner
  kept ++ old.filter fun c => failed c.owner && !kept.any (·.plane = c.plane)

end Claims

/-! ### The set -/

/-- A scene of the set. -/
structure SetScene where
  crtcId : CrtcId
  /-- Its lit planes were read into the claims. -/
  seeded : Bool := false
  deriving DecidableEq, Repr

structure SceneSet where
  /-- A removed scene leaves a hole. -/
  scenes : List (Option SetScene) := []
  planeOwner : Claims := []
  deriving DecidableEq, Repr

/-- What `drmModeGetPlane` says of a plane. -/
structure KernelPlane where
  planeId : PlaneId
  crtcId : CrtcId
  fbId : ℕ
  deriving DecidableEq, Repr

/-- One `commit()` or `test()`, with what the scenes and the kernel answer. -/
structure SetFrame where
  policy : NarrowPolicy
  callerFlags : ℕ := 0
  testOnly : Bool
  wantsModeset : SceneIndex → Bool
  /-- The planes that can be read, if the resources can. -/
  kernelPlanes : Option (List KernelPlane)
  /-- Whether the request of a group can be allocated. -/
  requestValid : ℕ → Bool
  /-- Each scene's build beside these planes of the others; no state for a suspended scene. -/
  build : SceneIndex → List PlaneId → Except Errc (Option FrameBuildState)
  /-- The verdict on each request submitted, with the scenes in it and its flags. -/
  kernel : List SceneIndex → ℕ → Except Errc Unit

namespace SceneSet

/-- `add_scene`: the lowest hole is reused. -/
def addScene (s : SceneSet) (crtc : CrtcId) : SceneSet × SceneIndex :=
  match s.scenes.findIdx? Option.isNone with
  | some i => ({ s with scenes := s.scenes.set i (some ⟨crtc, false⟩) }, i)
  | none => ({ s with scenes := s.scenes ++ [some ⟨crtc, false⟩] }, s.scenes.length)

def removeScene (s : SceneSet) (idx : SceneIndex) : SceneSet :=
  match s.scenes[idx]? with
  | some (some _) =>
    { scenes := s.scenes.set idx none
      planeOwner := s.planeOwner.filter (·.owner ≠ idx) }
  | _ => s

/-- The lit planes of one CRTC that nobody owns. -/
def seedScene (planes : List KernelPlane) (crtc : CrtcId) (idx : SceneIndex) (claims : Claims) :
    Claims :=
  planes.foldl (fun claims p =>
    if p.crtcId = crtc ∧ p.fbId ≠ 0 ∧ claims.any (·.plane = p.planeId) = false then
      claims ++ [⟨p.planeId, idx⟩]
    else claims) claims

/-- A slot of the set: only a scene that joined since is seeded. -/
def seedSlot (planes : List KernelPlane) (claims : Claims) : Option SetScene × SceneIndex → Claims
  | (some ⟨crtc, false⟩, idx) => seedScene planes crtc idx claims
  | _ => claims

/-- `seed_plane_owners`. -/
def seedPlaneOwners (s : SceneSet) (planes : Option (List KernelPlane)) : SceneSet :=
  match planes with
  | none => s
  | some planes =>
    { scenes := s.scenes.map (Option.map fun scene => { scene with seeded := true })
      planeOwner := s.scenes.zipIdx.foldl (seedSlot planes) s.planeOwner }

def snapshotSlots (s : SceneSet) (f : SetFrame) : List SceneSlotState :=
  s.scenes.zipIdx.map fun slot => ⟨slot.1.isNone, slot.1.isSome && f.wantsModeset slot.2⟩

/-! ### Phase 1: build every group -/

/-- A scene that takes part in the frame, with the planes that were left out of its build. -/
structure EngagedBuild where
  sceneIndex : SceneIndex
  elsewhere : List PlaneId
  state : FrameBuildState
  deriving DecidableEq, Repr

/-- What building has come to. -/
structure BuildPhase where
  claims : Claims
  /-- The groups, each with its engaged scenes. -/
  groups : List (List EngagedBuild) := []
  error : Option Errc := none
  deriving DecidableEq, Repr

def buildGroup (f : SetFrame) (claims : Claims) : List SceneIndex →
    Claims × List EngagedBuild × Option Errc
  | [] => (claims, [], none)
  | idx :: group =>
    let elsewhere := claims.elsewhere idx
    match f.build idx elsewhere with
    | .error e => (claims, [], some e)
    | .ok none => buildGroup f claims group
    | .ok (some state) =>
      let state := state.leaveOut elsewhere
      let rest := buildGroup f (claims.claim idx state.armedPlanes) group
      (rest.1, ⟨idx, elsewhere, state⟩ :: rest.2.1, rest.2.2)

/-- The groups from number `n` on, until a build fails. -/
def buildGroups (f : SetFrame) (n : ℕ) (claims : Claims) : List (List SceneIndex) → BuildPhase
  | [] => { claims }
  | group :: groups =>
    if f.requestValid n then
      let built := buildGroup f claims group
      match built.2.2 with
      | some e => { claims := built.1, groups := [built.2.1], error := some e }
      | none =>
        let rest := buildGroups f (n + 1) built.1 groups
        { rest with groups := built.2.1 :: rest.groups }
    else { claims, error := some (.other 12) }

/-! ### Phase 2: submit the groups -/

def pageFlipEvent : ℕ := 0x01

/-- The flags of a group: its scenes' and the caller's. -/
def combinedFlags (f : SetFrame) (group : List EngagedBuild) : ℕ :=
  group.foldl (fun flags eb => flags ||| eb.state.effectiveFlags) f.callerFlags

/-- Only the last request carries the page-flip event. -/
def submitFlags (f : SetFrame) (group : List EngagedBuild) (last : Bool) : ℕ :=
  let flags := combinedFlags f group
  if last then flags else flags &&& (0xFFFFFFFF - pageFlipEvent)

def sceneIndices (group : List EngagedBuild) : List SceneIndex := group.map (·.sceneIndex)

/-- The groups with an engaged scene, each with its verdict. -/
def submitGroups (f : SetFrame) : List (List EngagedBuild) →
    List (List EngagedBuild × Except Errc Unit)
  | [] => []
  | group :: groups =>
    (group, f.kernel (sceneIndices group) (submitFlags f group groups.isEmpty)) ::
      submitGroups f groups

def pending (b : BuildPhase) : List (List EngagedBuild) := b.groups.filter (!·.isEmpty)

/-- The scene was in a request that was rejected. -/
def failed (submitted : List (List EngagedBuild × Except Errc Unit)) (idx : SceneIndex) : Bool :=
  submitted.any fun g => g.2 ≠ .ok () && (sceneIndices g.1).contains idx

/-- The builds of the accepted requests. -/
def committed (submitted : List (List EngagedBuild × Except Errc Unit)) : List EngagedBuild :=
  submitted.flatMap fun g => if g.2 = .ok () then g.1 else []

def firstError (submitted : List (List EngagedBuild × Except Errc Unit)) : Option Errc :=
  submitted.findSome? fun g =>
    match g.2 with
    | .ok () => none
    | .error e => some e

/-- What a frame leaves behind. -/
structure SetOutcome where
  set : SceneSet
  /-- The builds of the frame, shipped or not. -/
  builds : List EngagedBuild
  submitted : List (List EngagedBuild × Except Errc Unit)
  error : Option Errc

/-- The build phase of a frame, after the scenes that joined were seeded. -/
def buildPhase (s : SceneSet) (f : SetFrame) : BuildPhase :=
  buildGroups f 0 s.planeOwner (partitionForPolicy (s.snapshotSlots f) f.policy)

/-- `do_commit_all`. With no live scene it returns before it reads the planes. -/
def doCommitAll (s : SceneSet) (f : SetFrame) : SetOutcome :=
  if partitionForPolicy (s.snapshotSlots f) f.policy = [] then ⟨s, [], [], none⟩
  else
    let s := s.seedPlaneOwners f.kernelPlanes
    let phase := s.buildPhase f
    match phase.error with
    | some e => ⟨s, phase.groups.flatten, [], some e⟩
    | none =>
      let submitted := submitGroups f (pending phase)
      let owner :=
        if f.testOnly || submitted.isEmpty then s.planeOwner
        else Claims.reconcile phase.claims s.planeOwner (failed submitted)
      ⟨{ s with planeOwner := owner }, phase.groups.flatten, submitted, firstError submitted⟩

end SceneSet

end DrmCxx.Scene
