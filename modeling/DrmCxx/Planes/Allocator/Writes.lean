import DrmCxx.Planes.Allocator.Stack

/-!
# Property writes

The writes that put a layer on a plane, in full for a TEST and against the plane's snapshot for a
commit, and the writes that turn unused planes off.
-/

namespace DrmCxx.Planes

open DrmCxx.Lib DrmCxx.Modeset

namespace Device

variable (d : Device)

/-- `clamp_to_plane`: only alpha depends on the plane. -/
def clampToPlane (p : PlaneId) (t : PropTag) (value : UInt64) : UInt64 :=
  if t = .alpha then
    match d.registry.capsOf p with
    | some caps => rescaleAlpha value caps.alphaMax
    | none => value
  else value

/-- The plane advertises the property and takes writes to it. -/
def writable (p : PlaneId) (t : PropTag) : Bool :=
  d.advertises p t && !d.isImmutable p t && !(t = .zpos && d.zposIsFixed p)

/-- The value of a property before it is narrowed to the plane: the stacked zpos, if there is
one. -/
def stackedValue (zpos : Option UInt64) (l : Layer) (t : PropTag) : Option UInt64 :=
  (l.props t).map fun v => if t = .zpos then zpos.getD v else v

def writeOf (p : PlaneId) (t : PropTag) (value : UInt64) : PropKey × UInt64 :=
  ((p, .tag t), d.clampToPlane p t value)

/-- `apply_layer_to_plane`: every set property the plane takes. -/
def applyLayerToPlane (l : Layer) (p : PlaneId) (zpos : Option UInt64) : AtomicRequest :=
  PropTag.all.filterMap fun t =>
    (stackedValue zpos l t).bind fun v =>
      if d.writable p t then some (d.writeOf p t v) else none

/-- Every property the layer owns on the plane, written in full or where the snapshot differs. -/
def layerWrites (snapshot : Option Properties) (l : Layer) (p : PlaneId) (zpos : Option UInt64) :
    AtomicRequest :=
  PropTag.all.filterMap fun t =>
    (stackedValue zpos l t).bind fun v =>
      if d.writable p t && !(l.externallyBound && t = .fbId) then
        -- content is written every frame: it is what queues the page flip
        if propClass t = .content || snapshot.all (fun s => s t ≠ some v)
        then some (d.writeOf p t v)
        else none
      else none

/-- A plane written in full also drops the driver-private state it held. -/
def resetWrites (p : PlaneId) : AtomicRequest :=
  ((d.registry.capsOf p).map (·.resetOnArmProps)).getD [] |>.map fun prop =>
    ((p, .driverPrivate prop), 0)

/-- The plane is written off: no framebuffer, no CRTC. -/
def disableWrites (p : PlaneId) : AtomicRequest :=
  [PropTag.fbId, PropTag.crtcId].filterMap fun t =>
    if d.advertises p t then some ((p, .tag t), 0) else none

/-- The planes `disable_unused_planes` may turn off. -/
def unusedPlanes (crtcIndex : ℕ) (reserved : List PlaneId) (keep : PlaneId → Bool) : List PlaneId :=
  ((d.registry.forCrtc crtcIndex).filter fun p =>
    p.type ≠ .cursor && !keep p.id && !reserved.contains p.id).map (·.id)

end Device

namespace Allocator

variable (d : Device) (a : Allocator)

/-- The snapshot a layer's properties are diffed against; none for a full write. -/
def diffBase (p : PlaneId) (l : LayerId) : Option Properties :=
  if a.forceFullWrites then none
  else (a.lastCommitted.find? p).bind fun s => if s.layer = some l then some s.properties else none

/-- `apply_layer_to_plane_real`. A TEST does not move the snapshot. -/
def applyLayerToPlaneReal (heap : Heap) (l : LayerId) (p : PlaneId) (testOnly : Bool)
    (zpos : Option UInt64) : Allocator × AtomicRequest :=
  let base := a.diffBase p l
  let req := (if base.isNone then d.resetWrites p else []) ++ d.layerWrites base (heap l) p zpos
  let a := a.setDiagnostics (a.diagnostics.count req)
  if testOnly then (a, req)
  else
    ({ a with
        lastCommitted := a.lastCommitted.insertOrAssign p
          ⟨some l, Device.stackedValue zpos (heap l), propertyHash (heap l).props⟩
        foreignLit := a.foreignLit.filter (· ≠ p) }, req)

/-- The layers of an assignment, written one after the other. -/
def applyAssignment (heap : Heap) (stack : ZposStack) (testOnly : Bool) (a : Allocator) :
    List (PlaneId × LayerId) → Allocator × AtomicRequest
  | [] => (a, [])
  | (p, l) :: es =>
    let (a, req) := a.applyLayerToPlaneReal d heap l p testOnly (stack.zposIn p)
    let (a, rest) := applyAssignment heap stack testOnly a es
    (a, req ++ rest)

/-- The plane is off already, as far as the snapshots know. -/
def alreadyOff (p : PlaneId) : Bool :=
  match a.lastCommitted.find? p with
  | none => !a.foreignLit.contains p
  | some s => (s.properties .fbId).all (· = 0)

/-- One plane of the disable pass. -/
def disablePlane (testOnly : Bool) (p : PlaneId) : Allocator × AtomicRequest :=
  if !a.forceFullWrites && a.alreadyOff p then (a, [])
  else
    let req := d.disableWrites p
    let a := a.setDiagnostics (a.diagnostics.count req)
    if testOnly then (a, req)
    else
      ({ a with
          lastCommitted := a.lastCommitted.erase p
          foreignLit := a.foreignLit.filter (· ≠ p) }, req)

/-- `disable_unused_planes` with `track_state`, over the planes it may turn off. -/
def disablePlanes (testOnly : Bool) (a : Allocator) : List PlaneId → Allocator × AtomicRequest
  | [] => (a, [])
  | p :: ps =>
    let (a, req) := a.disablePlane d testOnly p
    let (a, rest) := disablePlanes testOnly a ps
    (a, req ++ rest)

/-- `read_foreign_lit`: planes the kernel shows on this CRTC. -/
def readForeignLit (kernel : Kernel) (crtcIndex : ℕ) (crtc : CrtcId) : Allocator :=
  { a with foreignLit := ((d.registry.forCrtc crtcIndex).filter fun p =>
      p.type ≠ .cursor && d.readable p.id && kernel (p.id, .tag .fbId) ≠ 0 &&
        (kernel (p.id, .tag .crtcId)).toNat = crtc).map (·.id) }

end Allocator

end DrmCxx.Planes
