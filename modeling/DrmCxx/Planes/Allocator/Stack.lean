import DrmCxx.Planes.Allocator.State

/-!
# Stacking rules

The checks a whole assignment has to pass, the side of the canvas each placed layer needs, and
the zpos written to the armed planes.
-/

namespace DrmCxx.Planes

open DrmCxx.Lib

namespace Device

variable (d : Device)

/-- The layer fits on `p` among the planes already assigned. -/
def fitsStacking (heap : Heap) (a : Assignment) (p : PlaneId) (l : LayerId) : Bool :=
  match d.registry.capsOf p with
  | none => true
  | some caps => a.entries.all fun (q, other) =>
    q = p || (d.registry.capsOf q).all fun qcaps =>
      stackingConsistent caps (heap l).zpos qcaps (heap other).zpos

def stackingConsistent (heap : Heap) (a : Assignment) : Bool :=
  a.entries.all fun (p, l) => d.fitsStacking heap a p l

def fitsMultirect (a : Assignment) (p : PlaneId) : Bool :=
  (d.registry.capsOf p).all fun caps => multirectPairingOk caps.multirectParent a.contains

def multirectComplete (a : Assignment) : Bool := a.entries.all fun (p, _) => d.fitsMultirect a p

/-- No non-cursor plane of the CRTC takes a zpos: the kernel stacks planes by id. -/
def stacksByPlaneId (crtcIndex : ℕ) : Bool :=
  let planes := d.registry.forCrtc crtcIndex
  !planes.isEmpty && !planes.any fun p => p.type ≠ .cursor && p.zposMin.isSome

end Device

/-! ### The canvas -/

/-- The zpos the one canvas has to stay above and below. -/
structure CanvasBounds where
  below : Option UInt64 := none
  above : Option UInt64 := none
  deriving DecidableEq, Repr

namespace CanvasBounds

def feasible (b : CanvasBounds) : Bool :=
  match b.below, b.above with
  | some below, some above => below < above
  | _, _ => true

/-- A placed layer of zpos `zp` overlaps a composited one of zpos `zc`. -/
def add (b : CanvasBounds) (zp zc : UInt64) : CanvasBounds :=
  if zc = zp then b
  else if zc < zp then { b with above := some (min (b.above.getD zp) zp) }
  else { b with below := some (max (b.below.getD zp) zp) }

end CanvasBounds

namespace Output

variable (o : Output) (heap : Heap) (a : Assignment)

/-- The planes of pinned layers that the assignment leaves alone. -/
def pinnedPlane (l : LayerId) : Option PlaneId :=
  if (heap l).pinned then (heap l).assignedPlane.filter (fun p => !a.contains p) else none

def placedLayers : List LayerId :=
  a.values ++ o.layers.filter fun l =>
    !(o.isCompositionLayer l || (heap l).externallyBound) && (pinnedPlane heap a l).isSome

def compositedLayers : List LayerId :=
  o.layers.filter fun l =>
    !(o.isCompositionLayer l || (heap l).externallyBound) && !(heap l).pinned && !a.hasLayer l

def canvasBounds : CanvasBounds :=
  (o.placedLayers heap a).foldl (fun bounds placed =>
    match (heap placed).zpos with
    | none => bounds
    | some zp => (o.compositedLayers heap a).foldl (fun bounds composited =>
        match (heap composited).zpos with
        | none => bounds
        | some zc =>
          if layersIntersect (heap placed) (heap composited) then bounds.add zp zc else bounds)
        bounds) {}

end Output

/-! ### The written stack -/

/-- The zpos to write per plane. -/
structure ZposStack where
  /-- Only the planes whose zpos changes. -/
  renumbered : List (PlaneId × UInt64) := []
  written : List (PlaneId × UInt64) := []
  canvas : Option UInt64 := none

namespace ZposStack

def zposIn (s : ZposStack) (p : PlaneId) : Option UInt64 := s.renumbered.lookup p

end ZposStack

namespace Device

variable (d : Device)

/-- The canvas may land on any settable plane of the CRTC: the widest of their ranges. -/
def canvasSlot (crtcIndex : ℕ) : PlaneCapabilities :=
  (d.registry.forCrtc crtcIndex).foldl (fun slot p =>
    match p.zposMin, p.zposMax with
    | some lo, some hi =>
      if p.type = .cursor || lo = hi then slot
      else { slot with
        zposMin := some (min (slot.zposMin.getD lo) lo)
        zposMax := some (max (slot.zposMax.getD hi) hi) }
    | _, _ => slot) {}

/-- The planes a frame arms, each with its entry in the stack. -/
def stackEntries (o : Output) (heap : Heap) (a : Assignment) : List (PlaneId × StackEntry) :=
  let entry := fun p l =>
    (p, ({ plane := d.registry.capsOf p, requested := (heap l).zpos } : StackEntry))
  a.entries.map (fun (p, l) => entry p l) ++
    o.layers.filterMap fun l => (Output.pinnedPlane heap a l).map fun p => entry p l

/-- `stacked_zpos`: the canvas slot sits just under the lowest placed layer that must cover it, and
is dropped when the stack has no room for it. -/
def stackedZpos (crtcIndex : ℕ) (o : Output) (heap : Heap) (a : Assignment) : ZposStack :=
  let entries := d.stackEntries o heap a
  let slot := d.canvasSlot crtcIndex
  let bounds := o.canvasBounds heap a
  let withSlot := slot.zposMin.isSome && bounds.above.isSome && bounds.feasible
  let canvas : StackEntry := { plane := some slot, requested := bounds.above, belowTies := true }
  let plain := entries.map Prod.snd
  let first := stackZpos (if withSlot then plain ++ [canvas] else plain)
  let dropped := withSlot && !first.1
  let (fits, stacked) := if dropped then stackZpos plain else first
  let written := ((entries.map Prod.fst).zip stacked).filterMap fun (p, e) =>
    e.written.map fun w => (p, e.requested, w)
  { written := written.map fun (p, _, w) => (p, w)
    renumbered := if fits then
        (written.filter fun (_, requested, w) => requested ≠ some w).map fun (p, _, w) => (p, w)
      else []
    canvas := if fits && withSlot && !dropped then (stacked[entries.length]?).bind (·.written)
      else none }

end Device

end DrmCxx.Planes
