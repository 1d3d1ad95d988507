import Mathlib.Data.List.Sort
import DrmCxx.Planes.PlaneRegistry

/-!
# Stacking order

What a layer's zpos means on a plane whose slot is fixed, and the dense numbering written to the
planes a frame arms.
-/

namespace DrmCxx.Planes

def zposFixed (p : PlaneCapabilities) : Bool :=
  match p.zposMin, p.zposMax with
  | some lo, some hi => lo = hi
  | _, _ => false

/-- Where a layer stacks on a plane: its fixed slot, else the zpos the layer asks for. -/
def effectiveZpos (p : PlaneCapabilities) (layerZpos : Option UInt64) : Option UInt64 :=
  if zposFixed p then p.zposMin else layerZpos

/-- Two placed layers stack in the order their zpos ask for. -/
def stackingConsistent (pa : PlaneCapabilities) (za : Option UInt64) (pb : PlaneCapabilities)
    (zb : Option UInt64) : Bool :=
  match za, zb with
  | some a, some b =>
    if a = b then true
    else match effectiveZpos pa za, effectiveZpos pb zb with
      | some ea, some eb => if ea = eb then false else decide (a < b) = decide (ea < eb)
      | _, _ => true
  | _, _ => true

/-- A virtual plane is usable only once its parent is in use. -/
def multirectPairingOk (parent : Option PlaneId) (inUse : PlaneId → Bool) : Bool :=
  parent.all inUse

/-! ### Dense numbering -/

/-- One armed plane of a frame's stack. `belowTies` stacks the entry under the others that ask for
the same zpos. -/
structure StackEntry where
  plane : Option PlaneCapabilities := none
  requested : Option UInt64 := none
  written : Option UInt64 := none
  belowTies : Bool := false

structure Rankable where
  index : ℕ
  requested : UInt64
  afterTies : Bool
  planeId : PlaneId
  zmin : UInt64
  zmax : UInt64
  fixed : Bool

/-- The lexicographic order of (requested, after ties, plane id). -/
def Rankable.le (a b : Rankable) : Bool :=
  a.requested < b.requested || (a.requested = b.requested &&
    ((!a.afterTies && b.afterTies) || (a.afterTies = b.afterTies && a.planeId ≤ b.planeId)))

def StackEntry.rankable (e : StackEntry) (index : ℕ) : Option Rankable :=
  match e.plane, e.requested with
  | some plane, some requested =>
    match plane.zposMin, plane.zposMax with
    | some zmin, some zmax =>
      some ⟨index, requested, !e.belowTies, plane.id, zmin, zmax, zmin = zmax⟩
    | _, _ => none
  | _, _ => none

/-- The lowest value an entry can take above the previous one. -/
def nextZpos (prev : Option UInt64) (r : Rankable) : Option UInt64 :=
  let v := match prev with
    | none => some r.zmin
    | some p =>
      if r.fixed then if r.zmin ≤ p then none else some r.zmin else some (max (p + 1) r.zmin)
  v.filter (· ≤ r.zmax)

/-- The values of the entries in stacking order, by entry index. -/
def numberStack : Option UInt64 → List Rankable → Option (List (ℕ × UInt64))
  | _, [] => some []
  | prev, r :: rs =>
    (nextZpos prev r).bind fun v => (numberStack (some v) rs).map ((r.index, v) :: ·)

/-- `stack_zpos`: the entries with the zpos to write, and whether a dense numbering exists. -/
def stackZpos (entries : List StackEntry) : Bool × List StackEntry :=
  let unnumbered := entries.map fun e => { e with written := e.requested }
  let order := entries.zipIdx.filterMap fun (e, i) => e.rankable i
  match numberStack none (order.insertionSort (fun a b => a.le b)) with
  | none => (false, unnumbered)
  | some values =>
    (true, unnumbered.zipIdx.map fun (e, i) =>
      match values.lookup i with
      | some v => { e with written := some v }
      | none => e)

end DrmCxx.Planes
