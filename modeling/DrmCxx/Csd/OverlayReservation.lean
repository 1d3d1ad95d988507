import DrmCxx.Errc
import DrmCxx.Planes.PlaneRegistry
import Mathlib.Data.Finset.Basic
import Mathlib.Data.List.Sort
import Mathlib.Logic.Function.Basic

/-!
# Overlay reservations

`csd::OverlayReservation`: which overlay planes the decorations of each CRTC have, picked at startup
from a plane registry that several CRTCs share.
-/

namespace DrmCxx.Csd

open Planes (PlaneId PlaneCapabilities PlaneRegistry)

structure OverlayReservation where
  /-- The planes of each CRTC that has an entry, lowest first. -/
  byCrtc : ℕ → Option (List PlaneId) := fun _ => none
  allReserved : Finset PlaneId := ∅
  /-- `none` is a default-constructed reservation. -/
  registry : Option PlaneRegistry := none

/-- `scans_out_linear`: a plane without `IN_FORMATS` has its bare formats in the table, as
linear. -/
def scansOutLinear (p : PlaneCapabilities) (format : UInt32) : Bool :=
  Planes.layerFitsPlane p.formatTable format Planes.modLinear

namespace OverlayReservation

def create (registry : PlaneRegistry) : OverlayReservation := { registry := some registry }

/-- `reserved_for`. -/
def reservedFor (r : OverlayReservation) (crtcIndex : ℕ) : List PlaneId :=
  (r.byCrtc crtcIndex).getD []

def release (r : OverlayReservation) (crtcIndex : ℕ) : OverlayReservation :=
  match r.byCrtc crtcIndex with
  | none => r
  | some ids =>
    { r with
      byCrtc := Function.update r.byCrtc crtcIndex none
      allReserved := r.allReserved \ ids.toFinset }

/-- A plane without a zpos can honour no floor but 0. -/
def meetsFloor (p : PlaneCapabilities) (minZpos : UInt64) : Bool :=
  match p.zposMin with
  | none => minZpos = 0
  | some z => minZpos ≤ z

/-- The zpos and the id of the planes that may be picked. -/
def candidates (r : OverlayReservation) (registry : PlaneRegistry) (crtcIndex : ℕ)
    (format : UInt32) (minZpos : UInt64) : List (UInt64 × PlaneId) :=
  (registry.forCrtc crtcIndex).filterMap fun cap =>
    if cap.type = .overlay && scansOutLinear cap format && meetsFloor cap minZpos &&
        !decide (cap.id ∈ r.allReserved) then
      some (cap.zposMin.getD 0, cap.id)
    else none

def candidateLe (a b : UInt64 × PlaneId) : Prop := a.1 < b.1 ∨ a.1 = b.1 ∧ a.2 ≤ b.2

instance : DecidableRel candidateLe := fun _ _ => inferInstanceAs (Decidable (_ ∨ _))

def reserve (r : OverlayReservation) (crtcIndex : ℕ) (format : UInt32) (count : ℕ)
    (minZpos : UInt64) : OverlayReservation × Except Errc (List PlaneId) :=
  match r.registry with
  | none => (r, .error .invalidArgument)
  | some registry =>
    if count = 0 then
      -- an entry that is there stays as it is
      ({ r with byCrtc :=
          Function.update r.byCrtc crtcIndex (some ((r.byCrtc crtcIndex).getD [])) }, .ok [])
    else
      let r := r.release crtcIndex
      let found := r.candidates registry crtcIndex format minZpos
      if found.length < count then (r, .error .resourceUnavailableTryAgain)
      else
        let out := ((found.insertionSort candidateLe).take count).map (·.2)
        ({ r with
            byCrtc := Function.update r.byCrtc crtcIndex (some out)
            allReserved := r.allReserved ∪ out.toFinset }, .ok out)

end OverlayReservation

end DrmCxx.Csd
