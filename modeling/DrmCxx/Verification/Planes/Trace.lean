import DrmCxx.Lib.Run
import DrmCxx.Verification.Planes.Apply

/-!
# Runs of the allocator
-/

namespace DrmCxx.Planes

open DrmCxx.Lib DrmCxx.Modeset

/-- The calls an allocator takes. -/
inductive AllocatorEvent
  | apply (f : Frame)
  | forgetLayer (l : LayerId)
  | invalidateAllocation
  | setMaxTestCommits (max : ℕ)
  | setForceFullPropertyWrites (force : Bool)

namespace Allocator

def step (d : Device) (a : Allocator) : AllocatorEvent → Allocator
  | .apply f => (a.apply d f).allocator
  | .forgetLayer l => a.forgetLayer l
  | .invalidateAllocation => a.invalidateAllocation
  | .setMaxTestCommits max => { a with maxTestCommits := max }
  | .setForceFullPropertyWrites force => { a with forceFullWrites := force }

/-- `P` holds of every frame of a run, in the state it is applied to. -/
def AtFrames (P : Allocator → Frame → Prop) (a : Allocator) : AllocatorEvent → Prop
  | .apply f => P a f
  | _ => True

theorem meets_atFrames_imp {d : Device} {P Q : Allocator → Frame → Prop}
    (h : ∀ a f, P a f → Q a f) {a : Allocator} {es : List AllocatorEvent}
    (hes : Meets (step d) (AtFrames P) a es) : Meets (step d) (AtFrames Q) a es := by
  induction es generalizing a with
  | nil => trivial
  | cons e es ih =>
    refine ⟨?_, ih hes.2⟩
    cases e with
    | apply f => exact h a f hes.1
    | _ => trivial

theorem meets_atFrames_congr {d : Device} {P Q : Allocator → Frame → Prop}
    (h : ∀ a f, P a f ↔ Q a f) (a : Allocator) (es : List AllocatorEvent) :
    Meets (step d) (AtFrames P) a es ↔ Meets (step d) (AtFrames Q) a es :=
  ⟨meets_atFrames_imp fun a f => (h a f).mp, meets_atFrames_imp fun a f => (h a f).mpr⟩

end Allocator

/-! ### A small controller -/

namespace Controller

/-- A stable sort is one `std::sort`. -/
def stdSort : StdSort where
  sort lt l := l.insertionSort fun a b => !lt b a
  perm _ l := List.perm_insertionSort _ l
  sorted lt asymm trans l := by
    have : Std.Total fun a b => (!lt b a) = true := ⟨fun a b => by
      cases h : lt b a with
      | false => exact .inl rfl
      | true => exact .inr (by rw [asymm b a h]; rfl)⟩
    have : IsTrans _ fun a b => (!lt b a) = true := ⟨fun a b c hab hbc => by
      rw [Bool.not_eq_true'] at hab hbc ⊢
      exact trans c b a hbc hab⟩
    exact (List.pairwise_insertionSort (fun a b => (!lt b a) = true) l).imp fun h => by
      rwa [Bool.not_eq_true'] at h

/-- A PRIMARY fixed at slot 0 and an OVERLAY above it, one format, and a kernel that accepts every
TEST. -/
def device : Device where
  registry := {
    planes := [
      { id := 1, possibleCrtcs := 1, type := .primary, formatTable := [(1, 0)]
        zposMin := some 0, zposMax := some 0 },
      { id := 2, possibleCrtcs := 1, type := .overlay, formatTable := [(1, 0)]
        zposMin := some 1, zposMax := some 5 }]
    nodupIds := by decide }
  propertyInfo _ _ := some {}
  crtcs := some [7]
  readable _ := true
  canvasHost := none
  testPreparer := none
  test _ _ _ := none
  scanoutCostBytes _ _ _ _ := 0
  stdSort := stdSort

/-- A layer of 10 by 10 pixels. -/
def layer (x zpos fb : UInt64) : Layer where
  props
    | .fbId => some fb
    | .crtcId => some 7
    | .crtcX => some x
    | .crtcY => some 0
    | .crtcW => some 10
    | .crtcH => some 10
    | .srcX => some 0
    | .srcY => some 0
    | .srcW => some (10 <<< (16 : UInt64))
    | .srcH => some (10 <<< (16 : UInt64))
    | .zpos => some zpos
    | .pixelFormat => some 1
    | _ => none

/-- Two layers, and three, each listed once. -/
theorem nodup_pair : ([0, 1] : List LayerId).Nodup := by decide

theorem nodup_triple : ([0, 1, 2] : List LayerId).Nodup := by decide

/-- The CRTC with these layers; its composition layer is layer 9. -/
def output (layers : List LayerId) (h : layers.Nodup := by decide) : Output := ⟨7, layers, 9, h⟩

def frame (layers : List LayerId) (heap : Heap) (h : layers.Nodup := by decide) : Frame where
  output := output layers h
  heap := heap

/-- The frame that shows layer 0. -/
def frameOf (l : Layer) : Frame := frame [0] fun _ => l

end Controller

end DrmCxx.Planes
