import Mathlib.Data.List.Basic

/-!
# The deferred-release ring

`prev_acquisitions_` and `prev_prev_acquisitions_` of `LayerScene::Impl`: what the last two
accepted commits acquired, oldest last.
-/

namespace DrmCxx.Scene

structure InFlight (α : Type*) where
  prev : List α := []
  prevPrev : List α := []
  deriving DecidableEq, Repr

namespace InFlight

variable {α : Type*}

/-- The rotation of an accepted commit that acquired `acqs`, after `prevPrev` is released:
`stamp` puts the commit's OUT_FENCE on the buffers it displaces. -/
def rotate (stamp : α → α) (r : InFlight α) (acqs : List α) : InFlight α :=
  { prev := acqs, prevPrev := r.prev.map stamp }

/-- `release_displaced`: the oldest acquisitions are already given back. -/
def dropOldest (r : InFlight α) : InFlight α :=
  { r with prevPrev := [] }

/-- The drain order of `release_pending_acquisitions`: oldest first. -/
def drained (r : InFlight α) : List α :=
  r.prevPrev ++ r.prev

end InFlight

end DrmCxx.Scene
