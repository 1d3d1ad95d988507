import DrmCxx.Verification.Planes.Apply
import DrmCxx.Verification.Planes.OnePlane

/-!
# What `apply()` leaves of its layers

Whichever path answers, the layers are placed by one allocation, and a layer left to the composition
holds no plane.
-/

namespace DrmCxx.Planes

open DrmCxx.Lib DrmCxx.Modeset

namespace Allocator

open Assignment

variable {d : Device} {a : Allocator} {f : Frame} {l : LayerId}

/-- A frame placed by the allocation `b`, with the composition layer parked or not. -/
structure PlacedBy (f : Frame) (r : Applied) (b : Assignment)
    (parked : Option (LayerId × PlaneId)) : Prop where
  heap : r.heap = f.output.markClean
    (parkHeap (f.output.markUnassigned (assignPlanes f.resetHeap b.entries)) parked)
  parked : ∀ e, parked = some e → f.output.compositionLayer = e.1
  allocation : r.allocator.previousAllocation = b
  result : r.result = .ok b.size

/-- The frame is placed by the pruned allocation or by a new one; or the master is lost before any
layer is. -/
theorem apply_cases (d : Device) (a : Allocator) (f : Frame) :
    PlacedBy f (a.apply d f) (a.prunePrevious f).previousAllocation none ∨
      (∃ parked, PlacedBy f (a.apply d f) (searchResult d a f).1 parked) ∨
      (a.apply d f).heap = f.resetHeap ∧ (a.apply d f).result = .error .permissionDenied ∧
        ((a.apply d f).allocator.previousAllocation = a.previousAllocation ∨
          (a.apply d f).allocator.previousAllocation = (a.prunePrevious f).previousAllocation) := by
  by_cases h : Replayed d a f
  · obtain ⟨a₁, hr, hresult, -, hheap, -, -, diag, halloc⟩ := apply_of_replayed h
    have hprev := hr.pruned.trans (beginFrame_prune d a f)
    refine .inl ⟨?_, fun e he => (by cases he), ?_, ?_⟩
    · rw [hheap, ← hprev]
      rfl
    · rw [halloc]
      exact (armPrevious_previousAllocation d a₁ f f.resetHeap).trans hprev
    · rw [hresult, hprev]
  · obtain ⟨⟨prev, s, ha, hprev⟩, ⟨-, diag, happ⟩ | ⟨-, diag, happ, -⟩⟩ := apply_of_not_replayed h
    · refine .inr (.inr ⟨by rw [happ], by rw [happ], ?_⟩)
      rw [beginFrame_prune, beginFrame_previousAllocation] at hprev
      rw [happ, ha]
      exact hprev
    · refine .inr (.inl ⟨searchParks d a f, ?_, fun e he => compositionLayer_of_parks he, ?_, ?_⟩)
      all_goals rw [happ]; rfl

/-- The number `apply()` returns counts its allocation. -/
theorem apply_size {n : ℕ} (h : (a.apply d f).result = .ok n) :
    n = (a.apply d f).allocator.previousAllocation.size := by
  obtain hp | ⟨parked, hp⟩ | ⟨-, herr, -⟩ := apply_cases d a f
  · rw [hp.result] at h
    rw [hp.allocation]
    cases h
    rfl
  · rw [hp.result] at h
    rw [hp.allocation]
    cases h
    rfl
  · rw [herr] at h
    cases h

theorem prunePrevious_onePlane (h : OnePlane a.previousAllocation) :
    OnePlane (a.prunePrevious f).previousAllocation :=
  h.subset fun _ he => (Table.mem_filter.mp he).1

/-- No allocation puts a layer on two planes. -/
theorem apply_onePlane (d : Device) (f : Frame) (h : OnePlane a.previousAllocation) :
    OnePlane (a.apply d f).allocator.previousAllocation := by
  obtain hp | ⟨parked, hp⟩ | ⟨-, -, hprev | hprev⟩ := apply_cases d a f
  · rw [hp.allocation]
    exact prunePrevious_onePlane h
  · rw [hp.allocation]
    exact SearchContext.searchAssignment_onePlane
      ((searchContext_layers d a f).nodup_iff.mpr f.output.nodupLayers) _
  · rw [hprev]
    exact h
  · rw [hprev]
    exact prunePrevious_onePlane h

theorem PlacedBy.composited {r : Applied} {b : Assignment} {parked : Option (LayerId × PlaneId)}
    (h : PlacedBy f r b parked) (hl : l ∈ f.output.layers)
    (hneeds : (r.heap l).needsComposition = true) :
    (r.heap l).assignedPlane = none ∧ (f.heap l).pinned = false := by
  rw [h.heap, markClean_needsComposition, parkHeap_needsComposition,
    Output.markUnassigned] at hneeds
  split at hneeds
  · rename_i hmarked
    obtain ⟨-, hnone, hcomposition, -, hpinned⟩ := hmarked
    have hne : ∀ e, parked = some e → e.1 ≠ l := fun e he hel => by
      simp [Output.isCompositionLayer, h.parked e he, hel] at hcomposition
    rw [h.heap, markClean_assignedPlane, parkHeap_of_ne hne, markUnassigned_assignedPlane]
    rw [assignPlanes_eq] at hpinned
    exact ⟨hnone, by simpa using hpinned⟩
  · rw [assignPlanes_resetHeap_needsComposition _ hl] at hneeds
    cases hneeds

/-- A layer left to the composition holds no plane, and was not pinned to one. -/
theorem apply_composited (hl : l ∈ f.output.layers)
    (hneeds : ((a.apply d f).heap l).needsComposition = true) :
    ((a.apply d f).heap l).assignedPlane = none ∧ (f.heap l).pinned = false := by
  obtain hp | ⟨parked, hp⟩ | ⟨hheap, -, -⟩ := apply_cases d a f
  · exact hp.composited hl hneeds
  · exact hp.composited hl hneeds
  · rw [hheap, Frame.resetHeap, if_pos hl] at hneeds
    cases hneeds

theorem PlacedBy.pinned {r : Applied} {b : Assignment} {parked : Option (LayerId × PlaneId)}
    (h : PlacedBy f r b parked) : (r.heap l).pinned = (f.heap l).pinned := by
  have hpark : ∀ heap : Heap, (parkHeap heap parked l).pinned = (heap l).pinned := by
    intro heap
    cases parked with
    | none => rfl
    | some e =>
      rw [parkHeap]
      by_cases hl : l = e.1
      · rw [hl, Function.update_self]
      · rw [Function.update_of_ne hl]
  have hmark : ∀ heap : Heap, (f.output.markUnassigned heap l).pinned = (heap l).pinned := by
    intro heap
    unfold Output.markUnassigned
    split <;> rfl
  have hclean : ∀ heap : Heap, (f.output.markClean heap l).pinned = (heap l).pinned := by
    intro heap
    unfold Output.markClean
    split <;> rfl
  rw [h.heap, hclean, hpark, hmark, assignPlanes_eq]
  exact resetHeap_pinned

/-- Pins are the scene's. -/
theorem apply_pinned : ((a.apply d f).heap l).pinned = (f.heap l).pinned := by
  obtain hp | ⟨parked, hp⟩ | ⟨hheap, -, -⟩ := apply_cases d a f
  · exact hp.pinned
  · exact hp.pinned
  · rw [hheap, resetHeap_pinned]

/-! ### The planes of a placed frame -/

/-- A layer of the allocation is on a plane; another one has the plane it was pinned to, if any. -/
theorem PlacedBy.assigned {r : Applied} {b : Assignment} {parked : Option (LayerId × PlaneId)}
    (h : PlacedBy f r b parked) (hl : l ∈ f.output.layers)
    (hscene : l ≠ f.output.compositionLayer) : (r.heap l).assignedPlane.isSome =
      (b.hasLayer l || (f.heap l).pinned && (f.heap l).assignedPlane.isSome) := by
  have hpark : ∀ e, parked = some e → e.1 ≠ l := fun e he hel =>
    hscene ((h.parked e he).trans hel).symm
  rw [h.heap, markClean_assignedPlane, parkHeap_of_ne hpark, markUnassigned_assignedPlane]
  cases hlayer : b.hasLayer l with
  | true => exact (assignPlanes_of_mem f.resetHeap (hasLayer_iff.mp hlayer)).1
  | false =>
    have hnot : l ∉ b.entries.map Prod.snd := fun hmem => by
      rw [hasLayer_iff.mpr hmem] at hlayer
      cases hlayer
    rw [assignPlanes_of_not_mem hnot, Frame.resetHeap, if_pos hl]
    cases (f.heap l).pinned <;> rfl

/-- The allocation of a placed frame is one of its layers. -/
theorem apply_values {n : ℕ} (h : (a.apply d f).result = .ok n) :
    (a.apply d f).allocator.previousAllocation.values ⊆ f.output.layers := by
  obtain hp | ⟨parked, hp⟩ | ⟨-, herr, -⟩ := apply_cases d a f
  · rw [hp.allocation]
    intro l hl
    obtain ⟨p, hp⟩ := Table.mem_values.mp hl
    exact List.contains_iff_mem.mp (Table.mem_filter.mp hp).2
  · rw [hp.allocation]
    intro l hl
    obtain ⟨p, hp⟩ := Table.mem_values.mp hl
    exact (searchContext_layers d a f).subset
      (List.mem_filter.mp (SearchContext.searchAssignment_placed _ _ p l hp).1).1
  · rw [herr] at h
    cases h

theorem apply_assigned {n : ℕ} (h : (a.apply d f).result = .ok n) (hl : l ∈ f.output.layers)
    (hscene : l ≠ f.output.compositionLayer) : ((a.apply d f).heap l).assignedPlane.isSome =
      ((a.apply d f).allocator.previousAllocation.hasLayer l ||
        (f.heap l).pinned && (f.heap l).assignedPlane.isSome) := by
  obtain hp | ⟨parked, hp⟩ | ⟨-, herr, -⟩ := apply_cases d a f
  · rw [hp.assigned hl hscene, hp.allocation]
  · rw [hp.assigned hl hscene, hp.allocation]
  · rw [herr] at h
    cases h

end Allocator

end DrmCxx.Planes
