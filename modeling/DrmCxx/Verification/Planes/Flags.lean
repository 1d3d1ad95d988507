import DrmCxx.Verification.Planes.Trace

/-!
# Layers the allocator has to leave alone

A search never gives a plane to a layer that is composited by request, pinned or externally bound.
The cached paths replay the previous allocation without looking at these flags.
-/

namespace DrmCxx.Planes

open DrmCxx.Lib

/-- The allocator was told not to place the layer. -/
def Layer.leftAlone (l : Layer) : Bool :=
  l.forceComposited || l.transientComposited || l.pinned || l.externallyBound

@[simp] theorem resetHeap_leftAlone {f : Frame} {l : LayerId} :
    (f.resetHeap l).leftAlone = (f.heap l).leftAlone := by
  simp [Layer.leftAlone]

namespace Allocator

variable {d : Device} {a : Allocator} {f : Frame}

/-- What the flags ask of one `apply()`. -/
structure Respects (d : Device) (a : Allocator) (f : Frame) : Prop where
  leftAlone : ∀ e ∈ (a.apply d f).armed, (f.heap e.2).leftAlone = false
  placedOrComposited : ∀ n, (a.apply d f).result = .ok n → ∀ l ∈ f.output.layers,
    f.output.isCompositionLayer l = false → (f.heap l).leftAlone = false →
      ((a.apply d f).heap l).needsComposition = !((a.apply d f).heap l).assignedPlane.isSome

/-- No branch that ignores the flags is taken on a flagged layer. -/
structure FlagsHeeded (d : Device) (a : Allocator) (f : Frame) : Prop where
  replay : Replayed d a f → ∀ e ∈ (a.prunePrevious f).previousAllocation.entries,
    (f.heap e.2).leftAlone = false
  park : (cacheAnswer d a f).answers = false → ∀ l p, searchParks d a f = some (l, p) →
    (f.heap l).leftAlone = false

/-! ### The search -/

/-- A search gives its planes to layers that may have one. -/
theorem searched_leftAlone {e : PlaneId × LayerId}
    (he : e ∈ (searched d a f).allocator.previousAllocation.entries) :
    (f.heap e.2).leftAlone = false := by
  obtain ⟨hl, q, -, -, hc⟩ := SearchContext.searchAssignment_placed _ _ e.1 e.2 he
  have hl := (List.mem_filter.mp hl).2
  simp only [context, resetHeap_externallyBound, resetHeap_pinned, Bool.and_eq_true,
    Bool.not_eq_true'] at hl
  simp only [SearchContext.compatible, planeStaticallyCompatible, context,
    resetHeap_forceComposited, resetHeap_transientComposited, Bool.and_eq_true, Bool.not_eq_true',
    Bool.or_eq_false_iff] at hc
  simp [Layer.leftAlone, hl, hc.1.1]

/-! ### One frame -/

theorem isScene_of_not_leftAlone {l : LayerId} (hc : f.output.isCompositionLayer l = false)
    (hl : (f.heap l).leftAlone = false) : f.isScene l = true := by
  simp only [Layer.leftAlone, Bool.or_eq_false_iff] at hl
  exact isScene_iff.mpr ⟨hc, hl.2, hl.1.2⟩

theorem respects_of_replayed (hr : Replayed d a f) :
    Respects d a f ↔ ∀ e ∈ (a.prunePrevious f).previousAllocation.entries,
      (f.heap e.2).leftAlone = false := by
  obtain ⟨a₁, hreplay, -, harmed, hheap, -, -, -⟩ := apply_of_replayed hr
  have hprev : a₁.previousAllocation = (a.prunePrevious f).previousAllocation :=
    hreplay.pruned.trans (beginFrame_prune d a f)
  constructor
  · intro h
    rw [← hprev, ← harmed]
    exact h.leftAlone
  · intro h
    refine ⟨by rw [harmed, hprev]; exact h, ?_⟩
    intro n _ l hl hc hla
    rw [hheap]
    have hx := placed_xor_composited a₁.previousAllocation.entries hl
      (isScene_of_not_leftAlone hc hla)
    simpa [armPrevious] using hx

theorem respects_of_searched (hr : ¬ Replayed d a f) :
    Respects d a f ↔ ((cacheAnswer d a f).answers = false → ∀ l p,
      searchParks d a f = some (l, p) → (f.heap l).leftAlone = false) := by
  obtain ⟨-, ⟨hans, diag, happ⟩ | ⟨hans, diag, happ, -⟩⟩ := apply_of_not_replayed hr
  · -- the master is lost: nothing is armed
    refine ⟨fun _ hno => absurd (hans.symm.trans hno) (by decide), fun _ => ⟨?_, ?_⟩⟩
    · simp [happ]
    · simp [happ]
  · constructor
    · intro h _ l p hp
      have := h.leftAlone (p, l)
      rw [happ, searched_armed, hp] at this
      exact this (by simp)
    · intro h
      refine ⟨?_, ?_⟩
      · rw [happ, searched_armed]
        intro e he
        rcases List.mem_append.mp he with he | he
        · exact searched_leftAlone he
        · obtain ⟨⟨l, p⟩, hp, rfl⟩ := List.mem_map.mp he
          exact h hans l p (Option.mem_toList.mp hp)
      · intro n _ l hl hc hla
        rw [happ]
        exact searched_placedOrComposited hl (isScene_of_not_leftAlone hc hla)

/-- `apply()` heeds the flags exactly when it neither replays the placement of a flagged layer nor
parks a flagged composition layer. -/
theorem respects_iff (d : Device) (a : Allocator) (f : Frame) :
    Respects d a f ↔ FlagsHeeded d a f := by
  by_cases hr : Replayed d a f
  · rw [respects_of_replayed hr]
    obtain ⟨x, hx⟩ := hr
    refine ⟨fun h => ⟨fun _ => h, ?_⟩, fun h => h.replay ⟨x, hx⟩⟩
    intro hno
    rw [answers_of_ok hx] at hno
    cases hno
  · rw [respects_of_searched hr]
    exact ⟨fun h => ⟨fun hr' => absurd hr' hr, h⟩, fun h => h.park⟩

/-- In every run, the frames that heed the flags are those that take no branch ignoring them. -/
theorem respects_iff_flagsHeeded (d : Device) (a : Allocator) (es : List AllocatorEvent) :
    Meets (step d) (AtFrames (Respects d)) a es ↔ Meets (step d) (AtFrames (FlagsHeeded d)) a es :=
  meets_atFrames_congr (respects_iff d) a es

end Allocator

/-! ### A layer flagged after it was placed -/

namespace Controller

/-- The frame that places layer 0, and the next one, where the layer is to be composited. -/
def flagAfterPlacing : List AllocatorEvent :=
  [.apply (frameOf (layer 0 0 11)),
    .apply (frameOf { layer 0 0 12 with transientComposited := true })]

theorem not_respects :
    ¬ Meets (Allocator.step device) (Allocator.AtFrames (Allocator.Respects device)) {}
      flagAfterPlacing := by
  intro h
  have harmed := h.2.1.leftAlone
  revert harmed
  decide +kernel

end Controller

end DrmCxx.Planes
