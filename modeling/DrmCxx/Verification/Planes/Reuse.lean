import DrmCxx.Verification.Planes.PlaneOrder
import DrmCxx.Verification.Planes.Snapshots
import DrmCxx.Verification.Planes.Stacking
import DrmCxx.Verification.Planes.Trace

/-!
# Reuse of a searched placement

After a search armed an assignment, the next frame of the same scene comes to the FB-only path with
that assignment intact. What decides is whether it passes the global warm-start rules.
-/

namespace DrmCxx.Planes

open DrmCxx.Lib DrmCxx.Modeset

namespace Allocator

variable {d : Device} {a : Allocator} {f g : Frame}

/-! ### The FB-only path -/

theorem beginFrame_eq (d : Device) (a : Allocator) (f : Frame) :
    ∃ foreignLit, a.beginFrame d f = { a with
      search := { a.search with testCommitsThisFrame := 0, canvasPlane := none }
      diagnostics := {}
      committedLayerCount := if f.testOnly then a.committedLayerCount else f.output.layers.length
      foreignLit := foreignLit } := by
  unfold beginFrame
  dsimp only
  split <;> exact ⟨_, rfl⟩

/-- An allocation that is warm and unreserved is armed without a TEST. -/
theorem attempt_of_warm (heap : Heap)
    (hres : ∀ e ∈ a.previousAllocation.entries, e.1 ∉ g.reserved)
    (hwarm : (a.prunePrevious g).warmStartOk d g heap = true) :
    a.attempt d g heap true true = ⟨((a.prunePrevious g).armPrevious d g heap).1,
      .ok ((a.prunePrevious g).armPrevious d g heap).2⟩ := by
  have hno : ¬ (a.previousAllocation.entries.any fun e => g.reserved.contains e.1) = true := by
    rw [List.any_eq_true]
    rintro ⟨e, he, hm⟩
    exact hres e he (by simpa using hm)
  unfold attempt applyPreviousAllocation
  rw [if_pos rfl, if_neg hno]
  simp only [hwarm, Bool.not_true, Bool.false_eq_true, if_false, if_true]
  rfl

theorem armPrevious_search (d : Device) (a : Allocator) (f : Frame) (heap : Heap) :
    (a.armPrevious d f heap).1.search.testCommitsThisFrame = a.search.testCommitsThisFrame := by
  obtain ⟨_, _, _, h, -⟩ := armed_written d a f heap
  have h := congrArg (fun x => x.search.testCommitsThisFrame) h
  unfold armPrevious
  dsimp only
  split <;> exact h

/-- What the FB-only path does when the remembered allocation holds. -/
structure FbOnly (d : Device) (a : Allocator) (g : Frame) : Prop where
  result : (a.apply d g).result = .ok (a.prunePrevious g).previousAllocation.size
  armed : (a.apply d g).armed = (a.prunePrevious g).previousAllocation.entries
  heap : (a.apply d g).heap = g.output.markClean (g.output.markUnassigned
    (assignPlanes g.resetHeap (a.prunePrevious g).previousAllocation.entries))
  fbDelta : (a.apply d g).allocator.diagnostics.fbDeltaFastPath = true
  noTests : (a.apply d g).allocator.diagnostics.testCommitsIssued = 0

theorem apply_of_fbOnly (hreal : g.testOnly = false) (hvalid : a.previousAllocationValid = true)
    (hforce : a.forceSearch g = false) (hfb : (a.beginFrame d g).isFbOnlyFrame g = true)
    (hres : ∀ e ∈ a.previousAllocation.entries, e.1 ∉ g.reserved)
    (hwarm : ((a.beginFrame d g).prunePrevious g).warmStartOk d g g.resetHeap = true) :
    FbOnly d a g := by
  have hprev := beginFrame_prune d a g
  have hvalid' : (a.beginFrame d g).previousAllocationValid = true := by
    obtain ⟨_, h⟩ := beginFrame_eq d a g
    rw [h]
    exact hvalid
  have htests : (a.beginFrame d g).search.testCommitsThisFrame = 0 := by
    obtain ⟨_, h⟩ := beginFrame_eq d a g
    rw [h]
  have hatt := attempt_of_warm (d := d) (a := a.beginFrame d g) g.resetHeap
    (by rwa [beginFrame_previousAllocation]) hwarm
  have hanswer : a.apply d g =
      ⟨.ok (((a.beginFrame d g).prunePrevious g).armPrevious d g
          g.resetHeap).1.previousAllocation.size,
        (((a.beginFrame d g).prunePrevious g).armPrevious d g g.resetHeap).1.setDiagnostics
          { (((a.beginFrame d g).prunePrevious g).armPrevious d g g.resetHeap).1.diagnostics with
            fbDeltaFastPath := true
            testCommitsIssued := (((a.beginFrame d g).prunePrevious g).armPrevious d g
              g.resetHeap).1.search.testCommitsThisFrame },
        (((a.beginFrame d g).prunePrevious g).armPrevious d g g.resetHeap).2.1, g.output.layers,
        (((a.beginFrame d g).prunePrevious g).armPrevious d g g.resetHeap).2.2,
        (((a.beginFrame d g).prunePrevious g).armPrevious d g
          g.resetHeap).1.previousAllocation.entries⟩ := by
    simp only [apply, answerFrame, cachedAnswer, hreal, hvalid', hforce, hfb, hatt,
      Attempt.answers, markFbDelta, Attempt.applied, Bool.not_false, Bool.and_true, if_true,
      setDiagnostics]
  rw [armPrevious_previousAllocation, hprev] at hanswer
  refine ⟨?_, ?_, ?_, ?_, ?_⟩
  · rw [hanswer]
  · rw [hanswer]
  · rw [hanswer, ← hprev]
    rfl
  · rw [hanswer]
    rfl
  · rw [hanswer]
    exact (armPrevious_search d _ g g.resetHeap).trans htests

/-! ### What a search leaves behind -/

/-- The layers after a search gave out its planes and left the rest to the composition. -/
def placedHeap (d : Device) (a : Allocator) (f : Frame) : Heap :=
  f.output.markUnassigned (assignPlanes f.resetHeap (searchResult d a f).1.entries)

structure SearchSpec (d : Device) (a : Allocator) (f : Frame) : Prop where
  assignment : (a.apply d f).allocator.previousAllocation = (searchResult d a f).1
  valid : (a.apply d f).allocator.previousAllocationValid = !(searchResult d a f).1.isEmpty
  layerCount : (a.apply d f).allocator.committedLayerCount = f.output.layers.length
  canvas : (a.apply d f).allocator.previousCanvasPlane =
    if f.output.anyComposited (placedHeap d a f) then (searchResult d a f).2.canvasPlane else none
  heap : (a.apply d f).heap =
    f.output.markClean (parkHeap (placedHeap d a f) (searchParks d a f))
  snapshot : ∀ e ∈ (searchResult d a f).1.entries, ∃ props,
    (a.apply d f).allocator.lastCommitted.find? e.1 =
      some ⟨some e.2, props, propertyHash (f.heap e.2).props⟩

theorem not_replayed (h : (cacheAnswer d a f).answers = false) : ¬ Replayed d a f := by
  rintro ⟨x, hx⟩
  rw [answers_of_ok hx] at h
  cases h

theorem armBest_written (best : Assignment) (layers : List LayerId) (heap : Heap) :
    ∃ a', Written a a' ∧ (a.armBest d f heap best layers).allocator =
      { a'.recordStack (d.stackedZpos (d.crtcIndex f.output.crtcId) f.output heap best)
          (f.output.anyComposited (f.output.markUnassigned (assignPlanes heap best.entries))) with
        search := { a'.search with
          canvasPlane := if f.output.anyComposited
              (f.output.markUnassigned (assignPlanes heap best.entries)) then
            a'.search.canvasPlane else none }
        previousAllocation := best
        previousAllocationValid := !best.isEmpty
        previousCanvasPlane := if f.output.anyComposited
            (f.output.markUnassigned (assignPlanes heap best.entries)) then
          a'.search.canvasPlane else none } := by
  simp only [armBest, disablePlanes_ite]
  exact ⟨_, (applyAssignment_written _ _ _ _).trans (disablePlanes_written _ _), rfl⟩

theorem searchSpec (hreal : f.testOnly = false) (h : (cacheAnswer d a f).answers = false) :
    SearchSpec d a f := by
  obtain ⟨⟨_, _, hatt, -⟩, ⟨hans, -⟩ | ⟨-, diag, happ, -⟩⟩ := apply_of_not_replayed (not_replayed h)
  · rw [h] at hans
    cases hans
  · obtain ⟨_, ⟨_, _, _, rfl, -⟩, harm⟩ := armBest_written (d := d) (f := f)
      (a := (cacheAnswer d a f).allocator.setSearch (searchResult d a f).2) (searchResult d a f).1
      (sortLayersByZpos d f.resetHeap f.output.layers) f.resetHeap
    obtain ⟨parked, hspec, -⟩ := armBest_spec (d := d)
      (a := (cacheAnswer d a f).allocator.setSearch (searchResult d a f).2) hreal
      (searchResult d a f).1 (sortLayersByZpos d f.resetHeap f.output.layers)
      (fun _ => searched_unreserved (a := a))
    rw [← searched_eq] at harm hspec
    have hcount : (cacheAnswer d a f).allocator.committedLayerCount = f.output.layers.length := by
      obtain ⟨_, hbegin⟩ := beginFrame_eq d a f
      rw [hatt, hbegin]
      simp [hreal]
    refine ⟨?_, ?_, ?_, ?_, ?_, ?_⟩
    · rw [happ]
      rfl
    · rw [happ]
      rfl
    · rw [happ]
      exact (congrArg (·.committedLayerCount) harm).trans hcount
    · rw [happ]
      exact congrArg (·.previousCanvasPlane) harm
    · rw [happ]
      rfl
    · intro e he
      have hsnap := hspec.snapshot e he
      rw [snapshotOf, resetHeap_props] at hsnap
      rw [happ]
      exact ⟨_, hsnap⟩

theorem mem_of_searchResult {e : PlaneId × LayerId} (he : e ∈ (searchResult d a f).1.entries) :
    e.2 ∈ f.output.layers ∧ (f.heap e.2).externallyBound = false ∧
      (f.heap e.2).pinned = false := by
  obtain ⟨hl, -⟩ := SearchContext.searchAssignment_placed _ _ e.1 e.2 he
  obtain ⟨hl, hheld⟩ := List.mem_filter.mp hl
  simp only [searchContext, context, resetHeap_externallyBound, resetHeap_pinned,
    Bool.and_eq_true, Bool.not_eq_true'] at hheld
  exact ⟨(d.stdSort.perm _ _).mem_iff.mp hl, hheld⟩

/-- A scene layer is left to the composition exactly when the search has no plane for it. -/
theorem placedHeap_needsComposition {l : LayerId} (hl : l ∈ f.output.layers)
    (hs : f.isScene l = true) :
    (placedHeap d a f l).needsComposition = !(searchResult d a f).1.hasLayer l :=
  placed_needsComposition _ hl hs

end Allocator

/-! ### The next frame -/

/-- `g` shows what `f` showed, with new framebuffers and fences; `r` is what `f` left behind. -/
structure Unchanged (f : Frame) (r : Applied) (g : Frame) : Prop where
  real : g.testOnly = false
  crtcId : g.output.crtcId = f.output.crtcId
  compositionLayer : g.output.compositionLayer = f.output.compositionLayer
  layers : g.output.layers.Perm f.output.layers
  reserved : ∀ p, p ∈ g.reserved ↔ p ∈ f.reserved
  placement : ∀ l ∈ f.output.layers, ∀ t, propClass t = .placement →
    (g.heap l).props t = (f.heap l).props t
  externallyBound : ∀ l ∈ f.output.layers, (g.heap l).externallyBound = (f.heap l).externallyBound
  pinned : ∀ l ∈ f.output.layers, (g.heap l).pinned = (f.heap l).pinned
  needsComposition : ∀ l ∈ f.output.layers,
    (g.heap l).needsComposition = (r.heap l).needsComposition
  assignedPlane : ∀ l ∈ f.output.layers, (g.heap l).assignedPlane = (r.heap l).assignedPlane

namespace Unchanged

variable {f g : Frame} {r : Applied}

theorem isScene (h : Unchanged f r g) {l : LayerId} (hl : l ∈ f.output.layers) :
    g.isScene l = f.isScene l := by
  simp only [Frame.isScene, Output.isCompositionLayer, h.compositionLayer, h.externallyBound l hl,
    h.pinned l hl]

theorem hash (h : Unchanged f r g) {l : LayerId} (hl : l ∈ f.output.layers) :
    propertyHash (g.heap l).props = propertyHash (f.heap l).props :=
  propertyHash_congr (h.placement l hl)

theorem zpos (h : Unchanged f r g) {l : LayerId} (hl : l ∈ f.output.layers) :
    (g.heap l).zpos = (f.heap l).zpos :=
  h.placement l hl .zpos rfl

theorem crtcRect (h : Unchanged f r g) {l : LayerId} (hl : l ∈ f.output.layers) :
    (g.heap l).crtcRect = (f.heap l).crtcRect := by
  have hp := h.placement l hl
  unfold Layer.crtcRect Layer.width Layer.height
  rw [hp .crtcX rfl, hp .crtcY rfl, hp .crtcW rfl, hp .crtcH rfl]

theorem layersIntersect (h : Unchanged f r g) {l l' : LayerId} (hl : l ∈ f.output.layers)
    (hl' : l' ∈ f.output.layers) :
    layersIntersect (g.heap l) (g.heap l') = Planes.layersIntersect (f.heap l) (f.heap l') := by
  unfold Planes.layersIntersect
  rw [h.crtcRect hl, h.crtcRect hl']

end Unchanged

namespace Allocator

variable {d : Device} {a : Allocator} {f g : Frame}

/-! ### The FB-only path is tried -/

theorem forceSearch_of_unchanged (hreal : f.testOnly = false)
    (hans : (cacheAnswer d a f).answers = false) (h : Unchanged f (a.apply d f) g) :
    (a.apply d f).allocator.forceSearch g = false := by
  have hs := searchSpec hreal hans
  have hnew : (g.sceneLayers.any ((a.apply d f).allocator.isNewLayer g)) = false := by
    rw [List.any_eq_false]
    intro l hl
    obtain ⟨hl, hscene⟩ := List.mem_filter.mp hl
    have hl := h.layers.mem_iff.mp hl
    rw [h.isScene hl] at hscene
    have hneeds : (g.heap l).needsComposition = !(searchResult d a f).1.hasLayer l := by
      rw [h.needsComposition l hl, hs.heap, markClean_needsComposition, parkHeap_needsComposition,
        placedHeap_needsComposition hl hscene]
    simp only [isNewLayer, hs.assignment, hneeds]
    cases (searchResult d a f).1.hasLayer l <;> simp
  simp [forceSearch, hnew, hs.layerCount, h.layers.length_eq]

theorem isFbOnlyFrame_of_unchanged (hreal : f.testOnly = false)
    (hans : (cacheAnswer d a f).answers = false)
    (hne : (a.apply d f).allocator.previousAllocation.isEmpty = false)
    (h : Unchanged f (a.apply d f) g) :
    ((a.apply d f).allocator.beginFrame d g).isFbOnlyFrame g = true := by
  have hs := searchSpec hreal hans
  obtain ⟨_, hbegin⟩ := beginFrame_eq d (a.apply d f).allocator g
  simp only [isFbOnlyFrame, hbegin, hne, Bool.not_false, Bool.true_and]
  rw [hs.assignment, List.all_eq_true]
  intro e he
  have hl := (mem_of_searchResult he).1
  obtain ⟨props, hsnap⟩ := hs.snapshot e he
  have hin : g.output.layers.contains e.2 = true := by
    simpa using h.layers.mem_iff.mpr hl
  simp only [hin, hsnap, Option.any_some, h.hash hl]
  simp

/-- No layer has left, so nothing is pruned. -/
theorem prunePrevious_of_unchanged (hreal : f.testOnly = false)
    (hans : (cacheAnswer d a f).answers = false) (h : Unchanged f (a.apply d f) g) :
    ((a.apply d f).allocator.prunePrevious g).previousAllocation = (searchResult d a f).1 := by
  have hs := searchSpec hreal hans
  simp only [prunePrevious, hs.assignment]
  apply Table.filter_eq_self
  intro e he
  simpa using h.layers.mem_iff.mpr (mem_of_searchResult he).1

/-! ### The warm-start rules -/

theorem resetHeap_zpos (l : LayerId) : (g.resetHeap l).zpos = (g.heap l).zpos := by
  simp [Layer.zpos]

theorem layersIntersect_resetHeap (l l' : LayerId) :
    layersIntersect (g.resetHeap l) (g.resetHeap l') = layersIntersect (g.heap l) (g.heap l') := by
  simp [layersIntersect, Layer.crtcRect, Layer.width, Layer.height]

theorem pinnedPlane_resetHeap (b : Assignment) (l : LayerId) :
    Output.pinnedPlane g.resetHeap b l = Output.pinnedPlane g.heap b l := by
  unfold Output.pinnedPlane
  rw [resetHeap_pinned]
  split
  · rename_i hp
    unfold Frame.resetHeap
    split
    · simp
    · rfl
  · rfl

theorem canvasBounds_resetHeap (b : Assignment) :
    g.output.canvasBounds g.resetHeap b = g.output.canvasBounds g.heap b := by
  simp only [Output.canvasBounds, Output.placedLayers, Output.compositedLayers,
    pinnedPlane_resetHeap, resetHeap_zpos, layersIntersect_resetHeap, resetHeap_externallyBound,
    resetHeap_pinned]

theorem stackPosition_eq (o : Output) (heap : Heap) (b : Assignment) (canvas : Option PlaneId)
    (l : LayerId) : o.stackPosition heap b canvas l =
      if o.isCompositionLayer l || (heap l).externallyBound || (heap l).pinned then none
      else some ((heap l).zpos.getD 0, SearchContext.seat b canvas l) := by
  unfold Output.stackPosition SearchContext.seat
  split
  · rfl
  · cases b.entries.find? fun e => e.2 = l <;> rfl

theorem orderedPair_of_below {x y : UInt64 × Option PlaneId × Bool}
    (h : x.1 < y.1 → SearchContext.Below x.2 y.2) : Output.orderedPair x y = true := by
  unfold Output.orderedPair
  by_cases hz : x.1 ≥ y.1
  · simp [hz]
  · obtain ⟨p, q, hp, hq, hpq⟩ := h (UInt64.not_le.mp hz)
    rw [hp, hq]
    rcases hpq with hlt | ⟨rfl, hx, hy⟩
    · have hle : ¬ q < p := Nat.lt_asymm hlt
      simp [hle, Nat.ne_of_lt hlt]
    · simp [hx, hy]

/-- Where planes stack by id, what a search arms is in plane order on the next frame. -/
theorem planeOrder_of_unchanged (hreal : f.testOnly = false)
    (hans : (cacheAnswer d a f).answers = false)
    (hne : (a.apply d f).allocator.previousAllocation.isEmpty = false)
    (h : Unchanged f (a.apply d f) g)
    (hz : d.stacksByPlaneId (d.crtcIndex f.output.crtcId) = true) :
    g.output.planeOrderConsistent g.resetHeap (searchResult d a f).1
      (a.apply d f).allocator.previousCanvasPlane = true := by
  have hs := searchSpec hreal hans
  rw [hs.assignment] at hne
  have hsorted : (sortLayersByZpos d f.resetHeap f.output.layers).Pairwise fun l l' =>
      ¬ (f.resetHeap l').zpos.getD 0 < (f.resetHeap l).zpos.getD 0 := by
    have hsort := d.stdSort.sorted
      (fun l l' : LayerId => (f.resetHeap l).zpos.getD 0 < (f.resetHeap l').zpos.getD 0)
      (fun l l' hlt => decide_eq_false (UInt64.lt_asymm (of_decide_eq_true hlt)))
      (fun l l' l'' h₁ h₂ => decide_eq_false (UInt64.not_lt.mpr (UInt64.le_trans
        (UInt64.not_lt.mp (of_decide_eq_false h₂)) (UInt64.not_lt.mp (of_decide_eq_false h₁)))))
      f.output.layers
    exact hsort.imp of_decide_eq_false
  have hnd : (sortLayersByZpos d f.resetHeap f.output.layers).Nodup :=
    (d.stdSort.perm _ _).nodup_iff.mpr f.output.nodupLayers
  -- every scene layer of the next frame, as the search saw it
  have hscene : ∀ x ∈ g.output.layers.filterMap (g.output.stackPosition g.resetHeap
      (searchResult d a f).1 (a.apply d f).allocator.previousCanvasPlane),
      ∃ l ∈ (searchContext d a f).sceneLayers, l ∈ f.output.layers ∧ f.isScene l = true ∧
        x = ((f.resetHeap l).zpos.getD 0, SearchContext.seat (searchResult d a f).1
          (a.apply d f).allocator.previousCanvasPlane l) := by
    intro x hx
    obtain ⟨l, hl, hx⟩ := List.mem_filterMap.mp hx
    have hl := h.layers.mem_iff.mp hl
    rw [stackPosition_eq] at hx
    split at hx
    · cases hx
    · rename_i hno
      have hgs : g.isScene l = true := by
        simpa [Frame.isScene, and_assoc] using hno
      rw [h.isScene hl] at hgs
      refine ⟨l, ?_, hl, hgs, ?_⟩
      · refine List.mem_filter.mpr ⟨(d.stdSort.perm _ _).mem_iff.mpr hl, ?_⟩
        simpa [searchContext, context, Frame.isScene] using hgs
      · rw [← Option.some.inj hx, resetHeap_zpos, resetHeap_zpos, h.zpos hl]
  -- the canvas the search chose, unless nothing composites
  have hseat : ∀ l ∈ f.output.layers, f.isScene l = true →
      SearchContext.seat (searchResult d a f).1 (a.apply d f).allocator.previousCanvasPlane l =
        SearchContext.seat (searchResult d a f).1 (searchResult d a f).2.canvasPlane l := by
    intro l hl hls
    rw [hs.canvas]
    split
    · rfl
    · rename_i hnone
      apply SearchContext.seat_of_hasLayer
      have hneeds := placedHeap_needsComposition (d := d) (a := a) hl hls
      rw [Output.anyComposited, Bool.not_eq_true, List.any_eq_false] at hnone
      have := hnone l hl
      rw [hneeds] at this
      simpa using this
  unfold Output.planeOrderConsistent
  simp only [List.all_eq_true]
  intro x hx y hy
  obtain ⟨l, hl, hlf, hls, rfl⟩ := hscene x hx
  obtain ⟨l', hl', hlf', hls', rfl⟩ := hscene y hy
  apply orderedPair_of_below
  intro hlt
  dsimp only at hlt ⊢
  rw [hseat l hlf hls, hseat l' hlf' hls']
  exact SearchContext.searchAssignment_below (c := searchContext d a f) hz hsorted hnd hne hl hl'
    hlt

/-- The global rules a search does not look after: planes stack by id, or the placed layers that
do not overlap are in order too, no virtual plane is without its parent, and one canvas slot suits
every placed layer. -/
def PassesGlobalRules (d : Device) (a : Allocator) (g : Frame) : Prop :=
  d.stacksByPlaneId (d.crtcIndex g.output.crtcId) = true ∨
    ((∀ e ∈ a.previousAllocation.entries, ∀ e' ∈ a.previousAllocation.entries,
        layersIntersect (g.heap e.2) (g.heap e'.2) = false → d.inOrder g.heap e e' = true) ∧
      d.multirectComplete a.previousAllocation = true ∧
      (g.output.canvasBounds g.heap a.previousAllocation).feasible = true)

theorem multirectComplete_of_plain {b : Assignment}
    (h : ∀ e ∈ b.entries, ∃ q, d.registry.capsOf e.1 = some q ∧ q.multirectParent = none ∧
      q.zposMin = none) : d.multirectComplete b = true := by
  rw [Device.multirectComplete, List.all_eq_true]
  intro e he
  obtain ⟨q, hq, hv, -⟩ := h e he
  simp [Device.fitsMultirect, hq, multirectPairingOk, hv]

/-- Without a zpos of their own, planes show layers where these ask to be. -/
theorem stackingConsistent_of_plain {heap : Heap} {b : Assignment}
    (h : ∀ e ∈ b.entries, ∃ q, d.registry.capsOf e.1 = some q ∧ q.multirectParent = none ∧
      q.zposMin = none) : d.stackingConsistent heap b = true := by
  rw [Device.stackingConsistent_iff]
  intro e he e' he'
  obtain ⟨q, hq, -, hz⟩ := h e he
  obtain ⟨q', hq', -, hz'⟩ := h e' he'
  have heff : ∀ z, effectiveZpos q z = z := by simp [effectiveZpos, zposFixed, hz]
  have heff' : ∀ z, effectiveZpos q' z = z := by simp [effectiveZpos, zposFixed, hz']
  unfold Device.inOrder stackingConsistent
  rw [hq, hq', Option.all_some, Option.all_some, heff, heff']
  rw [Bool.or_eq_true]
  right
  split
  · split
    · rfl
    · rename_i hne
      simp [hne]
  · rfl

theorem warmStartOk_iff (hreal : f.testOnly = false) (hans : (cacheAnswer d a f).answers = false)
    (hne : (a.apply d f).allocator.previousAllocation.isEmpty = false)
    (h : Unchanged f (a.apply d f) g) :
    (((a.apply d f).allocator.beginFrame d g).prunePrevious g).warmStartOk d g g.resetHeap = true ↔
      PassesGlobalRules d (a.apply d f).allocator g := by
  have hs := searchSpec hreal hans
  have hprev : (((a.apply d f).allocator.beginFrame d g).prunePrevious g).previousAllocation =
      (searchResult d a f).1 :=
    (beginFrame_prune d _ g).trans (prunePrevious_of_unchanged hreal hans h)
  have hcanvas : (((a.apply d f).allocator.beginFrame d g).prunePrevious g).previousCanvasPlane =
      (a.apply d f).allocator.previousCanvasPlane := by
    obtain ⟨_, hbegin⟩ := beginFrame_eq d (a.apply d f).allocator g
    rw [hbegin]
    rfl
  have hmem : ∀ e ∈ (searchResult d a f).1.entries, e.2 ∈ f.output.layers :=
    fun e he => (mem_of_searchResult he).1
  have hne' := hne
  rw [hs.assignment] at hne'
  unfold warmStartOk PassesGlobalRules
  dsimp only
  rw [hprev, hcanvas, hs.assignment, h.crtcId, hne']
  cases hz : d.stacksByPlaneId (d.crtcIndex f.output.crtcId) with
  | true =>
    have hplain : ∀ e ∈ (searchResult d a f).1.entries, ∃ q, d.registry.capsOf e.1 = some q ∧
        q.multirectParent = none ∧ q.zposMin = none :=
      fun e he => SearchContext.searchAssignment_plain (c := searchContext d a f) hz he
    simp [stackingConsistent_of_plain hplain, multirectComplete_of_plain hplain,
      planeOrder_of_unchanged hreal hans hne h hz]
  | false =>
    have hoverlap : ∀ e ∈ (searchResult d a f).1.entries, ∀ e' ∈ (searchResult d a f).1.entries,
        layersIntersect (g.heap e.2) (g.heap e'.2) = true → d.inOrder g.heap e e' = true := by
      intro e he e' he' hi
      rw [h.layersIntersect (hmem e he) (hmem e' he'), ← layersIntersect_resetHeap] at hi
      have hin := SearchContext.searchAssignment_overlapsStack (c := searchContext d a f) _ hz e he
        e' he' hi
      rwa [Device.inOrder_congr ((h.zpos (hmem e he)).trans (resetHeap_zpos _).symm)
        ((h.zpos (hmem e' he')).trans (resetHeap_zpos _).symm)]
    have hstack : d.stackingConsistent g.resetHeap (searchResult d a f).1 = true ↔
        ∀ e ∈ (searchResult d a f).1.entries, ∀ e' ∈ (searchResult d a f).1.entries,
          layersIntersect (g.heap e.2) (g.heap e'.2) = false → d.inOrder g.heap e e' = true := by
      rw [Device.stackingConsistent_iff]
      constructor
      · intro hall e he e' he' _
        rw [← Device.inOrder_congr (resetHeap_zpos _) (resetHeap_zpos _)]
        exact hall e he e' he'
      · intro hall e he e' he'
        rw [Device.inOrder_congr (resetHeap_zpos _) (resetHeap_zpos _)]
        cases hi : layersIntersect (g.heap e.2) (g.heap e'.2) with
        | true => exact hoverlap e he e' he' hi
        | false => exact hall e he e' he' hi
    simp only [Bool.not_false, Bool.true_and, Bool.and_eq_true, hstack, Bool.false_eq_true,
      false_or, if_false, canvasBounds_resetHeap, and_assoc]

/-! ### Reuse -/

/-- The next frame is answered by the FB-only path, with the same plane for every layer. -/
structure Reuses (d : Device) (r : Applied) (g : Frame) : Prop where
  result : (r.allocator.apply d g).result = .ok r.allocator.previousAllocation.size
  armed : (r.allocator.apply d g).armed = r.allocator.previousAllocation.entries
  samePlanes : ∀ l ∈ g.output.layers, g.output.isCompositionLayer l = false →
    ((r.allocator.apply d g).heap l).assignedPlane = (r.heap l).assignedPlane
  fbDelta : (r.allocator.apply d g).allocator.diagnostics.fbDeltaFastPath = true
  noTests : (r.allocator.apply d g).allocator.diagnostics.testCommitsIssued = 0

theorem assignPlanes_assignedPlane {es : List (PlaneId × LayerId)} {heap heap' : Heap} {l : LayerId}
    (h : (heap l).assignedPlane = (heap' l).assignedPlane) :
    (assignPlanes heap es l).assignedPlane = (assignPlanes heap' es l).assignedPlane := by
  induction es generalizing heap heap' with
  | nil => exact h
  | cons e es ih =>
    apply ih
    by_cases hl : l = e.2
    · rw [hl, Function.update_self, Function.update_self]
    · rw [Function.update_of_ne hl, Function.update_of_ne hl]
      exact h

/-- A layer that is not the canvas has the plane the search gave it, or the one it was pinned to. -/
theorem searched_assignedPlane (hreal : f.testOnly = false)
    (hans : (cacheAnswer d a f).answers = false) {l : LayerId}
    (hc : f.output.isCompositionLayer l = false) :
    ((a.apply d f).heap l).assignedPlane =
      (assignPlanes f.resetHeap (searchResult d a f).1.entries l).assignedPlane := by
  have hpark : ∀ e, searchParks d a f = some e → e.1 ≠ l := by
    intro e he hel
    simp [Output.isCompositionLayer, compositionLayer_of_parks he, hel] at hc
  rw [(searchSpec hreal hans).heap, markClean_assignedPlane, parkHeap_of_ne hpark, placedHeap,
    markUnassigned_assignedPlane]

theorem resetHeap_assignedPlane_of_unchanged (hreal : f.testOnly = false)
    (hans : (cacheAnswer d a f).answers = false) (h : Unchanged f (a.apply d f) g) {l : LayerId}
    (hl : l ∈ f.output.layers) (hc : f.output.isCompositionLayer l = false) :
    (g.resetHeap l).assignedPlane = (f.resetHeap l).assignedPlane := by
  have hg := h.layers.mem_iff.mpr hl
  simp only [Frame.resetHeap, hl, hg, if_true, h.pinned l hl, h.assignedPlane l hl]
  cases hp : (f.heap l).pinned with
  | false => rfl
  | true =>
    -- a pinned layer is never in the assignment
    have hnot : l ∉ (searchResult d a f).1.entries.map Prod.snd := by
      intro hm
      obtain ⟨e, he, rfl⟩ := List.mem_map.mp hm
      have := (mem_of_searchResult he).2.2
      rw [hp] at this
      cases this
    rw [if_pos rfl, if_pos rfl, searched_assignedPlane hreal hans hc, assignPlanes_of_not_mem hnot]
    simp [Frame.resetHeap, hl, hp]

theorem attempted_diagnostics {a' : Allocator} (h : Attempted f a a') :
    a'.diagnostics = a.diagnostics := by
  obtain ⟨_, _, rfl, -⟩ := h
  rfl

/-- Only the FB-only path raises its flag. -/
theorem fbDelta_of_searched (h : (cacheAnswer d a f).answers = false) :
    (a.apply d f).allocator.diagnostics.fbDeltaFastPath = false := by
  obtain ⟨hatt, ⟨hans, -⟩ | ⟨-, diag, happ, hdiag⟩⟩ := apply_of_not_replayed (not_replayed h)
  · rw [h] at hans
    cases hans
  · obtain ⟨a', ⟨_, _, diag', rfl, hw⟩, harm⟩ := armBest_written (d := d) (f := f)
      (a := (cacheAnswer d a f).allocator.setSearch (searchResult d a f).2) (searchResult d a f).1
      (sortLayersByZpos d f.resetHeap f.output.layers) f.resetHeap
    rw [← searched_eq] at harm
    obtain ⟨_, hbegin⟩ := beginFrame_eq d a f
    have hfalse : (cacheAnswer d a f).allocator.diagnostics.fbDeltaFastPath = false := by
      rw [attempted_diagnostics hatt, hbegin]
    rw [happ]
    refine hdiag.trans ((congrArg (·.diagnostics.fbDeltaFastPath) harm).trans ?_)
    exact hw.trans hfalse

/-- The frame after a search is answered by the FB-only path exactly when the assignment the search
armed passes the global rules. -/
theorem reuses_iff (d : Device) (a : Allocator) (f g : Frame) (hreal : f.testOnly = false)
    (hans : (cacheAnswer d a f).answers = false)
    (hne : (a.apply d f).allocator.previousAllocation.isEmpty = false)
    (h : Unchanged f (a.apply d f) g) :
    Reuses d (a.apply d f) g ↔ PassesGlobalRules d (a.apply d f).allocator g := by
  have hs := searchSpec hreal hans
  rw [← warmStartOk_iff hreal hans hne h]
  constructor
  · intro hr
    by_cases hrep : Replayed d (a.apply d f).allocator g
    · obtain ⟨a₁, hreplay, -⟩ := apply_of_replayed hrep
      have hwarm := hreplay.warm
      have hprev : a₁.previousAllocation =
          (((a.apply d f).allocator.beginFrame d g).prunePrevious g).previousAllocation :=
        hreplay.pruned
      obtain ⟨_, _, rfl, -⟩ := hreplay.attempted
      dsimp only at hprev
      subst hprev
      exact hwarm
    · obtain ⟨-, ⟨-, diag, happ⟩ | ⟨hno, -⟩⟩ := apply_of_not_replayed hrep
      · have := hr.result
        rw [happ] at this
        cases this
      · have := hr.fbDelta
        rw [fbDelta_of_searched hno] at this
        cases this
  · intro hwarm
    have hvalid : (a.apply d f).allocator.previousAllocationValid = true := by
      rw [hs.valid, ← hs.assignment, hne]
      rfl
    have hres : ∀ e ∈ (a.apply d f).allocator.previousAllocation.entries, e.1 ∉ g.reserved := by
      intro e he
      rw [hs.assignment] at he
      rw [h.reserved]
      exact searched_unreserved (a := a) he
    have hfb := apply_of_fbOnly h.real hvalid (forceSearch_of_unchanged hreal hans h)
      (isFbOnlyFrame_of_unchanged hreal hans hne h) hres hwarm
    have hprev := (prunePrevious_of_unchanged hreal hans h).trans hs.assignment.symm
    refine ⟨by rw [hfb.result, hprev], by rw [hfb.armed, hprev], ?_, hfb.fbDelta, hfb.noTests⟩
    intro l hl hc
    have hl := h.layers.mem_iff.mp hl
    have hc' : f.output.isCompositionLayer l = false := by
      simpa [Output.isCompositionLayer, h.compositionLayer] using hc
    rw [hfb.heap, hprev, markClean_assignedPlane, markUnassigned_assignedPlane, hs.assignment,
      searched_assignedPlane hreal hans hc']
    exact assignPlanes_assignedPlane (resetHeap_assignedPlane_of_unchanged hreal hans h hl hc')

end Allocator

namespace Allocator

variable {d : Device} {a : Allocator} {f : Frame}

/-! ### New framebuffers -/

/-- The same scene with new framebuffers. -/
def refreshed (f : Frame) (r : Applied) (fb : UInt64) : Frame :=
  { f with heap := fun l => (r.heap l).setProperty .fbId fb }

theorem searched_kept (hreal : f.testOnly = false) (hans : (cacheAnswer d a f).answers = false)
    (l : LayerId) : ((a.apply d f).heap l).props = (f.heap l).props ∧
      ((a.apply d f).heap l).externallyBound = (f.heap l).externallyBound ∧
      ((a.apply d f).heap l).pinned = (f.heap l).pinned := by
  have hclean : ∀ heap : Heap, (f.output.markClean heap l).props = (heap l).props ∧
      (f.output.markClean heap l).externallyBound = (heap l).externallyBound ∧
      (f.output.markClean heap l).pinned = (heap l).pinned := by
    intro heap
    unfold Output.markClean
    split <;> exact ⟨rfl, rfl, rfl⟩
  have hpark : ∀ heap : Heap, (parkHeap heap (searchParks d a f) l).props = (heap l).props ∧
      (parkHeap heap (searchParks d a f) l).externallyBound = (heap l).externallyBound ∧
      (parkHeap heap (searchParks d a f) l).pinned = (heap l).pinned := by
    intro heap
    cases searchParks d a f with
    | none => exact ⟨rfl, rfl, rfl⟩
    | some e =>
      obtain ⟨l', p⟩ := e
      simp only [parkHeap]
      by_cases h : l = l'
      · simp [h]
      · simp [h]
  have hplaced : (placedHeap d a f l).props = (f.heap l).props ∧
      (placedHeap d a f l).externallyBound = (f.heap l).externallyBound ∧
      (placedHeap d a f l).pinned = (f.heap l).pinned := by
    unfold placedHeap Output.markUnassigned
    rw [assignPlanes_eq]
    split <;> simp
  rw [(searchSpec hreal hans).heap]
  exact ⟨((hclean _).1.trans (hpark _).1).trans hplaced.1,
    ((hclean _).2.1.trans (hpark _).2.1).trans hplaced.2.1,
    ((hclean _).2.2.trans (hpark _).2.2).trans hplaced.2.2⟩

theorem unchanged_refreshed (hreal : f.testOnly = false)
    (hans : (cacheAnswer d a f).answers = false) (fb : UInt64) :
    Unchanged f (a.apply d f) (refreshed f (a.apply d f) fb) where
  real := hreal
  crtcId := rfl
  compositionLayer := rfl
  layers := List.Perm.refl _
  reserved _ := Iff.rfl
  placement l _ t ht := by
    have hne : t ≠ .fbId := by
      rintro rfl
      cases ht
    simp [refreshed, Layer.setProperty, hne, (searched_kept hreal hans l).1]
  externallyBound l _ := (searched_kept hreal hans l).2.1
  pinned l _ := (searched_kept hreal hans l).2.2
  needsComposition _ _ := rfl
  assignedPlane _ _ := rfl

end Allocator

/-! ### Two layers apart, stacked the wrong way round -/

namespace Controller

/-- Layer 0 at zpos `z`, and layer 1 at zpos 3 a hundred pixels to its right. -/
def sideBySide (z : UInt64) : Frame :=
  frame [0, 1] (fun l => if l = 0 then layer 0 z 11 else layer 100 3 12) nodup_pair

/-- The frame after the search. -/
def nextFrame (z : UInt64) : Frame :=
  Allocator.refreshed (sideBySide z) (Allocator.apply device {} (sideBySide z)) 13

/-- Layer 0 is searched onto the PRIMARY at slot 0, below layer 1, where it asks to be. -/
theorem reuses_sideBySide :
    (Allocator.cacheAnswer device {} (sideBySide 0)).answers = false ∧
      (Allocator.apply device {} (sideBySide 0)).allocator.previousAllocation.isEmpty = false ∧
      Allocator.Reuses device (Allocator.apply device {} (sideBySide 0)) (nextFrame 0) := by
  have hans : (Allocator.cacheAnswer device {} (sideBySide 0)).answers = false := by
    decide +kernel
  have hne : (Allocator.apply device {}
      (sideBySide 0)).allocator.previousAllocation.isEmpty = false := by
    decide +kernel
  have hrules : Allocator.PassesGlobalRules device
      (Allocator.apply device {} (sideBySide 0)).allocator (nextFrame 0) := by
    right
    decide +kernel
  exact ⟨hans, hne, (Allocator.reuses_iff device {} (sideBySide 0) (nextFrame 0) rfl hans hne
    (Allocator.unchanged_refreshed rfl hans 13)).mpr hrules⟩

/-- A layer that asks to be on top, searched onto the PRIMARY: the next frame searches again. -/
theorem not_reuses :
    (Allocator.cacheAnswer device {} (sideBySide 5)).answers = false ∧
      (Allocator.apply device {} (sideBySide 5)).allocator.previousAllocation.isEmpty = false ∧
      Unchanged (sideBySide 5) (Allocator.apply device {} (sideBySide 5)) (nextFrame 5) ∧
      ¬ Allocator.Reuses device (Allocator.apply device {} (sideBySide 5)) (nextFrame 5) := by
  have hans : (Allocator.cacheAnswer device {} (sideBySide 5)).answers = false := by
    decide +kernel
  have hno : ((Allocator.apply device {} (sideBySide 5)).allocator.apply device
      (nextFrame 5)).allocator.diagnostics.testCommitsIssued ≠ 0 := by
    decide +kernel
  exact ⟨hans, by decide +kernel, Allocator.unchanged_refreshed rfl hans 13, fun h => hno h.noTests⟩

end Controller

end DrmCxx.Planes
