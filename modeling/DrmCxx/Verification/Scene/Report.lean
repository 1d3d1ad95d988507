import DrmCxx.Verification.Scene.Composition

/-!
# The tallies of a commit report

A report counts the planes the allocator lit, the streams, the layers handed to an armed canvas and
the layers without a frame, and calls what is left unassigned; its placements say where each
acquired layer is. The two agree when the allocation has no plane for a layer that is not on it, the
streams are the layers the scene pinned itself, a composition that gives up has no canvas plane to
report, and the canvas draws what it is handed.
-/

namespace DrmCxx.Scene

open Lib Modeset
open Planes (PlaneId PlaneCapabilities Flags Heap)

/-! ### The report -/

/-- The placements of a kind. -/
def CommitReport.countOf (r : CommitReport) (k : PlacementKind) : ℕ :=
  r.placements.countP (·.placement = k)

/-- The layers of a frame bound to a stream. -/
def streamBound (as : List AcquiredLayer) : List AcquiredLayer :=
  as.filter (·.slot.streamPinnedPlaneId.isSome)

namespace BuiltFrame

/-- The layers counted as assigned: those the allocation has planes for, and the streams. -/
def assignedLayers (f : BuiltFrame) (left : SceneState) : List Planes.LayerId :=
  left.allocator.previousAllocation.values ++ (streamBound f.acquisitions).map (·.layer)

/-- The layers counted as composited: those handed to the canvas when it is armed. -/
def compositedLayers (f : BuiltFrame) : List Planes.LayerId :=
  if f.canvasPlane.isSome then f.cached.map (·.layer) else []

/-- The layers with a placement of a kind. -/
def layersOf (f : BuiltFrame) (k : PlacementKind) : List Planes.LayerId :=
  (f.acquisitions.filter fun a =>
    f.report.placements.any fun e => e.handle = a.handle && e.placement = k).map (·.layer)

end BuiltFrame

/-- The layers a build skips for lack of a frame. -/
def SceneState.skippedLayers (s : SceneState) (q : FrameAnswers) : List Planes.LayerId :=
  (SceneState.waiting q s.slots.zipIdx).map (·.1.planesLayer)

/-- Their handles. -/
def SceneState.skippedHandles (s : SceneState) (q : FrameAnswers) : List ℕ :=
  (SceneState.waiting q s.slots.zipIdx).map (·.2 + 1)

/-- The report of a successful build adds up: every count is the number of placements of its kind,
no layer is placed twice, or placed and skipped, none is counted twice, and a layer is reported
composited when its pixels are on the canvas armed in the frame. -/
structure AddsUp (s : SceneState) (q : FrameAnswers) (left : SceneState) (f : BuiltFrame) :
    Prop where
  total : f.report.layersTotal = f.report.layersAssigned + f.report.layersComposited +
    f.report.layersUnassigned + f.report.layersSkippedNoFrame
  assigned : f.report.layersAssigned = f.report.countOf .assignedToPlane
  composited : f.report.layersComposited = f.report.countOf .composited
  unassigned : f.report.layersUnassigned = f.report.countOf .unassigned
  skipped : f.report.layersSkippedNoFrame = (s.skippedHandles q).length
  once : (f.report.placements.map (·.handle) ++ s.skippedHandles q).Nodup
  apart : (f.assignedLayers left ++ f.compositedLayers ++ f.layersOf .unassigned ++
    s.skippedLayers q).Nodup
  onCanvas : ∀ e ∈ f.report.placements, e.placement = .composited →
    f.canvasPlane = some e.planeId ∧ ∃ t, left.canvas.target = some t ∧ e.handle ∈ t.painted

namespace SceneState

variable (dev : SceneDevice) (s : SceneState) (q : FrameAnswers) (as : List AcquiredLayer)

/-- The allocation of a settled placement has a plane for the layer. -/
def allotted (w : Placing) (l : Planes.LayerId) : Bool :=
  w.scene.allocator.previousAllocation.hasLayer l

/-- The scene pinned the layer to a plane outside the allocation. -/
def pinnedAside (w : Placing) (a : AcquiredLayer) : Bool :=
  !allotted w a.layer && (w.scene.heap a.layer).pinned

/-- A settled placement whose layers are counted where they are placed. -/
structure TalliedAt (dev : SceneDevice) (s : SceneState) (q : FrameAnswers)
    (as : List AcquiredLayer) (w : Placing) : Prop where
  /-- No layer skipped for lack of a frame keeps a plane. -/
  skipped : ∀ l ∈ s.skippedLayers q, allotted w l = false
  /-- No layer of the allocation lost its plane to a rejected pin. -/
  upheld : ∀ a ∈ as, allotted w a.layer = true → (w.scene.heap a.layer).needsComposition = false
  /-- No layer is a stream but for those pinned aside, and all of those are streams. -/
  streams : ∀ a ∈ as, a.slot.streamPinnedPlaneId.isSome = pinnedAside w a
  /-- A composition that gives up remembers no canvas plane. -/
  forgotten : w.givesUp dev q as w.scene.verifyFlags = true → w.scene.canvas.lastPlane = none
  /-- The canvas draws the layers it is handed. -/
  drawn : w.givesUp dev q as w.scene.verifyFlags = false → w.drawsHanded dev q as = true

instance (w : Placing) : Decidable (TalliedAt dev s q as w) :=
  decidable_of_iff
    ((∀ l ∈ s.skippedLayers q, allotted w l = false) ∧
      (∀ a ∈ as, allotted w a.layer = true →
        (w.scene.heap a.layer).needsComposition = false) ∧
      (∀ a ∈ as, a.slot.streamPinnedPlaneId.isSome = pinnedAside w a) ∧
      (w.givesUp dev q as w.scene.verifyFlags = true → w.scene.canvas.lastPlane = none) ∧
      (w.givesUp dev q as w.scene.verifyFlags = false → w.drawsHanded dev q as = true))
    ⟨fun ⟨hskipped, hupheld, hstreams, hforgotten, hdrawn⟩ =>
      ⟨hskipped, hupheld, hstreams, hforgotten, hdrawn⟩,
    fun h => ⟨h.skipped, h.upheld, h.streams, h.forgotten, h.drawn⟩⟩

/-- The build's placement is tallied, if it comes to one. -/
def Tallied (flags : Flags) (testOnly : Bool) : Prop :=
  ∀ r w, s.settled dev q flags testOnly = some (r, w) → TalliedAt dev s q r.acquired w

variable {dev s q as}

theorem tallied_iff {flags : Flags} {testOnly : Bool} {r : Round} {w : Placing}
    (h : s.settled dev q flags testOnly = some (r, w)) :
    s.Tallied dev q flags testOnly ↔ TalliedAt dev s q r.acquired w :=
  ⟨fun htallied => htallied r w h, fun htallied r' w' h' => by
    rw [h] at h'
    cases h'
    exact htallied⟩

instance (flags : Flags) (testOnly : Bool) : Decidable (s.Tallied dev q flags testOnly) :=
  match h : s.settled dev q flags testOnly with
  | none => .isTrue fun r w h' => by
    rw [h] at h'
    cases h'
  | some _ => decidable_of_iff' _ (tallied_iff h)

/-- The acquired layers that hold a plane. -/
def holding (s : SceneState) (as : List AcquiredLayer) : List AcquiredLayer :=
  as.filter fun a => (s.assignedPlane a).isSome

/-! ### The placements -/

theorem placementEntry_placement (cached : List AcquiredLayer) (a : AcquiredLayer) :
    (s.placementEntry cached a).placement =
      if (s.assignedPlane a).isSome then .assignedToPlane
      else if s.canvas.lastPlane.isSome && cached.contains a then .composited
      else .unassigned := by
  unfold placementEntry
  cases s.assignedPlane a with
  | some p => rfl
  | none =>
    cases s.canvas.lastPlane with
    | none => rfl
    | some canvas => cases cached.contains a <;> rfl

theorem placement_assigned_iff (cached : List AcquiredLayer) (a : AcquiredLayer) :
    (s.placementEntry cached a).placement = .assignedToPlane ↔
      (s.assignedPlane a).isSome = true := by
  rw [placementEntry_placement]
  generalize (s.canvas.lastPlane.isSome && cached.contains a) = rescued
  cases (s.assignedPlane a).isSome <;> cases rescued <;> simp

theorem placement_composited_iff (cached : List AcquiredLayer) (a : AcquiredLayer) :
    (s.placementEntry cached a).placement = .composited ↔
      ((s.assignedPlane a).isNone && (s.canvas.lastPlane.isSome && cached.contains a)) = true := by
  rw [placementEntry_placement]
  generalize (s.canvas.lastPlane.isSome && cached.contains a) = rescued
  cases s.assignedPlane a <;> cases rescued <;> simp

theorem placement_unassigned_iff (cached : List AcquiredLayer) (a : AcquiredLayer) :
    (s.placementEntry cached a).placement = .unassigned ↔
      ((s.assignedPlane a).isNone && !(s.canvas.lastPlane.isSome && cached.contains a)) = true := by
  rw [placementEntry_placement]
  generalize (s.canvas.lastPlane.isSome && cached.contains a) = rescued
  cases s.assignedPlane a <;> cases rescued <;> simp

theorem placementEntry_handle (cached : List AcquiredLayer) (a : AcquiredLayer) :
    (s.placementEntry cached a).handle = a.handle := by
  unfold placementEntry
  split
  · rfl
  · split <;> rfl
  · rfl

/-- A layer is reported composited on the plane the canvas remembers. -/
theorem placementEntry_composited {cached : List AcquiredLayer} {a : AcquiredLayer}
    (h : (s.placementEntry cached a).placement = .composited) :
    s.canvas.lastPlane = some (s.placementEntry cached a).planeId := by
  unfold placementEntry at h ⊢
  split at h
  · cases h
  · rename_i hlast
    split at h
    · rename_i hcached
      rw [hlast, if_pos hcached]
    · cases h
  · cases h

theorem countOf_finishReport (cached : List AcquiredLayer) (report : CommitReport)
    (k : PlacementKind) : (s.finishReport as cached report).countOf k =
      as.countP fun a => (s.placementEntry cached a).placement = k := by
  rw [CommitReport.countOf, finishReport, List.countP_map]
  rfl

theorem countOf_assigned (cached : List AcquiredLayer) (report : CommitReport) :
    (s.finishReport as cached report).countOf .assignedToPlane = (s.holding as).length := by
  rw [countOf_finishReport, holding, ← List.countP_eq_length_filter]
  refine List.countP_congr fun a _ => ?_
  rw [decide_eq_true_eq, placement_assigned_iff]

/-- The acquired layers reported composited. -/
def rescued (s : SceneState) (cached as : List AcquiredLayer) : List AcquiredLayer :=
  as.filter fun a =>
    (s.assignedPlane a).isNone && (s.canvas.lastPlane.isSome && cached.contains a)

theorem countOf_composited (cached : List AcquiredLayer) (report : CommitReport) :
    (s.finishReport as cached report).countOf .composited = (s.rescued cached as).length := by
  rw [countOf_finishReport, rescued, ← List.countP_eq_length_filter]
  refine List.countP_congr fun a _ => ?_
  rw [decide_eq_true_eq, placement_composited_iff]

/-- Every acquired layer has one placement. -/
theorem countOf_total (cached : List AcquiredLayer) (report : CommitReport) :
    (s.finishReport as cached report).countOf .assignedToPlane +
      (s.finishReport as cached report).countOf .composited +
        (s.finishReport as cached report).countOf .unassigned = as.length := by
  simp only [countOf_finishReport]
  induction as with
  | nil => rfl
  | cons a as ih =>
    simp only [List.countP_cons, List.length_cons, decide_eq_true_eq]
    rw [← ih]
    cases (s.placementEntry cached a).placement <;> simp <;> omega

/-! ### The acquired layers -/

theorem twins_zipIdx (s : SceneState) :
    (s.slots.zipIdx.filter (·.1.live)).map (·.1.planesLayer) = s.twins := by
  rw [twins, liveSlots, ← List.zipIdx_map_fst 0 s.slots, List.filter_map, List.map_map,
    List.zipIdx_map_fst]
  rfl

/-- The acquired and the skipped layers are those of the table. -/
theorem AcquiredAll.layers {skipped : ℕ} (h : AcquiredAll s q as skipped) :
    (as.map (·.layer) ++ s.skippedLayers q).Perm s.twins := by
  have hlayers := h.slots.map fun e => e.1.planesLayer
  rw [slotsAcquired, withHandles, withHandles, List.map_append, List.map_map, List.map_map,
    List.map_map] at hlayers
  rw [← twins_zipIdx]
  exact hlayers

/-- No layer is acquired twice, or acquired and skipped. -/
theorem AcquiredAll.handles {skipped : ℕ} (h : AcquiredAll s q as skipped) :
    (as.map (·.handle) ++ s.skippedHandles q).Nodup := by
  have hhandles := h.slots.map Prod.snd
  rw [slotsAcquired, withHandles, withHandles, List.map_append, List.map_map, List.map_map,
    List.map_map] at hhandles
  have hidx : (s.slots.zipIdx.map Prod.snd).Nodup := by
    rw [List.zipIdx_map_snd]
    exact List.nodup_range'
  have hsnd : ((s.slots.zipIdx.filter (·.1.live)).map Prod.snd).Nodup :=
    hidx.sublist (List.filter_sublist.map _)
  have hlive :
      ((s.slots.zipIdx.filter (·.1.live)).map (Prod.snd ∘ fun e => (e.1, e.2 + 1))).Nodup := by
    have hsucc := hsnd.map (f := (· + 1)) fun i j hij => Nat.succ_injective hij
    rw [List.map_map] at hsucc
    exact hsucc
  exact hhandles.nodup_iff.mpr hlive

/-- Binding a stream does not make its source ready. -/
theorem waiting_prepared {β : Type*} (dev : SceneDevice) (s : SceneState) (q : FrameAnswers)
    (f : SceneSlot × ℕ → β) (hf : ∀ slot i, f (slot.withoutPin, i) = f (slot, i)) :
    (waiting q (s.prepared dev q).slots.zipIdx).map f = (waiting q s.slots.zipIdx).map f := by
  have hpins : ∀ slots : List SceneSlot,
      (waiting q (slots.map SceneSlot.withoutPin).zipIdx).map f =
        (waiting q slots.zipIdx).map f := by
    intro slots
    rw [waiting, List.zipIdx_map, List.filter_map, List.map_map]
    exact List.map_congr_left fun e _ => hf e.1 e.2
  rw [← hpins, map_withoutPin_prepared, hpins]

/-- What a build acquired and skipped. -/
structure AcquiredBy (s : SceneState) (q : FrameAnswers) (as : List AcquiredLayer)
    (skipped : ℕ) : Prop where
  layers : (as.map (·.layer) ++ s.skippedLayers q).Perm s.twins
  handles : (as.map (·.handle) ++ s.skippedHandles q).Nodup
  skipped : skipped = (s.skippedHandles q).length

theorem acquiredBy {skipped : ℕ} (h : (s.prepared dev q).acquireAll q = (as, skipped, none)) :
    AcquiredBy s q as skipped := by
  have hall := acquiredAll h
  have hlayers : (s.prepared dev q).skippedLayers q = s.skippedLayers q :=
    waiting_prepared dev s q _ fun _ _ => rfl
  have hhandles : (s.prepared dev q).skippedHandles q = s.skippedHandles q :=
    waiting_prepared dev s q _ fun _ _ => rfl
  refine ⟨?_, ?_, ?_⟩
  · rw [← hlayers, ← twins_of_shape (map_shape_prepared dev s q)]
    exact hall.layers
  · rw [← hhandles]
    exact hall.handles
  · rw [hall.skipped, ← hhandles, skippedHandles, List.length_map]

section AcquiredBy

variable {skipped : ℕ}

theorem AcquiredBy.nodup (h : AcquiredBy s q as skipped) :
    (as.map (·.layer)).Nodup ∧ (s.skippedLayers q).Nodup ∧
      (as.map (·.layer)).Disjoint (s.skippedLayers q) :=
  List.nodup_append'.mp (h.layers.nodup_iff.mpr s.nodupTwins)

theorem AcquiredBy.total (h : AcquiredBy s q as skipped) :
    as.length + skipped = s.liveSlots.length := by
  have hlength := h.layers.length_eq
  rw [List.length_append, List.length_map, skippedLayers, List.length_map, twins,
    List.length_map] at hlength
  rw [h.skipped, skippedHandles, List.length_map, hlength]

theorem AcquiredBy.handle_inj (h : AcquiredBy s q as skipped) {a b : AcquiredLayer} (ha : a ∈ as)
    (hb : b ∈ as) (heq : a.handle = b.handle) : a = b :=
  List.inj_on_of_nodup_map (List.nodup_append'.mp h.handles).1 ha hb heq

theorem AcquiredBy.layer_inj (h : AcquiredBy s q as skipped) {a b : AcquiredLayer} (ha : a ∈ as)
    (hb : b ∈ as) (heq : a.layer = b.layer) : a = b :=
  List.inj_on_of_nodup_map h.nodup.1 ha hb heq

end AcquiredBy

/-! ### Composited layers -/

section Composited

variable {w : Placing} {c : Placing.Composed}

theorem mem_rescued {cached : List AcquiredLayer} {a : AcquiredLayer} :
    a ∈ s.rescued cached as ↔
      a ∈ as ∧ s.assignedPlane a = none ∧ s.canvas.lastPlane.isSome = true ∧ a ∈ cached := by
  simp [rescued, List.mem_filter, List.contains_eq_mem]

/-- Without a canvas plane no layer is reported composited. -/
theorem rescued_of_lastPlane (h : s.canvas.lastPlane = none) (cached as : List AcquiredLayer) :
    s.rescued cached as = [] := by
  simp [rescued, h]

theorem mem_collected {a : AcquiredLayer} (h : a ∈ w.collected q as) :
    a ∈ as ∧ (w.scene.heap a.layer).needsComposition = true :=
  ⟨(List.mem_filter.mp h).1, (Bool.and_eq_true_iff.mp (List.mem_filter.mp h).2).1⟩

/-- The layers handed to an armed canvas are the ones reported composited. -/
theorem rescued_of_painted {p : PlaneId} {t : CompositionTarget}
    (hheap : c.placing.scene.heap = w.scene.heap)
    (hbare : ∀ a ∈ as, Bare w.scene.heap a.layer) (has : (as.map (·.handle)).Nodup)
    (h : Placing.Painted dev w q as c p t) :
    (c.placing.scene.rescued c.cached as).Perm c.cached := by
  have hnodup : (c.placing.scene.rescued c.cached as).Nodup := (has.of_map _).filter _
  refine (List.perm_ext_iff_of_nodup hnodup (h.cached.1.of_map _)).mpr fun a => ?_
  rw [mem_rescued, h.lastPlane]
  constructor
  · exact fun ha => ha.2.2.2
  · intro ha
    obtain ⟨hmem, hneeds⟩ := mem_collected (h.cached.2 ha)
    refine ⟨hmem, ?_, rfl, ha⟩
    rw [assignedPlane, hheap]
    exact (hbare a hmem hneeds).1

/-- A layer collected by a composition that gives up is reported composited on the plane it
remembers. -/
theorem rescued_of_gaveUp (hheap : c.placing.scene.heap = w.scene.heap)
    (hbare : ∀ a ∈ as, Bare w.scene.heap a.layer) (h : Placing.GaveUp w q as c) :
    c.placing.scene.rescued c.cached as = [] ↔ w.scene.canvas.lastPlane = none := by
  constructor
  · intro hnone
    obtain ⟨a, ha⟩ := List.exists_mem_of_ne_nil _ h.cached.1
    obtain ⟨hmem, hneeds⟩ := mem_collected (h.cached.2 ha)
    have hrescued : a ∉ c.placing.scene.rescued c.cached as := by
      rw [hnone]
      exact List.not_mem_nil
    rw [mem_rescued, assignedPlane, hheap, h.lastPlane] at hrescued
    by_contra hlast
    exact hrescued ⟨hmem, (hbare a hmem hneeds).1, Option.isSome_iff_ne_none.mpr hlast, ha⟩
  · exact fun hnone => rescued_of_lastPlane (h.lastPlane.trans hnone) _ _

/-- The layers a composition adds to the report. -/
def shownBy (c : Placing.Composed) : List AcquiredLayer :=
  if c.armed.isSome then c.cached else []

/-- The layers reported composited are on the canvas armed in the frame. -/
def RescuedShown (as : List AcquiredLayer) (c : Placing.Composed) : Prop :=
  ∀ a ∈ c.placing.scene.rescued c.cached as, c.armed = c.placing.scene.canvas.lastPlane ∧
    ∃ t, c.placing.scene.canvas.target = some t ∧ a.handle ∈ t.painted

/-- What a composition adds to the report, and when the placements agree. -/
structure ComposedSpec (dev : SceneDevice) (w : Placing) (q : FrameAnswers)
    (as : List AcquiredLayer) (flags : Flags) (c : Placing.Composed) : Prop where
  report : ∃ buckets, c.placing.report = { w.report with
    layersComposited := w.report.layersComposited + (shownBy c).length
    compositionBuckets := buckets }
  shown : ((shownBy c).map (·.handle)).Nodup ∧ shownBy c ⊆ w.collected q as
  armed : c.armed.isSome = true → c.armed = c.placing.scene.canvas.lastPlane
  rescued : (shownBy c).length = (c.placing.scene.rescued c.cached as).length ↔
    (w.givesUp dev q as flags = true → w.scene.canvas.lastPlane = none)
  drawn : (w.givesUp dev q as flags = true → w.scene.canvas.lastPlane = none) →
    (RescuedShown as c ↔ (w.givesUp dev q as flags = false → w.drawsHanded dev q as = true))

theorem composed_spec (dev : SceneDevice) (w : Placing) (q : FrameAnswers)
    (hbare : ∀ a ∈ as, Bare w.scene.heap a.layer) (has : (as.map (·.handle)).Nodup)
    (flags : Flags) : ComposedSpec dev w q as flags (w.composeUnassigned dev q flags as) := by
  have hheap := (w.still_composeUnassigned dev q flags as).heap
  obtain ⟨hgives, hgave⟩ | ⟨hgives, hunpainted | ⟨p, t, hpainted⟩⟩ :=
    Placing.composeUnassigned_cases dev w q flags has
  · have hrescued := rescued_of_gaveUp hheap hbare hgave
    generalize w.composeUnassigned dev q flags as = c at *
    have hshown : shownBy c = [] := by rw [shownBy, hgave.armed]; rfl
    refine ⟨⟨_, hgave.report.trans (by rw [hshown]; rfl)⟩, ?_, ?_, ?_, fun hlast => ?_⟩
    · rw [hshown]
      exact ⟨List.nodup_nil, List.nil_subset _⟩
    · rw [hgave.armed]
      exact fun h => by cases h
    · rw [hshown, List.length_nil, eq_comm, List.length_eq_zero_iff, hrescued, hgives]
      exact ⟨fun hlast _ => hlast, fun h => h rfl⟩
    · rw [RescuedShown, hrescued.mpr (hlast hgives), hgives]
      exact ⟨fun _ h => (by cases h), fun _ a ha => absurd ha List.not_mem_nil⟩
  · generalize w.composeUnassigned dev q flags as = c at *
    have hrescued := rescued_of_lastPlane hunpainted.lastPlane c.cached as
    have hshown : shownBy c = [] := by rw [shownBy, hunpainted.armed]; rfl
    refine ⟨⟨_, hunpainted.report.trans (by rw [hshown]; rfl)⟩, ?_, ?_, ?_, fun hlast => ?_⟩
    · rw [hshown]
      exact ⟨List.nodup_nil, List.nil_subset _⟩
    · rw [hunpainted.armed]
      exact fun h => by cases h
    · rw [hshown, hrescued, hgives]
      exact ⟨fun _ h => (by cases h), fun _ => rfl⟩
    · rw [RescuedShown, hrescued]
      exact ⟨fun _ _ => hunpainted.drawn, fun _ a ha => absurd ha List.not_mem_nil⟩
  · have hrescued := rescued_of_painted hheap hbare has hpainted
    generalize w.composeUnassigned dev q flags as = c at *
    have hshown : shownBy c = c.cached := by rw [shownBy, hpainted.armed]; rfl
    refine ⟨⟨_, hpainted.report.trans (by rw [hshown])⟩, ?_, ?_, ?_, fun hlast => ?_⟩
    · rw [hshown]
      exact hpainted.cached
    · exact fun _ => hpainted.armed.trans hpainted.lastPlane.symm
    · rw [hshown, hgives, hrescued.length_eq]
      exact ⟨fun _ h => (by cases h), fun _ => rfl⟩
    · rw [RescuedShown, hgives, hpainted.armed, hpainted.lastPlane, hpainted.target,
        ← hpainted.drawn]
      constructor
      · intro h _ a ha
        obtain ⟨-, t', ht', hmem⟩ := h a (hrescued.mem_iff.mpr ha)
        cases ht'
        exact hmem
      · exact fun h a ha => ⟨rfl, t, rfl, h rfl a (hrescued.mem_iff.mp ha)⟩

end Composited

/-! ### The tallies -/

/-- What a frame takes from its settled placement and its composition. -/
structure FinishSpec (r : Round) (w : Placing) (c : Placing.Composed) (left : SceneState)
    (f : BuiltFrame) : Prop where
  report : f.report = c.placing.scene.finishReport r.acquired c.cached c.placing.report
  canvasPlane : f.canvasPlane = c.armed
  acquisitions : f.acquisitions = r.acquired
  cached : f.cached = c.cached
  canvas : left.canvas = c.placing.scene.canvas
  allocation : left.allocator.previousAllocation = w.scene.allocator.previousAllocation

theorem finishBuild_ok {r : Round} {w : Placing} {f : BuiltFrame}
    (hf : (finishBuild dev r w).result = .ok (some f)) :
    FinishSpec r w (w.composeUnassigned dev r.answers w.scene.verifyFlags r.acquired)
      (finishBuild dev r w).scene f := by
  have hallocation :=
    (w.still_composeUnassigned dev r.answers w.scene.verifyFlags r.acquired).held.allocation
  unfold finishBuild at hf ⊢
  dsimp only at hf ⊢
  split at hf
  · cases hf
  · cases hf
    exact ⟨rfl, rfl, rfl, rfl, rfl, hallocation⟩

section Settled

variable {r : Round} {w : Placing} {c : Placing.Composed} {left : SceneState} {f : BuiltFrame}
  {skipped : ℕ}

theorem FinishSpec.placements (h : FinishSpec r w c left f) :
    f.report.placements = r.acquired.map (c.placing.scene.placementEntry c.cached) := by
  rw [h.report]
  rfl

/-- A layer has the placement the report has for it. -/
theorem FinishSpec.mem_layersOf (h : FinishSpec r w c left f)
    (hacquired : AcquiredBy s q r.acquired skipped) {a : AcquiredLayer} (ha : a ∈ r.acquired)
    (k : PlacementKind) : a.layer ∈ f.layersOf k ↔
      (c.placing.scene.placementEntry c.cached a).placement = k := by
  have hentry : ∀ b ∈ r.acquired, (f.report.placements.any fun e =>
      e.handle = b.handle && e.placement = k) = true ↔
        (c.placing.scene.placementEntry c.cached b).placement = k := by
    intro b hb
    rw [h.placements, List.any_map, List.any_eq_true]
    simp only [Function.comp_apply, placementEntry_handle, Bool.and_eq_true, decide_eq_true_eq]
    constructor
    · rintro ⟨b', hb', heq, hkind⟩
      obtain rfl := hacquired.handle_inj hb' hb heq
      exact hkind
    · exact fun hkind => ⟨b, hb, rfl, hkind⟩
  rw [BuiltFrame.layersOf, h.acquisitions, List.mem_map]
  constructor
  · rintro ⟨b, hb, heq⟩
    obtain ⟨hmem, hany⟩ := List.mem_filter.mp hb
    obtain rfl := hacquired.layer_inj hmem ha heq
    exact (hentry b hmem).mp hany
  · exact fun hkind => ⟨a, List.mem_filter.mpr ⟨ha, (hentry a ha).mpr hkind⟩, rfl⟩

/-- The allocation has planes for the acquired layers it has planes for. -/
theorem values_perm (hacquired : AcquiredBy s q as skipped)
    (hone : Planes.Assignment.OnePlane w.scene.allocator.previousAllocation)
    (hvalues : w.scene.allocator.previousAllocation.values ⊆ s.twins)
    (hskipped : ∀ l ∈ s.skippedLayers q, allotted w l = false) :
    w.scene.allocator.previousAllocation.values.Perm
      ((as.filter fun a => allotted w a.layer).map (·.layer)) := by
  have hnodup : ((as.filter fun a => allotted w a.layer).map (·.layer)).Nodup :=
    hacquired.nodup.1.sublist (List.filter_sublist.map _)
  refine (List.perm_ext_iff_of_nodup hone.nodup_values hnodup).mpr fun l => ?_
  have hhas : l ∈ w.scene.allocator.previousAllocation.values ↔ allotted w l = true :=
    Planes.hasLayer_iff.symm
  rw [hhas]
  constructor
  · intro hl
    obtain hl' | hl' := List.mem_append.mp (hacquired.layers.symm.subset (hvalues (hhas.mpr hl)))
    · obtain ⟨a, ha, rfl⟩ := List.mem_map.mp hl'
      exact List.mem_map_of_mem (List.mem_filter.mpr ⟨ha, hl⟩)
    · rw [hskipped l hl'] at hl
      cases hl
  · intro hl
    obtain ⟨a, ha, rfl⟩ := List.mem_map.mp hl
    exact (List.mem_filter.mp ha).2

/-- A layer of the allocation that kept its plane is on one, and one the scene pinned aside. -/
theorem onPlane_iff {a : AcquiredLayer}
    (hhoused : Housed w.scene.allocator.previousAllocation w.scene.heap a.layer)
    (hupheld : allotted w a.layer = true → (w.scene.heap a.layer).needsComposition = false) :
    (w.scene.assignedPlane a).isSome = (allotted w a.layer || pinnedAside w a) := by
  refine (show (w.scene.assignedPlane a).isSome = _ from hhoused.onPlane).trans ?_
  rw [pinnedAside]
  cases hlayer : allotted w a.layer with
  | true =>
    rw [hupheld hlayer]
    rw [allotted] at hlayer
    rw [hlayer]
    rfl
  | false =>
    rw [allotted] at hlayer
    rw [hlayer]
    rfl

/-- What holds a plane is what the allocation has planes for, and what the scene pinned aside. -/
theorem holding_length
    (hhoused : ∀ a ∈ as, Housed w.scene.allocator.previousAllocation w.scene.heap a.layer)
    (hupheld : ∀ a ∈ as, allotted w a.layer = true →
      (w.scene.heap a.layer).needsComposition = false) :
    (w.scene.holding as).length =
      (as.filter fun a => allotted w a.layer).length + as.countP (pinnedAside w) := by
  rw [holding, ← List.countP_eq_length_filter, ← List.countP_eq_length_filter]
  induction as with
  | nil => rfl
  | cons a as ih =>
    have hmem := List.mem_cons_self (a := a) (l := as)
    have honPlane := onPlane_iff (hhoused a hmem) (hupheld a hmem)
    have hrest := ih (fun b hb => hhoused b (List.mem_cons_of_mem _ hb))
      (fun b hb => hupheld b (List.mem_cons_of_mem _ hb))
    rw [List.countP_cons, List.countP_cons, List.countP_cons, honPlane, hrest, pinnedAside]
    cases allotted w a.layer with
    | true => simp [Nat.add_right_comm]
    | false => simp [Nat.add_assoc]

/-- A kind that is part of another of the same number is all of it. -/
theorem eq_of_countP_eq {α : Type*} {l : List α} {p p' : α → Bool}
    (hle : ∀ a ∈ l, p a = true → p' a = true) (h : l.countP p = l.countP p') :
    ∀ a ∈ l, p a = p' a := by
  have hfilter : (l.filter p').filter p = l.filter p := by
    rw [List.filter_filter]
    refine List.filter_congr fun a ha => ?_
    cases hp : p a with
    | false => rfl
    | true => rw [hle a ha hp]; rfl
  have hall : ∀ a ∈ l.filter p', p a = true := by
    refine List.length_filter_eq_length_iff.mp ?_
    rw [hfilter, ← List.countP_eq_length_filter, ← List.countP_eq_length_filter, h]
  intro a ha
  cases hp : p a with
  | true => exact (hle a ha hp).symm
  | false =>
    cases hp' : p' a with
    | false => rfl
    | true =>
      rw [hall a (List.mem_filter.mpr ⟨ha, hp'⟩)] at hp
      cases hp

end Settled

section Frame

variable {r : Round} {w : Placing} {c : Placing.Composed} {left : SceneState} {f : BuiltFrame}

/-- A frame, the placement it was settled in, and the composition it was finished with. -/
structure FrameSpec (dev : SceneDevice) (s : SceneState) (r : Round) (w : Placing)
    (c : Placing.Composed) (left : SceneState) (f : BuiltFrame) : Prop where
  finish : FinishSpec r w c left f
  settled : SettledSpec dev s r.answers r w
  composed : ComposedSpec dev w r.answers r.acquired w.scene.verifyFlags c
  heap : c.placing.scene.heap = w.scene.heap
  acquired : AcquiredBy s r.answers r.acquired w.report.layersSkippedNoFrame
  live : s.layerCount = s.liveSlots.length

theorem frameSpec (hs : s.Accounted) (spec : SettledSpec dev s r.answers r w)
    (hf : (finishBuild dev r w).result = .ok (some f)) :
    FrameSpec dev s r w (w.composeUnassigned dev r.answers w.scene.verifyFlags r.acquired)
      (finishBuild dev r w).scene f := by
  have hacquired := acquiredBy spec.acquireAll
  refine ⟨finishBuild_ok hf, spec, ?_, ?_, hacquired, hs.layerCount_eq⟩
  · exact composed_spec dev w r.answers (fun a ha => (spec.housed a ha).bare)
      (List.nodup_append'.mp hacquired.handles).1 _
  · exact (w.still_composeUnassigned dev r.answers w.scene.verifyFlags r.acquired).heap

namespace FrameSpec

variable (h : FrameSpec dev s r w c left f)
include h

theorem report_eq : ∃ pinsFailed buckets, c.placing.report =
    { layersTotal := s.layerCount
      layersAssigned := w.scene.allocator.previousAllocation.size + streams r.acquired
      layersSkippedNoFrame := w.report.layersSkippedNoFrame
      layersComposited := (shownBy c).length
      compositionBuckets := buckets
      pinsFailed := pinsFailed } := by
  obtain ⟨buckets, hreport⟩ := h.composed.report
  obtain ⟨pinsFailed, hbefore⟩ := h.settled.report
  refine ⟨pinsFailed, buckets, ?_⟩
  rw [hreport, hbefore]
  simp

/-- The assigned are counted by the allocation's planes and the streams. -/
theorem assigned_eq : f.report.layersAssigned = (f.assignedLayers left).length := by
  obtain ⟨pinsFailed, buckets, hreport⟩ := h.report_eq
  rw [h.finish.report, finishReport, hreport, BuiltFrame.assignedLayers, h.finish.allocation,
    h.finish.acquisitions, streamBound, List.length_append, List.length_map,
    ← List.countP_eq_length_filter, Table.values, List.length_map]
  rfl

/-- The composited are counted by the layers handed to the armed canvas. -/
theorem compositedLayers_eq : f.compositedLayers = (shownBy c).map (·.layer) := by
  rw [BuiltFrame.compositedLayers, h.finish.canvasPlane, h.finish.cached, shownBy]
  split <;> rfl

theorem composited_eq : f.report.layersComposited = (f.compositedLayers).length := by
  obtain ⟨pinsFailed, buckets, hreport⟩ := h.report_eq
  rw [h.finish.report, finishReport, hreport, h.compositedLayers_eq, List.length_map]

theorem skipped_eq : f.report.layersSkippedNoFrame = (s.skippedHandles r.answers).length := by
  obtain ⟨pinsFailed, buckets, hreport⟩ := h.report_eq
  rw [h.finish.report, finishReport, hreport]
  exact h.acquired.skipped

theorem total_eq : f.report.layersTotal = r.acquired.length + f.report.layersSkippedNoFrame := by
  obtain ⟨pinsFailed, buckets, hreport⟩ := h.report_eq
  rw [h.finish.report, finishReport, hreport, h.live]
  exact h.acquired.total.symm

theorem unassigned_eq : f.report.layersUnassigned = f.report.layersTotal -
    (f.report.layersAssigned + f.report.layersComposited + f.report.layersSkippedNoFrame) := by
  rw [h.finish.report]
  rfl

theorem kinds : f.report.countOf .assignedToPlane + f.report.countOf .composited +
    f.report.countOf .unassigned = r.acquired.length := by
  rw [h.finish.report]
  exact countOf_total _ _

/-- No layer is placed twice, or placed and skipped. -/
theorem once : (f.report.placements.map (·.handle) ++ s.skippedHandles r.answers).Nodup := by
  have hhandles : f.report.placements.map (·.handle) = r.acquired.map (·.handle) := by
    rw [h.finish.placements, List.map_map]
    exact List.map_congr_left fun a _ => placementEntry_handle c.cached a
  rw [hhandles]
  exact h.acquired.handles

theorem holding_eq : f.report.countOf .assignedToPlane = (w.scene.holding r.acquired).length := by
  rw [h.finish.report, countOf_assigned, holding, holding]
  unfold assignedPlane
  rw [h.heap]

theorem rescued_iff : f.report.layersComposited = f.report.countOf .composited ↔
    (w.givesUp dev r.answers r.acquired w.scene.verifyFlags = true →
      w.scene.canvas.lastPlane = none) := by
  rw [h.composited_eq, h.compositedLayers_eq, List.length_map, h.finish.report, countOf_composited]
  exact h.composed.rescued

/-- The layers reported composited are on the canvas armed in the frame exactly if the composition's
are. -/
theorem onCanvas_iff : (∀ e ∈ f.report.placements, e.placement = .composited →
    f.canvasPlane = some e.planeId ∧ ∃ t, left.canvas.target = some t ∧ e.handle ∈ t.painted) ↔
      RescuedShown r.acquired c := by
  have hrescued : ∀ a, a ∈ c.placing.scene.rescued c.cached r.acquired ↔ a ∈ r.acquired ∧
      (c.placing.scene.placementEntry c.cached a).placement = .composited := by
    intro a
    rw [rescued, List.mem_filter, placement_composited_iff]
  rw [h.finish.placements, h.finish.canvasPlane, h.finish.canvas, RescuedShown]
  constructor
  · intro hall a ha
    obtain ⟨hmem, hkind⟩ := (hrescued a).mp ha
    have hshown := hall _ (List.mem_map_of_mem hmem) hkind
    rw [placementEntry_handle, ← placementEntry_composited hkind] at hshown
    exact hshown
  · intro hall e he hkind
    obtain ⟨a, hmem, rfl⟩ := List.mem_map.mp he
    rw [placementEntry_handle, ← placementEntry_composited hkind]
    exact hall a ((hrescued a).mpr ⟨hmem, hkind⟩)

end FrameSpec

end Frame

/-! ### When a report adds up -/

section Frame

variable {r : Round} {w : Placing} {c : Placing.Composed} {left : SceneState} {f : BuiltFrame}

namespace FrameSpec

variable (h : FrameSpec dev s r w c left f)
include h

theorem mem_assigned {l : Planes.LayerId} : l ∈ f.assignedLayers left ↔
    allotted w l = true ∨ ∃ a ∈ streamBound r.acquired, a.layer = l := by
  rw [BuiltFrame.assignedLayers, h.finish.allocation, h.finish.acquisitions, List.mem_append,
    List.mem_map, allotted, Planes.hasLayer_iff]
  rfl

/-- A layer of the frame on a plane is in the allocation, or pinned aside. -/
theorem onPlane (hupheld : ∀ a ∈ r.acquired, allotted w a.layer = true →
    (w.scene.heap a.layer).needsComposition = false) {a : AcquiredLayer} (ha : a ∈ r.acquired) :
    (c.placing.scene.assignedPlane a).isSome = (allotted w a.layer || pinnedAside w a) := by
  rw [assignedPlane, h.heap]
  exact onPlane_iff (h.settled.housed a ha) (hupheld a ha)

/-- A layer of the frame off its plane is counted as composited or unassigned. -/
theorem counted_of_offPlane (honCanvas : RescuedShown r.acquired c) {a : AcquiredLayer}
    (ha : a ∈ r.acquired) (hoff : c.placing.scene.assignedPlane a = none) :
    a.layer ∈ f.compositedLayers ∨ a.layer ∈ f.layersOf .unassigned := by
  cases hcanvas : c.placing.scene.canvas.lastPlane.isSome && c.cached.contains a with
  | false =>
    refine .inr ((h.finish.mem_layersOf h.acquired ha _).mpr ?_)
    rw [placement_unassigned_iff, hoff, hcanvas]
    rfl
  | true =>
    refine .inl ?_
    have hmem : a ∈ c.placing.scene.rescued c.cached r.acquired := by
      rw [rescued, List.mem_filter, hoff, hcanvas]
      exact ⟨ha, rfl⟩
    obtain ⟨-, -, hlast, hcached⟩ := mem_rescued.mp hmem
    rw [h.compositedLayers_eq, shownBy, (honCanvas a hmem).1, if_pos hlast]
    exact List.mem_map_of_mem hcached

/-- A tallied frame counts no layer twice. -/
theorem apart (htallied : TalliedAt dev s r.answers r.acquired w) :
    (f.assignedLayers left ++ f.compositedLayers ++ f.layersOf .unassigned ++
      s.skippedLayers r.answers).Nodup := by
  obtain ⟨hlayers, hskipped, hdisjoint⟩ := h.acquired.nodup
  have hshown : ∀ {a}, a ∈ shownBy c → a ∈ r.acquired ∧
      allotted w a.layer = false ∧ pinnedAside w a = false := by
    intro a ha
    obtain ⟨hmem, hneeds⟩ := mem_collected (h.composed.shown.2 ha)
    refine ⟨hmem, ?_, ?_⟩
    · cases hlayer : allotted w a.layer with
      | false => rfl
      | true =>
        rw [htallied.upheld a hmem hlayer] at hneeds
        cases hneeds
    · rw [pinnedAside, ((h.settled.housed a hmem).bare hneeds).2, Bool.and_false]
  have hstreams : ∀ {a}, a ∈ streamBound r.acquired → a ∈ r.acquired ∧ pinnedAside w a = true := by
    intro a ha
    obtain ⟨hmem, hstream⟩ := List.mem_filter.mp ha
    exact ⟨hmem, (htallied.streams a hmem).symm.trans hstream⟩
  have hunassigned : ∀ {l}, l ∈ f.layersOf .unassigned → ∃ a ∈ r.acquired, a.layer = l ∧
      (c.placing.scene.placementEntry c.cached a).placement = .unassigned := by
    intro l hl
    have hl' := hl
    rw [BuiltFrame.layersOf, h.finish.acquisitions] at hl'
    obtain ⟨a, ha, rfl⟩ := List.mem_map.mp hl'
    have hmem := (List.mem_filter.mp ha).1
    exact ⟨a, hmem, rfl, (h.finish.mem_layersOf h.acquired hmem _).mp hl⟩
  -- the assigned: the allocation has no plane for a stream
  have hassigned : (f.assignedLayers left).Nodup := by
    rw [BuiltFrame.assignedLayers, h.finish.allocation, h.finish.acquisitions]
    refine List.nodup_append'.mpr ⟨h.settled.onePlane.nodup_values,
      hlayers.sublist (List.filter_sublist.map _), fun l hl hstream => ?_⟩
    obtain ⟨a, ha, rfl⟩ := List.mem_map.mp hstream
    have haside := (hstreams ha).2
    have hlayer : allotted w a.layer = true := Planes.hasLayer_iff.mpr hl
    rw [pinnedAside, hlayer] at haside
    cases haside
  have hcomposited : (f.compositedLayers).Nodup := by
    rw [h.compositedLayers_eq]
    refine List.Nodup.map_on (fun a ha b hb heq => ?_) (h.composed.shown.1.of_map _)
    exact h.acquired.layer_inj (hshown ha).1 (hshown hb).1 heq
  -- off their planes are the composited
  have hoff : (f.assignedLayers left).Disjoint f.compositedLayers := by
    intro l hl hcomp
    rw [h.compositedLayers_eq] at hcomp
    obtain ⟨a, ha, rfl⟩ := List.mem_map.mp hcomp
    obtain ⟨hmem, hfree, haside⟩ := hshown ha
    obtain hl | ⟨b, hb, heq⟩ := h.mem_assigned.mp hl
    · rw [hfree] at hl
      cases hl
    · obtain rfl := h.acquired.layer_inj (hstreams hb).1 hmem heq
      rw [(hstreams hb).2] at haside
      cases haside
  have hrest : (f.assignedLayers left ++ f.compositedLayers).Disjoint (f.layersOf .unassigned) := by
    intro l hl hnone
    obtain ⟨a, hmem, rfl, hkind⟩ := hunassigned hnone
    rw [placement_unassigned_iff, Bool.and_eq_true, Option.isNone_iff_eq_none,
      Bool.not_eq_true'] at hkind
    have hplane := h.onPlane htallied.upheld hmem
    rw [hkind.1, Option.isSome_none, eq_comm, Bool.or_eq_false_iff] at hplane
    obtain hl | hl := List.mem_append.mp hl
    · obtain hl | ⟨b, hb, heq⟩ := h.mem_assigned.mp hl
      · rw [hplane.1] at hl
        cases hl
      · obtain rfl := h.acquired.layer_inj (hstreams hb).1 hmem heq
        rw [(hstreams hb).2] at hplane
        cases hplane.2
    · rw [h.compositedLayers_eq] at hl
      obtain ⟨b, hb, heq⟩ := List.mem_map.mp hl
      obtain rfl := h.acquired.layer_inj (hshown hb).1 hmem heq
      unfold shownBy at hb
      split at hb
      · rename_i harmed
        rw [← h.composed.armed harmed, harmed, Bool.true_and, List.contains_eq_mem] at hkind
        exact of_decide_eq_false hkind.2 hb
      · cases hb
  refine List.nodup_append'.mpr ⟨List.nodup_append'.mpr ⟨List.nodup_append'.mpr
    ⟨hassigned, hcomposited, hoff⟩, ?_, hrest⟩, hskipped, ?_⟩
  · rw [BuiltFrame.layersOf, h.finish.acquisitions]
    exact hlayers.sublist (List.filter_sublist.map _)
  · intro l hl hwaits
    have hout : l ∉ r.acquired.map (·.layer) := fun hmem => hdisjoint hmem hwaits
    refine hout ?_
    obtain hl | hl := List.mem_append.mp hl
    · obtain hl | hl := List.mem_append.mp hl
      · obtain hl | ⟨b, hb, rfl⟩ := h.mem_assigned.mp hl
        · rw [htallied.skipped l hwaits] at hl
          cases hl
        · exact List.mem_map_of_mem (hstreams hb).1
      · rw [h.compositedLayers_eq] at hl
        obtain ⟨b, hb, rfl⟩ := List.mem_map.mp hl
        exact List.mem_map_of_mem (hshown hb).1
    · obtain ⟨a, hmem, rfl, -⟩ := hunassigned hl
      exact List.mem_map_of_mem hmem

/-- What is counted as assigned is what holds a plane, when the streams are as many as the layers
pinned aside. -/
theorem assigned_iff (hskipped : ∀ l ∈ s.skippedLayers r.answers, allotted w l = false)
    (hupheld : ∀ a ∈ r.acquired, allotted w a.layer = true →
      (w.scene.heap a.layer).needsComposition = false) :
    f.report.layersAssigned = f.report.countOf .assignedToPlane ↔
      r.acquired.countP (·.slot.streamPinnedPlaneId.isSome) =
        r.acquired.countP (pinnedAside w) := by
  have hvalues := (values_perm h.acquired h.settled.onePlane h.settled.values hskipped).length_eq
  rw [List.length_map] at hvalues
  rw [h.assigned_eq, h.holding_eq, holding_length h.settled.housed hupheld,
    BuiltFrame.assignedLayers, h.finish.allocation, h.finish.acquisitions, streamBound,
    List.length_append, List.length_map, ← List.countP_eq_length_filter, hvalues]
  exact Nat.add_left_cancel_iff

/-- A frame whose report adds up is tallied. -/
theorem tallied (hadds : AddsUp s r.answers left f) :
    TalliedAt dev s r.answers r.acquired w := by
  obtain ⟨hcounted, -, hwaits⟩ := List.nodup_append'.mp hadds.apart
  obtain ⟨hcounted, -, hunassigned⟩ := List.nodup_append'.mp hcounted
  obtain ⟨hassigned, -, hcomposited⟩ := List.nodup_append'.mp hcounted
  have honCanvas := h.onCanvas_iff.mp hadds.onCanvas
  have hforgotten := h.rescued_iff.mp hadds.composited
  -- a layer counted as assigned is on a plane
  have hplaced : ∀ a ∈ r.acquired, a.layer ∈ f.assignedLayers left →
      (c.placing.scene.assignedPlane a).isSome = true := by
    intro a ha hmem
    rw [Option.isSome_iff_ne_none]
    intro hoff
    obtain hcomp | hnone := h.counted_of_offPlane honCanvas ha hoff
    · exact hcomposited hmem hcomp
    · exact hunassigned (List.mem_append_left _ hmem) hnone
  have hskipped : ∀ l ∈ s.skippedLayers r.answers, allotted w l = false := by
    intro l hl
    cases hlayer : allotted w l with
    | false => rfl
    | true =>
      have hmem := h.mem_assigned.mpr (.inl hlayer)
      exact absurd hl (hwaits (List.mem_append_left _ (List.mem_append_left _ hmem)))
  have hupheld : ∀ a ∈ r.acquired, allotted w a.layer = true →
      (w.scene.heap a.layer).needsComposition = false := by
    intro a ha hlayer
    have hplane := hplaced a ha (h.mem_assigned.mpr (.inl hlayer))
    cases hneeds : (w.scene.heap a.layer).needsComposition with
    | false => rfl
    | true =>
      rw [assignedPlane, h.heap, ((h.settled.housed a ha).bare hneeds).1] at hplane
      cases hplane
  have haside : ∀ a ∈ r.acquired, a.slot.streamPinnedPlaneId.isSome = true →
      pinnedAside w a = true := by
    intro a ha hstream
    have hbound : a ∈ streamBound r.acquired := List.mem_filter.mpr ⟨ha, hstream⟩
    have hplane := hplaced a ha (h.mem_assigned.mpr (.inr ⟨a, hbound, rfl⟩))
    rw [h.onPlane hupheld ha, Bool.or_eq_true] at hplane
    refine hplane.resolve_left fun hlayer => ?_
    rw [BuiltFrame.assignedLayers, h.finish.allocation, h.finish.acquisitions] at hassigned
    obtain ⟨-, -, hdisjoint⟩ := List.nodup_append'.mp hassigned
    exact hdisjoint (Planes.hasLayer_iff.mp hlayer) (List.mem_map_of_mem hbound)
  exact
    { skipped := hskipped
      upheld := hupheld
      streams := eq_of_countP_eq haside ((h.assigned_iff hskipped hupheld).mp hadds.assigned)
      forgotten := hforgotten
      drawn := (h.composed.drawn hforgotten).mp honCanvas }

/-- The report of a tallied frame adds up. -/
theorem addsUp (htallied : TalliedAt dev s r.answers r.acquired w) :
    AddsUp s r.answers left f := by
  have hassigned := (h.assigned_iff htallied.skipped htallied.upheld).mpr
    (List.countP_congr fun a ha => by rw [htallied.streams a ha])
  have hcomposited := h.rescued_iff.mpr htallied.forgotten
  have hkinds := h.kinds
  have htotal := h.total_eq
  have hunassigned := h.unassigned_eq
  exact
    { total := by omega
      assigned := hassigned
      composited := hcomposited
      unassigned := by omega
      skipped := h.skipped_eq
      once := h.once
      apart := h.apart htallied
      onCanvas := h.onCanvas_iff.mpr ((h.composed.drawn htallied.forgotten).mpr htallied.drawn) }

end FrameSpec

end Frame

/-- A build's report adds up exactly when its layers are tallied. -/
theorem addsUp_iff_tallied {address : Planes.LayerId} (hs : s.Accounted)
    (htabled : s.Tabled address) {flags : Flags} {testOnly : Bool} {f : BuiltFrame}
    (hf : (s.buildFrameInto dev q flags testOnly).result = .ok (some f)) :
    AddsUp s q (s.buildFrameInto dev q flags testOnly).scene f ↔
      s.Tallied dev q flags testOnly := by
  obtain ⟨r, w, hsettled⟩ := exists_settled hf
  obtain ⟨spec, hbuild⟩ := settled_spec hs htabled hsettled
  obtain rfl := spec.answers
  rw [hbuild] at hf ⊢
  rw [tallied_iff hsettled]
  have hframe := frameSpec hs spec hf
  exact ⟨hframe.tallied, hframe.addsUp⟩

/-- A frame is built, and passes a check. -/
def builds (b : SceneBuild) (p : BuiltFrame → Bool) : Bool :=
  match b.result with
  | .ok (some f) => p f
  | _ => false

theorem exists_built {b : SceneBuild} {p : BuiltFrame → Bool} (h : builds b p = true) :
    ∃ f, b.result = .ok (some f) ∧ p f = true := by
  unfold builds at h
  split at h
  · exact ⟨_, by assumption, h⟩
  · cases h

open SmallScene

/-- The scene with one layer, and its first build. -/
def oneLayer (bindingModel : BindingModel) : SceneState :=
  run step created [.addLayer (newLayer ⟨0, 0⟩ bindingModel) 0]

def firstBuild (bindingModel : BindingModel) : SceneBuild :=
  (oneLayer bindingModel).buildFrameInto device answers 0 false

end SceneState

end DrmCxx.Scene
