import DrmCxx.Scene.SceneSet
import DrmCxx.Verification.Planes.Snapshots
import DrmCxx.Verification.Scene.SettledPlacement

/-!
# The planes of other scenes

A member of a scene set builds its frame beside the planes the other members hold. None of its
layers is placed on one of these, and neither is its canvas: what the set takes for granted of a
build, the build gives.
-/

namespace DrmCxx

open Lib Modeset

namespace Planes

/-! ### The allocator -/

namespace Heap

variable {heap : Heap} {l : LayerId} {p : PlaneId}

/-- A layer is on a plane of the entries, or on the plane it had. -/
theorem mem_of_assignPlanes {es : List (PlaneId × LayerId)}
    (h : (assignPlanes heap es l).assignedPlane = some p) :
    (p, l) ∈ es ∨ (heap l).assignedPlane = some p := by
  induction es generalizing heap with
  | nil => exact .inr h
  | cons e es ih =>
    rcases ih h with hmem | hhad
    · exact .inl (.tail _ hmem)
    · by_cases hl : l = e.2
      · subst hl
        rw [Function.update_self] at hhad
        cases hhad
        exact .inl (.head _)
      · rw [Function.update_of_ne hl] at hhad
        exact .inr hhad

end Heap

namespace Allocator

variable {d : Device} {a : Allocator} {f : Frame} {l : LayerId} {p : PlaneId}

/-- A layer is on a plane of the allocation, or on the plane it was pinned to. -/
theorem PlacedBy.plane {r : Applied} {b : Assignment} {parked : Option (LayerId × PlaneId)}
    (h : PlacedBy f r b parked) (hl : l ∈ f.output.layers)
    (hscene : l ≠ f.output.compositionLayer) (hp : (r.heap l).assignedPlane = some p) :
    (p, l) ∈ b.entries ∨ (f.heap l).pinned = true ∧ (f.heap l).assignedPlane = some p := by
  have hpark : ∀ e, parked = some e → e.1 ≠ l := fun e he hel =>
    hscene ((h.parked e he).trans hel).symm
  rw [h.heap, markClean_assignedPlane, parkHeap_of_ne hpark, markUnassigned_assignedPlane] at hp
  refine (Heap.mem_of_assignPlanes hp).imp_right fun hhad => ?_
  rw [Frame.resetHeap, if_pos hl] at hhad
  cases hpinned : (f.heap l).pinned with
  | true => exact ⟨rfl, by simpa [hpinned] using hhad⟩
  | false => simp [hpinned] at hhad

theorem apply_plane {n : ℕ} (h : (a.apply d f).result = .ok n) (hl : l ∈ f.output.layers)
    (hscene : l ≠ f.output.compositionLayer)
    (hp : ((a.apply d f).heap l).assignedPlane = some p) :
    (p, l) ∈ (a.apply d f).allocator.previousAllocation.entries ∨
      (f.heap l).pinned = true ∧ (f.heap l).assignedPlane = some p := by
  obtain hplaced | ⟨parked, hplaced⟩ | ⟨-, herr, -⟩ := apply_cases d a f
  · rw [hplaced.allocation]
    exact hplaced.plane hl hscene hp
  · rw [hplaced.allocation]
    exact hplaced.plane hl hscene hp
  · rw [herr] at h
    cases h

/-- A frame that is placed is placed beside the reserved planes. -/
theorem apply_unreserved {n : ℕ} (h : (a.apply d f).result = .ok n) :
    ∀ e ∈ (a.apply d f).allocator.previousAllocation.entries, e.1 ∉ f.reserved := by
  by_cases hr : Replayed d a f
  · obtain ⟨a₁, hreplay, -, -, -, -, -, diag, halloc⟩ := apply_of_replayed hr
    have hprev : (a.apply d f).allocator.previousAllocation = a₁.previousAllocation := by
      rw [halloc]
      exact armPrevious_previousAllocation d a₁ f f.resetHeap
    rw [hprev]
    exact hreplay.unreserved
  · obtain ⟨-, ⟨-, diag, happ⟩ | ⟨-, diag, happ, -⟩⟩ := apply_of_not_replayed hr
    · rw [happ] at h
      cases h
    · rw [happ]
      exact fun e he => searched_unreserved (a := a) he

end Allocator

end Planes

namespace Scene

open Planes (PlaneId PlaneCapabilities Flags)

/-! ### The canvas -/

section

variable (dev : SceneDevice) {s : SceneState} (w : Placing)

variable {dev} in
theorem SceneState.canvasPlaneCandidates_unclaimed {as : List AcquiredLayer}
    {p : PlaneCapabilities} (h : p ∈ s.canvasPlaneCandidates dev as) :
    p.id ∉ s.claimedElsewhere := by
  have hsplit : ∀ {rest : List PlaneCapabilities}, rest ⊆ s.crtcPlanes dev →
      p ∈ rest.filter (·.type = .overlay) ++ rest.filter (·.type ≠ .overlay) →
        p ∈ s.crtcPlanes dev := by
    intro rest hrest hp
    rcases List.mem_append.mp hp with hp | hp <;> exact hrest (List.mem_filter.mp hp).1
  have hplanes : p ∈ s.crtcPlanes dev := by
    unfold SceneState.canvasPlaneCandidates at h
    rcases List.mem_append.mp h with hpreferred | hordered
    · obtain ⟨hfind, -⟩ := Option.filter_eq_some_iff.mp (Option.mem_toList.mp hpreferred)
      exact List.mem_of_find?_eq_some hfind
    · split at hordered
      · exact hsplit (List.filter_sublist.subset) ((dev.planes.stdSort.perm _ _).subset hordered)
      · exact hsplit (List.filter_sublist.subset) hordered
  unfold SceneState.crtcPlanes at hplanes
  split at hplanes
  · exact (Planes.PlaneRegistry.mem_forCrtc.mp hplanes).2.2
  · cases hplanes

namespace Placing

theorem mem_of_armCanvasLoop (q : FrameAnswers) (flags : Flags) (t : CompositionTarget)
    (zpos : Int32) (ps : List PlaneCapabilities) (s : SceneState) :
    ∀ armed ∈ (w.armCanvasLoop dev q flags t zpos ps s).1, armed.1 ∈ ps := by
  induction ps generalizing s with
  | nil => exact fun armed h => nomatch h
  | cons p ps ih =>
    have hlater : ∀ s, ∀ armed ∈ (w.armCanvasLoop dev q flags t zpos ps s).1, armed.1 ∈ p :: ps :=
      fun s armed h => .tail _ (ih s armed h)
    have hhere : ∀ writes : AtomicRequest, ∀ armed ∈ some (p, writes), armed.1 ∈ p :: ps := by
      rintro writes _ ⟨⟩
      exact .head _
    rw [armCanvasLoop]
    split
    · exact hlater _
    · dsimp only
      split
      · exact hlater _
      · split
        · exact hhere _
        · split
          · exact hhere _
          · exact hhere _
          · exact hlater _

theorem mem_of_armCanvasTested (q : FrameAnswers) (flags : Flags)
    (t : CompositionTarget) (zpos : Int32) {first : PlaneCapabilities}
    {candidates : List PlaneCapabilities} (hfirst : first ∈ candidates) :
    ∀ p ∈ (w.armCanvasTested dev q flags t zpos first candidates).1, p ∈ candidates := by
  have harm : ∀ s, ∀ p ∈ (armFirst dev q t zpos first s).1, p ∈ candidates := by
    intro s p hp
    unfold armFirst at hp
    dsimp only at hp
    split at hp
    · cases hp
      exact hfirst
    · cases hp
  have hloop := w.mem_of_armCanvasLoop dev q flags t zpos candidates w.scene
  unfold armCanvasTested
  dsimp only
  split
  · exact harm _
  · generalize w.armCanvasLoop dev q flags t zpos candidates w.scene = looped at hloop
    obtain ⟨found, s⟩ := looped
    cases found with
    | some armed =>
      rintro _ ⟨⟩
      exact hloop armed rfl
    | none => exact harm _

theorem armed_of_armPainted (q : FrameAnswers) (flags : Flags)
    (t : CompositionTarget) (handed : List AcquiredLayer) {first : PlaneCapabilities}
    {candidates : List PlaneCapabilities} (hfirst : first ∈ candidates) :
    ∀ p ∈ (w.armPainted dev q flags t handed first candidates).armed,
      ∃ caps ∈ candidates, caps.id = p := by
  have htested := w.mem_of_armCanvasTested dev q flags t w.scene.chooseCanvasZpos hfirst
  unfold armPainted
  generalize w.armCanvasTested dev q flags t w.scene.chooseCanvasZpos first candidates = armed
    at htested
  obtain ⟨plane, writes, s⟩ := armed
  cases plane with
  | none => exact fun p hp => nomatch hp
  | some caps =>
    rintro _ ⟨⟩
    exact ⟨caps, htested caps rfl, rfl⟩

theorem armed_of_paintCanvas (q : FrameAnswers) (flags : Flags) (collected : List AcquiredLayer)
    (t : CompositionTarget) {first : PlaneCapabilities} {candidates : List PlaneCapabilities}
    (hfirst : first ∈ candidates) :
    ∀ p ∈ (w.paintCanvas dev q flags collected t first candidates).armed,
      ∃ caps ∈ candidates, caps.id = p := by
  unfold paintCanvas
  dsimp only
  split
  · exact fun p hp => nomatch hp
  · split
    · exact fun p hp => nomatch hp
    · exact armed_of_armPainted dev _ q flags _ _ hfirst

/-- The canvas is armed on one of its candidates. -/
theorem armed_of_composeUnassigned (q : FrameAnswers) (flags : Flags) (as : List AcquiredLayer) :
    ∀ p ∈ (w.composeUnassigned dev q flags as).armed,
      ∃ caps ∈ w.scene.canvasPlaneCandidates dev as, caps.id = p := by
  unfold composeUnassigned
  dsimp only
  generalize w.scene.canvasPlaneCandidates dev as = candidates
  split
  · exact fun p hp => nomatch hp
  · split
    · exact fun p hp => nomatch hp
    · cases candidates with
      | nil => exact fun p hp => nomatch hp
      | cons first rest =>
        dsimp only
        split
        · exact fun p hp => nomatch hp
        · split
          · exact fun p hp => nomatch hp
          · exact armed_of_paintCanvas dev _ q flags _ _ (.head _)

end Placing

end

/-! ### The layers -/

/-- A pinned layer of the frame is pinned to none of the claimed planes. -/
structure PinnedApart (claimed : List PlaneId) (pin : Option PlaneId) (placed : Planes.Layer) :
    Prop where
  pin : placed.pinned = true → ∀ p ∈ pin, p ∉ claimed
  plane : placed.pinned = true → ∀ p ∈ placed.assignedPlane, p ∉ claimed

/-- A layer of the frame is on none of the claimed planes, nor pinned to one. -/
structure Apart (claimed : List PlaneId) (pin : Option PlaneId) (placed : Planes.Layer) :
    Prop where
  pin : placed.pinned = true → ∀ p ∈ pin, p ∉ claimed
  plane : ∀ p ∈ placed.assignedPlane, p ∉ claimed

theorem Apart.pinnedApart {claimed : List PlaneId} {pin : Option PlaneId} {placed : Planes.Layer}
    (h : Apart claimed pin placed) : PinnedApart claimed pin placed :=
  ⟨h.pin, fun _ => h.plane⟩

theorem pinnedApart_of_not_pinned {claimed : List PlaneId} {pin : Option PlaneId}
    {placed : Planes.Layer} (h : placed.pinned = false) : PinnedApart claimed pin placed :=
  ⟨fun hp => by simp [h] at hp, fun hp => by simp [h] at hp⟩

namespace SceneState

variable {dev : SceneDevice} {s : SceneState} {claimed : List PlaneId}

theorem heap_reservePin_of_ne (acc : SceneState × List PlaneId × ℕ) {a : AcquiredLayer}
    {l : Planes.LayerId} (hl : l ≠ a.layer) :
    (reservePin dev acc a).1.heap l = acc.1.heap l := by
  unfold reservePin
  dsimp only
  split
  · exact Function.update_of_ne hl _ _
  · split
    · exact Function.update_of_ne hl _ _
    · exact (Function.update_of_ne hl _ _).trans (Function.update_of_ne hl _ _)

theorem reserved_reservePin (acc : SceneState × List PlaneId × ℕ) (a : AcquiredLayer) :
    acc.2.1 ⊆ (reservePin dev acc a).2.1 := by
  unfold reservePin
  dsimp only
  split
  · exact List.Subset.refl _
  · split
    · exact List.Subset.refl _
    · exact List.subset_append_left _ _

/-- A pin to a reserved plane is not honoured. -/
theorem pinnedApart_reservePin {acc : SceneState × List PlaneId × ℕ} (hclaimed : claimed ⊆ acc.2.1)
    (a : AcquiredLayer) : PinnedApart claimed a.attrs.pinnedPlaneId
      ((reservePin dev acc a).1.heap a.layer) := by
  unfold reservePin
  dsimp only
  split
  · exact pinnedApart_of_not_pinned (by simp)
  · rename_i p hpin
    split
    · exact pinnedApart_of_not_pinned (by simp)
    · rename_i hhonoured
      have hfree : p ∉ claimed := by
        intro hp
        have hreserved : acc.2.1.contains p = true := List.contains_iff_mem.mpr (hclaimed hp)
        exact hhonoured (by simp [pinIsHonorable, hclaimed hp])
      refine ⟨fun _ p' hp' => ?_, fun _ p' hp' => ?_⟩
      · rw [hpin] at hp'
        cases hp'
        exact hfree
      · obtain rfl : p = p' := by simpa using hp'
        exact hfree

/-- What the reservation of pins leaves of a frame's layers. -/
theorem pinnedApart_reservePins (as : List AcquiredLayer) (hnodup : (as.map (·.layer)).Nodup)
    (acc : SceneState × List PlaneId × ℕ) (hclaimed : claimed ⊆ acc.2.1) :
    claimed ⊆ (as.foldl (reservePin dev) acc).2.1 ∧
      (∀ a ∈ as, PinnedApart claimed a.attrs.pinnedPlaneId
        ((as.foldl (reservePin dev) acc).1.heap a.layer)) ∧
      ∀ l ∉ as.map (·.layer), (as.foldl (reservePin dev) acc).1.heap l = acc.1.heap l := by
  induction as generalizing acc with
  | nil => exact ⟨hclaimed, by simp, fun _ _ => rfl⟩
  | cons a as ih =>
    rw [List.map_cons, List.nodup_cons] at hnodup
    obtain ⟨hreserved, hapart, hothers⟩ := ih hnodup.2 (reservePin dev acc a)
      (List.Subset.trans hclaimed (reserved_reservePin acc a))
    refine ⟨hreserved, fun a' ha' => ?_, fun l hl => ?_⟩
    · rcases List.mem_cons.mp ha' with rfl | ha'
      · rw [List.foldl_cons, hothers _ hnodup.1]
        exact pinnedApart_reservePin hclaimed _
      · exact hapart a' ha'
    · rw [List.map_cons, List.mem_cons, not_or] at hl
      rw [List.foldl_cons, hothers l hl.2, heap_reservePin_of_ne acc hl.1]

theorem pinnedApart_reservePlanes (as : List AcquiredLayer) (hnodup : (as.map (·.layer)).Nodup) :
    s.claimedElsewhere ⊆ (s.reservePlanes dev as).2.1 ∧
      ∀ a ∈ as, PinnedApart s.claimedElsewhere a.attrs.pinnedPlaneId
        ((s.reservePlanes dev as).1.heap a.layer) := by
  have hkept : (s.reserveCanvas dev).1.claimedElsewhere = s.claimedElsewhere := by
    unfold reserveCanvas
    split <;> rfl
  unfold reservePlanes
  generalize s.reserveCanvas dev = reserved at hkept
  obtain ⟨s', canvas⟩ := reserved
  have hclaimed : s.claimedElsewhere ⊆ canvas ++ as.filterMap (·.slot.streamPinnedPlaneId) ++
      s'.externalReservedPlanes ++ s'.claimedElsewhere :=
    hkept ▸ List.subset_append_right _ _
  obtain ⟨hreserved, hapart, -⟩ := pinnedApart_reservePins as hnodup (s', _, 0) hclaimed
  exact ⟨hreserved, hapart⟩

end SceneState

namespace Placing

variable {dev : SceneDevice} {claimed : List PlaneId}

theorem apart_armPinnedLayer {w : Placing} {a a' : AcquiredLayer}
    (h : Apart claimed a.attrs.pinnedPlaneId (w.scene.heap a.layer))
    (hsame : a'.layer = a.layer → a' = a) (flags : Flags) :
    Apart claimed a.attrs.pinnedPlaneId ((w.armPinnedLayer dev flags a').scene.heap a.layer) := by
  by_cases hl : a.layer = a'.layer
  · obtain rfl := hsame hl.symm
    unfold armPinnedLayer
    dsimp only [SceneState.testRequest]
    split
    · rename_i p hpinned hpin
      have hfree : p ∉ claimed := h.pin hpinned p hpin
      have hpin' : ∀ p' ∈ a'.attrs.pinnedPlaneId, p' ∉ claimed := h.pin hpinned
      have hplaced : Apart claimed a'.attrs.pinnedPlaneId
          { w.scene.heap a'.layer with assignedPlane := some p } :=
        ⟨fun _ => hpin', fun p' hp' => Option.some.inj hp' ▸ hfree⟩
      have hupdated : Apart claimed a'.attrs.pinnedPlaneId (Function.update w.scene.heap a'.layer
          { w.scene.heap a'.layer with assignedPlane := some p } a'.layer) := by
        rwa [Function.update_self]
      split
      · exact hupdated
      · split
        · exact hupdated
        · exact hupdated
        · constructor <;> simp [SceneState.rejectPin]
    · exact h
  · have hother : ∀ placed : Planes.Layer, Apart claimed a.attrs.pinnedPlaneId
        (Function.update w.scene.heap a'.layer placed a.layer) := by
      intro placed
      rwa [Function.update_of_ne hl]
    unfold armPinnedLayer
    dsimp only [SceneState.testRequest]
    split
    · split
      · exact hother _
      · split <;> exact hother _
    · exact h

theorem apart_armPinnedLayers {w : Placing} {a : AcquiredLayer} (flags : Flags)
    (as : List AcquiredLayer) (h : Apart claimed a.attrs.pinnedPlaneId (w.scene.heap a.layer))
    (hsame : ∀ a' ∈ as, a'.layer = a.layer → a' = a) :
    Apart claimed a.attrs.pinnedPlaneId ((w.armPinnedLayers dev flags as).scene.heap a.layer) := by
  unfold armPinnedLayers
  induction as generalizing w with
  | nil => exact h
  | cons a' as ih =>
    exact ih (apart_armPinnedLayer h (hsame a' (.head _)) flags) fun a'' ha'' =>
      hsame a'' (.tail _ ha'')

end Placing

namespace SceneState

variable {dev : SceneDevice} {s : SceneState} {claimed : List PlaneId} {r : Round}

theorem apart_afterApply {n : ℕ} (hok : (s.applied dev r).result = .ok n) {l : Planes.LayerId}
    (hl : l ∈ s.output.layers) (hscene : l ≠ s.output.compositionLayer)
    (hclaimed : claimed ⊆ r.reserved) {pin : Option PlaneId}
    (h : PinnedApart claimed pin (s.heap l)) :
    Apart claimed pin ((s.afterApply dev r).heap l) := by
  have hlayer : (s.allocatorFrame r).heap l = s.heap l := Function.update_of_ne hscene _ _
  have hpinned : ((s.afterApply dev r).heap l).pinned = ((s.allocatorFrame r).heap l).pinned :=
    Planes.Allocator.apply_pinned
  rw [hlayer] at hpinned
  refine ⟨fun hp => h.pin (hpinned ▸ hp), fun p hp hmem => ?_⟩
  rcases Planes.Allocator.apply_plane hok hl hscene hp with hplaced | ⟨hpin, hplane⟩
  · exact Planes.Allocator.apply_unreserved hok _ hplaced (hclaimed hmem)
  · rw [hlayer] at hpin hplane
    exact h.plane hpin p hplane hmem

/-- A turn that places puts the layers on planes that nobody else has. -/
theorem apart_placeRound {request : AtomicRequest} {report : CommitReport} {w : Placing}
    {feasible : Bool} (h : s.placeRound dev r request report = .placed w feasible)
    {a : AcquiredLayer} (hl : a.layer ∈ s.output.layers)
    (hscene : a.layer ≠ s.output.compositionLayer)
    (hsame : ∀ a' ∈ r.acquired, a'.layer = a.layer → a' = a) (hclaimed : claimed ⊆ r.reserved)
    (hapart : PinnedApart claimed a.attrs.pinnedPlaneId (s.heap a.layer)) :
    Apart claimed a.attrs.pinnedPlaneId (w.scene.heap a.layer) := by
  have hout : s.dropStaleAllocation.output = s.output := s.held_dropStaleAllocation.output
  obtain ⟨n, w₀, happly, hheap, -, hsettle⟩ := placeRound_placed h
  have hplaced : Apart claimed a.attrs.pinnedPlaneId (w₀.scene.heap a.layer) := by
    rw [hheap]
    exact apart_afterApply happly (hout ▸ hl) (hout ▸ hscene) hclaimed
      (by rwa [heap_dropStaleAllocation])
  obtain ⟨w₁, rfl | rfl, hheap', -⟩ := settle_cases hsettle
  · rwa [hheap']
  · rw [hheap']
    exact Placing.apart_armPinnedLayers _ _ hplaced hsame

variable {q : FrameAnswers} {flags : Flags} {testOnly : Bool}

theorem claimedElsewhere_prepared (dev : SceneDevice) (s : SceneState) (q : FrameAnswers) :
    (s.prepared dev q).claimedElsewhere = s.claimedElsewhere := by
  unfold prepared ensureStreamLayerPins
  split <;> rfl

/-- What a build brings to the placement loop leaves the claimed planes alone. -/
theorem entry_apart {e : Entry} (h : s.entry dev q flags testOnly = some e) :
    s.claimedElsewhere ⊆ e.round.reserved ∧ ∀ a ∈ e.round.acquired,
      PinnedApart s.claimedElsewhere a.attrs.pinnedPlaneId (e.scene.heap a.layer) := by
  have hnodup := (s.prepared dev q).nodup_acquired q
  rw [List.map_map] at hnodup
  unfold entry at h
  split at h
  · cases h
  · split at h
    · rename_i acquired skipped begun request hacquire hbegin
      cases h
      have hbegun : begun.claimedElsewhere = s.claimedElsewhere := by
        have hheld := (s.held_lower dev q).trans (held_beginModeset _ hbegin)
        exact (congrArg KeptPart.claimedElsewhere hheld.kept).trans
          (claimedElsewhere_prepared dev s q)
      rw [hacquire] at hnodup
      rw [← hbegun]
      exact pinnedApart_reservePlanes acquired hnodup
    · cases h

/-- A settled placement has the frame's layers on planes that nobody else has. -/
theorem settled_apart {address : Planes.LayerId} (hs : s.Accounted) (htabled : s.Tabled address)
    {w : Placing} (h : s.settled dev q flags testOnly = some (r, w)) :
    w.scene.claimedElsewhere = s.claimedElsewhere ∧ ∀ a ∈ r.acquired,
      Apart s.claimedElsewhere a.attrs.pinnedPlaneId (w.scene.heap a.layer) := by
  obtain ⟨e, hentry, h⟩ := Option.bind_eq_some_iff.mp h
  obtain ⟨spec, -⟩ := entry_spec hentry
  obtain ⟨hclaimed, hentered⟩ := entry_apart hentry
  have hsame := (sameTable_prepared dev s q).trans spec.held.sameTable
  have htwin : ∀ a ∈ e.round.acquired, a.layer ∈ e.scene.twins := fun a ha => by
    obtain ⟨hslot, hlive⟩ := slot_of_acquired spec.acquireAll ha
    rw [twins_of_shape spec.held.sameTable.shape]
    exact List.mem_map_of_mem (List.mem_filter.mpr ⟨hslot, hlive⟩)
  have hone : ∀ a ∈ e.round.acquired, ∀ a' ∈ e.round.acquired, a'.layer = a.layer → a' = a := by
    have hnodup := (s.prepared dev q).nodup_acquired q
    rw [List.map_map, spec.acquireAll] at hnodup
    exact fun a ha a' ha' heq => List.inj_on_of_nodup_map hnodup ha' ha heq
  obtain ⟨s', ⟨hs', hkept, hsame', hapart⟩, heq⟩ := placeRounds_eq_round dev e.round e.request
    e.report (fun s' => s'.Accounted ∧ Kept e.scene s' ∧ SameTable e.scene s' ∧
      ∀ a ∈ e.round.acquired,
        PinnedApart s.claimedElsewhere a.attrs.pinnedPlaneId (s'.heap a.layer))
    (fun s' w victim ⟨hs', hkept, hsame', hapart⟩ hround => by
      have hspec := placeRound_spec hs' hround
      have hdemote := w.scene.held_demote victim
      refine ⟨hspec.accounted.held hdemote, (hkept.trans hspec.kept).trans hdemote.kept,
        (hsame'.trans hspec.sameTable).trans hdemote.sameTable, fun a ha => ?_⟩
      obtain ⟨hl, hscene⟩ := (htabled.congr hsame).listed_twin hsame' hs' (htwin a ha)
      have hplaced := (apart_placeRound hround hl hscene (hone a ha) hclaimed
        (hapart a ha)).pinnedApart
      refine (?_ : PinnedApart s.claimedElsewhere a.attrs.pinnedPlaneId
        (Function.update w.scene.heap victim
          { w.scene.heap victim with transientComposited := true } a.layer))
      by_cases hv : a.layer = victim
      · subst hv
        rw [Function.update_self]
        exact ⟨hplaced.pin, hplaced.plane⟩
      · rwa [Function.update_of_ne hv])
    e.round.acquired.length
    ⟨(accounted_prepared dev hs q).held spec.held, .refl _, .refl _, hentered⟩
  rw [heq] at h
  cases hround : s'.placeRound dev e.round e.request e.report with
  | failed s e =>
    rw [hround] at h
    cases h
  | placed w' feasible =>
    rw [hround] at h
    cases h
    refine ⟨?_, fun a ha => ?_⟩
    · have hkept' := (spec.held.kept.trans hkept).trans (placeRound_spec hs' hround).kept
      exact (congrArg KeptPart.claimedElsewhere hkept').trans (claimedElsewhere_prepared dev s q)
    · obtain ⟨hl, hscene⟩ := (htabled.congr hsame).listed_twin hsame' hs' (htwin a ha)
      exact apart_placeRound hround hl hscene (hone a ha) hclaimed (hapart a ha)

/-- What a scene set takes over of a build. -/
def frameBuildState (s : SceneState) (f : BuiltFrame) : FrameBuildState where
  layers := f.acquisitions.map fun a => ⟨true, s.assignedPlane a, a.slot.streamPinnedPlaneId⟩
  canvasPlane := f.canvasPlane
  effectiveFlags := f.effectiveFlags

/-- What leaving planes out keeps of a build that is on none of them. -/
theorem leaveOut_eq_self {claimed : List PlaneId} {b : FrameBuildState}
    (hlayers : ∀ l ∈ b.layers, ∀ p ∈ l.assignedPlane, p ∉ claimed)
    (hcanvas : ∀ p ∈ b.canvasPlane, p ∉ claimed) : b.leaveOut claimed = b := by
  have hfilter : ∀ o : Option PlaneId, (∀ p ∈ o, p ∉ claimed) →
      (o.filter fun p => !claimed.contains p) = o := by
    intro o ho
    cases o with
    | none => rfl
    | some p => simp [Option.filter, ho p rfl]
  have hmap : (b.layers.map fun l : LayerPlacement =>
      { l with assignedPlane := l.assignedPlane.filter fun p => !claimed.contains p }) =
        b.layers := by
    refine (List.map_congr_left fun l hl => ?_).trans (List.map_id _)
    rw [hfilter _ (hlayers l hl)]
    rfl
  rw [FrameBuildState.leaveOut, hmap, hfilter _ hcanvas]

/-- A build keeps its layers and its canvas off the planes that other scenes hold, as the set takes
for granted. -/
theorem leaveOut_frameBuildState {address : Planes.LayerId} (hs : s.Accounted)
    (htabled : s.Tabled address) {f : BuiltFrame}
    (hf : (s.buildFrameInto dev q flags testOnly).result = .ok (some f)) :
    ((s.buildFrameInto dev q flags testOnly).scene.frameBuildState f).leaveOut
        s.claimedElsewhere =
      (s.buildFrameInto dev q flags testOnly).scene.frameBuildState f := by
  obtain ⟨r, w, hsettled⟩ := exists_settled hf
  obtain ⟨hclaimed, hapart⟩ := settled_apart hs htabled hsettled
  rw [(settled_spec hs htabled hsettled).2] at hf ⊢
  have hstill := w.still_composeUnassigned dev r.answers w.scene.verifyFlags r.acquired
  have harmed := w.armed_of_composeUnassigned dev r.answers w.scene.verifyFlags r.acquired
  unfold finishBuild at hf ⊢
  generalize w.composeUnassigned dev r.answers w.scene.verifyFlags r.acquired = composed
    at hf hstill harmed ⊢
  dsimp only at hf ⊢
  split at hf
  · cases hf
  · cases hf
    refine leaveOut_eq_self (fun l hl p hp => ?_) fun p hp => ?_
    · obtain ⟨a, ha, rfl⟩ := List.mem_map.mp hl
      have hplane : (composed.placing.scene.heap a.layer).assignedPlane = some p := hp
      rw [hstill.heap] at hplane
      exact (hapart a ha).plane p hplane
    · obtain ⟨caps, hcaps, rfl⟩ := harmed p hp
      rw [← hclaimed]
      exact canvasPlaneCandidates_unclaimed hcaps

end SceneState

end Scene

end DrmCxx
