import DrmCxx.Lib.Run
import DrmCxx.Scene.SceneSet
import Mathlib.Data.List.Nodup
import Mathlib.Data.List.Range
import Mathlib.Data.List.Perm.Basic
import Mathlib.Logic.Function.Basic

/-!
# One scene owns a plane

Over a run of a scene set, no plane has two owners. While every layer that keeps a plane has a
buffer, no plane is armed by two scenes in one frame either, and what a scene's last accepted
commit lit stays the scene's.
-/

namespace DrmCxx.Scene

open DrmCxx.Planes (PlaneId CrtcId)
open Lib SceneSet

/-! ### Claims -/

namespace Claims

/-- No plane has two owners. -/
def OneOwner (claims : Claims) : Prop := (claims.map (·.plane)).Nodup

theorem OneOwner.eq_of_plane_eq {claims : Claims} (h : claims.OneOwner) {c c' : PlaneClaim}
    (hc : c ∈ claims) (hc' : c' ∈ claims) (hplane : c.plane = c'.plane) : c = c' :=
  List.inj_on_of_nodup_map h hc hc' hplane

theorem mem_elsewhere {claims : Claims} {idx : SceneIndex} {p : PlaneId} :
    p ∈ claims.elsewhere idx ↔ ∃ c ∈ claims, c.owner ≠ idx ∧ c.plane = p := by
  simp [elsewhere, and_assoc]

theorem mem_take {claims : Claims} {idx : SceneIndex} {p : PlaneId} {c : PlaneClaim} :
    c ∈ claims.take idx p ↔ c = ⟨p, idx⟩ ∨ c ∈ claims ∧ c.plane ≠ p := by
  unfold take
  split_ifs with hany
  · rw [List.mem_map]
    constructor
    · rintro ⟨d, hd, rfl⟩
      by_cases hplane : d.plane = p
      · simp [hplane]
      · simpa [hplane] using Or.inr hd
    · rintro (rfl | ⟨hc, hplane⟩)
      · obtain ⟨d, hd, hplane⟩ := List.any_eq_true.mp hany
        obtain rfl : d.plane = p := by simpa using hplane
        exact ⟨d, hd, by simp⟩
      · exact ⟨c, hc, by simp [hplane]⟩
  · have hfree : ∀ d ∈ claims, d.plane ≠ p := by simpa using hany
    rw [List.mem_append, List.mem_singleton]
    constructor
    · rintro (hc | rfl)
      · exact .inr ⟨hc, hfree c hc⟩
      · exact .inl rfl
    · rintro (rfl | ⟨hc, -⟩)
      · exact .inr rfl
      · exact .inl hc

theorem oneOwner_take {claims : Claims} (h : claims.OneOwner) (idx : SceneIndex) (p : PlaneId) :
    (claims.take idx p).OneOwner := by
  unfold take
  split_ifs with hany
  · have hplanes : (claims.map fun c => if c.plane = p then { c with owner := idx } else c).map
        (·.plane) = claims.map (·.plane) := by
      rw [List.map_map]
      refine List.map_congr_left fun c _ => ?_
      by_cases hplane : c.plane = p <;> simp [hplane]
    rw [OneOwner, hplanes]
    exact h
  · have hfree : p ∉ claims.map (·.plane) := by simpa using hany
    rw [OneOwner, List.map_append, List.map_singleton]
    exact List.Nodup.append h (List.nodup_singleton p) (by simpa using hfree)

theorem mem_foldl_take {claims : Claims} {idx : SceneIndex} {armed : List PlaneId}
    {c : PlaneClaim} :
    c ∈ armed.foldl (fun claims p => claims.take idx p) claims ↔
      c.plane ∈ armed ∧ c.owner = idx ∨ c ∈ claims ∧ c.plane ∉ armed := by
  induction armed generalizing claims with
  | nil => simp
  | cons p armed ih =>
    rw [List.foldl_cons, ih, mem_take, List.mem_cons]
    rcases c with ⟨plane, owner⟩
    simp only [PlaneClaim.mk.injEq]
    by_cases hp : plane = p <;> by_cases hmem : plane ∈ armed <;> simp [hp, hmem] <;> aesop

/-- After a claim the scene holds what it armed, and the others hold the rest. -/
theorem mem_claim {claims : Claims} {idx : SceneIndex} {armed : List PlaneId} {c : PlaneClaim} :
    c ∈ claims.claim idx armed ↔
      c.plane ∈ armed ∧ c.owner = idx ∨ c ∈ claims ∧ c.owner ≠ idx ∧ c.plane ∉ armed := by
  simp [claim, mem_foldl_take, and_assoc]

theorem oneOwner_filter {claims : Claims} (h : claims.OneOwner) (p : PlaneClaim → Bool) :
    OneOwner (claims.filter p) :=
  (List.filter_sublist.map _).nodup h

theorem oneOwner_claim {claims : Claims} (h : claims.OneOwner) (idx : SceneIndex)
    (armed : List PlaneId) : (claims.claim idx armed).OneOwner := by
  have hfold : ∀ claims : Claims, claims.OneOwner →
      OneOwner (armed.foldl (fun claims p => claims.take idx p) claims) := by
    induction armed with
    | nil => exact fun _ h => h
    | cons p armed ih => exact fun claims h => ih _ (oneOwner_take h idx p)
  exact hfold _ (oneOwner_filter h _)

theorem mem_reconcile {claims old : Claims} {failed : SceneIndex → Bool} {c : PlaneClaim} :
    c ∈ claims.reconcile old failed ↔ c ∈ claims ∧ failed c.owner = false ∨
      c ∈ old ∧ failed c.owner = true ∧
        ∀ d ∈ claims, failed d.owner = false → d.plane ≠ c.plane := by
  simp [reconcile]

theorem oneOwner_reconcile {claims old : Claims} (h : claims.OneOwner) (hold : old.OneOwner)
    (failed : SceneIndex → Bool) : (claims.reconcile old failed).OneOwner := by
  rw [OneOwner, reconcile, List.map_append]
  refine List.Nodup.append (oneOwner_filter h _) (oneOwner_filter hold _) ?_
  intro p hp hp'
  obtain ⟨c, hc, rfl⟩ := List.mem_map.mp hp
  obtain ⟨d, hd, hplane⟩ := List.mem_map.mp hp'
  have hfree := (Bool.and_eq_true_iff.mp (List.mem_filter.mp hd).2).2
  simp only [Bool.not_eq_true', List.any_eq_false, decide_eq_true_eq] at hfree
  exact hfree c hc hplane.symm

end Claims

/-! ### Groups -/

theorem slotIndices_sublist (slots : List SceneSlotState) (p : SceneSlotState → Bool) :
    (slotIndices slots p).Sublist (List.range slots.length) := by
  have hzip : slots.zipIdx.map (·.2) = List.range slots.length := by
    rw [List.zipIdx_map_snd, List.range_eq_range']
  rw [slotIndices, ← hzip]
  exact List.filter_sublist.map _

theorem mem_slotIndices {slots : List SceneSlotState} {p : SceneSlotState → Bool}
    {idx : SceneIndex} (h : idx ∈ slotIndices slots p) :
    ∃ slot, slots[idx]? = some slot ∧ p slot = true := by
  obtain ⟨s, hs, rfl⟩ := List.mem_map.mp h
  obtain ⟨hmem, hp⟩ := List.mem_filter.mp hs
  exact ⟨s.1, List.mem_zipIdx_iff_getElem?.mp hmem, (Bool.and_eq_true_iff.mp hp).2⟩

theorem flatten_oneGroup (group : List SceneIndex) : (oneGroup group).flatten = group := by
  cases group <;> simp [oneGroup]

/-- A scene is in one group, once. -/
theorem partitionForPolicy_nodup (slots : List SceneSlotState) (policy : NarrowPolicy) :
    (partitionForPolicy slots policy).flatten.Nodup := by
  have hnodup : ∀ p, (slotIndices slots p).Nodup := fun p =>
    (slotIndices_sublist slots p).nodup List.nodup_range
  cases policy with
  | combined => simpa [partitionForPolicy, flatten_oneGroup] using hnodup _
  | perCrtc =>
    have hflat : ∀ xs : List SceneIndex, (xs.map ([·])).flatten = xs := by
      intro xs
      induction xs with
      | nil => rfl
      | cons x xs ih => simpa using ih
    simpa [partitionForPolicy, hflat] using hnodup _
  | autoOnModeset =>
    have happend : (slotIndices slots (·.wantsModeset) ++
        slotIndices slots fun s => !s.wantsModeset).Nodup := by
      refine List.Nodup.append (hnodup _) (hnodup _) ?_
      intro idx hmodeset hsteady
      obtain ⟨slot, hslot, hwants⟩ := mem_slotIndices hmodeset
      obtain ⟨slot', hslot', hnot⟩ := mem_slotIndices hsteady
      rw [hslot] at hslot'
      cases hslot'
      simp [hwants] at hnot
    unfold partitionForPolicy
    dsimp only
    split_ifs
    · simpa using happend
    · simpa [flatten_oneGroup] using happend

/-! ### Builds -/

namespace SceneSet

/-- No layer or canvas of the build is on a plane that was left out. -/
def EngagedBuild.Avoids (eb : EngagedBuild) : Prop :=
  (∀ l ∈ eb.state.layers, ∀ p, l.assignedPlane = some p → p ∉ eb.elsewhere) ∧
    ∀ p, eb.state.canvasPlane = some p → p ∉ eb.elsewhere

/-- Each layer that has a plane has a buffer, and no stream is bound to a plane that another scene
holds. -/
structure EngagedBuild.Covered (eb : EngagedBuild) : Prop where
  acquired : ∀ l ∈ eb.state.layers, l.acquired = false →
    l.assignedPlane = none ∧ l.streamPinnedPlane = none
  streams : ∀ l ∈ eb.state.layers, ∀ p, l.streamPinnedPlane = some p → p ∉ eb.elsewhere

/-- The builds of a frame, each beside what the scenes hold by then. -/
inductive Builds : Claims → List EngagedBuild → Claims → Prop
  | nil (claims : Claims) : Builds claims [] claims
  | cons {claims claims' : Claims} {eb : EngagedBuild} {ebs : List EngagedBuild}
      (helsewhere : eb.elsewhere = claims.elsewhere eb.sceneIndex) (havoids : eb.Avoids)
      (hrest : Builds (claims.claim eb.sceneIndex eb.state.armedPlanes) ebs claims') :
      Builds claims (eb :: ebs) claims'

theorem Builds.append {c c' c'' : Claims} {ebs ebs' : List EngagedBuild} (h : Builds c ebs c')
    (h' : Builds c' ebs' c'') : Builds c (ebs ++ ebs') c'' := by
  induction h with
  | nil => exact h'
  | cons helsewhere havoids _ ih => exact .cons helsewhere havoids (ih h')

theorem avoids_leaveOut (idx : SceneIndex) (elsewhere : List PlaneId) (b : FrameBuildState) :
    EngagedBuild.Avoids ⟨idx, elsewhere, b.leaveOut elsewhere⟩ := by
  constructor
  · intro l hl p hp
    obtain ⟨l', -, rfl⟩ := List.mem_map.mp hl
    simpa using (Option.filter_eq_some_iff.mp hp).2
  · intro p hp
    simpa using (Option.filter_eq_some_iff.mp hp).2

theorem builds_buildGroup (f : SetFrame) (claims : Claims) (group : List SceneIndex) :
    Builds claims (buildGroup f claims group).2.1 (buildGroup f claims group).1 ∧
      (sceneIndices (buildGroup f claims group).2.1).Sublist group := by
  induction group generalizing claims with
  | nil => exact ⟨.nil claims, List.Sublist.slnil⟩
  | cons idx group ih =>
    cases hbuild : f.build idx (claims.elsewhere idx) with
    | error e =>
      simp only [buildGroup, hbuild]
      exact ⟨.nil claims, List.nil_sublist _⟩
    | ok result =>
      cases result with
      | none =>
        simp only [buildGroup, hbuild]
        exact ⟨(ih claims).1, (ih claims).2.cons idx⟩
      | some state =>
        simp only [buildGroup, hbuild]
        obtain ⟨hbuilds, hsub⟩ :=
          ih (claims.claim idx (state.leaveOut (claims.elsewhere idx)).armedPlanes)
        exact ⟨.cons rfl (avoids_leaveOut _ _ _) hbuilds, hsub.cons_cons idx⟩

theorem builds_buildGroups (f : SetFrame) (n : ℕ) (claims : Claims)
    (groups : List (List SceneIndex)) :
    Builds claims (buildGroups f n claims groups).groups.flatten
        (buildGroups f n claims groups).claims ∧
      (sceneIndices (buildGroups f n claims groups).groups.flatten).Sublist groups.flatten := by
  induction groups generalizing n claims with
  | nil => exact ⟨.nil claims, List.Sublist.slnil⟩
  | cons group groups ih =>
    obtain ⟨hbuilt, hsub⟩ := builds_buildGroup f claims group
    by_cases hvalid : f.requestValid n = true
    · cases herror : (buildGroup f claims group).2.2 with
      | some e =>
        simp only [buildGroups, hvalid, herror, if_true, List.flatten_singleton]
        exact ⟨hbuilt, hsub.trans (List.sublist_append_left _ _)⟩
      | none =>
        obtain ⟨hrest, hsub'⟩ := ih (n + 1) (buildGroup f claims group).1
        simp only [buildGroups, hvalid, herror, if_true, List.flatten_cons, sceneIndices,
          List.map_append]
        exact ⟨hbuilt.append hrest, hsub.append hsub'⟩
    · simp only [buildGroups, hvalid]
      exact ⟨.nil claims, List.nil_sublist _⟩

/-- The scenes of a frame are built one after the other, each once. -/
theorem builds_buildPhase (s : SceneSet) (f : SetFrame) :
    Builds s.planeOwner (s.buildPhase f).groups.flatten (s.buildPhase f).claims ∧
      (sceneIndices (s.buildPhase f).groups.flatten).Nodup := by
  obtain ⟨hbuilds, hsub⟩ := builds_buildGroups f 0 s.planeOwner
    (partitionForPolicy (s.snapshotSlots f) f.policy)
  exact ⟨hbuilds, hsub.nodup (partitionForPolicy_nodup _ _)⟩

/-! ### Who holds what after the builds -/

theorem mem_planes {layers : List LayerPlacement} {canvas : Option PlaneId} {p : PlaneId} :
    p ∈ FrameBuildState.planes layers canvas ↔
      (∃ l ∈ layers, l.assignedPlane = some p ∨ l.streamPinnedPlane = some p) ∨
        canvas = some p := by
  simp [FrameBuildState.planes]

/-- A covered scene claims every plane that shows it. -/
theorem EngagedBuild.Covered.armed_eq_lit {eb : EngagedBuild} (h : eb.Covered) (p : PlaneId) :
    p ∈ eb.state.armedPlanes ↔ p ∈ eb.state.litPlanes := by
  rw [FrameBuildState.armedPlanes, FrameBuildState.litPlanes, mem_planes, mem_planes]
  refine or_congr_left ⟨?_, ?_⟩
  · rintro ⟨l, hl, hplane⟩
    exact ⟨l, (List.mem_filter.mp hl).1, hplane⟩
  · rintro ⟨l, hl, hplane⟩
    refine ⟨l, List.mem_filter.mpr ⟨hl, ?_⟩, hplane⟩
    by_contra hskipped
    have hnone := h.acquired l hl (by simpa using hskipped)
    simp [hnone] at hplane

theorem EngagedBuild.Covered.not_mem_elsewhere {eb : EngagedBuild} (h : eb.Covered)
    (havoids : eb.Avoids) {p : PlaneId} (hp : p ∈ eb.state.armedPlanes) : p ∉ eb.elsewhere := by
  rw [h.armed_eq_lit, FrameBuildState.litPlanes, mem_planes] at hp
  rcases hp with ⟨l, hl, hplane | hplane⟩ | hcanvas
  · exact havoids.1 l hl p hplane
  · exact h.streams l hl p hplane
  · exact havoids.2 p hcanvas

section Builds

variable {c c' : Claims} {ebs : List EngagedBuild}

theorem Builds.oneOwner (h : Builds c ebs c') (hc : c.OneOwner) : c'.OneOwner := by
  induction h with
  | nil => exact hc
  | cons _ _ _ ih => exact ih (Claims.oneOwner_claim hc _ _)

/-- A claim after the builds is an old one of a scene that was not built, or one of its build. -/
theorem Builds.claim_cases (h : Builds c ebs c') {d : PlaneClaim} (hd : d ∈ c') :
    d ∈ c ∧ d.owner ∉ sceneIndices ebs ∨
      ∃ eb ∈ ebs, eb.sceneIndex = d.owner ∧ d.plane ∈ eb.state.armedPlanes := by
  induction h with
  | nil => exact .inl ⟨hd, by simp [sceneIndices]⟩
  | @cons claims claims' eb ebs _ _ _ ih =>
    rcases ih hd with ⟨hmem, hnot⟩ | ⟨eb', heb', howner, hplane⟩
    · rcases Claims.mem_claim.mp hmem with ⟨hplane, howner⟩ | ⟨hmem, hne, -⟩
      · exact .inr ⟨eb, List.mem_cons_self, howner.symm, hplane⟩
      · refine .inl ⟨hmem, ?_⟩
        simp only [sceneIndices, List.map_cons, List.mem_cons, not_or] at hnot ⊢
        exact ⟨hne, hnot⟩
    · exact .inr ⟨eb', List.mem_cons_of_mem _ heb', howner, hplane⟩

/-- A scene that is not built keeps what it holds. -/
theorem Builds.keeps (h : Builds c ebs c') (hcovered : ∀ eb ∈ ebs, eb.Covered) {d : PlaneClaim}
    (hd : d ∈ c) (hnot : d.owner ∉ sceneIndices ebs) : d ∈ c' := by
  induction h with
  | nil => exact hd
  | @cons claims claims' eb ebs helsewhere havoids _ ih =>
    simp only [sceneIndices, List.map_cons, List.mem_cons, not_or] at hnot
    refine ih (fun eb' heb' => hcovered eb' (List.mem_cons_of_mem _ heb')) ?_ hnot.2
    refine Claims.mem_claim.mpr (.inr ⟨hd, hnot.1, fun harmed => ?_⟩)
    refine (hcovered eb List.mem_cons_self).not_mem_elsewhere havoids harmed ?_
    rw [helsewhere]
    exact Claims.mem_elsewhere.mpr ⟨d, hd, hnot.1, rfl⟩

/-- A scene that is built holds what it armed. -/
theorem Builds.armed (h : Builds c ebs c') (hcovered : ∀ eb ∈ ebs, eb.Covered)
    (hnodup : (sceneIndices ebs).Nodup) {eb : EngagedBuild} (heb : eb ∈ ebs) {p : PlaneId}
    (hp : p ∈ eb.state.armedPlanes) : ⟨p, eb.sceneIndex⟩ ∈ c' := by
  induction h with
  | nil => cases heb
  | @cons claims claims' eb' ebs _ _ hrest ih =>
    have hcov : ∀ eb ∈ ebs, eb.Covered := fun eb heb => hcovered eb (List.mem_cons_of_mem _ heb)
    simp only [sceneIndices, List.map_cons, List.nodup_cons] at hnodup
    rcases List.mem_cons.mp heb with rfl | heb
    · exact hrest.keeps hcov (Claims.mem_claim.mpr (.inl ⟨hp, rfl⟩)) hnodup.1
    · exact ih hcov hnodup.2 heb

end Builds

/-! ### Submitted groups -/

section Submitted

variable {gs : List (List EngagedBuild × Except Errc Unit)}

theorem submitGroups_fst (f : SetFrame) (groups : List (List EngagedBuild)) :
    (submitGroups f groups).map (·.1) = groups := by
  induction groups with
  | nil => rfl
  | cons group groups ih => simp [submitGroups, ih]

theorem mem_committed {eb : EngagedBuild} :
    eb ∈ committed gs ↔ ∃ g ∈ gs, g.2 = .ok () ∧ eb ∈ g.1 := by
  rw [committed, List.mem_flatMap]
  refine exists_congr fun g => and_congr_right fun _ => ?_
  split_ifs with h <;> simp [h]

theorem failed_iff {idx : SceneIndex} :
    failed gs idx = true ↔ ∃ g ∈ gs, g.2 ≠ .ok () ∧ idx ∈ sceneIndices g.1 := by
  simp [failed]

/-- A scene is in one request. -/
theorem eq_of_scene_mem (hnodup : (sceneIndices (gs.map (·.1)).flatten).Nodup) {idx : SceneIndex}
    {g g' : List EngagedBuild × Except Errc Unit} (hg : g ∈ gs) (hg' : g' ∈ gs)
    (hidx : idx ∈ sceneIndices g.1) (hidx' : idx ∈ sceneIndices g'.1) : g = g' := by
  induction gs with
  | nil => cases hg
  | cons h gs ih =>
    have hrest : ∀ {k : List EngagedBuild × Except Errc Unit}, k ∈ gs → idx ∈ sceneIndices k.1 →
        idx ∈ sceneIndices (gs.map (·.1)).flatten := by
      intro k hk hidx
      obtain ⟨eb, heb, rfl⟩ := List.mem_map.mp hidx
      exact List.mem_map_of_mem (List.mem_flatten_of_mem (List.mem_map_of_mem hk) heb)
    rw [List.map_cons, List.flatten_cons, sceneIndices, List.map_append] at hnodup
    obtain ⟨-, hnodup, hdisjoint⟩ := List.nodup_append.mp hnodup
    rcases List.mem_cons.mp hg with rfl | hmem <;> rcases List.mem_cons.mp hg' with rfl | hmem'
    · rfl
    · exact absurd rfl (hdisjoint idx hidx idx (hrest hmem' hidx'))
    · exact absurd rfl (hdisjoint idx hidx' idx (hrest hmem hidx))
    · exact ih hnodup hmem hmem'

theorem not_failed_of_committed (hnodup : (sceneIndices (gs.map (·.1)).flatten).Nodup)
    {eb : EngagedBuild} (heb : eb ∈ committed gs) : failed gs eb.sceneIndex = false := by
  obtain ⟨g, hg, hok, heb⟩ := mem_committed.mp heb
  rw [← Bool.not_eq_true, failed_iff]
  rintro ⟨g', hg', herror, hidx⟩
  have heq := eq_of_scene_mem hnodup hg hg' (List.mem_map_of_mem heb) hidx
  exact herror (heq ▸ hok)

theorem committed_or_failed {eb : EngagedBuild} (heb : eb ∈ (gs.map (·.1)).flatten) :
    eb ∈ committed gs ∨ failed gs eb.sceneIndex = true := by
  obtain ⟨group, hgroup, heb⟩ := List.mem_flatten.mp heb
  obtain ⟨g, hg, rfl⟩ := List.mem_map.mp hgroup
  by_cases hok : g.2 = .ok ()
  · exact .inl (mem_committed.mpr ⟨g, hg, hok, heb⟩)
  · exact .inr (failed_iff.mpr ⟨g, hg, hok, List.mem_map_of_mem heb⟩)

end Submitted

/-! ### Seeding -/

/-- Every old claim is kept, and a new one is a plane that nobody owned and the kernel shows lit on
the CRTC of a scene that joined. -/
structure SeedsOnly (s : SceneSet) (planes : Option (List KernelPlane)) (claims : Claims) :
    Prop where
  kept : ∀ c ∈ s.planeOwner, c ∈ claims
  joined : ∀ c ∈ claims, c ∉ s.planeOwner →
    ∃ crtc ps, s.scenes[c.owner]? = some (some ⟨crtc, false⟩) ∧ planes = some ps ∧
      (∃ p ∈ ps, p.planeId = c.plane ∧ p.crtcId = crtc ∧ p.fbId ≠ 0) ∧
      ∀ d ∈ s.planeOwner, d.plane ≠ c.plane

theorem oneOwner_seedScene (planes : List KernelPlane) (crtc : CrtcId) (idx : SceneIndex)
    {claims : Claims} (h : claims.OneOwner) : (seedScene planes crtc idx claims).OneOwner := by
  induction planes generalizing claims with
  | nil => exact h
  | cons p planes ih =>
    rw [seedScene, List.foldl_cons]
    split_ifs with hlit
    · refine ih ?_
      have hfree : p.planeId ∉ claims.map (·.plane) := by simpa using hlit.2.2
      rw [Claims.OneOwner, List.map_append, List.map_singleton]
      exact List.Nodup.append h (List.nodup_singleton _) (by simpa using hfree)
    · exact ih h

theorem subset_seedScene (planes : List KernelPlane) (crtc : CrtcId) (idx : SceneIndex)
    {claims : Claims} {c : PlaneClaim} (hc : c ∈ claims) :
    c ∈ seedScene planes crtc idx claims := by
  induction planes generalizing claims with
  | nil => exact hc
  | cons p planes ih =>
    rw [seedScene, List.foldl_cons]
    split_ifs
    · exact ih (List.mem_append_left _ hc)
    · exact ih hc

theorem mem_seedScene {planes : List KernelPlane} {crtc : CrtcId} {idx : SceneIndex}
    {claims : Claims} {c : PlaneClaim} (hc : c ∈ seedScene planes crtc idx claims) :
    c ∈ claims ∨ c.owner = idx ∧
      (∃ p ∈ planes, p.planeId = c.plane ∧ p.crtcId = crtc ∧ p.fbId ≠ 0) ∧
      ∀ d ∈ claims, d.plane ≠ c.plane := by
  induction planes generalizing claims with
  | nil => exact .inl hc
  | cons p planes ih =>
    rw [seedScene, List.foldl_cons] at hc
    split_ifs at hc with hlit
    · rcases ih hc with hmem | ⟨howner, ⟨q, hq, hshown⟩, hfree⟩
      · rcases List.mem_append.mp hmem with hmem | hnew
        · exact .inl hmem
        · obtain rfl := List.mem_singleton.mp hnew
          refine .inr ⟨rfl, ⟨p, List.mem_cons_self, rfl, hlit.1, hlit.2.1⟩, ?_⟩
          simpa using hlit.2.2
      · exact .inr ⟨howner, ⟨q, List.mem_cons_of_mem _ hq, hshown⟩,
          fun d hd => hfree d (List.mem_append_left _ hd)⟩
    · rcases ih hc with hmem | ⟨howner, ⟨q, hq, hshown⟩, hfree⟩
      · exact .inl hmem
      · exact .inr ⟨howner, ⟨q, List.mem_cons_of_mem _ hq, hshown⟩, hfree⟩

/-- What seeding does over any part of the slots. -/
theorem foldl_seedSlot (planes : List KernelPlane) (slots : List (Option SetScene × SceneIndex))
    (claims : Claims) :
    (claims.OneOwner → (slots.foldl (seedSlot planes) claims).OneOwner) ∧
      (∀ c ∈ claims, c ∈ slots.foldl (seedSlot planes) claims) ∧
      ∀ c ∈ slots.foldl (seedSlot planes) claims, c ∉ claims →
        ∃ crtc, (some ⟨crtc, false⟩, c.owner) ∈ slots ∧
          (∃ p ∈ planes, p.planeId = c.plane ∧ p.crtcId = crtc ∧ p.fbId ≠ 0) ∧
          ∀ d ∈ claims, d.plane ≠ c.plane := by
  induction slots generalizing claims with
  | nil => exact ⟨id, fun _ h => h, fun c hc hnot => absurd hc hnot⟩
  | cons slot slots ih =>
    rw [List.foldl_cons]
    obtain ⟨hone, hkept, hjoined⟩ := ih (seedSlot planes claims slot)
    have hlater : ∀ c ∈ slots.foldl (seedSlot planes) (seedSlot planes claims slot),
        c ∉ seedSlot planes claims slot → (∀ d ∈ claims, d ∈ seedSlot planes claims slot) →
        ∃ crtc, (some ⟨crtc, false⟩, c.owner) ∈ slot :: slots ∧
          (∃ p ∈ planes, p.planeId = c.plane ∧ p.crtcId = crtc ∧ p.fbId ≠ 0) ∧
          ∀ d ∈ claims, d.plane ≠ c.plane := by
      intro c hc hnot hsub
      obtain ⟨crtc, hmem, hshown, hfree⟩ := hjoined c hc hnot
      exact ⟨crtc, List.mem_cons_of_mem _ hmem, hshown, fun d hd => hfree d (hsub d hd)⟩
    rcases slot with ⟨_ | ⟨crtc, _ | _⟩, idx⟩
    · exact ⟨hone, hkept, fun c hc hnot => hlater c hc hnot fun d hd => hd⟩
    · refine ⟨fun h => hone (oneOwner_seedScene planes crtc idx h),
        fun c hc => hkept c (subset_seedScene planes crtc idx hc), fun c hc hnot => ?_⟩
      by_cases hmem : c ∈ seedSlot planes claims (some ⟨crtc, false⟩, idx)
      · rcases mem_seedScene hmem with hold | ⟨rfl, hshown, hfree⟩
        · exact absurd hold hnot
        · exact ⟨crtc, List.mem_cons_self, hshown, hfree⟩
      · exact hlater c hc hmem fun d hd => subset_seedScene planes crtc idx hd
    · exact ⟨hone, hkept, fun c hc hnot => hlater c hc hnot fun d hd => hd⟩

theorem seedPlaneOwners_spec (s : SceneSet) (planes : Option (List KernelPlane)) :
    (s.planeOwner.OneOwner → (s.seedPlaneOwners planes).planeOwner.OneOwner) ∧
      SeedsOnly s planes (s.seedPlaneOwners planes).planeOwner := by
  cases planes with
  | none => exact ⟨id, fun c hc => hc, fun c hc hnot => absurd hc hnot⟩
  | some ps =>
    obtain ⟨hone, hkept, hjoined⟩ := foldl_seedSlot ps s.scenes.zipIdx s.planeOwner
    refine ⟨hone, hkept, fun c hc hnot => ?_⟩
    obtain ⟨crtc, hmem, hshown, hfree⟩ := hjoined c hc hnot
    exact ⟨crtc, ps, List.mem_zipIdx_iff_getElem?.mp hmem, rfl, hshown, hfree⟩

end SceneSet

/-! ### Runs -/

inductive SetEvent
  | addScene (crtc : CrtcId)
  | removeScene (idx : SceneIndex)
  | frame (f : SetFrame)

/-- A scene set, with the planes that each scene's last accepted commit lit and no other committed
scene has armed since. -/
structure SetTrace where
  set : SceneSet := {}
  lit : SceneIndex → List PlaneId := fun _ => []

namespace SetTrace

/-- The planes lit once these builds are accepted. -/
def relit (lit : SceneIndex → List PlaneId) (builds : List EngagedBuild) (idx : SceneIndex) :
    List PlaneId :=
  match builds.find? (·.sceneIndex = idx) with
  | some eb => eb.state.litPlanes
  | none => (lit idx).filter fun p => builds.all fun eb => !eb.state.litPlanes.contains p

def step (t : SetTrace) : SetEvent → SetTrace
  | .addScene crtc =>
    { set := (t.set.addScene crtc).1
      lit := Function.update t.lit (t.set.addScene crtc).2 [] }
  | .removeScene idx => { set := t.set.removeScene idx, lit := Function.update t.lit idx [] }
  | .frame f =>
    let o := t.set.doCommitAll f
    { set := o.set, lit := if f.testOnly then t.lit else relit t.lit (committed o.submitted) }

/-- What a scene's last accepted commit lit is the scene's. -/
def LitOwned (t : SetTrace) : Prop :=
  ∀ idx, ∀ p ∈ t.lit idx, ⟨p, idx⟩ ∈ t.set.planeOwner

/-- Every scene that takes part in the frame claims what it lights. -/
def FrameCovered (t : SetTrace) : SetEvent → Prop
  | .frame f => ∀ eb ∈ (t.set.doCommitAll f).builds, eb.Covered
  | _ => True

/-- No plane has two owners after the step, and a test claims nothing but the planes that scenes
joined with. -/
def OwnersKept (t : SetTrace) (e : SetEvent) : Prop :=
  (t.step e).set.planeOwner.OneOwner ∧
    match e with
    | .frame f => f.testOnly = true →
        SeedsOnly t.set f.kernelPlanes (t.step e).set.planeOwner
    | _ => True

/-- Two scenes light different planes in the frame, and what is lit is owned after it. -/
def PlanesApart (t : SetTrace) (e : SetEvent) : Prop :=
  (t.step e).LitOwned ∧
    match e with
    | .frame f => ∀ eb ∈ (t.set.doCommitAll f).builds, ∀ eb' ∈ (t.set.doCommitAll f).builds,
        ∀ p ∈ eb.state.litPlanes, p ∈ eb'.state.litPlanes → eb.sceneIndex = eb'.sceneIndex
    | _ => True

/-! ### One frame -/

/-- How `doCommitAll` ends. -/
inductive Outcome (s : SceneSet) (f : SetFrame) : SetOutcome → Prop
  | idle : Outcome s f ⟨s, [], [], none⟩
  | failed (e : Errc) : Outcome s f ⟨s.seedPlaneOwners f.kernelPlanes,
      ((s.seedPlaneOwners f.kernelPlanes).buildPhase f).groups.flatten, [], some e⟩
  | submitted (owner : Claims) (gs : List (List EngagedBuild × Except Errc Unit))
      (hgs : (gs.map (·.1)).flatten =
        ((s.seedPlaneOwners f.kernelPlanes).buildPhase f).groups.flatten)
      (howner : (f.testOnly = true ∨ gs = []) ∧
          owner = (s.seedPlaneOwners f.kernelPlanes).planeOwner ∨
        f.testOnly = false ∧ owner = Claims.reconcile
          ((s.seedPlaneOwners f.kernelPlanes).buildPhase f).claims
          (s.seedPlaneOwners f.kernelPlanes).planeOwner (SceneSet.failed gs)) :
      Outcome s f ⟨{ s.seedPlaneOwners f.kernelPlanes with planeOwner := owner },
        ((s.seedPlaneOwners f.kernelPlanes).buildPhase f).groups.flatten, gs, firstError gs⟩

theorem flatten_pending (b : BuildPhase) : (pending b).flatten = b.groups.flatten := by
  rw [pending]
  exact List.flatten_filter_not_isEmpty

theorem outcome_doCommitAll (s : SceneSet) (f : SetFrame) : Outcome s f (s.doCommitAll f) := by
  rw [doCommitAll]
  split_ifs with hempty
  · exact .idle
  · dsimp only
    cases herror : ((s.seedPlaneOwners f.kernelPlanes).buildPhase f).error with
    | some e => exact .failed e
    | none =>
      refine .submitted _ _ ?_ ?_
      · rw [submitGroups_fst, flatten_pending]
      · split_ifs with htest
        · refine .inl ⟨?_, rfl⟩
          simpa using htest
        · refine .inr ⟨?_, rfl⟩
          simp only [Bool.or_eq_true, not_or, Bool.not_eq_true] at htest
          exact htest.1

theorem seedsOnly_refl (s : SceneSet) (planes : Option (List KernelPlane)) :
    SeedsOnly s planes s.planeOwner :=
  ⟨fun _ hc => hc, fun _ hc hnot => absurd hc hnot⟩

theorem oneOwner_doCommitAll {s : SceneSet} (f : SetFrame) (h : s.planeOwner.OneOwner) :
    (s.doCommitAll f).set.planeOwner.OneOwner := by
  have hseeded := (seedPlaneOwners_spec s f.kernelPlanes).1 h
  have houtcome := outcome_doCommitAll s f
  generalize s.doCommitAll f = o at houtcome ⊢
  cases houtcome with
  | idle => exact h
  | failed e => exact hseeded
  | submitted owner gs hgs howner =>
    rcases howner with ⟨-, rfl⟩ | ⟨-, rfl⟩
    · exact hseeded
    · exact Claims.oneOwner_reconcile ((builds_buildPhase _ f).1.oneOwner hseeded) hseeded _

theorem seedsOnly_test {s : SceneSet} {f : SetFrame} (htest : f.testOnly = true) :
    SeedsOnly s f.kernelPlanes (s.doCommitAll f).set.planeOwner := by
  have hspec := (seedPlaneOwners_spec s f.kernelPlanes).2
  have houtcome := outcome_doCommitAll s f
  generalize s.doCommitAll f = o at houtcome ⊢
  cases houtcome with
  | idle => exact seedsOnly_refl s _
  | failed e => exact hspec
  | submitted owner gs hgs howner =>
    rcases howner with ⟨-, rfl⟩ | ⟨hreal, -⟩
    · exact hspec
    · simp [hreal] at htest

/-- Builds of one frame light different planes. -/
theorem lit_apart {s : SceneSet} {f : SetFrame} (h : s.planeOwner.OneOwner)
    (hcovered : ∀ eb ∈ (s.doCommitAll f).builds, eb.Covered) :
    ∀ eb ∈ (s.doCommitAll f).builds, ∀ eb' ∈ (s.doCommitAll f).builds,
      ∀ p ∈ eb.state.litPlanes, p ∈ eb'.state.litPlanes → eb.sceneIndex = eb'.sceneIndex := by
  have hseeded := (seedPlaneOwners_spec s f.kernelPlanes).1 h
  obtain ⟨hbuilds, hnodup⟩ := builds_buildPhase (s.seedPlaneOwners f.kernelPlanes) f
  have happart : ∀ ebs, ebs = ((s.seedPlaneOwners f.kernelPlanes).buildPhase f).groups.flatten →
      (∀ eb ∈ ebs, eb.Covered) → ∀ eb ∈ ebs, ∀ eb' ∈ ebs, ∀ p ∈ eb.state.litPlanes,
        p ∈ eb'.state.litPlanes → eb.sceneIndex = eb'.sceneIndex := by
    rintro _ rfl hcovered eb heb eb' heb' p hp hp'
    have hclaim := hbuilds.armed hcovered hnodup heb (((hcovered eb heb).armed_eq_lit p).mpr hp)
    have hclaim' :=
      hbuilds.armed hcovered hnodup heb' (((hcovered eb' heb').armed_eq_lit p).mpr hp')
    exact congrArg PlaneClaim.owner
      ((hbuilds.oneOwner hseeded).eq_of_plane_eq hclaim hclaim' rfl)
  have houtcome := outcome_doCommitAll s f
  generalize s.doCommitAll f = o at houtcome hcovered ⊢
  cases houtcome with
  | idle => exact fun eb heb => absurd heb List.not_mem_nil
  | failed e => exact happart _ rfl hcovered
  | submitted owner gs hgs howner => exact happart _ rfl hcovered

theorem relit_nil (lit : SceneIndex → List PlaneId) : relit lit [] = lit := by
  funext idx
  simp [relit]

/-- What the accepted requests light is claimed by then, and nothing lit before is lost to a scene
that did not arm it. -/
theorem litOwned_reconcile {s : SceneSet} {f : SetFrame} {lit : SceneIndex → List PlaneId}
    {gs : List (List EngagedBuild × Except Errc Unit)} (h : s.planeOwner.OneOwner)
    (hlit : ∀ idx, ∀ p ∈ lit idx, ⟨p, idx⟩ ∈ s.planeOwner)
    (hgs : (gs.map (·.1)).flatten = (s.buildPhase f).groups.flatten)
    (hcovered : ∀ eb ∈ (s.buildPhase f).groups.flatten, eb.Covered) :
    ∀ idx, ∀ p ∈ relit lit (committed gs) idx,
      ⟨p, idx⟩ ∈ Claims.reconcile (s.buildPhase f).claims s.planeOwner (SceneSet.failed gs) := by
  obtain ⟨hbuilds, hnodup⟩ := builds_buildPhase s f
  rw [← hgs] at hnodup hbuilds hcovered
  have hbuilt : ∀ eb ∈ committed gs, eb ∈ (gs.map (·.1)).flatten := by
    intro eb heb
    obtain ⟨g, hg, -, heb⟩ := mem_committed.mp heb
    exact List.mem_flatten_of_mem (List.mem_map_of_mem hg) heb
  intro idx p hp
  rw [Claims.mem_reconcile]
  unfold relit at hp
  cases hfind : (committed gs).find? (·.sceneIndex = idx) with
  | some eb =>
    rw [hfind] at hp
    have heb := List.mem_of_find?_eq_some hfind
    obtain rfl : eb.sceneIndex = idx := by simpa using List.find?_some hfind
    refine .inl ⟨?_, not_failed_of_committed hnodup heb⟩
    exact hbuilds.armed hcovered hnodup (hbuilt eb heb)
      (((hcovered eb (hbuilt eb heb)).armed_eq_lit p).mpr hp)
  | none =>
    rw [hfind] at hp
    obtain ⟨hp, hfree⟩ := List.mem_filter.mp hp
    have hfree : ∀ eb ∈ committed gs, p ∉ eb.state.litPlanes := by simpa using hfree
    have hnot : ∀ eb ∈ committed gs, eb.sceneIndex ≠ idx := by simpa using hfind
    have hold := hlit idx p hp
    cases hfailed : SceneSet.failed gs idx with
    | true =>
      -- the scene failed: nobody else can have taken the plane
      refine .inr ⟨hold, rfl, fun d hd hkept hplane => ?_⟩
      rcases hbuilds.claim_cases hd with ⟨hmem, hunbuilt⟩ | ⟨eb, heb, howner, harmed⟩
      · obtain rfl := h.eq_of_plane_eq hmem hold hplane
        obtain ⟨g, hg, -, hidx⟩ := failed_iff.mp hfailed
        obtain ⟨eb, heb, hscene⟩ := List.mem_map.mp hidx
        refine hunbuilt (hscene ▸ List.mem_map_of_mem ?_)
        exact List.mem_flatten_of_mem (List.mem_map_of_mem hg) heb
      · rcases committed_or_failed heb with hcommitted | hfailed'
        · refine hfree eb hcommitted (((hcovered eb heb).armed_eq_lit p).mp ?_)
          simpa [hplane] using harmed
        · simp [howner, hkept] at hfailed'
    | false =>
      refine .inl ⟨hbuilds.keeps hcovered hold fun hidx => ?_, rfl⟩
      obtain ⟨eb, heb, hscene⟩ := List.mem_map.mp hidx
      rcases committed_or_failed heb with hcommitted | hfailed'
      · exact hnot eb hcommitted hscene
      · rw [hscene, hfailed] at hfailed'
        cases hfailed'

theorem litOwned_doCommitAll {t : SetTrace} {f : SetFrame} (h : t.set.planeOwner.OneOwner)
    (hlit : t.LitOwned) (hcovered : ∀ eb ∈ (t.set.doCommitAll f).builds, eb.Covered) :
    (t.step (.frame f)).LitOwned := by
  obtain ⟨hone, hspec⟩ := seedPlaneOwners_spec t.set f.kernelPlanes
  have hseeded : ∀ idx, ∀ p ∈ t.lit idx,
      ⟨p, idx⟩ ∈ (t.set.seedPlaneOwners f.kernelPlanes).planeOwner :=
    fun idx p hp => hspec.kept _ (hlit idx p hp)
  have houtcome := outcome_doCommitAll t.set f
  simp only [LitOwned, step]
  generalize t.set.doCommitAll f = o at houtcome hcovered ⊢
  cases houtcome with
  | idle => simpa [relit_nil, committed] using fun idx p hp => hlit idx p hp
  | failed e => simpa [relit_nil, committed] using hseeded
  | submitted owner gs hgs howner =>
    rcases howner with ⟨htest | rfl, rfl⟩ | ⟨hreal, rfl⟩
    · simpa [htest] using hseeded
    · simpa [relit_nil, committed] using hseeded
    · simpa [hreal] using litOwned_reconcile (hone h) hseeded hgs hcovered

/-! ### Runs -/

theorem oneOwner_step {t : SetTrace} (h : t.set.planeOwner.OneOwner) (e : SetEvent) :
    (t.step e).set.planeOwner.OneOwner := by
  cases e with
  | addScene crtc =>
    simp only [step, addScene]
    split <;> exact h
  | removeScene idx =>
    simp only [step, removeScene]
    split
    · exact Claims.oneOwner_filter h _
    · exact h
  | frame f => exact oneOwner_doCommitAll f h

theorem litOwned_step {t : SetTrace} (h : t.set.planeOwner.OneOwner) (hlit : t.LitOwned)
    {e : SetEvent} (hcovered : t.FrameCovered e) : (t.step e).LitOwned := by
  cases e with
  | addScene crtc =>
    intro idx p hp
    have hkeep : (t.set.addScene crtc).1.planeOwner = t.set.planeOwner := by
      rw [addScene]
      split <;> rfl
    by_cases hidx : idx = (t.set.addScene crtc).2
    · simp [step, hidx] at hp
    · have hold : p ∈ t.lit idx := by simpa [step, hidx] using hp
      simpa [step, hkeep] using hlit idx p hold
  | removeScene idx =>
    intro idx' p hp
    by_cases hidx : idx' = idx
    · simp [step, hidx] at hp
    · have hold : p ∈ t.lit idx' := by simpa [step, hidx] using hp
      simp only [step, removeScene]
      split
      · exact List.mem_filter.mpr ⟨hlit idx' p hold, by simpa using hidx⟩
      · exact hlit idx' p hold
  | frame f => exact litOwned_doCommitAll h hlit hcovered

theorem ownersKept_of_oneOwner {t : SetTrace} (h : t.set.planeOwner.OneOwner) (e : SetEvent) :
    t.OwnersKept e := by
  refine ⟨oneOwner_step h e, ?_⟩
  cases e with
  | addScene crtc => trivial
  | removeScene idx => trivial
  | frame f => exact seedsOnly_test

/-- Over every run each plane has one owner. While the scenes claim what they light, scenes light
different planes, and what a scene has lit is its own. -/
theorem ownership_run (es : List SetEvent) :
    Meets step OwnersKept {} es ∧
      (Meets step FrameCovered {} es → Meets step PlanesApart {} es) := by
  have hinit : ({} : SetTrace).set.planeOwner.OneOwner := List.nodup_nil
  constructor
  · have hstep : ∀ (t : SetTrace) (e : SetEvent), t.set.planeOwner.OneOwner → True →
        (t.step e).set.planeOwner.OneOwner := fun t e h _ => oneOwner_step h e
    exact meets_of_invariant (fun t : SetTrace => t.set.planeOwner.OneOwner) hstep
      (fun t e h _ => ownersKept_of_oneOwner h e) hinit (meets_true step _ es)
  · intro hcovered
    have hstep : ∀ (t : SetTrace) (e : SetEvent), t.set.planeOwner.OneOwner ∧ t.LitOwned →
        t.FrameCovered e → (t.step e).set.planeOwner.OneOwner ∧ (t.step e).LitOwned :=
      fun t e h hcov => ⟨oneOwner_step h.1 e, litOwned_step h.1 h.2 hcov⟩
    refine meets_of_invariant (fun t : SetTrace => t.set.planeOwner.OneOwner ∧ t.LitOwned) hstep
      (fun t e h hcov => ⟨litOwned_step h.1 h.2 hcov, ?_⟩) ⟨hinit, by simp [LitOwned]⟩ hcovered
    cases e with
    | addScene crtc => trivial
    | removeScene idx => trivial
    | frame f => exact lit_apart h.1 hcov

/-- One commit of two scenes, each with one layer; the second has lost plane 1 to the first. -/
def twoScenes : SetFrame where
  policy := .autoOnModeset
  testOnly := false
  wantsModeset idx := idx = 0
  kernelPlanes := some [⟨2, 8, 100⟩]
  requestValid _ := true
  build idx elsewhere :=
    .ok (some { layers := [⟨true, if idx = 0 ∨ 1 ∉ elsewhere then some 1 else some 2, none⟩] })
  kernel _ _ := .ok ()

theorem ownership_run_twoScenes :
    Meets step PlanesApart {} [.addScene 7, .addScene 8, .frame twoScenes] := by
  refine (ownership_run _).2 ⟨trivial, trivial, fun eb heb => ?_, trivial⟩
  have hbuilds : (((({} : SetTrace).step (.addScene 7)).step (.addScene 8)).set.doCommitAll
      twoScenes).builds =
        [⟨0, [2], { layers := [⟨true, some 1, none⟩] }⟩,
          ⟨1, [1], { layers := [⟨true, some 2, none⟩] }⟩] := by decide
  rw [hbuilds] at heb
  rcases List.mem_cons.mp heb with rfl | heb
  · exact ⟨by decide, by simp⟩
  · obtain rfl := List.mem_singleton.mp heb
    exact ⟨by decide, by simp⟩

/-- A dry run of a scene that joined with plane 5 lit. -/
def warmTest : SetFrame where
  policy := .combined
  testOnly := true
  wantsModeset _ := true
  kernelPlanes := some [⟨5, 7, 100⟩]
  requestValid _ := true
  build _ _ := .ok (some { layers := [⟨true, some 5, none⟩] })
  kernel _ _ := .ok ()

theorem not_testKeepsOwners :
    warmTest.testOnly = true ∧
      ((run step {} [.addScene 7]).step (.frame warmTest)).set.planeOwner ≠
        (run step {} [.addScene 7]).set.planeOwner := by
  decide

end SetTrace

end DrmCxx.Scene
