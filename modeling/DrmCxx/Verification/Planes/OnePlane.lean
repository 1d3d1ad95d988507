import DrmCxx.Verification.Planes.PlaneOrder
import DrmCxx.Verification.Planes.Stacking
import Mathlib.Data.List.Perm.Subperm

/-!
# One plane a layer

Every stage of a search puts a layer on one plane at most, so the planes an assignment takes are
counted by the layers it shows.
-/

namespace DrmCxx.Planes

open DrmCxx.Lib DrmCxx.Modeset

/-! ### One plane a layer -/

namespace Assignment

variable {a b : Assignment} {layers : List LayerId}

/-- No layer is on two planes. -/
def OnePlane (a : Assignment) : Prop :=
  ∀ p p' l, (p, l) ∈ a.entries → (p', l) ∈ a.entries → p = p'

theorem onePlane_empty : OnePlane Table.empty := fun _ _ _ h => absurd h List.not_mem_nil

theorem OnePlane.subset (h : OnePlane a) (hb : b.entries ⊆ a.entries) : OnePlane b :=
  fun p p' l hp hp' => h p p' l (hb hp) (hb hp')

theorem OnePlane.insert (h : OnePlane a) {q : PlaneId} {l : LayerId}
    (hl : ∀ p, (p, l) ∉ a.entries) : OnePlane (a.insertOrAssign q l) := by
  intro p p' k hp hp'
  rcases Table.mem_insertOrAssign.mp hp with ⟨rfl, rfl⟩ | ⟨-, hold⟩ <;>
    rcases Table.mem_insertOrAssign.mp hp' with ⟨rfl, hk⟩ | ⟨-, hold'⟩
  · rfl
  · exact absurd hold' (hl p')
  · exact absurd (hk ▸ hold) (hl p)
  · exact h p p' k hold hold'

/-- Layers that come once and are not placed yet are placed once. -/
theorem OnePlane.foldl (h : OnePlane a) (es : List (PlaneId × LayerId))
    (hes : (es.map Prod.snd).Nodup) (hnew : ∀ e ∈ es, ∀ p, (p, e.2) ∉ a.entries) :
    OnePlane (es.foldl (fun a e => a.insertOrAssign e.1 e.2) a) := by
  induction es generalizing a with
  | nil => exact h
  | cons e es ih =>
    rw [List.map_cons, List.nodup_cons] at hes
    refine ih (h.insert (hnew e List.mem_cons_self)) hes.2 fun e' he' p hp => ?_
    rcases Table.mem_insertOrAssign.mp hp with ⟨-, hl⟩ | ⟨-, hp⟩
    · exact hes.1 (hl ▸ List.mem_map_of_mem (f := Prod.snd) he')
    · exact hnew e' (List.mem_cons_of_mem _ he') p hp

theorem OnePlane.nodup_values (h : OnePlane a) : a.values.Nodup := by
  refine List.Nodup.map_on (fun x hx y hy hxy => ?_) (List.Nodup.of_map _ a.nodupKeys)
  exact Prod.ext (h x.1 y.1 y.2 (hxy ▸ hx) hy) hxy

/-- As many planes as layers, at most. -/
theorem OnePlane.size_le (h : OnePlane a) (hsub : a.values ⊆ layers) :
    a.size ≤ layers.length := by
  have hlen := (h.nodup_values.subperm hsub).length_le
  rwa [Table.values, List.length_map] at hlen

/-- A layer without a plane leaves one over. -/
theorem OnePlane.size_lt (h : OnePlane a) (hsub : a.values ⊆ layers) {l : LayerId}
    (hl : l ∈ layers) (hfree : l ∉ a.values) : a.size < layers.length := by
  have hnodup : (l :: a.values).Nodup := List.nodup_cons.mpr ⟨hfree, h.nodup_values⟩
  have hlen := (hnodup.subperm (List.cons_subset.mpr ⟨hl, hsub⟩)).length_le
  rwa [List.length_cons, Table.values, List.length_map] at hlen

end Assignment

/-! ### Groups share no item -/

section Groups

variable {α : Type} {items : List α} {intersect : α → α → Bool} {priority : α → ℤ}

theorem nodup_groupOf (h : items.Nodup) (r : ℕ) : (groupOf items intersect r).Nodup := by
  have hmap : groupOf items intersect r =
      (items.zipIdx.filter fun e => groupRoot items intersect e.2 = r).map Prod.fst := by
    unfold groupOf
    induction items.zipIdx with
    | nil => rfl
    | cons e es ih =>
      rw [List.filterMap_cons, List.filter_cons, ih]
      by_cases hr : groupRoot items intersect e.2 = r <;> simp [hr]
  rw [hmap]
  exact h.sublist ((List.filter_sublist.map _).trans (by rw [List.zipIdx_map_fst]))

theorem nodup_of_mem_independentGroups (h : items.Nodup) {g : List α}
    (hg : g ∈ independentGroups items intersect priority) : g.Nodup := by
  have hg := (List.perm_insertionSort _ _).mem_iff.mp hg
  obtain ⟨r, -, rfl⟩ := List.mem_map.mp hg
  exact nodup_groupOf h r

theorem independentGroups_disjoint (h : items.Nodup) :
    (independentGroups items intersect priority).Pairwise List.Disjoint := by
  rw [independentGroups, (List.perm_insertionSort _ _).pairwise_iff fun h => h.symm]
  unfold collectGroups
  rw [List.pairwise_map]
  refine (nodup_eraseDups _).imp fun {r r'} hne x hx hx' => hne ?_
  obtain ⟨i, hi, rfl⟩ := exists_of_mem_groupOf hx
  obtain ⟨j, hj, rfl⟩ := exists_of_mem_groupOf hx'
  rw [(List.getElem?_inj (List.getElem?_eq_some_iff.mp hi).1 h).mp (hi.trans hj.symm)]

end Groups

namespace SearchContext

open Assignment

variable {c : SearchContext} {layers : List LayerId} {planes : List PlaneCapabilities}
  {a : Assignment} {s : SearchState}

theorem Placed.values_subset (h : c.Placed layers planes a) : a.values ⊆ layers := by
  intro l hl
  obtain ⟨p, hp⟩ := Table.mem_values.mp hl
  exact (h p l hp).1

/-! ### One group -/

theorem nodup_byKeepPriority (h : layers.Nodup) : (c.byKeepPriority layers).Nodup :=
  (List.perm_insertionSort _ _).nodup_iff.mpr h

theorem bipartitePreseedGroup_sublist (s : SearchState) (layers : List LayerId)
    (planes : List PlaneCapabilities) :
    ((c.bipartitePreseedGroup s layers planes).map Prod.fst).Sublist layers := by
  unfold bipartitePreseedGroup
  dsimp only
  generalize (Matching.init layers.length planes.length).solve _ layers.length = m
  have hpairs : ∀ es : List (LayerId × ℕ),
      ((es.filterMap fun e => (m.matchForLeft e.2).bind fun j =>
        (planes[j]?).map fun p => (e.1, p)).map Prod.fst).Sublist (es.map Prod.fst) := by
    intro es
    induction es with
    | nil => exact List.Sublist.refl _
    | cons e es ih =>
      rw [List.filterMap_cons]
      split
      · exact ih.cons _
      · rename_i pair hpair
        obtain ⟨j, -, hj⟩ := Option.bind_eq_some_iff.mp hpair
        obtain ⟨q, -, rfl⟩ := Option.map_eq_some_iff.mp hj
        exact ih.cons_cons _
  simpa [List.zipIdx_map_fst] using hpairs layers.zipIdx

theorem preseed_onePlane (h : layers.Nodup) (s : SearchState) (planes : List PlaneCapabilities) :
    OnePlane ((c.bipartitePreseedGroup s layers planes).foldl
      (fun a (l, p) => Table.insertOrAssign a p.id l) Table.empty) := by
  have hnodup := h.sublist (bipartitePreseedGroup_sublist (c := c) s layers planes)
  have hfold := onePlane_empty.foldl
    ((c.bipartitePreseedGroup s layers planes).map fun e => (e.2.id, e.1))
    (by rwa [List.map_map]) (fun _ _ _ => List.not_mem_nil)
  rwa [List.foldl_map] at hfold

theorem greedyPass_onePlane (virtual : Bool) (candidates : List (PlaneCapabilities × LayerId))
    (h : OnePlane a) : OnePlane (c.greedyPass s virtual candidates a) := by
  unfold greedyPass
  induction candidates generalizing a with
  | nil => exact h
  | cons e es ih =>
    apply ih
    dsimp only
    split
    · exact h
    · rename_i hfree
      simp only [Bool.or_eq_true, not_or, Bool.not_eq_true] at hfree
      refine h.insert fun p hp => ?_
      have hlayer := hfree.1.1.1.2
      rw [hasLayer, List.any_eq_false] at hlayer
      exact hlayer (p, e.2) hp (by simp)

theorem placeGreedy_onePlane (layers : List LayerId) (planes : List PlaneCapabilities)
    (s : SearchState) : OnePlane (c.placeGreedy layers planes s).1 := by
  have hgreedy : OnePlane (c.greedy s (c.rankCandidatesGroup s layers planes)) :=
    greedyPass_onePlane true _ (greedyPass_onePlane false _ onePlane_empty)
  unfold placeGreedy
  dsimp only
  split
  · exact hgreedy
  · exact hgreedy.subset (dropOne_subset _ _ _ _)

theorem placeGroup_onePlane (h : layers.Nodup) (planes : List PlaneCapabilities)
    (s : SearchState) : OnePlane (c.placeGroup layers planes s).1 := by
  have hordered : (c.byKeepPriority layers).Nodup := nodup_byKeepPriority h
  unfold placeGroup
  dsimp only
  have hpreseed := preseed_onePlane (c := c) hordered s planes
  split
  · exact hpreseed
  · split
    · split
      · exact hpreseed
      · exact placeGreedy_onePlane _ _ _
    · exact placeGreedy_onePlane _ _ _

/-! ### The whole scene -/

theorem placeGroups_onePlane (groups : List (List LayerId)) (pool : List PlaneCapabilities)
    (hnodup : ∀ g ∈ groups, g.Nodup) (hgroups : groups.Pairwise List.Disjoint)
    (hbest : OnePlane a) (happart : ∀ g ∈ groups, a.values.Disjoint g) :
    OnePlane (c.placeGroups groups pool a s).1 := by
  induction groups generalizing pool a s with
  | nil => exact hbest
  | cons g gs ih =>
    rw [placeGroups]
    rw [List.pairwise_cons] at hgroups
    have hgroup := placeGroup_onePlane (c := c) (hnodup g List.mem_cons_self) pool s
    have hplaced := fun p l => placeGroup_placed (c := c) g pool s p l
    generalize c.placeGroup g pool s = placed at hgroup hplaced
    have hmerged : ∀ l, l ∈ Table.values (placed.1.entries.foldl
        (fun best e => best.insertOrAssign e.1 e.2) a) → l ∈ a.values ∨ l ∈ g := by
      intro l hl
      obtain ⟨p, hp⟩ := Table.mem_values.mp hl
      exact (mem_merge hp).imp (fun h => Table.mem_values.mpr ⟨p, h⟩) fun h => (hplaced p l h).1
    refine ih _ (fun g' hg' => hnodup g' (List.mem_cons_of_mem _ hg')) hgroups.2
      (hbest.foldl _ hgroup.nodup_values fun e he p hp => ?_) fun g' hg' l hl hl' => ?_
    · exact happart g List.mem_cons_self (Table.mem_values.mpr ⟨p, hp⟩) (hplaced e.1 e.2 he).1
    · rcases hmerged l hl with hold | hnew
      · exact happart g' (List.mem_cons_of_mem _ hg') hold hl'
      · exact hgroups.1 g' hg' hnew hl'

theorem partialFallback_onePlane (fuel : ℕ) (h : layers.Nodup) :
    OnePlane (c.partialFallback planes fuel layers s).1 := by
  induction fuel generalizing layers s with
  | zero => exact onePlane_empty
  | succ fuel ih =>
    rw [partialFallback]
    split
    · exact onePlane_empty
    · dsimp only
      split
      · exact placeGroup_onePlane h planes s
      · split
        · exact onePlane_empty
        · exact ih (h.erase _)

/-- A fold that keeps its best or takes the item it looks at finds one of the items. -/
theorem foldl_pick {α : Type} {pick : Option α → α → Option α}
    (hpick : ∀ best x r, pick best x = some r → best = some r ∨ r = x) {xs : List α}
    {best : Option α} {r : α} (h : xs.foldl pick best = some r) : best = some r ∨ r ∈ xs := by
  induction xs generalizing best with
  | nil => exact .inl h
  | cons x xs ih =>
    rcases ih h with hbest | hmem
    · rcases hpick best x r hbest with hold | rfl
      · exact .inl hold
      · exact .inr List.mem_cons_self
    · exact .inr (List.mem_cons_of_mem _ hmem)

/-- A run of `w` layers that is composited leaves the others. -/
theorem bestRun_le {w start : ℕ} (h : c.bestRun layers w = some start) :
    start + w ≤ layers.length := by
  unfold bestRun at h
  dsimp only at h
  refine (foldl_pick (fun best x r hr => ?_) h).elim (fun hnone => by cases hnone) fun hmem => ?_
  · cases best with
    | none => exact .inr (Option.some.inj hr).symm
    | some b =>
      dsimp only at hr
      split at hr
      · exact .inr (Option.some.inj hr).symm
      · exact .inl hr
  · have hcovers := (List.mem_filter.mp hmem).2
    rw [Bool.and_eq_true, decide_eq_true_eq] at hcovers
    exact hcovers.1

theorem aroundRunLoop_size (h : layers.Nodup) (ws : List ℕ) {bound : ℕ}
    (hws : ∀ w ∈ ws, layers.length - w ≤ bound) {run : Assignment}
    (hrun : (c.aroundRunLoop layers planes ws s).1 = some run) :
    OnePlane run ∧ run.size ≤ bound := by
  induction ws generalizing s with
  | nil => cases hrun
  | cons w ws ih =>
    have htail := fun s => ih (s := s) fun w' hw' => hws w' (List.mem_cons_of_mem _ hw')
    rw [aroundRunLoop] at hrun
    split at hrun
    · cases hrun
    · split at hrun
      · exact htail _ hrun
      · rename_i start hstart
        dsimp only at hrun
        split at hrun
        · cases hrun
          have hsub : (layers.take start ++ layers.drop (start + w)).Sublist layers := by
            conv_rhs => rw [← List.take_append_drop start layers]
            exact (List.Sublist.refl _).append
              (List.drop_sublist_drop_left _ (Nat.le_add_right _ _))
          have hone := placeGroup_onePlane (c := c) (h.sublist hsub) planes s
          have hsize := hone.size_le (placeGroup_placed _ _ _).values_subset
          have hle := bestRun_le hstart
          have hw := hws w List.mem_cons_self
          rw [List.length_append, List.length_take, List.length_drop] at hsize
          exact ⟨hone, by omega⟩
        · exact htail _ hrun

/-! ### Plane order -/

/-- Slots of different layers place each layer once. -/
theorem nodup_entries (h : layers.Nodup) (byId : List PlaneCapabilities) {o : OrderProblem}
    {choice : Choice} {lo hi : ℕ} (hvalid : o.Valid choice lo hi) :
    (((slots o choice).filterMap (entryAt layers byId)).map Prod.snd).Nodup := by
  refine List.pairwise_map.mpr (List.pairwise_filterMap.mpr ?_)
  refine (slots_sorted hvalid).imp fun {x y} hlt e he e' he' hsame => ?_
  obtain ⟨l, hl, he⟩ := Option.bind_eq_some_iff.mp he
  obtain ⟨q, -, rfl⟩ := Option.map_eq_some_iff.mp he
  obtain ⟨l', hl', he'⟩ := Option.bind_eq_some_iff.mp he'
  obtain ⟨q', -, rfl⟩ := Option.map_eq_some_iff.mp he'
  obtain rfl : l = l' := hsame
  have hx := (List.getElem?_eq_some_iff.mp hl).1
  exact hlt.ne ((List.getElem?_inj hx h).mp (hl.trans hl'.symm))

theorem assignmentOf_onePlane (h : layers.Nodup) (byId : List PlaneCapabilities) {o : OrderProblem}
    {choice : Choice} {lo hi : ℕ} (hvalid : o.Valid choice lo hi) :
    OnePlane (assignmentOf layers byId o choice) := by
  rw [assignmentOf, show (List.range choice.a).map _ ++ _ = slots o choice from rfl, foldl_placeAt]
  exact onePlane_empty.foldl _ (nodup_entries h byId hvalid) fun _ _ _ => List.not_mem_nil

theorem planeOrderLoop_onePlane (h : layers.Nodup) (byId : List PlaneCapabilities)
    (o : OrderProblem) (fuel maxPlaced : ℕ) :
    OnePlane (c.planeOrderLoop layers byId o fuel maxPlaced s).1 := by
  induction fuel generalizing maxPlaced s with
  | zero => exact onePlane_empty
  | succ fuel ih =>
    rw [planeOrderLoop]
    split
    · exact onePlane_empty
    · rename_i choice hchoice
      obtain ⟨lo, hi, hvalid⟩ := OrderProblem.choose_valid hchoice
      have hone := assignmentOf_onePlane h byId hvalid
      dsimp only
      split
      · exact hone
      · split
        · exact hone
        · split
          · exact onePlane_empty
          · exact ih _

theorem placeInPlaneOrder_onePlane (h : layers.Nodup) (planes : List PlaneCapabilities)
    (withCanvas : Bool) (s : SearchState) :
    OnePlane (c.placeInPlaneOrder layers planes withCanvas s).1 := by
  unfold placeInPlaneOrder
  split
  · exact onePlane_empty
  · exact planeOrderLoop_onePlane h _ _ _ _

/-! ### The search -/

/-- The layers `place_on_zpos_crtc` offers a plane. -/
def placeable (c : SearchContext) : List LayerId :=
  c.layers.filter fun l =>
    !(c.heap l).externallyBound && !(c.heap l).transientComposited && !(c.heap l).pinned

theorem nodup_placeable (h : c.layers.Nodup) : c.placeable.Nodup := h.filter _

theorem mem_capToBlendLimit {l : LayerId} (layers : List LayerId) :
    l ∈ (c.capToBlendLimit layers).1 ↔ l ∈ layers ∧ l ∉ (c.capToBlendLimit layers).2 := by
  unfold capToBlendLimit
  split
  · simp
  · split
    · simp
    · simp [List.mem_filter]

theorem placeOnZposCrtc_onePlane (h : c.layers.Nodup) (s : SearchState) :
    OnePlane (c.placeOnZposCrtc s).1 := by
  have hcapped : (c.capToBlendLimit c.placeable).1.Nodup := by
    unfold capToBlendLimit
    split
    · exact nodup_placeable h
    · split
      · exact nodup_placeable h
      · exact (nodup_placeable h).filter _
  unfold placeOnZposCrtc
  dsimp only
  split
  · exact placeGroups_onePlane _ _ (fun g hg => nodup_of_mem_independentGroups hcapped hg)
      (independentGroups_disjoint hcapped) onePlane_empty fun _ _ _ h => absurd h List.not_mem_nil
  · exact partialFallback_onePlane _ ((h.filter _).filter _)

theorem placeOnZposCrtc_capped (s : SearchState) :
    c.Placed (c.capToBlendLimit c.placeable).1 c.availablePlanes (c.placeOnZposCrtc s).1 := by
  unfold placeOnZposCrtc
  dsimp only
  split
  · refine placeGroups_placed _ _ (fun g hg l hl => ?_) (List.Subset.refl _) placed_empty
    exact mem_of_mem_independentGroups hg hl
  · refine partialFallback_placed _ _ fun l hl => ?_
    obtain ⟨hscene, hrest⟩ := List.mem_filter.mp hl
    obtain ⟨hl, hfree⟩ := List.mem_filter.mp hscene
    simp only [Bool.and_eq_true, Bool.not_eq_true'] at hrest hfree
    refine (mem_capToBlendLimit _).mpr ⟨List.mem_filter.mpr ⟨hl, ?_⟩, ?_⟩
    · simp [hfree.1.2, hfree.2, hrest.1.2]
    · rw [List.contains_eq_mem, decide_eq_false_iff_not] at hrest
      exact hrest.2

/-- Settling the canvas arms no more planes. -/
theorem settleCanvas_onePlane (h : c.layers.Nodup) (hone : OnePlane a) (s : SearchState) :
    OnePlane (c.settleCanvas a s).1 ∧ (c.settleCanvas a s).1.size ≤ a.size := by
  rcases settleCanvas_cases a s with hsub | hrun
  · refine ⟨hone.subset hsub, ?_⟩
    exact ((List.Nodup.of_map _ (c.settleCanvas a s).1.nodupKeys).subperm hsub).length_le
  · have hscene : c.sceneLayers.Nodup := h.filter _
    refine aroundRunLoop_size hscene _ (fun w hw => ?_) hrun
    obtain ⟨i, hi, hget⟩ := List.mem_drop_iff_getElem.mp hw
    rw [List.getElem_range] at hget
    omega

theorem searchAssignment_onePlane (h : c.layers.Nodup) (s : SearchState) :
    OnePlane (c.searchAssignment s).1 := by
  unfold searchAssignment
  split
  · exact placeInPlaneOrder_onePlane (h.filter _) _ _ _
  · exact (settleCanvas_onePlane h (placeOnZposCrtc_onePlane h s) _).1

end SearchContext

end DrmCxx.Planes
