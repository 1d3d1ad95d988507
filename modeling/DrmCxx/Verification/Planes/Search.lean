import DrmCxx.Planes.Allocator.Search
import DrmCxx.Verification.Planes.Matching

/-!
# What a placement search may return

Every search path takes its pairs from the layers and planes it is given, and puts each through
the static gate. The paths that shrink an assignment keep a part of it.
-/

namespace DrmCxx.Planes

open DrmCxx.Lib

/-! ### Groups hold the items they are made of -/

section Groups

variable {α : Type} {items : List α} {intersect : α → α → Bool} {priority : α → ℤ}

theorem mem_of_mem_collectGroups {g : List α} {x : α} (hg : g ∈ collectGroups items intersect)
    (hx : x ∈ g) : x ∈ items := by
  unfold collectGroups at hg
  obtain ⟨r, -, rfl⟩ := List.mem_map.mp hg
  obtain ⟨⟨a, i⟩, hmem, h⟩ := List.mem_filterMap.mp hx
  have ha : a ∈ items := (List.mem_zipIdx' hmem).2 ▸ List.getElem_mem _
  dsimp only at h
  split at h
  · exact Option.some.inj h ▸ ha
  · cases h

theorem mem_of_mem_independentGroups {g : List α} {x : α}
    (hg : g ∈ independentGroups items intersect priority) (hx : x ∈ g) : x ∈ items :=
  mem_of_mem_collectGroups ((List.perm_insertionSort _ _).mem_iff.mp hg) hx

end Groups

namespace SearchContext

variable {c : SearchContext}

/-! ### Parts of an assignment -/

theorem eraseWithChildren_subset (among : List (PlaneId × LayerId)) (p : PlaneId) (a : Assignment) :
    (c.eraseWithChildren among p a).entries ⊆ a.entries := by
  have herase : ∀ (b : Assignment) (q : PlaneId), (b.erase q).entries ⊆ b.entries := by
    intro b q e he
    exact (Table.mem_erase.mp he).2
  unfold eraseWithChildren
  suffices ∀ b : Assignment, b.entries ⊆ a.entries → (among.foldl (fun a e =>
      if (c.device.registry.capsOf e.1).any (fun caps => caps.multirectParent = some p) then
        a.erase e.1 else a) b).entries ⊆ a.entries from this _ (herase a p)
  induction among with
  | nil => exact fun _ h => h
  | cons e es ih =>
    intro b hb
    apply ih
    dsimp only
    split
    · exact fun x hx => hb (herase b e.1 hx)
    · exact hb

theorem dropOne_subset (among es : List (PlaneId × LayerId)) (a : Assignment) (s : SearchState) :
    (c.dropOne among es a s).1.entries ⊆ a.entries := by
  induction es generalizing a s with
  | nil => exact fun _ h => h
  | cons e es ih =>
    rw [dropOne]
    have hsub := eraseWithChildren_subset (c := c) among e.1 a
    split
    · exact ih a s
    · dsimp only
      split
      · exact hsub
      · exact fun x hx => hsub (ih _ _ hx)

theorem resolveCanvasBounds_subset (fuel : ℕ) (a : Assignment) :
    (c.resolveCanvasBounds fuel a).2.entries ⊆ a.entries := by
  induction fuel generalizing a with
  | zero => exact fun _ h => h
  | succ fuel ih =>
    rw [resolveCanvasBounds]
    split
    · split
      · exact fun _ h => h
      · split
        · exact fun _ h => h
        · intro e he
          exact (Table.mem_erase.mp (Table.mem_filter.mp (ih _ he)).1).2
    · exact fun _ h => h

/-! ### Placed pairs -/

/-- Every pair comes from `layers` and `planes` and passes the static gate. -/
def Placed (c : SearchContext) (layers : List LayerId) (planes : List PlaneCapabilities)
    (a : Assignment) : Prop :=
  ∀ p l, (p, l) ∈ a.entries → l ∈ layers ∧ ∃ q ∈ planes, q.id = p ∧ c.compatible q l = true

variable {layers : List LayerId} {planes : List PlaneCapabilities} {a b : Assignment}
  {s : SearchState}

theorem placed_empty : c.Placed layers planes Table.empty := fun _ _ h => by cases h

theorem Placed.subset (h : c.Placed layers planes a) (hb : b.entries ⊆ a.entries) :
    c.Placed layers planes b := fun p l he => h p l (hb he)

theorem Placed.mono {layers' : List LayerId} {planes' : List PlaneCapabilities}
    (h : c.Placed layers planes a) (hl : layers ⊆ layers') (hp : planes ⊆ planes') :
    c.Placed layers' planes' a := by
  intro p l he
  obtain ⟨hm, q, hq, hid, hc⟩ := h p l he
  exact ⟨hl hm, q, hp hq, hid, hc⟩

theorem Placed.insert (h : c.Placed layers planes a) {q : PlaneCapabilities} {l : LayerId}
    (hq : q ∈ planes) (hl : l ∈ layers) (hc : c.compatible q l = true) :
    c.Placed layers planes (a.insertOrAssign q.id l) := by
  intro p l' he
  rcases Table.mem_insertOrAssign.mp he with ⟨rfl, rfl⟩ | ⟨-, he⟩
  · exact ⟨hl, q, hq, rfl, hc⟩
  · exact h p l' he

theorem mem_byKeepPriority {l : LayerId} : l ∈ c.byKeepPriority layers ↔ l ∈ layers :=
  (List.perm_insertionSort _ _).mem_iff

/-! ### One group -/

theorem mem_bipartitePreseedGroup {l : LayerId} {q : PlaneCapabilities}
    (h : (l, q) ∈ c.bipartitePreseedGroup s layers planes) :
    l ∈ layers ∧ q ∈ planes ∧ c.compatible q l = true := by
  unfold bipartitePreseedGroup at h
  obtain ⟨⟨l', i⟩, hi, h⟩ := List.mem_filterMap.mp h
  obtain ⟨j, hj, h⟩ := Option.bind_eq_some_iff.mp h
  obtain ⟨q', hq, h⟩ := Option.map_eq_some_iff.mp h
  cases h
  obtain ⟨t, hedge⟩ := Matching.matchForLeft_solve hj
  have hl : layers[i]? = some l := List.mem_zipIdx_iff_getElem?.mp hi
  simp only [List.getD_eq_getElem?_getD, List.getElem?_map, hl, Option.map_some,
    Option.getD_some] at hedge
  obtain ⟨⟨q', j'⟩, hj', h⟩ := List.mem_filterMap.mp hedge
  dsimp only at h
  split at h
  · rename_i hc
    cases h
    have : planes[j]? = some q' := List.mem_zipIdx_iff_getElem?.mp hj'
    rw [hq] at this
    cases this
    exact ⟨List.mem_of_getElem? hl, List.mem_of_getElem? hq, hc⟩
  · cases h

theorem preseed_placed (pairs : List (LayerId × PlaneCapabilities))
    (hpairs : ∀ l q, (l, q) ∈ pairs → l ∈ layers ∧ q ∈ planes ∧ c.compatible q l = true)
    (h : c.Placed layers planes a) :
    c.Placed layers planes (pairs.foldl (fun a (l, p) => a.insertOrAssign p.id l) a) := by
  induction pairs generalizing a with
  | nil => exact h
  | cons e es ih =>
    obtain ⟨hl, hq, hc⟩ := hpairs e.1 e.2 List.mem_cons_self
    exact ih (fun l q he => hpairs l q (List.mem_cons_of_mem _ he)) (h.insert hq hl hc)

theorem mem_rankCandidatesGroup {l : LayerId} {q : PlaneCapabilities} :
    (q, l) ∈ c.rankCandidatesGroup s layers planes ↔
      q ∈ planes ∧ l ∈ layers ∧ c.compatible q l = true := by
  unfold rankCandidatesGroup
  rw [(c.device.stdSort.perm _ _).mem_iff, List.mem_flatMap]
  constructor
  · rintro ⟨p, hp, h⟩
    obtain ⟨l', hl, h⟩ := List.mem_map.mp h
    cases h
    exact ⟨hp, (List.mem_filter.mp hl).1, (List.mem_filter.mp hl).2⟩
  · rintro ⟨hq, hl, hc⟩
    exact ⟨q, hq, List.mem_map.mpr ⟨l, List.mem_filter.mpr ⟨hl, hc⟩, rfl⟩⟩

theorem greedyPass_placed (virtual : Bool) (candidates : List (PlaneCapabilities × LayerId))
    (hcand : ∀ q l, (q, l) ∈ candidates → q ∈ planes ∧ l ∈ layers ∧ c.compatible q l = true)
    (h : c.Placed layers planes a) :
    c.Placed layers planes (c.greedyPass s virtual candidates a) := by
  unfold greedyPass
  induction candidates generalizing a with
  | nil => exact h
  | cons e es ih =>
    obtain ⟨hq, hl, hc⟩ := hcand e.1 e.2 List.mem_cons_self
    apply ih (fun q l he => hcand q l (List.mem_cons_of_mem _ he))
    dsimp only
    split
    · exact h
    · exact h.insert hq hl hc

theorem placeGreedy_placed (layers : List LayerId) (planes : List PlaneCapabilities)
    (s : SearchState) : c.Placed layers planes (c.placeGreedy layers planes s).1 := by
  have hcand : ∀ q l, (q, l) ∈ c.rankCandidatesGroup s layers planes →
      q ∈ planes ∧ l ∈ layers ∧ c.compatible q l = true := fun _ _ => mem_rankCandidatesGroup.mp
  have hg : c.Placed layers planes (c.greedy s (c.rankCandidatesGroup s layers planes)) :=
    greedyPass_placed true _ hcand (greedyPass_placed false _ hcand placed_empty)
  unfold placeGreedy
  dsimp only
  split
  · exact hg
  · exact hg.subset (dropOne_subset _ _ _ _)

theorem placeGroup_placed (layers : List LayerId) (planes : List PlaneCapabilities)
    (s : SearchState) : c.Placed layers planes (c.placeGroup layers planes s).1 := by
  suffices c.Placed (c.byKeepPriority layers) planes (c.placeGroup layers planes s).1 from
    this.mono (fun _ => mem_byKeepPriority.mp) (List.Subset.refl _)
  have hp : c.Placed (c.byKeepPriority layers) planes
      ((c.bipartitePreseedGroup s (c.byKeepPriority layers) planes).foldl
        (fun a (l, p) => a.insertOrAssign p.id l) Table.empty) :=
    preseed_placed _ (fun _ _ => mem_bipartitePreseedGroup) placed_empty
  unfold placeGroup
  dsimp only
  split
  · exact hp
  · split
    · split
      · exact hp
      · exact placeGreedy_placed _ _ _
    · exact placeGreedy_placed _ _ _

/-! ### The whole scene -/

theorem placed_merge {es : List (PlaneId × LayerId)}
    (hes : ∀ p l, (p, l) ∈ es → l ∈ layers ∧ ∃ q ∈ planes, q.id = p ∧ c.compatible q l = true)
    (h : c.Placed layers planes a) :
    c.Placed layers planes (es.foldl (fun best (p, l) => best.insertOrAssign p l) a) := by
  induction es generalizing a with
  | nil => exact h
  | cons e es ih =>
    obtain ⟨hl, q, hq, hid, hc⟩ := hes e.1 e.2 List.mem_cons_self
    apply ih (fun p l he => hes p l (List.mem_cons_of_mem _ he))
    dsimp only
    rw [← hid]
    exact h.insert hq hl hc

theorem placeGroups_placed (groups : List (List LayerId)) (pool : List PlaneCapabilities)
    (hg : ∀ g ∈ groups, g ⊆ layers) (hp : pool ⊆ planes) (h : c.Placed layers planes a) :
    c.Placed layers planes (c.placeGroups groups pool a s).1 := by
  induction groups generalizing pool a s with
  | nil => exact h
  | cons g gs ih =>
    rw [placeGroups]
    have hgroup := (placeGroup_placed (c := c) g pool s).mono (hg g List.mem_cons_self) hp
    apply ih
    · exact fun g' hg' => hg g' (List.mem_cons_of_mem _ hg')
    · exact fun q hq => hp (List.mem_of_mem_filter hq)
    · exact placed_merge hgroup h

theorem partialFallback_placed (fuel : ℕ) (rest : List LayerId) (hr : rest ⊆ layers) :
    c.Placed layers planes (c.partialFallback planes fuel rest s).1 := by
  induction fuel generalizing rest s with
  | zero => exact placed_empty
  | succ fuel ih =>
    rw [partialFallback]
    split
    · exact placed_empty
    · dsimp only
      split
      · exact (placeGroup_placed rest planes s).mono hr (List.Subset.refl _)
      · split
        · exact placed_empty
        · exact ih _ (fun l hl => hr (List.mem_of_mem_erase hl))

theorem aroundRunLoop_placed (ws : List ℕ) {run : Assignment}
    (h : (c.aroundRunLoop layers planes ws s).1 = some run) : c.Placed layers planes run := by
  induction ws generalizing s with
  | nil => cases h
  | cons w ws ih =>
    rw [aroundRunLoop] at h
    split at h
    · cases h
    · split at h
      · exact ih h
      · rename_i start _
        dsimp only at h
        split at h
        · cases h
          refine (placeGroup_placed _ planes s).mono (fun l hm => ?_) (List.Subset.refl _)
          rcases List.mem_append.mp hm with hm | hm
          · exact List.mem_of_mem_take hm
          · exact List.mem_of_mem_drop hm
        · exact ih h

/-! ### Plane order -/

theorem preOf_fits {fits : ℕ → ℕ → Bool} {m i k : ℕ} (h : preOf fits m (i + 1) = some k) :
    ∃ j, k = j + 1 ∧ fits i j = true := by
  obtain ⟨start, -, h⟩ := Option.bind_eq_some_iff.mp h
  obtain ⟨j, hj, rfl⟩ := Option.map_eq_some_iff.mp h
  have := List.find?_some hj
  rw [Bool.and_eq_true] at this
  exact ⟨j, rfl, this.2⟩

theorem sufOf_fits {fits : ℕ → ℕ → Bool} {n m i j : ℕ} (hi : i < n)
    (h : sufOf fits n m (n - i) = some j) : fits i j = true := by
  obtain ⟨k, hk⟩ : ∃ k, n - i = k + 1 := ⟨n - i - 1, by omega⟩
  rw [hk] at h
  obtain ⟨stop, -, h⟩ := Option.bind_eq_some_iff.mp h
  have hf := List.find?_some h
  rwa [show n - (k + 1) = i by omega] at hf

/-- Whatever the run, its layers are put on planes that fit them. -/
theorem assignmentOf_placed (c : SearchContext) (s : SearchState) (layers : List LayerId)
    (byId : List PlaneCapabilities) (withCanvas : Bool) (choice : Choice) :
    c.Placed layers byId
      (assignmentOf layers byId (c.orderProblem s layers byId withCanvas) choice) := by
  set o := c.orderProblem s layers byId withCanvas with ho
  have hfits : ∀ i j l q, layers[i]? = some l → byId[j]? = some q → o.fits i j = true →
      c.compatible q l = true := by
    intro i j l q hl hq hf
    simp only [ho, orderProblem, hl, hq, Bool.and_eq_true] at hf
    exact hf.1
  suffices ∀ (es : List (ℕ × Option ℕ)) (a : Assignment),
      (∀ i j, (i, some j) ∈ es → o.fits i j = true) → c.Placed layers byId a →
      c.Placed layers byId (es.foldl (placeAt layers byId) a) by
    refine this _ _ ?_ placed_empty
    intro i j hmem
    rcases List.mem_append.mp hmem with hmem | hmem
    · obtain ⟨i', -, he⟩ := List.mem_map.mp hmem
      obtain ⟨rfl, hpre⟩ := Prod.mk.inj he
      obtain ⟨k, hk, hj⟩ := Option.map_eq_some_iff.mp hpre
      obtain ⟨j', rfl, hf⟩ := preOf_fits hk
      rw [← hj]
      exact hf
    · obtain ⟨i', hi', he⟩ := List.mem_map.mp hmem
      obtain ⟨rfl, hsuf⟩ := Prod.mk.inj he
      exact sufOf_fits (List.mem_range.mp (List.mem_of_mem_drop hi')) hsuf
  intro es
  induction es with
  | nil => exact fun a _ h => h
  | cons e es ih =>
    intro a hes h
    apply ih _ (fun i j hm => hes i j (List.mem_cons_of_mem _ hm))
    unfold placeAt
    split
    · rename_i l q hl hq
      obtain ⟨j, hj, hq⟩ := Option.bind_eq_some_iff.mp hq
      have hf := hes e.1 j (by rw [← hj]; exact List.mem_cons_self)
      exact h.insert (List.mem_of_getElem? hq) (List.mem_of_getElem? hl) (hfits _ _ _ _ hl hq hf)
    · exact h

theorem planeOrderLoop_placed (byId : List PlaneCapabilities) (withCanvas : Bool)
    (s₀ : SearchState) (fuel maxPlaced : ℕ) :
    c.Placed layers byId (c.planeOrderLoop layers byId
      (c.orderProblem s₀ layers byId withCanvas) fuel maxPlaced s).1 := by
  induction fuel generalizing maxPlaced s with
  | zero => exact placed_empty
  | succ fuel ih =>
    rw [planeOrderLoop]
    split
    · exact placed_empty
    · rename_i choice _
      have h := assignmentOf_placed c s₀ layers byId withCanvas choice
      dsimp only
      split
      · exact h
      · split
        · exact h
        · split
          · exact placed_empty
          · exact ih _

theorem placeInPlaneOrder_placed (layers : List LayerId) (planes : List PlaneCapabilities)
    (withCanvas : Bool) (s : SearchState) :
    c.Placed layers planes (c.placeInPlaneOrder layers planes withCanvas s).1 := by
  unfold placeInPlaneOrder
  split
  · exact placed_empty
  · refine (planeOrderLoop_placed _ _ _ _ _).mono (List.Subset.refl _) ?_
    intro q hq
    exact List.mem_of_mem_filter ((c.device.stdSort.perm _ _).mem_iff.mp hq)

/-! ### The search -/

/-- The layers of the frame that are neither pinned nor externally bound. -/
def unheld (c : SearchContext) : List LayerId :=
  c.layers.filter fun l => !(c.heap l).externallyBound && !(c.heap l).pinned

theorem sceneLayers_subset_unheld : c.sceneLayers ⊆ c.unheld := by
  intro l hl
  have := List.mem_filter.mp hl
  simp only [Bool.and_eq_true] at this
  exact List.mem_filter.mpr ⟨this.1, by simp [this.2.1.2, this.2.2]⟩

theorem capToBlendLimit_subset (layers : List LayerId) :
    (c.capToBlendLimit layers).1 ⊆ layers := by
  unfold capToBlendLimit
  split
  · exact List.Subset.refl _
  · split
    · exact List.Subset.refl _
    · exact fun l hl => List.mem_of_mem_filter hl

theorem placeOnZposCrtc_placed (s : SearchState) :
    c.Placed c.unheld c.availablePlanes (c.placeOnZposCrtc s).1 := by
  unfold placeOnZposCrtc
  dsimp only
  split
  · refine placeGroups_placed _ _ ?_ (List.Subset.refl _) placed_empty
    intro g hg l hl
    have hm := capToBlendLimit_subset _ (mem_of_mem_independentGroups hg hl)
    have hm := List.mem_filter.mp hm
    simp only [Bool.and_eq_true] at hm
    exact List.mem_filter.mpr ⟨hm.1, by simp [hm.2.1.1, hm.2.2]⟩
  · apply partialFallback_placed
    exact fun l hl => sceneLayers_subset_unheld (List.mem_of_mem_filter hl)

/-- Settling the canvas keeps a part of the assignment, or places around a run. -/
theorem settleCanvas_cases (a : Assignment) (s : SearchState) :
    (c.settleCanvas a s).1.entries ⊆ a.entries ∨
      (c.placeAroundRun a.size c.availablePlanes s).1 = some (c.settleCanvas a s).1 := by
  unfold settleCanvas
  have hr := resolveCanvasBounds_subset (c := c) (a.size + 1) a
  split
  · exact .inl (List.Subset.refl _)
  · dsimp only
    split
    · rename_i run hrun
      exact .inr hrun
    · left
      split
      · exact List.Subset.refl _
      · split
        · exact hr
        · split
          · exact List.Subset.refl _
          · dsimp only
            split
            · exact hr
            · exact List.Subset.refl _

theorem settleCanvas_placed (s : SearchState) (h : c.Placed c.unheld c.availablePlanes a) :
    c.Placed c.unheld c.availablePlanes (c.settleCanvas a s).1 := by
  rcases settleCanvas_cases a s with hsub | hrun
  · exact h.subset hsub
  · exact (aroundRunLoop_placed _ hrun).mono sceneLayers_subset_unheld (List.Subset.refl _)

/-- Every pair a search arms: a layer of the frame that is neither pinned nor externally bound,
on an unreserved plane of the CRTC that passes the static gate for it. -/
theorem searchAssignment_placed (c : SearchContext) (s : SearchState) :
    c.Placed c.unheld c.availablePlanes (c.searchAssignment s).1 := by
  unfold searchAssignment
  split
  · exact (placeInPlaneOrder_placed _ _ _ _).mono sceneLayers_subset_unheld (List.Subset.refl _)
  · exact settleCanvas_placed _ (placeOnZposCrtc_placed s)

end SearchContext

end DrmCxx.Planes
