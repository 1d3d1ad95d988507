import DrmCxx.Lib.Transversal
import DrmCxx.Verification.Planes.MaximumMatching
import DrmCxx.Verification.Planes.Search
import DrmCxx.Verification.Planes.Trace

/-!
# Which layers the preseed keeps

Under plane scarcity the matching is maximum, but a layer may get a plane that a layer of higher
keep priority still needs. The layers kept can be bettered by an exchange exactly when that happens
at some step of the matching.
-/

namespace DrmCxx.Planes

namespace Matching

variable {nLeft : ℕ}

/-! ### Steps in order -/

theorem Adds.mem {M M' : Finset ℕ} {steps : List (Matching × ℕ)} (h : Adds nLeft M steps M') :
    ∀ w, w ∈ M' ↔ w ∈ M ∨ w ∈ steps.map Prod.snd := by
  induction h with
  | nil => simp
  | cons _ _ ih =>
    intro w
    rw [ih w, Finset.mem_insert, List.map_cons, List.mem_cons, or_assoc, or_left_comm]

theorem Adds.nodup {M M' : Finset ℕ} {steps : List (Matching × ℕ)} (h : Adds nLeft M steps M') :
    (steps.map Prod.snd).Nodup ∧ ∀ w ∈ steps.map Prod.snd, w ∉ M := by
  induction h with
  | nil => simp
  | cons hfree _ ih =>
    obtain ⟨hnodup, hout⟩ := ih
    refine ⟨List.nodup_cons.mpr ⟨fun hmem => hout _ hmem (Finset.mem_insert_self _ _), hnodup⟩,
      fun w hw => ?_⟩
    rcases List.mem_cons.mp hw with rfl | hw
    · exact hfree
    · exact fun hmem => hout w hw (Finset.mem_insert_of_mem hmem)

/-- Before a step, the nodes matched are those of the steps before it. -/
theorem Adds.before {M M' : Finset ℕ} {pre post : List (Matching × ℕ)} {step : Matching × ℕ}
    (h : Adds nLeft M (pre ++ step :: post) M') (w : ℕ) :
    w ∈ matchedLefts nLeft step.1 ↔ w ∈ M ∨ w ∈ pre.map Prod.snd := by
  induction pre generalizing M with
  | nil =>
    cases h
    simp
  | cons s pre ih =>
    cases h with
    | cons hfree hrest =>
      rw [ih hrest, Finset.mem_insert, List.map_cons, List.mem_cons, or_assoc, or_left_comm]

end Matching

namespace SearchContext

open Matching DrmCxx.Lib.Transversal DrmCxx.Lib.Bipartite

variable (c : SearchContext) (s : SearchState) (layers : List LayerId)
  (planes : List PlaneCapabilities)

/-! ### The preseed's graph -/

/-- The compatible pairs, by their places in the two lists. -/
def preseedAdj : Adjacency :=
  layers.map fun l => planes.zipIdx.filterMap fun (p, j) =>
    if c.compatible p l then some (j, c.scorePair s p l) else none

/-- The planes of each layer by descending score, as `solve` tries them. -/
def scoredAdj : Adjacency :=
  (c.preseedAdj s layers planes).map (List.insertionSort fun a b => a.2 ≥ b.2)

def preseedMatching : Matching :=
  (Matching.init layers.length planes.length).solve (c.preseedAdj s layers planes) layers.length

/-- The places of the layers that get a plane. -/
def keptPlaces : Finset ℕ := matchedLefts layers.length (c.preseedMatching s layers planes)

def fitsAt (i j : ℕ) : Bool := match layers[i]?, planes[j]? with
  | some l, some p => c.compatible p l
  | _, _ => false

/-- The places of the planes the layer at place `i` can go to. -/
def planesFor (i : ℕ) : Finset ℕ :=
  (Finset.range planes.length).filter fun j => c.fitsAt layers planes i j

def keepAt (i : ℕ) : ℤ := match layers[i]? with
  | some l => keepPriority (c.heap l)
  | none => 0

/-- The searches that match a layer, as `solve` makes them. -/
def preseedSteps : List (Matching × ℕ) :=
  loopSteps (c.scoredAdj s layers planes) layers.length (layers.length + 1) (layers.length + 2)
    (layers.length + 1) (Matching.init layers.length planes.length, 0)

/-- No layer left out could replace a layer kept of lower keep priority: the others kept and it
cannot all have planes at once. -/
def PriorityOptimal : Prop :=
  ∀ x ∈ c.keptPlaces s layers planes, ∀ y < layers.length, y ∉ c.keptPlaces s layers planes →
    c.keepAt layers x < c.keepAt layers y →
      ¬ Coverable (c.planesFor layers planes) (insert y ((c.keptPlaces s layers planes).erase x))

/-- Whatever of the layers matched so far and those of higher keep priority can have planes at once,
the layer at place `u` can have one beside them. -/
def Spare (m : Matching) (u : ℕ) : Prop :=
  ∀ T : Finset ℕ,
    (∀ w ∈ T, w ∈ matchedLefts layers.length m ∨ c.keepAt layers u < c.keepAt layers w) →
      Coverable (c.planesFor layers planes) T → Coverable (c.planesFor layers planes) (insert u T)

variable {c s layers planes}

theorem mem_preseedAdj {i j : ℕ} {score : ℤ} :
    (j, score) ∈ (c.preseedAdj s layers planes).getD i [] ↔ ∃ l p, layers[i]? = some l ∧
      planes[j]? = some p ∧ c.compatible p l = true ∧ c.scorePair s p l = score := by
  simp only [preseedAdj, List.getD_eq_getElem?_getD, List.getElem?_map]
  cases hl : layers[i]? with
  | none => simp
  | some l =>
    simp only [Option.map_some, Option.getD_some, List.mem_filterMap, Prod.exists,
      List.mem_zipIdx_iff_getElem?, Option.ite_none_right_eq_some, Option.some.injEq,
      Prod.mk.injEq]
    constructor
    · rintro ⟨p, k, hp, hc, rfl, rfl⟩
      exact ⟨l, p, rfl, hp, hc, rfl⟩
    · rintro ⟨_, p, rfl, hp, hc, rfl⟩
      exact ⟨p, j, hp, hc, rfl, rfl⟩

theorem mem_planesFor {i j : ℕ} : j ∈ c.planesFor layers planes i ↔ ∃ l p, layers[i]? = some l ∧
    planes[j]? = some p ∧ c.compatible p l = true := by
  rw [planesFor, Finset.mem_filter, Finset.mem_range, fitsAt]
  cases hl : layers[i]? with
  | none => simp
  | some l =>
    cases hp : planes[j]? with
    | none => simp
    | some p => simp [(List.getElem?_eq_some_iff.mp hp).1]

theorem edge_preseed {i j : ℕ} :
    Edge (c.scoredAdj s layers planes) i j ↔ j ∈ c.planesFor layers planes i := by
  simp only [Edge, scoredAdj, mem_sorted, mem_preseedAdj, mem_planesFor]
  constructor
  · rintro ⟨_, l, p, hl, hp, hc, -⟩
    exact ⟨l, p, hl, hp, hc⟩
  · rintro ⟨l, p, hl, hp, hc⟩
    exact ⟨_, l, p, hl, hp, hc, rfl⟩

/-! ### The layers kept -/

/-- What `solve` leaves on the preseed's graph. -/
theorem preseed_loopEnds (c : SearchContext) (s : SearchState) (layers : List LayerId)
    (planes : List PlaneCapabilities) :
    ∃ k, LoopEnds (c.scoredAdj s layers planes) layers.length planes.length (layers.length + 1)
      (layers.length + 2) (layers.length + 1) (Matching.init layers.length planes.length) 0
      (c.preseedMatching s layers planes, k) := by
  have hadj : ∀ i, ∀ e ∈ (c.scoredAdj s layers planes).getD i [], e.1 < planes.length := by
    intro i e he
    obtain ⟨l, p, -, hp, -⟩ := mem_planesFor.mp (edge_preseed.mp ⟨e.2, he⟩)
    exact (List.getElem?_eq_some_iff.mp hp).1
  have hdepth : layers.length < layers.length + 2 := by omega
  obtain ⟨r, hr⟩ := loop_ends hadj (Nat.lt_succ_self _) hdepth (init_inverse _ _)
    (init_sound _ _ _) (Nat.lt_add_left _ (Nat.lt_succ_self _)) 0
  have hsolve : c.preseedMatching s layers planes = r.1 := by
    rw [preseedMatching, solve, ← scoredAdj, solveLoop_eq _ _ _ _ 0,
      hr.rounds _ _ _ (Nat.lt_succ_self _) hdepth (Nat.lt_add_left _ (Nat.lt_succ_self _))]
  exact ⟨r.2, hsolve ▸ hr⟩

theorem mem_keptPlaces {i : ℕ} : i ∈ c.keptPlaces s layers planes ↔
    ((c.preseedMatching s layers planes).matchForLeft i).isSome = true := by
  obtain ⟨k, hk⟩ := preseed_loopEnds c s layers planes
  exact mem_matchedLefts hk.inverse

theorem keptPlaces_isBase (c : SearchContext) (s : SearchState) (layers : List LayerId)
    (planes : List PlaneCapabilities) :
    (transversal (c.planesFor layers planes)).IsBase
      (c.keptPlaces s layers planes : Set ℕ) := by
  obtain ⟨k, hk⟩ := preseed_loopEnds c s layers planes
  refine isBase_of_maximal (coverable_of_partner (c.preseedMatching s layers planes).matchForLeft
    (fun u v h => edge_preseed.mp (hk.sound.edge h)) (fun u u' v => hk.inverse.once)
    fun u hu => mem_keptPlaces.mp hu) fun e he hcover => ?_
  obtain ⟨pairs, hpairs, hcard⟩ := hcover.exists_isMatching
  have hlen : (c.scoredAdj s layers planes).length = layers.length := by
    rw [scoredAdj, List.length_map, preseedAdj, List.length_map]
  have hedge : (fun u v => v ∈ c.planesFor layers planes u) =
      Edge (c.scoredAdj s layers planes) := by
    funext u v
    exact propext edge_preseed.symm
  rw [hedge] at hpairs
  have hle := card_le_matchedLefts hlen hk.inverse hk.layers hk.unreached hpairs
  rw [hcard, Finset.card_insert_of_notMem he] at hle
  exact absurd hle (Nat.not_succ_le_self _)

theorem preseedSteps_adds (c : SearchContext) (s : SearchState) (layers : List LayerId)
    (planes : List PlaneCapabilities) :
    Adds layers.length ∅ (c.preseedSteps s layers planes) (c.keptPlaces s layers planes) := by
  obtain ⟨k, hk⟩ := preseed_loopEnds c s layers planes
  exact matchedLefts_init layers.length planes.length ▸ hk.adds

theorem exists_plane_of_mem_keptPlaces {i : ℕ} (hi : i ∈ c.keptPlaces s layers planes) :
    ∃ j p, (c.preseedMatching s layers planes).matchForLeft i = some j ∧ planes[j]? = some p := by
  obtain ⟨k, hk⟩ := preseed_loopEnds c s layers planes
  obtain ⟨j, hj⟩ := Option.isSome_iff_exists.mp (mem_keptPlaces.mp hi)
  obtain ⟨l, p, -, hp, -⟩ := mem_planesFor.mp (edge_preseed.mp (hk.sound.edge hj))
  exact ⟨j, p, hj, hp⟩

/-- The result lists the layers kept, in the order of the list. -/
theorem bipartitePreseedGroup_fst (c : SearchContext) (s : SearchState) (layers : List LayerId)
    (planes : List PlaneCapabilities) :
    (c.bipartitePreseedGroup s layers planes).map Prod.fst =
      (layers.zipIdx.filter fun e => e.2 ∈ c.keptPlaces s layers planes).map Prod.fst := by
  have hpairs : ∀ es : List (LayerId × ℕ),
      (es.filterMap fun e => ((c.preseedMatching s layers planes).matchForLeft e.2).bind fun j =>
        (planes[j]?).map fun p => (e.1, p)).map Prod.fst =
      (es.filter fun e => e.2 ∈ c.keptPlaces s layers planes).map Prod.fst := by
    intro es
    induction es with
    | nil => rfl
    | cons e es ih =>
      by_cases he : e.2 ∈ c.keptPlaces s layers planes
      · obtain ⟨j, p, hj, hp⟩ := exists_plane_of_mem_keptPlaces he
        simp [he, hj, hp, ih]
      · have hnone : (c.preseedMatching s layers planes).matchForLeft e.2 = none := by
          rwa [mem_keptPlaces, Option.not_isSome_iff_eq_none] at he
        simp [he, hnone, ih]
  exact hpairs layers.zipIdx

theorem priorityOptimal_iff_noGain : c.PriorityOptimal s layers planes ↔
    NoGain (transversal (c.planesFor layers planes)) (c.keepAt layers)
      (c.keptPlaces s layers planes : Set ℕ) := by
  have hset {x y : ℕ} (hlt : c.keepAt layers x < c.keepAt layers y) :
      (insert y (c.keptPlaces s layers planes : Set ℕ) \ {x}) =
        ((insert y ((c.keptPlaces s layers planes).erase x) : Finset ℕ) : Set ℕ) := by
    have hne : y ≠ x := fun heq => lt_irrefl _ (heq ▸ hlt)
    rw [Finset.coe_insert, Finset.coe_erase, Set.insert_sdiff_singleton_comm hne]
  constructor
  · intro h x hx y hy hlt
    rw [hset hlt, transversal_indep]
    intro hcover
    obtain ⟨f, -, hf⟩ := id hcover
    obtain ⟨l, -, hl, -⟩ := mem_planesFor.mp (hf ⟨y, Finset.mem_insert_self y _⟩)
    exact h x hx y (List.getElem?_eq_some_iff.mp hl).1 hy hlt hcover
  · intro h x hx y _ hy hlt
    have := h x hx y hy hlt
    rwa [hset hlt, transversal_indep] at this

/-- The layers kept admit no exchange for a layer of higher keep priority exactly when every search
that matches a layer leaves those of higher priority what they need. -/
theorem preseed_priorityOptimal_iff (c : SearchContext) (s : SearchState) (layers : List LayerId)
    (planes : List PlaneCapabilities) :
    ((c.bipartitePreseedGroup s layers planes).map Prod.fst =
      (layers.zipIdx.filter fun e => e.2 ∈ c.keptPlaces s layers planes).map Prod.fst) ∧
    (c.PriorityOptimal s layers planes ↔
      ∀ step ∈ c.preseedSteps s layers planes, c.Spare layers planes step.1 step.2) := by
  refine ⟨bipartitePreseedGroup_fst c s layers planes, ?_⟩
  have hadds := preseedSteps_adds c s layers planes
  have hkept : (c.keptPlaces s layers planes : Set ℕ) =
      {w | w ∈ (c.preseedSteps s layers planes).map Prod.snd} := by
    ext w
    simpa using hadds.mem w
  have hbase := keptPlaces_isBase c s layers planes
  rw [priorityOptimal_iff_noGain]
  rw [hkept] at hbase ⊢
  rw [noGain_transversal_iff hadds.nodup.1 hbase]
  constructor
  · intro h step hstep T hT
    obtain ⟨pre, post, hsplit⟩ := List.append_of_mem hstep
    rw [hsplit] at hadds
    refine h (pre.map Prod.snd) step.2 (post.map Prod.snd) (by simp [hsplit]) T fun w hw => ?_
    exact (hT w hw).imp_left fun hmem => by simpa using (hadds.before w).mp hmem
  · intro h pre u post hsplit T hT
    obtain ⟨preSteps, rest, hsteps, rfl, hrest⟩ := List.map_eq_append_iff.mp hsplit
    obtain ⟨step, postSteps, rfl, rfl, rfl⟩ := List.map_eq_cons_iff.mp hrest
    rw [hsteps] at hadds
    refine h step (hsteps ▸ List.mem_append_right _ List.mem_cons_self) T fun w hw => ?_
    exact (hT w hw).imp_left fun hmem => (hadds.before w).mpr (.inr hmem)

end SearchContext

/-! ### Three layers over two planes -/

namespace Controller

/-- Layers 0, 1 and 2 by descending keep priority: layer 0 fits both planes, layer 1 the first only,
layer 2 the second only. -/
def scarceSearch : SearchContext where
  device :=
    { device with
      registry := {
        planes := [
          { id := 1, possibleCrtcs := 1, type := .overlay, formatTable := [(1, 0), (2, 0)] },
          { id := 2, possibleCrtcs := 1, type := .overlay, formatTable := [(1, 0), (3, 0)] }]
        nodupIds := by decide } }
  crtcIndex := 0
  output := output [0, 1, 2] nodup_triple
  layers := [0, 1, 2]
  heap
    | 0 => { layer 0 1 11 with appPriority := 3 }
    | 1 => { (layer 20 2 12).setProperty .pixelFormat 2 with appPriority := 2 }
    | _ => { (layer 40 3 13).setProperty .pixelFormat 3 with appPriority := 1 }
  flags := 0
  reserved := []
  previous := none
  maxTestCommits := 16

/-- Layer 2 keeps a plane and layer 1 gets none, though layers 0 and 1 fit together. -/
theorem not_priorityOptimal :
    ¬ scarceSearch.PriorityOptimal {} (scarceSearch.byKeepPriority [0, 1, 2])
        scarceSearch.device.registry.planes := by
  have hordered : scarceSearch.byKeepPriority [0, 1, 2] = [0, 1, 2] := by decide +kernel
  have hkept : scarceSearch.keptPlaces {} [0, 1, 2] scarceSearch.device.registry.planes =
    {0, 2} := by
    decide +kernel
  rw [hordered]
  intro h
  refine h 2 (by rw [hkept]; decide) 1 (by decide) (by rw [hkept]; decide) (by decide +kernel) ?_
  rw [hkept]
  exact ⟨fun u => if u.1 = 0 then 1 else 0, by decide +kernel, by decide +kernel⟩

end Controller

end DrmCxx.Planes
