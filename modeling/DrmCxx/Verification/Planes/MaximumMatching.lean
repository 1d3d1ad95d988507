import Mathlib.Order.Bounds.Defs
import DrmCxx.Lib.Bipartite
import DrmCxx.Verification.Planes.MatchingAugment

/-!
# The matching is maximum

A phase whose layers reach a free right node matches at least one more left node, so the phases end;
after the last one the layered left nodes show that no matching of the edges is larger.
-/

namespace DrmCxx.Planes

namespace Matching

open DrmCxx.Lib.Bipartite

variable {adj : Adjacency} {nLeft nRight : ℕ} {m m' : Matching} {u : ℕ}

/-! ### Steps -/

/-- The left nodes with a partner. -/
def matchedLefts (nLeft : ℕ) (m : Matching) : Finset ℕ :=
  (Finset.range nLeft).filter fun u => (m.matchForLeft u).isSome

/-- The searches of a phase that succeed: the state each starts in and the node it matches. -/
def phaseSteps (adj : Adjacency) (nLeft depth : ℕ) : List ℕ → Matching → List (Matching × ℕ)
  | [], _ => []
  | u :: us, m =>
    if m.matchForLeft u = none then
      match dfs adj nLeft depth u m with
      | (true, m') => (m, u) :: phaseSteps adj nLeft depth us m'
      | (false, m') => phaseSteps adj nLeft depth us m'
    else phaseSteps adj nLeft depth us m

/-- The searches of all phases that succeed. -/
def loopSteps (adj : Adjacency) (nLeft visits depth : ℕ) : ℕ → Matching × ℕ → List (Matching × ℕ)
  | 0, _ => []
  | rounds + 1, s =>
    match bfsWith adj nLeft visits s.1 with
    | (true, m) => phaseSteps adj nLeft depth (List.range nLeft) m ++
        loopSteps adj nLeft visits depth rounds
          ((List.range nLeft).foldl (tryMatch adj nLeft depth) (m, s.2))
    | (false, _) => []

/-- Each step adds its node to the matched ones, from the first set to the last. -/
inductive Adds (nLeft : ℕ) : Finset ℕ → List (Matching × ℕ) → Finset ℕ → Prop
  | nil (M) : Adds nLeft M [] M
  | cons {m u steps M} (hfree : u ∉ matchedLefts nLeft m)
      (hrest : Adds nLeft (insert u (matchedLefts nLeft m)) steps M) :
      Adds nLeft (matchedLefts nLeft m) ((m, u) :: steps) M

theorem Adds.append {M M₁ M₂ : Finset ℕ} {xs ys : List (Matching × ℕ)}
    (h₁ : Adds nLeft M xs M₁) (h₂ : Adds nLeft M₁ ys M₂) : Adds nLeft M (xs ++ ys) M₂ := by
  induction h₁ with
  | nil => exact h₂
  | cons hfree _ ih => exact .cons hfree (ih h₂)

theorem Adds.card_eq {M M' : Finset ℕ} {steps : List (Matching × ℕ)} (h : Adds nLeft M steps M') :
    M'.card = M.card + steps.length := by
  induction h with
  | nil => rfl
  | cons hfree _ ih =>
    rw [ih, Finset.card_insert_of_notMem hfree, List.length_cons]
    omega

theorem mem_matchedLefts (hm : Inverse nLeft nRight none m) :
    u ∈ matchedLefts nLeft m ↔ (m.matchForLeft u).isSome = true := by
  refine ⟨fun hu => (Finset.mem_filter.mp hu).2, fun hu => ?_⟩
  obtain ⟨v, hv⟩ := Option.isSome_iff_exists.mp hu
  exact Finset.mem_filter.mpr ⟨Finset.mem_range.mpr (hm.lefts ▸ matchForLeft_lt hv), hu⟩

theorem card_matchedLefts_le (nLeft : ℕ) (m : Matching) : (matchedLefts nLeft m).card ≤ nLeft :=
  (Finset.card_filter_le _ _).trans (Finset.card_range nLeft).le

/-! ### One phase -/

theorem Takes.bounded {d : ℕ} (hm : Ready nLeft nRight m) (h : Takes d u m m') :
    ∀ w k, m'.distOf w = some k → k ≤ nLeft := by
  intro w k hw
  rcases h w with heq | ⟨-, hnone⟩
  · exact hm.bounded w k (heq ▸ hw)
  · rw [hnone] at hw
    cases hw

/-- A search from a free node leaves the distances of the other free nodes. -/
theorem Takes.root {w : ℕ} (h : Takes 0 u m m') (hw : m.distOf w = some 0) (hne : w ≠ u) :
    m'.distOf w = some 0 := by
  rcases h w with heq | ⟨hbeyond, -⟩
  · exact heq.trans hw
  · rcases hbeyond with heq | ⟨k, hk, hlt⟩
    · exact absurd heq hne
    · rw [hw] at hk
      cases hk
      exact absurd hlt (lt_irrefl 0)

/-- What the searches of a phase leave, from the free nodes in turn. -/
structure PhaseEnds (adj : Adjacency) (nLeft nRight depth : ℕ) (us : List ℕ) (m : Matching)
    (k : ℕ) (s : Matching × ℕ) : Prop where
  ready : Ready nLeft nRight s.1
  sound : s.1.Sound adj
  adds : Adds nLeft (matchedLefts nLeft m) (phaseSteps adj nLeft depth us m)
    (matchedLefts nLeft s.1)
  count : s.2 = k + (phaseSteps adj nLeft depth us m).length
  poisons : phaseSteps adj nLeft depth us m = [] → Poisons adj nLeft m s.1 ∧
    ∀ u ∈ us, m.matchForLeft u = none → s.1.distOf u = none
  rounds : ∀ depth', nLeft < depth' → us.foldl (tryMatch adj nLeft depth') (m, k) = s

theorem Augments.ready (hm : Ready nLeft nRight m) (hfree : m.matchForLeft u = none)
    (h : Augments nLeft nRight 0 u m m') : Ready nLeft nRight m' :=
  ⟨hfree ▸ h.inverse, h.takes.bounded hm⟩

theorem Augments.matchedLefts_eq (hm : Ready nLeft nRight m) (hfree : m.matchForLeft u = none)
    (h : Augments nLeft nRight 0 u m m') :
    matchedLefts nLeft m' = insert u (matchedLefts nLeft m) := by
  ext w
  rw [mem_matchedLefts (h.ready hm hfree).inverse, h.matched w, Finset.mem_insert,
    mem_matchedLefts hm.inverse]

theorem Poisons.matchedLefts_eq (h : Poisons adj nLeft m m') :
    matchedLefts nLeft m' = matchedLefts nLeft m := by
  simp only [matchedLefts, h.matchForLeft]

section Rounds

variable {depth k : ℕ} {us : List ℕ} {s : Matching × ℕ}

theorem PhaseEnds.held (hheld : m.matchForLeft u ≠ none)
    (h : PhaseEnds adj nLeft nRight depth us m k s) :
    PhaseEnds adj nLeft nRight depth (u :: us) m k s := by
  have hsteps : phaseSteps adj nLeft depth (u :: us) m = phaseSteps adj nLeft depth us m := by
    rw [phaseSteps, if_neg hheld]
  refine ⟨h.ready, h.sound, hsteps ▸ h.adds, hsteps ▸ h.count, fun hnil => ?_,
    fun depth' hdepth' => ?_⟩
  · obtain ⟨hpoisons, hgone⟩ := h.poisons (hsteps ▸ hnil)
    refine ⟨hpoisons, fun w hw hfree => ?_⟩
    rcases List.mem_cons.mp hw with rfl | hw
    · exact absurd hfree hheld
    · exact hgone w hw hfree
  · rw [List.foldl_cons, tryMatch, if_neg hheld]
    exact h.rounds depth' hdepth'

theorem PhaseEnds.missed (hfree : m.matchForLeft u = none)
    (hdfs : ∀ depth', nLeft < depth' → dfs adj nLeft depth' u m = (false, m'))
    (hdepth : nLeft < depth) (hfails : Fails adj nLeft 0 u m m')
    (h : PhaseEnds adj nLeft nRight depth us m' k s) :
    PhaseEnds adj nLeft nRight depth (u :: us) m k s := by
  have hsteps : phaseSteps adj nLeft depth (u :: us) m = phaseSteps adj nLeft depth us m' := by
    rw [phaseSteps, if_pos hfree, hdfs depth hdepth]
  refine ⟨h.ready, h.sound, ?_, hsteps ▸ h.count, fun hnil => ?_, fun depth' hdepth' => ?_⟩
  · rw [hsteps, ← hfails.poisons.matchedLefts_eq]
    exact h.adds
  · obtain ⟨hpoisons, hgone⟩ := h.poisons (hsteps ▸ hnil)
    refine ⟨hfails.poisons.trans hpoisons, fun w hw hfree => ?_⟩
    rcases List.mem_cons.mp hw with rfl | hw
    · exact hpoisons.none_of_none hfails.gone
    · exact hgone w hw ((hfails.poisons.matchForLeft w).trans hfree)
  · rw [List.foldl_cons, tryMatch, if_pos hfree, hdfs depth' hdepth']
    exact h.rounds depth' hdepth'

theorem PhaseEnds.found (hm : Ready nLeft nRight m) (hfree : m.matchForLeft u = none)
    (hdfs : ∀ depth', nLeft < depth' → dfs adj nLeft depth' u m = (true, m'))
    (hdepth : nLeft < depth) (haugments : Augments nLeft nRight 0 u m m')
    (h : PhaseEnds adj nLeft nRight depth us m' (k + 1) s) :
    PhaseEnds adj nLeft nRight depth (u :: us) m k s := by
  have hsteps : phaseSteps adj nLeft depth (u :: us) m =
      (m, u) :: phaseSteps adj nLeft depth us m' := by
    rw [phaseSteps, if_pos hfree, hdfs depth hdepth]
  refine ⟨h.ready, h.sound, ?_, ?_, fun hnil => ?_, fun depth' hdepth' => ?_⟩
  · rw [hsteps]
    refine .cons (fun hu => ?_) ?_
    · rw [mem_matchedLefts hm.inverse, hfree] at hu
      cases hu
    · rw [← haugments.matchedLefts_eq hm hfree]
      exact h.adds
  · rw [h.count, hsteps, List.length_cons]
    omega
  · rw [hsteps] at hnil
    cases hnil
  · rw [List.foldl_cons, tryMatch, if_pos hfree, hdfs depth' hdepth']
    exact h.rounds depth' hdepth'

end Rounds

theorem phase_ends (hadj : ∀ u, ∀ e ∈ adj.getD u [], e.1 < nRight) {depth : ℕ}
    (hdepth : nLeft < depth) {us : List ℕ} (hus : us.Nodup) (hlt : ∀ u ∈ us, u < nLeft)
    (hm : Ready nLeft nRight m) (hsound : m.Sound adj)
    (hroots : ∀ u ∈ us, m.matchForLeft u = none → m.distOf u = some 0) (k : ℕ) :
    ∃ s, PhaseEnds adj nLeft nRight depth us m k s := by
  induction us generalizing m k with
  | nil =>
    exact ⟨(m, k), hm, hsound, .nil _, rfl, fun _ => ⟨Poisons.refl adj nLeft m, nofun⟩,
      fun _ _ => rfl⟩
  | cons u us ih =>
    obtain ⟨hnotin, hus⟩ := List.nodup_cons.mp hus
    have hltail : ∀ u ∈ us, u < nLeft := fun u hu => hlt u (List.mem_cons_of_mem _ hu)
    have htail : ∀ w ∈ us, m.matchForLeft w = none → m.distOf w = some 0 := fun w hw =>
      hroots w (List.mem_cons_of_mem _ hw)
    by_cases hfree : m.matchForLeft u = none
    · have hroot := hroots u List.mem_cons_self hfree
      have hne : ∀ w ∈ us, w ≠ u := fun w hw heq => hnotin (heq ▸ hw)
      have hsame : ∀ depth', nLeft < depth' →
          dfs adj nLeft depth' u m = dfs adj nLeft depth u m := fun depth' hdepth' =>
        dfs_depth hadj hm hroot hdepth' hdepth
      have hout := dfs_outcome hadj hm (hlt u List.mem_cons_self) hroot hdepth
      have hsound' : (dfs adj nLeft depth u m).2.Sound adj := dfs_sound depth u m hsound
      rcases hr : dfs adj nLeft depth u m with ⟨_ | _, m'⟩ <;> rw [hr] at hout hsound' hsame
      · obtain ⟨s, hs⟩ := ih hus hltail (hout.poisons.ready hm) hsound' (fun w hw hw' =>
          hout.takes.root (htail w hw (hout.poisons.matchForLeft w ▸ hw')) (hne w hw)) k
        exact ⟨s, hs.missed hfree hsame hdepth hout⟩
      · have hfree' : ∀ w ∈ us, m'.matchForLeft w = none → m.matchForLeft w = none := by
          intro w _ hw
          have := (hout.matched w).not
          rw [hw] at this
          simpa using fun h => this.mp nofun (.inr h)
        obtain ⟨s, hs⟩ := ih hus hltail (hout.ready hm hfree) hsound' (fun w hw hw' =>
          hout.takes.root (htail w hw (hfree' w hw hw')) (hne w hw)) (k + 1)
        exact ⟨s, hs.found hm hfree hsame hdepth hout⟩
    · obtain ⟨s, hs⟩ := ih hus hltail hm hsound htail k
      exact ⟨s, hs.held hfree⟩

/-- Layers that reach a free right node lead some search there. -/
theorem Layers.progress (h : Layers adj nLeft m []) (hsentinel : (m.distOf nLeft).isSome = true)
    (hpoisons : Poisons adj nLeft m m')
    (hgone : ∀ u ∈ List.range nLeft, m.matchForLeft u = none → m'.distOf u = none) : False := by
  have hall : ∀ d x, m.distOf x = some d → m'.distOf x = none := by
    intro d
    induction d with
    | zero =>
      intro x hx
      have hlt : x < nLeft := by
        refine lt_of_le_of_ne (Nat.le_of_lt_succ ((distOf_lt hx).trans_eq h.length)) ?_
        rintro rfl
        exact h.sentinel hx
      exact hgone x (List.mem_range.mpr hlt) ((h.free x hlt).mp hx)
    | succ d ih =>
      intro x hx
      obtain ⟨w, -, hw, e, he, rfl⟩ := h.behind x d hx
      exact hpoisons.spent w d hw (ih w hw) e he hx
  obtain ⟨d, hd⟩ := Option.isSome_iff_exists.mp hsentinel
  have := hall d nLeft hd
  rw [hpoisons.sentinel, hd] at this
  cases this

/-! ### All phases -/

/-- What `solve` leaves: its steps, and a search that reaches no free right node. -/
structure LoopEnds (adj : Adjacency) (nLeft nRight visits depth rounds : ℕ) (m : Matching) (k : ℕ)
    (s : Matching × ℕ) : Prop where
  inverse : Inverse nLeft nRight none s.1
  sound : s.1.Sound adj
  adds : Adds nLeft (matchedLefts nLeft m) (loopSteps adj nLeft visits depth rounds (m, k))
    (matchedLefts nLeft s.1)
  count : s.2 = k + (loopSteps adj nLeft visits depth rounds (m, k)).length
  layers : Layers adj nLeft s.1 []
  unreached : s.1.distOf nLeft = none
  rounds : ∀ visits' depth' rounds', nLeft < visits' → nLeft < depth' →
    nLeft < (matchedLefts nLeft m).card + rounds' →
      countedLoop adj nLeft visits' depth' rounds' (m, k) = s

theorem Inverse.congr (hm : Inverse nLeft nRight none m) (hl : m'.matchLeft = m.matchLeft)
    (hr : m'.matchRight = m.matchRight) (hlen : m'.dist.length = nLeft + 1) :
    Inverse nLeft nRight none m' where
  lefts := hl ▸ hm.lefts
  rights := hr ▸ hm.rights
  dists := hlen
  left w v hw := by
    simp only [matchForLeft, matchForRight, hl, hr] at hw ⊢
    exact hm.left w v hw
  right v w hw hhole := by
    simp only [matchForLeft, matchForRight, hl, hr] at hw ⊢
    exact hm.right v w hw hhole

/-- The matched left nodes grow with each phase, so `nLeft + 1` phases are enough. -/
theorem loop_ends (hadj : ∀ u, ∀ e ∈ adj.getD u [], e.1 < nRight) {visits depth rounds : ℕ}
    (hvisits : nLeft < visits) (hdepth : nLeft < depth) (hm : Inverse nLeft nRight none m)
    (hsound : m.Sound adj) (hrounds : nLeft < (matchedLefts nLeft m).card + rounds) (k : ℕ) :
    ∃ s, LoopEnds adj nLeft nRight visits depth rounds m k s := by
  induction rounds generalizing m k with
  | zero => exact absurd (card_matchedLefts_le nLeft m) hrounds.not_ge
  | succ rounds ih =>
    obtain ⟨m₁, hl, hleft, hright, hbfs⟩ := bfsWith_layers adj hm
    have hm₁ := hm.congr hleft hright hl.length
    have hsound₁ : m₁.Sound adj := hsound.congr hleft
    have hlefts : matchedLefts nLeft m₁ = matchedLefts nLeft m :=
      Finset.filter_congr fun u _ => by rw [matchForLeft, matchForLeft, hleft]
    have hpos : ∀ rounds', nLeft < (matchedLefts nLeft m).card + rounds' → rounds' ≠ 0 := by
      have := card_matchedLefts_le nLeft m
      omega
    cases hreach : (m₁.distOf nLeft).isSome with
    | false =>
      rw [hreach] at hbfs
      have hsteps : loopSteps adj nLeft visits depth (rounds + 1) (m, k) = [] := by
        rw [loopSteps, hbfs visits hvisits]
      refine ⟨(m₁, k), hm₁, hsound₁, ?_, ?_, hl, Option.isNone_iff_eq_none.mp ?_,
        fun visits' depth' rounds' hv _ hr => ?_⟩
      · rw [hsteps, hlefts]
        exact .nil _
      · rw [hsteps]
        rfl
      · rwa [Option.isSome_eq_false_iff] at hreach
      · obtain ⟨rounds', rfl⟩ := Nat.exists_eq_add_one_of_ne_zero (hpos rounds' hr)
        rw [countedLoop, hbfs visits' hv]
    | true =>
      rw [hreach] at hbfs
      obtain ⟨s₁, hs₁⟩ := phase_ends hadj hdepth List.nodup_range
        (fun u hu => List.mem_range.mp hu) ⟨hm₁, fun w k hw => hl.distOf_le hw⟩ hsound₁
        (fun u hu hfree => (hl.free u (List.mem_range.mp hu)).mpr hfree) k
      have hgrows : phaseSteps adj nLeft depth (List.range nLeft) m₁ ≠ [] := fun hnil =>
        hl.progress hreach (hs₁.poisons hnil).1 (hs₁.poisons hnil).2
      have hcard : (matchedLefts nLeft m).card < (matchedLefts nLeft s₁.1).card := by
        rw [hs₁.adds.card_eq, hlefts]
        exact Nat.lt_add_of_pos_right (List.length_pos_iff.mpr hgrows)
      obtain ⟨s, hs⟩ := ih hs₁.ready.inverse hs₁.sound (by omega) s₁.2
      have hsteps : loopSteps adj nLeft visits depth (rounds + 1) (m, k) =
          phaseSteps adj nLeft depth (List.range nLeft) m₁ ++
            loopSteps adj nLeft visits depth rounds s₁ := by
        rw [loopSteps, hbfs visits hvisits]
        simp only [hs₁.rounds depth hdepth]
      refine ⟨s, hs.inverse, hs.sound, ?_, ?_, hs.layers, hs.unreached,
        fun visits' depth' rounds' hv hd hr => ?_⟩
      · rw [hsteps, ← hlefts]
        exact hs₁.adds.append hs.adds
      · rw [hsteps, List.length_append, ← Nat.add_assoc, ← hs₁.count]
        exact hs.count
      · obtain ⟨rounds', rfl⟩ := Nat.exists_eq_add_one_of_ne_zero (hpos rounds' hr)
        rw [countedLoop, hbfs visits' hv]
        simp only [hs₁.rounds depth' hd]
        exact hs.rounds visits' depth' rounds' hv hd (by omega)

/-! ### The last search -/

/-- The score plays no part. -/
def Edge (adj : Adjacency) (u v : ℕ) : Prop := ∃ score, (v, score) ∈ adj.getD u []

theorem Edge.lt {v : ℕ} (h : Edge adj u v) : u < adj.length := by
  obtain ⟨score, h⟩ := h
  by_contra hge
  rw [List.getD_eq_getElem?_getD, List.getElem?_eq_none (Nat.le_of_not_lt hge)] at h
  cases h

theorem Sound.edge (h : m.Sound adj) {v : ℕ} (hv : m.matchForLeft u = some v) : Edge adj u v :=
  h u v (Option.join_eq_some_iff.mp hv)

/-- The layered nodes are a closed set around the free ones. -/
theorem card_le_matchedLefts (hlen : adj.length = nLeft) (hm : Inverse nLeft nRight none m)
    (hl : Layers adj nLeft m []) (hunreached : m.distOf nLeft = none) {pairs : Finset (ℕ × ℕ)}
    (h : IsMatching (Edge adj) pairs) : pairs.card ≤ (matchedLefts nLeft m).card := by
  refine h.card_le_of_closed m.matchForLeft {u | u < nLeft ∧ (m.distOf u).isSome = true} ?_ ?_
  · intro u v hedge hout
    have hu : u < nLeft := hlen ▸ hedge.lt
    rw [mem_matchedLefts hm, Option.isSome_iff_ne_none]
    intro hfree
    refine hout ⟨hu, ?_⟩
    rw [(hl.free u hu).mpr hfree]
    rfl
  · rintro u ⟨hu, hdist⟩ v ⟨score, hedge⟩
    have hreached := hl.closed hunreached u hu hdist nofun (v, score) hedge
    have hright : m.matchForRight v = some (m.partner nLeft v) := by
      refine (partner_cases nLeft m v).resolve_left fun hn => ?_
      rw [hn.2, hunreached] at hreached
      cases hreached
    have hleft := hm.right v _ hright nofun
    exact ⟨m.partner nLeft v, ⟨(matchForLeft_lt hleft).trans_eq hm.lefts, hreached⟩,
      (mem_matchedLefts hm).mpr (hleft ▸ rfl), hleft⟩

theorem matchedLefts_init (nLeft nRight : ℕ) : matchedLefts nLeft (init nLeft nRight) = ∅ := by
  refine Finset.filter_false_of_mem fun u hu => ?_
  simp [matchForLeft, init, Finset.mem_range.mp hu]

theorem init_inverse (nLeft nRight : ℕ) : Inverse nLeft nRight none (init nLeft nRight) where
  lefts := List.length_replicate
  rights := List.length_replicate
  dists := List.length_replicate
  left w v hw := by
    simp only [matchForLeft, init, List.getElem?_replicate] at hw
    split at hw <;> cases hw
  right v w hw _ := by
    simp only [matchForRight, init, List.getElem?_replicate] at hw
    split at hw <;> cases hw

/-! ### With and without the count -/

theorem bfs_eq (adj : Adjacency) (nLeft : ℕ) (m : Matching) :
    bfs adj nLeft m = bfsWith adj nLeft (nLeft + 1) m := by
  have hfree : ((List.range nLeft).map fun u => if u ∈ m.freeLefts nLeft then some 0 else none) =
      (List.range nLeft).map fun u => if m.matchForLeft u = none then some 0 else none := by
    refine List.map_congr_left fun u hu => if_congr ?_ rfl rfl
    rw [mem_freeLefts, and_iff_right (List.mem_range.mp hu)]
  have hseed : { m with
      dist := ((List.range nLeft).map fun u => if u ∈ m.freeLefts nLeft then some 0 else none) ++
        [none] } = m.seeded nLeft := by
    rw [hfree, seeded]
  rw [bfsWith, ← hseed]
  rfl

theorem tryMatch_fst (adj : Adjacency) (nLeft : ℕ) (s : Matching × ℕ) (u : ℕ) :
    (tryMatch adj nLeft (nLeft + 2) s u).1 =
      if s.1.matchForLeft u = none then (dfs adj nLeft (nLeft + 2) u s.1).2 else s.1 := by
  rw [tryMatch]
  split
  · rcases dfs adj nLeft (nLeft + 2) u s.1 with ⟨_ | _, m'⟩ <;> rfl
  · rfl

theorem phase_eq (adj : Adjacency) (nLeft : ℕ) (m : Matching) (k : ℕ) :
    phase adj nLeft m = ((List.range nLeft).foldl (tryMatch adj nLeft (nLeft + 2)) (m, k)).1 := by
  unfold phase
  induction List.range nLeft generalizing m k with
  | nil => rfl
  | cons u us ih =>
    rw [List.foldl_cons, List.foldl_cons, ih _ (tryMatch adj nLeft (nLeft + 2) (m, k) u).2]
    exact congrArg (fun s => (us.foldl (tryMatch adj nLeft (nLeft + 2)) s).1)
      (Prod.ext (tryMatch_fst adj nLeft (m, k) u).symm rfl)

theorem solveLoop_eq (adj : Adjacency) (nLeft fuel : ℕ) (m : Matching) (k : ℕ) :
    solveLoop adj nLeft fuel m =
      (countedLoop adj nLeft (nLeft + 1) (nLeft + 2) fuel (m, k)).1 := by
  induction fuel generalizing m k with
  | zero => rfl
  | succ fuel ih =>
    rw [solveLoop, countedLoop, bfs_eq]
    rcases bfsWith adj nLeft (nLeft + 1) m with ⟨_ | _, m'⟩
    · rfl
    · dsimp only
      rw [phase_eq adj nLeft m' k]
      exact ih _ _

end Matching

/-! ### The object -/

namespace BipartiteMatching

open Matching DrmCxx.Lib.Bipartite

variable {b : BipartiteMatching} {nLeft nRight : ℕ} {edges : List (ℕ × ℕ × ℤ)}

/-- A sequence of `add_edge` calls. -/
def addEdges (b : BipartiteMatching) (edges : List (ℕ × ℕ × ℤ)) : Option BipartiteMatching :=
  edges.foldlM (fun b e => b.addEdge e.1 e.2.1 e.2.2) b

/-- A `reset` object is as good as a new one. -/
theorem reset_eq (b : BipartiteMatching) (nLeft nRight : ℕ) :
    b.reset nLeft nRight = construct nLeft nRight := by
  have hadj : (b.adj.take nLeft ++ List.replicate (nLeft - b.adj.length) []).map (fun _ => []) =
      List.replicate nLeft ([] : List (ℕ × ℤ)) := by
    rw [List.map_const', List.length_append, List.length_take, List.length_replicate]
    congr 1
    omega
  rw [reset, construct, hadj]

theorem mem_modify_getD {adj : Adjacency} {i u : ℕ} (hi : i < adj.length) (x y : ℕ × ℤ) :
    x ∈ (adj.modify i (· ++ [y])).getD u [] ↔ x ∈ adj.getD u [] ∨ (u, x) = (i, y) := by
  simp only [List.getD_eq_getElem?_getD, List.getElem?_modify]
  by_cases hu : i = u
  · subst hu
    simp [List.getElem?_eq_getElem hi]
  · simp [hu, Ne.symm hu]

theorem addEdges_spec (hedges : ∀ e ∈ edges, e.1 < b.adj.length) :
    ∃ b', b.addEdges edges = some b' ∧ b' = { b with adj := b'.adj } ∧
      b'.adj.length = b.adj.length ∧
        ∀ u x, x ∈ b'.adj.getD u [] ↔ x ∈ b.adj.getD u [] ∨ (u, x) ∈ edges := by
  induction edges generalizing b with
  | nil => exact ⟨b, rfl, rfl, rfl, by simp⟩
  | cons e edges ih =>
    have he := hedges e List.mem_cons_self
    have hadd : b.addEdge e.1 e.2.1 e.2.2 = some { b with adj := b.adj.modify e.1 (· ++ [e.2]) } :=
      if_pos he
    have hlen : (b.adj.modify e.1 (· ++ [e.2])).length = b.adj.length := List.length_modify ..
    obtain ⟨b', hb', hsame, hlen', hmem⟩ :=
      ih (b := { b with adj := b.adj.modify e.1 (· ++ [e.2]) })
      fun f hf => (hedges f (List.mem_cons_of_mem _ hf)).trans_eq hlen.symm
    refine ⟨b', ?_, hsame, hlen'.trans hlen, fun u x => (hmem u x).trans ?_⟩
    · rw [addEdges, List.foldlM_cons, hadd]
      exact hb'
    · rw [mem_modify_getD he, or_assoc, List.mem_cons]

/-- What `solve` promises of the edges added, whatever the scores: `b` is the object with the edges,
`s` the one solved. -/
structure Solves (nLeft nRight : ℕ) (edges : List (ℕ × ℕ × ℤ)) (b s : BipartiteMatching) :
    Prop where
  ends : ∀ visits depth rounds, nLeft < visits → nLeft < depth → nLeft < rounds →
    b.solveWith visits depth rounds = s
  inverse : ∀ u v, s.matchForLeft u = some v ↔ s.matchForRight v = some u
  once : ∀ u u' v, s.matchForLeft u = some v → s.matchForLeft u' = some v → u = u'
  added : ∀ u v, s.matchForLeft u = some v → ∃ score, (u, v, score) ∈ edges
  counted : s.matchedCount =
    ((Finset.range nLeft).filter fun u => (s.matchForLeft u).isSome = true).card
  greatest : IsGreatest {n | ∃ pairs : Finset (ℕ × ℕ),
    IsMatching (fun u v => ∃ score, (u, v, score) ∈ edges) pairs ∧ pairs.card = n} s.matchedCount

/-- `solve` ends with a maximum matching of the edges added since the constructor or a `reset`. -/
theorem solve_maximum (b : BipartiteMatching) (nLeft nRight : ℕ) (edges : List (ℕ × ℕ × ℤ))
    (hedges : ∀ e ∈ edges, e.1 < nLeft ∧ e.2.1 < nRight) :
    ∃ b', (construct nLeft nRight).addEdges edges = some b' ∧
      (b.reset nLeft nRight).addEdges edges = some b' ∧
        Solves nLeft nRight edges b' b'.solve := by
  obtain ⟨b', hb', hsame, hlen, hmem⟩ := addEdges_spec (b := construct nLeft nRight)
    fun e he => (hedges e he).1.trans_eq List.length_replicate.symm
  have hnLeft : b'.nLeft = nLeft := by rw [hsame]; rfl
  have hnodes : b'.nodes = init nLeft nRight := by rw [hsame]; rfl
  have hadded : ∀ u x, x ∈ b'.sortedAdj.getD u [] ↔ (u, x) ∈ edges := fun u x => by
    rw [sortedAdj, mem_sorted, hmem, or_iff_right]
    simp only [construct, List.getD_eq_getElem?_getD, List.getElem?_replicate]
    split <;> exact List.not_mem_nil
  have hedge : (fun u v => ∃ score, (u, v, score) ∈ edges) = Edge b'.sortedAdj := by
    funext u v
    exact propext (exists_congr fun score => (hadded u (v, score)).symm)
  obtain ⟨s, hs⟩ := loop_ends (fun u e he => (hedges _ ((hadded u e).mp he)).2)
    (Nat.lt_succ_self nLeft) (Nat.lt_succ_self nLeft) (init_inverse nLeft nRight)
    (init_sound b'.sortedAdj nLeft nRight) (Nat.lt_add_left _ (Nat.lt_succ_self nLeft)) 0
  have hsolve : ∀ visits depth rounds, nLeft < visits → nLeft < depth → nLeft < rounds →
      b'.solveWith visits depth rounds =
        { b' with
          adj := b'.sortedAdj
          nodes := s.1
          matched := s.2 } := by
    intro visits depth rounds hv hd hr
    rw [solveWith, hnLeft, hnodes, hs.rounds visits depth rounds hv hd (Nat.lt_add_left _ hr)]
  have hcount : s.2 = (matchedLefts nLeft s.1).card := by
    rw [hs.count, hs.adds.card_eq, matchedLefts_init, Finset.card_empty]
  have hlen' : b'.sortedAdj.length = nLeft := by
    rw [sortedAdj, List.length_map, hlen]
    exact List.length_replicate
  refine ⟨b', hb', reset_eq b nLeft nRight ▸ hb', ?_⟩
  rw [solve, hnLeft, hsolve _ _ _ (by omega) (by omega) (by omega)]
  have honce : ∀ u u' v, s.1.matchForLeft u = some v → s.1.matchForLeft u' = some v → u = u' :=
    fun u u' v => hs.inverse.once
  refine ⟨hsolve, fun u v => ⟨fun h => (hs.inverse.left u v h).1,
    fun h => hs.inverse.right v u h nofun⟩, honce, fun u v h => ?_, hcount, ?_, ?_⟩
  · have := hs.sound.edge h
    rwa [← hedge] at this
  · rw [hedge]
    obtain ⟨pairs, hpairs, hcard⟩ := isMatching_partner s.1.matchForLeft
      (fun u v h => hs.sound.edge h) honce fun u => mem_matchedLefts hs.inverse
    exact ⟨pairs, hpairs, hcard.trans hcount.symm⟩
  · rintro n ⟨pairs, hpairs, rfl⟩
    rw [hedge] at hpairs
    exact (card_le_matchedLefts hlen' hs.inverse hs.layers hs.unreached hpairs).trans_eq hcount.symm

/-- Four layers over three planes: three of them are matched. -/
theorem solve_maximum_scarce :
    ((construct 4 3).addEdges
        [(0, 0, 0), (0, 1, 0), (1, 0, 0), (2, 1, 0), (2, 2, 0), (3, 2, 0)]).map
          (fun b => b.solve.matchedCount) = some 3 ∧
      ∃ b', (construct 4 3).addEdges
          [(0, 0, 0), (0, 1, 0), (1, 0, 0), (2, 1, 0), (2, 2, 0), (3, 2, 0)] = some b' ∧
        ((construct 0 0).reset 4 3).addEdges
          [(0, 0, 0), (0, 1, 0), (1, 0, 0), (2, 1, 0), (2, 2, 0), (3, 2, 0)] = some b' ∧
        Solves 4 3 [(0, 0, 0), (0, 1, 0), (1, 0, 0), (2, 1, 0), (2, 2, 0), (3, 2, 0)] b' b'.solve :=
  ⟨by decide +kernel, solve_maximum (construct 0 0) 4 3 _ (by decide)⟩

end BipartiteMatching

end DrmCxx.Planes
