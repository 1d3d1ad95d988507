import DrmCxx.Verification.Planes.Matching
import Mathlib.Data.Finset.Card

/-!
# The layers of a search

The breadth-first search gives distance 0 to the free left nodes and `d + 1` only behind an edge of
a node at distance `d`. When it does not reach a free right node, the nodes it reached are closed
under alternating paths.
-/

namespace DrmCxx.Planes.Matching

variable {adj : Adjacency} {nLeft : ℕ} {m : Matching} {queue : List ℕ} {u d : ℕ}

/-! ### Reading the state -/

theorem distOf_lt {x : ℕ} (h : m.distOf x = some d) : x < m.dist.length := by
  rw [distOf, Option.join_eq_some_iff] at h
  exact (List.getElem?_eq_some_iff.mp h).1

theorem distOf_set {i : ℕ} (hi : i < m.dist.length) (x : Option ℕ) (w : ℕ) :
    distOf { m with dist := m.dist.set i x } w = if w = i then x else m.distOf w := by
  by_cases hw : i = w
  · subst hw
    simp [distOf, List.getElem?_set_self hi]
  · rw [if_neg (Ne.symm hw)]
    simp [distOf, List.getElem?_set_ne hw]

theorem partner_eq (m : Matching) (v : ℕ) :
    m.partner nLeft v = (m.matchForRight v).getD nLeft := rfl

theorem partner_cases (nLeft : ℕ) (m : Matching) (v : ℕ) :
    m.matchForRight v = none ∧ m.partner nLeft v = nLeft ∨
      m.matchForRight v = some (m.partner nLeft v) := by
  cases h : m.matchForRight v with
  | none => exact .inl ⟨rfl, by rw [partner_eq, h, Option.getD_none]⟩
  | some w => exact .inr (by rw [partner_eq, h, Option.getD_some])

/-! ### The invariant -/

/-- The distances given so far, with the nodes still queued. -/
structure Layers (adj : Adjacency) (nLeft : ℕ) (m : Matching) (queue : List ℕ) : Prop where
  length : m.dist.length = nLeft + 1
  partners : ∀ v, m.partner nLeft v ≤ nLeft
  queued : ∀ u ∈ queue, u < nLeft ∧ (m.distOf u).isSome = true
  free : ∀ u < nLeft, m.distOf u = some 0 ↔ m.matchForLeft u = none
  sentinel : m.distOf nLeft ≠ some 0
  behind : ∀ x d, m.distOf x = some (d + 1) →
    ∃ w < nLeft, m.distOf w = some d ∧ ∃ e ∈ adj.getD w [], m.partner nLeft e.1 = x
  closed : m.distOf nLeft = none → ∀ w < nLeft, (m.distOf w).isSome = true → w ∉ queue →
    ∀ e ∈ adj.getD w [], (m.distOf (m.partner nLeft e.1)).isSome = true

/-- The left nodes without a distance. -/
def unseen (nLeft : ℕ) (m : Matching) : Finset ℕ :=
  (Finset.range nLeft).filter fun w => m.distOf w = none

namespace Layers

/-- A node behind an edge of `u` gets the next distance and queues. -/
theorem reach (h : Layers adj nLeft m (u :: queue)) (hd : m.distOf u = some d) {e : ℕ × ℤ}
    (he : e ∈ adj.getD u []) (hnone : m.distOf (m.partner nLeft e.1) = none) :
    Layers adj nLeft { m with dist := m.dist.set (m.partner nLeft e.1) (some (d + 1)) }
      (u :: if m.partner nLeft e.1 = nLeft then queue else queue ++ [m.partner nLeft e.1]) := by
  have hu := (h.queued u List.mem_cons_self).1
  have hle := h.partners e.1
  have hlt : m.partner nLeft e.1 < m.dist.length := h.length ▸ Nat.lt_succ_of_le hle
  have hne : ∀ {x k}, m.distOf x = some k → x ≠ m.partner nLeft e.1 := fun hx heq => by
    rw [heq, hnone] at hx
    cases hx
  have hkeep : ∀ x, (m.distOf x).isSome = true →
      distOf { m with dist := m.dist.set (m.partner nLeft e.1) (some (d + 1)) } x = m.distOf x :=
    fun x hx => by
      obtain ⟨k, hk⟩ := Option.isSome_iff_exists.mp hx
      rw [distOf_set hlt, if_neg (hne hk)]
  refine ⟨(List.length_set ..).trans h.length, h.partners, ?_, ?_, ?_, ?_, ?_⟩
  · intro w hw
    have hold : w ∈ u :: queue → w < nLeft ∧
        (distOf { m with dist := m.dist.set (m.partner nLeft e.1) (some (d + 1)) } w).isSome =
          true := fun hw => ⟨(h.queued w hw).1, hkeep w (h.queued w hw).2 ▸ (h.queued w hw).2⟩
    rcases List.mem_cons.mp hw with rfl | hw
    · exact hold List.mem_cons_self
    · split at hw
      · exact hold (List.mem_cons_of_mem _ hw)
      · rename_i hin
        rcases List.mem_append.mp hw with hw | hw
        · exact hold (List.mem_cons_of_mem _ hw)
        · rw [List.mem_singleton.mp hw, distOf_set hlt, if_pos rfl]
          exact ⟨lt_of_le_of_ne hle hin, rfl⟩
  · intro w hw
    rw [distOf_set hlt]
    split
    · rename_i heq
      have hmatched := h.free w hw
      rw [heq, hnone] at hmatched
      exact ⟨nofun, fun hn => nomatch hmatched.mpr (heq ▸ hn)⟩
    · exact h.free w hw
  · rw [distOf_set hlt]
    split
    · nofun
    · exact h.sentinel
  · intro x k hx
    rw [distOf_set hlt] at hx
    split at hx
    · rename_i heq
      cases hx
      exact ⟨u, hu, by rw [hkeep u (hd ▸ rfl), hd], e, he, heq.symm⟩
    · obtain ⟨w, hw, hk, hedge⟩ := h.behind x k hx
      exact ⟨w, hw, by rw [hkeep w (hk ▸ rfl), hk], hedge⟩
  · intro hsentinel w hw hsome hout f hf
    rw [distOf_set hlt] at hsentinel
    split at hsentinel
    · cases hsentinel
    · rename_i hin
      rw [if_neg (Ne.symm hin)] at hout
      simp only [List.mem_cons, List.mem_append, List.mem_nil_iff, or_false, not_or] at hout
      rw [distOf_set hlt, if_neg hout.2.2] at hsome
      have hold := h.closed hsentinel w hw hsome
        (fun hmem => (List.mem_cons.mp hmem).elim hout.1 hout.2.1) f hf
      exact (congrArg Option.isSome (hkeep _ hold)).trans hold

/-- A node whose edges are all done leaves the queue. -/
theorem leave (h : Layers adj nLeft m (u :: queue))
    (hedges : m.distOf nLeft = none → ∀ e ∈ adj.getD u [],
      (m.distOf (m.partner nLeft e.1)).isSome = true) : Layers adj nLeft m queue where
  length := h.length
  partners := h.partners
  queued w hw := h.queued w (List.mem_cons_of_mem _ hw)
  free := h.free
  sentinel := h.sentinel
  behind := h.behind
  closed hnone w hw hsome hout := by
    by_cases heq : w = u
    · exact heq ▸ hedges hnone
    · exact h.closed hnone w hw hsome fun hmem => (List.mem_cons.mp hmem).elim heq hout

/-- Every distance up to that of a node is some node's, so none exceeds the number of nodes. -/
theorem distOf_le (h : Layers adj nLeft m queue) {x : ℕ} (hx : m.distOf x = some d) :
    d ≤ nLeft := by
  have hall : ∀ d x, m.distOf x = some d → ∀ k ≤ d, ∃ w, m.distOf w = some k := by
    intro d
    induction d with
    | zero =>
      intro x hx k hk
      exact ⟨x, Nat.le_zero.mp hk ▸ hx⟩
    | succ d ih =>
      intro x hx k hk
      obtain ⟨w, -, hw, -⟩ := h.behind x d hx
      rcases Nat.le_succ_iff.mp hk with hk | rfl
      · exact ih w hw k hk
      · exact ⟨x, hx⟩
  choose! node hnode using hall d x hx
  have hcard : (Finset.range (d + 1)).card ≤ (Finset.range (nLeft + 1)).card := by
    refine Finset.card_le_card_of_injOn node (fun k hk => ?_) fun j hj k hk heq => ?_
    · have hk := hnode k (Nat.le_of_lt_succ (Finset.mem_range.mp hk))
      exact Finset.mem_coe.mpr (Finset.mem_range.mpr (h.length ▸ distOf_lt hk))
    · have hj := hnode j (Nat.le_of_lt_succ (Finset.mem_range.mp hj))
      have hk := hnode k (Nat.le_of_lt_succ (Finset.mem_range.mp hk))
      rw [heq, hk] at hj
      exact (Option.some.inj hj).symm
  simpa using hcard

end Layers

/-! ### The loops -/

theorem unseen_set_subset {i : ℕ} (hlen : i < m.dist.length) :
    unseen nLeft { m with dist := m.dist.set i (some (d + 1)) } ⊆ unseen nLeft m := by
  intro w hw
  obtain ⟨hw, hdist⟩ := Finset.mem_filter.mp hw
  rw [distOf_set hlen] at hdist
  split at hdist
  · cases hdist
  · exact Finset.mem_filter.mpr ⟨hw, hdist⟩

theorem unseen_set_lt {i : ℕ} (hi : i < nLeft) (hlen : i < m.dist.length)
    (hnone : m.distOf i = none) :
    (unseen nLeft { m with dist := m.dist.set i (some (d + 1)) }).card < (unseen nLeft m).card := by
  refine Finset.card_lt_card ⟨unseen_set_subset hlen, fun hsub => ?_⟩
  have := (Finset.mem_filter.mp (hsub (Finset.mem_filter.mpr ⟨Finset.mem_range.mpr hi, hnone⟩))).2
  rw [distOf_set hlen, if_pos rfl] at this
  cases this

/-- All edges of a node tried: the invariant holds, the nodes behind them are reached, and each one
queued had no distance. -/
theorem bfsEdges_layers (es : List (ℕ × ℤ)) (hes : ∀ e ∈ es, e ∈ adj.getD u [])
    (h : Layers adj nLeft m (u :: queue)) (hd : m.distOf u = some d) :
    Layers adj nLeft (bfsEdges nLeft d es m queue).1 (u :: (bfsEdges nLeft d es m queue).2) ∧
      (∀ w, (m.distOf w).isSome = true →
        ((bfsEdges nLeft d es m queue).1.distOf w).isSome = true) ∧
      (∀ e ∈ es, ((bfsEdges nLeft d es m queue).1.distOf (m.partner nLeft e.1)).isSome = true) ∧
      (bfsEdges nLeft d es m queue).2.length +
        (unseen nLeft (bfsEdges nLeft d es m queue).1).card ≤
          queue.length + (unseen nLeft m).card := by
  induction es generalizing m queue with
  | nil => exact ⟨h, fun _ hw => hw, nofun, Nat.le_refl _⟩
  | cons e es ih =>
    have he := hes e List.mem_cons_self
    have htail : ∀ e ∈ es, e ∈ adj.getD u [] := fun e he => hes e (List.mem_cons_of_mem _ he)
    rw [bfsEdges]
    split
    · rename_i hnone
      have hlt : m.partner nLeft e.1 < m.dist.length :=
        h.length ▸ Nat.lt_succ_of_le (h.partners e.1)
      have hne : u ≠ m.partner nLeft e.1 := fun heq => by rw [← heq, hd] at hnone; cases hnone
      obtain ⟨hl, hmono, hedges, hcount⟩ := ih htail (h.reach hd he hnone)
        (by rw [distOf_set hlt, if_neg hne, hd])
      have hkept : ∀ w, (m.distOf w).isSome = true →
          (distOf { m with dist := m.dist.set (m.partner nLeft e.1) (some (d + 1)) } w).isSome =
            true := fun w hw => by
        rw [distOf_set hlt]
        split
        · rfl
        · exact hw
      refine ⟨hl, fun w hw => hmono w (hkept w hw), fun f hf => ?_, hcount.trans ?_⟩
      · rcases List.mem_cons.mp hf with rfl | hf
        · exact hmono _ (by rw [distOf_set hlt, if_pos rfl]; rfl)
        · exact hedges f hf
      · split
        · exact Nat.add_le_add_left (Finset.card_le_card (unseen_set_subset hlt)) _
        · rename_i hin
          have := unseen_set_lt (d := d) (lt_of_le_of_ne (h.partners e.1) hin) hlt hnone
          rw [List.length_append, List.length_singleton]
          omega
    · rename_i hsome
      obtain ⟨hl, hmono, hedges, hcount⟩ := ih htail h hd
      refine ⟨hl, hmono, fun f hf => ?_, hcount⟩
      rcases List.mem_cons.mp hf with rfl | hf
      · exact hmono _ (Option.isSome_iff_ne_none.mpr hsome)
      · exact hedges f hf

/-- One round of the loop. -/
theorem bfsLoop_round (h : Layers adj nLeft m (u :: queue)) :
    ∃ m' queue', (∀ fuel, bfsLoop adj nLeft (fuel + 1) m (u :: queue) =
        bfsLoop adj nLeft fuel m' queue') ∧
      Layers adj nLeft m' queue' ∧ m' = { m with dist := m'.dist } ∧
      queue'.length + (unseen nLeft m').card ≤ queue.length + (unseen nLeft m).card := by
  obtain ⟨d, hd⟩ := Option.isSome_iff_exists.mp (h.queued u List.mem_cons_self).2
  by_cases hshort : (m.distOf nLeft).all (d < ·) = true
  · obtain ⟨hl, -, hedges, hcount⟩ := bfsEdges_layers _ (fun _ he => he) h hd
    have hsame := bfsEdges_matching nLeft d (adj.getD u []) m queue
    refine ⟨_, _, fun fuel => ?_, hl.leave fun _ e he => ?_, hsame, hcount⟩
    · rw [bfsLoop, hd]
      exact if_pos hshort
    · have hpartner : (bfsEdges nLeft d (adj.getD u []) m queue).1.partner nLeft e.1 =
          m.partner nLeft e.1 := by rw [hsame]; rfl
      exact hpartner ▸ hedges e he
  · refine ⟨m, queue, fun fuel => ?_, h.leave fun hnone => ?_, rfl, Nat.le_refl _⟩
    · rw [bfsLoop, hd]
      exact if_neg hshort
    · rw [hnone] at hshort
      exact absurd rfl hshort

/-- The loop empties the queue, whatever rounds it has left over. -/
theorem bfsLoop_layers (fuel : ℕ) (h : Layers adj nLeft m queue)
    (hfuel : queue.length + (unseen nLeft m).card ≤ fuel) :
    Layers adj nLeft (bfsLoop adj nLeft fuel m queue) [] ∧
      bfsLoop adj nLeft fuel m queue = { m with dist := (bfsLoop adj nLeft fuel m queue).dist } ∧
      ∀ fuel', queue.length + (unseen nLeft m).card ≤ fuel' →
        bfsLoop adj nLeft fuel' m queue = bfsLoop adj nLeft fuel m queue := by
  induction fuel generalizing m queue with
  | zero =>
    have hempty : queue = [] := List.length_eq_zero_iff.mp (by omega)
    subst hempty
    refine ⟨h, rfl, fun fuel' _ => ?_⟩
    cases fuel' <;> rfl
  | succ fuel ih =>
    cases queue with
    | nil =>
      refine ⟨h, rfl, fun fuel' _ => ?_⟩
      cases fuel' <;> rfl
    | cons u queue =>
      obtain ⟨m', queue', hround, hl, hsame, hcount⟩ := bfsLoop_round h
      rw [List.length_cons] at hfuel
      obtain ⟨hlayers, hrest, hends⟩ := ih hl (by omega)
      rw [hround]
      refine ⟨hlayers, by rw [hrest, hsame], fun fuel' hfuel' => ?_⟩
      rw [List.length_cons] at hfuel'
      obtain ⟨fuel', rfl⟩ := Nat.exists_eq_add_one_of_ne_zero (show fuel' ≠ 0 by omega)
      rw [hround]
      exact hends fuel' (by omega)

/-! ### The search -/

variable {nRight : ℕ}

/-- The vectors have their sizes and the two sides are inverse to each other, but for the right node
`hole`, which no left node holds any more. -/
structure Inverse (nLeft nRight : ℕ) (hole : Option ℕ) (m : Matching) : Prop where
  lefts : m.matchLeft.length = nLeft
  rights : m.matchRight.length = nRight
  dists : m.dist.length = nLeft + 1
  left : ∀ w v, m.matchForLeft w = some v → m.matchForRight v = some w ∧ hole ≠ some v
  right : ∀ v w, m.matchForRight v = some w → hole ≠ some v → m.matchForLeft w = some v

theorem matchForLeft_lt {v : ℕ} (h : m.matchForLeft u = some v) : u < m.matchLeft.length := by
  rw [matchForLeft, Option.join_eq_some_iff] at h
  exact (List.getElem?_eq_some_iff.mp h).1

theorem Inverse.partner_lt (h : Inverse nLeft nRight none m) {v w : ℕ}
    (hw : m.matchForRight v = some w) : w < nLeft :=
  h.lefts ▸ matchForLeft_lt (h.right v w hw nofun)

theorem Inverse.once {hole : Option ℕ} (h : Inverse nLeft nRight hole m) {u u' v : ℕ}
    (hu : m.matchForLeft u = some v) (hu' : m.matchForLeft u' = some v) : u = u' := by
  have := (h.left u v hu).1
  rw [(h.left u' v hu').1] at this
  exact (Option.some.inj this).symm

theorem seeded_distOf (m : Matching) (w : ℕ) :
    (m.seeded nLeft).distOf w =
      if w < nLeft ∧ m.matchForLeft w = none then some 0 else none := by
  rcases lt_trichotomy w nLeft with hw | rfl | hw
  · simp [seeded, distOf, List.getElem?_append, hw]
  · simp [seeded, distOf]
  · simp [seeded, distOf, List.getElem?_append, hw.not_gt, Nat.sub_ne_zero_of_lt hw]

theorem mem_freeLefts {u : ℕ} : u ∈ m.freeLefts nLeft ↔ u < nLeft ∧ m.matchForLeft u = none := by
  simp [freeLefts]

theorem Inverse.seeded_layers (h : Inverse nLeft nRight none m) :
    Layers adj nLeft (m.seeded nLeft) (m.freeLefts nLeft) where
  length := by simp [seeded]
  partners v := by
    rcases partner_cases nLeft (m.seeded nLeft) v with ⟨-, hv⟩ | hv
    · exact hv.le
    · exact (h.partner_lt (m := m) hv).le
  queued u hu := by
    rw [seeded_distOf, if_pos (mem_freeLefts.mp hu)]
    exact ⟨(mem_freeLefts.mp hu).1, rfl⟩
  free u hu := by
    rw [seeded_distOf]
    change _ ↔ m.matchForLeft u = none
    by_cases hfree : m.matchForLeft u = none <;> simp [hu, hfree]
  sentinel := by simp [seeded_distOf]
  behind x d hx := by
    rw [seeded_distOf] at hx
    split at hx <;> cases hx
  closed _ w hw hsome hout := by
    rw [seeded_distOf] at hsome
    split at hsome
    · rename_i hfree
      exact absurd (mem_freeLefts.mpr hfree) hout
    · cases hsome

theorem seeded_rounds (nLeft : ℕ) (m : Matching) :
    (m.freeLefts nLeft).length + (unseen nLeft (m.seeded nLeft)).card ≤ nLeft := by
  have hfree : (m.freeLefts nLeft).length =
      ((Finset.range nLeft).filter fun u => m.matchForLeft u = none).card := rfl
  have hunseen : unseen nLeft (m.seeded nLeft) =
      (Finset.range nLeft).filter fun u => ¬ m.matchForLeft u = none := by
    refine Finset.filter_congr fun u hu => ?_
    rw [seeded_distOf]
    by_cases hfree : m.matchForLeft u = none <;> simp [hfree, Finset.mem_range.mp hu]
  rw [hfree, hunseen, Finset.card_filter_add_card_filter_not, Finset.card_range]

/-- The search ends after at most `nLeft` visits, with every node it could layer layered. -/
theorem bfsWith_layers (adj : Adjacency) (h : Inverse nLeft nRight none m) :
    ∃ m', Layers adj nLeft m' [] ∧ m'.matchLeft = m.matchLeft ∧ m'.matchRight = m.matchRight ∧
      ∀ visits, nLeft < visits →
        bfsWith adj nLeft visits m = ((m'.distOf nLeft).isSome, m') := by
  have hrounds := seeded_rounds nLeft m
  have hstart : Layers adj nLeft (m.seeded nLeft) (m.freeLefts nLeft) := h.seeded_layers
  obtain ⟨hl, hsame, hends⟩ := bfsLoop_layers nLeft hstart hrounds
  refine ⟨_, hl, by rw [hsame]; rfl, by rw [hsame]; rfl, fun visits hvisits => ?_⟩
  simp only [bfsWith, hends visits (by omega)]

end DrmCxx.Planes.Matching
