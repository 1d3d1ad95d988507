import Mathlib.Data.Finset.Card

/-!
# Matchings of a bipartite graph

A matching is maximum once a set of left nodes holds every unmatched one and, with each of its
nodes, the partners of all neighbours.
-/

namespace DrmCxx.Lib.Bipartite

variable {α β : Type*}

/-- Pairs along edges that share no node. -/
structure IsMatching (edge : α → β → Prop) (pairs : Finset (α × β)) : Prop where
  edges : ∀ p ∈ pairs, edge p.1 p.2
  left : ∀ p ∈ pairs, ∀ q ∈ pairs, p.1 = q.1 → p = q
  right : ∀ p ∈ pairs, ∀ q ∈ pairs, p.2 = q.2 → p = q

variable {edge : α → β → Prop} {matched : Finset α}

/-- The pairs of a partner function that is injective where it is defined. -/
theorem isMatching_partner [DecidableEq α] [DecidableEq β] (partner : α → Option β)
    (hedge : ∀ u v, partner u = some v → edge u v)
    (honce : ∀ u u' v, partner u = some v → partner u' = some v → u = u')
    (hmatched : ∀ u, u ∈ matched ↔ (partner u).isSome = true) :
    ∃ pairs, IsMatching edge pairs ∧ pairs.card = matched.card := by
  let pair (u : {u // u ∈ matched}) : α × β := (u.1, (partner u.1).get ((hmatched u.1).mp u.2))
  have hpair (u : {u // u ∈ matched}) : partner (pair u).1 = some (pair u).2 := by simp [pair]
  have hinj : Function.Injective pair := fun u u' h => Subtype.ext (congrArg Prod.fst h)
  refine ⟨matched.attach.image pair, ⟨?_, ?_, ?_⟩, ?_⟩
  · intro p hp
    obtain ⟨u, -, rfl⟩ := Finset.mem_image.mp hp
    exact hedge _ _ (hpair u)
  · intro p hp q hq h
    obtain ⟨u, -, rfl⟩ := Finset.mem_image.mp hp
    obtain ⟨u', -, rfl⟩ := Finset.mem_image.mp hq
    exact congrArg pair (Subtype.ext h)
  · intro p hp q hq h
    obtain ⟨u, -, rfl⟩ := Finset.mem_image.mp hp
    obtain ⟨u', -, rfl⟩ := Finset.mem_image.mp hq
    exact congrArg pair (Subtype.ext (honce _ _ _ (hpair u) (h ▸ hpair u')))
  · rw [Finset.card_image_of_injective _ hinj, Finset.card_attach]

/-- No matching is larger: the nodes of the closed set are charged to the partners of their
neighbours, the others to themselves. -/
theorem IsMatching.card_le_of_closed (partner : α → Option β) (closed : Set α)
    (hfree : ∀ u v, edge u v → u ∉ closed → u ∈ matched)
    (hclosed : ∀ u ∈ closed, ∀ v, edge u v → ∃ w ∈ closed, w ∈ matched ∧ partner w = some v)
    {pairs : Finset (α × β)} (h : IsMatching edge pairs) : pairs.card ≤ matched.card := by
  classical
  have hcharge (p : {p // p ∈ pairs}) : ∃ w ∈ matched,
      (p.1.1 ∈ closed → w ∈ closed ∧ partner w = some p.1.2) ∧ (p.1.1 ∉ closed → w = p.1.1) := by
    by_cases hc : p.1.1 ∈ closed
    · obtain ⟨w, hw, hm, hv⟩ := hclosed p.1.1 hc p.1.2 (h.edges p.1 p.2)
      exact ⟨w, hm, fun _ => ⟨hw, hv⟩, fun hn => absurd hc hn⟩
    · exact ⟨p.1.1, hfree p.1.1 p.1.2 (h.edges p.1 p.2) hc, fun hn => absurd hn hc, fun _ => rfl⟩
  choose charge hmem hin hout using hcharge
  rw [← Finset.card_attach]
  refine Finset.card_le_card_of_injOn charge (fun p _ => hmem p) fun p _ q _ heq => ?_
  by_cases hpc : p.1.1 ∈ closed <;> by_cases hqc : q.1.1 ∈ closed
  · have hv := (hin p hpc).2
    rw [heq, (hin q hqc).2] at hv
    exact Subtype.ext (h.right p.1 p.2 q.1 q.2 (Option.some.inj hv).symm)
  · exact absurd (hout q hqc ▸ heq ▸ (hin p hpc).1) hqc
  · exact absurd (hout p hpc ▸ heq ▸ (hin q hqc).1) hpc
  · refine Subtype.ext (h.left p.1 p.2 q.1 q.2 ?_)
    exact (hout p hpc).symm.trans (heq.trans (hout q hqc))

end DrmCxx.Lib.Bipartite
