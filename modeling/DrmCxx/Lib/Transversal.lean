import Mathlib.Combinatorics.Hall.Basic
import Mathlib.Combinatorics.Matroid.Circuit
import Mathlib.Combinatorics.Matroid.IndepAxioms
import DrmCxx.Lib.Bipartite

/-!
# Sets that can be matched at once

The sets of left nodes that some matching covers are the independent sets of a matroid. A base of a
matroid, built one element at a time, admits no exchange for an element of higher rank exactly when
no element was added that the ones before it and those of higher rank already span.
-/

namespace DrmCxx.Lib.Transversal

variable {α β : Type*} [DecidableEq α] [DecidableEq β]

/-- Each node of the set gets a neighbour of its own. -/
def Coverable (nbrs : α → Finset β) (S : Finset α) : Prop :=
  ∃ f : S → β, Function.Injective f ∧ ∀ u : S, f u ∈ nbrs u

variable {nbrs : α → Finset β} {S T I J : Finset α}

/-- Hall's condition. -/
theorem coverable_iff_card_le :
    Coverable nbrs S ↔ ∀ T ⊆ S, T.card ≤ (T.biUnion nbrs).card := by
  rw [Coverable, ← Finset.all_card_le_biUnion_card_iff_exists_injective (fun u : S => nbrs u)]
  have himage (T : Finset S) : (T.image Subtype.val).card = T.card :=
    Finset.card_image_of_injective _ Subtype.val_injective
  constructor
  · intro h T hT
    have hval : (T.subtype (· ∈ S)).image Subtype.val = T := by
      ext u
      simpa using fun hu => hT hu
    have hle := h (T.subtype (· ∈ S))
    rwa [← himage, ← Finset.image_biUnion, hval] at hle
  · intro h T
    rw [← himage, ← Finset.image_biUnion]
    exact h _ fun u hu => by
      obtain ⟨w, -, rfl⟩ := Finset.mem_image.mp hu
      exact w.2

theorem coverable_empty : Coverable nbrs ∅ := by
  refine coverable_iff_card_le.mpr fun T hT => ?_
  rw [Finset.subset_empty.mp hT]
  exact Nat.zero_le _

theorem Coverable.mono (h : Coverable nbrs S) (hT : T ⊆ S) : Coverable nbrs T :=
  coverable_iff_card_le.mpr fun U hU => coverable_iff_card_le.mp h U (hU.trans hT)

/-- A set with no neighbour to spare. -/
def Tight (nbrs : α → Finset β) (S : Finset α) : Prop := (S.biUnion nbrs).card ≤ S.card

/-- Tight sets inside a coverable set are closed under union. -/
theorem Tight.union (hI : Coverable nbrs I) (hS : S ⊆ I) (hsTight : Tight nbrs S)
    (htTight : Tight nbrs T) : Tight nbrs (S ∪ T) := by
  unfold Tight at *
  have hhall := coverable_iff_card_le.mp hI (S ∩ T) (Finset.inter_subset_left.trans hS)
  have hinter : ((S ∩ T).biUnion nbrs).card ≤ (S.biUnion nbrs ∩ T.biUnion nbrs).card :=
    Finset.card_le_card (Finset.subset_inter
      (Finset.biUnion_subset_biUnion_of_subset_left _ Finset.inter_subset_left)
      (Finset.biUnion_subset_biUnion_of_subset_left _ Finset.inter_subset_right))
  have hnbrs := Finset.card_union_add_card_inter (S.biUnion nbrs) (T.biUnion nbrs)
  have hnodes := Finset.card_union_add_card_inter S T
  rw [Finset.union_biUnion]
  omega

/-- A node that cannot join a coverable set has all its neighbours behind a tight part of it. -/
theorem Coverable.tight_of_not_insert {e : α} (hI : Coverable nbrs I)
    (he : ¬ Coverable nbrs (insert e I)) :
    ∃ S ⊆ I, Tight nbrs S ∧ nbrs e ⊆ S.biUnion nbrs := by
  rw [coverable_iff_card_le] at he
  push Not at he
  obtain ⟨T, hT, hlt⟩ := he
  have heT : e ∈ T := by
    by_contra hout
    have hTI : T ⊆ I := fun u hu => (Finset.mem_insert.mp (hT hu)).resolve_left fun heq =>
      hout (heq ▸ hu)
    exact hlt.not_ge (coverable_iff_card_le.mp hI T hTI)
  have hrest : T.erase e ⊆ I := fun u hu =>
    (Finset.mem_insert.mp (hT (Finset.mem_of_mem_erase hu))).resolve_left
      (Finset.ne_of_mem_erase hu)
  have hcard := Finset.card_erase_add_one heT
  have hhall := coverable_iff_card_le.mp hI _ hrest
  have hsub : (T.erase e).biUnion nbrs ⊆ T.biUnion nbrs :=
    Finset.biUnion_subset_biUnion_of_subset_left _ (Finset.erase_subset e T)
  have hsame : (T.erase e).biUnion nbrs = T.biUnion nbrs :=
    Finset.eq_of_subset_of_card_le hsub (by omega)
  refine ⟨T.erase e, hrest, ?_, ?_⟩
  · rw [Tight, hsame]
    omega
  · rw [hsame]
    exact Finset.subset_biUnion_of_mem nbrs heT

/-- A smaller coverable set takes in a node of a larger one. -/
theorem Coverable.exists_insert (hI : Coverable nbrs I) (hJ : Coverable nbrs J)
    (hlt : I.card < J.card) : ∃ e ∈ J, e ∉ I ∧ Coverable nbrs (insert e I) := by
  by_contra hno
  push Not at hno
  have htight : ∀ D ⊆ J \ I, ∃ S ⊆ I, Tight nbrs S ∧ ∀ e ∈ D, nbrs e ⊆ S.biUnion nbrs := by
    intro D
    induction D using Finset.induction_on with
    | empty =>
      exact fun _ => ⟨∅, Finset.empty_subset I, by simp [Tight], nofun⟩
    | insert e D _ ih =>
      intro hD
      obtain ⟨S, hS, hSt, hSD⟩ := ih fun u hu => hD (Finset.mem_insert_of_mem hu)
      obtain ⟨heJ, heI⟩ := Finset.mem_sdiff.mp (hD (Finset.mem_insert_self e D))
      obtain ⟨T, hT, hTt, hTe⟩ := hI.tight_of_not_insert (hno e heJ heI)
      refine ⟨S ∪ T, Finset.union_subset hS hT, hSt.union hI hS hTt, fun u hu => ?_⟩
      rw [Finset.union_biUnion]
      rcases Finset.mem_insert.mp hu with rfl | hu
      · exact hTe.trans Finset.subset_union_right
      · exact (hSD u hu).trans Finset.subset_union_left
  obtain ⟨S, hS, hSt, hnbrs⟩ := htight _ (Finset.Subset.refl _)
  -- the nodes of `J` outside `I` or in `S` have no neighbours but those of `S`
  have hU : J \ I ∪ J ∩ S ⊆ J :=
    Finset.union_subset Finset.sdiff_subset Finset.inter_subset_left
  have hnbrsU : (J \ I ∪ J ∩ S).biUnion nbrs ⊆ S.biUnion nbrs := by
    intro v hv
    obtain ⟨u, hu, hv⟩ := Finset.mem_biUnion.mp hv
    rcases Finset.mem_union.mp hu with hu | hu
    · exact hnbrs u hu hv
    · exact Finset.mem_biUnion.mpr ⟨u, (Finset.mem_inter.mp hu).2, hv⟩
  have hhall := (coverable_iff_card_le.mp hJ _ hU).trans
    ((Finset.card_le_card hnbrsU).trans hSt)
  have hdisj : Disjoint (J \ I) (J ∩ S) :=
    Finset.disjoint_left.mpr fun u hu hu' =>
      (Finset.mem_sdiff.mp hu).2 (hS (Finset.mem_inter.mp hu').2)
  rw [Finset.card_union_of_disjoint hdisj] at hhall
  have hJ' : J.card ≤ (J \ I).card + (J ∩ S).card + (I \ S).card := by
    have hcover : J ⊆ J \ I ∪ J ∩ S ∪ I \ S := by
      intro u hu
      by_cases hi : u ∈ I <;> by_cases hs : u ∈ S <;> simp [hu, hi, hs]
    refine (Finset.card_le_card hcover).trans ((Finset.card_union_le _ _).trans ?_)
    exact Nat.add_le_add_right (Finset.card_union_le _ _) _
  have hI' := Finset.card_sdiff_add_card_eq_card hS
  omega

/-- The matroid of the coverable sets. -/
def transversal (nbrs : α → Finset β) : Matroid α :=
  (IndepMatroid.ofFinset Set.univ (Coverable nbrs) coverable_empty (fun _ _ h hsub => h.mono hsub)
    (fun _ _ hI hJ hlt => hI.exists_insert hJ hlt) fun _ _ => Set.subset_univ _).matroid

theorem transversal_indep : (transversal nbrs).Indep (S : Set α) ↔ Coverable nbrs S := by
  rw [transversal, IndepMatroid.matroid_Indep, IndepMatroid.ofFinset_indep]

theorem transversal_ground (nbrs : α → Finset β) : (transversal nbrs).E = Set.univ := rfl

theorem transversal_finitary (nbrs : α → Finset β) : (transversal nbrs).Finitary where
  indep_of_forall_finite I hI := by
    rw [transversal, IndepMatroid.matroid_Indep, IndepMatroid.ofFinset_indep']
    exact fun J hJ => transversal_indep.mp (hI J hJ J.finite_toSet)

/-- A node outside the span of a set can join whatever of the set is coverable, and only then. -/
theorem notMem_closure_iff {U : Set α} {u : α} (hu : u ∉ U) :
    u ∉ (transversal nbrs).closure U ↔ ∀ T : Finset α, (∀ w ∈ T, w ∈ U) →
      Coverable nbrs T → Coverable nbrs (insert u T) := by
  constructor
  · intro hout T hT hcover
    have hindep := transversal_indep.mpr hcover
    rw [← transversal_indep, Finset.coe_insert, hindep.insert_indep_iff, transversal_ground]
    exact .inl ⟨Set.mem_univ u,
      fun hmem => hout ((transversal nbrs).closure_subset_closure hT hmem)⟩
  · intro h hmem
    obtain ⟨C, hC, hcircuit, huC⟩ := (transversal nbrs).exists_isCircuit_of_mem_closure hmem hu
    have := transversal_finitary nbrs
    have hfinite : C.Finite := hcircuit.finite
    have hrest : ∀ w ∈ hfinite.toFinset.erase u, w ∈ U := fun w hw =>
      (hC (hfinite.mem_toFinset.mp (Finset.mem_of_mem_erase hw))).resolve_left
        (Finset.ne_of_mem_erase hw)
    have hcover : Coverable nbrs (hfinite.toFinset.erase u) := by
      rw [← transversal_indep, Finset.coe_erase, hfinite.coe_toFinset]
      exact hcircuit.sdiff_singleton_indep huC
    have := h _ hrest hcover
    rw [Finset.insert_erase (hfinite.mem_toFinset.mpr huC), ← transversal_indep,
      hfinite.coe_toFinset] at this
    exact hcircuit.not_indep this

theorem isBase_of_maximal (hS : Coverable nbrs S) (hmax : ∀ e ∉ S, ¬ Coverable nbrs (insert e S)) :
    (transversal nbrs).IsBase (S : Set α) := by
  refine (transversal_indep.mpr hS).isBase_of_forall_insert fun e he hindep => ?_
  rw [← Finset.coe_insert, transversal_indep] at hindep
  exact hmax e (fun hmem => he.2 (Finset.mem_coe.mpr hmem)) hindep

/-! ### Matchings that cover a set -/

omit [DecidableEq α] [DecidableEq β] in
theorem coverable_of_partner (partner : α → Option β)
    (hedge : ∀ u v, partner u = some v → v ∈ nbrs u)
    (honce : ∀ u u' v, partner u = some v → partner u' = some v → u = u')
    (hS : ∀ u ∈ S, (partner u).isSome = true) : Coverable nbrs S := by
  have hget (u : S) : partner u = some ((partner u).get (hS u u.2)) := by simp
  refine ⟨fun u => (partner u).get (hS u u.2), fun u u' h => ?_, fun u => hedge u _ (hget u)⟩
  have h : (partner u).get (hS u u.2) = (partner u').get (hS u' u'.2) := h
  exact Subtype.ext (honce u u' _ (hget u) (h ▸ hget u'))

theorem Coverable.exists_isMatching (h : Coverable nbrs S) :
    ∃ pairs, Bipartite.IsMatching (fun u v => v ∈ nbrs u) pairs ∧ pairs.card = S.card := by
  obtain ⟨f, hinj, hf⟩ := h
  have hpartner {u : α} {v : β} (h : (if hu : u ∈ S then some (f ⟨u, hu⟩) else none) = some v) :
      ∃ hu : u ∈ S, f ⟨u, hu⟩ = v := by
    split at h
    · rename_i hu
      exact ⟨hu, Option.some.inj h⟩
    · cases h
  refine Bipartite.isMatching_partner (fun u => if hu : u ∈ S then some (f ⟨u, hu⟩) else none)
    (fun u v h => ?_) (fun u u' v h h' => ?_) fun u => ?_
  · obtain ⟨hu, rfl⟩ := hpartner h
    exact hf ⟨u, hu⟩
  · obtain ⟨hu, rfl⟩ := hpartner h
    obtain ⟨hu', heq⟩ := hpartner h'
    exact (congrArg Subtype.val (hinj heq)).symm
  · by_cases hu : u ∈ S <;> simp [hu]

/-! ### Bases built in an order -/

section Exchange

variable {κ : Type*} [LinearOrder κ] {M : Matroid α} {order : List α} {rank : α → κ}

/-- No element of the base can be exchanged for one of higher rank. -/
def NoGain (M : Matroid α) (rank : α → κ) (B : Set α) : Prop :=
  ∀ x ∈ B, ∀ y ∉ B, rank x < rank y → ¬ M.Indep (insert y B \ {x})

theorem notMem_closure_of_noGain (hground : M.E = Set.univ) (hnodup : order.Nodup)
    (hbase : M.IsBase {w | w ∈ order}) (h : NoGain M rank {w | w ∈ order}) {pre post : List α}
    {u : α} (hsplit : order = pre ++ u :: post) :
    u ∉ M.closure {w | w ∈ pre ∨ rank u < rank w} := by
  have hu : u ∈ order := hsplit ▸ List.mem_append_right pre List.mem_cons_self
  have hindep : M.Indep ({w | w ∈ order} \ {u}) := hbase.indep.sdiff {u}
  -- the rest of the base spans what came before and what ranks higher
  have hspan : {w | w ∈ pre ∨ rank u < rank w} ⊆ M.closure ({w | w ∈ order} \ {u}) := by
    have hin : ∀ w ∈ order, w ≠ u → w ∈ M.closure ({w | w ∈ order} \ {u}) := fun w hw hne =>
      M.mem_closure_of_mem ⟨hw, hne⟩ hindep.subset_ground
    rintro w (hw | hlt)
    · refine hin w (hsplit ▸ List.mem_append_left _ hw) ?_
      rintro rfl
      rw [hsplit] at hnodup
      exact (List.nodup_append.mp hnodup).2.2 w hw w List.mem_cons_self rfl
    · have hne : w ≠ u := fun heq => lt_irrefl _ (heq ▸ hlt)
      by_cases hw : w ∈ order
      · exact hin w hw hne
      · by_contra hout
        refine h u hu w hw hlt ?_
        rw [← Set.insert_sdiff_singleton_comm hne, hindep.insert_indep_iff, hground]
        exact .inl ⟨Set.mem_univ w, hout⟩
  intro hmem
  have := M.closure_subset_closure_of_subset_closure hspan hmem
  exact hbase.indep.notMem_closure_sdiff_of_mem hu this

theorem mem_of_idxOf_le {pre post : List α} {z w : α} (hsplit : order = pre ++ z :: post)
    (hz : z ∉ pre) (hne : w ≠ z) (hidx : order.idxOf w ≤ order.idxOf z) : w ∈ pre := by
  by_contra hw
  rw [hsplit, List.idxOf_append, List.idxOf_append, if_neg hw, if_neg hz, List.idxOf_cons_self,
    List.idxOf_cons_ne _ (Ne.symm hne)] at hidx
  omega

theorem noGain_of_notMem_closure (hground : M.E = Set.univ)
    (hbase : M.IsBase {w | w ∈ order})
    (h : ∀ pre u post, order = pre ++ u :: post →
      u ∉ M.closure {w | w ∈ pre ∨ rank u < rank w}) : NoGain M rank {w | w ∈ order} := by
  intro x hx y hy hlt hgain
  have hspan : y ∈ M.closure {w | w ∈ order} := by
    rw [hbase.closure_eq, hground]
    exact Set.mem_univ y
  have hcircuit := hbase.indep.fundCircuit_isCircuit hspan hy
  have hxC := (hbase.indep.mem_fundCircuit_iff hspan hy).mpr hgain
  -- of the circuit inside the base, the element added last among those of the lowest rank
  classical
  let low := order.toFinset.filter (· ∈ M.fundCircuit y {w | w ∈ order})
  have hlow : ∀ w, w ∈ low ↔ w ∈ order ∧ w ∈ M.fundCircuit y {w | w ∈ order} := by
    simp [low]
  obtain ⟨r, hr, hmin⟩ := low.exists_min_image rank ⟨x, (hlow x).mpr ⟨hx, hxC⟩⟩
  obtain ⟨z, hz, hlast⟩ := (low.filter (rank · = rank r)).exists_max_image order.idxOf
    ⟨r, Finset.mem_filter.mpr ⟨hr, rfl⟩⟩
  obtain ⟨hzlow, hzr⟩ := Finset.mem_filter.mp hz
  obtain ⟨hzorder, hzC⟩ := (hlow z).mp hzlow
  obtain ⟨pre, post, hsplit, hpre⟩ := List.eq_append_cons_of_mem hzorder
  refine h pre z post hsplit (M.closure_subset_closure ?_
    (hcircuit.mem_closure_sdiff_singleton_of_mem hzC))
  rintro w ⟨hwC, hwz⟩
  rcases M.fundCircuit_subset_insert y _ hwC with rfl | hw
  · -- the new element ranks above `x`, so above the lowest
    exact .inr ((hzr.trans_le (hmin x ((hlow x).mpr ⟨hx, hxC⟩))).trans_lt hlt)
  · have hwlow := (hlow w).mpr ⟨hw, hwC⟩
    rcases (hzr.trans_le (hmin w hwlow)).lt_or_eq with hltz | heq
    · exact .inr hltz
    · have hidx := hlast w (Finset.mem_filter.mpr ⟨hwlow, heq.symm.trans hzr⟩)
      exact .inl (mem_of_idxOf_le hsplit hpre hwz hidx)

/-- A base built in an order admits no gain exactly when each element, as it was added, was not
spanned by the ones before it and those of higher rank. -/
theorem noGain_iff (hground : M.E = Set.univ) (hnodup : order.Nodup)
    (hbase : M.IsBase {w | w ∈ order}) :
    NoGain M rank {w | w ∈ order} ↔ ∀ pre u post, order = pre ++ u :: post →
      u ∉ M.closure {w | w ∈ pre ∨ rank u < rank w} :=
  ⟨fun h _ _ _ hsplit => notMem_closure_of_noGain hground hnodup hbase h hsplit,
    noGain_of_notMem_closure hground hbase⟩

/-- The same for coverable sets: each node, as it was added, could join whatever of the ones before
it and those of higher rank is coverable. -/
theorem noGain_transversal_iff {rank : α → κ} (hnodup : order.Nodup)
    (hbase : (transversal nbrs).IsBase {w | w ∈ order}) :
    NoGain (transversal nbrs) rank {w | w ∈ order} ↔ ∀ pre u post, order = pre ++ u :: post →
      ∀ T : Finset α, (∀ w ∈ T, w ∈ pre ∨ rank u < rank w) → Coverable nbrs T →
        Coverable nbrs (insert u T) := by
  rw [noGain_iff (transversal_ground nbrs) hnodup hbase]
  refine forall₄_congr fun pre u post hsplit => notMem_closure_iff ?_
  rintro (hu | hlt)
  · rw [hsplit] at hnodup
    exact (List.nodup_append.mp hnodup).2.2 u hu u List.mem_cons_self rfl
  · exact lt_irrefl _ hlt

end Exchange

end DrmCxx.Lib.Transversal
