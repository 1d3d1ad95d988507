import Mathlib.Data.List.Perm.Basic
import Mathlib.Data.List.Nodup

/-!
# Custody of numbered items

A system hands the items `0, …, n - 1` around between places (queues, hands, free lists). Nothing
is lost and nothing is in two places at once exactly when the places, one after the other, are a
rearrangement of the items.
-/

namespace DrmCxx.Lib

variable {n i k : ℕ} {places ps qs : List (List ℕ)} {l xs ys : List ℕ}

/-- Every item is in exactly one of the places, once, and nothing else is. -/
def Conserved (n : ℕ) (places : List (List ℕ)) : Prop :=
  places.flatten.Perm (List.range n)

instance (n : ℕ) (places : List (List ℕ)) : Decidable (Conserved n places) :=
  inferInstanceAs (Decidable (List.Perm _ _))

namespace Conserved

theorem nodup (h : Conserved n places) : places.flatten.Nodup :=
  (List.Perm.nodup_iff h).mpr List.nodup_range

/-- An item in one of the places is one of the `n`. -/
theorem lt (h : Conserved n places) (hl : l ∈ places) (hi : i ∈ l) : i < n :=
  List.mem_range.mp (List.Perm.subset h (List.mem_flatten_of_mem hl hi))

theorem length_flatten (h : Conserved n places) : places.flatten.length = n := by
  simpa using List.Perm.length_eq h

/-- Any rearrangement of the places' contents conserves the items. -/
theorem of_perm (h : Conserved n places) (hp : ps.flatten.Perm places.flatten) :
    Conserved n ps :=
  hp.trans h

theorem congr (hp : ps.flatten.Perm places.flatten) : Conserved n ps ↔ Conserved n places :=
  ⟨fun h => h.of_perm hp.symm, fun h => h.of_perm hp⟩

/-- What one place holds is not in a later one. -/
theorem not_mem_of_mem (h : Conserved n (xs :: ps)) (hi : i ∈ xs) (hl : l ∈ ps) : i ∉ l :=
  fun hil => (List.nodup_append.mp h.nodup).2.2 i hi i (List.mem_flatten_of_mem hl hil) rfl

end Conserved

/-! ### Moves -/

/-- Taking the `k`-th item out. -/
theorem perm_cons_eraseIdx (h : l[k]? = some i) : (i :: l.eraseIdx k).Perm l := by
  obtain ⟨hk, rfl⟩ := List.getElem?_eq_some_iff.mp h
  exact List.getElem_cons_eraseIdx_perm hk

/-- The first item that fits moves to the end. -/
theorem eraseP_append_perm {α : Type*} {p : α → Bool} {l : List α} {a : α}
    (h : l.find? p = some a) : (l.eraseP p ++ [a]).Perm l := by
  induction l with
  | nil => cases h
  | cons x l ih =>
    by_cases hx : p x
    · obtain rfl : x = a := by simpa [hx] using h
      rw [List.eraseP_cons_of_pos hx]
      exact List.perm_append_singleton _ _
    · rw [List.eraseP_cons_of_neg hx]
      exact (ih (by simpa [hx] using h)).cons x

theorem count_eraseIdx (h : l[k]? = some i) (a : ℕ) :
    (l.eraseIdx k).count a + (if i = a then 1 else 0) = l.count a := by
  simpa [List.count_cons] using (perm_cons_eraseIdx h).count_eq a

namespace Conserved

/-- The `k`-th item of the first place goes to the second. -/
theorem take (h : Conserved n (l :: xs :: ps)) (hk : l[k]? = some i) :
    Conserved n (l.eraseIdx k :: (xs ++ [i]) :: ps) := by
  refine h.of_perm (List.perm_iff_count.mpr fun a => ?_)
  have := count_eraseIdx hk a
  simp only [List.flatten_cons, List.count_append, List.count_singleton, beq_iff_eq]
  omega

/-- The `k`-th item of the second place goes to the first. -/
theorem putBack (h : Conserved n (l :: xs :: ps)) (hk : xs[k]? = some i) :
    Conserved n ((l ++ [i]) :: xs.eraseIdx k :: ps) := by
  refine h.of_perm (List.perm_iff_count.mpr fun a => ?_)
  have := count_eraseIdx hk a
  simp only [List.flatten_cons, List.count_append, List.count_singleton, beq_iff_eq]
  omega

/-- The first item of the second place goes to the third. -/
theorem handOver (h : Conserved n (l :: (i :: xs) :: ys :: ps)) :
    Conserved n (l :: xs :: (ys ++ [i]) :: ps) := by
  refine h.of_perm (List.perm_iff_count.mpr fun a => ?_)
  simp only [List.flatten_cons, List.count_append, List.count_cons, List.count_nil]
  omega

/-- The `k`-th item of the third place goes to the first. -/
theorem giveBack (h : Conserved n (l :: xs :: ys :: ps)) (hk : ys[k]? = some i) :
    Conserved n ((l ++ [i]) :: xs :: ys.eraseIdx k :: ps) := by
  refine h.of_perm (List.perm_iff_count.mpr fun a => ?_)
  have := count_eraseIdx hk a
  simp only [List.flatten_cons, List.count_append, List.count_singleton, beq_iff_eq]
  omega

/-- An item taken out of a place is no longer in it. -/
theorem not_mem_eraseIdx (h : Conserved n places) (hl : l ∈ places) (hk : l[k]? = some i) :
    i ∉ l.eraseIdx k := by
  have hnd : l.Nodup := (List.nodup_flatten.mp h.nodup).1 l hl
  exact (List.nodup_cons.mp ((perm_cons_eraseIdx hk).nodup_iff.mpr hnd)).1

end Conserved

end DrmCxx.Lib
