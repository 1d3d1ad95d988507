import Mathlib.Data.List.Sort

/-!
# Stable sorting

What an insertion sort keeps of the order its input was in: elements that tie stay in that order.
-/

namespace DrmCxx.Lib

variable {α : Type*} {r q : α → α → Prop} [DecidableRel r] [Std.Total r] [IsTrans α r]

theorem pairwise_orderedInsert_stable {a : α} {l : List α}
    (hl : l.Pairwise fun x y => r x y ∧ (r y x → q x y)) (ha : ∀ b ∈ l, q a b) :
    (l.orderedInsert r a).Pairwise fun x y => r x y ∧ (r y x → q x y) := by
  induction l with
  | nil => simp
  | cons b l ih =>
    obtain ⟨hb, hl'⟩ := List.pairwise_cons.mp hl
    rw [List.orderedInsert_cons]
    split
    · rename_i hab
      refine List.pairwise_cons.mpr ⟨?_, hl⟩
      intro x hx
      refine ⟨?_, fun _ => ha x hx⟩
      rcases List.mem_cons.mp hx with rfl | hx
      · exact hab
      · exact Trans.trans hab (hb x hx).1
    · rename_i hab
      have hba : r b a := (total_of r a b).resolve_left hab
      refine List.pairwise_cons.mpr ⟨?_, ih hl' fun x hx => ha x (List.mem_cons_of_mem _ hx)⟩
      intro x hx
      rcases List.mem_cons.mp ((List.perm_orderedInsert r a l).mem_iff.mp hx) with rfl | hx
      · exact ⟨hba, fun h => absurd h hab⟩
      · exact hb x hx

/-- Sorting a list ordered by `q` orders it by `r`, and where `r` ties by `q`. -/
theorem pairwise_insertionSort_stable {l : List α} (h : l.Pairwise q) :
    (l.insertionSort r).Pairwise fun x y => r x y ∧ (r y x → q x y) := by
  induction l with
  | nil => simp
  | cons a l ih =>
    obtain ⟨ha, hl⟩ := List.pairwise_cons.mp h
    rw [List.insertionSort_cons]
    refine pairwise_orderedInsert_stable (ih hl) ?_
    intro b hb
    exact ha b ((List.perm_insertionSort r l).mem_iff.mp hb)

end DrmCxx.Lib
