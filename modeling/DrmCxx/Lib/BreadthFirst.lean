import Mathlib.Algebra.BigOperators.Group.List.Basic
import Mathlib.Algebra.GroupWithZero.Nat
import Mathlib.Data.List.Nodup

/-!
# Breadth-first search

The search with a queue visits the nodes layer by layer: the new nodes of a layer in order, then
those their successors bring. No node comes twice, all that can be reached come, and none comes
before a nearer one.
-/

namespace DrmCxx.Lib

variable {α : Type*} [DecidableEq α]

/-! ### Layers -/

/-- The elements that are not seen yet, each where it first occurs. -/
def fresh (seen : List α) : List α → List α
  | [] => []
  | x :: xs => if x ∈ seen then fresh seen xs else x :: fresh (x :: seen) xs

theorem mem_fresh {seen xs : List α} {x : α} : x ∈ fresh seen xs ↔ x ∈ xs ∧ x ∉ seen := by
  induction xs generalizing seen with
  | nil => simp [fresh]
  | cons y xs ih =>
    unfold fresh
    split_ifs with hy
    · rw [ih, List.mem_cons]
      constructor
      · exact fun h => ⟨.inr h.1, h.2⟩
      · rintro ⟨rfl | hx, hs⟩
        · exact absurd hy hs
        · exact ⟨hx, hs⟩
    · rw [List.mem_cons, ih, List.mem_cons, List.mem_cons, not_or]
      by_cases hxy : x = y <;> simp [hxy, hy]

theorem nodup_fresh (seen xs : List α) : (fresh seen xs).Nodup := by
  induction xs generalizing seen with
  | nil => exact .nil
  | cons x xs ih =>
    unfold fresh
    split_ifs with hx
    · exact ih seen
    · exact List.nodup_cons.mpr ⟨fun h => (mem_fresh.mp h).2 List.mem_cons_self, ih _⟩

/-- Only the elements seen matter. -/
theorem fresh_congr {seen seen' : List α} (h : ∀ x, x ∈ seen ↔ x ∈ seen') (xs : List α) :
    fresh seen xs = fresh seen' xs := by
  induction xs generalizing seen seen' with
  | nil => rfl
  | cons x xs ih =>
    have hcons (y : α) : y ∈ x :: seen ↔ y ∈ x :: seen' := by
      rw [List.mem_cons, List.mem_cons, h y]
    simp only [fresh, h x, ih h, ih hcons]

/-- The breadth-first order of what can be reached from `raw` without what is seen: the new
elements of `raw`, followed by the order from their successors. -/
inductive BfsOrder (next : α → List α) : List α → List α → List α → Prop
  | nil {seen raw : List α} : fresh seen raw = [] → BfsOrder next seen raw []
  | layer {seen raw l : List α} :
    BfsOrder next (seen ++ fresh seen raw) ((fresh seen raw).flatMap next) l →
      BfsOrder next seen raw (fresh seen raw ++ l)

variable {next : α → List α} {seen raw l : List α}

theorem BfsOrder.congr {seen' : List α} (h : BfsOrder next seen raw l)
    (hseen : ∀ x, x ∈ seen ↔ x ∈ seen') : BfsOrder next seen' raw l := by
  induction h generalizing seen' with
  | nil hf => exact .nil (fresh_congr hseen _ ▸ hf)
  | layer _ ih =>
    rw [fresh_congr hseen] at ih ⊢
    exact .layer (ih fun x => by rw [List.mem_append, List.mem_append, hseen])

theorem BfsOrder.not_mem_seen (h : BfsOrder next seen raw l) {x : α} (hx : x ∈ l) :
    x ∉ seen := by
  induction h with
  | nil => cases hx
  | layer _ ih =>
    rcases List.mem_append.mp hx with hx | hx
    · exact (mem_fresh.mp hx).2
    · exact fun hs => ih hx (List.mem_append_left _ hs)

theorem BfsOrder.nodup (h : BfsOrder next seen raw l) : l.Nodup := by
  induction h with
  | nil => exact .nil
  | layer h ih =>
    refine List.nodup_append.mpr ⟨nodup_fresh _ _, ih, ?_⟩
    rintro x hx y hy rfl
    exact h.not_mem_seen hy (List.mem_append_right _ hx)

/-! ### Distances -/

/-- What can be reached from `raw` in at most `n` steps through nodes that are not seen. -/
def Within (next : α → List α) (seen raw : List α) : ℕ → α → Prop
  | 0, x => x ∈ raw ∧ x ∉ seen
  | n + 1, x => Within next seen raw n x ∨ ∃ y, Within next seen raw n y ∧ x ∈ next y ∧ x ∉ seen

omit [DecidableEq α] in
theorem Within.mono {n m : ℕ} {x : α} (h : Within next seen raw n x) (hnm : n ≤ m) :
    Within next seen raw m x := by
  induction hnm with
  | refl => exact h
  | step _ ih => exact .inl ih

/-- Past the first layer, one step fewer leads on from its successors. -/
theorem within_succ_iff {n : ℕ} {x : α} :
    Within next seen raw (n + 1) x ↔ x ∈ fresh seen raw ∨
      Within next (seen ++ fresh seen raw) ((fresh seen raw).flatMap next) n x := by
  have hfirst (x : α) : x ∈ fresh seen raw ↔ x ∈ raw ∧ x ∉ seen := mem_fresh
  induction n generalizing x with
  | zero =>
    simp only [Within, List.mem_flatMap, List.mem_append, not_or, ← hfirst]
    constructor
    · rintro (h | ⟨y, hy, hx, hs⟩)
      · exact .inl h
      · exact or_iff_not_imp_left.mpr fun hf => ⟨⟨y, hy, hx⟩, hs, hf⟩
    · rintro (h | ⟨⟨y, hy, hx⟩, hs, -⟩)
      · exact .inl h
      · exact .inr ⟨y, hy, hx, hs⟩
  | succ n ih =>
    constructor
    · rintro (h | ⟨y, hy, hx, hs⟩)
      · exact (ih.mp h).imp_right .inl
      · refine or_iff_not_imp_left.mpr fun hf => ?_
        have hs' : x ∉ seen ++ fresh seen raw := by
          rw [List.mem_append, not_or]
          exact ⟨hs, hf⟩
        rcases ih.mp hy with hy | hy
        · exact Within.mono (n := 0) ⟨List.mem_flatMap.mpr ⟨y, hy, hx⟩, hs'⟩ (Nat.zero_le _)
        · exact .inr ⟨y, hy, hx, hs'⟩
    · rintro (h | h | ⟨y, hy, hx, hs⟩)
      · exact .inl (ih.mpr (.inl h))
      · exact .inl (ih.mpr (.inr h))
      · exact .inr ⟨y, ih.mpr (.inr hy), hx, fun h => hs (List.mem_append_left _ h)⟩

/-- The order holds what can be reached. -/
theorem BfsOrder.mem_iff (h : BfsOrder next seen raw l) {x : α} :
    x ∈ l ↔ ∃ n, Within next seen raw n x := by
  induction h generalizing x with
  | @nil seen raw hf =>
    have hnone (n : ℕ) (y : α) : ¬ Within next seen raw n y := by
      induction n generalizing y with
      | zero => exact fun hn => List.not_mem_nil (hf ▸ mem_fresh.mpr hn)
      | succ n ih =>
        rintro (hn | ⟨y, hy, -⟩)
        · exact ih _ hn
        · exact ih _ hy
    exact ⟨nofun, fun ⟨n, hn⟩ => absurd hn (hnone n x)⟩
  | layer _ ih =>
    rw [List.mem_append, ih]
    constructor
    · rintro (hx | ⟨n, hn⟩)
      · exact ⟨1, within_succ_iff.mpr (.inl hx)⟩
      · exact ⟨n + 1, within_succ_iff.mpr (.inr hn)⟩
    · rintro ⟨n, hn⟩
      rcases within_succ_iff.mp (hn.mono (Nat.le_succ n)) with hx | hx
      · exact .inl hx
      · exact .inr ⟨n, hx⟩

/-! ### The search -/

/-- The nodes that the search with a queue visits, if the fuel lasts. -/
def bfsQueue (next : α → List α) : ℕ → List α → List α → Option (List α)
  | _, [], _ => some []
  | 0, _ :: _, _ => none
  | fuel + 1, x :: queue, visited =>
    if x ∈ visited then bfsQueue next fuel queue visited
    else (bfsQueue next fuel (queue ++ next x) (x :: visited)).map (x :: ·)

variable (next) in
/-- The front of the queue is one layer; its successors queue up behind. -/
theorem bfsQueue_append {fuel : ℕ} (raw rest visited : List α) (hfuel : raw.length ≤ fuel) :
    bfsQueue next fuel (raw ++ rest) visited =
      (bfsQueue next (fuel - raw.length) (rest ++ (fresh visited raw).flatMap next)
        ((fresh visited raw).reverse ++ visited)).map (fresh visited raw ++ ·) := by
  induction raw generalizing fuel rest visited with
  | nil => simp [fresh]
  | cons x raw ih =>
    cases fuel with
    | zero => simp at hfuel
    | succ fuel =>
      rw [List.length_cons, Nat.succ_le_succ_iff] at hfuel
      rw [List.cons_append, bfsQueue, fresh, List.length_cons, Nat.succ_sub_succ]
      split_ifs with hx
      · exact ih rest visited hfuel
      · rw [List.append_assoc, ih (rest ++ next x) (x :: visited) hfuel]
        simp [Option.map_map, Function.comp_def, List.append_assoc]

theorem length_le_of_bfsQueue {fuel : ℕ} {raw visited l : List α}
    (h : bfsQueue next fuel raw visited = some l) : raw.length ≤ fuel := by
  induction fuel generalizing raw visited l with
  | zero =>
    cases raw with
    | nil => exact Nat.le_refl _
    | cons x raw => cases h
  | succ fuel ih =>
    cases raw with
    | nil => exact Nat.zero_le _
    | cons x raw =>
      rw [bfsQueue] at h
      split_ifs at h
      · exact Nat.succ_le_succ (ih h)
      · obtain ⟨l', hl', -⟩ := Option.map_eq_some_iff.mp h
        have := ih hl'
        rw [List.length_append] at this
        rw [List.length_cons]
        omega

/-- The search visits the nodes in breadth-first order. -/
theorem bfsOrder_of_bfsQueue {fuel : ℕ} {raw visited l : List α}
    (h : bfsQueue next fuel raw visited = some l) : BfsOrder next visited raw l := by
  induction fuel using Nat.strongRecOn generalizing raw visited l with
  | _ fuel ih =>
    cases raw with
    | nil =>
      obtain rfl : [] = l := by simpa [bfsQueue] using h
      exact .nil rfl
    | cons x raw =>
      have hlen := length_le_of_bfsQueue h
      have happ := bfsQueue_append next (x :: raw) [] visited hlen
      rw [List.append_nil, h, List.nil_append] at happ
      obtain ⟨l', hl', hl⟩ := Option.map_eq_some_iff.mp happ.symm
      rw [← hl]
      refine .layer ((ih _ ?_ hl').congr fun y => ?_)
      · rw [List.length_cons] at hlen ⊢
        omega
      · rw [List.mem_append, List.mem_append, List.mem_reverse, or_comm]

/-- The successors that nodes not visited may still bring. -/
def remaining (next : α → List α) (nodes visited : List α) : ℕ :=
  ((nodes.filter fun u => u ∉ visited).map fun u => (next u).length).sum

theorem remaining_cons {nodes visited : List α} {x : α} (hnodup : nodes.Nodup)
    (hx : x ∉ visited) (hnext : x ∈ nodes ∨ next x = []) :
    remaining next nodes (x :: visited) + (next x).length = remaining next nodes visited := by
  induction nodes with
  | nil => simpa [remaining] using hnext
  | cons u us ih =>
    obtain ⟨hu, hus⟩ := List.nodup_cons.mp hnodup
    by_cases hux : u = x
    · subst hux
      have hsame : remaining next us (u :: visited) = remaining next us visited := by
        rw [remaining, remaining]
        congr 2
        refine List.filter_congr fun v hv => ?_
        have hvu : v ≠ u := fun h => hu (h ▸ hv)
        simp [hvu]
      rw [remaining, remaining, List.filter_cons_of_neg (by simp),
        List.filter_cons_of_pos (by simpa),
        List.map_cons, List.sum_cons, Nat.add_comm]
      exact congrArg _ hsame
    · have ih := ih hus (hnext.imp_left fun h => (List.mem_cons.mp h).resolve_left (Ne.symm hux))
      unfold remaining at ih ⊢
      by_cases huv : u ∈ visited
      · rwa [List.filter_cons_of_neg (by simp [huv]), List.filter_cons_of_neg (by simp [huv])]
      · rw [List.filter_cons_of_pos (by simp [huv, hux]), List.filter_cons_of_pos (by simp [huv]),
          List.map_cons, List.map_cons, List.sum_cons, List.sum_cons, ← ih, Nat.add_assoc]

/-- Every step of the search pays for one element of the queue. -/
theorem isSome_bfsQueue {nodes : List α} (hnodup : nodes.Nodup)
    (hnext : ∀ x, x ∈ nodes ∨ next x = []) {fuel : ℕ} {queue visited : List α}
    (hfuel : queue.length + remaining next nodes visited ≤ fuel) :
    (bfsQueue next fuel queue visited).isSome := by
  induction fuel generalizing queue visited with
  | zero =>
    obtain rfl := List.length_eq_zero_iff.mp (by omega : queue.length = 0)
    rfl
  | succ fuel ih =>
    cases queue with
    | nil => rfl
    | cons x queue =>
      rw [List.length_cons] at hfuel
      rw [bfsQueue]
      split_ifs with hx
      · exact ih (by omega)
      · rw [Option.isSome_map]
        have := remaining_cons hnodup hx (hnext x)
        exact ih (by rw [List.length_append]; omega)

end DrmCxx.Lib
