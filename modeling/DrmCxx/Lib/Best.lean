import Mathlib.Data.List.Basic

/-!
# The best of a list

One pass that keeps the best item seen so far, the first one among equals.
-/

namespace DrmCxx.Lib

variable {α : Type*}

/-- One step: `x` takes over when it is better than the best so far. -/
def keepBetter (better : α → α → Bool) (best : Option α) (x : α) : Option α :=
  match best with
  | none => some x
  | some b => if better x b then some x else best

def bestOf (better : α → α → Bool) (xs : List α) : Option α :=
  xs.foldl (keepBetter better) none

variable {better : α → α → Bool}

theorem foldl_keepBetter_some (better : α → α → Bool) (b : α) (xs : List α) :
    ∃ c, xs.foldl (keepBetter better) (some b) = some c ∧ (c = b ∨ c ∈ xs) := by
  induction xs generalizing b with
  | nil => exact ⟨b, rfl, .inl rfl⟩
  | cons x xs ih =>
    rw [List.foldl_cons, keepBetter]
    split
    · obtain ⟨c, hc, rfl | hmem⟩ := ih x
      · exact ⟨_, hc, .inr List.mem_cons_self⟩
      · exact ⟨c, hc, .inr (List.mem_cons_of_mem _ hmem)⟩
    · obtain ⟨c, hc, hor⟩ := ih b
      exact ⟨c, hc, hor.imp_right (List.mem_cons_of_mem _)⟩

theorem bestOf_eq_none {xs : List α} : bestOf better xs = none ↔ xs = [] := by
  cases xs with
  | nil => simp [bestOf]
  | cons x xs =>
    obtain ⟨c, hc, -⟩ := foldl_keepBetter_some better x xs
    simp [bestOf, keepBetter, hc]

theorem mem_of_bestOf {xs : List α} {b : α} (h : bestOf better xs = some b) : b ∈ xs := by
  cases xs with
  | nil => cases h
  | cons x xs =>
    obtain ⟨c, hc, hor⟩ := foldl_keepBetter_some better x xs
    obtain rfl : c = b := Option.some.inj (hc.symm.trans h)
    rcases hor with rfl | hmem
    · exact List.mem_cons_self
    · exact List.mem_cons_of_mem _ hmem

/-- Nothing in the list is better than the best of it. -/
theorem not_better_of_bestOf (hirrefl : ∀ x, better x x = false)
    (htrans : ∀ x y z, better x y = false → better y z = false → better x z = false)
    (hasymm : ∀ x y, better x y = true → better y x = false) {xs : List α} {b : α}
    (h : bestOf better xs = some b) : ∀ x ∈ xs, better x b = false := by
  suffices ∀ (xs : List α) (b c : α), xs.foldl (keepBetter better) (some b) = some c →
      better b c = false ∧ ∀ x ∈ xs, better x c = false by
    cases xs with
    | nil => cases h
    | cons x xs =>
      obtain ⟨hx, hxs⟩ := this xs x b h
      exact List.forall_mem_cons.mpr ⟨hx, hxs⟩
  intro xs
  induction xs with
  | nil =>
    rintro b c ⟨⟩
    exact ⟨hirrefl b, by simp⟩
  | cons x xs ih =>
    intro b c hc
    rw [List.foldl_cons, keepBetter] at hc
    split at hc
    · rename_i hbetter
      obtain ⟨hx, hxs⟩ := ih x c hc
      exact ⟨htrans b x c (hasymm x b hbetter) hx, List.forall_mem_cons.mpr ⟨hx, hxs⟩⟩
    · rename_i hbetter
      obtain ⟨hb, hxs⟩ := ih b c hc
      have hxb : better x b = false := by simpa using hbetter
      exact ⟨hb, List.forall_mem_cons.mpr ⟨htrans x b c hxb hb, hxs⟩⟩

end DrmCxx.Lib
