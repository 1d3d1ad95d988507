import Mathlib.Data.List.Nodup

/-!
# Recency lists

Keys in the order of their last use, the latest first. A cache of bounded size that replaces the
least recently used key holds the first keys of the list.
-/

namespace DrmCxx.Lib

variable {κ : Type*} [DecidableEq κ]

/-- The list after a use of the key. -/
def touch (k : κ) (l : List κ) : List κ := k :: l.erase k

theorem nodup_touch {l : List κ} (hl : l.Nodup) (k : κ) : (touch k l).Nodup :=
  List.nodup_cons.mpr ⟨hl.not_mem_erase, hl.sublist List.erase_sublist⟩

theorem take_erase (k : κ) (l : List κ) (n : ℕ) :
    (l.erase k).take n = ((l.take (n + 1)).erase k).take n := by
  induction l generalizing n with
  | nil => rfl
  | cons x l ih =>
    by_cases hx : x = k
    · subst hx
      simp [List.take_take]
    · have hbeq : (x == k) = false := by simpa using hx
      cases n with
      | zero => rfl
      | succ n =>
        rw [List.erase_cons, List.take_succ_cons, List.erase_cons, hbeq]
        simp only [Bool.false_eq_true, if_false, List.take_succ_cons]
        rw [ih]

/-- A bounded cache needs only its own keys to follow the uses. -/
theorem take_touch (k : κ) (l : List κ) (n : ℕ) :
    (touch k l).take (n + 1) = (k :: (l.take (n + 1)).erase k).take (n + 1) := by
  rw [touch, List.take_succ_cons, List.take_succ_cons, take_erase]

end DrmCxx.Lib
