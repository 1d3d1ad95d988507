import Mathlib.Data.List.Basic

/-!
# Stores driven by write logs

A store is a total map from keys to values; a log of writes is applied in order, so the last
write to a key wins.
-/

namespace DrmCxx.Lib

variable {κ α : Type*} [DecidableEq κ]

def applyWrites (s : κ → α) (ws : List (κ × α)) : κ → α :=
  ws.foldl (fun s w => Function.update s w.1 w.2) s

@[simp] theorem applyWrites_nil (s : κ → α) : applyWrites s [] = s := rfl

@[simp] theorem applyWrites_cons (s : κ → α) (w : κ × α) (ws : List (κ × α)) :
    applyWrites s (w :: ws) = applyWrites (Function.update s w.1 w.2) ws := rfl

theorem applyWrites_append (s : κ → α) (ws vs : List (κ × α)) :
    applyWrites s (ws ++ vs) = applyWrites (applyWrites s ws) vs :=
  List.foldl_append

/-- A key no write of the log names keeps its value. -/
theorem applyWrites_of_not_mem {s : κ → α} {ws : List (κ × α)} {k : κ}
    (h : ∀ w ∈ ws, w.1 ≠ k) : applyWrites s ws k = s k := by
  induction ws generalizing s with
  | nil => rfl
  | cons w ws ih =>
    rw [applyWrites_cons, ih (fun v hv => h v (List.mem_cons_of_mem _ hv))]
    exact Function.update_of_ne (h w List.mem_cons_self).symm _ _

/-- A key whose writes all carry `a` ends at `a`, if there is one or it held `a` before. -/
theorem applyWrites_eq {s : κ → α} {ws : List (κ × α)} {k : κ} {a : α}
    (hall : ∀ w ∈ ws, w.1 = k → w.2 = a) (hs : s k = a ∨ ∃ w ∈ ws, w.1 = k) :
    applyWrites s ws k = a := by
  induction ws generalizing s with
  | nil => simpa using hs
  | cons w ws ih =>
    rw [applyWrites_cons]
    apply ih (fun v hv => hall v (List.mem_cons_of_mem _ hv))
    by_cases hw : w.1 = k
    · left
      rw [← hw, Function.update_self]
      exact hall w List.mem_cons_self hw
    · rw [Function.update_of_ne (Ne.symm hw)]
      rcases hs with hs | ⟨v, hv, hk⟩
      · exact .inl hs
      · rcases List.mem_cons.mp hv with rfl | hv
        · exact absurd hk hw
        · exact .inr ⟨v, hv, hk⟩

theorem applyWrites_congr_store {s s' : κ → α} {k : κ} (hs : s k = s' k) (ws : List (κ × α)) :
    applyWrites s ws k = applyWrites s' ws k := by
  induction ws generalizing s s' with
  | nil => exact hs
  | cons w ws ih =>
    rw [applyWrites_cons, applyWrites_cons]
    apply ih
    by_cases hw : k = w.1
    · rw [hw, Function.update_self, Function.update_self]
    · rw [Function.update_of_ne hw, Function.update_of_ne hw, hs]

theorem applyWrites_filter (s : κ → α) (ws : List (κ × α)) (k : κ) :
    applyWrites s (ws.filter fun w => decide (w.1 = k)) k = applyWrites s ws k := by
  induction ws generalizing s with
  | nil => rfl
  | cons w ws ih =>
    by_cases hw : w.1 = k
    · rw [List.filter_cons_of_pos (by simpa using hw), applyWrites_cons, applyWrites_cons, ih]
    · rw [List.filter_cons_of_neg (by simpa using hw), ih, applyWrites_cons]
      exact applyWrites_congr_store (Function.update_of_ne (Ne.symm hw) _ _).symm ws

/-- A key is told by its own writes. -/
theorem applyWrites_congr {s s' : κ → α} {ws vs : List (κ × α)} {k : κ} (hs : s k = s' k)
    (h : (ws.filter fun w => decide (w.1 = k)) = vs.filter fun w => decide (w.1 = k)) :
    applyWrites s ws k = applyWrites s' vs k := by
  rw [← applyWrites_filter s ws, h, applyWrites_filter, applyWrites_congr_store hs vs]

end DrmCxx.Lib
