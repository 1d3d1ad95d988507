import Mathlib.Data.Nat.Notation
import Mathlib.Logic.Function.Basic

/-!
# Sweeps over an array

Loops `for (; i + stride <= n; i += stride)` whose rounds rewrite their own `stride` elements. An
array is a function of the index.
-/

namespace DrmCxx.Lib.Sweep

variable {α : Type*}

/-- The loop from `i`: the index it stops at and the array it leaves. -/
def whileFits (stride n : ℕ) (body : ℕ → (ℕ → α) → ℕ → α) (i : ℕ) (a : ℕ → α) : ℕ × (ℕ → α) :=
  if 0 < stride ∧ i + stride ≤ n then whileFits stride n body (i + stride) (body i a) else (i, a)
termination_by n - i

/-- From `lo` to `hi` the element `x` at `j` has become `f j x`, and nothing else has changed. -/
def Rewrites (f : ℕ → α → α) (lo hi : ℕ) (a b : ℕ → α) : Prop :=
  ∀ j, b j = if lo ≤ j ∧ j < hi then f j (a j) else a j

namespace Rewrites

variable {f g : ℕ → α → α} {lo mid hi : ℕ} {a b c : ℕ → α}

theorem refl (f : ℕ → α → α) (lo : ℕ) (a : ℕ → α) : Rewrites f lo lo a a := by
  intro j
  rw [if_neg (by omega)]

theorem trans (hab : Rewrites f lo mid a b) (hbc : Rewrites f mid hi b c) (hlo : lo ≤ mid)
    (hhi : mid ≤ hi) : Rewrites f lo hi a c := by
  intro j
  rw [hbc j, hab j]
  by_cases hmid : j < mid
  · rw [if_neg (by omega)]
    by_cases hj : lo ≤ j
    · rw [if_pos ⟨hj, hmid⟩, if_pos (by omega)]
    · rw [if_neg (by omega), if_neg (by omega)]
  · rw [if_neg (c := lo ≤ j ∧ j < mid) (by omega)]
    by_cases hj : j < hi
    · rw [if_pos (by omega), if_pos (by omega)]
    · rw [if_neg (by omega), if_neg (by omega)]

theorem congr (h : Rewrites f lo hi a b) (hfg : ∀ j, lo ≤ j → j < hi → ∀ x, f j x = g j x) :
    Rewrites g lo hi a b := by
  intro j
  rw [h j]
  split
  · rename_i hj
    exact hfg j hj.1 hj.2 (a j)
  · rfl

theorem ext (hb : Rewrites f lo hi a b) (hc : Rewrites f lo hi a c) : b = c :=
  funext fun j => (hb j).trans (hc j).symm

/-- Two rewritings of one array agree exactly where their functions do. -/
theorem eq_iff (hb : Rewrites f lo hi a b) (hc : Rewrites g lo hi a c) :
    b = c ↔ ∀ j, lo ≤ j → j < hi → f j (a j) = g j (a j) := by
  rw [funext_iff]
  refine forall_congr' fun j => ?_
  rw [hb j, hc j]
  by_cases hj : lo ≤ j ∧ j < hi
  · simp [hj]
  · rw [if_neg hj, if_neg hj]
    exact iff_of_true rfl fun hlo hhi => absurd ⟨hlo, hhi⟩ hj

/-- Writing one element. -/
theorem update (f : ℕ → α → α) (i : ℕ) (a : ℕ → α) :
    Rewrites f i (i + 1) a (Function.update a i (f i (a i))) := by
  intro j
  by_cases hj : j = i
  · subst hj
    simp
  · rw [Function.update_of_ne hj, if_neg (by omega)]

end Rewrites

/-- A loop whose rounds rewrite their own elements rewrites every whole stride. -/
theorem whileFits_spec {f : ℕ → α → α} {stride n : ℕ} {body : ℕ → (ℕ → α) → ℕ → α}
    (hstride : 0 < stride)
    (hbody : ∀ i, i + stride ≤ n → ∀ a, Rewrites f i (i + stride) a (body i a)) (i : ℕ)
    (a : ℕ → α) :
    (whileFits stride n body i a).1 = i + stride * ((n - i) / stride) ∧
      Rewrites f i (i + stride * ((n - i) / stride)) a (whileFits stride n body i a).2 := by
  fun_induction whileFits with
  | case1 i a h ih =>
    have htrips : i + stride * ((n - i) / stride) =
        i + stride + stride * ((n - (i + stride)) / stride) := by
      have hdiv : (n - i) / stride = (n - (i + stride)) / stride + 1 := by
        rw [← Nat.add_div_right _ hstride]
        congr 1
        omega
      rw [hdiv, Nat.mul_add]
      omega
    rw [htrips]
    exact ⟨ih.1, (hbody i h.2 a).trans ih.2 (by omega) (by omega)⟩
  | case2 i a h =>
    have hdiv : (n - i) / stride = 0 := Nat.div_eq_of_lt (by omega)
    rw [hdiv, Nat.mul_zero, Nat.add_zero]
    exact ⟨rfl, Rewrites.refl f i a⟩

namespace Rewrites

variable {f : ℕ → α → α} {lo i n : ℕ} {body : ℕ → (ℕ → α) → ℕ → α} {a b : ℕ → α}

/-- A loop that takes over at `i` goes on from there. -/
theorem whileFits {stride : ℕ} (h : Rewrites f lo i a b) (hlo : lo ≤ i) (hi : i ≤ n)
    (hstride : 0 < stride)
    (hbody : ∀ i, i + stride ≤ n → ∀ a, Rewrites f i (i + stride) a (body i a)) :
    Rewrites f lo (Sweep.whileFits stride n body i b).1 a (Sweep.whileFits stride n body i b).2 ∧
      i ≤ (Sweep.whileFits stride n body i b).1 ∧ (Sweep.whileFits stride n body i b).1 ≤ n := by
  obtain ⟨hstop, hrest⟩ := whileFits_spec (n := n) hstride hbody i b
  have hmul : stride * ((n - i) / stride) ≤ n - i := Nat.mul_div_le _ _
  rw [hstop]
  exact ⟨h.trans hrest hlo (by omega), by omega, by omega⟩

/-- A loop of single steps reaches the end. -/
theorem whileFits_one (h : Rewrites f lo i a b) (hlo : lo ≤ i) (hi : i ≤ n)
    (hbody : ∀ i, i < n → ∀ a, Rewrites f i (i + 1) a (body i a)) :
    Rewrites f lo n a (Sweep.whileFits 1 n body i b).2 := by
  have hrest := (whileFits_spec (n := n) Nat.one_pos hbody i b).2
  rw [show i + 1 * ((n - i) / 1) = n by omega] at hrest
  exact h.trans hrest hlo hi

end Rewrites

end DrmCxx.Lib.Sweep
