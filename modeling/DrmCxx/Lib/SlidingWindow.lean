import Mathlib.Algebra.Order.BigOperators.Group.Finset
import Mathlib.Order.Interval.Finset.Nat

/-!
# Sliding windows

The positions of a line within a radius of one of them. Sliding a window on by one position lets one
position in and then one out, unless it lies at that end of the line.
-/

namespace DrmCxx.Lib

/-- The positions of a line of length `len` within `radius` of `x`. -/
def window (radius len x : ℕ) : Finset ℕ :=
  (Finset.range len).filter fun i => i ≤ x + radius ∧ x ≤ i + radius

/-- The window around `x`, with the position that enters. -/
def grownWindow (radius len x : ℕ) : Finset ℕ :=
  (Finset.range len).filter fun i => i ≤ x + radius + 1 ∧ x ≤ i + radius

variable {radius len x : ℕ}

theorem mem_window {i : ℕ} :
    i ∈ window radius len x ↔ i < len ∧ i ≤ x + radius ∧ x ≤ i + radius := by
  rw [window, Finset.mem_filter, Finset.mem_range]

theorem mem_grownWindow {i : ℕ} :
    i ∈ grownWindow radius len x ↔ i < len ∧ i ≤ x + radius + 1 ∧ x ≤ i + radius := by
  rw [grownWindow, Finset.mem_filter, Finset.mem_range]

theorem window_zero : window radius len 0 = Finset.range (min (radius + 1) len) := by
  ext i
  rw [mem_window, Finset.mem_range]
  omega

theorem window_nonempty (h : x < len) : (window radius len x).Nonempty :=
  ⟨x, mem_window.mpr ⟨h, by omega, by omega⟩⟩

theorem card_grownWindow_le : (grownWindow radius len x).card ≤ 2 * radius + 2 := by
  have hsub : grownWindow radius len x ⊆ Finset.Icc (x - radius) (x + radius + 1) := fun i hi => by
    have := mem_grownWindow.mp hi
    rw [Finset.mem_Icc]
    omega
  calc (grownWindow radius len x).card ≤ (Finset.Icc (x - radius) (x + radius + 1)).card :=
        Finset.card_le_card hsub
    _ ≤ 2 * radius + 2 := by
        rw [Nat.card_Icc]
        omega

/-! ### Sliding -/

theorem notMem_window_add : x + radius + 1 ∉ window radius len x := fun hmem => by
  have := mem_window.mp hmem
  omega

theorem grownWindow_of_lt (h : x + radius + 1 < len) :
    grownWindow radius len x = insert (x + radius + 1) (window radius len x) := by
  ext i
  rw [mem_grownWindow, Finset.mem_insert, mem_window]
  omega

theorem grownWindow_of_le (h : len ≤ x + radius + 1) :
    grownWindow radius len x = window radius len x := by
  ext i
  rw [mem_grownWindow, mem_window]
  omega

theorem window_succ_subset : window radius len (x + 1) ⊆ grownWindow radius len x := fun i hi => by
  have := mem_window.mp hi
  rw [mem_grownWindow]
  omega

theorem notMem_window_sub (h : radius ≤ x) :
    x - radius ∉ window radius len (x + 1) := fun hmem => by
  have := mem_window.mp hmem
  omega

theorem grownWindow_eq_insert (h : radius ≤ x) (hx : x < len) :
    grownWindow radius len x = insert (x - radius) (window radius len (x + 1)) := by
  ext i
  rw [mem_grownWindow, Finset.mem_insert, mem_window]
  omega

theorem grownWindow_eq_window (h : x < radius) :
    grownWindow radius len x = window radius len (x + 1) := by
  ext i
  rw [mem_grownWindow, mem_window]
  omega

/-! ### Means -/

/-- The mean over the window, truncated. -/
def windowMean (f : ℕ → ℕ) (radius len x : ℕ) : ℕ :=
  (∑ i ∈ window radius len x, f i) / (window radius len x).card

variable {f : ℕ → ℕ} {b : ℕ}

theorem windowMean_le (h : ∀ i < len, f i ≤ b) : windowMean f radius len x ≤ b := by
  have hsum := Finset.sum_le_card_nsmul (window radius len x) f b
    fun i hi => h i (mem_window.mp hi).1
  exact Nat.div_le_of_le_mul hsum

theorem le_windowMean (hx : x < len) (h : ∀ i < len, b ≤ f i) : b ≤ windowMean f radius len x := by
  have hsum := Finset.card_nsmul_le_sum (window radius len x) f b
    fun i hi => h i (mem_window.mp hi).1
  rw [windowMean, Nat.le_div_iff_mul_le (window_nonempty hx).card_pos, Nat.mul_comm]
  exact hsum

end DrmCxx.Lib
