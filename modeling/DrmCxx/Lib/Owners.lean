import Mathlib.Logic.Function.Basic

/-!
# Owners of a resource

Each object holds at most one resource. A resource is open while one object holds it, and no two
objects hold the same one: so it is closed once, by the object that holds it last.
-/

namespace DrmCxx.Lib

variable {ι κ : Type*} {holds : ι → Option κ} {opened : κ → Prop} {i j : ι} {k : κ}

/-- The open resources are those that an object holds, each of them by one object. -/
structure Owners (holds : ι → Option κ) (opened : κ → Prop) : Prop where
  open_iff : ∀ k, opened k ↔ ∃ i, holds i = some k
  alone : ∀ i j k, holds i = some k → holds j = some k → i = j

namespace Owners

theorem opened_of (h : Owners holds opened) (hi : holds i = some k) : opened k :=
  (h.open_iff k).mpr ⟨i, hi⟩

theorem congr {holds' : ι → Option κ} {opened' : κ → Prop} (h : Owners holds opened)
    (hholds : ∀ i, holds' i = holds i) (hopen : ∀ k, opened' k ↔ opened k) :
    Owners holds' opened' := by
  obtain rfl : holds' = holds := funext hholds
  obtain rfl : opened' = opened := funext fun k => propext (hopen k)
  exact h

variable [DecidableEq ι]

theorem update_eq_some {v x : Option κ} :
    Function.update holds i v j = x ↔ (j = i ∧ v = x) ∨ (j ≠ i ∧ holds j = x) := by
  by_cases hj : j = i
  · simp [hj]
  · simp [hj]

/-- An object without a resource gets one that was not open. -/
theorem acquire (h : Owners holds opened) (hi : holds i = none) (hk : ¬ opened k) :
    Owners (Function.update holds i (some k)) (fun k' => k' = k ∨ opened k') := by
  have hnew : ∀ j, holds j ≠ some k := fun j hj => hk (h.opened_of hj)
  refine ⟨fun k' => ⟨?_, ?_⟩, ?_⟩
  · rintro (rfl | hopen)
    · exact ⟨i, Function.update_self ..⟩
    · obtain ⟨j, hj⟩ := (h.open_iff k').mp hopen
      have hne : j ≠ i := fun heq => by rw [heq, hi] at hj; cases hj
      exact ⟨j, update_eq_some.mpr (.inr ⟨hne, hj⟩)⟩
  · rintro ⟨j, hj⟩
    rcases update_eq_some.mp hj with ⟨-, heq⟩ | ⟨-, hj⟩
    · exact .inl (Option.some.inj heq).symm
    · exact .inr (h.opened_of hj)
  · intro j₁ j₂ k' h₁ h₂
    rcases update_eq_some.mp h₁ with ⟨hj₁, heq₁⟩ | ⟨-, hold₁⟩ <;>
      rcases update_eq_some.mp h₂ with ⟨hj₂, heq₂⟩ | ⟨-, hold₂⟩
    · rw [hj₁, hj₂]
    · exact absurd (heq₁ ▸ hold₂) (hnew j₂)
    · exact absurd (heq₂ ▸ hold₁) (hnew j₁)
    · exact h.alone j₁ j₂ k' hold₁ hold₂

/-- An object goes, and the resource it held is closed. -/
theorem release (h : Owners holds opened) (i : ι) :
    Owners (Function.update holds i none) (fun k => opened k ∧ holds i ≠ some k) := by
  refine ⟨fun k => ⟨?_, ?_⟩, ?_⟩
  · rintro ⟨hopen, hne⟩
    obtain ⟨j, hj⟩ := (h.open_iff k).mp hopen
    have hji : j ≠ i := fun heq => hne (heq ▸ hj)
    exact ⟨j, update_eq_some.mpr (.inr ⟨hji, hj⟩)⟩
  · rintro ⟨j, hj⟩
    rcases update_eq_some.mp hj with ⟨-, heq⟩ | ⟨hji, hj⟩
    · cases heq
    · exact ⟨h.opened_of hj, fun hi => hji (h.alone j i k hj hi)⟩
  · intro j j' k hj hj'
    rcases update_eq_some.mp hj with ⟨-, heq⟩ | ⟨-, hj⟩
    · cases heq
    rcases update_eq_some.mp hj' with ⟨-, heq⟩ | ⟨-, hj'⟩
    · cases heq
    exact h.alone j j' k hj hj'

/-- What one object holds goes to another, which held nothing. -/
theorem pass (h : Owners holds opened) (hi : holds i = none) (j : ι) :
    Owners (Function.update (Function.update holds i (holds j)) j none) opened := by
  have back : ∀ {i' k}, Function.update (Function.update holds i (holds j)) j none i' = some k →
      i' ≠ j ∧ holds (if i' = i then j else i') = some k := by
    intro i' k h'
    rcases update_eq_some.mp h' with ⟨-, heq⟩ | ⟨hne, h'⟩
    · cases heq
    rcases update_eq_some.mp h' with ⟨rfl, heq⟩ | ⟨hne', h'⟩
    · exact ⟨hne, by simpa using heq⟩
    · exact ⟨hne, by simpa [hne'] using h'⟩
  refine ⟨fun k => ⟨?_, ?_⟩, ?_⟩
  · intro hopen
    obtain ⟨i', hi'⟩ := (h.open_iff k).mp hopen
    have hne : i' ≠ i := fun heq => by rw [heq, hi] at hi'; cases hi'
    by_cases hj : i' = j
    · subst hj
      exact ⟨i, update_eq_some.mpr (.inr ⟨hne.symm, update_eq_some.mpr (.inl ⟨rfl, hi'⟩)⟩)⟩
    · exact ⟨i', update_eq_some.mpr (.inr ⟨hj, update_eq_some.mpr (.inr ⟨hne, hi'⟩)⟩)⟩
  · rintro ⟨i', hi'⟩
    exact h.opened_of (back hi').2
  · intro i₁ i₂ k h₁ h₂
    obtain ⟨hj₁, h₁⟩ := back h₁
    obtain ⟨hj₂, h₂⟩ := back h₂
    have hsame := h.alone _ _ k h₁ h₂
    by_cases heq₁ : i₁ = i <;> by_cases heq₂ : i₂ = i
    · rw [heq₁, heq₂]
    · exact absurd (by simpa [heq₁, heq₂] using hsame.symm) hj₂
    · exact absurd (by simpa [heq₁, heq₂] using hsame) hj₁
    · simpa [heq₁, heq₂] using hsame

end Owners

end DrmCxx.Lib
