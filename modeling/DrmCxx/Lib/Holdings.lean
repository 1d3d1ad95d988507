import Mathlib.Data.List.Nodup
import Mathlib.Logic.Function.Basic

/-!
# Holders of several resources

Each object holds a list of resources. A resource is open while one object holds it, and it is held
once: so every resource is closed once, by the object that took it.
-/

namespace DrmCxx.Lib

variable {ι κ : Type*} {holds : ι → List κ} {opened : κ → Prop} {i j : ι} {k : κ}
  {mine : List κ}

/-- The open resources are those that an object holds, each of them once. -/
structure Holdings (holds : ι → List κ) (opened : κ → Prop) : Prop where
  open_iff : ∀ k, opened k ↔ ∃ i, k ∈ holds i
  nodup : ∀ i, (holds i).Nodup
  alone : ∀ i j k, k ∈ holds i → k ∈ holds j → i = j

namespace Holdings

theorem opened_of (h : Holdings holds opened) (hk : k ∈ holds i) : opened k :=
  (h.open_iff k).mpr ⟨i, hk⟩

/-- The order in which an object holds its resources says nothing. -/
theorem congr {holds' : ι → List κ} {opened' : κ → Prop} (h : Holdings holds opened)
    (hholds : ∀ i, (holds' i).Perm (holds i)) (hopen : ∀ k, opened' k ↔ opened k) :
    Holdings holds' opened' where
  open_iff k := by
    rw [hopen, h.open_iff]
    exact exists_congr fun i => (hholds i).mem_iff.symm
  nodup i := (hholds i).nodup_iff.mpr (h.nodup i)
  alone i j k hi hj := h.alone i j k ((hholds i).mem_iff.mp hi) ((hholds j).mem_iff.mp hj)

variable [DecidableEq ι]

/-- `i` holds `mine`, and the other objects what `holds` says. -/
def Has (i : ι) (holds : ι → List κ) (mine : List κ) (opened : κ → Prop) : Prop :=
  Holdings (Function.update holds i mine) opened

/-- An object other than `i` holds it. -/
def Other (i : ι) (holds : ι → List κ) (k : κ) : Prop := ∃ j, j ≠ i ∧ k ∈ holds j

theorem has_self (h : Holdings holds opened) (i : ι) : Has i holds (holds i) opened := by
  rwa [Has, Function.update_eq_self]

theorem mem_update {mine : List κ} :
    k ∈ Function.update holds i mine j ↔ (j = i ∧ k ∈ mine) ∨ (j ≠ i ∧ k ∈ holds j) := by
  by_cases hj : j = i
  · subst hj
    simp
  · simp [hj]

theorem Has.not_other (h : Has i holds mine opened) (hk : k ∈ mine) : ¬ Other i holds k := by
  rintro ⟨j, hj, hmem⟩
  exact hj (h.alone j i k (mem_update.mpr (.inr ⟨hj, hmem⟩)) (mem_update.mpr (.inl ⟨rfl, hk⟩)))

theorem Has.isOpen (h : Has i holds mine opened) (hk : k ∈ mine ∨ Other i holds k) :
    opened k := by
  rcases hk with hk | ⟨j, hj, hk⟩
  · exact h.opened_of (mem_update.mpr (.inl ⟨rfl, hk⟩))
  · exact h.opened_of (mem_update.mpr (.inr ⟨hj, hk⟩))

theorem Has.open_iff (h : Has i holds mine opened) (k : κ) :
    opened k ↔ k ∈ mine ∨ Other i holds k := by
  refine ⟨fun hopen => ?_, h.isOpen⟩
  obtain ⟨j, hj⟩ := (Holdings.open_iff h k).mp hopen
  rcases mem_update.mp hj with ⟨-, hmem⟩ | ⟨hne, hmem⟩
  · exact .inl hmem
  · exact .inr ⟨j, hne, hmem⟩

theorem Has.nodup (h : Has i holds mine opened) : mine.Nodup := by
  have hi := Holdings.nodup h i
  rwa [Function.update_self] at hi

/-- What `i` holds and what is open, once the others are known to hold the same. -/
theorem Has.change {mine' : List κ} {opened' : κ → Prop} (h : Has i holds mine opened)
    (hnodup : mine'.Nodup) (hapart : ∀ k ∈ mine', ¬ Other i holds k)
    (hopen : ∀ k, opened' k ↔ k ∈ mine' ∨ Other i holds k) : Has i holds mine' opened' where
  open_iff k := by
    rw [hopen]
    constructor
    · rintro (hk | ⟨j, hj, hk⟩)
      · exact ⟨i, mem_update.mpr (.inl ⟨rfl, hk⟩)⟩
      · exact ⟨j, mem_update.mpr (.inr ⟨hj, hk⟩)⟩
    · rintro ⟨j, hj⟩
      rcases mem_update.mp hj with ⟨-, hk⟩ | ⟨hne, hk⟩
      · exact .inl hk
      · exact .inr ⟨j, hne, hk⟩
  nodup j := by
    by_cases hj : j = i
    · subst hj
      rwa [Function.update_self]
    · have hold := Holdings.nodup h j
      rwa [Function.update_of_ne hj] at hold ⊢
  alone j j' k hk hk' := by
    rcases mem_update.mp hk with ⟨rfl, hmem⟩ | ⟨hne, hmem⟩ <;>
      rcases mem_update.mp hk' with ⟨rfl, hmem'⟩ | ⟨hne', hmem'⟩
    · rfl
    · exact absurd ⟨j', hne', hmem'⟩ (hapart k hmem)
    · exact absurd ⟨j, hne, hmem⟩ (hapart k hmem')
    · exact h.alone j j' k (mem_update.mpr (.inr ⟨hne, hmem⟩)) (mem_update.mpr (.inr ⟨hne', hmem'⟩))

/-- A resource that was not open goes to `i`. -/
theorem Has.gain {opened' : κ → Prop} (h : Has i holds mine opened) (hk : ¬ opened k)
    (hopen : ∀ k', opened' k' ↔ k' = k ∨ opened k') : Has i holds (k :: mine) opened' := by
  have hnew : ¬ (k ∈ mine ∨ Other i holds k) := mt h.isOpen hk
  rw [not_or] at hnew
  refine h.change (List.nodup_cons.mpr ⟨hnew.1, h.nodup⟩) ?_ fun k' => ?_
  · intro k' hk'
    rcases List.mem_cons.mp hk' with rfl | hk'
    · exact hnew.2
    · exact h.not_other hk'
  · rw [hopen, h.open_iff, List.mem_cons, or_assoc]

/-- `i` closes one of its resources. -/
theorem Has.lose {opened' : κ → Prop} (h : Has i holds (k :: mine) opened)
    (hopen : ∀ k', opened' k' ↔ k' ≠ k ∧ opened k') : Has i holds mine opened' := by
  obtain ⟨hnew, hnodup⟩ := List.nodup_cons.mp h.nodup
  have hk : ¬ Other i holds k := h.not_other List.mem_cons_self
  refine h.change hnodup (fun k' hk' => h.not_other (List.mem_cons_of_mem _ hk')) fun k' => ?_
  rw [hopen, h.open_iff, List.mem_cons]
  constructor
  · rintro ⟨hne, (heq | hmem) | hother⟩
    · exact absurd heq hne
    · exact .inl hmem
    · exact .inr hother
  · rintro (hmem | hother)
    · exact ⟨fun heq => hnew (heq ▸ hmem), .inl (.inr hmem)⟩
    · exact ⟨fun heq => hk (heq ▸ hother), .inr hother⟩

theorem Has.perm {mine' : List κ} (h : Has i holds mine opened) (hperm : mine'.Perm mine) :
    Has i holds mine' opened :=
  h.change (hperm.nodup_iff.mpr h.nodup) (fun _ hk => h.not_other (hperm.mem_iff.mp hk))
    fun k => by rw [h.open_iff, hperm.mem_iff]

end Holdings

end DrmCxx.Lib
