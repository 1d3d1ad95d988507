import Mathlib.Data.List.Forall2
import Mathlib.Data.List.Pairwise
import Mathlib.Data.List.Sort

/-!
# Greedy numbering

Values given to the items of a list one after the other, each the least its item admits above the
value before. The greedy numbering exists if any rising one does, and stays at or below all of them.
-/

namespace DrmCxx.Lib.Greedy

variable {ρ α : Type*} [LT α]

/-- The values rise from above `prev`, each one admitted by its item. -/
def Rises (admits : ρ → α → Prop) : Option α → List ρ → List α → Prop
  | _, [], [] => True
  | prev, r :: rs, v :: vs => admits r v ∧ (∀ p ∈ prev, p < v) ∧ Rises admits (some v) rs vs
  | _, _, _ => False

/-- The values `next` picks along the list, `none` once it finds no value. -/
def number (next : Option α → ρ → Option α) : Option α → List ρ → Option (List α)
  | _, [] => some []
  | prev, r :: rs => (next prev r).bind fun v => (number next (some v) rs).map (v :: ·)

variable {admits : ρ → α → Prop} {room : α → Prop} {next : Option α → ρ → Option α}

theorem Rises.length_eq {prev : Option α} {rs : List ρ} {vs : List α}
    (h : Rises admits prev rs vs) : vs.length = rs.length := by
  induction rs generalizing prev vs with
  | nil =>
    cases vs with
    | nil => rfl
    | cons v vs => exact h.elim
  | cons r rs ih =>
    cases vs with
    | nil => exact h.elim
    | cons v vs => simp [ih h.2.2]

theorem Rises.exists_admits {prev : Option α} {rs : List ρ} {vs : List α}
    (h : Rises admits prev rs vs) : ∀ v ∈ vs, ∃ r ∈ rs, admits r v := by
  induction rs generalizing prev vs with
  | nil =>
    cases vs with
    | nil => nofun
    | cons v vs => exact h.elim
  | cons r rs ih =>
    cases vs with
    | nil => exact h.elim
    | cons v vs =>
      refine List.forall_mem_cons.mpr ⟨⟨r, List.mem_cons_self, h.1⟩, fun u hu => ?_⟩
      obtain ⟨s, hs, hadmits⟩ := ih h.2.2 u hu
      exact ⟨s, List.mem_cons_of_mem _ hs, hadmits⟩

/-- Values given by a function rise along the list when they rise between every two items. -/
theorem rises_map_iff (htrans : ∀ {a b c : α}, a < b → b < c → a < c) {f : ρ → α}
    {prev : Option α} {rs : List ρ} :
    Rises admits prev rs (rs.map f) ↔
      (∀ r ∈ rs, admits r (f r) ∧ ∀ p ∈ prev, p < f r) ∧ rs.Pairwise fun r s => f r < f s := by
  induction rs generalizing prev with
  | nil => simp [Rises]
  | cons r rs ih =>
    rw [List.map_cons, Rises, ih, List.forall_mem_cons, List.pairwise_cons]
    constructor
    · rintro ⟨hadmits, hlt, hrest, hpair⟩
      refine ⟨⟨⟨hadmits, hlt⟩, fun s hs => ⟨(hrest s hs).1, fun p hp => ?_⟩⟩,
        fun s hs => (hrest s hs).2 _ rfl, hpair⟩
      exact htrans (hlt p hp) ((hrest s hs).2 _ rfl)
    · rintro ⟨⟨⟨hadmits, hlt⟩, hrest⟩, hfirst, hpair⟩
      refine ⟨hadmits, hlt, fun s hs => ⟨(hrest s hs).1, ?_⟩, hpair⟩
      intro p hp
      cases hp
      exact hfirst s hs

/-- Admitted values that rise along a list. -/
theorem rises_of_pairwise {prev : Option α} {rs : List ρ} {vs : List α}
    (hadmits : List.Forall₂ admits rs vs) (hpair : vs.Pairwise (· < ·))
    (hprev : ∀ p ∈ prev, ∀ v ∈ vs, p < v) : Rises admits prev rs vs := by
  induction hadmits generalizing prev with
  | nil => trivial
  | cons hv _ ih =>
    obtain ⟨hfirst, hrest⟩ := List.pairwise_cons.mp hpair
    refine ⟨hv, fun p hp => hprev p hp _ List.mem_cons_self, ih hrest ?_⟩
    intro p hp
    cases hp
    exact hfirst

variable [LE α]

/-- For the item `r`, `next` finds the least admitted value above the last one, if there is any.
It may rely on the last value having `room` above it. -/
structure FindsLeast (admits : ρ → α → Prop) (room : α → Prop) (next : Option α → ρ → Option α)
    (r : ρ) : Prop where
  roomy : ∀ {v}, admits r v → room v
  sound : ∀ {prev v}, (∀ p ∈ prev, room p) → next prev r = some v →
    admits r v ∧ ∀ p ∈ prev, p < v
  least : ∀ {prev u}, (∀ p ∈ prev, room p) → admits r u → (∀ p ∈ prev, p < u) →
    ∃ v, next prev r = some v ∧ v ≤ u

theorem rises_of_number (room : α → Prop) {rs : List ρ}
    (hnext : ∀ r ∈ rs, FindsLeast admits room next r)
    {prev : Option α} (hprev : ∀ p ∈ prev, room p) {vs : List α}
    (h : number next prev rs = some vs) : Rises admits prev rs vs := by
  induction rs generalizing prev vs with
  | nil =>
    cases h
    trivial
  | cons r rs ih =>
    obtain ⟨v, hv, h⟩ := Option.bind_eq_some_iff.mp h
    obtain ⟨vs, hvs, rfl⟩ := Option.map_eq_some_iff.mp h
    have hr := hnext r List.mem_cons_self
    obtain ⟨hadmits, hlt⟩ := hr.sound hprev hv
    refine ⟨hadmits, hlt, ih (fun s hs => hnext s (List.mem_cons_of_mem _ hs)) ?_ hvs⟩
    intro p hp
    cases hp
    exact hr.roomy hadmits

/-- Greedy stays ahead: started at or below where another numbering starts, it exists and stays at
or below it. -/
theorem number_le (room : α → Prop) (hle : ∀ {a b c : α}, a ≤ b → b < c → a < c) {rs : List ρ}
    (hnext : ∀ r ∈ rs, FindsLeast admits room next r) {prev prev' : Option α}
    (hroom : ∀ p ∈ prev, room p) {us : List α} (hprev : ∀ p ∈ prev, ∃ p' ∈ prev', p ≤ p')
    (h : Rises admits prev' rs us) :
    ∃ vs, number next prev rs = some vs ∧ List.Forall₂ (· ≤ ·) vs us := by
  induction rs generalizing prev prev' us with
  | nil =>
    cases us with
    | nil => exact ⟨[], rfl, .nil⟩
    | cons u us => exact h.elim
  | cons r rs ih =>
    cases us with
    | nil => exact h.elim
    | cons u us =>
      obtain ⟨hadmits, hlt, hrest⟩ := h
      have hr := hnext r List.mem_cons_self
      have hbelow : ∀ p ∈ prev, p < u := by
        intro p hp
        obtain ⟨p', hp', hpp⟩ := hprev p hp
        exact hle hpp (hlt p' hp')
      obtain ⟨v, hv, hvu⟩ := hr.least hroom hadmits hbelow
      have hroom' : ∀ p ∈ some v, room p := by simpa using hr.roomy (hr.sound hroom hv).1
      have hprev' : ∀ p ∈ some v, ∃ p' ∈ some u, p ≤ p' := by simpa using hvu
      obtain ⟨vs, hvs, hall⟩ := ih (fun s hs => hnext s (List.mem_cons_of_mem _ hs)) hroom' hprev'
        hrest
      exact ⟨v :: vs, by simp [number, hv, hvs], .cons hvu hall⟩

/-! ### Lower bounds -/

section LowerBounds

variable {ρ α : Type*} [LinearOrder α]

/-- A value put in its place among the values of the items above its own. -/
theorem forall₂_orderedInsert {z w : α} {zs us : List α} (hz : (z :: zs).Pairwise (· ≤ ·))
    (h : List.Forall₂ (· ≤ ·) zs us) (hw : z ≤ w) :
    List.Forall₂ (· ≤ ·) (z :: zs) (us.orderedInsert (· ≤ ·) w) := by
  induction h generalizing z with
  | nil => exact .cons hw .nil
  | cons hle _ ih =>
    obtain ⟨hfirst, hrest⟩ := List.pairwise_cons.mp hz
    rw [List.orderedInsert_cons]
    split
    · exact .cons hw (.cons hle ‹_›)
    · rename_i hlt
      have hzu := (hfirst _ List.mem_cons_self).trans hle
      exact .cons hzu (ih hrest (hle.trans (le_of_not_ge hlt)))

/-- Values above sorted bounds stay above them when they are sorted. -/
theorem forall₂_insertionSort {zs us : List α} (hz : zs.Pairwise (· ≤ ·))
    (h : List.Forall₂ (· ≤ ·) zs us) :
    List.Forall₂ (· ≤ ·) zs (us.insertionSort (· ≤ ·)) := by
  induction h with
  | nil => exact .nil
  | cons hle _ ih => exact forall₂_orderedInsert hz (ih (List.pairwise_cons.mp hz).2) hle

/-- Items that differ in a lower bound only, listed in its order, can be numbered in rising order
if they can be given distinct values at all. -/
theorem exists_rises {low : ρ → α} {P : α → Prop} {rs : List ρ}
    (hlow : rs.Pairwise fun r s => low r ≤ low s) {us : List α} (hnodup : us.Nodup)
    (hus : List.Forall₂ (fun r u => low r ≤ u) rs us) (hP : ∀ u ∈ us, P u) :
    ∃ vs, Rises (fun r v => low r ≤ v ∧ P v) none rs vs := by
  have hperm := List.perm_insertionSort (· ≤ ·) us
  have hlows : List.Forall₂ (· ≤ ·) (rs.map low) (us.insertionSort (· ≤ ·)) :=
    forall₂_insertionSort (List.pairwise_map.mpr hlow) (List.forall₂_map_left_iff.mpr hus)
  refine ⟨us.insertionSort (· ≤ ·), rises_of_pairwise ?_ ?_ nofun⟩
  · refine List.forall₂_iff_zip.mpr ⟨?_, fun {r v} hmem => ?_⟩
    · simpa using hlows.length_eq
    · exact ⟨(List.forall₂_iff_zip.mp (List.forall₂_map_left_iff.mp hlows)).2 hmem,
        hP v (hperm.mem_iff.mp (List.of_mem_zip hmem).2)⟩
  · have hsorted := List.pairwise_insertionSort (· ≤ ·) us
    exact (hsorted.and (hperm.nodup_iff.mpr hnodup)).imp fun h => lt_of_le_of_ne h.1 h.2

end LowerBounds

end DrmCxx.Lib.Greedy
