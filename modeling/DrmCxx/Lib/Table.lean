import Mathlib.Data.List.Nodup
import Mathlib.Data.List.Lattice

/-!
# Insertion-ordered tables

A finite map kept as the list of its entries, in the order the keys were first inserted.
Assigning to a key that is there replaces its value in place.
-/

namespace DrmCxx.Lib

/-- A lookup finds the entry that has the key, where one has it. -/
theorem find?_of_nodup_map {κ α : Type*} [DecidableEq κ] {f : α → κ} {xs : List α}
    (h : (xs.map f).Nodup) {x : α} (hx : x ∈ xs) : xs.find? (fun y => f y = f x) = some x := by
  have hsome : (xs.find? (fun y => f y = f x)).isSome := by
    rw [List.find?_isSome]
    exact ⟨x, hx, by simp⟩
  obtain ⟨y, hy⟩ := Option.isSome_iff_exists.mp hsome
  have hkey : f y = f x := by simpa using List.find?_some hy
  rw [hy, List.inj_on_of_nodup_map h (List.mem_of_find?_eq_some hy) hx hkey]

structure Table (κ α : Type*) where
  entries : List (κ × α)
  nodupKeys : (entries.map Prod.fst).Nodup

namespace Table

variable {κ α : Type*}

def empty : Table κ α := ⟨[], List.nodup_nil⟩

instance : Inhabited (Table κ α) := ⟨empty⟩

def isEmpty (t : Table κ α) : Bool := t.entries.isEmpty

def size (t : Table κ α) : ℕ := t.entries.length

def keys (t : Table κ α) : List κ := t.entries.map Prod.fst

def values (t : Table κ α) : List α := t.entries.map Prod.snd

/-- The entries that pass `p`, in order. -/
def filter (p : κ × α → Bool) (t : Table κ α) : Table κ α :=
  ⟨t.entries.filter p, t.nodupKeys.sublist (List.filter_sublist.map Prod.fst)⟩

def mapValues (f : α → α) (t : Table κ α) : Table κ α :=
  ⟨t.entries.map (fun e => (e.1, f e.2)),
    by simpa [List.map_map, Function.comp_def] using t.nodupKeys⟩

theorem mem_filter {t : Table κ α} {p : κ × α → Bool} {e : κ × α} :
    e ∈ (t.filter p).entries ↔ e ∈ t.entries ∧ p e = true :=
  List.mem_filter

theorem filter_eq_self {t : Table κ α} {p : κ × α → Bool} (h : ∀ e ∈ t.entries, p e = true) :
    t.filter p = t := by
  obtain ⟨es, hes⟩ := t
  simp only [filter, mk.injEq]
  exact List.filter_eq_self.mpr h

section Keyed

variable [DecidableEq κ]

def find? (t : Table κ α) (k : κ) : Option α :=
  (t.entries.find? (fun e => e.1 = k)).map Prod.snd

def contains (t : Table κ α) (k : κ) : Bool := t.entries.any (fun e => e.1 = k)

def erase (t : Table κ α) (k : κ) : Table κ α := t.filter (fun e => e.1 ≠ k)

def assignEntries (k : κ) (a : α) : List (κ × α) → List (κ × α)
  | [] => [(k, a)]
  | e :: es => if e.1 = k then (k, a) :: es else e :: assignEntries k a es

theorem mem_keys_assignEntries {k j : κ} {a : α} {es : List (κ × α)} :
    j ∈ (assignEntries k a es).map Prod.fst ↔ j = k ∨ j ∈ es.map Prod.fst := by
  induction es with
  | nil => simp [assignEntries]
  | cons e es ih =>
    by_cases h : e.1 = k
    · simp [assignEntries, h]
    · simp only [assignEntries, h, if_false, List.map_cons, List.mem_cons, ih]
      tauto

theorem nodup_assignEntries {k : κ} {a : α} {es : List (κ × α)}
    (h : (es.map Prod.fst).Nodup) : ((assignEntries k a es).map Prod.fst).Nodup := by
  induction es with
  | nil => simp [assignEntries]
  | cons e es ih =>
    rw [List.map_cons, List.nodup_cons] at h
    by_cases hk : e.1 = k
    · rw [assignEntries, if_pos hk, List.map_cons, List.nodup_cons]
      exact ⟨hk ▸ h.1, h.2⟩
    · simp only [assignEntries, hk, if_false, List.map_cons, List.nodup_cons]
      refine ⟨?_, ih h.2⟩
      intro hm
      rcases mem_keys_assignEntries.mp hm with hm | hm
      · exact hk hm
      · exact h.1 hm

def insertOrAssign (t : Table κ α) (k : κ) (a : α) : Table κ α :=
  ⟨assignEntries k a t.entries, nodup_assignEntries t.nodupKeys⟩

/-- A new key goes last. -/
theorem assignEntries_of_not_mem {k : κ} {a : α} {es : List (κ × α)}
    (h : k ∉ es.map Prod.fst) : assignEntries k a es = es ++ [(k, a)] := by
  induction es with
  | nil => rfl
  | cons e es ih =>
    rw [List.map_cons, List.mem_cons, not_or] at h
    rw [assignEntries, if_neg (Ne.symm h.1), ih h.2]
    rfl

/-- A table filled with distinct keys lists them as they came. -/
theorem entries_foldl_insertOrAssign {es : List (κ × α)} {t : Table κ α}
    (h : ((t.entries ++ es).map Prod.fst).Nodup) :
    (es.foldl (fun t e => t.insertOrAssign e.1 e.2) t).entries = t.entries ++ es := by
  induction es generalizing t with
  | nil => simp
  | cons e es ih =>
    have hnew : e.1 ∉ t.entries.map Prod.fst := by
      rw [List.map_append, List.nodup_append] at h
      intro hm
      exact h.2.2 _ hm _ (List.mem_map.mpr ⟨e, List.mem_cons_self, rfl⟩) rfl
    have he : (t.insertOrAssign e.1 e.2).entries = t.entries ++ [e] :=
      assignEntries_of_not_mem hnew
    have h' : (((t.insertOrAssign e.1 e.2).entries ++ es).map Prod.fst).Nodup := by
      rw [he, List.append_assoc]
      exact h
    rw [List.foldl_cons, ih h', he, List.append_assoc]
    rfl

/-! ### Lookup -/

theorem find?_eq_some {t : Table κ α} {k : κ} {a : α} :
    t.find? k = some a ↔ (k, a) ∈ t.entries := by
  constructor
  · intro h
    obtain ⟨e, he, rfl⟩ := Option.map_eq_some_iff.mp h
    have hkey : e.1 = k := by simpa using List.find?_some he
    exact hkey ▸ List.mem_of_find?_eq_some he
  · exact fun h => congrArg (Option.map Prod.snd) (find?_of_nodup_map t.nodupKeys h)

theorem contains_eq_true {t : Table κ α} {k : κ} :
    t.contains k = true ↔ ∃ a, (k, a) ∈ t.entries := by
  simp [contains]

theorem contains_eq_false {t : Table κ α} {k : κ} :
    t.contains k = false ↔ ∀ a, (k, a) ∉ t.entries := by
  rw [← Bool.not_eq_true, contains_eq_true, not_exists]

theorem find?_eq_none {t : Table κ α} {k : κ} :
    t.find? k = none ↔ ∀ a, (k, a) ∉ t.entries := by
  rw [Option.eq_none_iff_forall_ne_some]
  exact forall_congr' fun a => not_congr find?_eq_some

theorem eq_of_mem {t : Table κ α} {k : κ} {a b : α} (ha : (k, a) ∈ t.entries)
    (hb : (k, b) ∈ t.entries) : a = b :=
  Option.some.inj ((find?_eq_some.mpr ha).symm.trans (find?_eq_some.mpr hb))

theorem mem_insertOrAssign {t : Table κ α} {k j : κ} {a b : α} :
    (j, b) ∈ (t.insertOrAssign k a).entries ↔
      (j = k ∧ b = a) ∨ (j ≠ k ∧ (j, b) ∈ t.entries) := by
  obtain ⟨es, hes⟩ := t
  show (j, b) ∈ assignEntries k a es ↔ _
  induction es with
  | nil => simp [assignEntries]
  | cons e es ih =>
    rw [List.map_cons, List.nodup_cons] at hes
    by_cases h : e.1 = k
    · have hj : (j, b) ∈ es → j ≠ k := fun hm hjk =>
        hes.1 (List.mem_map.mpr ⟨_, hm, (hjk.trans h.symm : j = e.1)⟩)
      have he : (j, b) = e → j = k := fun he => (by rw [← he] at h; exact h)
      simp only [assignEntries, h, if_true, List.mem_cons, Prod.mk.injEq]
      tauto
    · have he : (j, b) = e → j ≠ k := fun he hj => h (by rw [← he]; exact hj)
      simp only [assignEntries, h, if_false, List.mem_cons, ih hes.2]
      tauto

theorem mem_erase {t : Table κ α} {k j : κ} {a : α} :
    (j, a) ∈ (t.erase k).entries ↔ j ≠ k ∧ (j, a) ∈ t.entries := by
  rw [erase, mem_filter]
  simp [and_comm]

theorem contains_insertOrAssign (t : Table κ α) (k j : κ) (a : α) :
    (t.insertOrAssign k a).contains j = true ↔ j = k ∨ t.contains j = true := by
  simp only [contains_eq_true, mem_insertOrAssign]
  constructor
  · rintro ⟨b, ⟨rfl, -⟩ | ⟨-, hb⟩⟩
    · exact .inl rfl
    · exact .inr ⟨b, hb⟩
  · intro h
    by_cases hj : j = k
    · exact ⟨a, .inl ⟨hj, rfl⟩⟩
    · obtain ⟨b, hb⟩ := h.resolve_left hj
      exact ⟨b, .inr ⟨hj, hb⟩⟩

theorem contains_erase (t : Table κ α) (k j : κ) :
    (t.erase k).contains j = true ↔ j ≠ k ∧ t.contains j = true := by
  simp only [contains_eq_true, mem_erase, exists_and_left]

@[simp] theorem find?_insertOrAssign (t : Table κ α) (k j : κ) (a : α) :
    (t.insertOrAssign k a).find? j = if j = k then some a else t.find? j := by
  ext b
  rw [find?_eq_some, mem_insertOrAssign]
  by_cases h : j = k
  · simp [h, eq_comm]
  · simp [h, ← find?_eq_some]

@[simp] theorem find?_erase (t : Table κ α) (k j : κ) :
    (t.erase k).find? j = if j = k then none else t.find? j := by
  ext b
  rw [find?_eq_some, mem_erase]
  by_cases h : j = k
  · simp [h]
  · simp [h, ← find?_eq_some]

@[simp] theorem find?_mapValues (t : Table κ α) (f : α → α) (k : κ) :
    (t.mapValues f).find? k = (t.find? k).map f := by
  unfold find? mapValues
  simp [List.find?_map, Function.comp_def]

/-- The values are that of a key and those of the others. -/
theorem values_perm_erase (t : Table κ α) (k : κ) :
    t.values.Perm ((t.find? k).toList ++ (t.erase k).values) := by
  obtain ⟨es, hes⟩ := t
  simp only [values, find?, erase, filter]
  induction es with
  | nil => rfl
  | cons e es ih =>
    rw [List.map_cons, List.nodup_cons] at hes
    by_cases h : e.1 = k
    · have hk : ∀ e' ∈ es, e'.1 ≠ k := fun e' he' hk =>
        hes.1 (List.mem_map.mpr ⟨e', he', hk.trans h.symm⟩)
      have hrest : es.filter (fun e' => !decide (e'.1 = k)) = es :=
        List.filter_eq_self.mpr fun e' he' => by simp [hk e' he']
      simp [h, hrest]
    · simp only [List.find?_cons, List.filter_cons, h, decide_false, ne_eq, not_false_iff,
        decide_true, if_true, List.map_cons]
      exact ((ih hes.2).cons e.2).trans List.perm_middle.symm

theorem values_insertOrAssign_perm (t : Table κ α) (k : κ) (a : α) :
    (t.insertOrAssign k a).values.Perm (a :: (t.erase k).values) := by
  have h := (t.insertOrAssign k a).values_perm_erase k
  have herase : ((t.insertOrAssign k a).erase k).values.Perm (t.erase k).values := by
    obtain ⟨es, hes⟩ := t
    simp only [values, erase, filter, insertOrAssign]
    induction es with
    | nil => simp [assignEntries]
    | cons e es ih =>
      rw [List.map_cons, List.nodup_cons] at hes
      by_cases hk : e.1 = k
      · simp [assignEntries, hk]
      · simpa [assignEntries, hk] using ih hes.2 (values_perm_erase _ k)
  rw [find?_insertOrAssign, if_pos rfl] at h
  exact h.trans (herase.cons a)

@[simp] theorem find?_empty (k : κ) : (empty : Table κ α).find? k = none := rfl

end Keyed

theorem isEmpty_eq_true {t : Table κ α} : t.isEmpty = true ↔ t.entries = [] := by
  simp [isEmpty]

theorem mem_values {t : Table κ α} {a : α} : a ∈ t.values ↔ ∃ k, (k, a) ∈ t.entries := by
  simp [values]

end Table

end DrmCxx.Lib
