import Mathlib.Algebra.Group.Nat.Defs
import Mathlib.Data.List.Nodup

/-!
# Slot maps

A table of slots that are recycled through a free list. A handle names a slot and the generation
of its occupant, so that it goes stale when the occupant is removed; generations are 32-bit
counters, which come round in the end.
-/

namespace DrmCxx.Lib

/-- The slot's index plus one, and the generation of its occupant. -/
structure Handle where
  id : ℕ := 0
  generation : ℕ := 0
  deriving DecidableEq, Repr

def generationModulus : ℕ := 2 ^ 32

/-- A slot without content is free. -/
structure TableSlot (α : Type*) where
  generation : ℕ := 0
  content : Option α := none
  deriving DecidableEq, Repr

/-- A list with one entry put in place, or added at its end. -/
def putAt {β : Type*} (l : List β) (i : ℕ) (b : β) : List β :=
  l.take i ++ b :: l.drop (i + 1)

theorem getElem?_putAt {β : Type*} {l : List β} {i : ℕ} (hi : i ≤ l.length) (b : β) (j : ℕ) :
    (putAt l i b)[j]? = if j = i then some b else l[j]? := by
  unfold putAt
  have hlen : (l.take i).length = i := List.length_take_of_le hi
  rcases Nat.lt_trichotomy j i with h | rfl | h
  · rw [List.getElem?_append_left (by omega), if_neg (Nat.ne_of_lt h), List.getElem?_take_of_lt h]
  · rw [List.getElem?_append_right (by omega), if_pos rfl, hlen]
    simp
  · rw [List.getElem?_append_right (by omega), if_neg (Nat.ne_of_gt h), hlen]
    obtain ⟨k, rfl⟩ : ∃ k, j = i + 1 + k := ⟨j - (i + 1), by omega⟩
    rw [show i + 1 + k - i = k + 1 by omega, List.getElem?_cons_succ, List.getElem?_drop]

theorem map_putAt {β γ : Type*} (f : β → γ) (l : List β) (i : ℕ) (b : β) :
    (putAt l i b).map f = putAt (l.map f) i (f b) := by
  simp [putAt]

theorem mem_of_mem_putAt {β : Type*} {l : List β} {i : ℕ} {b x : β} (hx : x ∈ putAt l i b) :
    x ∈ l ∨ x = b := by
  rcases List.mem_append.mp hx with hx | hx
  · exact .inl (List.mem_of_mem_take hx)
  · rcases List.mem_cons.mp hx with rfl | hx
    · exact .inr rfl
    · exact .inl (List.mem_of_mem_drop hx)

structure SlotMap (α : Type*) where
  slots : List (TableSlot α)
  /-- Freed indices, used from the back. -/
  freeIds : List ℕ
  nodup : freeIds.Nodup
  mem_free : ∀ i, i ∈ freeIds ↔ slots[i]?.map (·.content) = some none

namespace SlotMap

variable {α : Type*}

def empty : SlotMap α := ⟨[], [], List.nodup_nil, fun i => by simp⟩

theorem ext {m n : SlotMap α} (hs : m.slots = n.slots) (hf : m.freeIds = n.freeIds) : m = n := by
  cases m
  cases n
  simp_all

def generationAt (m : SlotMap α) (i : ℕ) : ℕ :=
  (m.slots[i]?.map (·.generation)).getD 0

def find? (m : SlotMap α) (h : Handle) : Option α :=
  if h.id = 0 then none
  else m.slots[h.id - 1]?.bind fun s => if s.generation = h.generation then s.content else none

/-- The index the next insertion uses. -/
def next (m : SlotMap α) : ℕ :=
  m.freeIds.getLast?.getD m.slots.length

def nextHandle (m : SlotMap α) : Handle :=
  ⟨m.next + 1, (m.generationAt m.next + 1) % generationModulus⟩

theorem next_cases (m : SlotMap α) :
    (m.freeIds = [] ∧ m.next = m.slots.length) ∨ m.freeIds = m.freeIds.dropLast ++ [m.next] := by
  unfold next
  cases h : m.freeIds.getLast? with
  | none => exact .inl ⟨List.getLast?_eq_none_iff.mp h, rfl⟩
  | some i =>
    obtain ⟨l, hl⟩ := List.getLast?_eq_some_iff.mp h
    simp [hl]

theorem next_le (m : SlotMap α) : m.next ≤ m.slots.length := by
  rcases m.next_cases with ⟨-, h⟩ | h
  · exact Nat.le_of_eq h
  · have hmem : m.next ∈ m.freeIds := by rw [h]; simp
    have := (m.mem_free _).mp hmem
    by_contra hlt
    rw [List.getElem?_eq_none (by omega)] at this
    cases this

/-- The slot the next insertion uses holds nothing. -/
theorem content_next (m : SlotMap α) :
    m.slots[m.next]?.bind (·.content) = none := by
  rcases m.next_cases with ⟨-, h⟩ | h
  · rw [h, List.getElem?_eq_none (Nat.le_refl _)]
    rfl
  · have hmem : m.next ∈ m.freeIds := by rw [h]; simp
    obtain ⟨s, hs, hc⟩ := Option.map_eq_some_iff.mp ((m.mem_free _).mp hmem)
    rw [hs]
    exact hc

theorem mem_dropLast (m : SlotMap α) (i : ℕ) :
    i ∈ m.freeIds.dropLast ↔ i ≠ m.next ∧ i ∈ m.freeIds := by
  rcases m.next_cases with ⟨h, -⟩ | h
  · simp [h]
  · have hnd := m.nodup
    rw [h, List.nodup_append] at hnd
    have hnot : m.next ∉ m.freeIds.dropLast := fun hin => hnd.2.2 _ hin _ (by simp) rfl
    conv_rhs => rw [h]
    simp only [List.mem_append, List.mem_singleton]
    constructor
    · exact fun hi => ⟨fun he => hnot (he ▸ hi), .inl hi⟩
    · rintro ⟨hne, hi | hi⟩
      · exact hi
      · exact absurd hi hne

/-- Puts the entry in the next slot; the handle names it. -/
def insert (m : SlotMap α) (a : α) : SlotMap α × Handle :=
  (⟨putAt m.slots m.next ⟨m.nextHandle.generation, some a⟩, m.freeIds.dropLast,
      m.nodup.sublist (List.dropLast_sublist _), fun i => by
        rw [m.mem_dropLast, getElem?_putAt m.next_le]
        by_cases hi : i = m.next
        · simp [hi]
        · rw [if_neg hi, ← m.mem_free]
          exact and_iff_right hi⟩,
    m.nextHandle)

theorem find?_eq_some {m : SlotMap α} {h : Handle} {a : α} :
    m.find? h = some a ↔ h.id ≠ 0 ∧ ∃ s, m.slots[h.id - 1]? = some s ∧
      s.generation = h.generation ∧ s.content = some a := by
  unfold find?
  split
  · simp_all
  · rename_i hid
    simp only [Option.bind_eq_some_iff, Option.ite_none_right_eq_some, ne_eq, hid,
      not_false_eq_true, true_and]

/-- Clears the slot of a handle that is not stale. -/
def remove (m : SlotMap α) (h : Handle) : SlotMap α :=
  if hf : (m.find? h).isSome then
    ⟨m.slots.set (h.id - 1) ⟨h.generation, none⟩, m.freeIds ++ [h.id - 1], by
      obtain ⟨a, ha⟩ := Option.isSome_iff_exists.mp hf
      obtain ⟨-, s, hs, -, hc⟩ := find?_eq_some.mp ha
      refine List.nodup_append.mpr ⟨m.nodup, List.nodup_singleton _, fun i hi j hj => ?_⟩
      rintro rfl
      obtain rfl := List.mem_singleton.mp hj
      simpa [hs, hc] using (m.mem_free _).mp hi, fun i => by
      obtain ⟨a, ha⟩ := Option.isSome_iff_exists.mp hf
      obtain ⟨-, s, hs, -, hc⟩ := find?_eq_some.mp ha
      have hlt := (List.getElem?_eq_some_iff.mp hs).1
      rw [List.mem_append, m.mem_free, List.mem_singleton, List.getElem?_set]
      by_cases hi : h.id - 1 = i
      · subst hi
        simp [hlt]
      · simp [hi, Ne.symm hi]⟩
  else m

/-- Changes every entry, which may depend on its index. -/
def mapContents {β : Type*} (f : ℕ → α → β) (m : SlotMap α) : SlotMap β :=
  ⟨m.slots.mapIdx fun i s => ⟨s.generation, s.content.map (f i)⟩, m.freeIds, m.nodup, fun i => by
    rw [m.mem_free, List.getElem?_mapIdx, Option.map_map, Option.map_eq_some_iff,
      Option.map_eq_some_iff]
    simp⟩

/-! ### Lookups -/

@[simp] theorem find?_empty (h : Handle) : (empty : SlotMap α).find? h = none := by
  simp [find?, empty]

theorem find?_nextHandle (m : SlotMap α) : m.find? m.nextHandle = none := by
  rw [Option.eq_none_iff_forall_ne_some]
  intro a h
  obtain ⟨-, s, hs, -, hc⟩ := find?_eq_some.mp h
  have hnone := m.content_next
  rw [show m.slots[m.next]? = some s from hs] at hnone
  rw [Option.bind_some, hc] at hnone
  cases hnone

@[simp] theorem insert_snd (m : SlotMap α) (a : α) : (m.insert a).2 = m.nextHandle := rfl

theorem find?_insert (m : SlotMap α) (a : α) (h : Handle) :
    (m.insert a).1.find? h = if h = m.nextHandle then some a else m.find? h := by
  have hslots : (m.insert a).1.slots =
      putAt m.slots m.next ⟨m.nextHandle.generation, some a⟩ := rfl
  unfold find?
  rw [hslots, getElem?_putAt m.next_le]
  obtain ⟨id, generation⟩ := h
  cases id with
  | zero => simp [nextHandle]
  | succ i =>
    simp only [Nat.succ_ne_zero, if_false, Nat.add_sub_cancel]
    by_cases hi : i = m.next
    · subst hi
      by_cases hg : m.nextHandle.generation = generation
      · subst hg
        simp [nextHandle]
      · have hne : (⟨m.next + 1, generation⟩ : Handle) ≠ m.nextHandle := by
          rintro h
          exact hg (by rw [← h])
        rw [if_pos rfl, if_neg hne, Option.bind_some, if_neg hg]
        have hnone := m.content_next
        cases hs : m.slots[m.next]? with
        | none => rfl
        | some s =>
          rw [hs] at hnone
          simp only [Option.bind_some] at hnone ⊢
          simp [hnone]
    · have hne : (⟨i + 1, generation⟩ : Handle) ≠ m.nextHandle := by
        rintro h
        exact hi (Nat.succ.inj (congrArg Handle.id h))
      rw [if_neg hi, if_neg hne]

theorem find?_remove (m : SlotMap α) (h h' : Handle) :
    (m.remove h).find? h' = if h' = h then none else m.find? h' := by
  unfold remove
  split
  · rename_i hf
    obtain ⟨a, ha⟩ := Option.isSome_iff_exists.mp hf
    obtain ⟨hid, s, hs, hg, hc⟩ := find?_eq_some.mp ha
    have hlt := (List.getElem?_eq_some_iff.mp hs).1
    unfold find?
    obtain ⟨id, generation⟩ := h
    obtain ⟨id', generation'⟩ := h'
    simp only at hid hs hg hlt ⊢
    by_cases hid' : id' = 0
    · simp [hid']
    · rw [if_neg hid', List.getElem?_set]
      by_cases hi : id - 1 = id' - 1
      · obtain rfl : id = id' := by omega
        simp only [if_pos, hlt, Option.bind_some, Handle.mk.injEq, true_and, hid, if_false]
        by_cases hgen : generation' = generation
        · simp [hgen]
        · rw [if_neg hgen, hs, Option.bind_some, hg, if_neg (Ne.symm hgen)]
          simp [Ne.symm hgen]
      · have hne : id' ≠ id := by
          rintro rfl
          exact hi rfl
        simp [hi, hne, hid']
  · rename_i hf
    by_cases hh : h' = h
    · subst hh
      simpa using hf
    · rw [if_neg hh]

theorem find?_mapContents {β : Type*} (f : ℕ → α → β) (m : SlotMap α) (h : Handle) :
    (m.mapContents f).find? h = (m.find? h).map (f (h.id - 1)) := by
  unfold find? mapContents
  split
  · rfl
  · simp only [List.getElem?_mapIdx]
    cases m.slots[h.id - 1]? with
    | none => rfl
    | some s =>
      simp only [Option.map_some, Option.bind_some]
      split <;> rfl

/-! ### Handles that were given out -/

/-- No later generation than the slot's own: an insertion gave this handle out. -/
def Issued (m : SlotMap α) (h : Handle) : Prop :=
  h.id ≠ 0 ∧ h.id ≤ m.slots.length ∧ h.generation ≤ m.generationAt (h.id - 1)

/-- The next insertion does not bring a generation counter round. -/
def Unwrapped (m : SlotMap α) : Prop :=
  m.generationAt m.next + 1 < generationModulus

instance (m : SlotMap α) : Decidable m.Unwrapped :=
  inferInstanceAs (Decidable (_ < _))

theorem nextHandle_ne_of_issued {m : SlotMap α} {h : Handle} (hh : m.Issued h)
    (hw : m.Unwrapped) : m.nextHandle ≠ h := by
  rintro rfl
  have hle := hh.2.2
  simp only [nextHandle, Nat.add_sub_cancel, Nat.mod_eq_of_lt hw] at hle
  omega

theorem generationAt_insert (m : SlotMap α) (a : α) (i : ℕ) :
    (m.insert a).1.generationAt i =
      if i = m.next then m.nextHandle.generation else m.generationAt i := by
  unfold generationAt
  rw [show (m.insert a).1.slots = putAt m.slots m.next ⟨m.nextHandle.generation, some a⟩ from rfl,
    getElem?_putAt m.next_le]
  split <;> rfl

theorem length_insert (m : SlotMap α) (a : α) :
    (m.insert a).1.slots.length = max m.slots.length (m.next + 1) := by
  have := m.next_le
  rw [show (m.insert a).1.slots = putAt m.slots m.next ⟨m.nextHandle.generation, some a⟩ from rfl,
    putAt]
  simp only [List.length_append, List.length_take, List.length_cons, List.length_drop]
  omega

/-- An insertion fills a slot: a free one, or a new one. -/
theorem length_insert_add (m : SlotMap α) (a : α) :
    (m.insert a).1.slots.length + m.freeIds.length =
      m.slots.length + (m.insert a).1.freeIds.length + 1 := by
  have hfree : (m.insert a).1.freeIds = m.freeIds.dropLast := rfl
  rw [length_insert, hfree, List.length_dropLast]
  rcases m.next_cases with ⟨hnil, hnext⟩ | hcons
  · rw [hnil, hnext]
    simp
  · have hpos : 0 < m.freeIds.length := by
      rw [hcons]
      simp
    have hmem : m.next ∈ m.freeIds := by
      rw [hcons]
      simp
    obtain ⟨s, hs, -⟩ := Option.map_eq_some_iff.mp ((m.mem_free _).mp hmem)
    have := (List.getElem?_eq_some_iff.mp hs).1
    omega

theorem issued_nextHandle (m : SlotMap α) (a : α) : (m.insert a).1.Issued m.nextHandle := by
  refine ⟨Nat.succ_ne_zero _, ?_, ?_⟩
  · rw [length_insert]
    exact Nat.le_max_right _ _
  · rw [generationAt_insert]
    simp [nextHandle]

theorem issued_insert {m : SlotMap α} {h : Handle} (hh : m.Issued h) (hw : m.Unwrapped) (a : α) :
    (m.insert a).1.Issued h := by
  obtain ⟨hid, hlen, hgen⟩ := hh
  refine ⟨hid, ?_, ?_⟩
  · rw [length_insert]
    exact Nat.le_trans hlen (Nat.le_max_left _ _)
  · rw [generationAt_insert]
    split
    · rename_i hi
      rw [hi] at hgen
      simp only [nextHandle, Nat.mod_eq_of_lt hw]
      omega
    · exact hgen

@[simp] theorem length_remove (m : SlotMap α) (h : Handle) :
    (m.remove h).slots.length = m.slots.length := by
  unfold remove
  split <;> simp

theorem freeIds_remove {m : SlotMap α} {h : Handle} (hf : (m.find? h).isSome) :
    (m.remove h).freeIds = m.freeIds ++ [h.id - 1] := by
  rw [remove, dif_pos hf]

@[simp] theorem generationAt_remove (m : SlotMap α) (h : Handle) (i : ℕ) :
    (m.remove h).generationAt i = m.generationAt i := by
  unfold remove
  split
  · rename_i hf
    obtain ⟨a, ha⟩ := Option.isSome_iff_exists.mp hf
    obtain ⟨-, s, hs, hg, -⟩ := find?_eq_some.mp ha
    unfold generationAt
    simp only [List.getElem?_set]
    split
    · rename_i hi
      rw [← hi, hs, ← hg]
      simp [(List.getElem?_eq_some_iff.mp hs).1]
    · rfl
  · rfl

theorem issued_remove {m : SlotMap α} {h : Handle} (hh : m.Issued h) (h' : Handle) :
    (m.remove h').Issued h := by
  simpa [Issued] using hh

theorem issued_mapContents {β : Type*} {m : SlotMap α} {h : Handle} (hh : m.Issued h)
    (f : ℕ → α → β) : (m.mapContents f).Issued h := by
  obtain ⟨hid, hlen, hgen⟩ := hh
  refine ⟨hid, by simpa [mapContents] using hlen, Nat.le_trans hgen (Nat.le_of_eq ?_)⟩
  simp [generationAt, mapContents, Function.comp_def]

/-! ### Occupancy -/

/-- Which handles name an entry, whatever it is. -/
def occupancy (m : SlotMap α) : SlotMap Unit := m.mapContents fun _ _ => ()

theorem occupancy_slots (m : SlotMap α) :
    m.occupancy.slots = m.slots.map fun s => ⟨s.generation, s.content.map fun _ => ()⟩ := by
  refine List.ext_getElem? fun i => ?_
  rw [occupancy, mapContents, List.getElem?_mapIdx, List.getElem?_map]

@[simp] theorem next_occupancy (m : SlotMap α) : m.occupancy.next = m.next := by
  simp [next, occupancy, mapContents]

@[simp] theorem generationAt_occupancy (m : SlotMap α) (i : ℕ) :
    m.occupancy.generationAt i = m.generationAt i := by
  simp [generationAt, occupancy_slots, Function.comp_def]

@[simp] theorem nextHandle_occupancy (m : SlotMap α) : m.occupancy.nextHandle = m.nextHandle := by
  simp [nextHandle]

theorem isSome_find?_occupancy (m : SlotMap α) (h : Handle) :
    (m.occupancy.find? h).isSome = (m.find? h).isSome := by
  rw [occupancy, find?_mapContents, Option.isSome_map]

theorem occupancy_insert (m : SlotMap α) (a : α) :
    (m.insert a).1.occupancy = (m.occupancy.insert ()).1 := by
  have hslots : (m.insert a).1.slots =
      putAt m.slots m.next ⟨m.nextHandle.generation, some a⟩ := rfl
  have hslots' : (m.occupancy.insert ()).1.slots =
      putAt m.occupancy.slots m.next ⟨m.nextHandle.generation, some ()⟩ := by
    rw [← next_occupancy m, ← nextHandle_occupancy m]
    rfl
  refine ext ?_ rfl
  rw [hslots', occupancy_slots, occupancy_slots, hslots, map_putAt]
  rfl

theorem slots_remove {m : SlotMap α} {h : Handle} (hf : (m.find? h).isSome) :
    (m.remove h).slots = m.slots.set (h.id - 1) ⟨h.generation, none⟩ := by
  rw [remove, dif_pos hf]

theorem occupancy_remove (m : SlotMap α) (h : Handle) :
    (m.remove h).occupancy = m.occupancy.remove h := by
  by_cases hf : (m.find? h).isSome
  · have hf' : (m.occupancy.find? h).isSome := by rw [isSome_find?_occupancy, hf]
    refine ext ?_ ?_
    · rw [slots_remove hf', occupancy_slots, occupancy_slots, slots_remove hf, List.map_set]
      rfl
    · rw [freeIds_remove hf']
      exact freeIds_remove hf
  · have hf' : ¬(m.occupancy.find? h).isSome := by rwa [isSome_find?_occupancy]
    rw [remove, remove, dif_neg hf, dif_neg hf']

end SlotMap

end DrmCxx.Lib
