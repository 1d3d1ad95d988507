import DrmCxx.Lib.Table

/-!
# Maps edited while they are traversed

A finite map kept in nodes that stay where they are: an insertion puts its node anywhere in the
order of the traversal, an assignment to a key that is there keeps the node. A traversal remembers
the node it has got to.
-/

namespace DrmCxx.Lib

/-! ### What a traversal has still to come to -/

section After

variable {α : Type*} [DecidableEq α]

/-- What comes after `c` in the list; all of it before the first step. -/
def after (l : List α) : Option α → List α
  | none => l
  | some a => (l.dropWhile (· ≠ a)).tail

@[simp] theorem after_none (l : List α) : after l none = l := rfl

@[simp] theorem after_cons_self (a : α) (l : List α) : after (a :: l) (some a) = l := by
  simp [after]

theorem after_cons_of_ne {a b : α} (h : b ≠ a) (l : List α) :
    after (b :: l) (some a) = after l (some a) := by
  simp [after, h]

theorem after_suffix (l : List α) (c : Option α) : after l c <:+ l := by
  cases c with
  | none => exact List.suffix_rfl
  | some a => exact (List.tail_suffix _).trans (List.dropWhile_suffix _)

theorem mem_of_mem_after {l : List α} {c : Option α} {a : α} (h : a ∈ after l c) : a ∈ l :=
  (after_suffix l c).subset h

/-- A step of the traversal takes the first of what is to come. -/
theorem after_next {l : List α} (hl : l.Nodup) {c : Option α} {a : α} {rest : List α}
    (h : after l c = a :: rest) : after l (some a) = rest := by
  obtain ⟨pre, hpre⟩ := h ▸ after_suffix l c
  subst hpre
  have hnot : a ∉ pre := fun ha => (List.nodup_append.mp hl).2.2 a ha a List.mem_cons_self rfl
  clear h hl
  induction pre with
  | nil => exact after_cons_self a rest
  | cons b pre ih =>
    rw [List.mem_cons, not_or] at hnot
    rw [List.cons_append, after_cons_of_ne (Ne.symm hnot.1)]
    exact ih hnot.2

/-- Insertions and removals do not change what of the rest is still to come. -/
theorem mem_after_iff_of_sublist {l l' : List α} (h : List.Sublist l l') (hl : l'.Nodup)
    {c : Option α} (hc : ∀ a ∈ c, a ∈ l) {b : α} (hb : b ∈ l) :
    b ∈ after l c ↔ b ∈ after l' c := by
  cases c with
  | none => exact ⟨fun _ => h.subset hb, fun _ => hb⟩
  | some a =>
    replace hc : a ∈ l := hc a rfl
    induction h with
    | slnil => rfl
    | @cons l l' x h ih =>
      obtain ⟨hx, hl⟩ := List.nodup_cons.mp hl
      rw [after_cons_of_ne (by rintro rfl; exact hx (h.subset hc))]
      exact ih hl hb hc
    | @cons_cons l l' x h ih =>
      obtain ⟨hx, hl⟩ := List.nodup_cons.mp hl
      by_cases ha : x = a
      · subst ha
        rw [after_cons_self, after_cons_self]
        rcases List.mem_cons.mp hb with rfl | hb
        · exact ⟨fun hmem => absurd (h.subset hmem) hx, fun hmem => absurd hmem hx⟩
        · exact ⟨fun _ => h.subset hb, fun _ => hb⟩
      · rw [after_cons_of_ne ha, after_cons_of_ne ha]
        rcases List.mem_cons.mp hb with rfl | hb
        · exact ⟨fun hmem => absurd (h.subset (mem_of_mem_after hmem)) hx,
            fun hmem => absurd (mem_of_mem_after hmem) hx⟩
        · exact ih hl hb ((List.mem_cons.mp hc).resolve_left (Ne.symm ha))

end After

/-! ### The map -/

structure Node (κ α : Type*) where
  /-- Where the node is. -/
  node : ℕ
  key : κ
  value : α
  deriving DecidableEq, Repr

/-- Entries in the order of the traversal; `next` is where the next node will be. -/
structure NodeMap (κ α : Type*) where
  entries : List (Node κ α)
  next : ℕ
  nodup_keys : (entries.map (·.key)).Nodup
  nodup_nodes : (entries.map (·.node)).Nodup
  node_lt : ∀ e ∈ entries, e.node < next

namespace NodeMap

variable {κ α : Type*}

def empty : NodeMap κ α := ⟨[], 0, List.nodup_nil, List.nodup_nil, nofun⟩

def nodes (m : NodeMap κ α) : List ℕ := m.entries.map (·.node)

theorem node_lt_next {m : NodeMap κ α} {n : ℕ} (h : n ∈ m.nodes) : n < m.next := by
  obtain ⟨e, he, rfl⟩ := List.mem_map.mp h
  exact m.node_lt e he

/-- The entries a traversal that has got to `c` has still to come to. -/
def rest (m : NodeMap κ α) : Option ℕ → List (Node κ α)
  | none => m.entries
  | some n => (m.entries.dropWhile (·.node ≠ n)).tail

theorem map_node_rest (m : NodeMap κ α) (c : Option ℕ) :
    (m.rest c).map (·.node) = after m.nodes c := by
  cases c with
  | none => rfl
  | some n =>
    rw [rest, after, nodes, List.dropWhile_map, List.map_tail]
    rfl

theorem mem_of_mem_rest {m : NodeMap κ α} {c : Option ℕ} {e : Node κ α} (h : e ∈ m.rest c) :
    e ∈ m.entries := by
  cases c with
  | none => exact h
  | some n => exact (List.dropWhile_suffix _).subset (List.mem_of_mem_tail h)

section Keyed

variable [DecidableEq κ]

def find? (m : NodeMap κ α) (k : κ) : Option (Node κ α) := m.entries.find? (·.key = k)

def get (m : NodeMap κ α) (k : κ) : Option α := (m.find? k).map (·.value)

theorem find?_eq_some {m : NodeMap κ α} {k : κ} {e : Node κ α} :
    m.find? k = some e ↔ e ∈ m.entries ∧ e.key = k := by
  constructor
  · exact fun h => ⟨List.mem_of_find?_eq_some h, by simpa using List.find?_some h⟩
  · rintro ⟨he, rfl⟩
    exact find?_of_nodup_map m.nodup_keys he

theorem find?_eq_none {m : NodeMap κ α} {k : κ} :
    m.find? k = none ↔ ∀ e ∈ m.entries, e.key ≠ k := by
  simp [find?, List.find?_eq_none]

theorem get_eq_some {m : NodeMap κ α} {k : κ} {v : α} :
    m.get k = some v ↔ ∃ e ∈ m.entries, e.key = k ∧ e.value = v := by
  rw [get, Option.map_eq_some_iff]
  exact ⟨fun ⟨e, he, hv⟩ => ⟨e, (find?_eq_some.mp he).1, (find?_eq_some.mp he).2, hv⟩,
    fun ⟨e, he, hk, hv⟩ => ⟨e, find?_eq_some.mpr ⟨he, hk⟩, hv⟩⟩

/-- Sets the value of a key that is there. -/
def set (m : NodeMap κ α) (k : κ) (v : α) : NodeMap κ α where
  entries := m.entries.map fun e => if e.key = k then { e with value := v } else e
  next := m.next
  nodup_keys := by
    convert m.nodup_keys using 1
    rw [List.map_map]
    refine List.map_congr_left fun e _ => ?_
    simp only [Function.comp_apply]
    split <;> rfl
  nodup_nodes := by
    convert m.nodup_nodes using 1
    rw [List.map_map]
    refine List.map_congr_left fun e _ => ?_
    simp only [Function.comp_apply]
    split <;> rfl
  node_lt e' he' := by
    obtain ⟨e, he, rfl⟩ := List.mem_map.mp he'
    have := m.node_lt e he
    split <;> exact this

/-- Puts a key that is not there in a new node, after the first `slot` entries. -/
def insert (m : NodeMap κ α) (k : κ) (v : α) (slot : ℕ) (h : m.find? k = none) :
    NodeMap κ α where
  entries := m.entries.take slot ++ ⟨m.next, k, v⟩ :: m.entries.drop slot
  next := m.next + 1
  nodup_keys := by
    rw [(List.perm_middle.map _).nodup_iff, List.take_append_drop, List.map_cons, List.nodup_cons]
    refine ⟨fun hk => ?_, m.nodup_keys⟩
    obtain ⟨e, he, hk⟩ := List.mem_map.mp hk
    exact find?_eq_none.mp h e he hk
  nodup_nodes := by
    rw [(List.perm_middle.map _).nodup_iff, List.take_append_drop, List.map_cons, List.nodup_cons]
    refine ⟨fun hn => ?_, m.nodup_nodes⟩
    exact absurd (node_lt_next hn) (Nat.lt_irrefl _)
  node_lt e he := by
    rw [List.perm_middle.mem_iff, List.take_append_drop, List.mem_cons] at he
    rcases he with rfl | he
    · exact Nat.lt_succ_self _
    · exact Nat.lt_succ_of_lt (m.node_lt e he)

/-- `m[k] = v`; a new node goes after the first `slot` entries. -/
def assign (m : NodeMap κ α) (k : κ) (v : α) (slot : ℕ) : NodeMap κ α :=
  if h : m.find? k = none then m.insert k v slot h else m.set k v

def erase (m : NodeMap κ α) (k : κ) : NodeMap κ α where
  entries := m.entries.filter (·.key ≠ k)
  next := m.next
  nodup_keys := m.nodup_keys.sublist (List.filter_sublist.map _)
  nodup_nodes := m.nodup_nodes.sublist (List.filter_sublist.map _)
  node_lt e he := m.node_lt e (List.mem_of_mem_filter he)

theorem mem_set {m : NodeMap κ α} {k : κ} {v : α} {e : Node κ α} :
    e ∈ (m.set k v).entries ↔
      e ∈ m.entries ∧ e.key ≠ k ∨ ∃ d ∈ m.entries, d.key = k ∧ e = { d with value := v } := by
  rw [set, List.mem_map]
  constructor
  · rintro ⟨d, hd, rfl⟩
    by_cases hk : d.key = k
    · exact .inr ⟨d, hd, hk, by simp [hk]⟩
    · exact .inl ⟨by simpa [hk] using hd, by simp [hk]⟩
  · rintro (⟨he, hk⟩ | ⟨d, hd, hk, rfl⟩)
    · exact ⟨e, he, by simp [hk]⟩
    · exact ⟨d, hd, by simp [hk]⟩

theorem mem_insert {m : NodeMap κ α} {k : κ} {v : α} {slot : ℕ} {h : m.find? k = none}
    {e : Node κ α} : e ∈ (m.insert k v slot h).entries ↔ e = ⟨m.next, k, v⟩ ∨ e ∈ m.entries := by
  rw [insert, List.perm_middle.mem_iff, List.take_append_drop, List.mem_cons]

theorem nodes_set (m : NodeMap κ α) (k : κ) (v : α) : (m.set k v).nodes = m.nodes := by
  rw [nodes, nodes, set, List.map_map]
  refine List.map_congr_left fun e _ => ?_
  simp only [Function.comp_apply]
  split <;> rfl

theorem get_set {m : NodeMap κ α} {k : κ} (h : m.find? k ≠ none) (v : α) (k' : κ) :
    (m.set k v).get k' = if k' = k then some v else m.get k' := by
  ext w
  rw [get_eq_some]
  simp only [mem_set]
  by_cases hk : k' = k
  · subst hk
    rw [if_pos rfl, Option.some_inj]
    constructor
    · rintro ⟨e, ⟨-, hne⟩ | ⟨d, -, -, rfl⟩, hkey, rfl⟩
      · exact absurd hkey hne
      · rfl
    · rintro rfl
      obtain ⟨d, hd⟩ := Option.ne_none_iff_exists'.mp h
      obtain ⟨hmem, hkey⟩ := find?_eq_some.mp hd
      exact ⟨_, .inr ⟨d, hmem, hkey, rfl⟩, hkey, rfl⟩
  · rw [if_neg hk, get_eq_some]
    constructor
    · rintro ⟨e, ⟨he, -⟩ | ⟨d, -, hd, rfl⟩, hkey, hv⟩
      · exact ⟨e, he, hkey, hv⟩
      · exact absurd (hkey.symm.trans hd) hk
    · rintro ⟨e, he, hkey, hv⟩
      exact ⟨e, .inl ⟨he, hkey ▸ hk⟩, hkey, hv⟩

theorem get_insert {m : NodeMap κ α} {k : κ} (h : m.find? k = none) (v : α) (slot : ℕ) (k' : κ) :
    (m.insert k v slot h).get k' = if k' = k then some v else m.get k' := by
  ext w
  rw [get_eq_some]
  simp only [mem_insert]
  by_cases hk : k' = k
  · subst hk
    rw [if_pos rfl, Option.some_inj]
    constructor
    · rintro ⟨e, rfl | he, hkey, rfl⟩
      · rfl
      · exact absurd hkey (find?_eq_none.mp h e he)
    · rintro rfl
      exact ⟨_, .inl rfl, rfl, rfl⟩
  · rw [if_neg hk, get_eq_some]
    constructor
    · rintro ⟨e, rfl | he, hkey, hv⟩
      · exact absurd hkey.symm hk
      · exact ⟨e, he, hkey, hv⟩
    · rintro ⟨e, he, hkey, hv⟩
      exact ⟨e, .inr he, hkey, hv⟩

theorem get_assign (m : NodeMap κ α) (k : κ) (v : α) (slot : ℕ) (k' : κ) :
    (m.assign k v slot).get k' = if k' = k then some v else m.get k' := by
  rw [assign]
  split
  · exact get_insert _ v slot k'
  · rename_i h
    exact get_set h v k'

theorem get_erase (m : NodeMap κ α) (k k' : κ) :
    (m.erase k).get k' = if k' = k then none else m.get k' := by
  have hmem : ∀ e, e ∈ (m.erase k).entries ↔ e ∈ m.entries ∧ e.key ≠ k := fun e => by
    simp [erase]
  ext w
  rw [get_eq_some]
  simp only [hmem]
  by_cases hk : k' = k
  · subst hk
    rw [if_pos rfl]
    exact ⟨fun ⟨e, ⟨_, hne⟩, hkey, _⟩ => absurd hkey hne, nofun⟩
  · rw [if_neg hk, get_eq_some]
    exact ⟨fun ⟨e, he, hkey, hv⟩ => ⟨e, he.1, hkey, hv⟩,
      fun ⟨e, he, hkey, hv⟩ => ⟨e, ⟨he, hkey ▸ hk⟩, hkey, hv⟩⟩

/-! ### Nodes stay -/

theorem nodes_assign_sublist (m : NodeMap κ α) (k : κ) (v : α) (slot : ℕ) :
    m.nodes.Sublist (m.assign k v slot).nodes := by
  rw [assign]
  split
  · rw [nodes, nodes, insert]
    refine List.Sublist.map _ ?_
    conv_lhs => rw [← List.take_append_drop slot m.entries]
    exact (List.Sublist.refl _).append (List.sublist_cons_self _ _)
  · rw [nodes_set]

/-- A node that is new after an assignment is where none was. -/
theorem mem_nodes_of_assign {m : NodeMap κ α} {k : κ} {v : α} {slot n : ℕ}
    (h : n ∈ (m.assign k v slot).nodes) (hn : n < m.next) : n ∈ m.nodes := by
  rw [assign] at h
  split at h
  · obtain ⟨e, he, rfl⟩ := List.mem_map.mp h
    rcases mem_insert.mp he with rfl | he
    · exact absurd hn (Nat.lt_irrefl _)
    · exact List.mem_map_of_mem he
  · rwa [nodes_set] at h

theorem next_le_assign (m : NodeMap κ α) (k : κ) (v : α) (slot : ℕ) :
    m.next ≤ (m.assign k v slot).next := by
  rw [assign]
  split
  · exact Nat.le_succ _
  · exact Nat.le_refl _

theorem nodes_erase_sublist (m : NodeMap κ α) (k : κ) :
    (m.erase k).nodes.Sublist m.nodes :=
  List.filter_sublist.map _

theorem mem_nodes_erase {m : NodeMap κ α} {k : κ} {n : ℕ} (hn : n ∈ m.nodes)
    (h : ∀ e ∈ m.entries, e.key = k → e.node ≠ n) : n ∈ (m.erase k).nodes := by
  obtain ⟨e, he, rfl⟩ := List.mem_map.mp hn
  exact List.mem_map_of_mem (List.mem_filter.mpr ⟨he, by simpa using fun hk => h e he hk rfl⟩)

end Keyed

end NodeMap

end DrmCxx.Lib
