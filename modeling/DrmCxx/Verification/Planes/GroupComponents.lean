import DrmCxx.Lib.StableSort
import DrmCxx.Verification.Planes.Groups
import DrmCxx.Verification.Planes.Stacking
import Mathlib.Data.List.Infix
import Mathlib.Order.MinMax
import Mathlib.Logic.Relation

/-!
# The groups are the connected components

`independent_groups` puts two layers into one group exactly when a chain of overlaps joins them,
and orders the groups by their highest priority.
-/

namespace DrmCxx.Planes

open Relation

/-! ### The loops end -/

section Fuel

variable {parent : List ℕ} {x : ℕ}

theorem findRoot_fuel {fuel fuel' : ℕ} (hd : Descending parent) (h : x ≤ fuel) (h' : x ≤ fuel') :
    findRoot fuel x parent = findRoot fuel' x parent := by
  induction fuel generalizing fuel' x parent with
  | zero =>
    obtain rfl : x = 0 := Nat.le_zero.mp h
    have hroot : upOf parent 0 = 0 := Nat.le_zero.mp (hd 0)
    cases fuel' with
    | zero => rfl
    | succ fuel' => rw [findRoot, findRoot, if_pos hroot]
  | succ fuel ih =>
    cases fuel' with
    | zero =>
      obtain rfl : x = 0 := Nat.le_zero.mp h'
      rw [findRoot, findRoot, if_pos (Nat.le_zero.mp (hd 0))]
    | succ fuel' =>
      rw [findRoot, findRoot]
      split
      · rfl
      · rename_i hx
        have hlt : upOf parent (upOf parent x) < x :=
          lt_of_le_of_lt (hd _) (lt_of_le_of_ne (hd x) hx)
        exact ih (hd.halve hx) (by omega) (by omega)

theorem uniteWithin_eq {fuel i j : ℕ} (hd : Descending parent) (hi : i ≤ fuel) (hj : j ≤ fuel) :
    uniteWithin fuel parent i j = unite parent i j := by
  unfold uniteWithin unite
  rw [findRoot_fuel hd hi (le_refl i)]
  dsimp only
  rw [findRoot_fuel (findRoot_spec i hd (le_refl i)).2.descending hj (le_refl j)]

variable {α : Type} {items : List α} {intersect : α → α → Bool}

/-- With fuel for every item, `find` always reaches the root. -/
theorem connectWithin_eq {fuel : ℕ} (hfuel : items.length ≤ fuel) :
    connectWithin items intersect fuel = connect items intersect := by
  unfold connectWithin connect
  have hpairs : ∀ e ∈ indexPairs items.length, e.1 < items.length ∧ e.2 < items.length := by
    rintro ⟨i, j⟩ he
    obtain ⟨hij, hj⟩ := mem_indexPairs.mp he
    exact ⟨hij.trans hj, hj⟩
  have hd := descending_range items.length
  have hlen : (List.range items.length).length = items.length := List.length_range
  generalize indexPairs items.length = pairs at hpairs
  generalize List.range items.length = parent at hd hlen
  induction pairs generalizing parent with
  | nil => rfl
  | cons e es ih =>
    obtain ⟨hi, hj⟩ := hpairs e List.mem_cons_self
    rw [List.foldl_cons, List.foldl_cons]
    dsimp only
    by_cases ho : overlap items intersect e.1 e.2 = true
    · obtain ⟨hl, hd', -, -⟩ := unite_spec hd (hi.trans_eq hlen.symm) (hj.trans_eq hlen.symm)
      rw [if_pos ho, if_pos ho, uniteWithin_eq hd (by omega) (by omega)]
      exact ih (fun e he => hpairs e (List.mem_cons_of_mem _ he)) _ hd' (hl.trans hlen)
    · rw [if_neg ho, if_neg ho]
      exact ih (fun e he => hpairs e (List.mem_cons_of_mem _ he)) _ hd hlen

end Fuel

/-! ### Roots and chains of overlaps -/

section Chains

variable {α : Type} (items : List α) (intersect : α → α → Bool)

/-- The code compares the items at `i` and `j` and finds that they intersect. -/
def Touches (i j : ℕ) : Prop :=
  i < j ∧ overlap items intersect i j = true ∨ j < i ∧ overlap items intersect j i = true

def Linked : ℕ → ℕ → Prop := ReflTransGen (Touches items intersect)

variable {items intersect}

theorem Touches.symm {i j : ℕ} (h : Touches items intersect i j) : Touches items intersect j i :=
  Or.symm h

theorem Linked.symm {i j : ℕ} (h : Linked items intersect i j) : Linked items intersect j i := by
  induction h with
  | refl => exact .refl
  | tail _ hstep ih => exact .head hstep.symm ih

/-- Every item is linked to its root. -/
def RootsLinked (items : List α) (intersect : α → α → Bool) (parent : List ℕ) : Prop :=
  ∀ x r, RootOf parent x r → Linked items intersect x r

theorem SameRoots.rootOf_iff {parent parent' : List ℕ} (h : SameRoots parent parent')
    (hd : Descending parent) {x r : ℕ} : RootOf parent' x r ↔ RootOf parent x r := by
  refine ⟨fun h' => ?_, h.roots x r⟩
  obtain ⟨s, hs⟩ := exists_rootOf hd x
  rwa [h'.unique (h.roots x s hs)]

theorem SameRoots.trans {p p' p'' : List ℕ} (h : SameRoots p p') (h' : SameRoots p' p'') :
    SameRoots p p'' :=
  ⟨h'.length.trans h.length, h'.descending, fun y r hr => h'.roots y r (h.roots y r hr)⟩

/-- Uniting two linked items links no others. -/
theorem RootsLinked.unite {parent : List ℕ} (hd : Descending parent)
    (h : RootsLinked items intersect parent) {i j : ℕ} (hi : i < parent.length)
    (hj : j < parent.length) (hij : Linked items intersect i j) :
    RootsLinked items intersect (unite parent i j) := by
  obtain ⟨hri, hsi⟩ := findRoot_spec i hd (le_refl i)
  obtain ⟨hrj, hsj⟩ := findRoot_spec j hsi.descending (le_refl j)
  have hsame := hsi.trans hsj
  intro x r hr
  unfold Planes.unite at hr
  dsimp only at hr
  generalize hfi : findRoot i i parent = fi at *
  generalize hfj : findRoot j j fi.2 = fj at *
  obtain ⟨a, p₁⟩ := fi
  obtain ⟨b, p₂⟩ := fj
  dsimp only at *
  have hkept : ∀ {y s}, RootOf p₂ y s → Linked items intersect y s :=
    fun hs => h _ _ ((hsame.rootOf_iff hd).mp hs)
  split at hr
  · exact hkept hr
  · rename_i hab
    have hia : RootOf parent i a := hri
    have hjb : RootOf parent j b := (hsi.rootOf_iff hd).mp hrj
    have hab' : Linked items intersect a b :=
      ((h i a hia).symm.trans hij).trans (h j b hjb)
    have hroots : ∀ c, c = a ∨ c = b → upOf p₂ c = c := by
      rintro c (rfl | rfl)
      · exact ((hsame.rootOf_iff hd).mpr hia).isRoot
      · exact ((hsame.rootOf_iff hd).mpr hjb).isRoot
    have hale : a ≤ i := hia.le hd
    have hble : b ≤ j := hjb.le hd
    have hlink : Linked items intersect (max a b) (min a b) := by
      rcases Nat.lt_or_gt_of_ne hab with hlt | hlt
      · rw [max_eq_right hlt.le, min_eq_left hlt.le]
        exact hab'.symm
      · rw [max_eq_left hlt.le, min_eq_right hlt.le]
        exact hab'
    obtain ⟨s, hs⟩ := exists_rootOf hsame.descending x
    have hlt : min a b < max a b := by omega
    have hattached := hs.attach hlt
      (by rw [hsame.length]; omega) (hroots _ (by omega)) (hroots _ (by omega))
    rw [hr.unique hattached]
    split
    · rename_i hhi
      exact (hkept hs).trans (hhi ▸ hlink)
    · exact hkept hs

theorem rootsLinked_connect : RootsLinked items intersect (connect items intersect) := by
  unfold connect
  have hpairs : ∀ i j, (i, j) ∈ indexPairs items.length → i < j ∧ j < items.length :=
    fun i j h => mem_indexPairs.mp h
  have hd := descending_range items.length
  have hlen : (List.range items.length).length = items.length := List.length_range
  have hbase : RootsLinked items intersect (List.range items.length) := by
    intro x r hr
    cases hr with
    | root => exact .refl
    | step _ _ hne =>
      have hx := lt_length_of_upOf_ne hne
      rw [upOf, List.getD_eq_getElem?_getD, List.getElem?_range (by simpa using hx)] at hne
      exact absurd rfl hne
  generalize indexPairs items.length = pairs at hpairs
  generalize List.range items.length = parent at hd hlen hbase
  induction pairs generalizing parent with
  | nil => exact hbase
  | cons e es ih =>
    obtain ⟨i, j⟩ := e
    obtain ⟨hij, hj⟩ := hpairs i j List.mem_cons_self
    have hes : ∀ i j, (i, j) ∈ es → i < j ∧ j < items.length :=
      fun i j h => hpairs i j (List.mem_cons_of_mem _ h)
    rw [List.foldl_cons]
    dsimp only
    split
    · rename_i ho
      have hil : i < parent.length := by omega
      have hjl : j < parent.length := by omega
      obtain ⟨hl, hd', -, -⟩ := unite_spec hd hil hjl
      exact ih hes _ hd' (hl.trans hlen)
        (hbase.unite hd hil hjl (.single (.inl ⟨hij, ho⟩)))
    · exact ih hes _ hd hlen hbase

theorem descending_connect : Descending (connect items intersect) :=
  (connect_spec items intersect (indexPairs items.length) (descending_range items.length) (by
    intro i j h
    obtain ⟨hij, hj⟩ := mem_indexPairs.mp h
    rw [List.length_range]
    exact ⟨hij.trans hj, hj⟩)).1

theorem rootOf_groupRoot (i : ℕ) :
    RootOf (connect items intersect) i (groupRoot items intersect i) :=
  (findRoot_spec i descending_connect (le_refl i)).1

theorem groupRoot_of_touches {i j : ℕ} (h : Touches items intersect i j) :
    groupRoot items intersect i = groupRoot items intersect j := by
  have hlt : ∀ {i j}, overlap items intersect i j = true → j < items.length := by
    intro i j ho
    unfold overlap at ho
    split at ho
    · rename_i hj
      exact (List.getElem?_eq_some_iff.mp hj).1
    · cases ho
  rcases h with ⟨hij, ho⟩ | ⟨hji, ho⟩
  · exact groupRoot_eq hij (hlt ho) ho
  · exact (groupRoot_eq hji (hlt ho) ho).symm

/-- Two items have one root exactly when a chain of overlaps joins them. -/
theorem groupRoot_eq_iff {i j : ℕ} :
    groupRoot items intersect i = groupRoot items intersect j ↔ Linked items intersect i j := by
  constructor
  · intro h
    have hi : Linked items intersect i (groupRoot items intersect i) :=
      rootsLinked_connect i _ (rootOf_groupRoot i)
    have hj : Linked items intersect j (groupRoot items intersect j) :=
      rootsLinked_connect j _ (rootOf_groupRoot j)
    exact (h ▸ hi).trans hj.symm
  · intro h
    induction h with
    | refl => rfl
    | tail _ hstep ih => exact ih.trans (groupRoot_of_touches hstep)

theorem groupRoot_le (i : ℕ) : groupRoot items intersect i ≤ i :=
  (rootOf_groupRoot i).le descending_connect

theorem groupRoot_groupRoot (i : ℕ) :
    groupRoot items intersect (groupRoot items intersect i) = groupRoot items intersect i :=
  (rootOf_groupRoot _).unique (.root _ (rootOf_groupRoot i).isRoot)

theorem groupRoot_lt {i : ℕ} (hi : i < items.length) : groupRoot items intersect i < items.length :=
  lt_of_le_of_lt (groupRoot_le i) hi

end Chains

/-! ### The collecting loop -/

section Collect

variable {α : Type} (items : List α) (intersect : α → α → Bool)

/-- The roots of the items walked so far, in order of first appearance. -/
def rootsOf (done : List (α × ℕ)) : List ℕ :=
  (done.map fun e => groupRoot items intersect e.2).eraseDups

def membersOf (done : List (α × ℕ)) (r : ℕ) : List α :=
  done.filterMap fun e => if groupRoot items intersect e.2 = r then some e.1 else none

structure Collected (done : List (α × ℕ)) (g : Grouping α) : Prop where
  sameRoots : SameRoots (connect items intersect) g.parent
  length : g.slot.length = items.length
  slot : ∀ r k, g.slot.getD r none = some k ↔ (rootsOf items intersect done)[k]? = some r
  groups : g.groups = (rootsOf items intersect done).map (membersOf items intersect done)

variable {items intersect} {done : List (α × ℕ)}

theorem eraseDups_concat (l : List ℕ) (a : ℕ) :
    (l ++ [a]).eraseDups = if a ∈ l then l.eraseDups else l.eraseDups ++ [a] := by
  rw [List.eraseDups_append]
  unfold List.removeAll
  by_cases h : a ∈ l <;> simp [h, List.eraseDups_cons]

theorem rootsOf_append (e : α × ℕ) :
    rootsOf items intersect (done ++ [e]) =
      if groupRoot items intersect e.2 ∈ rootsOf items intersect done then
        rootsOf items intersect done
      else rootsOf items intersect done ++ [groupRoot items intersect e.2] := by
  unfold rootsOf
  simp only [List.map_append, List.map_cons, List.map_nil, eraseDups_concat, List.mem_eraseDups]

theorem membersOf_append (e : α × ℕ) (r : ℕ) :
    membersOf items intersect (done ++ [e]) r = membersOf items intersect done r ++
      if groupRoot items intersect e.2 = r then [e.1] else [] := by
  unfold membersOf
  rw [List.filterMap_append]
  split <;> rename_i h <;> simp [h]

theorem membersOf_eq_nil {r : ℕ} (h : r ∉ rootsOf items intersect done) :
    membersOf items intersect done r = [] := by
  refine List.filterMap_eq_nil_iff.mpr fun e he => if_neg ?_
  rintro rfl
  exact h (List.mem_eraseDups.mpr (List.mem_map_of_mem he))

theorem nodup_rootsOf : (rootsOf items intersect done).Nodup := nodup_eraseDups _

/-- The table tells whether a root has been seen, and which group is its. -/
theorem Collected.add {g : Grouping α} (h : Collected items intersect done g) {fuel : ℕ}
    {e : α × ℕ} (he : e.2 < items.length) (hfuel : items.length ≤ fuel) :
    Collected items intersect (done ++ [e]) (g.add fuel e) := by
  obtain ⟨hroot, hsame⟩ := findRoot_spec fuel h.sameRoots.descending (x := e.2) (by omega)
  have hr : (findRoot fuel e.2 g.parent).1 = groupRoot items intersect e.2 :=
    hroot.unique (h.sameRoots.roots _ _ (rootOf_groupRoot e.2))
  have hparent := h.sameRoots.trans hsame
  have hlt : groupRoot items intersect e.2 < g.slot.length := by
    rw [h.length]
    exact groupRoot_lt he
  unfold Grouping.add
  dsimp only
  rw [hr]
  generalize (findRoot fuel e.2 g.parent).2 = parent' at hparent
  cases hslot : g.slot.getD (groupRoot items intersect e.2) none with
  | some k =>
    have hk := (h.slot _ k).mp hslot
    have hmem : groupRoot items intersect e.2 ∈ rootsOf items intersect done :=
      List.mem_of_getElem? hk
    refine ⟨hparent, h.length, ?_, ?_⟩
    · rw [rootsOf_append, if_pos hmem]
      exact h.slot
    · rw [rootsOf_append, if_pos hmem]
      refine List.ext_getElem? fun j => ?_
      rw [List.getElem?_modify, h.groups, List.getElem?_map, List.getElem?_map]
      cases hj : (rootsOf items intersect done)[j]? with
      | none => split <;> rfl
      | some r =>
        have hiff : k = j ↔ groupRoot items intersect e.2 = r := by
          constructor
          · rintro rfl
            exact Option.some.inj (hk.symm.trans hj)
          · rintro rfl
            exact (List.getElem?_inj (List.getElem?_eq_some_iff.mp hk).1 nodup_rootsOf).mp
              (hk.trans hj.symm)
        simp only [Option.map_some, membersOf_append, hiff]
        split <;> simp
  | none =>
    have hmem : groupRoot items intersect e.2 ∉ rootsOf items intersect done := by
      intro hmem
      obtain ⟨k, hk⟩ := List.mem_iff_getElem?.mp hmem
      rw [(h.slot _ k).mpr hk] at hslot
      cases hslot
    refine ⟨hparent, (List.length_set ..).trans h.length, ?_, ?_⟩
    · intro r k
      rw [rootsOf_append, if_neg hmem, h.groups, List.length_map, List.getD_eq_getElem?_getD,
        List.getElem?_set, List.getElem?_append]
      by_cases hrr : groupRoot items intersect e.2 = r
      · subst hrr
        rw [if_pos rfl, if_pos hlt]
        have hnot : (rootsOf items intersect done)[k]? ≠ some (groupRoot items intersect e.2) :=
          fun hk => hmem (List.mem_of_getElem? hk)
        split
        · simp only [Option.getD_some, Option.some.injEq, hnot, iff_false]
          omega
        · rw [List.getElem?_singleton]
          simp only [Option.getD_some, Option.some.injEq]
          split <;> simp <;> omega
      · rw [if_neg hrr, ← List.getD_eq_getElem?_getD, h.slot]
        split
        · rfl
        · rename_i hk
          rw [List.getElem?_eq_none (by omega), List.getElem?_singleton]
          split <;> simp [hrr]
    · change g.groups ++ [[e.1]] = _
      rw [rootsOf_append, if_neg hmem, List.map_append, h.groups]
      congr 1
      · refine List.map_congr_left fun r hr => ?_
        have hne : groupRoot items intersect e.2 ≠ r := by
          rintro rfl
          exact hmem hr
        rw [membersOf_append, if_neg hne, List.append_nil]
      · rw [List.map_singleton, membersOf_append, if_pos rfl, membersOf_eq_nil hmem]
        rfl

theorem collected_foldl {fuel : ℕ} (hfuel : items.length ≤ fuel) (rest : List (α × ℕ))
    (hrest : ∀ e ∈ rest, e.2 < items.length) {g : Grouping α}
    (h : Collected items intersect done g) :
    Collected items intersect (done ++ rest) (rest.foldl (Grouping.add fuel) g) := by
  induction rest generalizing done g with
  | nil => simpa using h
  | cons e rest ih =>
    have hstep := ih (fun e he => hrest e (List.mem_cons_of_mem _ he))
      (h.add (hrest e List.mem_cons_self) hfuel)
    rwa [List.append_assoc] at hstep

/-- The loop collects the items by root. -/
theorem groupingWithin_groups {fuel : ℕ} (hfuel : items.length ≤ fuel) :
    (groupingWithin items intersect fuel).groups = collectGroups items intersect := by
  have hstart : Collected items intersect []
      ⟨connectWithin items intersect fuel, List.replicate items.length none, []⟩ := by
    rw [connectWithin_eq hfuel]
    refine ⟨.refl descending_connect, List.length_replicate, ?_, rfl⟩
    intro r k
    rw [List.getD_eq_getElem?_getD, List.getElem?_replicate]
    split <;> simp [rootsOf]
  have hend := collected_foldl hfuel items.zipIdx
    (fun e he => (List.mem_zipIdx' he).1) hstart
  rw [List.nil_append] at hend
  refine hend.groups.trans ?_
  unfold collectGroups rootsOf
  rw [show (items.zipIdx.map fun e => groupRoot items intersect e.2) =
    (List.range items.length).map (groupRoot items intersect) by
      rw [List.range_eq_range', ← List.zipIdx_map_snd 0 items, List.map_map]
      rfl]
  rfl

end Collect

/-! ### The components -/

/-- The parts are the classes of `linked` on the indices below `n`, each in ascending order. -/
structure IsComponents (linked : ℕ → ℕ → Prop) (n : ℕ) (parts : List (List ℕ)) : Prop where
  perm : parts.flatten.Perm (List.range n)
  nonempty : ∀ p ∈ parts, p ≠ []
  ascending : ∀ p ∈ parts, p.Pairwise (· < ·)
  component : ∀ p ∈ parts, ∀ i ∈ p, ∀ j < n, j ∈ p ↔ linked i j

section Components

variable {α : Type} (items : List α) (intersect : α → α → Bool) (priority : α → ℤ)

/-- The items at the indices. -/
def itemsAt (p : List ℕ) : List α := p.filterMap (items[·]?)

structure IsHighest (p : List ℕ) (k : ℤ) : Prop where
  attained : ∃ a ∈ itemsAt items p, priority a = k
  le : ∀ a ∈ itemsAt items p, priority a ≤ k

/-- The part with the higher highest priority goes first, of two that tie the one whose first member
does. -/
def GoesBefore (p q : List ℕ) : Prop :=
  ∀ k l, IsHighest items priority p k → IsHighest items priority q l →
    l < k ∨ l = k ∧ ∀ i ∈ p.head?, ∀ j ∈ q.head?, i < j

/-- The indices of the items whose root is `r`. -/
def partOf (r : ℕ) : List ℕ :=
  (List.range items.length).filter fun i => groupRoot items intersect i = r

variable {items intersect priority}

theorem mem_partOf {r i : ℕ} :
    i ∈ partOf items intersect r ↔ i < items.length ∧ groupRoot items intersect i = r := by
  simp [partOf]

theorem filterMap_zipIdx (p : ℕ → Bool) (l : List α) :
    (l.zipIdx.filterMap fun e => if p e.2 then some e.1 else none) =
      ((List.range l.length).filter p).filterMap (l[·]?) := by
  induction l using List.reverseRecOn with
  | nil => rfl
  | append_singleton l a ih =>
    have hkept : ((List.range l.length).filter p).filterMap ((l ++ [a])[·]?) =
        ((List.range l.length).filter p).filterMap (l[·]?) := by
      refine List.filterMap_congr fun i hi => ?_
      rw [List.getElem?_append_left (List.mem_range.mp (List.mem_filter.mp hi).1)]
    rw [List.zipIdx_append, List.filterMap_append, ih, List.length_append, List.length_singleton,
      List.range_succ, List.filter_append, List.filterMap_append, hkept]
    cases hp : p l.length <;> simp [hp]

theorem groupOf_eq (r : ℕ) : groupOf items intersect r =
    itemsAt items (partOf items intersect r) := by
  unfold groupOf itemsAt partOf
  rw [← filterMap_zipIdx]
  simp only [decide_eq_true_eq]

/-- The roots in order of their first members: each is its own first member. -/
theorem roots_eq (n : ℕ) :
    ((List.range n).map (groupRoot items intersect)).eraseDups =
      (List.range n).filter fun i => groupRoot items intersect i = i := by
  induction n with
  | zero => rfl
  | succ n ih =>
    rw [List.range_succ, List.map_append, List.map_singleton, eraseDups_concat, ih,
      List.filter_append, List.filter_singleton]
    have hiff : groupRoot items intersect n ∈ (List.range n).map (groupRoot items intersect) ↔
        ¬ groupRoot items intersect n = n := by
      constructor
      · intro h heq
        obtain ⟨i, hi, hri⟩ := List.mem_map.mp h
        have : groupRoot items intersect i ≤ i := groupRoot_le i
        rw [List.mem_range] at hi
        omega
      · intro hne
        refine List.mem_map.mpr ⟨_, ?_, groupRoot_groupRoot n⟩
        exact List.mem_range.mpr (lt_of_le_of_ne (groupRoot_le n) hne)
    simp only [hiff]
    by_cases h : groupRoot items intersect n = n <;> simp [h]

variable (items intersect) in
def roots : List ℕ := (List.range items.length).filter fun i => groupRoot items intersect i = i

theorem mem_roots {r : ℕ} :
    r ∈ roots items intersect ↔ r < items.length ∧ groupRoot items intersect r = r := by
  simp [roots]

theorem head?_partOf {r : ℕ} (hr : r ∈ roots items intersect) :
    (partOf items intersect r).head? = some r := by
  obtain ⟨hlt, hroot⟩ := mem_roots.mp hr
  have hmem : r ∈ partOf items intersect r := mem_partOf.mpr ⟨hlt, hroot⟩
  have hsorted : (partOf items intersect r).Pairwise (· < ·) := List.pairwise_lt_range.filter _
  cases hp : partOf items intersect r with
  | nil =>
    rw [hp] at hmem
    cases hmem
  | cons i p =>
    rw [hp] at hmem hsorted
    have hi : groupRoot items intersect i = r :=
      (mem_partOf.mp (hp ▸ List.mem_cons_self : i ∈ partOf items intersect r)).2
    have hle : groupRoot items intersect i ≤ i := groupRoot_le i
    rcases List.mem_cons.mp hmem with rfl | hin
    · rfl
    · have := (List.pairwise_cons.mp hsorted).1 r hin
      omega

/-- The highest priority of a group, as the code folds it. -/
theorem isHighest_groupPriority {p : List ℕ} (hp : itemsAt items p ≠ []) :
    IsHighest items priority p (groupPriority priority (itemsAt items p)) := by
  have hfold : ∀ (l : List α) (k : ℤ),
      (l.foldl (fun best b => max best (priority b)) k = k ∨
        ∃ a ∈ l, priority a = l.foldl (fun best b => max best (priority b)) k) ∧
      k ≤ l.foldl (fun best b => max best (priority b)) k ∧
      ∀ a ∈ l, priority a ≤ l.foldl (fun best b => max best (priority b)) k := by
    intro l
    induction l with
    | nil => simp
    | cons a l ih =>
      intro k
      obtain ⟨hmem, hle, hall⟩ := ih (max k (priority a))
      rw [List.foldl_cons]
      refine ⟨?_, (le_max_left _ _).trans hle, ?_⟩
      · rcases hmem with heq | ⟨b, hb, heq⟩
        · rcases max_choice k (priority a) with hmax | hmax
          · exact .inl (heq.trans hmax)
          · exact .inr ⟨a, List.mem_cons_self, (heq.trans hmax).symm⟩
        · exact .inr ⟨b, List.mem_cons_of_mem _ hb, heq⟩
      · intro b hb
        rcases List.mem_cons.mp hb with rfl | hb
        · exact (le_max_right _ _).trans hle
        · exact hall b hb
  cases hitems : itemsAt items p with
  | nil => exact absurd hitems hp
  | cons a l =>
    obtain ⟨hmem, hle, hall⟩ := hfold l (priority a)
    refine ⟨?_, ?_⟩
    · rw [hitems]
      rcases hmem with heq | ⟨b, hb, heq⟩
      · exact ⟨a, List.mem_cons_self, heq.symm⟩
      · exact ⟨b, List.mem_cons_of_mem _ hb, heq⟩
    · rw [hitems]
      intro b hb
      rcases List.mem_cons.mp hb with rfl | hb
      · exact hle
      · exact hall b hb

theorem IsHighest.unique {p : List ℕ} {k l : ℤ} (hk : IsHighest items priority p k)
    (hl : IsHighest items priority p l) : k = l := by
  obtain ⟨a, ha, rfl⟩ := hk.attained
  obtain ⟨b, hb, rfl⟩ := hl.attained
  exact le_antisymm (hl.le a ha) (hk.le b hb)

theorem itemsAt_ne_nil {r : ℕ} (hr : r ∈ roots items intersect) :
    itemsAt items (partOf items intersect r) ≠ [] := by
  obtain ⟨hlt, hroot⟩ := mem_roots.mp hr
  intro hnil
  have := List.filterMap_eq_nil_iff.mp hnil r (mem_partOf.mpr ⟨hlt, hroot⟩)
  rw [List.getElem?_eq_none_iff] at this
  omega

variable (items intersect priority) in
/-- The parts in the order the groups are returned in. -/
def sortedParts : List (List ℕ) :=
  ((roots items intersect).insertionSort fun r s =>
    groupPriority priority (groupOf items intersect r) ≥
      groupPriority priority (groupOf items intersect s)).map (partOf items intersect)

theorem mem_sortedParts {p : List ℕ} :
    p ∈ sortedParts items intersect priority ↔
      ∃ r ∈ roots items intersect, partOf items intersect r = p := by
  unfold sortedParts
  rw [List.mem_map]
  simp only [List.mem_insertionSort]

theorem isComponents_sortedParts :
    IsComponents (Linked items intersect) items.length (sortedParts items intersect priority) := by
  refine ⟨?_, ?_, ?_, ?_⟩
  · have hsort := List.perm_insertionSort (fun r s =>
      groupPriority priority (groupOf items intersect r) ≥
        groupPriority priority (groupOf items intersect s)) (roots items intersect)
    refine ((hsort.map _).flatten).trans ?_
    have hnodup : (roots items intersect).Nodup := List.nodup_range.filter _
    refine (List.perm_ext_iff_of_nodup ?_ List.nodup_range).mpr fun i => ?_
    · refine List.nodup_flatten.mpr ⟨?_, ?_⟩
      · intro p hp
        obtain ⟨r, -, rfl⟩ := List.mem_map.mp hp
        exact List.nodup_range.filter _
      · rw [List.pairwise_map]
        refine hnodup.imp fun {r s} hne i hi hi' => hne ?_
        exact (mem_partOf.mp hi).2.symm.trans (mem_partOf.mp hi').2
    · rw [List.mem_flatten, List.mem_range]
      constructor
      · rintro ⟨p, hp, hi⟩
        obtain ⟨r, -, rfl⟩ := List.mem_map.mp hp
        exact (mem_partOf.mp hi).1
      · intro hi
        refine ⟨_, List.mem_map_of_mem (mem_roots.mpr ⟨groupRoot_lt hi, groupRoot_groupRoot i⟩), ?_⟩
        exact mem_partOf.mpr ⟨hi, rfl⟩
  · intro p hp
    obtain ⟨r, hr, rfl⟩ := mem_sortedParts.mp hp
    exact List.ne_nil_of_mem (mem_partOf.mpr (mem_roots.mp hr))
  · intro p hp
    obtain ⟨r, -, rfl⟩ := mem_sortedParts.mp hp
    exact List.pairwise_lt_range.filter _
  · intro p hp i hi j hj
    obtain ⟨r, -, rfl⟩ := mem_sortedParts.mp hp
    rw [mem_partOf, ← groupRoot_eq_iff, (mem_partOf.mp hi).2]
    exact (and_iff_right hj).trans eq_comm

theorem pairwise_sortedParts :
    (sortedParts items intersect priority).Pairwise (GoesBefore items priority) := by
  unfold sortedParts
  rw [List.pairwise_map]
  have hroots : (roots items intersect).Pairwise (· < ·) := List.pairwise_lt_range.filter _
  refine (Lib.pairwise_insertionSort_stable hroots).imp_of_mem ?_
  intro r s hr hs ⟨hrs, htie⟩ k l hk hl
  rw [List.mem_insertionSort] at hr hs
  rw [groupOf_eq, groupOf_eq] at hrs htie
  obtain rfl := hk.unique (isHighest_groupPriority (itemsAt_ne_nil hr))
  obtain rfl := hl.unique (isHighest_groupPriority (itemsAt_ne_nil hs))
  rcases lt_or_eq_of_le hrs with hlt | heq
  · exact .inl hlt
  · refine .inr ⟨heq, ?_⟩
    rw [head?_partOf hr, head?_partOf hs]
    rintro i ⟨⟩ j ⟨⟩
    exact htie (le_of_eq heq.symm)

theorem independentGroups_eq :
    independentGroups items intersect priority =
      (sortedParts items intersect priority).map (itemsAt items) := by
  unfold independentGroups sortedParts collectGroups
  rw [roots_eq, List.map_map]
  refine (List.map_insertionSort (fun r s =>
    groupPriority priority (groupOf items intersect r) ≥
      groupPriority priority (groupOf items intersect s)) _ (groupOf items intersect) _
    fun _ _ _ _ => Iff.rfl).symm.trans ?_
  exact List.map_congr_left fun r _ => groupOf_eq r

/-- The loops give the same groups however much fuel they have left. -/
theorem independentGroupsWithin_eq (extra : ℕ) :
    independentGroupsWithin items intersect priority (items.length + extra) =
      independentGroups items intersect priority := by
  unfold independentGroupsWithin independentGroups
  rw [groupingWithin_groups (Nat.le_add_right _ _)]

end Components

/-! ### Layers -/

section Layers

variable (heap : Heap) (layers : List LayerId)

/-- `split_independent_groups`. -/
def splitIndependentGroups (fuel : ℕ) : List (List LayerId) :=
  if layers.isEmpty then []
  else
    independentGroupsWithin layers (fun a b => layersIntersect (heap a) (heap b))
      (fun l => keepPriority (heap l)) fuel

/-- The layers at two places of the list overlap. -/
def LayersOverlap (i j : ℕ) : Prop :=
  ∃ a ∈ layers[i]?, ∃ b ∈ layers[j]?, layersIntersect (heap a) (heap b) = true

variable {heap layers}

theorem overlap_eq_true {i j : ℕ} :
    overlap layers (fun a b => layersIntersect (heap a) (heap b)) i j = true ↔
      LayersOverlap heap layers i j := by
  unfold overlap LayersOverlap
  cases layers[i]? <;> cases layers[j]? <;> simp

theorem LayersOverlap.symm {i j : ℕ} (h : LayersOverlap heap layers i j) :
    LayersOverlap heap layers j i := by
  obtain ⟨a, ha, b, hb, hab⟩ := h
  exact ⟨b, hb, a, ha, (layersIntersect_comm _ _).trans hab⟩

/-- Overlaps are the same whichever layer is compared with the other. -/
theorem linked_iff {i j : ℕ} :
    Linked layers (fun a b => layersIntersect (heap a) (heap b)) i j ↔
      ReflTransGen (LayersOverlap heap layers) i j := by
  constructor
  · intro h
    induction h with
    | refl => exact .refl
    | tail _ hij ih =>
      rcases hij with ⟨-, ho⟩ | ⟨-, ho⟩
      · exact ih.tail (overlap_eq_true.mp ho)
      · exact ih.tail (overlap_eq_true.mp ho).symm
  · intro h
    induction h with
    | refl => exact .refl
    | tail _ hij ih =>
      rename_i i' j' _
      rcases Nat.lt_trichotomy i' j' with hlt | rfl | hlt
      · exact ih.tail (.inl ⟨hlt, overlap_eq_true.mpr hij⟩)
      · exact ih
      · exact ih.tail (.inr ⟨hlt, overlap_eq_true.mpr hij.symm⟩)

/-- The groups are the connected components of the overlaps, by highest priority. -/
theorem splitIndependentGroups_components (heap : Heap) (layers : List LayerId) :
    ∃ parts, IsComponents (ReflTransGen (LayersOverlap heap layers)) layers.length parts ∧
      parts.Pairwise (GoesBefore layers fun l => keepPriority (heap l)) ∧
      ∀ extra, splitIndependentGroups heap layers (layers.length + extra) =
        parts.map (itemsAt layers) := by
  refine ⟨sortedParts layers (fun a b => layersIntersect (heap a) (heap b))
    fun l => keepPriority (heap l), ?_, pairwise_sortedParts, fun extra => ?_⟩
  · have h : IsComponents (Linked layers fun a b => layersIntersect (heap a) (heap b)) layers.length
        (sortedParts layers (fun a b => layersIntersect (heap a) (heap b))
          fun l => keepPriority (heap l)) := isComponents_sortedParts
    exact ⟨h.perm, h.nonempty, h.ascending, fun p hp i hi j hj =>
      (h.component p hp i hi j hj).trans linked_iff⟩
  · unfold splitIndependentGroups
    rw [independentGroupsWithin_eq, independentGroups_eq]
    split
    · rename_i hnil
      rw [List.isEmpty_iff.mp hnil]
      rfl
    · rfl

end Layers

end DrmCxx.Planes
