import DrmCxx.Lib.Greedy
import DrmCxx.Lib.StableSort
import DrmCxx.Planes.ZposOrder
import Mathlib.Data.List.Nodup
import Mathlib.Data.Prod.Lex

/-!
# The dense zpos numbering

`stack_zpos` gives each plane the least zpos it can have above the planes stacked under it, and
succeeds exactly when the ranges of the planes allow any numbering in stacking order.
-/

namespace DrmCxx.Planes

open DrmCxx.Lib

/-! ### The stacking order -/

/-- `a` stacks below `b`: by requested zpos, then the entries below ties, then the plane id. Entries
that agree in all three stack in the order given. -/
def Rankable.before (a b : Rankable) : Prop :=
  a.requested.toNat < b.requested.toNat ∨ a.requested = b.requested ∧
    (a.afterTies = false ∧ b.afterTies = true ∨ a.afterTies = b.afterTies ∧
      (a.planeId < b.planeId ∨ a.planeId = b.planeId ∧ a.index < b.index))

/-- The entries that have a plane with a zpos range and a requested zpos, in the order given. -/
def rankables (entries : List StackEntry) : List Rankable :=
  entries.zipIdx.filterMap fun (e, i) => e.rankable i

/-- The zpos values `w`, by entry index, lie in the planes' ranges and rise in stacking order. -/
structure IsNumbering (entries : List StackEntry) (w : ℕ → UInt64) : Prop where
  inRange : ∀ r ∈ rankables entries, r.zmin ≤ w r.index ∧ w r.index ≤ r.zmax
  rises : ∀ r ∈ rankables entries, ∀ s ∈ rankables entries,
    r.before s → w r.index < w s.index

namespace Rankable

variable {a b c : Rankable}

theorem le_iff : a.le b = true ↔ a.requested.toNat < b.requested.toNat ∨
    a.requested = b.requested ∧ (a.afterTies = false ∧ b.afterTies = true ∨
      a.afterTies = b.afterTies ∧ a.planeId ≤ b.planeId) := by
  simp [le, UInt64.lt_iff_toNat_lt]

theorem before_of_le (h : a.le b = true) (hi : a.index < b.index) : a.before b := by
  rcases le_iff.mp h with h | ⟨hr, h | ⟨ht, hp⟩⟩
  · exact .inl h
  · exact .inr ⟨hr, .inl h⟩
  · exact .inr ⟨hr, .inr ⟨ht, (Nat.lt_or_eq_of_le hp).imp_right fun hp => ⟨hp, hi⟩⟩⟩

theorem before_of_not_le (h : ¬ a.le b = true) : b.before a := by
  rw [le_iff, not_or, not_and] at h
  rcases Nat.lt_or_eq_of_le (Nat.le_of_not_lt h.1) with hlt | heq
  · exact .inl hlt
  · have hr := UInt64.toNat_inj.mp heq
    obtain ⟨htie, hid⟩ := not_or.mp (h.2 hr.symm)
    refine .inr ⟨hr, ?_⟩
    by_cases ht : a.afterTies = b.afterTies
    · exact .inr ⟨ht.symm, .inl (Nat.lt_of_not_le fun hle => hid ⟨ht, hle⟩)⟩
    · cases ha : a.afterTies <;> cases hb : b.afterTies <;> simp [ha, hb] at ht htie ⊢

theorem before_trans (h : a.before b) (h' : b.before c) : a.before c := by
  unfold before at *
  rcases h with h | ⟨hr, h⟩
  · rcases h' with h' | ⟨hr', -⟩
    · exact .inl (h.trans h')
    · exact .inl (hr' ▸ h)
  · rcases h' with h' | ⟨hr', h'⟩
    · exact .inl (hr ▸ h')
    · refine .inr ⟨hr.trans hr', ?_⟩
      rcases h with ⟨ha, hb⟩ | ⟨hab, h⟩
      · rcases h' with ⟨hb', -⟩ | ⟨hbc, -⟩
        · exact absurd (hb.symm.trans hb') (by simp)
        · exact .inl ⟨ha, hbc ▸ hb⟩
      · rcases h' with ⟨hb', hc⟩ | ⟨hbc, h'⟩
        · exact .inl ⟨hab.trans hb', hc⟩
        · refine .inr ⟨hab.trans hbc, ?_⟩
          rcases h with h | ⟨hp, hi⟩
          · exact .inl (h'.elim (Nat.lt_trans h) fun h' => h'.1 ▸ h)
          · exact h'.imp (fun h' => hp ▸ h') fun h' => ⟨hp.trans h'.1, Nat.lt_trans hi h'.2⟩

theorem before_irrefl : ¬ a.before a := by
  rintro (h | ⟨-, ⟨hf, ht⟩ | ⟨-, h | ⟨-, h⟩⟩⟩)
  · exact lt_irrefl _ h
  · exact absurd (hf.symm.trans ht) (by simp)
  · exact lt_irrefl _ h
  · exact lt_irrefl _ h

/-- What entries are sorted by. -/
def key (a : Rankable) : ℕ ×ₗ Bool ×ₗ ℕ :=
  toLex (a.requested.toNat, toLex (a.afterTies, a.planeId))

theorem le_iff_key : a.le b = true ↔ a.key ≤ b.key := by
  rw [le_iff, key, key, Prod.Lex.toLex_le_toLex, Prod.Lex.toLex_le_toLex, UInt64.toNat_inj,
    Bool.lt_iff]

/-- Entries that tie in the sort stay in the order they were given. -/
theorem pairwise_insertionSort {l : List Rankable} (h : l.Pairwise fun a b => a.index < b.index) :
    (l.insertionSort fun a b => a.le b = true).Pairwise before := by
  have htotal : Std.Total fun a b : Rankable => a.le b = true := ⟨fun a b => by
    rw [le_iff_key, le_iff_key]
    exact le_total a.key b.key⟩
  have htrans : IsTrans Rankable fun a b => a.le b = true := ⟨fun a b c hab hbc =>
    le_iff_key.mpr ((le_iff_key.mp hab).trans (le_iff_key.mp hbc))⟩
  refine (Lib.pairwise_insertionSort_stable h).imp fun {a b} ⟨hle, htie⟩ => ?_
  by_cases hge : b.le a = true
  · exact before_of_le hle (htie hge)
  · exact before_of_not_le hge

end Rankable

/-! ### The entries that are numbered -/

theorem rankable_eq_some {e : StackEntry} {i : ℕ} {r : Rankable} (h : e.rankable i = some r) :
    ∃ p, e.plane = some p ∧ e.requested = some r.requested ∧ p.zposMin = some r.zmin ∧
      p.zposMax = some r.zmax ∧ r.index = i ∧ r.afterTies = (!e.belowTies) ∧ r.planeId = p.id ∧
      r.fixed = decide (r.zmin = r.zmax) := by
  unfold StackEntry.rankable at h
  split at h
  · rename_i p z hp hz
    split at h
    · rename_i lo hi hlo hhi
      cases h
      exact ⟨p, hp, hz, hlo, hhi, rfl, rfl, rfl, rfl⟩
    · cases h
  · cases h

theorem mem_rankables {entries : List StackEntry} {r : Rankable} :
    r ∈ rankables entries ↔ ∃ e, entries[r.index]? = some e ∧ e.rankable r.index = some r := by
  rw [rankables, List.mem_filterMap]
  constructor
  · rintro ⟨⟨e, i⟩, hmem, h⟩
    obtain ⟨-, -, -, -, -, hi, -⟩ := rankable_eq_some h
    subst hi
    exact ⟨e, List.mem_zipIdx_iff_getElem?.mp hmem, h⟩
  · rintro ⟨e, he, h⟩
    exact ⟨(e, r.index), List.mem_zipIdx_iff_getElem?.mpr he, h⟩

theorem pairwise_rankables (entries : List StackEntry) :
    (rankables entries).Pairwise fun a b => a.index < b.index := by
  have hsnd : (entries.zipIdx.map Prod.snd).Pairwise (· < ·) := by
    rw [List.zipIdx_map_snd]
    exact List.pairwise_lt_range'
  rw [rankables, List.pairwise_filterMap]
  refine (List.pairwise_map.mp hsnd).imp ?_
  intro x y hlt r hr s hs
  obtain ⟨-, -, -, -, -, hi, -⟩ := rankable_eq_some hr
  obtain ⟨-, -, -, -, -, hj, -⟩ := rankable_eq_some hs
  rw [hi, hj]
  exact hlt

/-- The entries in the order `stack_zpos` numbers them. -/
def stackOrder (entries : List StackEntry) : List Rankable :=
  (rankables entries).insertionSort fun a b => a.le b = true

theorem mem_stackOrder {entries : List StackEntry} {r : Rankable} :
    r ∈ stackOrder entries ↔ r ∈ rankables entries :=
  (List.perm_insertionSort _ _).mem_iff

theorem pairwise_stackOrder (entries : List StackEntry) :
    (stackOrder entries).Pairwise Rankable.before :=
  Rankable.pairwise_insertionSort (pairwise_rankables entries)

theorem nodup_stackOrder_index (entries : List StackEntry) :
    ((stackOrder entries).map Rankable.index).Nodup := by
  have hperm : ((stackOrder entries).map Rankable.index).Perm
      ((rankables entries).map Rankable.index) := (List.perm_insertionSort _ _).map _
  rw [hperm.nodup_iff]
  exact List.pairwise_map.mpr ((pairwise_rankables entries).imp Nat.ne_of_lt)

/-! ### The greedy values -/

/-- A value in the plane's range. -/
def Rankable.Admits (r : Rankable) (v : UInt64) : Prop := r.zmin ≤ v ∧ v ≤ r.zmax

/-- Along the order the code sorts into, a numbering is one whose values rise. -/
theorem rises_iff {entries : List StackEntry} {w : ℕ → UInt64} :
    Greedy.Rises Rankable.Admits none (stackOrder entries)
      ((stackOrder entries).map fun r => w r.index) ↔ IsNumbering entries w := by
  rw [Greedy.rises_map_iff UInt64.lt_trans]
  have hsorted := pairwise_stackOrder entries
  constructor
  · rintro ⟨hrange, hpair⟩
    refine ⟨fun r hr => (hrange r (mem_stackOrder.mpr hr)).1, ?_⟩
    intro r hr s hs hrs
    obtain ⟨i, hi, rfl⟩ := List.getElem_of_mem (mem_stackOrder.mpr hr)
    obtain ⟨j, hj, rfl⟩ := List.getElem_of_mem (mem_stackOrder.mpr hs)
    rcases Nat.lt_trichotomy i j with hij | rfl | hij
    · exact List.pairwise_iff_getElem.mp hpair i j hi hj hij
    · exact absurd hrs Rankable.before_irrefl
    · have hsr := List.pairwise_iff_getElem.mp hsorted j i hj hi hij
      exact absurd (Rankable.before_trans hrs hsr) Rankable.before_irrefl
  · rintro ⟨hrange, hrises⟩
    refine ⟨fun r hr => ⟨hrange r (mem_stackOrder.mp hr), by simp⟩, ?_⟩
    refine hsorted.imp_of_mem ?_
    intro r s hr hs hrs
    exact hrises r (mem_stackOrder.mp hr) s (mem_stackOrder.mp hs) hrs

theorem numberStack_eq (prev : Option UInt64) (rs : List Rankable) :
    numberStack prev rs = (Greedy.number nextZpos prev rs).map (rs.map (·.index)).zip := by
  induction rs generalizing prev with
  | nil => rfl
  | cons r rs ih =>
    rw [numberStack, Greedy.number]
    cases nextZpos prev r with
    | none => rfl
    | some v =>
      simp only [Option.bind_some, ih, Option.map_map]
      rfl

/-- `std::max(*prev + 1, r.zmin)` does not wrap while there is room above the last value. -/
theorem toNat_max_succ {p z : UInt64} (hp : p.toNat < 2 ^ 64 - 1) :
    (max (p + 1) z).toNat = max (p.toNat + 1) z.toNat := by
  have hsucc : (p + 1).toNat = p.toNat + 1 := by
    rw [UInt64.toNat_add]
    exact Nat.mod_eq_of_lt (by simpa using by omega)
  rw [show max (p + 1) z = if p + 1 ≤ z then z else p + 1 from rfl]
  split
  · rename_i h
    rw [UInt64.le_iff_toNat_le, hsucc] at h
    omega
  · rename_i h
    rw [UInt64.le_iff_toNat_le, hsucc] at h
    omega

/-- The value taken: the fixed slot, or the first value above the last one. -/
theorem nextZpos_eq_some {r : Rankable} {p v : UInt64} (hp : p.toNat < 2 ^ 64 - 1) :
    nextZpos (some p) r = some v ↔ v ≤ r.zmax ∧
      if r.fixed then p < r.zmin ∧ v = r.zmin
      else v.toNat = max (p.toNat + 1) r.zmin.toNat := by
  have hle : ¬ r.zmin ≤ p ↔ p < r.zmin := by
    rw [UInt64.le_iff_toNat_le, UInt64.lt_iff_toNat_lt]
    exact Nat.not_le
  unfold nextZpos
  dsimp only
  rw [Option.filter_eq_some_iff, decide_eq_true_eq, and_comm]
  refine and_congr_right fun _ => ?_
  split
  · split
    · rename_i h
      simp [← hle, h]
    · rename_i h
      simp [← hle, h, eq_comm]
  · rw [Option.some.injEq, ← UInt64.toNat_inj, toNat_max_succ hp, eq_comm]

theorem findsLeast_nextZpos {r : Rankable} (hfixed : r.fixed = decide (r.zmin = r.zmax))
    (hmax : r.zmax.toNat < 2 ^ 64 - 1) :
    Greedy.FindsLeast Rankable.Admits (fun p => p.toNat < 2 ^ 64 - 1) nextZpos r where
  roomy h := Nat.lt_of_le_of_lt (UInt64.le_iff_toNat_le.mp h.2) hmax
  sound {prev v} hprev h := by
    cases prev with
    | none =>
      have hfilter : (some r.zmin).filter (fun v => v ≤ r.zmax) = some v := h
      obtain ⟨hv, hle⟩ := Option.filter_eq_some_iff.mp hfilter
      cases hv
      exact ⟨⟨UInt64.le_refl _, by simpa using hle⟩, by simp⟩
    | some p =>
      have hp : p.toNat < 2 ^ 64 - 1 := by simpa using hprev
      obtain ⟨hle, h⟩ := (nextZpos_eq_some hp).mp h
      split at h
      · obtain ⟨hlt, rfl⟩ := h
        exact ⟨⟨UInt64.le_refl _, hle⟩, by simpa using hlt⟩
      · refine ⟨⟨UInt64.le_iff_toNat_le.mpr (by omega), hle⟩, ?_⟩
        intro q hq
        cases hq
        exact UInt64.lt_iff_toNat_lt.mpr (by omega)
  least {prev u} hprev hu hlt := by
    obtain ⟨hlo, hhi⟩ := hu
    have hlo' := UInt64.le_iff_toNat_le.mp hlo
    cases prev with
    | none =>
      exact ⟨r.zmin, by simpa [nextZpos] using UInt64.le_trans hlo hhi, hlo⟩
    | some p =>
      have hp : p.toNat < 2 ^ 64 - 1 := by simpa using hprev
      have hpu := UInt64.lt_iff_toNat_lt.mp (hlt p rfl)
      have hhi' := UInt64.le_iff_toNat_le.mp hhi
      by_cases hf : r.fixed
      · -- the slot is the only value the plane admits
        have heq : r.zmin = r.zmax := by simpa [hf] using hfixed
        have hz : u = r.zmin := UInt64.toNat_inj.mp (by rw [heq] at hlo' ⊢; omega)
        refine ⟨r.zmin, (nextZpos_eq_some hp).mpr ⟨heq ▸ UInt64.le_refl _, ?_⟩, hlo⟩
        rw [if_pos hf]
        exact ⟨hz ▸ hlt p rfl, rfl⟩
      · refine ⟨max (p + 1) r.zmin, (nextZpos_eq_some hp).mpr ⟨?_, ?_⟩, ?_⟩
        · rw [UInt64.le_iff_toNat_le, toNat_max_succ hp]
          omega
        · rw [if_neg hf, toNat_max_succ hp]
        · rw [UInt64.le_iff_toNat_le, toNat_max_succ hp]
          omega

/-! ### The numbering written -/

/-- No range reaches the top of the 64-bit values. -/
def RangesEndBelowTop (entries : List StackEntry) : Prop :=
  ∀ e ∈ entries, ∀ p ∈ e.plane, ∀ z ∈ p.zposMax, z.toNat < 2 ^ 64 - 1

theorem findsLeast_stackOrder {entries : List StackEntry} (hmax : RangesEndBelowTop entries) :
    ∀ r ∈ stackOrder entries,
      Greedy.FindsLeast Rankable.Admits (fun p => p.toNat < 2 ^ 64 - 1) nextZpos r := by
  intro r hr
  obtain ⟨e, he, hrank⟩ := mem_rankables.mp (mem_stackOrder.mp hr)
  obtain ⟨p, hp, -, -, hhi, -, -, -, hfixed⟩ := rankable_eq_some hrank
  exact findsLeast_nextZpos hfixed (hmax e (List.mem_of_getElem? he) p hp _ hhi)

/-- Values listed under distinct keys are read back by key. -/
theorem exists_map_eq {β : Type*} {ks : List ℕ} (hks : ks.Nodup) {vs : List β}
    (hlen : vs.length = ks.length) (d : β) :
    ∃ f : ℕ → β, ks.map f = vs ∧
      ∀ k, (ks.zip vs).lookup k = if k ∈ ks then some (f k) else none := by
  induction ks generalizing vs with
  | nil =>
    obtain rfl : vs = [] := List.length_eq_zero_iff.mp hlen
    exact ⟨fun _ => d, rfl, fun k => by simp⟩
  | cons x ks ih =>
    obtain ⟨v, vs, rfl⟩ := List.exists_cons_of_length_eq_add_one hlen
    obtain ⟨hx, hks⟩ := List.nodup_cons.mp hks
    obtain ⟨f, hf, hlookup⟩ := ih hks (by simpa using hlen)
    refine ⟨fun k => if k = x then v else f k, ?_, fun k => ?_⟩
    · rw [List.map_cons, if_pos rfl, ← hf]
      refine congrArg (v :: ·) (List.map_congr_left fun k hk => if_neg ?_)
      exact fun hkx => hx (hkx ▸ hk)
    · rw [List.zip_cons_cons, List.lookup_cons]
      by_cases hkx : k = x
      · simp [hkx]
      · simp [hkx, beq_false_of_ne hkx, hlookup]

theorem stackZpos_eq (entries : List StackEntry) :
    stackZpos entries =
      match numberStack none (stackOrder entries) with
      | none => (false, entries.map fun e => { e with written := e.requested })
      | some values =>
        (true, (entries.map fun e => { e with written := e.requested }).zipIdx.map fun (e, i) =>
          match values.lookup i with
          | some v => { e with written := some v }
          | none => e) := rfl

/-- A numbering that some ranges admit is bettered plane by plane by the greedy one. -/
theorem number_of_isNumbering {entries : List StackEntry} (hmax : RangesEndBelowTop entries)
    {w : ℕ → UInt64} (hw : IsNumbering entries w) :
    ∃ vs, Greedy.number nextZpos none (stackOrder entries) = some vs ∧
      List.Forall₂ (· ≤ ·) vs ((stackOrder entries).map fun r => w r.index) :=
  Greedy.number_le (fun p => p.toNat < 2 ^ 64 - 1)
    (fun hab hbc => by
      rw [UInt64.le_iff_toNat_le] at hab
      rw [UInt64.lt_iff_toNat_lt] at hbc ⊢
      omega)
    (findsLeast_stackOrder hmax) (by simp) (by simp) (rises_iff.mpr hw)

theorem isRankable_iff {entries : List StackEntry} {e : StackEntry} {i : ℕ}
    (he : entries[i]? = some e) :
    (e.rankable i).isSome = true ↔ i ∈ (stackOrder entries).map Rankable.index := by
  rw [List.mem_map]
  constructor
  · intro h
    obtain ⟨r, hr⟩ := Option.isSome_iff_exists.mp h
    obtain ⟨-, -, -, -, -, hi, -⟩ := rankable_eq_some hr
    subst hi
    exact ⟨r, mem_stackOrder.mpr (mem_rankables.mpr ⟨e, he, hr⟩), rfl⟩
  · rintro ⟨r, hr, rfl⟩
    obtain ⟨e', he', hr⟩ := mem_rankables.mp (mem_stackOrder.mp hr)
    rw [he] at he'
    cases he'
    simp [hr]

/-- `stack_zpos` succeeds exactly when the ranges admit a numbering in stacking order. It then
writes the least one, plane by plane; otherwise every plane keeps the zpos its layer requests. -/
theorem stackZpos_numbers_iff (entries : List StackEntry) (hmax : RangesEndBelowTop entries) :
    ((stackZpos entries).1 = true ↔ ∃ w, IsNumbering entries w) ∧
    ((stackZpos entries).1 = true → ∃ w, IsNumbering entries w ∧
      (∀ w', IsNumbering entries w' → ∀ r ∈ rankables entries, w r.index ≤ w' r.index) ∧
      (stackZpos entries).2 = entries.zipIdx.map fun (e, i) =>
        { e with written := if (e.rankable i).isSome then some (w i) else e.requested }) ∧
    ((stackZpos entries).1 = false →
      (stackZpos entries).2 = entries.map fun e => { e with written := e.requested }) := by
  have hnone : Greedy.number nextZpos none (stackOrder entries) = none →
      ¬ ∃ w, IsNumbering entries w := by
    rintro hnum ⟨w, hw⟩
    obtain ⟨vs, hvs, -⟩ := number_of_isNumbering hmax hw
    rw [hnum] at hvs
    cases hvs
  rw [stackZpos_eq, numberStack_eq]
  cases hnum : Greedy.number nextZpos none (stackOrder entries) with
  | none => exact ⟨iff_of_false (by simp) (hnone hnum), by simp, fun _ => rfl⟩
  | some vs =>
    have hrises := Greedy.rises_of_number (fun p => p.toNat < 2 ^ 64 - 1)
      (findsLeast_stackOrder hmax) (by simp) hnum
    have hlen : vs.length = ((stackOrder entries).map Rankable.index).length := by
      rw [List.length_map, hrises.length_eq]
    obtain ⟨w, hw, hlookup⟩ := exists_map_eq (nodup_stackOrder_index entries) hlen 0
    have hnumbering : IsNumbering entries w := by
      rw [← hw, List.map_map] at hrises
      exact rises_iff.mp hrises
    refine ⟨iff_of_true rfl ⟨w, hnumbering⟩, fun _ => ⟨w, hnumbering, ?_, ?_⟩, by simp⟩
    · intro w' hw' r hr
      obtain ⟨vs', hvs', hle⟩ := number_of_isNumbering hmax hw'
      rw [hnum] at hvs'
      cases hvs'
      rw [← hw, List.map_map, List.forall₂_map_left_iff, List.forall₂_map_right_iff,
        List.forall₂_same] at hle
      exact hle r (mem_stackOrder.mpr hr)
    · simp only [Option.map_some, List.zipIdx_map, List.map_map]
      refine List.map_congr_left ?_
      rintro ⟨e, i⟩ hmem
      have hiff := isRankable_iff (List.mem_zipIdx_iff_getElem?.mp hmem)
      simp only [Function.comp, Prod.map, id, hlookup]
      by_cases hi : (e.rankable i).isSome
      · rw [if_pos (hiff.mp hi), if_pos hi]
      · rw [if_neg (mt hiff.mpr hi), if_neg hi]

/-- A primary plane fixed at 2, one layer under it and one over it. -/
def fixedSlotStack : List StackEntry :=
  let overlay : PlaneCapabilities := { id := 41, zposMin := some 0, zposMax := some 7 }
  [{ plane := some { id := 40, zposMin := some 2, zposMax := some 2 }, requested := some 2 },
    { plane := some overlay, requested := some 9 }, { plane := some overlay, requested := some 1 }]

theorem fixedSlotStack_numbered :
    (stackZpos fixedSlotStack).2.map (·.written) = [some 2, some 3, some 0] ∧
      ∃ w, IsNumbering fixedSlotStack w :=
  ⟨by decide +kernel, ((stackZpos_numbers_iff fixedSlotStack (by simp [RangesEndBelowTop,
    fixedSlotStack])).1.mp (by decide +kernel))⟩

end DrmCxx.Planes
