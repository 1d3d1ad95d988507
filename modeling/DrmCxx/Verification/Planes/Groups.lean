import DrmCxx.Planes.LayerGroups

/-!
# Overlapping items share a group

The union-find behind the spatial groups: path halving keeps every root, and uniting two items
gives them one root for good.
-/

namespace DrmCxx.Planes

/-! ### Roots -/

/-- A parent is never above its child. -/
def Descending (parent : List ℕ) : Prop := ∀ x, upOf parent x ≤ x

inductive RootOf (parent : List ℕ) : ℕ → ℕ → Prop where
  | root (x) (h : upOf parent x = x) : RootOf parent x x
  | step (x r) (h : upOf parent x ≠ x) : RootOf parent (upOf parent x) r → RootOf parent x r

variable {parent parent' : List ℕ} {x y r s : ℕ}

theorem RootOf.unique (h : RootOf parent x r) (h' : RootOf parent x s) : r = s := by
  induction h with
  | root x hx =>
    cases h' with
    | root => rfl
    | step _ _ hne => exact absurd hx hne
  | step x r hne _ ih =>
    cases h' with
    | root _ hx => exact absurd hx hne
    | step _ _ _ h' => exact ih h'

theorem RootOf.isRoot (h : RootOf parent x r) : upOf parent r = r := by
  induction h with
  | root x hx => exact hx
  | step _ _ _ _ ih => exact ih

theorem RootOf.le (hd : Descending parent) (h : RootOf parent x r) : r ≤ x := by
  induction h with
  | root => exact le_refl _
  | step x r _ _ ih => exact ih.trans (hd x)

theorem exists_rootOf (hd : Descending parent) (x : ℕ) : ∃ r, RootOf parent x r := by
  induction x using Nat.strong_induction_on with
  | _ x ih =>
    by_cases h : upOf parent x = x
    · exact ⟨x, .root x h⟩
    · obtain ⟨r, hr⟩ := ih (upOf parent x) (lt_of_le_of_ne (hd x) h)
      exact ⟨r, .step x r h hr⟩

theorem upOf_set (parent : List ℕ) (x v y : ℕ) (hx : x < parent.length) :
    upOf (parent.set x v) y = if y = x then v else upOf parent y := by
  unfold upOf
  rw [List.getD_eq_getElem?_getD, List.getD_eq_getElem?_getD]
  by_cases h : y = x
  · subst h
    simp [List.getElem?_set_self hx]
  · rw [List.getElem?_set_ne (Ne.symm h), if_neg h]

theorem lt_length_of_upOf_ne (h : upOf parent x ≠ x) : x < parent.length := by
  by_contra hx
  apply h
  rw [upOf, List.getD_eq_getElem?_getD, List.getElem?_eq_none (Nat.le_of_not_lt hx)]
  rfl

/-! ### Path halving -/

theorem Descending.halve (hd : Descending parent) (hx : upOf parent x ≠ x) :
    Descending (parent.set x (upOf parent (upOf parent x))) := by
  intro y
  rw [upOf_set _ _ _ _ (lt_length_of_upOf_ne hx)]
  split
  · subst_vars
    exact (hd _).trans (hd _)
  · exact hd y

/-- Skipping one node on the way up keeps every root. -/
theorem RootOf.halve (hd : Descending parent) (hx : upOf parent x ≠ x) (h : RootOf parent y r) :
    RootOf (parent.set x (upOf parent (upOf parent x))) y r := by
  have hup := fun y => upOf_set parent x (upOf parent (upOf parent x)) y (lt_length_of_upOf_ne hx)
  have hlt : upOf parent x < x := lt_of_le_of_ne (hd x) hx
  induction h with
  | root y hy =>
    have hyx : y ≠ x := fun h => hx (h ▸ hy)
    exact .root y (by rw [hup, if_neg hyx, hy])
  | step y r hne hrest ih =>
    by_cases hyx : y = x
    · subst hyx
      have hne' : upOf parent (upOf parent y) ≠ y :=
        ne_of_lt (lt_of_le_of_lt (hd _) hlt)
      refine .step y r (by rwa [hup, if_pos rfl]) ?_
      rw [hup, if_pos rfl]
      cases hrest with
      | root _ hroot =>
        rw [hroot] at ih ⊢
        exact ih
      | step _ _ hne₂ _ =>
        cases ih with
        | root _ hroot =>
          rw [hup, if_neg (ne_of_lt hlt)] at hroot
          exact absurd hroot hne₂
        | step _ _ _ h₂ => rwa [hup, if_neg (ne_of_lt hlt)] at h₂
    · refine .step y r (by rwa [hup, if_neg hyx]) ?_
      rwa [hup, if_neg hyx]

/-- `parent'` has the roots of `parent`, and the same length. -/
structure SameRoots (parent parent' : List ℕ) : Prop where
  length : parent'.length = parent.length
  descending : Descending parent'
  roots : ∀ y r, RootOf parent y r → RootOf parent' y r

theorem SameRoots.refl (hd : Descending parent) : SameRoots parent parent :=
  ⟨rfl, hd, fun _ _ h => h⟩

/-- `find` returns the root and changes none. -/
theorem findRoot_spec (fuel : ℕ) (hd : Descending parent) (hx : x ≤ fuel) :
    RootOf parent x (findRoot fuel x parent).1 ∧ SameRoots parent (findRoot fuel x parent).2 := by
  induction fuel generalizing x parent with
  | zero =>
    obtain rfl : x = 0 := Nat.le_zero.mp hx
    exact ⟨.root 0 (Nat.le_zero.mp (hd 0)), .refl hd⟩
  | succ fuel ih =>
    rw [findRoot]
    by_cases h : upOf parent x = x
    · rw [if_pos h]
      exact ⟨.root x h, .refl hd⟩
    · rw [if_neg h]
      have hlt : upOf parent x < x := lt_of_le_of_ne (hd x) h
      have hg : upOf parent (upOf parent x) < x := lt_of_le_of_lt (hd _) hlt
      obtain ⟨hroot, hsame⟩ := ih (hd.halve h) (x := upOf parent (upOf parent x)) (by omega)
      have hchanged : SameRoots parent _ :=
        ⟨hsame.length.trans (List.length_set ..), hsame.descending,
          fun y r hr => hsame.roots y r (hr.halve hd h)⟩
      refine ⟨?_, hchanged⟩
      obtain ⟨r, hr⟩ := exists_rootOf hd x
      have hr' := hr.halve hd h
      have hstep : RootOf (parent.set x (upOf parent (upOf parent x))) x
          (findRoot fuel (upOf parent (upOf parent x))
            (parent.set x (upOf parent (upOf parent x)))).1 := by
        have hup := upOf_set parent x (upOf parent (upOf parent x)) x (lt_length_of_upOf_ne h)
        rw [if_pos rfl] at hup
        exact .step _ _ (by rw [hup]; exact ne_of_lt hg) (by rw [hup]; exact hroot)
      have := hr'.unique hstep
      rwa [this] at hr

/-! ### Uniting -/

def SameGroup (parent : List ℕ) (i j : ℕ) : Prop := ∃ r, RootOf parent i r ∧ RootOf parent j r

/-- Hanging one root under a lower one merges two groups and keeps the others. -/
theorem RootOf.attach {hi lo : ℕ} (hlt : lo < hi) (hlen : hi < parent.length)
    (hroot : upOf parent hi = hi) (hlo : upOf parent lo = lo) (h : RootOf parent y r) :
    RootOf (parent.set hi lo) y (if r = hi then lo else r) := by
  have hup := fun y => upOf_set parent hi lo y hlen
  have hlo' : RootOf (parent.set hi lo) lo lo := .root lo (by rw [hup, if_neg (ne_of_lt hlt), hlo])
  induction h with
  | root y hy =>
    by_cases hyh : y = hi
    · subst hyh
      rw [if_pos rfl]
      exact .step _ _ (by rw [hup, if_pos rfl]; exact ne_of_lt hlt) (by rwa [hup, if_pos rfl])
    · rw [if_neg hyh]
      exact .root y (by rw [hup, if_neg hyh, hy])
  | step y r hne _ ih =>
    have hyh : y ≠ hi := fun h => hne (h ▸ hroot)
    exact .step _ _ (by rwa [hup, if_neg hyh]) (by rwa [hup, if_neg hyh])

theorem unite_spec (hd : Descending parent) {i j : ℕ} (hi : i < parent.length)
    (hj : j < parent.length) :
    (unite parent i j).length = parent.length ∧ Descending (unite parent i j) ∧
      SameGroup (unite parent i j) i j ∧
      ∀ x y, SameGroup parent x y → SameGroup (unite parent i j) x y := by
  obtain ⟨hri, hsi⟩ := findRoot_spec i hd (le_refl i)
  obtain ⟨hrj, hsj⟩ := findRoot_spec j hsi.descending (le_refl j)
  unfold unite
  dsimp only
  generalize findRoot i i parent = fi at *
  generalize findRoot j j fi.2 = fj at *
  obtain ⟨a, p₁⟩ := fi
  obtain ⟨b, p₂⟩ := fj
  dsimp only at *
  have hia : RootOf p₂ i a := hsj.roots _ _ (hsi.roots _ _ hri)
  have hjb : RootOf p₂ j b := hsj.roots _ _ hrj
  have hkeep : ∀ x y, SameGroup parent x y → SameGroup p₂ x y := by
    rintro x y ⟨r, hx, hy⟩
    exact ⟨r, hsj.roots _ _ (hsi.roots _ _ hx), hsj.roots _ _ (hsi.roots _ _ hy)⟩
  have hlen : p₂.length = parent.length := hsj.length.trans hsi.length
  by_cases hab : a = b
  · subst hab
    rw [if_pos rfl]
    exact ⟨hlen, hsj.descending, ⟨a, hia, hjb⟩, hkeep⟩
  · rw [if_neg hab]
    have ha : a ≤ i := hia.le hsj.descending
    have hb : b ≤ j := hjb.le hsj.descending
    have hlt : min a b < max a b := by omega
    have hmax : max a b < p₂.length := by omega
    have hra : upOf p₂ a = a := hia.isRoot
    have hrb : upOf p₂ b = b := hjb.isRoot
    have hhi : upOf p₂ (max a b) = max a b := by
      rcases Nat.le_total a b with h | h
      · rwa [Nat.max_eq_right h]
      · rwa [Nat.max_eq_left h]
    have hlo : upOf p₂ (min a b) = min a b := by
      rcases Nat.le_total a b with h | h
      · rwa [Nat.min_eq_left h]
      · rwa [Nat.min_eq_right h]
    have hatt : ∀ {y r}, RootOf p₂ y r →
        RootOf (p₂.set (max a b) (min a b)) y (if r = max a b then min a b else r) :=
      fun h => h.attach hlt hmax hhi hlo
    refine ⟨by rw [List.length_set, hlen], ?_, ⟨min a b, ?_, ?_⟩, ?_⟩
    · intro y
      rw [upOf_set _ _ _ _ hmax]
      split
      · omega
      · exact hsj.descending y
    · have := hatt hia
      rwa [show (if a = max a b then min a b else a) = min a b by split <;> omega] at this
    · have := hatt hjb
      rwa [show (if b = max a b then min a b else b) = min a b by split <;> omega] at this
    · intro x y hxy
      obtain ⟨r, hx, hy⟩ := hkeep x y hxy
      exact ⟨_, hatt hx, hatt hy⟩

/-! ### The groups -/

section

variable {α : Type} {items : List α} {intersect : α → α → Bool} {priority : α → ℤ}

theorem mem_indexPairs {n i j : ℕ} : (i, j) ∈ indexPairs n ↔ i < j ∧ j < n := by
  simp only [indexPairs, List.mem_flatMap, List.mem_range, List.mem_map, List.mem_filter,
    decide_eq_true_eq, Prod.mk.injEq]
  constructor
  · rintro ⟨i', _, j', ⟨hj, hij⟩, rfl, rfl⟩
    exact ⟨hij, hj⟩
  · rintro ⟨hij, hj⟩
    exact ⟨i, hij.trans hj, j, ⟨hj, hij⟩, rfl, rfl⟩

theorem descending_range (n : ℕ) : Descending (List.range n) := by
  intro x
  rw [upOf, List.getD_eq_getElem?_getD]
  by_cases h : x < n
  · rw [List.getElem?_range h]
    exact le_refl _
  · rw [List.getElem?_eq_none (by simpa using h)]
    exact le_refl _

/-- Every overlapping pair of the walk ends in one group, and groups once made stay. -/
theorem connect_spec (items : List α) (intersect : α → α → Bool) (pairs : List (ℕ × ℕ))
    (hd : Descending parent)
    (hlen : ∀ i j, (i, j) ∈ pairs → i < parent.length ∧ j < parent.length) :
    let parent' := pairs.foldl
      (fun parent (i, j) => if overlap items intersect i j then unite parent i j else parent) parent
    Descending parent' ∧ (∀ x y, SameGroup parent x y → SameGroup parent' x y) ∧
      ∀ i j, (i, j) ∈ pairs → overlap items intersect i j = true → SameGroup parent' i j := by
  induction pairs generalizing parent with
  | nil => exact ⟨hd, fun _ _ h => h, fun _ _ h => by cases h⟩
  | cons e es ih =>
    obtain ⟨i, j⟩ := e
    rw [List.foldl_cons]
    have htail : ∀ i j, (i, j) ∈ es → i < parent.length ∧ j < parent.length :=
      fun i j h => hlen i j (List.mem_cons_of_mem _ h)
    by_cases ho : overlap items intersect i j = true
    · obtain ⟨hi, hj⟩ := hlen i j List.mem_cons_self
      obtain ⟨hl, hd', hij, hkeep⟩ := unite_spec hd hi hj
      simp only [ho, if_true]
      obtain ⟨hd'', hkeep', hpairs⟩ := ih hd' (fun i j h => hl ▸ htail i j h)
      refine ⟨hd'', fun x y h => hkeep' x y (hkeep x y h), ?_⟩
      intro i' j' hm ho'
      rcases List.mem_cons.mp hm with he | hm
      · cases he
        exact hkeep' _ _ hij
      · exact hpairs i' j' hm ho'
    · simp only [ho]
      obtain ⟨hd', hkeep, hpairs⟩ := ih hd htail
      refine ⟨hd', hkeep, ?_⟩
      intro i' j' hm ho'
      rcases List.mem_cons.mp hm with he | hm
      · cases he
        exact absurd ho' ho
      · exact hpairs i' j' hm ho'

theorem groupRoot_eq {i j : ℕ} (hij : i < j) (hj : j < items.length)
    (ho : overlap items intersect i j = true) :
    groupRoot items intersect i = groupRoot items intersect j := by
  obtain ⟨hd, -, hpairs⟩ := connect_spec items intersect (indexPairs items.length)
    (descending_range items.length) (by
      intro i j h
      obtain ⟨hij, hj⟩ := mem_indexPairs.mp h
      rw [List.length_range]
      exact ⟨hij.trans hj, hj⟩)
  obtain ⟨r, hi, hjr⟩ := hpairs i j (mem_indexPairs.mpr ⟨hij, hj⟩) ho
  exact ((findRoot_spec i hd (le_refl i)).1.unique hi).trans
    ((findRoot_spec j hd (le_refl j)).1.unique hjr).symm

theorem nodup_eraseDups (l : List ℕ) : l.eraseDups.Nodup := by
  induction h : l.length using Nat.strong_induction_on generalizing l with
  | _ n ih =>
    cases l with
    | nil => simp
    | cons a l =>
      rw [List.eraseDups_cons, List.nodup_cons]
      subst h
      refine ⟨?_, ih _ ?_ _ rfl⟩
      · rw [List.mem_eraseDups, List.mem_filter]
        simp
      · exact Nat.lt_succ_of_le (List.length_filter_le _ _)

theorem exists_of_mem_groupOf {r : ℕ} {x : α} (hx : x ∈ groupOf items intersect r) :
    ∃ i, items[i]? = some x ∧ groupRoot items intersect i = r := by
  obtain ⟨⟨a, i⟩, hi, h⟩ := List.mem_filterMap.mp hx
  dsimp only at h
  split at h
  · rename_i hr
    cases h
    exact ⟨i, List.mem_zipIdx_iff_getElem?.mp hi, hr⟩
  · cases h

/-- Two groups hold no overlapping items. -/
theorem independentGroups_pairwise (hsymm : ∀ a b, intersect a b = intersect b a) :
    (independentGroups items intersect priority).Pairwise
      fun g g' => ∀ x ∈ g, ∀ y ∈ g', intersect x y = false := by
  have hR : ∀ {g g' : List α}, (∀ x ∈ g, ∀ y ∈ g', intersect x y = false) →
      ∀ x ∈ g', ∀ y ∈ g, intersect x y = false :=
    fun h x hx y hy => (hsymm x y).trans (h y hy x hx)
  rw [independentGroups, (List.perm_insertionSort _ _).pairwise_iff hR]
  unfold collectGroups
  rw [List.pairwise_map]
  refine (nodup_eraseDups _).imp ?_
  intro r r' hne x hx y hy
  obtain ⟨i, hi, hir⟩ := exists_of_mem_groupOf hx
  obtain ⟨j, hj, hjr⟩ := exists_of_mem_groupOf hy
  by_contra hxy
  rw [Bool.not_eq_false] at hxy
  apply hne
  rw [← hir, ← hjr]
  have hil := (List.getElem?_eq_some_iff.mp hi).1
  have hjl := (List.getElem?_eq_some_iff.mp hj).1
  rcases Nat.lt_trichotomy i j with h | h | h
  · exact groupRoot_eq h hjl (by simpa [overlap, hi, hj] using hxy)
  · rw [h]
  · exact (groupRoot_eq h hil (by simpa [overlap, hi, hj] using (hsymm y x).trans hxy)).symm

end

end DrmCxx.Planes
