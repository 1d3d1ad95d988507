import DrmCxx.Verification.Planes.Legality

/-!
# Proven placements

A group is placed by TEST commits that share one budget with the rest of the frame. A TEST that is
refused for the budget counts as rejected, and the loop that drops placements stops there with the
placements it has.
-/

namespace DrmCxx.Planes

open DrmCxx.Lib

namespace SearchContext

variable {c : SearchContext} {s : SearchState} {layers : List LayerId}
  {planes : List PlaneCapabilities} {a : Assignment}

/-! ### The TESTs a group asks for -/

/-- A TEST that was asked for: the state it was asked in, and its assignment. -/
abbrev AskedTest := SearchState × Assignment

/-- The TEST commit was issued, and the kernel accepted it. -/
def Accepted (c : SearchContext) (t : AskedTest) : Prop := (c.tryTestCommit t.1 t.2).1 = none

instance (t : AskedTest) : Decidable (c.Accepted t) :=
  inferInstanceAs (Decidable (_ = none))

/-- What the caller's preparer adds to the next TEST. -/
def decoration (c : SearchContext) (s : SearchState) : Except Errc Modeset.AtomicRequest :=
  match c.device.testPreparer with
  | some prepare => prepare s.attempts c.flags
  | none => .ok []

/-- The TESTs of the loop that drops placements. -/
def dropTests (c : SearchContext) (among : List (PlaneId × LayerId)) :
    List (PlaneId × LayerId) → Assignment → SearchState → List AskedTest
  | [], _, _ => []
  | e :: es, a, s =>
    if !a.contains e.1 then dropTests c among es a s
    else
      let a := c.eraseWithChildren among e.1 a
      let (verdict, s') := c.tryTestCommit s a
      (s, a) :: if verdict.isNone || c.outOfTests s' then [] else dropTests c among es a s'

def greedyTests (c : SearchContext) (layers : List LayerId) (planes : List PlaneCapabilities)
    (s : SearchState) : List AskedTest :=
  let a := c.greedyOf s layers planes
  let (verdict, s') := c.tryTestCommit s a
  (s, a) :: if verdict.isNone then [] else c.dropTests (c.dropOrder a) (c.dropOrder a) a s'

/-- The TESTs `place_group` asks for, in order. -/
def groupTests (c : SearchContext) (layers : List LayerId) (planes : List PlaneCapabilities)
    (s : SearchState) : List AskedTest :=
  let preseed := c.preseed s layers planes
  if preseed.isEmpty then []
  else if c.preseedStacks preseed then
    let (verdict, s') := c.tryTestCommit s preseed
    (s, preseed) :: if verdict.isNone then [] else c.greedyTests layers planes s'
  else c.greedyTests layers planes s

/-- The state after the TESTs of `as`. -/
def afterTests (c : SearchContext) (s : SearchState) (as : List Assignment) : SearchState :=
  as.foldl (fun s a => (c.tryTestCommit s a).2) s

theorem dropOne_state (among es : List (PlaneId × LayerId)) (a : Assignment) (s : SearchState) :
    (c.dropOne among es a s).2 =
      c.afterTests s ((c.dropTests among es a s).map Prod.snd) := by
  induction es generalizing a s with
  | nil => rfl
  | cons e es ih =>
    rw [dropOne, dropTests]
    split
    · exact ih a s
    · dsimp only
      rw [List.map_cons]
      split
      · rfl
      · exact ih _ _

theorem placeGreedy_eq (s : SearchState) : c.placeGreedy (c.byKeepPriority layers) planes s =
    if c.Accepted (s, c.greedyOf s layers planes) then
      (c.greedyOf s layers planes, (c.tryTestCommit s (c.greedyOf s layers planes)).2)
    else c.dropOne (c.dropOrder (c.greedyOf s layers planes))
      (c.dropOrder (c.greedyOf s layers planes)) (c.greedyOf s layers planes)
      (c.tryTestCommit s (c.greedyOf s layers planes)).2 := by
  unfold placeGreedy Accepted
  simp only [Option.isNone_iff_eq_none]
  rfl

theorem greedyTests_eq (s : SearchState) : c.greedyTests layers planes s =
    (s, c.greedyOf s layers planes) ::
      if c.Accepted (s, c.greedyOf s layers planes) then []
      else c.dropTests (c.dropOrder (c.greedyOf s layers planes))
        (c.dropOrder (c.greedyOf s layers planes)) (c.greedyOf s layers planes)
        (c.tryTestCommit s (c.greedyOf s layers planes)).2 := by
  unfold greedyTests Accepted
  simp only [Option.isNone_iff_eq_none]
  rfl

theorem placeGreedy_state (s : SearchState) :
    (c.placeGreedy (c.byKeepPriority layers) planes s).2 =
      c.afterTests s ((c.greedyTests layers planes s).map Prod.snd) := by
  rw [placeGreedy_eq, greedyTests_eq, List.map_cons]
  split
  · rfl
  · exact dropOne_state _ _ _ _

theorem placeGroup_eq (layers : List LayerId) (planes : List PlaneCapabilities)
    (s : SearchState) : c.placeGroup layers planes s =
      if (c.preseed s layers planes).isEmpty then (c.preseed s layers planes, s)
      else if c.preseedStacks (c.preseed s layers planes) then
        if c.Accepted (s, c.preseed s layers planes) then
          (c.preseed s layers planes, (c.tryTestCommit s (c.preseed s layers planes)).2)
        else c.placeGreedy (c.byKeepPriority layers) planes
          (c.tryTestCommit s (c.preseed s layers planes)).2
      else c.placeGreedy (c.byKeepPriority layers) planes s := by
  unfold placeGroup Accepted
  simp only [Option.isNone_iff_eq_none]
  rfl

theorem groupTests_eq (layers : List LayerId) (planes : List PlaneCapabilities)
    (s : SearchState) : c.groupTests layers planes s =
      if (c.preseed s layers planes).isEmpty then []
      else if c.preseedStacks (c.preseed s layers planes) then
        (s, c.preseed s layers planes) ::
          if c.Accepted (s, c.preseed s layers planes) then []
          else c.greedyTests layers planes (c.tryTestCommit s (c.preseed s layers planes)).2
      else c.greedyTests layers planes s := by
  unfold groupTests Accepted
  simp only [Option.isNone_iff_eq_none]
  rfl

/-- The TESTs asked for account for all that a search changes. -/
theorem placeGroup_state (layers : List LayerId) (planes : List PlaneCapabilities)
    (s : SearchState) : (c.placeGroup layers planes s).2 =
      c.afterTests s ((c.groupTests layers planes s).map Prod.snd) := by
  rw [placeGroup_eq, groupTests_eq]
  split
  · rfl
  · split
    · rw [List.map_cons]
      split
      · rfl
      · exact placeGreedy_state _
    · exact placeGreedy_state _

/-! ### Running out of TESTs -/

/-- The two assignments give every plane the same layer. -/
def SameMap (a b : Assignment) : Prop := ∀ p, a.find? p = b.find? p

/-- What is returned is empty, or its TEST was accepted: now, or earlier in the same frame. -/
def Proven (c : SearchContext) (earlier : List Assignment) (tests : List AskedTest)
    (a : Assignment) : Prop :=
  a.isEmpty = true ∨ (∃ b ∈ earlier, SameMap a b) ∨ ∃ t ∈ tests, t.2 = a ∧ c.Accepted t

/-- What each drop leaves, in order; TESTs play no part in it. -/
def dropSteps (c : SearchContext) (among : List (PlaneId × LayerId)) :
    List (PlaneId × LayerId) → Assignment → List Assignment
  | [], _ => []
  | e :: es, a =>
    if !a.contains e.1 then dropSteps c among es a
    else c.eraseWithChildren among e.1 a :: dropSteps c among es (c.eraseWithChildren among e.1 a)

/-- The `k`-th of the assignments passes its TEST, when all are tested in order. -/
def PassesAt (c : SearchContext) (s : SearchState) (as : List Assignment) (k : ℕ) : Prop :=
  ∃ a, as[k]? = some a ∧ c.Accepted (c.afterTests s (as.take k), a)

/-- The budget is used up once the first `k` of the assignments are tested. -/
def SpentAfter (c : SearchContext) (s : SearchState) (as : List Assignment) (k : ℕ) : Prop :=
  c.outOfTests (c.afterTests s (as.take k)) = true

/-- Tested in order, one of the assignments is accepted before the budget is used up; or, once it
is, nothing is left placed, or only what was accepted earlier in the frame. -/
def BudgetLasts (c : SearchContext) (earlier : List Assignment) (s : SearchState)
    (as : List Assignment) : Prop :=
  ∀ k a, as[k]? = some a → (∀ j ≤ k, ¬ c.PassesAt s as j) →
    (∀ j < k, ¬ c.SpentAfter s as (j + 1)) → c.SpentAfter s as (k + 1) →
    a.isEmpty = true ∨ ∃ b ∈ earlier, SameMap a b

theorem budgetLasts_cons {earlier : List Assignment} {as : List Assignment} :
    c.BudgetLasts earlier s (a :: as) ↔ c.Accepted (s, a) ∨
      (if c.outOfTests (c.tryTestCommit s a).2 then a.isEmpty = true ∨ ∃ b ∈ earlier, SameMap a b
        else c.BudgetLasts earlier (c.tryTestCommit s a).2 as) := by
  have hzero : c.PassesAt s (a :: as) 0 ↔ c.Accepted (s, a) := by
    simp [PassesAt, afterTests]
  have hsucc : ∀ k, c.PassesAt s (a :: as) (k + 1) ↔
      c.PassesAt (c.tryTestCommit s a).2 as k := by
    intro k
    simp [PassesAt, afterTests]
  have hspent : ∀ k, c.SpentAfter s (a :: as) (k + 1) ↔
      c.SpentAfter (c.tryTestCommit s a).2 as k := fun _ => Iff.rfl
  by_cases hacc : c.Accepted (s, a)
  · exact iff_of_true (fun k _ _ hno => absurd (hzero.mpr hacc) (hno 0 (Nat.zero_le k))) (.inl hacc)
  rw [or_iff_right hacc]
  split
  · rename_i hout
    constructor
    · refine fun h => h 0 a rfl (fun j hj => ?_) (fun j hj => absurd hj (Nat.not_lt_zero j)) hout
      rw [Nat.le_zero.mp hj]
      exact mt hzero.mp hacc
    · intro h k b hk _ hleft _
      cases k with
      | zero =>
        obtain rfl : a = b := Option.some.inj hk
        exact h
      | succ k => exact absurd ((hspent 0).mpr hout) (hleft 0 (Nat.succ_pos k))
  · rename_i hleft
    constructor
    · intro h k b hk hno hspends hspent'
      refine h (k + 1) b hk (fun j hj => ?_) (fun j hj => ?_) ((hspent _).mpr hspent')
      · cases j with
        | zero => exact mt hzero.mp hacc
        | succ j => exact mt (hsucc j).mp (hno j (Nat.le_of_succ_le_succ hj))
      · cases j with
        | zero => exact hleft
        | succ j => exact mt (hspent _).mp (hspends j (Nat.lt_of_succ_lt_succ hj))
    · intro h k b hk hno hspends hspent'
      cases k with
      | zero => exact absurd ((hspent 0).mp hspent') hleft
      | succ k =>
        refine h k b hk (fun j hj => ?_) (fun j hj => ?_) ((hspent _).mp hspent')
        · exact mt (hsucc j).mpr (hno (j + 1) (Nat.succ_le_succ hj))
        · exact mt (hspent _).mpr (hspends (j + 1) (Nat.succ_lt_succ hj))

/-- The loop ends proven exactly if the budget lasts for the placements it has to drop. -/
theorem dropOne_proven_iff {earlier : List Assignment} (among es : List (PlaneId × LayerId))
    (ha : a.entries ⊆ es) (s : SearchState) :
    c.Proven earlier (c.dropTests among es a s) (c.dropOne among es a s).1 ↔
      c.BudgetLasts earlier s (c.dropSteps among es a) := by
  induction es generalizing a s with
  | nil =>
    refine iff_of_true (.inl (Table.isEmpty_eq_true.mpr ?_))
      (fun k b hk => by simp [dropSteps] at hk)
    exact List.subset_nil.mp ha
  | cons e es ih =>
    rw [dropOne, dropTests, dropSteps]
    cases hc : a.contains e.1 with
    | false =>
      refine ih (fun x hx => ?_) s
      rcases List.mem_cons.mp (ha hx) with rfl | hx'
      · exact absurd hx (Table.contains_eq_false.mp hc x.2)
      · exact hx'
    | true =>
      simp only [Bool.not_true, Bool.false_eq_true, if_false]
      rw [budgetLasts_cons]
      set a' := c.eraseWithChildren among e.1 a with ha'
      have hsub : a'.entries ⊆ es := by
        intro x hx
        obtain ⟨hmem, hne, -⟩ := mem_eraseWithChildren.mp hx
        rcases List.mem_cons.mp (ha hmem) with rfl | hx'
        · exact absurd rfl hne
        · exact hx'
      by_cases hacc : c.Accepted (s, a')
      · have hnone : (c.tryTestCommit s a').1.isNone = true := by simpa [Accepted] using hacc
        simp only [hnone, Bool.true_or, if_true]
        exact iff_of_true (.inr (.inr ⟨_, List.mem_cons_self, rfl, hacc⟩)) (.inl hacc)
      · have hsome : (c.tryTestCommit s a').1.isNone = false := by
          rw [← Bool.not_eq_true, Option.isNone_iff_eq_none]
          exact hacc
        rw [or_iff_right hacc]
        simp only [hsome, Bool.false_or]
        split
        · simp only [Proven, List.mem_singleton, exists_eq_left, true_and, hacc, or_false]
        · rw [← ih hsub (c.tryTestCommit s a').2]
          unfold Proven
          refine or_congr_right (or_congr_right ?_)
          constructor
          · rintro ⟨t, ht, heq, hacc'⟩
            rcases List.mem_cons.mp ht with rfl | ht
            · exact absurd hacc' hacc
            · exact ⟨t, ht, heq, hacc'⟩
          · rintro ⟨t, ht, heq, hacc'⟩
            exact ⟨t, List.mem_cons_of_mem _ ht, heq, hacc'⟩

/-- The greedy placement is accepted, or the budget lasts for its drops. -/
def GreedyLasts (c : SearchContext) (earlier : List Assignment) (layers : List LayerId)
    (planes : List PlaneCapabilities) (s : SearchState) : Prop :=
  c.Accepted (s, c.greedyOf s layers planes) ∨
    c.BudgetLasts earlier (c.tryTestCommit s (c.greedyOf s layers planes)).2
      (c.dropSteps (c.dropOrder (c.greedyOf s layers planes))
        (c.dropOrder (c.greedyOf s layers planes)) (c.greedyOf s layers planes))

/-- Nothing can be matched, the matching is accepted, or the budget lasts for the greedy placement
after it. -/
def GroupLasts (c : SearchContext) (earlier : List Assignment) (layers : List LayerId)
    (planes : List PlaneCapabilities) (s : SearchState) : Prop :=
  (c.preseed s layers planes).isEmpty = true ∨
    if c.preseedStacks (c.preseed s layers planes) then
      c.Accepted (s, c.preseed s layers planes) ∨
        c.GreedyLasts earlier layers planes (c.tryTestCommit s (c.preseed s layers planes)).2
    else c.GreedyLasts earlier layers planes s

theorem proven_cons {earlier : List Assignment} {t : AskedTest} {ts : List AskedTest}
    (ht : ¬ c.Accepted t) : c.Proven earlier (t :: ts) a ↔ c.Proven earlier ts a := by
  unfold Proven
  refine or_congr_right (or_congr_right ⟨fun ⟨u, hu, heq, hacc⟩ => ?_, fun ⟨u, hu, h⟩ =>
    ⟨u, List.mem_cons_of_mem _ hu, h⟩⟩)
  rcases List.mem_cons.mp hu with rfl | hu
  · exact absurd hacc ht
  · exact ⟨u, hu, heq, hacc⟩

theorem placeGreedy_proven_iff (earlier : List Assignment) (s : SearchState) :
    c.Proven earlier (c.greedyTests layers planes s)
        (c.placeGreedy (c.byKeepPriority layers) planes s).1 ↔
      c.GreedyLasts earlier layers planes s := by
  rw [placeGreedy_eq, greedyTests_eq, GreedyLasts]
  by_cases hacc : c.Accepted (s, c.greedyOf s layers planes)
  · rw [if_pos hacc, if_pos hacc]
    exact iff_of_true (.inr (.inr ⟨_, List.mem_cons_self, rfl, hacc⟩)) (.inl hacc)
  · rw [if_neg hacc, if_neg hacc, proven_cons hacc, or_iff_right hacc]
    exact dropOne_proven_iff _ _ (subset_dropOrder _) _

/-- A group's placement is proven exactly if the budget lasts until a TEST accepts what is left. -/
theorem placeGroup_proven_iff (c : SearchContext) (earlier : List Assignment)
    (layers : List LayerId) (planes : List PlaneCapabilities) (s : SearchState) :
    c.Proven earlier (c.groupTests layers planes s) (c.placeGroup layers planes s).1 ↔
      c.GroupLasts earlier layers planes s := by
  rw [placeGroup_eq, groupTests_eq, GroupLasts]
  by_cases hempty : (c.preseed s layers planes).isEmpty = true
  · rw [if_pos hempty, if_pos hempty]
    exact iff_of_true (.inl hempty) (.inl hempty)
  rw [if_neg hempty, if_neg hempty, or_iff_right hempty]
  split
  · by_cases hacc : c.Accepted (s, c.preseed s layers planes)
    · rw [if_pos hacc, if_pos hacc]
      exact iff_of_true (.inr (.inr ⟨_, List.mem_cons_self, rfl, hacc⟩)) (.inl hacc)
    · rw [if_neg hacc, if_neg hacc, proven_cons hacc, or_iff_right hacc]
      exact placeGreedy_proven_iff earlier _
  · exact placeGreedy_proven_iff earlier s

end SearchContext

namespace Controller

/-- The groups before this one used up the budget: the loop drops one of the two placements and
returns the other, untested. -/
theorem not_placeGroup_proven :
    ¬ ∀ (c : SearchContext) (earlier : List Assignment) (layers : List LayerId)
      (planes : List PlaneCapabilities) (s : SearchState),
      c.Proven earlier (c.groupTests layers planes s) (c.placeGroup layers planes s).1 := by
  intro h
  have hall : (multirectSearch.groupTests [0, 1] (device.registry.forCrtc 0)
      { testCommitsThisFrame := 16 }).all
        (fun t => !decide (multirectSearch.Accepted t)) = true := by
    decide +kernel
  rcases h multirectSearch [] [0, 1] (device.registry.forCrtc 0) { testCommitsThisFrame := 16 } with
    hempty | ⟨b, hb, -⟩ | ⟨t, ht, -, hacc⟩
  · revert hempty
    decide +kernel
  · cases hb
  · simpa [hacc] using List.all_eq_true.mp hall t ht

end Controller

end DrmCxx.Planes
