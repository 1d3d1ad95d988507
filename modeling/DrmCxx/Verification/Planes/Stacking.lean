import DrmCxx.Verification.Planes.Groups
import DrmCxx.Verification.Planes.Search

/-!
# Stacking of searched assignments

Inside one group every pair of placed layers is checked against the stacking order. Groups are
placed apart, so a search orders every two layers that overlap, and promises nothing about the
others.
-/

namespace DrmCxx.Planes

open DrmCxx.Lib

theorem stackingConsistent_comm (pa pb : PlaneCapabilities) (za zb : Option UInt64) :
    stackingConsistent pa za pb zb = stackingConsistent pb zb pa za := by
  have hswap : ∀ a b : UInt64, a ≠ b → decide (b < a) = !decide (a < b) := by
    intro a b hab
    rw [← decide_not, decide_eq_decide, UInt64.lt_iff_toNat_lt, UInt64.lt_iff_toNat_lt]
    have hne : a.toNat ≠ b.toNat := fun h => hab (UInt64.toNat_inj.mp h)
    omega
  unfold stackingConsistent
  cases za with
  | none => cases zb <;> rfl
  | some a =>
    cases zb with
    | none => rfl
    | some b =>
      dsimp only
      by_cases hab : a = b
      · rw [if_pos hab, if_pos hab.symm]
      · rw [if_neg hab, if_neg (Ne.symm hab)]
        cases effectiveZpos pa (some a) with
        | none => cases effectiveZpos pb (some b) <;> rfl
        | some ea =>
          cases effectiveZpos pb (some b) with
          | none => rfl
          | some eb =>
            dsimp only
            by_cases he : ea = eb
            · rw [if_pos he, if_pos he.symm]
            · rw [if_neg he, if_neg (Ne.symm he), hswap a b hab, hswap ea eb he]
              cases decide (a < b) <;> cases decide (ea < eb) <;> rfl

theorem layersIntersect_comm (a b : Layer) : layersIntersect a b = layersIntersect b a := by
  unfold layersIntersect
  dsimp only
  ac_rfl

namespace Device

variable {d : Device} {heap : Heap}

/-- Two placements stack in the order their layers ask for. -/
def inOrder (d : Device) (heap : Heap) (e e' : PlaneId × LayerId) : Bool :=
  e'.1 = e.1 || (d.registry.capsOf e.1).all fun caps => (d.registry.capsOf e'.1).all fun caps' =>
    Planes.stackingConsistent caps (heap e.2).zpos caps' (heap e'.2).zpos

theorem inOrder_comm (e e' : PlaneId × LayerId) : d.inOrder heap e e' = d.inOrder heap e' e := by
  unfold inOrder
  rw [decide_eq_decide.mpr (eq_comm (a := e'.1) (b := e.1))]
  cases d.registry.capsOf e.1 with
  | none => cases d.registry.capsOf e'.1 <;> rfl
  | some caps =>
    cases d.registry.capsOf e'.1 with
    | none => rfl
    | some caps' =>
      simp only [Option.all_some]
      rw [stackingConsistent_comm]

theorem inOrder_self (e : PlaneId × LayerId) : d.inOrder heap e e = true := by
  simp [inOrder]

theorem fitsStacking_iff {a : Assignment} {p : PlaneId} {l : LayerId} :
    d.fitsStacking heap a p l = true ↔ ∀ e ∈ a.entries, d.inOrder heap (p, l) e = true := by
  unfold fitsStacking inOrder
  cases d.registry.capsOf p with
  | none => simp
  | some caps => simp [List.all_eq_true]

theorem stackingConsistent_iff {a : Assignment} :
    d.stackingConsistent heap a = true ↔
      ∀ e ∈ a.entries, ∀ e' ∈ a.entries, d.inOrder heap e e' = true := by
  simp only [stackingConsistent, List.all_eq_true, fitsStacking_iff]

/-- Stacking looks at the requested zpos only. -/
theorem inOrder_congr {heap' : Heap} {e e' : PlaneId × LayerId}
    (h : (heap e.2).zpos = (heap' e.2).zpos) (h' : (heap e'.2).zpos = (heap' e'.2).zpos) :
    d.inOrder heap e e' = d.inOrder heap' e e' := by
  unfold inOrder
  rw [h, h']

end Device

namespace SearchContext

variable {c : SearchContext} {s : SearchState} {layers : List LayerId}
  {planes : List PlaneCapabilities} {a b : Assignment}

/-! ### One group -/

/-- Every two placements of the assignment stack. -/
def Stacks (c : SearchContext) (a : Assignment) : Prop :=
  ∀ e ∈ a.entries, ∀ e' ∈ a.entries, c.device.inOrder c.heap e e' = true

theorem stacks_empty : c.Stacks Table.empty := fun _ h => by cases h

theorem Stacks.subset (h : c.Stacks a) (hb : b.entries ⊆ a.entries) : c.Stacks b :=
  fun e he e' he' => h e (hb he) e' (hb he')

/-- A placement that fits beside the others keeps the assignment stacked. -/
theorem Stacks.insert (h : c.Stacks a) {p : PlaneId} {l : LayerId}
    (hfit : c.device.fitsStacking c.heap a p l = true) : c.Stacks (a.insertOrAssign p l) := by
  rw [Device.fitsStacking_iff] at hfit
  intro e he e' he'
  rcases Table.mem_insertOrAssign.mp he with ⟨hp, hl⟩ | ⟨-, he⟩ <;>
    rcases Table.mem_insertOrAssign.mp he' with ⟨hp', hl'⟩ | ⟨-, he'⟩
  · rw [show e' = e from Prod.ext (hp'.trans hp.symm) (hl'.trans hl.symm)]
    exact Device.inOrder_self e
  · rw [show e = (p, l) from Prod.ext hp hl]
    exact hfit e' he'
  · rw [show e' = (p, l) from Prod.ext hp' hl', Device.inOrder_comm]
    exact hfit e he
  · exact h e he e' he'

theorem greedyPass_stacks (virtual : Bool) (candidates : List (PlaneCapabilities × LayerId))
    (h : c.Stacks a) : c.Stacks (c.greedyPass s virtual candidates a) := by
  unfold greedyPass
  induction candidates generalizing a with
  | nil => exact h
  | cons e es ih =>
    apply ih
    dsimp only
    split
    · exact h
    · rename_i hno
      simp only [Bool.or_eq_true, not_or, Bool.not_eq_true', Bool.not_eq_false] at hno
      exact h.insert hno.1.2

theorem placeGreedy_stacks (layers : List LayerId) (planes : List PlaneCapabilities)
    (s : SearchState) : c.Stacks (c.placeGreedy layers planes s).1 := by
  have hg : c.Stacks (c.greedy s (c.rankCandidatesGroup s layers planes)) :=
    greedyPass_stacks true _ (greedyPass_stacks false _ stacks_empty)
  unfold placeGreedy
  dsimp only
  split
  · exact hg
  · exact hg.subset (dropOne_subset _ _ _ _)

/-- A group's placement stacks: the preseed was checked, the greedy one built pair by pair. -/
theorem placeGroup_stacks (layers : List LayerId) (planes : List PlaneCapabilities)
    (s : SearchState) : c.Stacks (c.placeGroup layers planes s).1 := by
  unfold placeGroup
  dsimp only
  generalize (c.bipartitePreseedGroup s (c.byKeepPriority layers) planes).foldl _ _ = preseed
  split
  · rename_i hempty
    rw [Table.isEmpty_eq_true] at hempty
    intro e he
    rw [hempty] at he
    cases he
  · split
    · rename_i hstacks
      simp only [preseedStacks, Bool.and_eq_true] at hstacks
      split
      · exact Device.stackingConsistent_iff.mp hstacks.1
      · exact placeGreedy_stacks _ _ _
    · exact placeGreedy_stacks _ _ _

/-! ### The whole scene -/

/-- Every two placements whose layers overlap stack. -/
def OverlapsStack (c : SearchContext) (a : Assignment) : Prop :=
  ∀ e ∈ a.entries, ∀ e' ∈ a.entries, layersIntersect (c.heap e.2) (c.heap e'.2) = true →
    c.device.inOrder c.heap e e' = true

theorem Stacks.overlapsStack (h : c.Stacks a) : c.OverlapsStack a :=
  fun e he e' he' _ => h e he e' he'

theorem OverlapsStack.subset (h : c.OverlapsStack a) (hb : b.entries ⊆ a.entries) :
    c.OverlapsStack b :=
  fun e he e' he' => h e (hb he) e' (hb he')

theorem mem_merge {es : List (PlaneId × LayerId)} {e : PlaneId × LayerId}
    (h : e ∈ (es.foldl (fun best (p, l) => Table.insertOrAssign best p l) a).entries) :
    e ∈ a.entries ∨ e ∈ es := by
  induction es generalizing a with
  | nil => exact .inl h
  | cons x xs ih =>
    rcases ih h with h | h
    · rcases Table.mem_insertOrAssign.mp h with ⟨hp, hl⟩ | ⟨-, h⟩
      · exact .inr (List.mem_cons.mpr (.inl (Prod.ext hp hl)))
      · exact .inl h
    · exact .inr (List.mem_cons_of_mem _ h)

/-- Two layers share no pixel. -/
def Apart (c : SearchContext) (l l' : LayerId) : Prop :=
  layersIntersect (c.heap l) (c.heap l') = false

theorem placeGroups_overlapsStack (groups : List (List LayerId)) (pool : List PlaneCapabilities)
    (hgroups : groups.Pairwise fun g g' => ∀ l ∈ g, ∀ l' ∈ g', c.Apart l l')
    (hbest : c.OverlapsStack a)
    (happart : ∀ e ∈ a.entries, ∀ g ∈ groups, ∀ l ∈ g, c.Apart e.2 l) :
    c.OverlapsStack (c.placeGroups groups pool a s).1 := by
  induction groups generalizing pool a s with
  | nil => exact hbest
  | cons g gs ih =>
    rw [placeGroups]
    rw [List.pairwise_cons] at hgroups
    have hnew : ∀ e ∈ (c.placeGroup g pool s).1.entries, e.2 ∈ g :=
      fun e he => (placeGroup_placed g pool s e.1 e.2 he).1
    apply ih _ hgroups.2
    · intro e he e' he' hov
      have hno : ∀ {x y : PlaneId × LayerId}, x ∈ a.entries →
          y ∈ (c.placeGroup g pool s).1.entries →
          layersIntersect (c.heap x.2) (c.heap y.2) ≠ true := by
        intro x y hx hy
        exact ne_true_of_eq_false (happart x hx g List.mem_cons_self y.2 (hnew y hy))
      rcases mem_merge he with he | he <;> rcases mem_merge he' with he' | he'
      · exact hbest e he e' he' hov
      · exact absurd hov (hno he he')
      · exact absurd ((layersIntersect_comm _ _).trans hov) (hno he' he)
      · exact placeGroup_stacks g pool s e he e' he'
    · intro e he g' hg' l hl
      rcases mem_merge he with he | he
      · exact happart e he g' (List.mem_cons_of_mem _ hg') l hl
      · exact hgroups.1 g' hg' e.2 (hnew e he) l hl

theorem partialFallback_stacks (fuel : ℕ) (rest : List LayerId) :
    c.Stacks (c.partialFallback planes fuel rest s).1 := by
  induction fuel generalizing rest s with
  | zero => exact stacks_empty
  | succ fuel ih =>
    rw [partialFallback]
    split
    · exact stacks_empty
    · dsimp only
      split
      · exact placeGroup_stacks rest planes s
      · split
        · exact stacks_empty
        · exact ih _

theorem aroundRunLoop_stacks (ws : List ℕ) {run : Assignment}
    (h : (c.aroundRunLoop layers planes ws s).1 = some run) : c.Stacks run := by
  induction ws generalizing s with
  | nil => cases h
  | cons w ws ih =>
    rw [aroundRunLoop] at h
    split at h
    · cases h
    · split at h
      · exact ih h
      · dsimp only at h
        split at h
        · cases h
          exact placeGroup_stacks _ planes s
        · exact ih h

theorem placeOnZposCrtc_overlapsStack (s : SearchState) :
    c.OverlapsStack (c.placeOnZposCrtc s).1 := by
  unfold placeOnZposCrtc
  dsimp only
  split
  · apply placeGroups_overlapsStack
    · exact independentGroups_pairwise fun _ _ => layersIntersect_comm _ _
    · exact stacks_empty.overlapsStack
    · exact fun _ h => by cases h
  · exact (partialFallback_stacks _ _).overlapsStack

/-- On a CRTC that takes zpos, the overlapping layers a search places stack as they ask. -/
theorem searchAssignment_overlapsStack (s : SearchState)
    (hz : c.device.stacksByPlaneId c.crtcIndex = false) :
    c.OverlapsStack (c.searchAssignment s).1 := by
  unfold searchAssignment
  rw [if_neg (ne_true_of_eq_false hz)]
  rcases settleCanvas_cases (c.placeOnZposCrtc s).1 (c.placeOnZposCrtc s).2 with hsub | hrun
  · exact (placeOnZposCrtc_overlapsStack s).subset hsub
  · exact (aroundRunLoop_stacks _ hrun).overlapsStack

end SearchContext

end DrmCxx.Planes
