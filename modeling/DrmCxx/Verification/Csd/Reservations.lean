import DrmCxx.Csd.OverlayReservation
import DrmCxx.Lib.Run

/-!
# Reservations are exclusive and complete

Over any calls, for any CRTCs of one registry, no plane is reserved twice; a reservation gets the
lowest planes it may have whenever there are enough of them. Only a reservation of no planes does
not replace the one before it.
-/

namespace DrmCxx.Csd

open Lib
open Planes (PlaneId PlaneCapabilities PlaneRegistry)

/-! ### Calls -/

inductive ReservationCall
  | reserve (crtcIndex : ℕ) (format : UInt32) (count : ℕ) (minZpos : UInt64)
  | release (crtcIndex : ℕ)
  deriving DecidableEq, Repr

namespace OverlayReservation

def step (r : OverlayReservation) : ReservationCall → OverlayReservation
  | .reserve crtcIndex format count minZpos => (r.reserve crtcIndex format count minZpos).1
  | .release crtcIndex => r.release crtcIndex

/-! ### What the calls should do -/

/-- `all_reserved_` is the disjoint union of what the CRTCs have. -/
structure Exclusive (r : OverlayReservation) : Prop where
  nodup : ∀ c, (r.reservedFor c).Nodup
  disjoint : ∀ c d, c ≠ d → (r.reservedFor c).Disjoint (r.reservedFor d)
  union : ∀ id, id ∈ r.allReserved ↔ ∃ c, id ∈ r.reservedFor c

/-- The overlay planes of the CRTC that suit the request and that no other CRTC has. -/
structure Eligible (r : OverlayReservation) (registry : PlaneRegistry) (crtcIndex : ℕ)
    (format : UInt32) (minZpos : UInt64) (p : PlaneCapabilities) : Prop where
  ofCrtc : p ∈ registry.forCrtc crtcIndex
  overlay : p.type = .overlay
  format : scansOutLinear p format = true
  floor : p.zposMin = none ∧ minZpos = 0 ∨ ∃ z ∈ p.zposMin, minZpos ≤ z
  free : ∀ c ≠ crtcIndex, p.id ∉ r.reservedFor c

/-- The order of the planes by zpos, then by id. -/
def Lower (p q : PlaneCapabilities) : Prop :=
  p.zposMin.getD 0 < q.zposMin.getD 0 ∨ p.zposMin.getD 0 = q.zposMin.getD 0 ∧ p.id < q.id

/-- The ids are those of the `count` lowest planes that are eligible, in order. -/
def PicksLowest (eligible : PlaneCapabilities → Prop) (count : ℕ) (ids : List PlaneId) : Prop :=
  ∃ chosen : List PlaneCapabilities, ids = chosen.map (·.id) ∧ chosen.length = count ∧
    chosen.Pairwise Lower ∧ (∀ p ∈ chosen, eligible p) ∧
    ∀ q, eligible q → q ∉ chosen → ∀ p ∈ chosen, Lower p q

/-- Enough planes are eligible. -/
def Suffices (eligible : PlaneCapabilities → Prop) (count : ℕ) : Prop :=
  ∃ planes : List PlaneCapabilities, planes.Nodup ∧ planes.length = count ∧
    ∀ p ∈ planes, eligible p

/-- The call leaves the other CRTCs alone, succeeds exactly when it can, and then replaces what its
CRTC had. -/
def Answers (registry : PlaneRegistry) (r : OverlayReservation) : ReservationCall → Prop
  | .reserve crtcIndex format count minZpos =>
    let eligible := r.Eligible registry crtcIndex format minZpos
    let after := r.reserve crtcIndex format count minZpos
    (∀ c ≠ crtcIndex, after.1.reservedFor c = r.reservedFor c) ∧
      ((∃ ids, after.2 = .ok ids) ↔ Suffices eligible count) ∧
      ∀ ids, after.2 = .ok ids →
        PicksLowest eligible count ids ∧ after.1.reservedFor crtcIndex = ids
  | .release crtcIndex =>
    (∀ c ≠ crtcIndex, (r.release crtcIndex).reservedFor c = r.reservedFor c) ∧
      (r.release crtcIndex).reservedFor crtcIndex = []

/-- No planes are asked for only where there are none. -/
def Replaces (r : OverlayReservation) : ReservationCall → Prop
  | .reserve crtcIndex _ count _ => count = 0 → r.reservedFor crtcIndex = []
  | .release _ => True

/-! ### Release -/

variable {r : OverlayReservation} {crtcIndex : ℕ}

theorem reservedFor_release (c : ℕ) :
    (r.release crtcIndex).reservedFor c = if c = crtcIndex then [] else r.reservedFor c := by
  unfold release reservedFor
  cases h : r.byCrtc crtcIndex with
  | none =>
    dsimp only
    split
    · subst_vars
      rw [h]
      rfl
    · rfl
  | some ids =>
    dsimp only
    rw [Function.update_apply]
    split <;> rfl

theorem registry_release : (r.release crtcIndex).registry = r.registry := by
  unfold release
  split <;> rfl

theorem mem_allReserved_release (id : PlaneId) :
    id ∈ (r.release crtcIndex).allReserved ↔
      id ∈ r.allReserved ∧ id ∉ r.reservedFor crtcIndex := by
  unfold release reservedFor
  cases r.byCrtc crtcIndex with
  | none => simp
  | some ids => simp

theorem Exclusive.release (h : r.Exclusive) (crtcIndex : ℕ) :
    (r.release crtcIndex).Exclusive := by
  refine ⟨?_, ?_, ?_⟩
  · intro c
    rw [reservedFor_release]
    split
    · exact List.nodup_nil
    · exact h.nodup c
  · intro c d hcd
    rw [reservedFor_release, reservedFor_release]
    split
    · exact List.disjoint_nil_left _
    · split
      · exact List.disjoint_nil_right _
      · exact h.disjoint c d hcd
  · intro id
    rw [mem_allReserved_release, h.union]
    constructor
    · rintro ⟨⟨c, hc⟩, hnot⟩
      refine ⟨c, ?_⟩
      have hne : c ≠ crtcIndex := fun heq => hnot (heq ▸ hc)
      rwa [reservedFor_release, if_neg hne]
    · rintro ⟨c, hc⟩
      rw [reservedFor_release] at hc
      split at hc
      · cases hc
      · rename_i hne
        exact ⟨⟨c, hc⟩, fun hin => h.disjoint c crtcIndex hne hc hin⟩

/-! ### The candidates -/

variable {registry : PlaneRegistry} {format : UInt32} {count : ℕ} {minZpos : UInt64}

/-- The planes a call may pick from, once its CRTC's own are released. -/
def pool (r : OverlayReservation) (registry : PlaneRegistry) (crtcIndex : ℕ) (format : UInt32)
    (minZpos : UInt64) : List PlaneCapabilities :=
  (registry.forCrtc crtcIndex).filter fun cap =>
    cap.type = .overlay && scansOutLinear cap format && meetsFloor cap minZpos &&
      !decide (cap.id ∈ (r.release crtcIndex).allReserved)

theorem candidates_release :
    (r.release crtcIndex).candidates registry crtcIndex format minZpos =
      (r.pool registry crtcIndex format minZpos).map fun p => (p.zposMin.getD 0, p.id) := by
  unfold candidates pool
  rw [← List.filterMap_eq_map, List.filterMap_filter]
  rfl

theorem meetsFloor_iff {p : PlaneCapabilities} :
    meetsFloor p minZpos = true ↔
      p.zposMin = none ∧ minZpos = 0 ∨ ∃ z ∈ p.zposMin, minZpos ≤ z := by
  unfold meetsFloor
  cases p.zposMin <;> simp

theorem mem_pool (h : r.Exclusive) {p : PlaneCapabilities} :
    p ∈ r.pool registry crtcIndex format minZpos ↔
      r.Eligible registry crtcIndex format minZpos p := by
  have hfree : p.id ∉ (r.release crtcIndex).allReserved ↔
      ∀ c ≠ crtcIndex, p.id ∉ r.reservedFor c := by
    rw [(h.release crtcIndex).union]
    push Not
    refine forall_congr' fun c => ?_
    rw [reservedFor_release]
    split <;> simp_all
  unfold pool
  rw [List.mem_filter]
  simp only [Bool.and_eq_true, decide_eq_true_eq, Bool.not_eq_true', decide_eq_false_iff_not,
    hfree, meetsFloor_iff]
  constructor
  · rintro ⟨hmem, ⟨⟨htype, hformat⟩, hfloor⟩, hfree⟩
    exact ⟨hmem, htype, hformat, hfloor, hfree⟩
  · rintro ⟨hmem, htype, hformat, hfloor, hfree⟩
    exact ⟨hmem, ⟨⟨htype, hformat⟩, hfloor⟩, hfree⟩

theorem nodup_ids_pool :
    ((r.pool registry crtcIndex format minZpos).map (·.id)).Nodup := by
  unfold pool PlaneRegistry.forCrtc
  exact registry.nodupIds.sublist ((List.filter_sublist.trans List.filter_sublist).map _)

theorem nodup_pool : (r.pool registry crtcIndex format minZpos).Nodup :=
  nodup_ids_pool.of_map _

theorem suffices_iff (h : r.Exclusive) :
    Suffices (r.Eligible registry crtcIndex format minZpos) count ↔
      count ≤ (r.pool registry crtcIndex format minZpos).length := by
  constructor
  · rintro ⟨planes, hnodup, rfl, hall⟩
    exact (hnodup.subperm fun p hp => (mem_pool h).mpr (hall p hp)).length_le
  · intro hle
    refine ⟨_, nodup_pool.sublist (List.take_sublist count _), List.length_take_of_le hle, ?_⟩
    exact fun p hp => (mem_pool h).mp (List.mem_of_mem_take hp)

/-! ### The order -/

def planeLe (p q : PlaneCapabilities) : Prop :=
  candidateLe (p.zposMin.getD 0, p.id) (q.zposMin.getD 0, q.id)

instance : DecidableRel planeLe := fun _ _ => inferInstanceAs (Decidable (candidateLe _ _))

theorem candidateLe_iff {a b : UInt64 × ℕ} :
    candidateLe a b ↔ a.1.toNat < b.1.toNat ∨ a.1.toNat = b.1.toNat ∧ a.2 ≤ b.2 := by
  rw [← UInt64.lt_iff_toNat_lt, UInt64.toNat_inj]
  rfl

instance : Std.Total planeLe where
  total p q := by
    unfold planeLe
    rw [candidateLe_iff, candidateLe_iff]
    omega

instance : IsTrans PlaneCapabilities planeLe where
  trans p q s := by
    unfold planeLe
    rw [candidateLe_iff, candidateLe_iff, candidateLe_iff]
    omega

theorem lower_of_planeLe {p q : PlaneCapabilities} (h : planeLe p q) (hne : p.id ≠ q.id) :
    Lower p q :=
  h.imp_right fun ⟨heq, hle⟩ => ⟨heq, lt_of_le_of_ne hle hne⟩

/-- The pool from the lowest plane up. -/
def sortedPool (r : OverlayReservation) (registry : PlaneRegistry) (crtcIndex : ℕ)
    (format : UInt32) (minZpos : UInt64) : List PlaneCapabilities :=
  (r.pool registry crtcIndex format minZpos).insertionSort planeLe

theorem pairwise_sortedPool :
    (r.sortedPool registry crtcIndex format minZpos).Pairwise Lower := by
  have hids : ((r.sortedPool registry crtcIndex format minZpos).map (·.id)).Nodup :=
    (((List.perm_insertionSort planeLe _).map _).nodup_iff).mpr nodup_ids_pool
  have hne := List.pairwise_map.mp hids
  have hle := List.pairwise_insertionSort planeLe (r.pool registry crtcIndex format minZpos)
  exact (hle.and hne).imp fun ⟨hle, hne⟩ => lower_of_planeLe hle hne

theorem sorted_candidates :
    ((r.release crtcIndex).candidates registry crtcIndex format minZpos).insertionSort candidateLe =
      (r.sortedPool registry crtcIndex format minZpos).map fun p => (p.zposMin.getD 0, p.id) := by
  rw [candidates_release]
  exact (List.map_insertionSort planeLe candidateLe _ _ fun _ _ _ _ => Iff.rfl).symm

/-- What a reservation of `count` planes gets. -/
def picked (r : OverlayReservation) (registry : PlaneRegistry) (crtcIndex : ℕ) (format : UInt32)
    (count : ℕ) (minZpos : UInt64) : List PlaneId :=
  ((r.sortedPool registry crtcIndex format minZpos).take count).map (·.id)

theorem picksLowest_picked (h : r.Exclusive)
    (hle : count ≤ (r.pool registry crtcIndex format minZpos).length) :
    PicksLowest (r.Eligible registry crtcIndex format minZpos) count
      (r.picked registry crtcIndex format count minZpos) := by
  have hperm : (r.sortedPool registry crtcIndex format minZpos).Perm
      (r.pool registry crtcIndex format minZpos) := List.perm_insertionSort _ _
  refine ⟨_, rfl, ?_, pairwise_sortedPool.sublist (List.take_sublist _ _), ?_, ?_⟩
  · rw [List.length_take, hperm.length_eq, Nat.min_eq_left hle]
  · exact fun p hp => (mem_pool h).mp (hperm.mem_iff.mp (List.mem_of_mem_take hp))
  · intro q hq hnot p hp
    have hsorted : (r.sortedPool registry crtcIndex format minZpos).Pairwise Lower :=
      pairwise_sortedPool
    rw [← List.take_append_drop count (r.sortedPool registry crtcIndex format minZpos)] at hsorted
    have hmem := hperm.mem_iff.mpr ((mem_pool h).mpr hq)
    rw [← List.take_append_drop count (r.sortedPool registry crtcIndex format minZpos)] at hmem
    exact (List.pairwise_append.mp hsorted).2.2 p hp q
      ((List.mem_append.mp hmem).resolve_left hnot)

theorem mem_picked (h : r.Exclusive) {id : PlaneId}
    (hid : id ∈ r.picked registry crtcIndex format count minZpos) :
    ∃ p, r.Eligible registry crtcIndex format minZpos p ∧ p.id = id := by
  obtain ⟨p, hp, rfl⟩ := List.mem_map.mp hid
  have hmem := (List.perm_insertionSort planeLe _).mem_iff.mp (List.mem_of_mem_take hp)
  exact ⟨p, (mem_pool h).mp hmem, rfl⟩

theorem nodup_picked : (r.picked registry crtcIndex format count minZpos).Nodup := by
  have hids : ((r.sortedPool registry crtcIndex format minZpos).map (·.id)).Nodup :=
    (((List.perm_insertionSort planeLe _).map _).nodup_iff).mpr nodup_ids_pool
  exact hids.sublist ((List.take_sublist count _).map _)

/-! ### Reserve -/

/-- A reservation of planes, said once. -/
theorem reserve_eq (hreg : r.registry = some registry) (hcount : count ≠ 0) :
    r.reserve crtcIndex format count minZpos =
      if (r.pool registry crtcIndex format minZpos).length < count then
        (r.release crtcIndex, .error .resourceUnavailableTryAgain)
      else
        ({ r.release crtcIndex with
            byCrtc := Function.update (r.release crtcIndex).byCrtc crtcIndex
              (some (r.picked registry crtcIndex format count minZpos))
            allReserved := (r.release crtcIndex).allReserved ∪
              (r.picked registry crtcIndex format count minZpos).toFinset },
          .ok (r.picked registry crtcIndex format count minZpos)) := by
  unfold reserve
  rw [hreg]
  dsimp only
  rw [if_neg hcount, sorted_candidates, candidates_release, List.length_map, ← List.map_take,
    List.map_map]
  rfl

theorem reserve_zero (hreg : r.registry = some registry) :
    r.reserve crtcIndex format 0 minZpos =
      ({ r with byCrtc :=
          Function.update r.byCrtc crtcIndex (some (r.reservedFor crtcIndex)) }, .ok []) := by
  unfold reserve
  rw [hreg]
  rfl

theorem reservedFor_reserve_zero (hreg : r.registry = some registry) (c : ℕ) :
    (r.reserve crtcIndex format 0 minZpos).1.reservedFor c = r.reservedFor c := by
  rw [reserve_zero hreg]
  unfold reservedFor
  dsimp only
  rw [Function.update_apply]
  split
  · subst_vars
    rfl
  · rfl

theorem Exclusive.reserve (h : r.Exclusive) (hreg : r.registry = some registry) :
    (r.reserve crtcIndex format count minZpos).1.Exclusive := by
  by_cases hcount : count = 0
  · subst hcount
    refine ⟨fun c => ?_, fun c d hcd => ?_, fun id => ?_⟩
    · rw [reservedFor_reserve_zero hreg]
      exact h.nodup c
    · rw [reservedFor_reserve_zero hreg, reservedFor_reserve_zero hreg]
      exact h.disjoint c d hcd
    · simp only [reservedFor_reserve_zero hreg]
      rw [reserve_zero hreg]
      exact h.union id
  · rw [reserve_eq hreg hcount]
    have hreleased := h.release crtcIndex
    split
    · exact hreleased
    · -- what is picked is free, and the CRTC's own planes are released
      have hfor : ∀ c, OverlayReservation.reservedFor
          { r.release crtcIndex with
            byCrtc := Function.update (r.release crtcIndex).byCrtc crtcIndex
              (some (r.picked registry crtcIndex format count minZpos))
            allReserved := (r.release crtcIndex).allReserved ∪
              (r.picked registry crtcIndex format count minZpos).toFinset } c =
          if c = crtcIndex then r.picked registry crtcIndex format count minZpos
          else r.reservedFor c := by
        intro c
        unfold OverlayReservation.reservedFor
        dsimp only
        rw [Function.update_apply]
        split
        · rfl
        · rename_i hne
          exact (reservedFor_release c).trans (if_neg hne)
      have hapart : ∀ d ≠ crtcIndex,
          (r.picked registry crtcIndex format count minZpos).Disjoint (r.reservedFor d) := by
        intro d hd id hid hin
        obtain ⟨p, hp, rfl⟩ := mem_picked h hid
        exact hp.free d hd hin
      refine ⟨fun c => ?_, fun c d hcd => ?_, fun id => ?_⟩
      · rw [hfor]
        split
        · exact nodup_picked
        · exact h.nodup c
      · rw [hfor, hfor]
        split
        · rw [if_neg (fun hd => hcd (by omega))]
          exact hapart d fun hd => hcd (by omega)
        · rename_i hc
          split
          · exact (hapart c hc).symm
          · exact h.disjoint c d hcd
      · rw [Finset.mem_union, List.mem_toFinset, hreleased.union]
        simp only [hfor, reservedFor_release]
        constructor
        · rintro (⟨c, hc⟩ | hid)
          · split at hc
            · cases hc
            · rename_i hne
              exact ⟨c, by rwa [if_neg hne]⟩
          · exact ⟨crtcIndex, by rwa [if_pos rfl]⟩
        · rintro ⟨c, hc⟩
          by_cases hne : c = crtcIndex
          · rw [if_pos hne] at hc
            exact .inr hc
          · rw [if_neg hne] at hc
            exact .inl ⟨c, by rwa [if_neg hne]⟩

theorem registry_reserve :
    (r.reserve crtcIndex format count minZpos).1.registry = r.registry := by
  unfold reserve
  split
  · rfl
  · split
    · rfl
    · dsimp only
      split <;> exact registry_release

/-! ### Runs -/

/-- What holds between the calls. -/
def Kept (registry : PlaneRegistry) (r : OverlayReservation) : Prop :=
  r.registry = some registry ∧ r.Exclusive

theorem kept_create (registry : PlaneRegistry) : (create registry).Kept registry := by
  refine ⟨rfl, fun c => List.nodup_nil, fun c d _ => List.disjoint_nil_left _, fun id => ?_⟩
  simp [create, reservedFor]

theorem Kept.step (h : r.Kept registry) (call : ReservationCall) :
    (r.step call).Kept registry := by
  cases call with
  | reserve crtcIndex format count minZpos =>
    exact ⟨registry_reserve.trans h.1, h.2.reserve h.1⟩
  | release crtcIndex => exact ⟨registry_release.trans h.1, h.2.release crtcIndex⟩

/-- A call answers as it should exactly when it is not a reservation of no planes for a CRTC that
has some. -/
theorem answers_iff (h : r.Kept registry) (call : ReservationCall) :
    r.Answers registry call ↔ r.Replaces call := by
  cases call with
  | release crtcIndex =>
    refine iff_of_true ⟨fun c hc => ?_, ?_⟩ trivial
    · rw [reservedFor_release, if_neg hc]
    · rw [reservedFor_release, if_pos rfl]
  | reserve crtcIndex format count minZpos =>
    unfold Answers Replaces
    dsimp only
    by_cases hcount : count = 0
    · subst hcount
      have hzero : Suffices (r.Eligible registry crtcIndex format minZpos) 0 :=
        ⟨[], List.nodup_nil, rfl, fun _ hp => by cases hp⟩
      have hlowest : PicksLowest (r.Eligible registry crtcIndex format minZpos) 0 [] :=
        ⟨[], rfl, rfl, List.Pairwise.nil, by simp, by simp⟩
      have hok : (r.reserve crtcIndex format 0 minZpos).2 = .ok [] := by rw [reserve_zero h.1]
      constructor
      · intro hans _
        exact (reservedFor_reserve_zero h.1 crtcIndex).symm.trans (hans.2.2 [] hok).2
      · intro hempty
        refine ⟨fun c _ => reservedFor_reserve_zero h.1 c, iff_of_true ⟨[], hok⟩ hzero, ?_⟩
        intro ids hids
        cases hok.symm.trans hids
        exact ⟨hlowest, (reservedFor_reserve_zero h.1 _).trans (hempty rfl)⟩
    · refine iff_of_true ?_ fun h0 => absurd h0 hcount
      rw [reserve_eq h.1 hcount, suffices_iff h.2]
      split
      · rename_i hshort
        refine ⟨fun c hc => ?_, iff_of_false (fun ⟨_, hok⟩ => by cases hok) (by omega), ?_⟩
        · dsimp only
          rw [reservedFor_release, if_neg hc]
        · rintro ids ⟨⟩
      · rename_i henough
        refine ⟨fun c hc => ?_, iff_of_true ⟨_, rfl⟩ (by omega), ?_⟩
        · unfold reservedFor
          dsimp only
          rw [Function.update_of_ne hc]
          exact (reservedFor_release c).trans (if_neg hc)
        · rintro ids ⟨⟩
          refine ⟨picksLowest_picked h.2 (by omega), ?_⟩
          unfold reservedFor
          dsimp only
          rw [Function.update_self]
          rfl

/-- Over every run no plane is reserved twice, and the calls answer as they should exactly when each
reservation of no planes is for a CRTC that has none. -/
theorem reservations_exact_iff (registry : PlaneRegistry) (calls : List ReservationCall) :
    (run step (create registry) calls).Exclusive ∧
      (Meets step (Answers registry) (create registry) calls ↔
        Meets step Replaces (create registry) calls) :=
  ⟨(run_always (fun _ call h => h.step call) (kept_create registry) calls).2,
    meets_congr_of_invariant (Kept registry) (fun _ call h => h.step call)
      (fun _ call h => answers_iff h call) (kept_create registry) calls⟩

/-! ### A reservation of no planes -/

/-- One overlay that shows format 1. -/
def oneOverlay : PlaneRegistry where
  planes :=
    [{ id := 11, possibleCrtcs := 1, type := .overlay, formatTable := [(1, 0)], zposMin := some 1 }]
  nodupIds := by decide

/-- The CRTC asks for one plane, then for none: it keeps the one. -/
theorem not_answers_zero :
    ¬ Meets step (Answers oneOverlay) (create oneOverlay)
      [.reserve 0 1 1 1, .reserve 0 1 0 1] := by
  intro h
  have hnone := (h.2.1.2.2 [] rfl).2
  revert hnone
  decide +kernel

end OverlayReservation

end DrmCxx.Csd
