import DrmCxx.Lib.Run
import DrmCxx.Present.BufferRing
import Mathlib.Logic.Function.Basic

/-!
# Buffer age

A producer drives the ring and paints the slots it leases. What the ring tells it to repaint
covers every pixel in which the slot differs from the frame last presented, as long as no
abandoned render left pixels behind that the ring does not know of.
-/

namespace DrmCxx.Present

open Lib (Meets run run_invariant meets_of_invariant)

/-! ### The slot list -/

namespace BufferRing

def stateAt (r : BufferRing) (i : ℕ) : Option SlotState :=
  r.slots[i]?.map (·.state)

def lastAt (r : BufferRing) (i : ℕ) : Option ℕ :=
  r.slots[i]?.map (·.lastPresent)

@[simp] theorem lastAt_setState (r : BufferRing) (i j : ℕ) (st : SlotState) :
    (r.setState i st).lastAt j = r.lastAt j := by
  simp only [lastAt, setState, List.getElem?_modify, Option.map_eq_map, Option.map_map]
  congr 1
  funext s
  by_cases h : i = j <;> simp [h]

theorem stateAt_setState (r : BufferRing) (i j : ℕ) (st : SlotState) :
    (r.setState i st).stateAt j = if i = j then (r.stateAt j).map (fun _ => st)
      else r.stateAt j := by
  by_cases h : i = j
  · subst h
    simp [stateAt, setState]
    rfl
  · simp [stateAt, setState, h]

theorem setState_of_length_le {r : BufferRing} {i : ℕ} (h : r.slots.length ≤ i)
    (st : SlotState) : r.setState i st = r := by
  simp [setState, List.modify_eq_self h]

theorem stateAt_eq_none {r : BufferRing} {i : ℕ} :
    r.stateAt i = none ↔ r.slots.length ≤ i := by
  simp [stateAt]

theorem release_eq (r : BufferRing) (i : ℕ) :
    r.release i = if r.stateAt i = some .scanning then r else r.setState i .free := by
  unfold release
  cases h : r.slots[i]? with
  | none =>
    have hi : r.slots.length ≤ i := by simpa using h
    simp [stateAt, h, setState_of_length_le hi]
  | some s => by_cases hs : s.state = .scanning <;> simp [stateAt, h, hs]

@[simp] theorem lastAt_release (r : BufferRing) (i j : ℕ) :
    (r.release i).lastAt j = r.lastAt j := by
  rw [release_eq]
  split <;> simp

theorem stateAt_release (r : BufferRing) (i j : ℕ) :
    (r.release i).stateAt j = if i = j ∧ r.stateAt i ≠ some .scanning
      then (r.stateAt j).map (fun _ => .free) else r.stateAt j := by
  rw [release_eq]
  by_cases hs : r.stateAt i = some .scanning
  · simp [hs]
  · simp [hs, stateAt_setState]

/-! ### The loops -/

theorem freshestFree_mem {slots : List Slot} {i : ℕ} {best : Option (ℕ × ℕ)} {b lp : ℕ}
    (h : freshestFree slots i best = some (b, lp)) :
    best = some (b, lp) ∨
      ∃ k, b = i + k ∧ ∃ s, slots[k]? = some s ∧ s.state = .free ∧ s.lastPresent = lp := by
  induction slots generalizing i best with
  | nil => exact .inl h
  | cons s slots ih =>
    have later : ∀ {best'}, freshestFree slots (i + 1) best' = some (b, lp) →
        best' = some (b, lp) ∨ ∃ k, b = i + k ∧
          ∃ t, (s :: slots)[k]? = some t ∧ t.state = .free ∧ t.lastPresent = lp := by
      intro best' h'
      rcases ih h' with h' | ⟨k, rfl, t, ht⟩
      · exact .inl h'
      · exact .inr ⟨k + 1, by omega, t, by simpa using ht⟩
    have here : s.state = .free → some (i, s.lastPresent) = some (b, lp) → ∃ k, b = i + k ∧
          ∃ t, (s :: slots)[k]? = some t ∧ t.state = .free ∧ t.lastPresent = lp := by
      intro hs h'
      cases h'
      exact ⟨0, rfl, s, rfl, hs, rfl⟩
    unfold freshestFree at h
    by_cases hs : s.state = .free
    · rw [if_neg (by simp [hs])] at h
      cases best with
      | none => exact .inr ((later h).elim (here hs) id)
      | some best =>
        simp only at h
        split at h
        · exact .inr ((later h).elim (here hs) id)
        · exact later h
    · rw [if_pos hs] at h
      exact later h

theorem freshestFree_some {slots : List Slot} {b lp : ℕ}
    (h : freshestFree slots 0 none = some (b, lp)) :
    ∃ s, slots[b]? = some s ∧ s.state = .free ∧ s.lastPresent = lp := by
  rcases freshestFree_mem h with h | ⟨k, rfl, hs⟩
  · cases h
  · simpa using hs

theorem freshestFree_of_some (slots : List Slot) (i : ℕ) (best : ℕ × ℕ) :
    freshestFree slots i (some best) ≠ none := by
  induction slots generalizing i best with
  | nil => simp [freshestFree]
  | cons s slots ih =>
    unfold freshestFree
    split
    · exact ih _ _
    · simp only
      split <;> exact ih _ _

theorem freshestFree_none {slots : List Slot} {i : ℕ} :
    freshestFree slots i none = none ↔ ∀ s ∈ slots, s.state ≠ .free := by
  induction slots generalizing i with
  | nil => simp [freshestFree]
  | cons s slots ih =>
    unfold freshestFree
    by_cases hs : s.state = .free
    · simp [hs, freshestFree_of_some]
    · simp [hs, ih]

theorem pushRects_eq {cap : ℕ} {region rects : List Rect} (h : region.length ≤ cap) :
    pushRects cap region rects =
      if (region ++ rects).length ≤ cap then some (region ++ rects) else none := by
  induction rects generalizing region with
  | nil => simp [pushRects, h]
  | cons rect rects ih =>
    unfold pushRects
    split
    · rename_i hcap
      rw [if_neg]
      simp only [List.length_append, List.length_cons, List.length_nil] at hcap ⊢
      omega
    · rename_i hcap
      rw [ih (by omega)]
      simp

theorem pushFrames_eq {cap : ℕ} {region : List Rect} {frames : List (List Rect)}
    (h : region.length ≤ cap) :
    pushFrames cap region frames =
      if (region ++ frames.flatten).length ≤ cap then some (region ++ frames.flatten)
      else none := by
  induction frames generalizing region with
  | nil => simp [pushFrames, h]
  | cons frame frames ih =>
    unfold pushFrames
    rw [pushRects_eq h]
    by_cases hcap : (region ++ frame).length ≤ cap
    · rw [if_pos hcap]
      simp only
      rw [ih hcap]
      simp
    · rw [if_neg hcap, if_neg]
      simp only [List.flatten_cons, List.length_append] at hcap ⊢
      omega

/-- The damage of the frames presented after `lastPresent`, as far as the history goes. -/
def damageSince (r : BufferRing) (lastPresent : ℕ) : List Rect :=
  (r.damage.drop (lastPresent - r.baseSeq)).flatten

/-- A slot the ring cannot track: never presented, older than the history, or too fragmented. -/
def Untracked (r : BufferRing) (lastPresent : ℕ) : Prop :=
  lastPresent = 0 ∨ lastPresent < r.baseSeq ∨
    r.maxDamageRects < (r.damageSince lastPresent).length

instance (r : BufferRing) (lastPresent : ℕ) : Decidable (r.Untracked lastPresent) :=
  inferInstanceAs (Decidable (_ ∨ _ ∨ _))

theorem repaintFor_eq (r : BufferRing) (lastPresent : ℕ) :
    r.repaintFor lastPresent = if r.Untracked lastPresent then {}
      else { full := false, region := r.damageSince lastPresent } := by
  unfold repaintFor
  rw [pushFrames_eq (Nat.zero_le _), List.nil_append]
  by_cases h : lastPresent = 0 ∨ lastPresent < r.baseSeq
  · rw [if_pos h, if_pos (h.elim .inl fun h => .inr (.inl h))]
  · rw [if_neg h]
    have hu : r.Untracked lastPresent ↔
        ¬ (r.damage.drop (lastPresent - r.baseSeq)).flatten.length ≤ r.maxDamageRects := by
      unfold Untracked damageSince
      omega
    by_cases hcap :
        (r.damage.drop (lastPresent - r.baseSeq)).flatten.length ≤ r.maxDamageRects
    · rw [if_pos hcap, if_neg (fun hun => hu.mp hun hcap)]
      rfl
    · rw [if_neg hcap, if_pos (hu.mpr hcap)]

theorem repaintFor_covers (r : BufferRing) (lastPresent : ℕ) (p : Pixel) :
    (r.repaintFor lastPresent).covers p ↔
      r.Untracked lastPresent ∨ covered (r.damageSince lastPresent) p := by
  rw [repaintFor_eq]
  by_cases h : r.Untracked lastPresent <;> simp [h, Repaint.covers]

theorem trimDamage_eq {n base : ℕ} {frames : List (List Rect)}
    (h : base + frames.length < seqModulus) :
    trimDamage n frames base =
      (frames.drop (frames.length - n), base + (frames.length - n)) := by
  induction frames generalizing base with
  | nil => simp [trimDamage]
  | cons frame frames ih =>
    simp only [List.length_cons] at h
    unfold trimDamage
    split
    · rename_i hn
      simp only [List.length_cons] at hn
      rw [Nat.mod_eq_of_lt (by omega), ih (by omega)]
      have hk : (frame :: frames).length - n = (frames.length - n) + 1 := by
        simp only [List.length_cons]; omega
      rw [hk, List.drop_succ_cons, Nat.add_assoc, Nat.add_comm 1]
    · rename_i hn
      rw [Nat.sub_eq_zero_of_le (by omega)]
      rfl

/-! ### What each operation does -/

theorem acquire_cases {r r' : BufferRing} {l : Lease} (h : r.acquire = (r', some l)) :
    (r' = r.setState l.slot .inFlight ∧ r.stateAt l.slot = some .free ∧
      ∃ lp, r.lastAt l.slot = some lp ∧ l.repaint = r.repaintFor lp ∧
        freshestFree r.slots 0 none = some (l.slot, lp)) ∨
    (r' = { r with slots := r.slots ++ [{ state := .inFlight }] } ∧ l.slot = r.slots.length ∧
      l.repaint = {}) := by
  unfold acquire at h
  cases hf : freshestFree r.slots 0 none with
  | some best =>
    obtain ⟨b, lp⟩ := best
    rw [hf] at h
    cases h
    obtain ⟨s, hs, hfree, hlp⟩ := freshestFree_some hf
    exact .inl ⟨rfl, by simp [stateAt, hs, hfree], lp, by simp [lastAt, hs, hlp], rfl, rfl⟩
  | none =>
    rw [hf] at h
    simp only at h
    split at h
    · cases h
      exact .inr ⟨rfl, rfl, rfl⟩
    · cases h

theorem acquire_none {r r' : BufferRing} (h : r.acquire = (r', none)) : r' = r := by
  unfold acquire at h
  split at h
  · cases h
  · split at h
    · cases h
    · cases h; rfl

theorem getElem?_grow (slots : List Slot) (s : Slot) (j : ℕ) :
    (slots ++ [s])[j]? = if slots.length = j then some s else slots[j]? := by
  rcases Nat.lt_trichotomy j slots.length with h | rfl | h
  · rw [if_neg h.ne', List.getElem?_append_left h]
  · simp
  · have hlen : (slots ++ [s]).length ≤ j := by rw [List.length_append]; exact h
    rw [if_neg h.ne, List.getElem?_eq_none hlen, List.getElem?_eq_none (Nat.le_of_lt h)]

theorem stateAt_grow (r : BufferRing) (s : Slot) (j : ℕ) :
    ({ r with slots := r.slots ++ [s] } : BufferRing).stateAt j =
      if r.slots.length = j then some s.state else r.stateAt j := by
  rw [stateAt, getElem?_grow]
  split <;> rfl

theorem lastAt_grow (r : BufferRing) (s : Slot) (j : ℕ) :
    ({ r with slots := r.slots ++ [s] } : BufferRing).lastAt j =
      if r.slots.length = j then some s.lastPresent else r.lastAt j := by
  rw [lastAt, getElem?_grow]
  split <;> rfl

/-- The presented slot scans, and the one that scanned before is retired. -/
theorem slots_present {r : BufferRing} {i : ℕ} (hi : i < r.slots.length) (damage : List Rect)
    (j : ℕ) :
    (r.present i damage).slots[j]? =
      if i = j then some { state := .scanning, lastPresent := (r.presentSeq + 1) % seqModulus }
      else r.slots[j]?.map retireScanning := by
  unfold present
  rw [if_neg (by omega)]
  by_cases h : i = j
  · subst h
    simp [hi]
  · simp [h]

theorem stateAt_present {r : BufferRing} {i : ℕ} (hi : i < r.slots.length)
    (damage : List Rect) (j : ℕ) :
    (r.present i damage).stateAt j = if i = j then some .scanning
      else (r.stateAt j).map (fun st => if st = .scanning then .pendingRelease else st) := by
  rw [stateAt, slots_present hi, stateAt]
  split
  · rfl
  · cases r.slots[j]? with
    | none => rfl
    | some s => by_cases hs : s.state = .scanning <;> simp [retireScanning, hs]

theorem lastAt_present {r : BufferRing} {i : ℕ} (hi : i < r.slots.length)
    (damage : List Rect) (j : ℕ) :
    (r.present i damage).lastAt j =
      if i = j then some ((r.presentSeq + 1) % seqModulus) else r.lastAt j := by
  rw [lastAt, slots_present hi, lastAt]
  split
  · rfl
  · cases r.slots[j]? with
    | none => rfl
    | some s => by_cases hs : s.state = .scanning <;> simp [retireScanning, hs]

/-- The damage history holds the frames `baseSeq + 1` to `presentSeq`, and no slot is newer. -/
structure HistoryInRange (r : BufferRing) : Prop where
  length_eq : r.baseSeq + r.damage.length = r.presentSeq
  last_le : ∀ i lp, r.lastAt i = some lp → lp ≤ r.presentSeq

theorem HistoryInRange.setState {r : BufferRing} (h : r.HistoryInRange) (i : ℕ)
    (st : SlotState) : (r.setState i st).HistoryInRange :=
  ⟨h.length_eq, fun j lp hj => h.last_le j lp (by simpa using hj)⟩

theorem HistoryInRange.release {r : BufferRing} (h : r.HistoryInRange) (i : ℕ) :
    (r.release i).HistoryInRange := by
  rw [release_eq]
  split
  · exact h
  · exact h.setState i .free

theorem HistoryInRange.grow {r : BufferRing} (h : r.HistoryInRange) :
    ({ r with slots := r.slots ++ [{ state := .inFlight }] } : BufferRing).HistoryInRange := by
  refine ⟨h.length_eq, fun j lp hj => ?_⟩
  rw [lastAt_grow] at hj
  split at hj
  · cases hj
    exact Nat.zero_le _
  · exact h.last_le j lp hj

/-- What a lease does to the ring: only the leased slot changes, which was not in use. -/
structure AcquireSpec (r r' : BufferRing) (l : Lease) : Prop where
  state : ∀ j, r'.stateAt j = if l.slot = j then some .inFlight else r.stateAt j
  before : r.stateAt l.slot = some .free ∨ r.stateAt l.slot = none
  inRange : r.HistoryInRange → r'.HistoryInRange
  last : ∀ j lp, r'.lastAt j = some lp → r.lastAt j = some lp ∨ lp = 0
  since : r'.damageSince = r.damageSince
  untracked : ∀ lp, r'.Untracked lp ↔ r.Untracked lp
  seq : r'.presentSeq = r.presentSeq
  maxSlots : r'.maxSlots = r.maxSlots

theorem acquire_spec {r r' : BufferRing} {l : Lease} (h : r.acquire = (r', some l)) :
    AcquireSpec r r' l := by
  rcases acquire_cases h with ⟨rfl, hfree, -⟩ | ⟨rfl, hnew, -⟩
  · refine ⟨fun j => ?_, .inl hfree, fun hr => hr.setState _ _, fun j lp hj => ?_, rfl,
      fun lp => Iff.rfl, rfl, rfl⟩
    · rw [stateAt_setState]
      by_cases hj : l.slot = j
      · subst hj
        simp [hfree]
      · rw [if_neg hj, if_neg hj]
    · exact .inl (by simpa using hj)
  · refine ⟨fun j => ?_, .inr ?_, fun hr => hr.grow, fun j lp hj => ?_, rfl,
      fun lp => Iff.rfl, rfl, rfl⟩
    · rw [stateAt_grow, hnew]
    · rw [hnew]
      exact stateAt_eq_none.mpr le_rfl
    · rw [lastAt_grow] at hj
      split at hj
      · cases hj
        exact .inr rfl
      · exact .inl hj

theorem AcquireSpec.slot_lt {r r' : BufferRing} {l : Lease} (h : AcquireSpec r r' l) :
    l.slot < r'.slots.length := by
  by_contra hlt
  have hs := h.state l.slot
  rw [stateAt_eq_none.mpr (by omega), if_pos rfl] at hs
  cases hs

/-- A lease presented at once. -/
theorem stateAt_acquire_present {r r' : BufferRing} {l : Lease} (h : AcquireSpec r r' l)
    (damage : List Rect) (j : ℕ) :
    (r'.present l.slot damage).stateAt j = if l.slot = j then some .scanning
      else (r.stateAt j).map (fun st => if st = .scanning then .pendingRelease else st) := by
  rw [stateAt_present h.slot_lt]
  by_cases hj : l.slot = j
  · rw [if_pos hj, if_pos hj]
  · rw [if_neg hj, if_neg hj, h.state, if_neg hj]

theorem acquire_eq_none {r : BufferRing} (h : r.acquire.2 = none) :
    r.maxSlots ≤ r.slots.length ∧ ∀ s ∈ r.slots, s.state ≠ .free := by
  unfold acquire at h
  cases hf : freshestFree r.slots 0 none with
  | some best =>
    rw [hf] at h
    cases h
  | none =>
    rw [hf] at h
    simp only at h
    split at h
    · cases h
    · exact ⟨by omega, freshestFree_none.mp hf⟩

@[simp] theorem damageSince_release (r : BufferRing) (i : ℕ) :
    (r.release i).damageSince = r.damageSince := by
  rw [release_eq]
  split <;> rfl

@[simp] theorem untracked_release (r : BufferRing) (i lp : ℕ) :
    (r.release i).Untracked lp ↔ r.Untracked lp := by
  rw [release_eq]
  split <;> rfl

/-- What `present` leaves of the history. -/
structure PresentSpec (r r' : BufferRing) (damage : List Rect) : Prop where
  inRange : r'.HistoryInRange
  seq : r'.presentSeq = r.presentSeq + 1
  since : ∀ lp, lp ≤ r.presentSeq → ¬ r'.Untracked lp →
    ¬ r.Untracked lp ∧ r'.damageSince lp = r.damageSince lp ++ damage

theorem present_spec {r : BufferRing} (h : r.HistoryInRange) {i : ℕ} (hi : i < r.slots.length)
    (damage : List Rect) (hseq : r.presentSeq + 1 < seqModulus) :
    PresentSpec r (r.present i damage) damage := by
  have hlen := h.length_eq
  have hbase : r.baseSeq + (r.damage ++ [damage]).length = r.presentSeq + 1 := by
    simp only [List.length_append, List.length_cons, List.length_nil]
    omega
  have htrim := trimDamage_eq (n := r.maxSlots) (by omega : r.baseSeq +
    (r.damage ++ [damage]).length < seqModulus)
  have hlast := lastAt_present hi damage
  have hd : (r.present i damage).damage =
      (r.damage ++ [damage]).drop ((r.damage ++ [damage]).length - r.maxSlots) := by
    rw [present, if_neg (by omega)]
    simp only [htrim]
  have hb : (r.present i damage).baseSeq =
      r.baseSeq + ((r.damage ++ [damage]).length - r.maxSlots) := by
    rw [present, if_neg (by omega)]
    simp only [htrim]
  have hs : (r.present i damage).presentSeq = r.presentSeq + 1 := by
    rw [present, if_neg (by omega)]
    exact Nat.mod_eq_of_lt hseq
  have hk : (r.damage ++ [damage]).length - r.maxSlots ≤ (r.damage ++ [damage]).length :=
    Nat.sub_le _ _
  generalize (r.damage ++ [damage]).length - r.maxSlots = k at hd hb hk
  have hmax : (r.present i damage).maxDamageRects = r.maxDamageRects := by
    rw [present, if_neg (by omega)]
  refine ⟨⟨?_, ?_⟩, hs, ?_⟩
  · rw [hd, hb, hs, List.length_drop]
    omega
  · intro j lp hj
    rw [hlast, Nat.mod_eq_of_lt hseq] at hj
    rw [hs]
    split at hj
    · cases hj
      exact le_rfl
    · exact (h.last_le j lp hj).trans (Nat.le_succ _)
  · intro lp hle hun
    have hlp : (r.present i damage).baseSeq ≤ lp := by
      by_contra hlt
      exact hun (.inr (.inl (by omega)))
    have hdrop : k + (lp - (r.present i damage).baseSeq) = lp - r.baseSeq := by omega
    have hsince : (r.present i damage).damageSince lp = r.damageSince lp ++ damage := by
      rw [damageSince, damageSince, hd, List.drop_drop, hdrop,
        List.drop_append_of_le_length (by omega)]
      simp
    refine ⟨fun hold => hun ?_, hsince⟩
    unfold Untracked at hold ⊢
    rw [hsince, hmax, List.length_append]
    omega

end BufferRing

/-! ### A producer at work -/

/-- What an unfinished lease was told, and the damage of the frames presented since. -/
structure Rendering where
  repaint : Repaint
  missed : List Rect := []

/-- The ring with the producer's buffers of pixel values `V`. -/
structure RingUse (V : Type*) where
  ring : BufferRing
  buffers : ℕ → Pixel → V
  leases : ℕ → Option Rendering := fun _ => none
  /-- The pixels abandoned renders painted in a slot since it was last presented. -/
  touched : ℕ → Pixel → Bool := fun _ _ => false
  /-- The frame last presented. -/
  shown : Option (Pixel → V) := none
  /-- The slot last presented. -/
  lastSlot : Option ℕ := none

inductive UseEvent (V : Type*)
  | acquire
  /-- The producer paints the pixels `painted` of its slot with the frame and presents it. -/
  | present (slot : ℕ) (frame : Pixel → V) (painted : Pixel → Bool) (damage : List Rect)
  /-- The producer paints something into its slot and gives it back. -/
  | abandon (slot : ℕ) (content : Pixel → V) (painted : Pixel → Bool)
  | release (slot : ℕ)

def paintOver {V : Type*} (buffer content : Pixel → V) (painted : Pixel → Bool) : Pixel → V :=
  fun p => if painted p then content p else buffer p

namespace RingUse

variable {V : Type*}

def init (maxSlots maxDamageRects : ℕ) (buffers : ℕ → Pixel → V) : RingUse V :=
  { ring := .create maxSlots maxDamageRects, buffers }

def step (u : RingUse V) : UseEvent V → RingUse V
  | .acquire =>
    match u.ring.acquire with
    | (ring, none) => { u with ring }
    | (ring, some l) =>
      { u with ring, leases := Function.update u.leases l.slot (some ⟨l.repaint, []⟩) }
  | .present slot frame painted damage =>
    { ring := u.ring.present slot damage
      buffers := Function.update u.buffers slot (paintOver (u.buffers slot) frame painted)
      leases := Function.update
        (fun i => (u.leases i).map fun l => { l with missed := l.missed ++ damage }) slot none
      touched := Function.update u.touched slot fun _ => false
      shown := some frame
      lastSlot := some slot }
  | .abandon slot content painted =>
    { u with
      ring := u.ring.release slot
      buffers := Function.update u.buffers slot (paintOver (u.buffers slot) content painted)
      leases := Function.update u.leases slot none
      touched := Function.update u.touched slot fun p => u.touched slot p || painted p }
  | .release slot => { u with ring := u.ring.release slot }

/-- The slot's buffer differs from the frame last presented. -/
def Differs (u : RingUse V) (slot : ℕ) (p : Pixel) : Prop :=
  ∀ f, u.shown = some f → u.buffers slot p ≠ f p

/-- The producer's side: it presents and abandons what it leased, paints at least what it was
told and what its frame changes, and reports every pixel its frame changes. -/
def Honoured (u : RingUse V) : UseEvent V → Prop
  | .acquire => True
  | .present slot frame painted damage =>
    ∃ l, u.leases slot = some l ∧ (∀ p, l.repaint.covers p → painted p) ∧
      ∀ f, u.shown = some f → ∀ p, frame p ≠ f p → painted p ∧ covered damage p
  | .abandon slot _ _ => (u.leases slot).isSome
  | .release slot => u.leases slot = none

/-- A slot an abandoned render painted is leased again only if the repaint covers what was
painted, a producer that rendered while other frames were presented paints what they changed, and
the present sequence does not wrap. -/
def Tracked (u : RingUse V) : UseEvent V → Prop
  | .acquire => ∀ slot lp, BufferRing.freshestFree u.ring.slots 0 none = some (slot, lp) →
      ∀ p, u.touched slot p → u.ring.Untracked lp ∨ covered (u.ring.damageSince lp) p
  | .present slot _ painted _ =>
    u.ring.presentSeq + 1 < seqModulus ∧
      ∀ l, u.leases slot = some l → ∀ p, covered l.missed p → painted p
  | _ => True

/-- A lease is never of the slot last presented and covers every pixel in which its buffer
differs from the frame last presented; a presented buffer is the frame. -/
def Sound (u : RingUse V) : UseEvent V → Prop
  | .acquire => ∀ ring l, u.ring.acquire = (ring, some l) →
      u.lastSlot ≠ some l.slot ∧ ∀ p, u.Differs l.slot p → l.repaint.covers p
  | .present slot frame painted damage =>
    (u.step (.present slot frame painted damage)).buffers slot = frame
  | _ => True

/-- No abandoned render has left anything in a slot. -/
def Untouched (u : RingUse V) : Prop :=
  ∀ i p, u.touched i p = false

theorem tracked_acquire {u : RingUse V} (h : u.Untouched) : u.Tracked .acquire := by
  intro i lp _ p hp
  simp [h i p] at hp

theorem untouched_acquire {u : RingUse V} (h : u.Untouched) : (u.step .acquire).Untouched := by
  simp only [step]
  split <;> exact h

theorem untouched_present {u : RingUse V} (h : u.Untouched) (slot : ℕ) (frame : Pixel → V)
    (painted : Pixel → Bool) (damage : List Rect) :
    (u.step (.present slot frame painted damage)).Untouched := by
  intro i p
  simp only [step]
  by_cases hi : i = slot
  · subst hi
    simp
  · simp [Function.update_of_ne hi, h i p]

/-! ### The invariant -/

structure Inv (u : RingUse V) : Prop where
  inRange : u.ring.HistoryInRange
  leased : ∀ i, (u.leases i).isSome ↔ u.ring.stateAt i = some .inFlight
  scanning : ∀ i, u.lastSlot = some i → u.ring.stateAt i = some .scanning
  unshown : u.shown = none → ∀ i lp, u.ring.lastAt i = some lp → lp = 0
  /-- What a slot still lacks of the frame shown was reported since, or was painted over. -/
  content : ∀ i lp, u.ring.lastAt i = some lp → ¬ u.ring.Untracked lp → ∀ p, u.Differs i p →
    covered (u.ring.damageSince lp) p ∨ u.touched i p
  rendering : ∀ i l, u.leases i = some l → ∀ p, u.Differs i p →
    l.repaint.covers p ∨ covered l.missed p

theorem inv_init (maxSlots maxDamageRects : ℕ) (buffers : ℕ → Pixel → V) :
    (init maxSlots maxDamageRects buffers).Inv where
  inRange := ⟨rfl, fun i lp h => by simp [init, BufferRing.create, BufferRing.lastAt] at h⟩
  leased i := by simp [init, BufferRing.create, BufferRing.stateAt]
  scanning i h := by cases h
  unshown _ i lp h := by simp [init, BufferRing.create, BufferRing.lastAt] at h
  content i lp h := by simp [init, BufferRing.create, BufferRing.lastAt] at h
  rendering i l h := by cases h

theorem step_acquire {u : RingUse V} {ring : BufferRing} {l : Lease}
    (h : u.ring.acquire = (ring, some l)) :
    u.step .acquire =
      { u with ring, leases := Function.update u.leases l.slot (some ⟨l.repaint, []⟩) } := by
  simp [step, h]

theorem step_acquire_none {u : RingUse V} {ring : BufferRing}
    (h : u.ring.acquire = (ring, none)) : u.step .acquire = u := by
  obtain rfl := BufferRing.acquire_none h
  simp [step, h]

/-- A lease covers what its slot lacks of the frame shown. -/
theorem lease_covers {u : RingUse V} (hu : u.Inv) (ht : u.Tracked .acquire) {ring : BufferRing}
    {l : Lease} (h : u.ring.acquire = (ring, some l)) {p : Pixel} (hp : u.Differs l.slot p) :
    l.repaint.covers p := by
  rcases BufferRing.acquire_cases h with ⟨-, -, lp, hlp, hr, hbest⟩ | ⟨-, -, hr⟩
  · rw [hr, BufferRing.repaintFor_covers]
    by_cases hun : u.ring.Untracked lp
    · exact .inl hun
    · rcases hu.content _ lp hlp hun p hp with hc | hc
      · exact .inr hc
      · exact ht _ lp hbest p hc
  · rw [hr]
    rfl

/-- Before the first frame every lease is a full repaint. -/
theorem full_of_unshown {u : RingUse V} (hu : u.Inv) (hs : u.shown = none) {ring : BufferRing}
    {l : Lease} (h : u.ring.acquire = (ring, some l)) : l.repaint.full = true := by
  rcases BufferRing.acquire_cases h with ⟨-, -, lp, hlp, hr, -⟩ | ⟨-, -, hr⟩
  · rw [hr, BufferRing.repaintFor_eq, if_pos (.inl (hu.unshown hs _ lp hlp))]
  · rw [hr]

theorem lease_ne_lastSlot {u : RingUse V} (hu : u.Inv) {ring : BufferRing} {l : Lease}
    (h : u.ring.acquire = (ring, some l)) : u.lastSlot ≠ some l.slot := by
  intro hlast
  have hscan := hu.scanning _ hlast
  rcases (BufferRing.acquire_spec h).before with hb | hb <;> rw [hb] at hscan <;> cases hscan

theorem inv_acquire {u : RingUse V} (hu : u.Inv) (ht : u.Tracked .acquire) :
    (u.step .acquire).Inv := by
  cases h : u.ring.acquire with
  | mk ring lease =>
    cases lease with
    | none => rwa [step_acquire_none h]
    | some l =>
      have hspec := BufferRing.acquire_spec h
      have hlast := lease_ne_lastSlot hu h
      rw [step_acquire h]
      constructor
      case inRange => exact hspec.inRange hu.inRange
      case leased =>
        intro i
        rw [hspec.state i]
        by_cases his : l.slot = i
        · subst his
          simp
        · simpa [his, Function.update_of_ne (Ne.symm his)] using hu.leased i
      case scanning =>
        intro i hi
        rw [hspec.state i, if_neg]
        · exact hu.scanning i hi
        · rintro rfl
          exact hlast hi
      case unshown =>
        intro hs i lp hi
        exact (hspec.last i lp hi).elim (hu.unshown hs i lp) id
      case content =>
        intro i lp hi hun
        rw [hspec.untracked] at hun
        rw [hspec.since]
        rcases hspec.last i lp hi with hi | rfl
        · exact hu.content i lp hi hun
        · exact absurd (.inl rfl) hun
      case rendering =>
        intro i l' hi p hp
        dsimp only at hi
        by_cases his : i = l.slot
        · subst his
          rw [Function.update_self] at hi
          cases hi
          exact .inl (lease_covers hu ht h hp)
        · rw [Function.update_of_ne his] at hi
          exact hu.rendering i l' hi p hp

/-- A presented buffer is the frame. -/
theorem paintOver_eq_frame {u : RingUse V} (hu : u.Inv) {slot : ℕ} {frame : Pixel → V}
    {painted : Pixel → Bool} {damage : List Rect}
    (hh : u.Honoured (.present slot frame painted damage))
    (ht : u.Tracked (.present slot frame painted damage)) :
    paintOver (u.buffers slot) frame painted = frame := by
  obtain ⟨l, hl, hpaint, hframe⟩ := hh
  funext p
  unfold paintOver
  split
  · rfl
  · rename_i hp
    by_contra hne
    have hdiff : u.Differs slot p := by
      intro f hf heq
      have hpf : frame p ≠ f p := fun h => hne (heq.trans h.symm)
      exact hp (hframe f hf p hpf).1
    rcases hu.rendering slot l hl p hdiff with hc | hc
    · exact hp (hpaint p hc)
    · exact hp (ht.2 l hl p hc)

theorem inv_present {u : RingUse V} (hu : u.Inv) {slot : ℕ} {frame : Pixel → V}
    {painted : Pixel → Bool} {damage : List Rect}
    (hh : u.Honoured (.present slot frame painted damage))
    (ht : u.Tracked (.present slot frame painted damage)) :
    (u.step (.present slot frame painted damage)).Inv := by
  have hbuf := paintOver_eq_frame hu hh ht
  obtain ⟨l, hl, -, hframe⟩ := hh
  have hstate : u.ring.stateAt slot = some .inFlight := (hu.leased slot).mp (by simp [hl])
  have hslot : slot < u.ring.slots.length := by
    by_contra hlt
    rw [BufferRing.stateAt_eq_none.mpr (by omega)] at hstate
    cases hstate
  have hspec := BufferRing.present_spec hu.inRange hslot damage ht.1
  have hlast := BufferRing.lastAt_present hslot damage
  -- a slot that differs now differed before, or the frame changed there
  have hdiff : ∀ i p, (u.step (.present slot frame painted damage)).Differs i p →
      i ≠ slot ∧ (u.Differs i p ∨ covered damage p) := by
    intro i p hp
    have hp := hp frame rfl
    by_cases his : i = slot
    · subst his
      simp [step, hbuf] at hp
    · simp only [step, Function.update_of_ne his] at hp
      refine ⟨his, ?_⟩
      by_cases hc : covered damage p
      · exact .inr hc
      · refine .inl fun f hf heq => hc (hframe f hf p ?_).2
        exact fun h => hp (heq.trans h.symm)
  constructor
  case inRange => exact hspec.inRange
  case leased =>
    intro i
    simp only [step, BufferRing.stateAt_present hslot]
    by_cases his : slot = i
    · subst his
      simp
    · rw [Function.update_of_ne (Ne.symm his), if_neg his, Option.isSome_map, hu.leased i]
      cases u.ring.stateAt i with
      | none => simp
      | some st => cases st <;> simp
  case scanning =>
    intro i hi
    cases hi
    simp [step, BufferRing.stateAt_present hslot]
  case unshown =>
    intro hs
    cases hs
  case content =>
    intro i lp hi hun p hp
    obtain ⟨his, hp⟩ := hdiff i p hp
    simp only [step, hlast, if_neg (Ne.symm his)] at hi
    obtain ⟨hold, hsince⟩ := hspec.since lp (hu.inRange.last_le i lp hi) hun
    simp only [step, hsince, Function.update_of_ne his, covered, List.any_append,
      Bool.or_eq_true]
    rcases hp with hp | hp
    · exact (hu.content i lp hi hold p hp).imp_left .inl
    · exact .inl (.inr hp)
  case rendering =>
    intro i l' hi p hp
    obtain ⟨his, hp⟩ := hdiff i p hp
    simp only [step, Function.update_of_ne his, Option.map_eq_some_iff] at hi
    obtain ⟨l, hl, rfl⟩ := hi
    simp only [covered, List.any_append, Bool.or_eq_true]
    rcases hp with hp | hp
    · exact (hu.rendering i l hl p hp).imp_right .inl
    · exact .inr (.inr hp)

/-- A release leaves the slot shown alone. -/
theorem Inv.scanning_release {u : RingUse V} (hu : u.Inv) (slot i : ℕ) (hi : u.lastSlot = some i) :
    (u.ring.release slot).stateAt i = some .scanning := by
  have hs := hu.scanning i hi
  rw [BufferRing.stateAt_release, if_neg]
  · exact hs
  · rintro ⟨rfl, hne⟩
    exact hne hs

theorem inv_release {u : RingUse V} (hu : u.Inv) {slot : ℕ} (hh : u.Honoured (.release slot)) :
    (u.step (.release slot)).Inv := by
  have hnone : u.leases slot = none := hh
  have hfree : u.ring.stateAt slot ≠ some .inFlight := by
    intro hs
    simpa [hnone] using (hu.leased slot).mpr hs
  constructor
  case inRange => exact hu.inRange.release slot
  case leased =>
    intro i
    rw [step, BufferRing.stateAt_release, hu.leased i]
    split
    · rename_i hc
      obtain ⟨rfl, -⟩ := hc
      simp [hfree]
    · rfl
  case scanning => exact hu.scanning_release slot
  case unshown => exact fun hs i lp hi => hu.unshown hs i lp (by simpa [step] using hi)
  case content =>
    intro i lp hi hun
    simp only [step, BufferRing.lastAt_release, BufferRing.untracked_release] at hi hun
    simp only [step, BufferRing.damageSince_release]
    exact hu.content i lp hi hun
  case rendering => exact hu.rendering

theorem inv_abandon {u : RingUse V} (hu : u.Inv) {slot : ℕ} {content : Pixel → V}
    {painted : Pixel → Bool} (hh : u.Honoured (.abandon slot content painted)) :
    (u.step (.abandon slot content painted)).Inv := by
  have hleased : u.ring.stateAt slot = some .inFlight := (hu.leased slot).mp hh
  constructor
  case inRange => exact hu.inRange.release slot
  case leased =>
    intro i
    simp only [step, BufferRing.stateAt_release]
    by_cases his : slot = i
    · subst his
      simp [hleased]
    · rw [if_neg (fun h => his h.1), Function.update_of_ne (Ne.symm his)]
      exact hu.leased i
  case scanning => exact hu.scanning_release slot
  case unshown => exact fun hs i lp hi => hu.unshown hs i lp (by simpa [step] using hi)
  case content =>
    intro i lp hi hun p hp
    simp only [step, BufferRing.lastAt_release, BufferRing.untracked_release] at hi hun
    simp only [step, BufferRing.damageSince_release]
    by_cases his : i = slot
    · subst his
      rw [Function.update_self]
      by_cases hpaint : painted p
      · simp [hpaint]
      · have hold : u.Differs i p := by
          intro f hf
          simpa [step, paintOver, hpaint] using hp f hf
        simpa [hpaint] using hu.content i lp hi hun p hold
    · rw [Function.update_of_ne his]
      refine hu.content i lp hi hun p fun f hf => ?_
      simpa [step, Function.update_of_ne his] using hp f hf
  case rendering =>
    intro i l hi p hp
    simp only [step] at hi
    by_cases his : i = slot
    · subst his
      simp at hi
    · rw [Function.update_of_ne his] at hi
      refine hu.rendering i l hi p fun f hf => ?_
      simpa [step, Function.update_of_ne his] using hp f hf

/-- One call of an honest producer keeps the invariant. -/
theorem inv_step {u : RingUse V} {e : UseEvent V} (hu : u.Inv) (hh : u.Honoured e)
    (ht : u.Tracked e) : (u.step e).Inv := by
  cases e with
  | acquire => exact inv_acquire hu ht
  | present slot frame painted damage => exact inv_present hu hh ht
  | abandon slot content painted => exact inv_abandon hu hh
  | release slot => exact inv_release hu hh

theorem sound_step {u : RingUse V} {e : UseEvent V} (hu : u.Inv) (hh : u.Honoured e)
    (ht : u.Tracked e) : u.Sound e := by
  cases e with
  | acquire => exact fun ring l h => ⟨lease_ne_lastSlot hu h, fun p hp => lease_covers hu ht h hp⟩
  | present slot frame painted damage =>
    simp [Sound, step, paintOver_eq_frame hu hh ht]
  | abandon => trivial
  | release => trivial

/-- Runs of an honest producer whose abandoned renders stay within what the ring tracks: every
lease covers what its slot lacks, every presented buffer is its frame, and the history indices
stay in range. -/
theorem lease_covers_and_present_exact (maxSlots maxDamageRects : ℕ) (buffers : ℕ → Pixel → V)
    (es : List (UseEvent V))
    (h : Meets step (fun u e => u.Honoured e ∧ u.Tracked e) (init maxSlots maxDamageRects buffers)
      es) :
    Meets step Sound (init maxSlots maxDamageRects buffers) es ∧
      (run step (init maxSlots maxDamageRects buffers) es).ring.HistoryInRange := by
  have hstep : ∀ (u : RingUse V) e, u.Inv → u.Honoured e ∧ u.Tracked e → (u.step e).Inv :=
    fun u e hu hc => inv_step hu hc.1 hc.2
  have hinit := inv_init maxSlots maxDamageRects buffers
  exact ⟨meets_of_invariant Inv hstep (fun u e hu hc => sound_step hu hc.1 hc.2) hinit h,
    (run_invariant hstep hinit h).inRange⟩

/-! A slot painted in an abandoned render comes back with a partial repaint. -/

def everywhere : Pixel → Bool := fun _ => true

def solid (v : ℕ) : Pixel → ℕ := fun _ => v

/-- Slot 0 is leased again, painted all over and given back; then it is leased once more. -/
def abandonedRender : List (UseEvent ℕ) :=
  [.acquire, .present 0 (solid 0) everywhere [], .acquire, .present 1 (solid 0) everywhere [],
    .release 0, .acquire, .abandon 0 (solid 1) everywhere, .acquire,
    .present 0 (solid 0) (fun _ => false) []]

theorem honoured_abandonedRender :
    Meets step Honoured (init 2 16 fun _ => solid 0) abandonedRender := by
  refine ⟨trivial, ⟨_, rfl, fun _ _ => rfl, fun f hf => ?_⟩, trivial,
    ⟨_, rfl, fun _ _ => rfl, fun f hf p hp => ?_⟩, rfl, trivial, rfl, trivial,
    ⟨_, rfl, fun p hp => ?_, fun f hf p hp => ?_⟩, trivial⟩
  · cases hf
  · cases hf
    exact absurd rfl hp
  · cases hp
  · cases hf
    exact absurd rfl hp

theorem stale_after_abandonedRender :
    ¬ ∀ es : List (UseEvent ℕ), Meets step Honoured (init 2 16 fun _ => solid 0) es →
      Meets step Sound (init 2 16 fun _ => solid 0) es := by
  intro h
  have hsound := (h _ honoured_abandonedRender).2.2.2.2.2.2.2.2.1
  exact absurd (congrFun hsound ⟨0, 0⟩) (by decide)

/-! A slot that is reused after one frame repaints what that frame changed. -/

def box : Rect := ⟨0, 0, 1, 1⟩

/-- Nothing but the box, which has the value. -/
def boxed (v : ℕ) : Pixel → ℕ := fun p => if box.contains p then v else 0

def reusedSlot : List (UseEvent ℕ) :=
  [.acquire, .present 0 (solid 0) everywhere [], .acquire, .present 1 (boxed 1) everywhere [box],
    .release 0, .acquire, .present 0 (boxed 2) (covered [box]) [box]]

theorem tracked_reusedSlot :
    Meets step (fun u e => u.Honoured e ∧ u.Tracked e) (init 2 16 fun _ => solid 5)
      reusedSlot := by
  have h0 : (init 2 16 fun _ => solid 5).Untouched := fun _ _ => rfl
  have h1 := untouched_present (untouched_acquire h0) 0 (solid 0) everywhere []
  have h2 := untouched_present (untouched_acquire h1) 1 (boxed 1) everywhere [box]
  refine ⟨⟨trivial, tracked_acquire h0⟩,
    ⟨⟨_, rfl, fun _ _ => rfl, fun f hf => ?_⟩, by decide, fun l hl p hp => rfl⟩,
    ⟨trivial, tracked_acquire h1⟩,
    ⟨⟨_, rfl, fun _ _ => rfl, fun f hf p hp => ?_⟩, by decide, fun l hl p hp => rfl⟩,
    ⟨rfl, trivial⟩, ⟨trivial, tracked_acquire h2⟩,
    ⟨⟨_, rfl, fun p hp => hp, fun f hf p hp => ?_⟩, by decide, fun l hl p hp => ?_⟩, trivial⟩
  · cases hf
  · cases hf
    by_contra hc
    simp_all [solid, boxed, covered, everywhere]
  · cases hf
    by_contra hc
    simp_all [boxed, covered]
  · cases hl
    cases hp

theorem lease_covers_and_present_exact_reusedSlot :
    Meets step Sound (init 2 16 fun _ => solid 5) reusedSlot ∧
      (run step (init 2 16 fun _ => solid 5) reusedSlot).ring.HistoryInRange :=
  lease_covers_and_present_exact 2 16 _ reusedSlot tracked_reusedSlot

end RingUse

end DrmCxx.Present
