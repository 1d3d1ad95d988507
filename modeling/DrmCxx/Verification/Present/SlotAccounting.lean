import DrmCxx.Lib.Run
import DrmCxx.Present.DumbRingSource
import DrmCxx.Verification.Present.BufferAge
import Mathlib.Data.List.Nodup
import Mathlib.Data.List.Perm.Subperm

/-!
# Where the slots of a dumb ring source are

A source under any sequence of paints, acquisitions and releases. A slot is accounted for when it
is free, on its way to the screen, or held by an acquisition; a paint can leave one that nothing
will ever give back.
-/

namespace DrmCxx.Present

open Lib (Meets run run_always meets_iff_of_kept)

/-! ### What each operation does -/

namespace DumbRingSource

/-- `ensure_slot` succeeds. -/
def Ready (s : DumbRingSource) (slot : ℕ) (alloc : Except Errc ℕ) : Prop :=
  (s.bufferAt slot).isSome ∨ ∃ fbId, alloc = .ok fbId

theorem length_growBuffers (buffers : List (Option ℕ)) (slot : ℕ) :
    slot < (growBuffers buffers slot).length := by
  unfold growBuffers
  split
  · simp only [List.length_append, List.length_replicate]
    omega
  · omega

theorem growBuffers_join (buffers : List (Option ℕ)) (slot i : ℕ) :
    (growBuffers buffers slot)[i]?.join = buffers[i]?.join := by
  unfold growBuffers
  split
  · rcases Nat.lt_or_ge i buffers.length with h | h
    · rw [List.getElem?_append_left h]
    · rw [List.getElem?_append_right h, List.getElem?_replicate, List.getElem?_eq_none h]
      split <;> rfl
  · rfl

theorem ensureSlot_cases (s : DumbRingSource) (slot : ℕ) (alloc : Except Errc ℕ) :
    ∃ buffers, (ensureSlot s slot alloc).1 = { s with buffers } ∧
      (∀ i, (s.bufferAt i).isSome → (buffers[i]?.join).isSome) ∧
      (s.Ready slot alloc ∧ (ensureSlot s slot alloc).2 = none ∧
          (buffers[slot]?.join).isSome ∨
        ¬ s.Ready slot alloc ∧ ∃ e, (ensureSlot s slot alloc).2 = some e) := by
  have hbuf : ∀ i, (growBuffers s.buffers slot)[i]?.join = s.bufferAt i :=
    fun i => growBuffers_join s.buffers slot i
  have hkeep : ∀ i, (s.bufferAt i).isSome → ((growBuffers s.buffers slot)[i]?.join).isSome := by
    intro i hi
    rwa [hbuf]
  have hlen := length_growBuffers s.buffers slot
  have hslot : bufferAt { s with buffers := growBuffers s.buffers slot } slot = s.bufferAt slot :=
    hbuf slot
  unfold ensureSlot
  simp only [hslot]
  cases h : s.bufferAt slot with
  | some fbId => exact ⟨_, rfl, hkeep, .inl ⟨.inl (by simp [h]), rfl, hkeep slot (by simp [h])⟩⟩
  | none =>
    cases alloc with
    | error e =>
      refine ⟨_, rfl, hkeep, .inr ⟨?_, e, rfl⟩⟩
      rintro (hr | ⟨fbId, hr⟩)
      · simp [h] at hr
      · cases hr
    | ok fbId =>
      refine ⟨_, rfl, fun i hi => ?_, .inl ⟨.inr ⟨fbId, rfl⟩, rfl, by simp [hlen]⟩⟩
      by_cases hs : slot = i
      · subst hs
        simp [hlen]
      · rw [List.getElem?_set_ne hs]
        exact hkeep i hi

/-- What a paint does: no slot, a lease whose buffer cannot be had, or a frame presented. -/
theorem paint_cases (s : DumbRingSource) (alloc : Except Errc ℕ)
    (fn : ℕ → Repaint → List Rect) :
    (s.ring.acquire.2 = none ∧ s.paint alloc fn = (s, .error .resourceUnavailableTryAgain)) ∨
    ∃ ring l, s.ring.acquire = (ring, some l) ∧ ∃ buffers,
      (∀ i, (s.bufferAt i).isSome → (buffers[i]?.join).isSome) ∧
      ((¬ s.Ready l.slot alloc ∧ ∃ e, s.paint alloc fn = ({ s with ring, buffers }, .error e)) ∨
      (s.Ready l.slot alloc ∧ (buffers[l.slot]?.join).isSome ∧ s.paint alloc fn =
        ({ ring := ring.present l.slot (fn l.slot l.repaint), buffers
           pendingSlot := some l.slot
           pendingDamage := if l.repaint.full then [] else fn l.slot l.repaint }, .ok l))) := by
  cases h : s.ring.acquire with
  | mk ring lease =>
    cases lease with
    | none =>
      obtain rfl := BufferRing.acquire_none h
      exact .inl ⟨rfl, by simp [paint, h]⟩
    | some l =>
      refine .inr ⟨ring, l, rfl, ?_⟩
      obtain ⟨buffers, hs, hkeep, hcase⟩ := ensureSlot_cases { s with ring } l.slot alloc
      refine ⟨buffers, hkeep, ?_⟩
      cases hres : ensureSlot { s with ring } l.slot alloc with
      | mk s' e =>
        rw [hres] at hs hcase
        obtain rfl : s' = { s with ring, buffers } := hs
        rcases hcase with ⟨hready, he, hsome⟩ | ⟨hready, e', he⟩
        · obtain rfl : e = none := he
          refine .inr ⟨hready, hsome, ?_⟩
          obtain ⟨fbId, hfb⟩ := Option.isSome_iff_exists.mp hsome
          simp only [paint, h, hres, bufferAt, hfb]
        · obtain rfl : e = some e' := he
          exact .inl ⟨hready, e', by simp [paint, h, hres]⟩

theorem acquire_cases (s : DumbRingSource) :
    (s.acquire.1 = { s with pendingSlot := none } ∧ ∃ e, s.acquire.2 = .error e) ∨
    ∃ slot fbId, s.pendingSlot = some slot ∧
      s.acquire = ({ s with pendingSlot := none }, .ok ⟨fbId, slot, s.pendingDamage⟩) := by
  unfold acquire
  cases h : s.pendingSlot with
  | none =>
    refine .inl ⟨?_, _, rfl⟩
    cases s
    simp_all
  | some slot =>
    cases hb : s.bufferAt slot with
    | none => exact .inl ⟨by simp [hb], ioError, by simp [hb]⟩
    | some fbId => exact .inr ⟨slot, fbId, rfl, by simp [hb]⟩

end DumbRingSource

/-! ### Calls on a source, with the acquisitions not yet released -/

structure SourceTrace where
  source : DumbRingSource
  /-- The slots of the acquisitions not yet released. -/
  held : List ℕ := []

inductive SourceEvent
  | paint (alloc : Except Errc ℕ) (fn : ℕ → Repaint → List Rect)
  | acquire
  /-- Releases the `i`-th acquisition still held. -/
  | release (i : ℕ)

namespace SourceTrace

def init (maxSlots : ℕ) : SourceTrace :=
  { source := .create maxSlots }

def step (t : SourceTrace) : SourceEvent → SourceTrace
  | .paint alloc fn => { t with source := (t.source.paint alloc fn).1 }
  | .acquire =>
    match t.source.acquire with
    | (source, .error _) => { t with source }
    | (source, .ok acquired) => { source, held := t.held ++ [acquired.slot] }
  | .release i =>
    match t.held[i]? with
    | none => t
    | some slot => { source := t.source.release slot, held := t.held.eraseIdx i }

/-- Every slot is free, on its way to the screen, or held. -/
def Accounted (t : SourceTrace) : Prop :=
  ∀ i st, t.source.ring.stateAt i = some st →
    st = .free ∨ st = .scanning ∨ t.source.pendingSlot = some i ∨ i ∈ t.held

/-- With four slots and at most two acquisitions out, a paint gets a slot. -/
def PaintServed (t : SourceTrace) : SourceEvent → Prop
  | .paint _ _ =>
    4 ≤ t.source.ring.maxSlots → t.held.length ≤ 2 → (t.source.ring.acquire).2 ≠ none
  | _ => True

/-- A paint that gets a slot gets its buffer too, and the slot presented before is held. -/
def Kept (t : SourceTrace) : SourceEvent → Prop
  | .paint alloc _ => ∀ ring l, t.source.ring.acquire = (ring, some l) →
      t.source.Ready l.slot alloc ∧ ∀ i, t.source.ring.stateAt i = some .scanning → i ∈ t.held
  | _ => True

structure Inv (t : SourceTrace) : Prop where
  pending : ∀ i, t.source.pendingSlot = some i →
    t.source.ring.stateAt i = some .scanning ∧ i ∉ t.held
  held : ∀ i ∈ t.held, t.source.ring.stateAt i = some .scanning ∨
    t.source.ring.stateAt i = some .pendingRelease
  nodup : t.held.Nodup
  scanning : ∀ i j, t.source.ring.stateAt i = some .scanning →
    t.source.ring.stateAt j = some .scanning → i = j

theorem inv_init (maxSlots : ℕ) : (init maxSlots).Inv where
  pending i h := by cases h
  held i h := by cases h
  nodup := List.nodup_nil
  scanning i j h := by simp [init, DumbRingSource.create, BufferRing.create,
    BufferRing.stateAt] at h

theorem accounted_init (maxSlots : ℕ) : (init maxSlots).Accounted := by
  intro i st h
  simp [init, DumbRingSource.create, BufferRing.create, BufferRing.stateAt] at h

/-! ### One step -/

/-- A slot about to be leased is neither on its way to the screen nor held. -/
theorem Inv.leased_ne {t : SourceTrace} (ht : t.Inv) {ring : BufferRing} {l : Lease}
    (h : BufferRing.AcquireSpec t.source.ring ring l) :
    (∀ i, t.source.ring.stateAt i = some .scanning → l.slot ≠ i) ∧ l.slot ∉ t.held := by
  have hne : ∀ st, t.source.ring.stateAt l.slot = some st → st = .free := by
    intro st hst
    rcases h.before with hb | hb <;> rw [hb] at hst <;> cases hst
    rfl
  refine ⟨?_, fun hl => ?_⟩
  · rintro i hi rfl
    cases hne _ hi
  · rcases ht.held _ hl with hs | hs <;> cases hne _ hs

theorem inv_paint {t : SourceTrace} (ht : t.Inv) (alloc : Except Errc ℕ)
    (fn : ℕ → Repaint → List Rect) : (t.step (.paint alloc fn)).Inv := by
  rcases t.source.paint_cases alloc fn with ⟨-, hs⟩ | ⟨ring, l, hr, buffers, -, hcase⟩
  · simpa [step, hs] using ht
  have hspec := BufferRing.acquire_spec hr
  obtain ⟨hscan, hheld⟩ := ht.leased_ne hspec
  rcases hcase with ⟨-, e, hs⟩ | ⟨-, -, hs⟩
  · simp only [step, hs]
    constructor
    case pending =>
      intro i hi
      obtain ⟨h1, h2⟩ := ht.pending i hi
      rw [hspec.state, if_neg (hscan i h1)]
      exact ⟨h1, h2⟩
    case held =>
      intro i hi
      rw [hspec.state, if_neg (by rintro rfl; exact hheld hi)]
      exact ht.held i hi
    case nodup => exact ht.nodup
    case scanning =>
      intro i j hi hj
      rw [hspec.state] at hi hj
      split at hi
      · cases hi
      · split at hj
        · cases hj
        · exact ht.scanning i j hi hj
  · simp only [step, hs]
    have hstate := BufferRing.stateAt_acquire_present hspec (fn l.slot l.repaint)
    -- only the new slot is scanning now
    have hnew : ∀ i, (ring.present l.slot (fn l.slot l.repaint)).stateAt i = some .scanning →
        l.slot = i := by
      intro i hi
      by_contra hne
      rw [hstate, if_neg hne] at hi
      cases hst : t.source.ring.stateAt i with
      | none => simp [hst] at hi
      | some st => cases st <;> simp [hst] at hi
    constructor
    case pending =>
      intro i hi
      cases hi
      exact ⟨by rw [hstate, if_pos rfl], hheld⟩
    case held =>
      intro i hi
      right
      rw [hstate, if_neg (by rintro rfl; exact hheld hi)]
      rcases ht.held i hi with h | h <;> simp [h]
    case nodup => exact ht.nodup
    case scanning => exact fun i j hi hj => (hnew i hi).symm.trans (hnew j hj)

theorem inv_acquire {t : SourceTrace} (ht : t.Inv) : (t.step .acquire).Inv := by
  rcases t.source.acquire_cases with ⟨hs, e, he⟩ | ⟨slot, fbId, hp, hs⟩
  · have hstep : t.step .acquire = { t with source := { t.source with pendingSlot := none } } := by
      rw [step]
      cases h : t.source.acquire with
      | mk source answer =>
        rw [h] at hs he
        obtain rfl := hs
        obtain rfl := he
        rfl
    rw [hstep]
    exact ⟨fun i hi => (by cases hi), ht.held, ht.nodup, ht.scanning⟩
  · obtain ⟨hscan, hnot⟩ := ht.pending slot hp
    simp only [step, hs]
    refine ⟨fun i hi => (by cases hi), fun i hi => ?_, ?_, ht.scanning⟩
    · rcases List.mem_append.mp hi with hi | hi
      · exact ht.held i hi
      · obtain rfl := List.mem_singleton.mp hi
        exact .inl hscan
    · exact List.nodup_append.mpr ⟨ht.nodup, List.nodup_singleton _,
        fun a ha b hb => by
          obtain rfl := List.mem_singleton.mp hb
          exact fun h => hnot (h ▸ ha)⟩

theorem mem_eraseIdx_of_nodup {l : List ℕ} (hl : l.Nodup) {i slot : ℕ} (hi : l[i]? = some slot)
    {j : ℕ} : j ∈ l.eraseIdx i ↔ j ∈ l ∧ j ≠ slot := by
  have hlt := (List.getElem?_eq_some_iff.mp hi).1
  rw [← List.getElem?_eq_some_iff.mp hi |>.2, ← hl.erase_getElem i hlt, hl.mem_erase_iff]
  exact and_comm

theorem inv_release {t : SourceTrace} (ht : t.Inv) (i : ℕ) : (t.step (.release i)).Inv := by
  cases hi : t.held[i]? with
  | none => simpa [step, hi] using ht
  | some slot =>
    have hmem := fun j => mem_eraseIdx_of_nodup ht.nodup hi (j := j)
    have hstate : ∀ j st, st ≠ .free → ((t.source.release slot).ring.stateAt j = some st →
        t.source.ring.stateAt j = some st) := by
      intro j st hst h
      simp only [DumbRingSource.release, BufferRing.stateAt_release] at h
      split at h
      · cases hj : t.source.ring.stateAt j with
        | none => simp [hj] at h
        | some st' => simp [hj, hst.symm] at h
      · exact h
    have hkeep : ∀ j, (j ≠ slot ∨ t.source.ring.stateAt j = some .scanning) →
        (t.source.release slot).ring.stateAt j = t.source.ring.stateAt j := by
      intro j hj
      simp only [DumbRingSource.release, BufferRing.stateAt_release]
      split
      · rename_i hc
        rcases hj with hj | hj
        · exact absurd hc.1.symm hj
        · exact absurd (hc.1 ▸ hj) hc.2
      · rfl
    simp only [step, hi]
    constructor
    case pending =>
      intro j hj
      obtain ⟨hscan, hnot⟩ := ht.pending j hj
      exact ⟨by rw [hkeep j (.inr hscan)]; exact hscan, fun h => hnot ((hmem j).mp h).1⟩
    case held =>
      intro j hj
      obtain ⟨hj, hne⟩ := (hmem j).mp hj
      rw [hkeep j (.inl hne)]
      exact ht.held j hj
    case nodup => exact ht.nodup.sublist (List.eraseIdx_sublist _ _)
    case scanning =>
      intro j k hj hk
      exact ht.scanning j k (hstate j _ (by simp) hj) (hstate k _ (by simp) hk)

theorem inv_step {t : SourceTrace} (e : SourceEvent) (ht : t.Inv) : (t.step e).Inv := by
  cases e with
  | paint alloc fn => exact inv_paint ht alloc fn
  | acquire => exact inv_acquire ht
  | release i => exact inv_release ht i

/-! ### Accounting -/

theorem accounted_acquire {t : SourceTrace} (ht : t.Inv) (ha : t.Accounted) :
    (t.step .acquire).Accounted := by
  have hring : (t.step .acquire).source.ring = t.source.ring := by
    rcases t.source.acquire_cases with ⟨hs, e, he⟩ | ⟨slot, fbId, -, hs⟩
    · simp only [step]
      split <;> simp_all
    · simp only [step, hs]
  have hheld : ∀ i ∈ t.held, i ∈ (t.step .acquire).held := by
    intro i hi
    simp only [step]
    split
    · exact hi
    · exact List.mem_append_left _ hi
  intro i st hst
  rw [hring] at hst
  rcases ha i st hst with h | h | h | h
  · exact .inl h
  · exact .inr (.inl h)
  · rw [(ht.pending i h).1] at hst
    exact .inr (.inl (Option.some.inj hst).symm)
  · exact .inr (.inr (.inr (hheld i h)))

theorem accounted_release {t : SourceTrace} (ht : t.Inv) (ha : t.Accounted) (i : ℕ) :
    (t.step (.release i)).Accounted := by
  cases hi : t.held[i]? with
  | none => simpa [step, hi] using ha
  | some slot =>
    intro j st hst
    simp only [step, hi] at hst ⊢
    simp only [DumbRingSource.release, BufferRing.stateAt_release] at hst
    rw [mem_eraseIdx_of_nodup ht.nodup hi]
    by_cases hj : slot = j
    · subst hj
      by_cases hscan : t.source.ring.stateAt slot = some .scanning
      · rw [if_neg (fun h => h.2 hscan), hscan] at hst
        exact .inr (.inl (Option.some.inj hst).symm)
      · rw [if_pos ⟨rfl, hscan⟩] at hst
        obtain ⟨-, -, rfl⟩ := Option.map_eq_some_iff.mp hst
        exact .inl rfl
    · rw [if_neg (fun h => hj h.1)] at hst
      rcases ha j st hst with h | h | h | h
      · exact .inl h
      · exact .inr (.inl h)
      · exact .inr (.inr (.inl h))
      · exact .inr (.inr (.inr ⟨h, Ne.symm hj⟩))

/-- A paint leaves every slot accounted for exactly if it is kept. -/
theorem accounted_paint_iff {t : SourceTrace} (ht : t.Inv) (ha : t.Accounted)
    (alloc : Except Errc ℕ) (fn : ℕ → Repaint → List Rect) :
    (t.step (.paint alloc fn)).Accounted ↔ t.Kept (.paint alloc fn) := by
  rcases t.source.paint_cases alloc fn with ⟨hnone, hs⟩ | ⟨ring, l, hr, buffers, -, hcase⟩
  · have hstep : t.step (.paint alloc fn) = t := by simp [step, hs]
    rw [hstep]
    refine iff_of_true ha fun ring l h => ?_
    rw [h] at hnone
    cases hnone
  have hspec := BufferRing.acquire_spec hr
  obtain ⟨hscan, hheld⟩ := ht.leased_ne hspec
  rcases hcase with ⟨hready, e, hs⟩ | ⟨hready, -, hs⟩
  · -- the lease is never given back
    refine iff_of_false (fun hacc => ?_) (fun hk => hready (hk ring l hr).1)
    have hst : ring.stateAt l.slot = some .inFlight := by rw [hspec.state, if_pos rfl]
    simp only [step, hs] at hacc
    rcases hacc l.slot _ hst with h | h | h | h
    · cases h
    · cases h
    · exact hscan _ (ht.pending _ h).1 rfl
    · exact hheld h
  · have hstate := BufferRing.stateAt_acquire_present hspec (fn l.slot l.repaint)
    simp only [step, hs]
    constructor
    · intro hacc ring' l' hr'
      obtain ⟨rfl, rfl⟩ : ring = ring' ∧ l = l' := by simpa [hr] using hr'
      refine ⟨hready, fun i hi => ?_⟩
      have hst := hstate i
      rw [if_neg (hscan i hi), hi] at hst
      rcases hacc i _ hst with h | h | h | h
      · cases h
      · cases h
      · exact absurd (Option.some.inj h) (hscan i hi)
      · exact h
    · intro hk i st hst
      dsimp only at hst ⊢
      rw [hstate] at hst
      by_cases hi : l.slot = i
      · exact .inr (.inr (.inl (by rw [hi])))
      · rw [if_neg hi] at hst
        obtain ⟨st', hst', rfl⟩ := Option.map_eq_some_iff.mp hst
        by_cases hs' : st' = .scanning
        · subst hs'
          exact .inr (.inr (.inr ((hk ring l hr).2 i hst')))
        · rw [if_neg hs']
          rcases ha i st' hst' with h | h | h | h
          · exact .inl h
          · exact absurd h hs'
          · rw [(ht.pending i h).1] at hst'
            exact absurd (Option.some.inj hst').symm hs'
          · exact .inr (.inr (.inr h))

/-- With every slot accounted for, at most three are in use while two acquisitions are out. -/
theorem paintServed_of_accounted {t : SourceTrace} (ht : t.Inv) (ha : t.Accounted)
    (e : SourceEvent) : t.PaintServed e := by
  cases e with
  | paint alloc fn =>
    intro hmax hheld hnone
    obtain ⟨hfull, hbusy⟩ := BufferRing.acquire_eq_none hnone
    have hmem : ∀ i < t.source.ring.slots.length,
        t.source.ring.stateAt i = some .scanning ∨ i ∈ t.held := by
      intro i hi
      have hst : t.source.ring.stateAt i = some t.source.ring.slots[i].state := by
        simp [BufferRing.stateAt, hi]
      rcases ha i _ hst with h | h | h | h
      · exact absurd h (hbusy _ (List.getElem_mem hi))
      · exact .inl (by rw [hst, h])
      · exact .inl (ht.pending i h).1
      · exact .inr h
    have hlen : t.source.ring.slots.length ≤ t.held.length + 1 := by
      by_cases hex : ∃ i, t.source.ring.stateAt i = some .scanning
      · obtain ⟨i₀, hi₀⟩ := hex
        have hsub : List.range t.source.ring.slots.length ⊆ i₀ :: t.held := by
          intro i hi
          rcases hmem i (List.mem_range.mp hi) with h | h
          · exact List.mem_cons.mpr (.inl (ht.scanning i i₀ h hi₀))
          · exact List.mem_cons_of_mem _ h
        simpa using (List.subperm_of_subset List.nodup_range hsub).length_le
      · have hsub : List.range t.source.ring.slots.length ⊆ t.held := by
          intro i hi
          exact (hmem i (List.mem_range.mp hi)).resolve_left fun h => hex ⟨i, h⟩
        have := (List.subperm_of_subset List.nodup_range hsub).length_le
        simp only [List.length_range] at this
        omega
    omega
  | acquire => trivial
  | release i => trivial

/-! ### Runs -/

/-- Every slot stays accounted for, and every paint is served, exactly in the runs whose paints
are all kept. -/
theorem accounted_iff_kept (maxSlots : ℕ) (es : List SourceEvent) :
    Meets step (fun t e => t.PaintServed e ∧ (t.step e).Accounted) (init maxSlots) es ↔
      Meets step Kept (init maxSlots) es := by
  have hstep : ∀ (t : SourceTrace) e, t.Inv ∧ t.Accounted →
      t.PaintServed e ∧ (t.step e).Accounted → (t.step e).Inv ∧ (t.step e).Accounted :=
    fun t e ht he => ⟨inv_step e ht.1, he.2⟩
  refine meets_iff_of_kept (fun t => t.Inv ∧ t.Accounted) hstep (fun t e ht => ?_)
    ⟨inv_init maxSlots, accounted_init maxSlots⟩ es
  have hserved := paintServed_of_accounted ht.1 ht.2 e
  cases e with
  | paint alloc fn =>
    rw [accounted_paint_iff ht.1 ht.2]
    exact and_iff_right hserved
  | acquire => exact iff_of_true ⟨hserved, accounted_acquire ht.1 ht.2⟩ trivial
  | release i => exact iff_of_true ⟨hserved, accounted_release ht.1 ht.2 i⟩ trivial

/-- A frame acquired for a test-only commit is released while its slot is still the ring's
scanning one; the next paint leaves that slot behind. -/
def testedFrame : List SourceEvent :=
  [.paint (.ok 1) (fun _ _ => []), .acquire, .release 0, .paint (.ok 2) (fun _ _ => [])]

theorem slot_lost_after_testedFrame :
    ¬ ∀ es : List SourceEvent,
      Meets step (fun t e => t.PaintServed e ∧ (t.step e).Accounted) (init 4) es := by
  intro h
  have hacc := (h testedFrame).2.2.2.1.2
  have hlost := hacc 0 .pendingRelease rfl
  revert hlost
  decide

end SourceTrace

end DrmCxx.Present
