import DrmCxx.Verification.Present.SlotAccounting

/-!
# The damage of acquired buffers

A source whose application paints what it is told and reports what each frame changes against
the frame painted before, with commits of its acquisitions accepted or not in any order. The
damage of an acquisition is about the frame painted before, which need not be the one on screen.
-/

namespace DrmCxx.Present

open Lib (Meets meets_congr meets_of_invariant)

/-- The source with its buffers of pixel values `V`, what was painted and what is on screen. -/
structure DamageTrace (V : Type*) where
  source : DumbRingSource
  /-- The ring the producer sees, with the contents of the buffers. -/
  use : RingUse V
  held : List ℕ := []
  /-- The frame painted before the last one. -/
  previous : Option (Pixel → V) := none
  /-- What the last accepted commit shows. -/
  screen : Option (Pixel → V) := none

inductive DamageEvent (V : Type*)
  /-- The callback paints the pixels `painted` with the frame and returns the damage. -/
  | paint (alloc : Except Errc ℕ) (frame : Pixel → V) (painted : Pixel → Bool)
      (damage : List Rect)
  | acquire
  /-- The commit of the `i`-th acquisition still held is accepted. -/
  | accept (i : ℕ)
  | release (i : ℕ)

namespace DamageTrace

variable {V : Type*}

def init (maxSlots : ℕ) (buffers : ℕ → Pixel → V) : DamageTrace V :=
  { source := .create maxSlots
    use := .init maxSlots DumbRingSource.kMaxDamageRects buffers }

/-- The buffers after a paint: nothing is painted unless the slot is leased and allocated. -/
def paintUse (t : DamageTrace V) (alloc : Except Errc ℕ) (frame : Pixel → V)
    (painted : Pixel → Bool) (damage : List Rect) : RingUse V :=
  match t.source.paint alloc fun _ _ => damage with
  | (_, .ok lease) => (t.use.step .acquire).step (.present lease.slot frame painted damage)
  | (_, .error _) => t.use.step .acquire

def step (t : DamageTrace V) : DamageEvent V → DamageTrace V
  | .paint alloc frame painted damage =>
    { t with
      source := (t.source.paint alloc fun _ _ => damage).1
      use := t.paintUse alloc frame painted damage
      previous := match (t.source.paint alloc fun _ _ => damage).2 with
        | .ok _ => t.use.shown
        | .error _ => t.previous }
  | .acquire =>
    match t.source.acquire with
    | (source, .error _) => { t with source }
    | (source, .ok acquired) => { t with source, held := t.held ++ [acquired.slot] }
  | .accept i =>
    match t.held[i]? with
    | none => t
    | some slot => { t with screen := some (t.use.buffers slot) }
  | .release i =>
    match t.held[i]? with
    | none => t
    | some slot =>
      { t with
        source := t.source.release slot
        use := t.use.step (.release slot)
        held := t.held.eraseIdx i }

/-- The application paints at least the repaint it is given and what its frame changes, and
reports every pixel its frame changes against the frame painted before. -/
def Honoured (t : DamageTrace V) : DamageEvent V → Prop
  | .paint alloc frame painted damage =>
    ∀ lease, (t.source.paint alloc fun _ _ => damage).2 = .ok lease →
      (∀ p, lease.repaint.covers p → painted p) ∧
      ∀ f, t.use.shown = some f → ∀ p, frame p ≠ f p → painted p ∧ covered damage p
  | _ => True

/-- The ring's present sequence does not wrap. -/
def NoWrap (t : DamageTrace V) : DamageEvent V → Prop
  | .paint _ _ _ _ => t.source.ring.presentSeq + 1 < seqModulus
  | _ => True

instance (t : DamageTrace V) : ∀ e, Decidable (t.NoWrap e)
  | .paint _ _ _ _ => inferInstanceAs (Decidable (_ < _))
  | .acquire | .accept _ | .release _ => .isTrue trivial

/-- An acquired buffer's damage is empty or covers every pixel that differs from the screen. -/
def Reported (t : DamageTrace V) : DamageEvent V → Prop
  | .acquire => ∀ acquired, t.source.acquire.2 = .ok acquired →
      acquired.damage = [] ∨ ∀ f, t.screen = some f →
        ∀ p, t.use.buffers acquired.slot p ≠ f p → covered acquired.damage p
  | _ => True

/-- A frame painted with damage is acquired only while the frame painted before it is what the
screen shows, as far as the damage does not cover it. -/
def InStep (t : DamageTrace V) : DamageEvent V → Prop
  | .acquire => t.source.pendingSlot.isSome → t.source.pendingDamage = [] ∨
      ∀ f g, t.screen = some f → t.previous = some g →
        ∀ p, ¬ covered t.source.pendingDamage p → g p = f p
  | _ => True

/-! ### The source and its slots, apart from the pixels -/

def toSource (t : DamageTrace V) : SourceTrace :=
  { source := t.source, held := t.held }

/-- Every step is one of the source's own, or leaves the source alone. -/
theorem toSource_step (t : DamageTrace V) (e : DamageEvent V) :
    (t.step e).toSource = t.toSource ∨ ∃ e', (t.step e).toSource = t.toSource.step e' := by
  cases e with
  | paint alloc frame painted damage => exact .inr ⟨.paint alloc fun _ _ => damage, rfl⟩
  | acquire =>
    refine .inr ⟨.acquire, ?_⟩
    simp only [step, SourceTrace.step, toSource]
    split <;> simp_all
  | accept i =>
    refine .inl ?_
    simp only [step]
    split <;> rfl
  | release i =>
    refine .inr ⟨.release i, ?_⟩
    simp only [step, SourceTrace.step, toSource]
    split <;> simp_all

theorem toSource_inv_step {t : DamageTrace V} (e : DamageEvent V) (ht : t.toSource.Inv) :
    (t.step e).toSource.Inv := by
  rcases t.toSource_step e with h | ⟨e', h⟩ <;> rw [h]
  · exact ht
  · exact SourceTrace.inv_step e' ht

/-! ### The invariant -/

/-- The frame waiting in the slot, and what its damage says of it. -/
structure Waiting (t : DamageTrace V) (slot : ℕ) (f : Pixel → V) : Prop where
  buffer : (t.source.bufferAt slot).isSome
  shown : t.use.shown = some f
  content : t.use.buffers slot = f
  damage : t.source.pendingDamage ≠ [] → ∃ g, t.previous = some g ∧
    ∀ p, f p ≠ g p → covered t.source.pendingDamage p

structure Inv (t : DamageTrace V) : Prop where
  ring : t.use.ring = t.source.ring
  use : t.use.Inv
  untouched : t.use.Untouched
  slots : t.toSource.Inv
  waiting : ∀ slot, t.source.pendingSlot = some slot → ∃ f, t.Waiting slot f

theorem inv_init (maxSlots : ℕ) (buffers : ℕ → Pixel → V) : (init maxSlots buffers).Inv where
  ring := rfl
  use := RingUse.inv_init maxSlots DumbRingSource.kMaxDamageRects buffers
  untouched _ _ := rfl
  slots := SourceTrace.inv_init maxSlots
  waiting slot h := by cases h

theorem inv_paint {t : DamageTrace V} (ht : t.Inv) {alloc : Except Errc ℕ} {frame : Pixel → V}
    {painted : Pixel → Bool} {damage : List Rect}
    (hh : t.Honoured (.paint alloc frame painted damage))
    (hw : t.NoWrap (.paint alloc frame painted damage)) :
    (t.step (.paint alloc frame painted damage)).Inv := by
  have hslots := toSource_inv_step (.paint alloc frame painted damage) ht.slots
  have huse := RingUse.inv_acquire ht.use (RingUse.tracked_acquire ht.untouched)
  have hclean := RingUse.untouched_acquire ht.untouched
  rcases t.source.paint_cases alloc fun _ _ => damage with
    ⟨hnone, hs⟩ | ⟨ring, l, hr, buffers, hkeep, hcase⟩
  · have hstep : t.use.step .acquire = t.use :=
      RingUse.step_acquire_none (Prod.ext rfl (by rw [ht.ring]; exact hnone))
    have : t.step (.paint alloc frame painted damage) = t := by
      simp [step, paintUse, hs, hstep]
    rwa [this]
  have hacq : t.use.ring.acquire = (ring, some l) := by rw [ht.ring]; exact hr
  have hstep := RingUse.step_acquire hacq
  rcases hcase with ⟨-, e, hs⟩ | ⟨-, hsome, hs⟩
  · -- the lease is lost, but no frame is
    have huse' : (t.step (.paint alloc frame painted damage)).use = t.use.step .acquire := by
      simp only [step, paintUse, hs]
    refine ⟨?_, huse' ▸ huse, huse' ▸ hclean, hslots, fun slot hslot => ?_⟩
    · rw [huse', hstep]
      simp only [step, hs]
    · simp only [step, hs] at hslot
      obtain ⟨f, hf⟩ := ht.waiting slot hslot
      refine ⟨f, ?_, ?_, ?_, ?_⟩
      · simp only [step, hs]
        exact hkeep slot hf.buffer
      · rw [huse', hstep]
        exact hf.shown
      · rw [huse', hstep]
        exact hf.content
      · simpa only [step, hs] using hf.damage
  · have hspec := BufferRing.acquire_spec hr
    have huse' : (t.step (.paint alloc frame painted damage)).use =
        (t.use.step .acquire).step (.present l.slot frame painted damage) := by
      simp only [step, paintUse, hs]
    have hhon : (t.use.step .acquire).Honoured (.present l.slot frame painted damage) := by
      rw [hstep]
      obtain ⟨h1, h2⟩ := hh l (by rw [hs])
      exact ⟨_, Function.update_self .., h1, h2⟩
    have htr : (t.use.step .acquire).Tracked (.present l.slot frame painted damage) := by
      rw [hstep]
      refine ⟨by rw [hspec.seq]; exact hw, fun l' hl' p hp => ?_⟩
      obtain rfl : ⟨l.repaint, []⟩ = l' := by simpa using hl'
      cases hp
    have hframe := RingUse.paintOver_eq_frame huse hhon htr
    refine ⟨?_, huse' ▸ RingUse.inv_present huse hhon htr,
      huse' ▸ RingUse.untouched_present hclean l.slot frame painted damage, hslots,
        fun slot hslot => ?_⟩
    · rw [huse', hstep]
      simp only [step, hs, RingUse.step]
    · simp only [step, hs] at hslot
      cases hslot
      refine ⟨frame, ?_, ?_, ?_, ?_⟩
      · simp only [step, hs]
        exact hsome
      · rw [huse']
        rfl
      · rw [huse']
        simpa only [RingUse.step, Function.update_self] using hframe
      · intro hd
        simp only [step, hs] at hd ⊢
        have hpart : l.repaint.full = false := by
          by_contra hfull
          simp [hfull] at hd
        cases hshown : t.use.shown with
        | none => rw [RingUse.full_of_unshown ht.use hshown hacq] at hpart; cases hpart
        | some g =>
          refine ⟨g, rfl, fun p hp => ?_⟩
          simpa [hpart] using ((hh l (by rw [hs])).2 g hshown p hp).2

theorem inv_step {t : DamageTrace V} {e : DamageEvent V} (ht : t.Inv) (hh : t.Honoured e)
    (hw : t.NoWrap e) : (t.step e).Inv := by
  have hslots := toSource_inv_step e ht.slots
  cases e with
  | paint alloc frame painted damage => exact inv_paint ht hh hw
  | acquire =>
    have hnone : (t.step .acquire).source = { t.source with pendingSlot := none } ∧
        (t.step .acquire).use = t.use := by
      rcases t.source.acquire_cases with ⟨hs, e, he⟩ | ⟨slot, fbId, -, hs⟩
      · simp only [step]
        split <;> simp_all
      · simp [step, hs]
    refine ⟨?_, hnone.2 ▸ ht.use, hnone.2 ▸ ht.untouched, hslots, fun slot hslot => ?_⟩
    · rw [hnone.1, hnone.2]
      exact ht.ring
    · rw [hnone.1] at hslot
      cases hslot
  | accept i =>
    cases hi : t.held[i]? with
    | none => simpa [step, hi] using ht
    | some slot =>
      simp only [step, hi] at hslots ⊢
      refine ⟨ht.ring, ht.use, ht.untouched, hslots, fun slot hslot => ?_⟩
      obtain ⟨f, hf⟩ := ht.waiting slot hslot
      exact ⟨f, hf.buffer, hf.shown, hf.content, hf.damage⟩
  | release i =>
    cases hi : t.held[i]? with
    | none => simpa [step, hi] using ht
    | some slot =>
      have hfree : t.use.Honoured (.release slot) := by
        have hmem : slot ∈ t.toSource.held := List.mem_of_getElem? hi
        by_contra hne
        have hflight := (ht.use.leased slot).mp (Option.isSome_iff_ne_none.mpr hne)
        rw [ht.ring] at hflight
        rcases ht.slots.held slot hmem with h | h <;> rw [toSource, hflight] at h <;> cases h
      simp only [step, hi] at hslots ⊢
      refine ⟨?_, RingUse.inv_release ht.use hfree, ht.untouched, hslots, fun slot' hslot => ?_⟩
      · simp only [RingUse.step, DumbRingSource.release, ht.ring]
      · obtain ⟨f, hf⟩ := ht.waiting slot' hslot
        exact ⟨f, hf.buffer, hf.shown, hf.content, hf.damage⟩

/-- An acquisition is reported as it should be exactly if it is in step with the screen. -/
theorem reported_iff_inStep {t : DamageTrace V} (ht : t.Inv) (e : DamageEvent V) :
    t.Reported e ↔ t.InStep e := by
  cases e with
  | acquire =>
    cases hp : t.source.pendingSlot with
    | none =>
      refine iff_of_true (fun acquired h => ?_) (fun h => by simp [hp] at h)
      rw [DumbRingSource.acquire, hp] at h
      cases h
    | some slot =>
      obtain ⟨f, hf⟩ := ht.waiting slot hp
      obtain ⟨fbId, hfb⟩ := Option.isSome_iff_exists.mp hf.buffer
      have hacq : t.source.acquire.2 = .ok ⟨fbId, slot, t.source.pendingDamage⟩ := by
        simp [DumbRingSource.acquire, hp, hfb]
      have hcov : t.source.pendingDamage ≠ [] → ∀ g, t.previous = some g →
          ∀ p, ¬ covered t.source.pendingDamage p → f p = g p := by
        intro hd g hg p hc
        obtain ⟨g', hg', hdiff⟩ := hf.damage hd
        obtain rfl : g = g' := Option.some.inj (hg.symm.trans hg')
        exact not_not.mp fun hne => hc (hdiff p hne)
      simp only [Reported, InStep, hacq, hp, Except.ok.injEq, forall_eq', Option.isSome_some,
        forall_const, hf.content]
      by_cases hd : t.source.pendingDamage = []
      · simp [hd]
      · obtain ⟨g, hg, -⟩ := hf.damage hd
        simp only [hd, false_or]
        constructor
        · intro h s g' hs hg' p hc
          rw [← hcov hd g' hg' p hc]
          exact not_not.mp fun hne => hc (h s hs p hne)
        · intro h s hs p hne
          by_contra hc
          exact hne ((hcov hd g hg p hc).trans (h s g hs hg p hc))
  | paint => exact Iff.rfl
  | accept => exact Iff.rfl
  | release => exact Iff.rfl

/-- In the runs of an honest application, every acquisition reports what differs from the screen
exactly if each is in step with the screen. -/
theorem damage_covers_iff_inStep (maxSlots : ℕ) (buffers : ℕ → Pixel → V)
    (es : List (DamageEvent V))
    (h : Meets step (fun t e => t.Honoured e ∧ t.NoWrap e) (init maxSlots buffers) es) :
    Meets step Reported (init maxSlots buffers) es ↔
      Meets step InStep (init maxSlots buffers) es := by
  have hstep : ∀ (t : DamageTrace V) e, t.Inv → t.Honoured e ∧ t.NoWrap e → (t.step e).Inv :=
    fun t e ht hc => inv_step ht hc.1 hc.2
  exact meets_congr (meets_of_invariant Inv hstep (fun t e ht _ => reported_iff_inStep ht e)
    (inv_init maxSlots buffers) h)

/-! Two frames painted before one commit: the second is reported against the first, which the
screen never showed. -/

section Unseen

open RingUse (everywhere solid box boxed)

def otherBox : Rect := ⟨1, 0, 1, 1⟩

def twoBoxes : Pixel → ℕ := fun p => if otherBox.contains p then 2 else boxed 1 p

/-- Three slots in rotation, two of them free again when the two frames are painted. -/
def unseenFrame : List (DamageEvent ℕ) :=
  [.paint (.ok 1) (solid 0) everywhere [], .acquire, .accept 0,
    .paint (.ok 2) (solid 0) everywhere [], .acquire, .accept 1,
    .paint (.ok 3) (solid 0) everywhere [], .acquire, .accept 2, .release 0, .release 0,
    .paint (.ok 4) (boxed 1) (covered [box]) [box],
    .paint (.ok 5) twoBoxes (covered [box, otherBox]) [otherBox], .acquire]

theorem honoured_unseenFrame :
    Meets step (fun t e => t.Honoured e ∧ t.NoWrap e) (init 3 fun _ => solid 0) unseenFrame := by
  refine ⟨⟨fun lease h => ?_, by decide⟩, ⟨trivial, trivial⟩, ⟨trivial, trivial⟩,
    ⟨fun lease h => ?_, by decide⟩, ⟨trivial, trivial⟩, ⟨trivial, trivial⟩,
    ⟨fun lease h => ?_, by decide⟩, ⟨trivial, trivial⟩, ⟨trivial, trivial⟩, ⟨trivial, trivial⟩,
    ⟨trivial, trivial⟩, ⟨fun lease h => ?_, by decide⟩, ⟨fun lease h => ?_, by decide⟩,
    ⟨trivial, trivial⟩, trivial⟩
  · obtain rfl := Except.ok.inj h
    exact ⟨fun _ _ => rfl, fun f hf => (by cases hf)⟩
  · obtain rfl := Except.ok.inj h
    refine ⟨fun _ _ => rfl, fun f hf p hp => ?_⟩
    cases hf
    exact absurd rfl hp
  · obtain rfl := Except.ok.inj h
    refine ⟨fun _ _ => rfl, fun f hf p hp => ?_⟩
    cases hf
    exact absurd rfl hp
  · obtain rfl := Except.ok.inj h
    refine ⟨fun p hp => (by cases hp), fun f hf p hp => ?_⟩
    cases hf
    have hc : covered [box] p := by
      by_contra hc
      simp_all [boxed, solid, covered]
    exact ⟨hc, hc⟩
  · obtain rfl := Except.ok.inj h
    refine ⟨fun p hp => ?_, fun f hf p hp => ?_⟩
    · have hbox : covered [box] p := hp
      simp_all [covered]
    · cases hf
      have hc : covered [otherBox] p := by
        by_contra hc
        simp_all [twoBoxes, boxed, covered]
      refine ⟨?_, hc⟩
      simp_all [covered]

theorem damage_covers_iff_inStep_unseenFrame :
    Meets step Reported (init 3 fun _ => solid 0) unseenFrame ↔
      Meets step InStep (init 3 fun _ => solid 0) unseenFrame :=
  damage_covers_iff_inStep 3 _ unseenFrame honoured_unseenFrame

theorem unreported_after_unseenFrame :
    ¬ ∀ es : List (DamageEvent ℕ),
      Meets step (fun t e => t.Honoured e ∧ t.NoWrap e) (init 3 fun _ => solid 0) es →
        Meets step Reported (init 3 fun _ => solid 0) es := by
  intro h
  have hrep := (h unseenFrame honoured_unseenFrame).2.2.2.2.2.2.2.2.2.2.2.2.2.1
  rcases hrep _ rfl with hd | hc
  · cases hd
  · have := hc _ rfl ⟨0, 0⟩ (by decide)
    revert this
    decide

end Unseen

end DamageTrace

end DrmCxx.Present
