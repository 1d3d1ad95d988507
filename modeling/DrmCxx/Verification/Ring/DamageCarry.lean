import DrmCxx.Lib.Run
import DrmCxx.Scene.RingPresenter

/-!
# Damage carried over dropped frames

A presenter under any sequence of `submit` and `acquire`, with the damage its producer reported:
what a fresh hand-out says it changes covers every frame dropped on a missed deadline since the
fresh hand-out before it.
-/

namespace DrmCxx.Scene

open Lib

structure DamageTrace where
  presenter : RingPresenter
  /-- The damage of the last submit. -/
  submitted : List DamageRect := []
  /-- The damage of the frames dropped since the last fresh hand-out, oldest first. -/
  dropped : List (List DamageRect) := []

inductive DamageEvent
  | submit (key : SlotKey) (fence : Option SyncFence) (damage : List DamageRect)
  | acquire (wait : FenceWait)

namespace DamageTrace

def init (fenceDeadline : Option ℕ) : DamageTrace :=
  { presenter := { fenceDeadline } }

/-- The frames an acquire that goes through or drops its frame answers for. -/
def frames (t : DamageTrace) : List (List DamageRect) := t.dropped ++ [t.submitted]

def step (ptr : PtrWidth) (t : DamageTrace) : DamageEvent → DamageTrace
  | .submit key fence damage =>
    { t with presenter := t.presenter.submit key fence damage, submitted := damage }
  | .acquire wait =>
    { t with
      presenter := (t.presenter.acquire ptr wait).1
      dropped :=
        if t.presenter.freshReady wait then []
        else if t.presenter.hasFreshFrame then t.frames
        else t.dropped }

/-- A submit that reports no rectangle, or more than the store holds, changes the whole frame. -/
def WholeFrame (damage : List DamageRect) : Prop := damage = [] ∨ kMaxDamage < damage.length

/-- Frames whose union is not told apart from the whole frame. -/
def NeedsWhole (frames : List (List DamageRect)) : Prop :=
  (∃ damage ∈ frames, WholeFrame damage) ∨ kMaxDamage < frames.flatten.length

/-- What `damage` owes to the frames it answers for; empty means the whole frame. -/
structure Covers (damage : List DamageRect) (frames : List (List DamageRect)) : Prop where
  all : damage = [] ∨ ∀ f ∈ frames, ∀ r ∈ f, r ∈ damage
  whole : NeedsWhole frames → damage = []

/-- A fresh hand-out covers its own submit and the frames dropped before it. -/
def Reported (ptr : PtrWidth) (t : DamageTrace) : DamageEvent → Prop
  | .submit _ _ _ => True
  | .acquire wait => (t.presenter.acquire ptr wait).2.kind = .fresh →
      Covers (t.presenter.acquire ptr wait).2.damage t.frames

/-! ### What the carry stands for -/

theorem needsWhole_concat {frames : List (List DamageRect)} {damage : List DamageRect} :
    NeedsWhole (frames ++ [damage]) ↔
      NeedsWhole frames ∨ damage = [] ∨ kMaxDamage < frames.flatten.length + damage.length := by
  have hlen : (frames ++ [damage]).flatten.length = frames.flatten.length + damage.length := by
    simp
  simp only [NeedsWhole, WholeFrame, hlen, List.mem_append, List.mem_singleton, or_and_right,
    exists_or, exists_eq_left]
  constructor
  · rintro ((h | h | h) | h)
    · exact .inl (.inl h)
    · exact .inr (.inl h)
    · exact .inr (.inr (by omega))
    · exact .inr (.inr h)
  · rintro ((h | h) | h | h)
    · exact .inl (.inl h)
    · exact .inr (by omega)
    · exact .inl (.inr (.inl h))
    · exact .inr h

/-- The stores hold the rectangles reported, or say "whole frame". -/
structure Accounted (t : DamageTrace) : Prop where
  pending : t.presenter.hasFreshFrame = true →
    t.presenter.pendingDamage = if kMaxDamage < t.submitted.length then [] else t.submitted
  whole : t.presenter.carriedDamageWhole = true ↔ NeedsWhole t.dropped
  rects : ¬ NeedsWhole t.dropped → t.presenter.carriedDamage = t.dropped.flatten

theorem accounted_init (fenceDeadline : Option ℕ) : Accounted (init fenceDeadline) := by
  refine ⟨?_, ?_, ?_⟩
  · simp [init, RingPresenter.hasFreshFrame]
  · simp [init, NeedsWhole]
  · simp [init]

variable {t : DamageTrace}

/-- The test both `accumulate_carried_damage` and `take_damage_with_carry` make: the carried frames
and the drained one together need a whole-frame repaint. -/
theorem Accounted.needsWhole_frames (h : Accounted t)
    (hfresh : t.presenter.hasFreshFrame = true) :
    NeedsWhole t.frames ↔ t.presenter.carriedDamageWhole = true ∨
      t.presenter.pendingDamage.length = 0 ∨
      kMaxDamage < t.presenter.carriedDamage.length + t.presenter.pendingDamage.length := by
  rw [frames, needsWhole_concat, h.whole]
  by_cases hwhole : NeedsWhole t.dropped
  · simp [hwhole]
  · rw [h.rects hwhole, h.pending hfresh]
    split
    · simp [hwhole]
      omega
    · simp [hwhole]

theorem Accounted.frames_flatten (h : Accounted t) (hfresh : t.presenter.hasFreshFrame = true)
    (hwhole : ¬ NeedsWhole t.frames) :
    t.presenter.carriedDamage ++ t.presenter.pendingDamage = t.frames.flatten := by
  rw [frames, needsWhole_concat, not_or, not_or] at hwhole
  rw [h.rects hwhole.1, h.pending hfresh, if_neg (by omega), frames]
  simp

/-- A hand-out reports exactly the frames it answers for. -/
theorem Accounted.damageWithCarry (h : Accounted t)
    (hfresh : t.presenter.hasFreshFrame = true) :
    (NeedsWhole t.frames → t.presenter.damageWithCarry t.presenter.pendingDamage = []) ∧
      (¬ NeedsWhole t.frames →
        t.presenter.damageWithCarry t.presenter.pendingDamage = t.frames.flatten) := by
  refine ⟨fun hwhole => ?_, fun hwhole => ?_⟩
  · rw [RingPresenter.damageWithCarry, if_pos ((h.needsWhole_frames hfresh).mp hwhole)]
  · rw [RingPresenter.damageWithCarry, if_neg (mt (h.needsWhole_frames hfresh).mpr hwhole)]
    exact h.frames_flatten hfresh hwhole

theorem Accounted.covers (h : Accounted t) (hfresh : t.presenter.hasFreshFrame = true) :
    Covers (t.presenter.damageWithCarry t.presenter.pendingDamage) t.frames := by
  obtain ⟨hyes, hno⟩ := h.damageWithCarry hfresh
  refine ⟨?_, hyes⟩
  by_cases hwhole : NeedsWhole t.frames
  · exact .inl (hyes hwhole)
  · rw [hno hwhole]
    exact .inr fun f hf r hr => List.mem_flatten.mpr ⟨f, hf, hr⟩

/-! ### The two calls -/

theorem accounted_submit (ptr : PtrWidth) (h : Accounted t) (key : SlotKey)
    (fence : Option SyncFence) (damage : List DamageRect) :
    Accounted (t.step ptr (.submit key fence damage)) :=
  ⟨fun _ => rfl, h.whole, h.rects⟩

/-- A dropped frame joins the carry. -/
theorem accounted_drop (h : Accounted t) (hfresh : t.presenter.hasFreshFrame = true) :
    Accounted { t with
      presenter := t.presenter.drain.accumulateCarriedDamage t.presenter.pendingDamage
      dropped := t.frames } := by
  obtain ⟨key, hkey⟩ := Option.isSome_iff_exists.mp hfresh
  have hdrain : t.presenter.drain =
      { t.presenter with pendingKey := none, pendingFence := none, pendingDamage := [] } := by
    simp [RingPresenter.drain, hkey]
  have hiff := h.needsWhole_frames hfresh
  rw [hdrain]
  unfold RingPresenter.accumulateCarriedDamage
  split_ifs with hcarried hover
  · have hwhole := hiff.mpr (.inl hcarried)
    exact ⟨nofun, iff_of_true hcarried hwhole, fun hno => absurd hwhole hno⟩
  · have hwhole := hiff.mpr (.inr hover)
    exact ⟨nofun, iff_of_true rfl hwhole, fun hno => absurd hwhole hno⟩
  · have hwhole : ¬ NeedsWhole t.frames := fun hyes => (hiff.mp hyes).elim hcarried hover
    exact ⟨nofun, iff_of_false hcarried hwhole,
      fun _ => h.frames_flatten hfresh hwhole⟩

theorem accounted_acquire (ptr : PtrWidth) (h : Accounted t) (wait : FenceWait) :
    Accounted (t.step ptr (.acquire wait)) := by
  cases hkey : t.presenter.pendingKey with
  | none =>
    have hidle : t.presenter.hasFreshFrame = false := by simp [RingPresenter.hasFreshFrame, hkey]
    simpa [step, RingPresenter.acquire, RingPresenter.freshReady, hkey, hidle] using h
  | some key =>
    have hfresh : t.presenter.hasFreshFrame = true := by simp [RingPresenter.hasFreshFrame, hkey]
    cases hwait : t.presenter.preWait wait with
    | none =>
      simpa [step, RingPresenter.acquire, RingPresenter.freshReady, hkey, hwait, hfresh] using
        accounted_drop h hfresh
    | some fence =>
      refine ⟨?_, ?_, ?_⟩ <;>
        simp [step, RingPresenter.acquire, RingPresenter.freshReady, RingPresenter.promote,
          RingPresenter.drain, RingPresenter.hasFreshFrame, NeedsWhole, hkey, hwait]

theorem accounted_step (ptr : PtrWidth) (h : Accounted t) (e : DamageEvent) :
    Accounted (t.step ptr e) := by
  cases e with
  | submit key fence damage => exact accounted_submit ptr h key fence damage
  | acquire wait => exact accounted_acquire ptr h wait

theorem reported_of_accounted (ptr : PtrWidth) (h : Accounted t) (e : DamageEvent) :
    Reported ptr t e := by
  cases e with
  | submit key fence damage => trivial
  | acquire wait =>
    intro hkind
    unfold RingPresenter.acquire at hkind ⊢
    split at hkind
    · rename_i key fence hkey hwait
      have hcarry : t.presenter.drain.damageWithCarry t.presenter.pendingDamage =
          t.presenter.damageWithCarry t.presenter.pendingDamage := by
        simp [RingPresenter.drain, hkey, RingPresenter.damageWithCarry]
      dsimp only [RingPresenter.promote]
      rw [hcarry]
      exact h.covers (by simp [RingPresenter.hasFreshFrame, hkey])
    · exact absurd hkind (by unfold RingPresenter.hold; split <;> simp)
    · exact absurd hkind (by unfold RingPresenter.hold; split <;> simp)

/-- In every run of submits and acquires, whichever fences miss the deadline, each fresh hand-out
covers its own frame and every frame dropped since the last one. -/
theorem damage_never_under_reported (ptr : PtrWidth) (fenceDeadline : Option ℕ)
    (es : List DamageEvent) :
    Meets (step ptr) (Reported ptr) (init fenceDeadline) es :=
  meets_of_invariant Accounted
    (fun _ e h _ => accounted_step ptr h e) (fun _ e h _ => reported_of_accounted ptr h e)
    (accounted_init fenceDeadline) (meets_true _ _ es)

end DamageTrace

end DrmCxx.Scene
