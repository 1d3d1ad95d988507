import DrmCxx.Scene.SceneBuild

/-!
# The request of a build

A build only ever adds to the request it starts with, and a modeset that is due is at its head; the
flags keep `ALLOW_MODESET` whatever else they lose.
-/

namespace DrmCxx.Scene

open Lib Modeset
open Planes (PlaneId PlaneCapabilities Flags)

namespace Placing

variable (dev : SceneDevice) (w : Placing)

theorem armPinnedLayer_extends (flags : Flags) (a : AcquiredLayer) :
    w.request <+: (w.armPinnedLayer dev flags a).request := by
  unfold armPinnedLayer
  dsimp only
  split
  · split
    · exact List.prefix_append _ _
    · dsimp only [SceneState.testRequest]
      split <;> exact List.prefix_append _ _
  · exact List.prefix_rfl

theorem armPinnedLayers_extends (flags : Flags) (as : List AcquiredLayer) :
    w.request <+: (w.armPinnedLayers dev flags as).request := by
  unfold armPinnedLayers
  induction as generalizing w with
  | nil => exact List.prefix_rfl
  | cons a as ih => exact (w.armPinnedLayer_extends dev flags a).trans (ih _)

/-- What a canvas is armed with is the head of its writes. -/
def ArmsCanvas (dev : SceneDevice) (writes : AtomicRequest) : Prop :=
  ∃ (s : SceneState) (t : CompositionTarget) (p : PlaneCapabilities) (zpos : Int32),
    writes <+: s.armCompositionCanvas dev t p zpos

theorem arms_armCanvas (s : SceneState) (q : FrameAnswers) (t : CompositionTarget)
    (p : PlaneCapabilities) (zpos : Int32) : ArmsCanvas dev (s.armCanvas dev q t p zpos).1 :=
  ⟨s, t, p, zpos, List.take_prefix _ _⟩

theorem arms_armCanvasLoop (q : FrameAnswers) (flags : Flags) (t : CompositionTarget)
    (zpos : Int32) (ps : List PlaneCapabilities) (s : SceneState) :
    ∀ armed ∈ (w.armCanvasLoop dev q flags t zpos ps s).1, ArmsCanvas dev armed.2 := by
  induction ps generalizing s with
  | nil => exact fun armed h => nomatch h
  | cons p ps ih =>
    have harms := arms_armCanvas dev s q t p zpos
    rw [armCanvasLoop]
    split
    · exact ih s
    · generalize s.armCanvas dev q t p zpos = tried at harms
      obtain ⟨writes, done, s'⟩ := tried
      have hfound : ∀ armed ∈ some (p, writes), ArmsCanvas dev armed.2 := by
        rintro armed ⟨⟩
        exact harms
      dsimp only
      split
      · exact ih s'
      · split
        · exact hfound
        · split
          · exact hfound
          · exact hfound
          · exact ih _

theorem arms_armCanvasTested (q : FrameAnswers) (flags : Flags) (t : CompositionTarget)
    (zpos : Int32) (first : PlaneCapabilities) (candidates : List PlaneCapabilities) :
    ArmsCanvas dev (w.armCanvasTested dev q flags t zpos first candidates).2.1 := by
  have hloop := w.arms_armCanvasLoop dev q flags t zpos candidates w.scene
  unfold armCanvasTested
  dsimp only
  split
  · exact arms_armCanvas dev _ q t first zpos
  · generalize w.armCanvasLoop dev q flags t zpos candidates w.scene = r at hloop
    obtain ⟨found, s⟩ := r
    cases found with
    | some armed => exact hloop armed rfl
    | none => exact arms_armCanvas dev _ q t first zpos

/-- A painted canvas adds what arms it. -/
theorem armPainted_request (q : FrameAnswers) (flags : Flags) (t : CompositionTarget)
    (handed : List AcquiredLayer) (first : PlaneCapabilities)
    (candidates : List PlaneCapabilities) :
    ∃ writes, ArmsCanvas dev writes ∧
      (w.armPainted dev q flags t handed first candidates).placing.request =
        w.request ++ writes := by
  have harms := w.arms_armCanvasTested dev q flags t w.scene.chooseCanvasZpos first candidates
  unfold armPainted
  generalize w.armCanvasTested dev q flags t w.scene.chooseCanvasZpos first candidates = armed
    at harms
  obtain ⟨p, writes, s⟩ := armed
  cases p <;> exact ⟨writes, harms, rfl⟩

theorem paintCanvas_extends (q : FrameAnswers) (flags : Flags) (collected : List AcquiredLayer)
    (t : CompositionTarget) (first : PlaneCapabilities) (candidates : List PlaneCapabilities) :
    w.request <+: (w.paintCanvas dev q flags collected t first candidates).placing.request := by
  unfold paintCanvas
  dsimp only
  split
  · exact List.prefix_rfl
  · split
    · exact List.prefix_rfl
    · obtain ⟨writes, -, hrequest⟩ := armPainted_request dev (w.keepTarget _) q flags _ _ first _
      rw [hrequest]
      exact List.prefix_append _ _

theorem composeUnassigned_extends (q : FrameAnswers) (flags : Flags) (as : List AcquiredLayer) :
    w.request <+: (w.composeUnassigned dev q flags as).placing.request := by
  unfold composeUnassigned
  dsimp only
  split
  · exact List.prefix_rfl
  · split
    · exact List.prefix_rfl
    · split
      · exact List.prefix_rfl
      · split
        · exact List.prefix_rfl
        · split
          · exact List.prefix_rfl
          · rename_i first rest _ _ t _ _
            exact paintCanvas_extends dev (w.setScene (w.scene.ensureCompositionCanvas q first)) q
              flags _ t first (first :: rest)

end Placing

namespace SceneState

variable (dev : SceneDevice) (s : SceneState)

/-- The request a turn leaves, if it does not fail. -/
def RoundEnd.Extends (request : AtomicRequest) : RoundEnd → Prop
  | .failed _ _ => True
  | .placed w _ => request <+: w.request

theorem RoundEnd.Extends.weaken {request request' : AtomicRequest} {e : RoundEnd}
    (h : e.Extends request') (hextends : request <+: request') : e.Extends request := by
  cases e with
  | failed s e => trivial
  | placed w feasible => exact hextends.trans h

theorem settle_extends (r : Round) (w : Placing) : (w.settle dev r).Extends w.request := by
  unfold Placing.settle
  dsimp only [RoundEnd.Extends, Placing.setScene]
  split
  · exact Placing.armPinnedLayers_extends dev w _ _
  · exact List.prefix_rfl

theorem placeRound_extends (r : Round) (request : AtomicRequest) (report : CommitReport) :
    (s.placeRound dev r request report).Extends request := by
  unfold placeRound
  dsimp only
  split
  · trivial
  · split
    · trivial
    · refine (settle_extends dev r _ |>.weaken ?_)
      rw [List.append_assoc]
      exact List.prefix_append _ _

theorem placeRounds_extends (r : Round) (request : AtomicRequest) (report : CommitReport)
    (fuel : ℕ) : (placeRounds dev r request report fuel s).Extends request := by
  induction fuel generalizing s with
  | zero =>
    have hround := s.placeRound_extends dev r request report
    unfold placeRounds
    cases h : s.placeRound dev r request report with
    | failed s e => trivial
    | placed w feasible =>
      rw [h] at hround
      cases feasible <;> exact hround
  | succ fuel ih =>
    have hround := s.placeRound_extends dev r request report
    unfold placeRounds
    cases h : s.placeRound dev r request report with
    | failed s e => trivial
    | placed w feasible =>
      rw [h] at hround
      cases feasible with
      | true => exact hround
      | false =>
        dsimp only
        split
        · exact ih _
        · exact hround

/-- The frame carries `ALLOW_MODESET`. -/
def AllowsModeset (flags : Flags) : Prop := flags &&& allowModeset = allowModeset

theorem allowsModeset_or (flags : Flags) : AllowsModeset (flags ||| allowModeset) := by
  apply Nat.eq_of_testBit_eq
  intro i
  rw [Nat.testBit_and, Nat.testBit_or]
  cases flags.testBit i <;> cases allowModeset.testBit i <;> rfl

theorem AllowsModeset.stripAsync (testOnly : Bool) {flags : Flags} (h : AllowsModeset flags) :
    AllowsModeset (stripAsync dev testOnly flags) := by
  have hdisjoint : ∀ i, (pageFlipAsync.testBit i && allowModeset.testBit i) = false := by
    intro i
    rw [← Nat.testBit_and]
    exact Nat.zero_testBit i
  unfold SceneState.stripAsync
  split
  · refine Eq.trans (Nat.eq_of_testBit_eq fun i => ?_) h
    have hi := hdisjoint i
    rw [Nat.testBit_and, Nat.testBit_and, Nat.testBit_xor, Nat.testBit_and]
    revert hi
    cases flags.testBit i <;> cases pageFlipAsync.testBit i <;>
      cases allowModeset.testBit i <;> decide
  · exact h

/-- A finished frame keeps the request of its placement, and the round's modeset. -/
theorem finishBuild_spec (r : Round) (w : Placing) {f : BuiltFrame}
    (h : (finishBuild dev r w).result = .ok (some f)) :
    w.request <+: f.request ∧ (AllowsModeset r.flags → AllowsModeset f.effectiveFlags) := by
  unfold finishBuild at h
  dsimp only at h
  split at h
  · cases h
  · cases h
    refine ⟨?_, fun hflags => AllowsModeset.stripAsync dev _ ?_⟩
    · dsimp only
      rw [List.append_assoc]
      exact (Placing.composeUnassigned_extends dev w _ _ _).trans (List.prefix_append _ _)
    · split
      · exact allowsModeset_or _
      · exact hflags

theorem placeAndFinish_spec (r : Round) (request : AtomicRequest) (report : CommitReport)
    {f : BuiltFrame} (h : (s.placeAndFinish dev r request report).result = .ok (some f)) :
    request <+: f.request ∧ (AllowsModeset r.flags → AllowsModeset f.effectiveFlags) := by
  have hrounds := s.placeRounds_extends dev r request report r.acquired.length
  unfold placeAndFinish at h
  cases hr : placeRounds dev r request report r.acquired.length s with
  | failed s e =>
    rw [hr] at h
    cases h
  | placed w feasible =>
    rw [hr] at h hrounds
    obtain ⟨hextends, hflags⟩ := finishBuild_spec dev r w h
    exact ⟨hrounds.trans hextends, hflags⟩

end SceneState

end DrmCxx.Scene
