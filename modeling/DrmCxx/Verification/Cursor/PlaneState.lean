import DrmCxx.Cursor.Renderer
import DrmCxx.Lib.Run

/-!
# What a cursor plane shows

A renderer under any sequence of calls, each commit accepted or not. The buffer a commit would
publish always holds the frame selected last, so every accepted commit leaves the plane as the
caller asked, and no drawing touches the buffer on the plane.
-/

namespace DrmCxx.Cursor

open Lib

namespace Renderer

/-! ### The buffer the next commit publishes -/

/-- The sprite in the buffer and the plane's property together turn the frame by `rotation`. -/
def Turned (sprite : Rotation) (plane : Option UInt64) (rotation : Rotation) : Prop :=
  (sprite = rotation ∧ (plane = none ∨ plane = some Rotation.k0.toDrmMask)) ∨
    (sprite = .k0 ∧ plane = some rotation.toDrmMask)

/-- The plane shows the last frame in the current rotation, with its hotspot at the last
position. -/
structure Armed (r : Renderer) (p : CursorPlane) : Prop where
  shows : ∃ f ∈ r.lastFrame, ∃ b ∈ r.buffers p.buffer, ∃ sprite,
    b.picture = some ⟨f, sprite⟩ ∧ Turned sprite p.rotation r.rotation ∧
      (p.x, p.y) = r.spansAt (b.width, b.height)
        (r.lastX - (hotspotIn f sprite (blitSize f sprite b.width b.height) b.width b.height).1)
        (r.lastY - (hotspotIn f sprite (blitSize f sprite b.width b.height) b.width b.height).2)

/-- The buffer that `commit_buffer` picks holds the last frame in the rotation to draw it in. -/
structure Drawn (r : Renderer) : Prop where
  both : ∀ i j, (r.buffers i).isSome → (r.buffers j).isSome
  picture : r.props → ∀ f ∈ r.lastFrame, ∀ b ∈ r.buffers r.commitIdx,
    b.picture = some ⟨f, r.effectiveSwRotation⟩ ∧
      r.lastBlit = blitSize f r.effectiveSwRotation b.width b.height
  frame : r.props → r.cursor.isSome → (r.buffers r.commitIdx).isSome → r.lastFrame.isSome
  unbound : r.cursor = none → r.lastFrame = none

theorem backIdx_ne (r : Renderer) : r.backIdx ≠ r.activeIdx := by
  rw [backIdx]
  omega

/-- What drawing leaves alone. -/
structure SameCalls (r r' : Renderer) : Prop where
  activeIdx : r'.activeIdx = r.activeIdx
  active : r'.buffers r.activeIdx = r.buffers r.activeIdx
  props : r'.props = r.props
  cursor : r'.cursor = r.cursor
  visible : r'.visible = r.visible
  paused : r'.paused = r.paused
  lastX : r'.lastX = r.lastX
  lastY : r'.lastY = r.lastY

theorem SameCalls.refl (r : Renderer) : SameCalls r r :=
  ⟨rfl, rfl, rfl, rfl, rfl, rfl, rfl, rfl⟩

theorem sameCalls_blitFrame (r : Renderer) (f : Frame) : SameCalls r (r.blitFrame f) := by
  cases hb : r.buffers r.backIdx with
  | none =>
    simp only [blitFrame, hb]
    exact .refl r
  | some b =>
    simp only [blitFrame, hb]
    exact ⟨rfl, Function.update_of_ne r.backIdx_ne.symm _ _, rfl, rfl, rfl, rfl, rfl, rfl⟩

/-- Drawing into a pair of buffers makes the back one the next to be published. -/
theorem drawn_blitFrame {r : Renderer}
    (hboth : ∀ i j, (r.buffers i).isSome → (r.buffers j).isSome) (hcursor : r.cursor.isSome)
    (f : Frame) : Drawn (r.blitFrame f) := by
  cases hb : r.buffers r.backIdx with
  | none =>
    have hempty : ∀ i, r.buffers i = none := fun i => by
      by_contra hne
      have := hboth i r.backIdx (Option.isSome_iff_ne_none.mpr hne)
      simp [hb] at this
    have heq : r.blitFrame f = r := by simp [blitFrame, hb]
    rw [heq]
    refine ⟨hboth, fun _ f _ b hb => ?_, fun _ _ h => ?_, fun h => by simp [h] at hcursor⟩
    · simp [hempty] at hb
    · simp [hempty] at h
  | some b =>
    have hcommit : (r.blitFrame f).commitIdx = r.backIdx := by
      simp only [blitFrame, hb, commitIdx, if_true]
      rfl
    have hbuffers : (r.blitFrame f).buffers = Function.update r.buffers r.backIdx (some { b with
        picture := some ⟨f, r.effectiveSwRotation⟩
        writes := b.writes + 1 }) := by
      simp [blitFrame, hb]
    have hlast : (r.blitFrame f).lastFrame = some f ∧ (r.blitFrame f).cursor = r.cursor ∧
        (r.blitFrame f).effectiveSwRotation = r.effectiveSwRotation ∧
        (r.blitFrame f).lastBlit = blitSize f r.effectiveSwRotation b.width b.height := by
      simp [blitFrame, hb, effectiveSwRotation]
    obtain ⟨hframe, hsame, heff, hblit⟩ := hlast
    constructor
    case both =>
      intro i j _
      have hj := hboth r.backIdx j (by simp [hb])
      rw [hbuffers]
      by_cases h : j = r.backIdx
      · simp [h]
      · simpa [h] using hj
    case picture =>
      intro _ f' hf b' hb'
      obtain rfl := Option.some.inj (hframe.symm.trans hf)
      rw [hcommit, hbuffers, Function.update_self] at hb'
      obtain rfl := Option.some.inj hb'
      exact ⟨by rw [heff], by rw [heff, hblit]⟩
    case frame => exact fun _ _ _ => by simp [hframe]
    case unbound => exact fun h => by simp [← hsame, h] at hcursor

theorem advance_cases (r : Renderer) (now : ℤ) :
    r.advance now = (r, false) ∨
      r.cursor.isSome ∧ ∃ f, r.advance now = (r.blitFrame f, true) := by
  cases hc : r.cursor with
  | none => exact .inl (by simp [advance, hc])
  | some c =>
    by_cases hanim : c.animated = true
    · by_cases hlast : r.lastFrame.any (·.address = (c.frameAt (r.elapsed now)).address)
      · exact .inl (by simp [advance, hc, hanim, hlast])
      · exact .inr ⟨rfl, c.frameAt (r.elapsed now), by simp [advance, hc, hanim, hlast]⟩
    · exact .inl (by simp [advance, hc, hanim])

theorem Drawn.advance {r : Renderer} (h : Drawn r) (now : ℤ) :
    Drawn (r.advance now).1 ∧ SameCalls r (r.advance now).1 := by
  rcases r.advance_cases now with heq | ⟨hcursor, f, heq⟩ <;> rw [heq]
  · exact ⟨h, .refl r⟩
  · exact ⟨drawn_blitFrame h.both hcursor f, sameCalls_blitFrame r f⟩

/-! ### A commit of the position -/

theorem turned_hwRotation (r : Renderer) :
    Turned r.effectiveSwRotation r.hwRotation r.rotation := by
  cases hmask : r.probe.rotations with
  | none => exact .inl ⟨by simp [effectiveSwRotation, turnsInHardware, hmask],
      .inl (by simp [hwRotation, hmask])⟩
  | some mask =>
    by_cases h : mask &&& r.rotation.toDrmMask ≠ 0
    · exact .inr ⟨by simp [effectiveSwRotation, turnsInHardware, hmask, h],
        by simp [hwRotation, hmask, h]⟩
    · have h : mask &&& r.rotation.toDrmMask = 0 := not_not.mp h
      refine .inl ⟨by simp [effectiveSwRotation, turnsInHardware, hmask, h], .inr ?_⟩
      simp only [hwRotation, hmask, h, Option.map_some, ne_eq, not_true_eq_false, if_false]
      rfl

/-- A call that may commit: the buffers stay drawn, nothing is drawn on the plane's, and what the
kernel accepts is the plane as it is asked for. -/
structure CallSpec {α : Type} (r : Renderer) (c : Call α) : Prop where
  drawn : Drawn c.renderer
  active : c.renderer.buffers r.activeIdx = r.buffers r.activeIdx
  /-- Only what is accepted turns the buffers over. -/
  activeIdx : (∀ p, c.commit ≠ some (.ok (some p))) → c.renderer.activeIdx = r.activeIdx
  accepted : ∀ p, c.commit = some (.ok (some p)) → p.buffer = c.renderer.activeIdx ∧
    (c.renderer.cursor.isSome → Armed c.renderer p)
  off : c.commit = some (.ok none) → c.renderer.visible = false
  failed : ∀ e, c.commit = some (.error e) → c.result.isOk = false
  /-- Without a commit nothing is left to do for a cursor on screen. -/
  quiet : c.commit = none → c.renderer.cursor.isSome → c.renderer.visible → ¬ c.renderer.paused →
    c.renderer = r

theorem callSpec_commitPosition {r : Renderer} (h : Drawn r) (answer : Option Errc) :
    CallSpec r (r.commitPosition r.lastX r.lastY answer) := by
  have hrefused : ∀ e : Errc, CallSpec r
      ({ renderer := r, commit := some (.error e), result := .error e } : Call Unit) := fun e =>
    ⟨h, rfl, fun _ => rfl, nofun, nofun, fun _ _ => rfl, nofun⟩
  cases hprops : r.props with
  | false =>
    simp only [commitPosition, hprops]
    exact hrefused _
  | true =>
    cases answer with
    | some e =>
      simp only [commitPosition, hprops]
      exact hrefused e
    | none =>
      cases hb : r.buffers r.commitIdx with
      | none =>
        simp only [commitPosition, hprops, hb]
        exact hrefused _
      | some b =>
        simp only [commitPosition, hprops, hb, Bool.not_true, Bool.false_eq_true, if_false]
        refine ⟨?_, rfl, fun hno => absurd rfl (hno _), ?_, nofun, nofun, nofun⟩
        · exact ⟨h.both, fun _ => h.picture hprops, fun _ => h.frame hprops, h.unbound⟩
        · rintro p hp
          obtain rfl : r.stagePosition r.lastX r.lastY = p := by simpa using hp
          refine ⟨rfl, fun hcursor => ⟨?_⟩⟩
          obtain ⟨f, hf⟩ := Option.isSome_iff_exists.mp (h.frame hprops hcursor (by simp [hb]))
          obtain ⟨hpicture, hblit⟩ := h.picture hprops f hf b hb
          refine ⟨f, hf, b, hb, r.effectiveSwRotation, hpicture, r.turned_hwRotation, ?_⟩
          have hsize : r.commitSize = (b.width, b.height) := by simp [commitSize, hb]
          have hhot : r.bufferHotspot = hotspotIn f r.effectiveSwRotation
              (blitSize f r.effectiveSwRotation b.width b.height) b.width b.height := by
            simp [bufferHotspot, hf, hsize, hblit]
          simp only [stagePosition, hsize, hhot]
          rfl

/-- The same from a renderer that has only drawn since. -/
theorem CallSpec.of_drawing {α : Type} {r r' : Renderer} {c : Call α} (h : CallSpec r' c)
    (hidx : r'.activeIdx = r.activeIdx)
    (hactive : r'.buffers r.activeIdx = r.buffers r.activeIdx) (hcommit : c.commit ≠ none) :
    CallSpec r c where
  drawn := h.drawn
  active := by rw [← hactive, ← hidx, h.active]
  activeIdx hno := (h.activeIdx hno).trans hidx
  accepted := h.accepted
  off := h.off
  failed := h.failed
  quiet hnone := absurd hnone hcommit

theorem commitPosition_commit (r : Renderer) (x y : ℤ) (answer : Option Errc) :
    (r.commitPosition x y answer).commit ≠ none := by
  simp only [commitPosition]
  split
  · simp
  · split <;> simp

/-- A call that returns at once. -/
theorem callSpec_return {α : Type} (r : Renderer) {r' : Renderer} (h : Drawn r')
    (hidx : r'.activeIdx = r.activeIdx) (hbuffers : r'.buffers = r.buffers)
    (result : Except Errc α)
    (hquiet : r'.cursor.isSome → r'.visible → ¬ r'.paused → r' = r) :
    CallSpec r { renderer := r', result } :=
  ⟨h, by rw [hbuffers], fun _ => hidx, nofun, nofun, nofun, fun _ => hquiet⟩

theorem callSpec_moveTo {r : Renderer} (h : Drawn r) (x y now : ℤ) (answer : Option Errc) :
    CallSpec r (r.moveTo x y now answer) := by
  rw [moveTo]
  split
  · exact callSpec_return r h rfl rfl _ fun _ _ _ => rfl
  · have h' : Drawn { r with lastX := x, lastY := y } := ⟨h.both, h.picture, h.frame, h.unbound⟩
    dsimp only
    split
    · rename_i hoff
      refine callSpec_return r h' rfl rfl _ fun _ hvisible hpaused => ?_
      simp only [Bool.or_eq_true, Bool.not_eq_true'] at hoff
      rcases hoff with hoff | hoff
      · exact absurd hoff hpaused
      · simp [hoff] at hvisible
    · obtain ⟨hdrawn, hsame⟩ := h'.advance now
      have hspec := callSpec_commitPosition hdrawn answer
      rw [hsame.lastX, hsame.lastY] at hspec
      exact hspec.of_drawing hsame.activeIdx hsame.active (commitPosition_commit _ _ _ _)

theorem CallSpec.map {α β : Type} {r : Renderer} {c : Call α} (h : CallSpec r c) (f : α → β) :
    CallSpec r { renderer := c.renderer, commit := c.commit, result := c.result.map f } :=
  ⟨h.drawn, h.active, h.activeIdx, h.accepted, h.off, fun e he => by
    have := h.failed e he
    cases hr : c.result with
    | error e => rfl
    | ok a => simp [hr, Except.isOk, Except.toBool] at this, h.quiet⟩

theorem callSpec_tick {r : Renderer} (h : Drawn r) (now : ℤ) (answer : Option Errc) :
    CallSpec r (r.tick now answer) := by
  rw [tick]
  split
  · exact callSpec_return r h rfl rfl _ fun _ _ _ => rfl
  split
  · exact callSpec_return r h rfl rfl _ fun _ _ _ => rfl
  rcases r.advance_cases now with heq | ⟨hcursor, f, heq⟩ <;> rw [heq] <;> dsimp only
  · exact callSpec_return r h rfl rfl _ fun _ _ _ => rfl
  · have hsame := sameCalls_blitFrame r f
    have hspec := callSpec_commitPosition (drawn_blitFrame h.both hcursor f) answer
    exact (hspec.of_drawing hsame.activeIdx hsame.active (commitPosition_commit _ _ _ _)).map _

theorem callSpec_hide {r : Renderer} (h : Drawn r) (answer : Option Errc) :
    CallSpec r (r.hide answer) := by
  rw [hide]
  split
  · exact callSpec_return r h rfl rfl _ fun _ _ _ => rfl
  have h' : Drawn { r with visible := false } := ⟨h.both, h.picture, h.frame, h.unbound⟩
  dsimp only
  split
  · exact callSpec_return r h' rfl rfl _ fun _ hvisible => absurd hvisible (by simp)
  split
  · exact ⟨h', rfl, fun _ => rfl, nofun, nofun, fun _ _ => rfl, nofun⟩
  · refine ⟨⟨h.both, h.picture, h.frame, h.unbound⟩, rfl, fun _ => rfl, ?_, fun _ => rfl, ?_, ?_⟩
    all_goals nofun

theorem callSpec_show {r : Renderer} (h : Drawn r) (answer : Option Errc) :
    CallSpec r (r.show answer) := by
  rw [«show»]
  split
  · exact callSpec_return r h rfl rfl _ fun _ _ _ => rfl
  have h' : Drawn { r with visible := true } := ⟨h.both, h.picture, h.frame, h.unbound⟩
  dsimp only
  split
  · rename_i hoff
    refine callSpec_return r h' rfl rfl _ fun hcursor _ hpaused => ?_
    simp only [Bool.or_eq_true, Option.isNone_iff_eq_none] at hoff
    rcases hoff with hoff | hoff
    · simp [hoff] at hcursor
    · exact absurd hoff hpaused
  · exact (callSpec_commitPosition h' answer).of_drawing rfl rfl (commitPosition_commit _ _ _ _)

/-- A new rotation is drawn, unless the plane turns the sprite before and after. -/
theorem Drawn.turnTo {r : Renderer} (h : Drawn r) (rotation : Rotation) :
    Drawn (r.turnTo rotation) ∧ SameCalls r (r.turnTo rotation) := by
  rw [Renderer.turnTo]
  split
  · rename_i f hlast
    have hcursor : r.cursor.isSome := by
      by_contra hnone
      simp [h.unbound (by simpa using hnone)] at hlast
    split
    · have hdrawn := drawn_blitFrame (r := { r with rotation }) h.both hcursor f
      exact ⟨hdrawn, { sameCalls_blitFrame { r with rotation } f with }⟩
    · rename_i heff
      rw [not_or, not_not, not_not] at heff
      have hpicture := h.picture
      rw [heff.1] at hpicture
      refine ⟨⟨h.both, ?_, h.frame, h.unbound⟩, ⟨rfl, rfl, rfl, rfl, rfl, rfl, rfl, rfl⟩⟩
      rw [heff.2]
      exact hpicture
  · rename_i hlast
    exact ⟨⟨h.both, fun _ f hf => by simp [hlast] at hf, h.frame, h.unbound⟩,
      ⟨rfl, rfl, rfl, rfl, rfl, rfl, rfl, rfl⟩⟩

theorem callSpec_setRotation {r : Renderer} (h : Drawn r) (rotation : Rotation)
    (answer : Option Errc) : CallSpec r (r.setRotation rotation answer) := by
  obtain ⟨hdrawn, hsame⟩ := h.turnTo rotation
  rw [setRotation]
  split
  · exact callSpec_return r h rfl rfl _ fun _ _ _ => rfl
  dsimp only
  split
  · exact (callSpec_commitPosition hdrawn answer).of_drawing hsame.activeIdx hsame.active
      (commitPosition_commit _ _ _ _)
  · rename_i hoff
    refine ⟨hdrawn, hsame.active, fun _ => hsame.activeIdx, nofun, nofun, nofun,
      fun _ hcursor hvisible hpaused => absurd ?_ hoff⟩
    rw [hcursor, hvisible, Bool.eq_false_iff.mpr hpaused]
    rfl

theorem drawn_setCursor {r : Renderer} (h : Drawn r) (c : Cursor) (now : ℤ) :
    Drawn (r.setCursor (some c) now).renderer ∧
      SameCalls { r with cursor := some c } (r.setCursor (some c) now).renderer := by
  have h' := drawn_blitFrame (r := { r with cursor := some c, animStart := now }) h.both rfl c.first
  have hsame := sameCalls_blitFrame { r with cursor := some c, animStart := now } c.first
  exact ⟨⟨h'.both, h'.picture, h'.frame, h'.unbound⟩, { hsame with }⟩

/-! ### A session resume -/

/-- What a resume leaves: nothing of the old buffers, and what the kernel accepts is the plane as it
is asked for. -/
structure ResumeSpec (r : Renderer) (c : Call Unit) : Prop where
  drawn : Drawn c.renderer
  accepted : ∀ p, c.commit = some (.ok p) → ∃ q, p = some q ∧ q.buffer = c.renderer.activeIdx ∧
    (c.renderer.cursor.isSome → Armed c.renderer q)
  failed : ∀ e, c.commit = some (.error e) → c.result.isOk = false
  visible : c.renderer.visible = r.visible
  hidden : r.visible = false → c.commit = none

theorem commitPosition_accepted {r : Renderer} {x y : ℤ} {answer : Option Errc}
    {p : Option CursorPlane} (h : (r.commitPosition x y answer).commit = some (.ok p)) :
    ∃ q, p = some q := by
  simp only [commitPosition] at h
  split at h
  · simp at h
  · split at h
    · simp at h
    · simp at h
    · exact ⟨_, by simpa using h.symm⟩

theorem commitPosition_visible (r : Renderer) (x y : ℤ) (answer : Option Errc) :
    (r.commitPosition x y answer).renderer.visible = r.visible ∧
      (r.commitPosition x y answer).renderer.paused = r.paused := by
  simp only [commitPosition]
  split
  · exact ⟨rfl, rfl⟩
  · split <;> exact ⟨rfl, rfl⟩

theorem allocBuffer_cases (r : Renderer) (size : ℕ × ℕ) (answer : Option Errc) :
    (∃ e, r.allocBuffer size answer =
        ({ r with activeIdx := 0, dirtyBack := false, buffers := fun _ => none }, some e)) ∨
      r.allocBuffer size answer = ({ r with
        activeIdx := 0
        dirtyBack := false
        buffers := fun _ => some { width := size.1, height := size.2 } }, none) := by
  simp only [allocBuffer]
  split
  · exact .inl ⟨_, rfl⟩
  · exact .inr rfl

theorem resumeSpec {r : Renderer} (h : Drawn r) {newFd : ℤ} (hfd : 0 ≤ newFd)
    (alloc : Option Errc) (probed : Except Errc PlaneProbe) (now : ℤ) (answer : Option Errc) :
    ResumeSpec r (r.onSessionResumed newFd alloc probed now answer) := by
  have hreturn : ∀ {r' : Renderer} (result : Except Errc Unit), Drawn r' →
      r'.visible = r.visible → ResumeSpec r { renderer := r', result } :=
    fun _ h hvisible => ⟨h, nofun, nofun, hvisible, fun _ => rfl⟩
  rw [onSessionResumed, if_neg (by omega)]
  rcases { r with props := false }.allocBuffer_cases r.activeSize alloc with ⟨e, heq⟩ | heq <;>
    rw [heq] <;> dsimp only
  · exact hreturn _ ⟨fun _ _ h => h, nofun, nofun, h.unbound⟩ rfl
  cases probed with
  | error e => exact hreturn _ ⟨fun _ _ _ => rfl, nofun, nofun, h.unbound⟩ rfl
  | ok probe =>
    dsimp only
    split
    · rename_i hcursor
      refine hreturn _ ⟨fun _ _ _ => rfl, fun _ f hf => ?_, fun _ hc => ?_, h.unbound⟩ rfl
      · simp [h.unbound hcursor] at hf
      · simp [hcursor] at hc
    · rename_i c hcursor
      -- Both buffers are new, so the frame is drawn and the plane armed from nothing.
      set f := if c.animated then c.frameAt _ else c.first
      generalize hr' : blitFrame _ f = r'
      have hdrawn : Drawn r' := hr' ▸ drawn_blitFrame (fun _ _ _ => rfl) (by simp [hcursor]) f
      have hsame := hr' ▸ sameCalls_blitFrame _ f
      split
      · rename_i hvisible
        have hspec := callSpec_commitPosition hdrawn answer
        refine ⟨hspec.drawn, fun p hp => ?_, hspec.failed, ?_, fun hoff => ?_⟩
        · obtain ⟨q, rfl⟩ := commitPosition_accepted hp
          exact ⟨q, rfl, hspec.accepted q hp⟩
        · exact (commitPosition_visible _ _ _ _).1.trans hsame.visible
        · have : r.visible = true := hsame.visible.symm.trans hvisible
          simp [hoff] at this
      · exact hreturn _ hdrawn hsame.visible

end Renderer

/-! ### Runs -/

/-- The calls of a renderer's user. A commit fails with `answer`, or is accepted. -/
inductive CursorEvent
  | setCursor (cursor : Option Cursor) (now : ℤ)
  | moveTo (x y now : ℤ) (answer : Option Errc)
  | tick (now : ℤ) (answer : Option Errc)
  | setRotation (rotation : Rotation) (answer : Option Errc)
  | hide (answer : Option Errc)
  | show (answer : Option Errc)
  | pause
  | resume (newFd : ℤ) (alloc : Option Errc) (probed : Except Errc PlaneProbe) (now : ℤ)
      (answer : Option Errc)

namespace CursorEvent

def call (r : Renderer) : CursorEvent → Call Unit
  | setCursor cursor now => r.setCursor cursor now
  | moveTo x y now answer => r.moveTo x y now answer
  | tick now answer =>
    let call := r.tick now answer
    { renderer := call.renderer, commit := call.commit, result := call.result.map fun _ => () }
  | setRotation rotation answer => r.setRotation rotation answer
  | hide answer => r.hide answer
  | «show» answer => r.show answer
  | pause => { renderer := r.onSessionPaused, result := .ok () }
  | resume newFd alloc probed now answer => r.onSessionResumed newFd alloc probed now answer

/-- The old descriptor is given up, and with it the framebuffers and the plane they are on. -/
def dropsPlane : CursorEvent → Bool
  | resume newFd _ _ _ _ => 0 ≤ newFd
  | _ => false

/-- A new cursor is left for the next commit to show. -/
def leavesCommit : CursorEvent → Bool
  | setCursor cursor _ => cursor.isSome
  | e => e.dropsPlane

/-- The calls that return with the plane up to date. -/
def updatesPlane : CursorEvent → Bool
  | moveTo .. | tick .. | setRotation .. | «show» .. => true
  | _ => false

end CursorEvent

/-- A renderer, with the plane the kernel has and what the calls so far have asked for. -/
structure CursorTrace where
  renderer : Renderer
  plane : Option CursorPlane := none
  /-- The buffer the last accepted commit armed, a `hide` apart. -/
  armed : Option (Fin 2) := none
  /-- A `hide` succeeded, and no `show` was called since. -/
  hidden : Bool := false
  /-- The same, of a `hide` that found the cursor visible. -/
  hideTook : Bool := false
  /-- The last commit was accepted, and no cursor was set nor session resumed since. -/
  synced : Bool := false

namespace CursorTrace

def step (t : CursorTrace) (e : CursorEvent) : CursorTrace :=
  let call := e.call t.renderer
  { renderer := call.renderer
    plane :=
      match call.commit with
      | some (.ok plane) => plane
      | _ => if e.dropsPlane then none else t.plane
    armed :=
      match call.commit with
      | some (.ok (some plane)) => some plane.buffer
      | _ => if e.dropsPlane then none else t.armed
    hidden :=
      match e with
      | .hide _ => t.hidden || call.result.isOk
      | .show _ => false
      | _ => t.hidden
    hideTook :=
      match e with
      | .hide _ => t.hideTook || (t.renderer.visible && call.result.isOk)
      | .show _ => false
      | _ => t.hideTook
    synced :=
      match call.commit with
      | some answer => answer.isOk
      | none => t.synced && !e.leavesCommit }

/-- A renderer just created: two buffers, and no cursor. -/
def init (path : PlanePath) (fourcc : UInt32) (zpos : Option UInt64) (rotation : Rotation)
    (probe : PlaneProbe) (width height : ℕ) : CursorTrace where
  renderer := {
    path, fourcc, zpos, rotation, probe
    buffers := fun _ => some { width, height } }

/-- The cursor is to be on screen. -/
def OnScreen (r : Renderer) : Prop :=
  r.cursor.isSome ∧ r.visible ∧ ¬ r.paused

instance (r : Renderer) : Decidable (OnScreen r) := inferInstanceAs (Decidable (_ ∧ _ ∧ _))

/-- The buffer on screen is not drawn into. -/
def Untouched (t : CursorTrace) (e : CursorEvent) : Prop :=
  e.dropsPlane = false → ∀ i ∈ t.armed, (t.step e).renderer.buffers i = t.renderer.buffers i

/-- Every `hide` turns the plane off, and every call that returns leaves it armed. -/
structure Follows (t : CursorTrace) (e : CursorEvent) : Prop where
  off : (t.step e).hidden → ¬ (t.step e).renderer.paused → (t.step e).plane = none
  armed : e.updatesPlane → (e.call t.renderer).result.isOk → OnScreen (t.step e).renderer →
    ∃ p ∈ (t.step e).plane, (t.step e).renderer.Armed p
  untouched : t.Untouched e

/-- A `hide` of a visible cursor turns the plane off; a call that returns after a commit, or with
nothing to commit, leaves the plane armed. -/
structure FollowsCommits (t : CursorTrace) (e : CursorEvent) : Prop where
  off : (t.step e).hideTook → ¬ (t.step e).renderer.paused → (t.step e).plane = none
  armed : e.updatesPlane → (e.call t.renderer).result.isOk → OnScreen (t.step e).renderer →
    (e.call t.renderer).commit.isSome ∨ t.synced →
    ∃ p ∈ (t.step e).plane, (t.step e).renderer.Armed p
  untouched : t.Untouched e

structure Inv (t : CursorTrace) : Prop where
  drawn : t.renderer.Drawn
  armed : ∀ i ∈ t.armed, i = t.renderer.activeIdx
  synced : t.synced → OnScreen t.renderer → ∃ p ∈ t.plane, t.renderer.Armed p
  hidden : t.hideTook → t.renderer.visible = false ∧ (¬ t.renderer.paused → t.plane = none)

theorem inv_init (path : PlanePath) (fourcc : UInt32) (zpos : Option UInt64) (rotation : Rotation)
    (probe : PlaneProbe) (width height : ℕ) :
    (init path fourcc zpos rotation probe width height).Inv := by
  refine ⟨⟨fun _ _ _ => rfl, ?_, ?_, fun _ => rfl⟩, ?_, ?_, ?_⟩ <;> simp [init]

/-! ### One call -/

theorem callSpec {r : Renderer} (h : r.Drawn) {e : CursorEvent} (he : e.leavesCommit = false) :
    r.CallSpec (e.call r) := by
  cases e with
  | setCursor cursor now =>
    obtain rfl : cursor = none := by simpa [CursorEvent.leavesCommit] using he
    exact Renderer.callSpec_return r h rfl rfl _ fun _ _ _ => rfl
  | moveTo x y now answer => exact Renderer.callSpec_moveTo h x y now answer
  | tick now answer => exact (Renderer.callSpec_tick h now answer).map _
  | setRotation rotation answer => exact Renderer.callSpec_setRotation h rotation answer
  | hide answer => exact Renderer.callSpec_hide h answer
  | «show» answer => exact Renderer.callSpec_show h answer
  | pause =>
    have hdrawn : r.onSessionPaused.Drawn := ⟨h.both, h.picture, h.frame, h.unbound⟩
    exact Renderer.callSpec_return r hdrawn rfl rfl _ fun _ _ hpaused => absurd rfl hpaused
  | resume newFd alloc probed now answer =>
    have hfd : newFd < 0 := by
      simpa [CursorEvent.leavesCommit, CursorEvent.dropsPlane] using he
    rw [CursorEvent.call, Renderer.onSessionResumed, if_pos hfd]
    exact Renderer.callSpec_return r h rfl rfl _ fun _ _ _ => rfl

/-- A pause and a `hide` last until they are undone, and nothing is committed meanwhile. -/
theorem call_off {r : Renderer} (h : r.Drawn) {e : CursorEvent} (he : e.dropsPlane = false) :
    (r.paused → (e.call r).renderer.paused) ∧
      ((∀ answer, e ≠ .show answer) → r.visible = false →
        (e.call r).renderer.visible = false ∧ (e.call r).commit = none) := by
  cases e with
  | setCursor cursor now =>
    cases cursor with
    | none => exact ⟨id, fun _ hvisible => ⟨hvisible, rfl⟩⟩
    | some c =>
      have hsame := (Renderer.drawn_setCursor h c now).2
      exact ⟨fun hpaused => hsame.paused.trans hpaused,
        fun _ hvisible => ⟨hsame.visible.trans hvisible, rfl⟩⟩
  | moveTo x y now answer =>
    cases hcursor : r.cursor.isNone <;>
      exact ⟨fun hpaused => by simp [CursorEvent.call, Renderer.moveTo, hcursor, hpaused],
        fun _ hvisible => by simp [CursorEvent.call, Renderer.moveTo, hcursor, hvisible]⟩
  | tick now answer =>
    cases hcursor : r.cursor.isNone <;>
      exact ⟨fun hpaused => by simp [CursorEvent.call, Renderer.tick, hcursor, hpaused],
        fun _ hvisible => by simp [CursorEvent.call, Renderer.tick, hcursor, hvisible]⟩
  | setRotation rotation answer =>
    have hsame := (h.turnTo rotation).2
    by_cases hrotation : r.rotation = rotation
    · exact ⟨fun hpaused => by simp [CursorEvent.call, Renderer.setRotation, hrotation, hpaused],
        fun _ hvisible => by simp [CursorEvent.call, Renderer.setRotation, hrotation, hvisible]⟩
    · exact ⟨fun hpaused => by
          simp [CursorEvent.call, Renderer.setRotation, hrotation, hsame.paused, hpaused],
        fun _ hvisible => by
          simp [CursorEvent.call, Renderer.setRotation, hrotation, hsame.visible, hvisible]⟩
  | hide answer =>
    refine ⟨fun hpaused => ?_,
      fun _ hvisible => by simp [CursorEvent.call, Renderer.hide, hvisible]⟩
    cases hvisible : r.visible <;> simp [CursorEvent.call, Renderer.hide, hvisible, hpaused]
  | «show» answer =>
    refine ⟨fun hpaused => ?_, fun hno => absurd rfl (hno answer)⟩
    cases hvisible : r.visible <;> simp [CursorEvent.call, Renderer.show, hvisible, hpaused]
  | pause => exact ⟨fun _ => rfl, fun _ hvisible => ⟨hvisible, rfl⟩⟩
  | resume newFd alloc probed now answer =>
    have hfd : newFd < 0 := by simpa [CursorEvent.dropsPlane] using he
    rw [CursorEvent.call, Renderer.onSessionResumed, if_pos hfd]
    exact ⟨id, fun _ hvisible => ⟨hvisible, rfl⟩⟩

/-- A `hide` that finds the cursor visible and returns turned the plane off, or left it to the
resume. -/
theorem hide_took {r : Renderer} {answer : Option Errc} (hvisible : r.visible)
    (hok : (r.hide answer).result.isOk) : (r.hide answer).renderer.visible = false ∧
      ((r.hide answer).renderer.paused = false → (r.hide answer).commit = some (.ok none)) := by
  rw [Renderer.hide, if_neg (by simp [hvisible])] at hok ⊢
  dsimp only at hok ⊢
  split
  · rename_i hpaused
    exact ⟨rfl, fun hno => by simp [hpaused] at hno⟩
  · rename_i hpaused
    rw [if_neg hpaused] at hok
    split
    · rename_i e he
      simp [he, Except.isOk, Except.toBool] at hok
    · exact ⟨rfl, fun _ => rfl⟩

theorem resumeSpec_of_dropsPlane {r : Renderer} (h : r.Drawn) {e : CursorEvent}
    (he : e.dropsPlane) : r.ResumeSpec (e.call r) := by
  cases e with
  | resume newFd alloc probed now answer =>
    exact Renderer.resumeSpec h (by simpa [CursorEvent.dropsPlane] using he) alloc probed now answer
  | _ => exact absurd he (by simp [CursorEvent.dropsPlane])

theorem hideTook_step {t : CursorTrace} {e : CursorEvent} (h : (t.step e).hideTook) :
    (∀ answer, e ≠ .show answer) ∧ (t.hideTook ∨ ∃ answer, e = .hide answer ∧ t.renderer.visible ∧
      (e.call t.renderer).result.isOk) := by
  cases e with
  | hide answer =>
    refine ⟨nofun, ?_⟩
    simpa [step] using h
  | «show» answer => simp [step] at h
  | _ => exact ⟨nofun, .inl h⟩

/-- While a `hide` holds the plane is off, or the resume has yet to come. -/
theorem Inv.hidden_step {t : CursorTrace} (h : t.Inv) (e : CursorEvent)
    (htook : (t.step e).hideTook) : (t.step e).renderer.visible = false ∧
      (¬ (t.step e).renderer.paused → (t.step e).plane = none) := by
  obtain ⟨hshow, hold | ⟨answer, rfl, hvisible, hok⟩⟩ := hideTook_step htook
  · obtain ⟨hvisible, hplane⟩ := h.hidden hold
    cases hdrop : e.dropsPlane with
    | true =>
      have hspec := resumeSpec_of_dropsPlane h.drawn hdrop
      exact ⟨hspec.visible.trans hvisible, fun _ => by
        simp only [step, hspec.hidden hvisible, hdrop, if_true]⟩
    | false =>
      obtain ⟨hpaused, hoff⟩ := call_off h.drawn hdrop
      obtain ⟨hvisible', hcommit⟩ := hoff hshow hvisible
      refine ⟨hvisible', fun hno => ?_⟩
      simp only [step, hcommit, hdrop, Bool.false_eq_true, if_false]
      exact hplane fun hold => hno (hpaused hold)
  · obtain ⟨hvisible', hcommit⟩ := hide_took hvisible hok
    refine ⟨hvisible', fun hno => ?_⟩
    have hplane := hcommit (Bool.eq_false_iff.mpr hno)
    simp only [step, CursorEvent.call, hplane]

theorem dropsPlane_of_leavesCommit {e : CursorEvent} (he : e.leavesCommit = false) :
    e.dropsPlane = false := by
  cases e with
  | resume => exact he
  | _ => rfl

theorem Inv.armed_call {t : CursorTrace} (h : t.Inv) {e : CursorEvent}
    (he : e.leavesCommit = false) : ∀ i ∈ (t.step e).armed, i = (t.step e).renderer.activeIdx := by
  have hspec := callSpec h.drawn he
  have hsame : (∀ p, (e.call t.renderer).commit ≠ some (.ok (some p))) → ∀ i ∈ t.armed,
      i = (t.step e).renderer.activeIdx := fun hno i hi =>
    (h.armed i hi).trans (hspec.activeIdx hno).symm
  have hdrop := dropsPlane_of_leavesCommit he
  rcases hcommit : (e.call t.renderer).commit with - | err | - | p
  case some.ok.some =>
    intro i hi
    simp only [step, hcommit, Option.mem_some_iff] at hi ⊢
    exact hi ▸ (hspec.accepted p hcommit).1
  all_goals
    intro i hi
    simp only [step, hcommit, hdrop, Bool.false_eq_true, if_false] at hi
    exact hsame (by simp [hcommit]) i hi

/-- What a commit made true lasts until a call needs one. -/
theorem Inv.synced_call {t : CursorTrace} (h : t.Inv) {e : CursorEvent}
    (he : e.leavesCommit = false) (hsynced : (t.step e).synced)
    (hon : OnScreen (t.step e).renderer) :
    ∃ p ∈ (t.step e).plane, (t.step e).renderer.Armed p := by
  have hspec := callSpec h.drawn he
  obtain ⟨hcursor, hvisible, hpaused⟩ := hon
  have hdrop := dropsPlane_of_leavesCommit he
  rcases hcommit : (e.call t.renderer).commit with - | err | - | p
  case none =>
    have heq : (t.step e).renderer = t.renderer := hspec.quiet hcommit hcursor hvisible hpaused
    have hold : t.synced := by simpa [step, hcommit, he] using hsynced
    obtain ⟨p, hp, harmed⟩ := h.synced hold (heq ▸ ⟨hcursor, hvisible, hpaused⟩)
    refine ⟨p, ?_, heq.symm ▸ harmed⟩
    simpa only [step, hcommit, hdrop, Bool.false_eq_true, if_false] using hp
  case some.error => simp [step, hcommit, Except.isOk, Except.toBool] at hsynced
  case some.ok.none =>
    have hoff := hspec.off hcommit
    exact absurd hvisible (by simp [step, hoff])
  case some.ok.some =>
    exact ⟨p, by simp [step, hcommit], (hspec.accepted p hcommit).2 hcursor⟩

theorem Inv.armed_resume {t : CursorTrace} (h : t.Inv) {e : CursorEvent} (he : e.dropsPlane) :
    (t.step e).Inv := by
  have hspec := resumeSpec_of_dropsPlane h.drawn he
  have hleaves : e.leavesCommit = true := by
    cases e with
    | resume => exact he
    | _ => exact absurd he (by simp [CursorEvent.dropsPlane])
  refine ⟨hspec.drawn, fun i hi => ?_, fun hsynced hon => ?_, h.hidden_step e⟩
  all_goals
    rcases hcommit : (e.call t.renderer).commit with - | err | p
  · simp [step, hcommit, he] at hi
  · simp [step, hcommit, he] at hi
  · obtain ⟨q, rfl, hq, -⟩ := hspec.accepted p hcommit
    simp only [step, hcommit, Option.mem_some_iff] at hi ⊢
    exact hi ▸ hq
  · simp [step, hcommit, hleaves] at hsynced
  · simp [step, hcommit, Except.isOk, Except.toBool] at hsynced
  · obtain ⟨q, rfl, -, harmed⟩ := hspec.accepted p hcommit
    exact ⟨q, by simp [step, hcommit], harmed hon.1⟩

theorem Inv.step {t : CursorTrace} (h : t.Inv) (e : CursorEvent) : (t.step e).Inv := by
  cases he : e.leavesCommit with
  | false =>
    have hspec := callSpec h.drawn he
    exact ⟨hspec.drawn, h.armed_call he, h.synced_call he, h.hidden_step e⟩
  | true =>
    cases e with
    | setCursor cursor now =>
      obtain ⟨c, rfl⟩ := Option.isSome_iff_exists.mp he
      obtain ⟨hdrawn, hsame⟩ := Renderer.drawn_setCursor h.drawn c now
      refine ⟨hdrawn, fun i hi => ?_, fun hsynced => ?_, h.hidden_step _⟩
      · exact (h.armed i hi).trans hsame.activeIdx.symm
      · simp [CursorTrace.step, CursorEvent.call, Renderer.setCursor, he] at hsynced
    | resume newFd alloc probed now answer => exact h.armed_resume he
    | _ => simp [CursorEvent.leavesCommit, CursorEvent.dropsPlane] at he

/-! ### The plane over runs -/

theorem Inv.untouched {t : CursorTrace} (h : t.Inv) (e : CursorEvent) : t.Untouched e := by
  intro hdrop i hi
  rw [h.armed i hi]
  cases he : e.leavesCommit with
  | false => exact (callSpec h.drawn he).active
  | true =>
    cases e with
    | setCursor cursor now =>
      obtain ⟨c, rfl⟩ := Option.isSome_iff_exists.mp he
      exact (Renderer.drawn_setCursor h.drawn c now).2.active
    | _ => exact absurd he (by simpa [CursorEvent.leavesCommit] using hdrop)

/-- A call that returns after a commit, or after the last commit was accepted, leaves the last
commit accepted. -/
theorem synced_of_returned {t : CursorTrace} (h : t.Inv) {e : CursorEvent} (he : e.updatesPlane)
    (hok : (e.call t.renderer).result.isOk)
    (hcommit : (e.call t.renderer).commit.isSome ∨ t.synced) : (t.step e).synced := by
  have hleaves : e.leavesCommit = false := by
    cases e <;> first | rfl | exact absurd he (by simp [CursorEvent.updatesPlane])
  cases hc : (e.call t.renderer).commit with
  | none => simpa [step, hc, hleaves] using hcommit
  | some answer =>
    cases answer with
    | ok p => simp [step, hc, Except.isOk, Except.toBool]
    | error err =>
      have := (callSpec h.drawn hleaves).failed err hc
      simp [hok] at this

theorem Inv.follows {t : CursorTrace} (h : t.Inv) (e : CursorEvent) : t.FollowsCommits e where
  off htook hpaused := (h.hidden_step e htook).2 hpaused
  armed he hok hon hcommit := (h.step e).synced (synced_of_returned h he hok hcommit) hon
  untouched := h.untouched e

/-- Over every run, whatever the kernel answers, a `hide` that found the cursor visible keeps the
plane off, a call that returns after a commit or with nothing to commit leaves the plane armed as
the caller asked, and nothing is drawn into the buffer on screen. -/
theorem plane_follows_commits (path : PlanePath) (fourcc : UInt32) (zpos : Option UInt64)
    (rotation : Rotation) (probe : PlaneProbe) (width height : ℕ) (es : List CursorEvent) :
    Meets step FollowsCommits (init path fourcc zpos rotation probe width height) es :=
  meets_of_invariant Inv (fun _ e h _ => h.step e) (fun _ e h _ => h.follows e)
    (inv_init path fourcc zpos rotation probe width height) (meets_true _ _ _)

/-- One frame of four by four pixels, in a renderer just created. -/
def arrow : Cursor := ⟨[⟨1, 4, 4, 0, 0, 0⟩], by simp⟩

def fresh : CursorTrace := init .atomicCursor 0 none .k0 {} 8 8

/-- A `tick` finds no other frame and returns before any commit showed the new cursor; a `hide`
that fails is over with when it is tried again. -/
theorem not_followed_new_cursor :
    ¬ Meets step Follows fresh [.setCursor (some arrow) 0, .tick 0 none] ∧
      ¬ Meets step Follows fresh [.setCursor (some arrow) 0, .moveTo 5 5 0 none,
        .hide (some .permissionDenied), .hide none] := by
  constructor
  · rintro ⟨-, h, -⟩
    obtain ⟨p, hp, -⟩ := h.armed rfl rfl (by decide)
    exact absurd hp nofun
  · rintro ⟨-, -, -, h, -⟩
    exact absurd (h.off rfl (by decide)) nofun

end CursorTrace

end DrmCxx.Cursor
