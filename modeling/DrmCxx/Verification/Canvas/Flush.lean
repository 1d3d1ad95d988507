import DrmCxx.Lib.Run
import DrmCxx.Verification.Canvas.Clipping

/-!
# A partial flush is a full one

Only the union of two dirty rectangles is copied to a buffer, and only one is cleared. Over a run
of calls whose rectangles fit 32 bits, what was painted stays inside them, so that the rest of the
shadow and of the buffer is zero already.
-/

namespace DrmCxx.Scene

open Lib

namespace CompositeCanvas

variable {size : CanvasSize} {c : CompositeCanvas}

inductive CanvasEvent
  | beginFrame
  | clear
  | clearRect (x y w h : Int32)
  | blend (src : CompositeSrc) (srcRect dstRect : CompositeRect)
  | flush
  | paused
  | resumed (created : Fin 2 → Bool)

def step (size : CanvasSize) (c : CompositeCanvas) : CanvasEvent → CompositeCanvas
  | .beginFrame => c.beginFrame
  | .clear => c.clear size
  | .clearRect x y w h => c.clearRect size x y w h
  | .blend src srcRect dstRect => c.blend size src srcRect dstRect
  | .flush => c.flush size
  | .paused => c.onSessionPaused
  | .resumed created => c.onSessionResumed created

/-- The shadow's pixels; it is zero before its allocation. -/
def shadowPixels (c : CompositeCanvas) : Pixmap :=
  c.shadow.getD fun _ _ => 0

def rowOf (size : CanvasSize) (p : Pixmap) (y : ℕ) : List UInt32 :=
  (List.range size.width).map fun x => p x y

/-- The back buffer, when it is mapped, shows the whole shadow. -/
def Flushed (size : CanvasSize) (c : CompositeCanvas) : Prop :=
  ∀ buf, c.buffers c.backIndex = some buf → ∀ y < size.height,
    rowOf size buf y = convertRow c.outputFourcc (rowOf size c.shadowPixels y)

def Cleared (size : CanvasSize) (c : CompositeCanvas) : Prop :=
  ∀ y < size.height, ∀ x < size.width, c.shadowPixels x y = 0

/-- Every flush leaves the whole back buffer converted, every clear the whole shadow zero. -/
def EqualsFull (size : CanvasSize) (c : CompositeCanvas) : CanvasEvent → Prop
  | .flush => Flushed size (c.flush size)
  | .clear => Cleared size (c.clear size)
  | _ => True

/-- `EqualsFull`, where a clear without a back buffer changes nothing instead. -/
def EqualsFullWhenMapped (size : CanvasSize) (c : CompositeCanvas) : CanvasEvent → Prop
  | .flush => Flushed size (c.flush size)
  | .clear =>
    if (c.buffers c.backIndex).isSome then Cleared size (c.clear size) else c.clear size = c
  | _ => True

/-- The blend reaches a pixel. -/
def Draws (size : CanvasSize) (src : CompositeSrc) (srcRect dstRect : CompositeRect) : Prop :=
  src.readable.isSome ∧ (blendAxes size.width size.height src srcRect dstRect).isSome

/-- The call's rectangle arithmetic does not leave 32 bits. -/
def InRange (size : CanvasSize) (c : CompositeCanvas) : CanvasEvent → Prop
  | .clearRect x y w h =>
    (c.buffers c.backIndex).isSome →
      c.currentDirty.UnionFits ⟨x.toInt, y.toInt, w.toInt, h.toInt⟩
  | .blend src srcRect dstRect =>
    (c.buffers c.backIndex).isSome →
      dstRect.Clippable ∧ c.currentDirty.UnionFits (blendDirty dstRect) ∧
        (Draws size src srcRect dstRect → dstRect.w.toNat < 2 ^ 31 ∧ dstRect.h.toNat < 2 ^ 31)
  | .flush =>
    (c.buffers c.backIndex).isSome → c.currentDirty.UnionFits (c.prevFlush c.backIndex)
  | _ => True

instance (src : CompositeSrc) (srcRect dstRect : CompositeRect) :
    Decidable (Draws size src srcRect dstRect) :=
  inferInstanceAs (Decidable (_ ∧ _))

instance (r : CompositeRect) : Decidable r.Clippable :=
  inferInstanceAs (Decidable (_ ∧ _))

instance : ∀ e, Decidable (InRange size c e)
  | .beginFrame => inferInstanceAs (Decidable True)
  | .clear => inferInstanceAs (Decidable True)
  | .clearRect _ _ _ _ => inferInstanceAs (Decidable (_ → _))
  | .blend _ _ _ => inferInstanceAs (Decidable (_ → _ ∧ _ ∧ (_ → _)))
  | .flush => inferInstanceAs (Decidable (_ → _))
  | .paused => inferInstanceAs (Decidable True)
  | .resumed _ => inferInstanceAs (Decidable True)

/-! ### What the rectangles record -/

/-- On the canvas, every pixel that is not zero lies in a rectangle that records it. -/
structure Tracked (size : CanvasSize) (c : CompositeCanvas) : Prop where
  current_placed : c.currentDirty.Placed
  prev_placed : ∀ i, (c.prevFlush i).Placed
  shadow_dirty : ∀ x < size.width, ∀ y < size.height, c.shadowPixels x y ≠ 0 →
    c.currentDirty.Has x y
  buffer_dirty : ∀ i buf, c.buffers i = some buf → ∀ x < size.width, ∀ y < size.height,
    buf x y ≠ 0 → (c.prevFlush i).Has x y
  unallocated : c.shadow = none → c.currentDirty = {} ∧ ∀ i, c.prevFlush i = {}

theorem tracked_created (outputFourcc : UInt32) : Tracked size (created outputFourcc) where
  current_placed := DirtyRect.placed_default
  prev_placed _ := DirtyRect.placed_default
  shadow_dirty _ _ _ _ h := absurd rfl h
  buffer_dirty _ _ hbuf _ _ _ _ h := by
    cases hbuf
    exact absurd rfl h
  unallocated _ := ⟨rfl, fun _ => rfl⟩

/-- `ensure_shadow` keeps the rectangles and only allocates the shadow. -/
theorem ensureShadow_eq (hc : Tracked size c) :
    c.ensureShadow = (c.buffers c.backIndex).map fun _ => (c, c.shadowPixels) := by
  unfold ensureShadow shadowPixels
  cases c.buffers c.backIndex with
  | none => rfl
  | some buf =>
    cases hs : c.shadow with
    | some s => rfl
    | none =>
      obtain ⟨hcur, hprev⟩ := hc.unallocated hs
      have hempty : (fun _ => {}) = c.prevFlush := funext fun i => (hprev i).symm
      simp only [Option.map_some, Option.getD_none]
      rw [hempty, ← hcur, ← hs]

/-- Painting keeps the invariant when what it leaves non-zero is in the new dirty rectangle. -/
theorem tracked_paint (hc : Tracked size c) {s : Pixmap} {r : DirtyRect} (hr : r.Placed)
    (hs : ∀ x < size.width, ∀ y < size.height, s x y ≠ 0 → r.Has x y) :
    Tracked size { c with shadow := some s, currentDirty := r } where
  current_placed := hr
  prev_placed := hc.prev_placed
  shadow_dirty := hs
  buffer_dirty := hc.buffer_dirty
  unallocated h := absurd h (by simp)

/-- A clear with a back buffer leaves a zero shadow. -/
theorem clear_eq (hc : Tracked size c) (hback : (c.buffers c.backIndex).isSome) :
    ∃ s : Pixmap, c.clear size = { c with shadow := some s, currentDirty := {} } ∧
      ∀ x < size.width, ∀ y < size.height, s x y = 0 := by
  obtain ⟨buf, hbuf⟩ := Option.isSome_iff_exists.1 hback
  have hclear : c.clear size = _ := rfl
  conv at hclear => rhs; unfold clear
  rw [ensureShadow_eq hc, hbuf] at hclear
  cases hclip : c.currentDirty.clipToCanvas size with
  | none =>
    simp only [Option.map_some, hclip] at hclear
    refine ⟨_, hclear, fun x hx y hy => ?_⟩
    by_contra hne
    exact DirtyRect.not_has_of_clipToCanvas hclip hx hy (hc.shadow_dirty x hx y hy hne)
  | some r =>
    simp only [Option.map_some, hclip] at hclear
    refine ⟨_, hclear, fun x hx y hy => ite_eq_left_iff.2 fun hr => ?_⟩
    by_contra hne
    exact hr ((DirtyRect.has_clipToCanvas hclip hx hy).2 (hc.shadow_dirty x hx y hy hne))

theorem cleared_clear (hc : Tracked size c) (hback : (c.buffers c.backIndex).isSome) :
    Cleared size (c.clear size) := by
  obtain ⟨s, hs, hzero⟩ := clear_eq hc hback
  intro y hy x hx
  rw [hs]
  exact hzero x hx y hy

theorem clear_of_unmapped (hback : c.buffers c.backIndex = none) : c.clear size = c := by
  simp [clear, ensureShadow, hback]

theorem tracked_clear (hc : Tracked size c) : Tracked size (c.clear size) := by
  cases hback : c.buffers c.backIndex with
  | none => rwa [clear_of_unmapped hback]
  | some buf =>
    obtain ⟨s, hs, hzero⟩ := clear_eq hc (by simp [hback])
    rw [hs]
    exact tracked_paint hc DirtyRect.placed_default
      fun x hx y hy hne => absurd (hzero x hx y hy) hne

/-! ### Painting -/

theorem tracked_clearRect (hc : Tracked size c) {x y w h : Int32}
    (hfits : InRange size c (.clearRect x y w h)) : Tracked size (c.clearRect size x y w h) := by
  unfold clearRect
  rw [ensureShadow_eq hc]
  cases hback : c.buffers c.backIndex with
  | none => exact hc
  | some buf =>
    have hplaced : (⟨x.toInt, y.toInt, w.toInt, h.toInt⟩ : DirtyRect).Placed :=
      ⟨x.le_toInt, y.le_toInt⟩
    have hunion := hfits (by simp [hback])
    refine tracked_paint hc (DirtyRect.placed_union hc.current_placed hplaced hunion)
      fun px hpx py hpy hne => ?_
    rcases clearInto_eq_zero_or c.shadowPixels size.width size.height x y w h px py with
      hzero | hsame
    · exact absurd hzero hne
    · exact DirtyRect.has_union_left hc.current_placed hplaced hunion
        (hc.shadow_dirty px hpx py hpy (hsame ▸ hne))

/-- A blend that reaches no pixel leaves them alone. -/
theorem blendInto_of_not_draws {width height : ℕ} {src : CompositeSrc}
    {srcRect dstRect : CompositeRect}
    (h : ¬ (src.readable.isSome ∧ (blendAxes width height src srcRect dstRect).isSome))
    (dst : Pixmap) : blendInto dst width height src srcRect dstRect = dst := by
  unfold blendInto
  cases hread : src.readable with
  | none => rfl
  | some pixels =>
    cases haxes : blendAxes width height src srcRect dstRect with
    | none => rfl
    | some axes => exact absurd (by simp [hread, haxes]) h

theorem tracked_blend (hc : Tracked size c) {src : CompositeSrc} {srcRect dstRect : CompositeRect}
    (hfits : InRange size c (.blend src srcRect dstRect)) :
    Tracked size (c.blend size src srcRect dstRect) := by
  unfold blend
  rw [ensureShadow_eq hc]
  cases hback : c.buffers c.backIndex with
  | none => exact hc
  | some buf =>
    obtain ⟨hclip, hunion, hsize⟩ := hfits (by simp [hback])
    have hplaced : (blendDirty dstRect).Placed := ⟨dstRect.x.le_toInt, dstRect.y.le_toInt⟩
    refine tracked_paint hc (DirtyRect.placed_union hc.current_placed hplaced hunion)
      fun x hx y hy hne => ?_
    by_cases hold : c.shadowPixels x y = 0
    · -- the blend painted this pixel, so it lies in the rectangle that `blend` adds
      have hdraws : Draws size src srcRect dstRect := by
        by_contra h
        rw [blendInto_of_not_draws h] at hne
        exact hne hold
      obtain ⟨hw, hh⟩ := hsize hdraws
      refine DirtyRect.has_union_right hc.current_placed hplaced hunion ?_
      unfold blendDirty
      rw [i32_of_fits (by omega) (by omega), i32_of_fits (by omega) (by omega)]
      by_contra hout
      exact hne ((blendInto_outside hclip hout).trans hold)
    · exact DirtyRect.has_union_left hc.current_placed hplaced hunion
        (hc.shadow_dirty x hx y hy hold)

/-! ### Flushing -/

/-- A flush whose rectangles fit leaves every pixel of the back buffer converted. -/
theorem flush_eq (hc : Tracked size c) {buf : Pixmap} (hback : c.buffers c.backIndex = some buf)
    (hfits : InRange size c .flush) :
    ∃ copied : Pixmap,
      c.flush size =
        { c with
          buffers := Function.update c.buffers c.backIndex (some copied)
          prevFlush := Function.update c.prevFlush c.backIndex c.currentDirty } ∧
      ∀ x < size.width, ∀ y < size.height,
        copied x y = convertPixel c.outputFourcc (c.shadowPixels x y) := by
  have hunion := hfits (by simp [hback])
  have hcur := hc.current_placed
  have hprev := hc.prev_placed c.backIndex
  -- outside the copied rectangle both the shadow and the buffer are zero
  have houter : ∀ x < size.width, ∀ y < size.height,
      ¬ (c.currentDirty.union (c.prevFlush c.backIndex)).Has x y →
        buf x y = convertPixel c.outputFourcc (c.shadowPixels x y) := by
    intro x hx y hy hout
    have hshadow : c.shadowPixels x y = 0 := by
      by_contra hne
      exact hout (DirtyRect.has_union_left hcur hprev hunion (hc.shadow_dirty x hx y hy hne))
    have hbuf : buf x y = 0 := by
      by_contra hne
      exact hout (DirtyRect.has_union_right hcur hprev hunion
        (hc.buffer_dirty _ buf hback x hx y hy hne))
    rw [hshadow, hbuf, convertPixel_zero]
  cases hs : c.shadow with
  | none =>
    have hflush : c.flush size = c := by simp [flush, hback, hs]
    obtain ⟨hcurEmpty, hprevEmpty⟩ := hc.unallocated hs
    refine ⟨buf, ?_, fun x hx y hy => houter x hx y hy ?_⟩
    · have hsame : Function.update c.prevFlush c.backIndex c.currentDirty = c.prevFlush := by
        rw [hcurEmpty, ← hprevEmpty c.backIndex, Function.update_eq_self]
      have hbufs : Function.update c.buffers c.backIndex (some buf) = c.buffers := by
        rw [← hback, Function.update_eq_self]
      rw [hflush, hsame, hbufs, ← hs]
    · rw [hcurEmpty, hprevEmpty]
      exact DirtyRect.not_has_default x y
  | some s =>
    unfold flush
    rw [hback, hs]
    refine ⟨_, rfl, fun x hx y hy => ?_⟩
    have hpixels : c.shadowPixels = s := by simp [shadowPixels, hs]
    rw [hpixels] at houter ⊢
    cases hclip : (c.currentDirty.union (c.prevFlush c.backIndex)).clipToCanvas size with
    | none => exact houter x hx y hy (DirtyRect.not_has_of_clipToCanvas hclip hx hy)
    | some r =>
      refine ite_eq_left_iff.2 fun hr => houter x hx y hy fun hin => hr ?_
      exact (DirtyRect.has_clipToCanvas hclip hx hy).2 hin

theorem flushed_flush (hc : Tracked size c) (hfits : InRange size c .flush) :
    Flushed size (c.flush size) := by
  intro buf hbuf y hy
  cases hback : c.buffers c.backIndex with
  | none =>
    have hflush : c.flush size = c := by simp [flush, hback]
    rw [hflush, hback] at hbuf
    cases hbuf
  | some old =>
    obtain ⟨copied, heq, hcopied⟩ := flush_eq hc hback hfits
    rw [heq] at hbuf ⊢
    dsimp only at hbuf
    rw [Function.update_self] at hbuf
    cases hbuf
    unfold rowOf convertRow
    rw [List.map_map]
    exact List.map_congr_left fun x hx => hcopied x (List.mem_range.1 hx) y hy

theorem tracked_flush (hc : Tracked size c) (hfits : InRange size c .flush) :
    Tracked size (c.flush size) := by
  cases hback : c.buffers c.backIndex with
  | none =>
    have hflush : c.flush size = c := by simp [flush, hback]
    rwa [hflush]
  | some old =>
    obtain ⟨copied, heq, hcopied⟩ := flush_eq hc hback hfits
    rw [heq]
    refine ⟨hc.current_placed, fun i => ?_, hc.shadow_dirty, fun i buf hbuf x hx y hy hne => ?_,
      fun hs => ?_⟩
    · by_cases hi : i = c.backIndex
      · subst hi
        simpa using hc.current_placed
      · simpa [hi] using hc.prev_placed i
    · dsimp only at hbuf ⊢
      by_cases hi : i = c.backIndex
      · subst hi
        rw [Function.update_self] at hbuf ⊢
        cases hbuf
        refine hc.shadow_dirty x hx y hy fun hzero => hne ?_
        rw [hcopied x hx y hy, hzero, convertPixel_zero]
      · rw [Function.update_of_ne hi] at hbuf ⊢
        exact hc.buffer_dirty i buf hbuf x hx y hy hne
    · obtain ⟨hcur, hprev⟩ := hc.unallocated hs
      refine ⟨hcur, fun i => ?_⟩
      by_cases hi : i = c.backIndex
      · subst hi
        simpa using hcur
      · simpa [hi] using hprev i

/-! ### Session cycles -/

/-- Buffers that are forgotten or new hold no painted pixel. -/
theorem tracked_buffers (hc : Tracked size c) {bufs : Fin 2 → Option Pixmap} (back : Fin 2)
    (hbufs : ∀ i buf, bufs i = some buf → c.buffers i = some buf ∨ buf = fun _ _ => 0) :
    Tracked size { c with buffers := bufs, backIndex := back } where
  current_placed := hc.current_placed
  prev_placed := hc.prev_placed
  shadow_dirty := hc.shadow_dirty
  buffer_dirty i buf hbuf x hx y hy hne := by
    rcases hbufs i buf hbuf with hsame | hnew
    · exact hc.buffer_dirty i buf hsame x hx y hy hne
    · subst hnew
      exact absurd rfl hne
  unallocated := hc.unallocated

theorem tracked_onSessionResumed (hc : Tracked size c) (created : Fin 2 → Bool) :
    Tracked size (c.onSessionResumed created) := by
  unfold onSessionResumed
  dsimp only
  split
  · exact hc
  split
  · refine tracked_buffers hc c.backIndex fun i buf hbuf => ?_
    by_cases hi : i = 0
    · subst hi
      simp only [Function.update_self, Option.some.injEq] at hbuf
      exact .inr hbuf.symm
    · rw [Function.update_of_ne hi] at hbuf
      exact .inl hbuf
  · exact tracked_buffers hc 1 fun i buf hbuf => .inr (Option.some.inj hbuf).symm

/-! ### Every run -/

theorem tracked_step (hc : Tracked size c) (e : CanvasEvent) (he : InRange size c e) :
    Tracked size (step size c e) := by
  cases e with
  | beginFrame => exact tracked_buffers hc (1 - c.backIndex) fun i buf h => .inl h
  | clear => exact tracked_clear hc
  | clearRect x y w h => exact tracked_clearRect hc he
  | blend src srcRect dstRect => exact tracked_blend hc he
  | flush => exact tracked_flush hc he
  | paused => exact tracked_buffers hc c.backIndex fun i buf h => by cases h
  | resumed created => exact tracked_onSessionResumed hc created

theorem tracked_run {outputFourcc : UInt32} {es : List CanvasEvent}
    (hes : Meets (step size) (InRange size) (created outputFourcc) es) :
    Tracked size (run (step size) (created outputFourcc) es) := by
  have hstep : ∀ c e, Tracked size c → InRange size c e → Tracked size (step size c e) :=
    fun _ e hc => tracked_step hc e
  exact run_invariant hstep (tracked_created outputFourcc) hes

theorem equalsFull_step (hc : Tracked size c) (e : CanvasEvent) (he : InRange size c e) :
    EqualsFullWhenMapped size c e := by
  cases e with
  | flush => exact flushed_flush hc he
  | clear =>
    by_cases hback : (c.buffers c.backIndex).isSome
    · exact (if_pos hback).mpr (cleared_clear hc hback)
    · exact (if_neg hback).mpr (clear_of_unmapped (by simpa using hback))
  | _ => trivial

/-- In every run whose rectangle arithmetic fits 32 bits, a flush leaves the whole mapped back
buffer equal to the converted shadow and a clear leaves the whole shadow zero. -/
theorem equalsFull_of_inRange (size : CanvasSize) (outputFourcc : UInt32)
    (es : List CanvasEvent) (hes : Meets (step size) (InRange size) (created outputFourcc) es) :
    Meets (step size) (EqualsFullWhenMapped size) (created outputFourcc) es :=
  meets_of_invariant (Tracked size) (fun _ e hc => tracked_step hc e)
    (fun _ e hc => equalsFull_step hc e) (tracked_created outputFourcc) hes

/-- A canvas of two pixels by one. -/
def smallCanvas : CanvasSize where
  width := 2
  height := 1
  width_pos := by decide
  height_pos := by decide
  width_lt := by decide
  height_lt := by decide

/-- One opaque red pixel. -/
def redPixel : CompositeSrc where
  pixels := some { word := fun _ => 0xFFFF0000, size := 4 }
  srcStrideBytes := 4
  srcWidth := 1
  srcHeight := 1
  drmFourcc := drmFormatArgb8888

theorem equalsFull_of_inRange_twoBuffers :
    Meets (step smallCanvas) (EqualsFullWhenMapped smallCanvas) (created drmFormatRgb565)
      [.blend redPixel ⟨0, 0, 1, 1⟩ ⟨-1, 0, 2, 1⟩, .flush, .beginFrame, .clear,
        .clearRect 1 0 5 1, .flush] :=
  equalsFull_of_inRange smallCanvas drmFormatRgb565 _ (by decide +kernel)

/-- A clear without a back buffer leaves the shadow painted. A blend whose width is no positive
`std::int32_t` paints a pixel outside every dirty rectangle: it is neither copied nor cleared. -/
theorem not_equalsFull :
    ¬ Meets (step smallCanvas) (EqualsFull smallCanvas) (created drmFormatArgb8888)
        [.blend redPixel ⟨0, 0, 1, 1⟩ ⟨0, 0, 1, 1⟩, .paused, .clear] ∧
      ¬ Meets (step smallCanvas) (EqualsFull smallCanvas) (created drmFormatArgb8888)
        [.blend redPixel ⟨0, 0, 1, 1⟩ ⟨0, 0, 0x80000000, 1⟩, .flush] ∧
      ¬ Meets (step smallCanvas) (EqualsFull smallCanvas) (created drmFormatArgb8888)
        [.blend redPixel ⟨0, 0, 1, 1⟩ ⟨0, 0, 0x80000000, 1⟩, .clear] := by
  refine ⟨fun h => ?_, fun h => ?_, fun h => ?_⟩
  · have hclear := h.2.2.1 0 (by decide) 0 (by decide)
    revert hclear
    decide +kernel
  · have hflush := h.2.1 _ rfl 0 (by decide)
    revert hflush
    decide +kernel
  · have hclear := h.2.1 0 (by decide) 0 (by decide)
    revert hclear
    decide +kernel

end CompositeCanvas

end DrmCxx.Scene
