import DrmCxx.Csd.CompositePresenter
import DrmCxx.Verification.Canvas.Flush
import DrmCxx.Verification.Canvas.Sampling
import DrmCxx.Verification.Csd.Damage

/-!
# Painting a region of the presenter's canvas

What the shadow holds after each canvas call, and after a region was painted: what the frame
composes to in the region, and outside of it what it held before.
-/

namespace DrmCxx.Csd

open Lib Scene Scene.CompositeCanvas

variable {size : CanvasSize}

/-! ### Painting on the canvas -/

/-- A dirty rectangle on the canvas. -/
structure DirtyInside (size : CanvasSize) (r : DirtyRect) : Prop where
  x : 0 ≤ r.x
  y : 0 ≤ r.y
  w : r.x + r.w ≤ size.width
  h : r.y + r.h ≤ size.height

theorem DirtyInside.unionFits {a b : DirtyRect} (ha : DirtyInside size a)
    (hb : DirtyInside size b) : a.UnionFits b := by
  obtain ⟨hax, hay, haw, hah⟩ := ha
  obtain ⟨hbx, hby, hbw, hbh⟩ := hb
  have hwidth := size.width_lt
  have hheight := size.height_lt
  intro _ _
  omega

theorem DirtyInside.placed {r : DirtyRect} (h : DirtyInside size r) : r.Placed := by
  have hx := h.x
  have hy := h.y
  exact ⟨by omega, by omega⟩

theorem DirtyInside.union {a b : DirtyRect} (ha : DirtyInside size a) (hb : DirtyInside size b) :
    DirtyInside size (a.union b) := by
  by_cases hna : a.empty
  · simpa [DirtyRect.union, hna] using hb
  by_cases hnb : b.empty
  · simpa [DirtyRect.union, hna, hnb] using ha
  rw [DirtyRect.union_of_fits ha.placed hb.placed (ha.unionFits hb) hna hnb]
  obtain ⟨hax, hay, haw, hah⟩ := ha
  obtain ⟨hbx, hby, hbw, hbh⟩ := hb
  constructor <;> dsimp only <;> omega

/-- A canvas with both buffers, painted and flushed only where it is. -/
structure CanvasKept (size : CanvasSize) (c : CompositeCanvas) : Prop where
  tracked : Tracked size c
  mapped : ∀ i, (c.buffers i).isSome
  dirty : DirtyInside size c.currentDirty
  prevFlush : ∀ i, DirtyInside size (c.prevFlush i)

theorem toInt_ofInt {z : ℤ} (hlo : -2 ^ 31 ≤ z) (hhi : z < 2 ^ 31) : (Int32.ofInt z).toInt = z := by
  rw [Int32.toInt_ofInt]
  exact i32_of_fits hlo hhi

theorem canvasKept_created (outputFourcc : UInt32) : CanvasKept size (created outputFourcc) := by
  refine ⟨tracked_created outputFourcc, fun _ => rfl, ?_, fun _ => ?_⟩ <;>
    exact ⟨le_refl _, le_refl _, by simp [created], by simp [created]⟩

theorem CanvasKept.beginFrame {c : CompositeCanvas} (h : CanvasKept size c) :
    CanvasKept size c.beginFrame ∧ c.beginFrame.shadowPixels = c.shadowPixels :=
  ⟨⟨tracked_step h.tracked .beginFrame trivial, h.mapped, h.dirty, h.prevFlush⟩, rfl⟩

/-- What a paint call leaves alone. -/
structure SameScanout (c c' : CompositeCanvas) : Prop where
  outputFourcc : c'.outputFourcc = c.outputFourcc
  backIndex : c'.backIndex = c.backIndex

/-- A paint call on a mapped canvas: the shadow is painted, and the rectangle added. -/
theorem CanvasKept.painted {c c' : CompositeCanvas} (h : CanvasKept size c)
    (htracked : Tracked size c') {s : Pixmap} {r : DirtyRect} (hr : DirtyInside size r)
    (heq : c' = { c with shadow := some s, currentDirty := c.currentDirty.union r }) :
    CanvasKept size c' ∧ SameScanout c c' ∧ c'.shadowPixels = s := by
  subst heq
  exact ⟨⟨htracked, h.mapped, h.dirty.union hr, h.prevFlush⟩, ⟨rfl, rfl⟩, rfl⟩

theorem DamageRect.Inside.lt {r : DamageRect} (h : r.Inside size) :
    r.x < 2 ^ 31 ∧ r.y < 2 ^ 31 ∧ r.w < 2 ^ 31 ∧ r.h < 2 ^ 31 := by
  obtain ⟨hx, hy, hw, hh⟩ := h
  have hwidth := size.width_lt
  have hheight := size.height_lt
  omega

/-- The corners and extents of a rectangle on the canvas, as `clear_into` takes them. -/
theorem DamageRect.Inside.toInt_ofInt {r : DamageRect} (hr : r.Inside size) :
    (Int32.ofInt r.x).toInt = r.x ∧ (Int32.ofInt r.y).toInt = r.y ∧
      (Int32.ofInt r.w).toInt = r.w ∧ (Int32.ofInt r.h).toInt = r.h := by
  obtain ⟨hxlt, hylt, hwlt, hhlt⟩ := hr.lt
  have hx := hr.x
  have hy := hr.y
  exact ⟨Csd.toInt_ofInt (by omega) hxlt, Csd.toInt_ofInt (by omega) hylt,
    Csd.toInt_ofInt (by omega) (by omega), Csd.toInt_ofInt (by omega) (by omega)⟩

theorem clearInto_eq (dst : Pixmap) {r : DamageRect} (hr : r.Inside size) (x y : ℕ) :
    clearInto dst size.width size.height (.ofInt r.x) (.ofInt r.y) (.ofInt r.w) (.ofInt r.h) x y =
      if r.Has x y then 0 else dst x y := by
  obtain ⟨hx', hy', hw', hh'⟩ := hr.toInt_ofInt
  obtain ⟨hx, hy, hw, hh⟩ := hr
  rw [clearInto, hx', hy', hw', hh']
  by_cases hempty : (r.w : ℤ) ≤ 0 ∨ (r.h : ℤ) ≤ 0
  · rw [if_pos hempty, if_neg]
    unfold DamageRect.Has
    omega
  · rw [if_neg hempty]
    refine if_congr ?_ rfl rfl
    unfold DamageRect.Has
    omega

theorem CanvasKept.clearRect {c : CompositeCanvas} (h : CanvasKept size c) {r : DamageRect}
    (hr : r.Inside size) :
    let c' := c.clearRect size (.ofInt r.x) (.ofInt r.y) (.ofInt r.w) (.ofInt r.h)
    CanvasKept size c' ∧ SameScanout c c' ∧ ∀ x y,
      c'.shadowPixels x y = if r.Has x y then 0 else c.shadowPixels x y := by
  obtain ⟨hx', hy', hw', hh'⟩ := hr.toInt_ofInt
  have hdirty : DirtyInside size ⟨(Int32.ofInt r.x).toInt, (Int32.ofInt r.y).toInt,
      (Int32.ofInt r.w).toInt, (Int32.ofInt r.h).toInt⟩ := by
    rw [hx', hy', hw', hh']
    exact ⟨hr.x, hr.y, hr.w, hr.h⟩
  obtain ⟨buf, hbuf⟩ := Option.isSome_iff_exists.mp (h.mapped c.backIndex)
  have heq : c.clearRect size (.ofInt r.x) (.ofInt r.y) (.ofInt r.w) (.ofInt r.h) = _ := rfl
  conv at heq => rhs; unfold CompositeCanvas.clearRect
  rw [ensureShadow_eq h.tracked, hbuf, Option.map_some] at heq
  have htracked := tracked_clearRect h.tracked (x := .ofInt r.x) (y := .ofInt r.y)
    (w := .ofInt r.w) (h := .ofInt r.h) fun _ => h.dirty.unionFits hdirty
  obtain ⟨hkept, hsame, hshadow⟩ := h.painted htracked hdirty heq
  refine ⟨hkept, hsame, fun px py => ?_⟩
  rw [hshadow]
  exact clearInto_eq _ hr px py

theorem canvasRect_eq {r : DamageRect} (hr : r.Inside size) :
    let dstRect := CompositePresenter.canvasRect r.x r.y r.w r.h
    dstRect.x.toInt = r.x ∧ dstRect.y.toInt = r.y ∧ dstRect.w.toNat = r.w ∧
      dstRect.h.toNat = r.h := by
  obtain ⟨hx, hy, hw, hh⟩ := hr.lt
  have hpos := hr.x
  have hpos' := hr.y
  refine ⟨toInt_ofInt (by omega) hx, toInt_ofInt (by omega) hy, ?_, ?_⟩
  · exact UInt32.toNat_ofNat_of_lt' (lt_trans hw (by decide))
  · exact UInt32.toNat_ofNat_of_lt' (lt_trans hh (by decide))

theorem CanvasKept.blend {c : CompositeCanvas} (h : CanvasKept size c) (src : CompositeSrc)
    (srcRect : CompositeRect) {r : DamageRect} (hr : r.Inside size) :
    let dstRect := CompositePresenter.canvasRect r.x r.y r.w r.h
    let c' := c.blend size src srcRect dstRect
    CanvasKept size c' ∧ SameScanout c c' ∧ c'.shadowPixels =
      blendInto c.shadowPixels size.width size.height src srcRect dstRect := by
  intro dstRect c'
  obtain ⟨hx', hy', hw', hh'⟩ : dstRect.x.toInt = r.x ∧ dstRect.y.toInt = r.y ∧
      dstRect.w.toNat = r.w ∧ dstRect.h.toNat = r.h := canvasRect_eq hr
  obtain ⟨hx, hy, hw, hh⟩ := hr.lt
  have hdirty : DirtyInside size (blendDirty dstRect) := by
    rw [blendDirty, hx', hy', hw', hh', i32_of_fits (by omega) (by omega),
      i32_of_fits (by omega) (by omega)]
    exact ⟨hr.x, hr.y, hr.w, hr.h⟩
  obtain ⟨buf, hbuf⟩ := Option.isSome_iff_exists.mp (h.mapped c.backIndex)
  have heq : c.blend size src srcRect dstRect = _ := rfl
  conv at heq => rhs; unfold CompositeCanvas.blend
  rw [ensureShadow_eq h.tracked, hbuf, Option.map_some] at heq
  have hclippable : dstRect.Clippable := by
    have hxpos := hr.x
    have hypos := hr.y
    unfold CompositeRect.Clippable
    omega
  exact h.painted (tracked_blend h.tracked fun _ =>
    ⟨hclippable, h.dirty.unionFits hdirty, fun _ => ⟨by omega, by omega⟩⟩) hdirty heq

theorem CanvasKept.flush {c : CompositeCanvas} (h : CanvasKept size c) :
    CanvasKept size (c.flush size) ∧ SameScanout c (c.flush size) ∧
      (c.flush size).shadowPixels = c.shadowPixels ∧
      ∃ buf, (c.flush size).buffers c.backIndex = some buf ∧
        ∀ x < size.width, ∀ y < size.height,
          buf x y = convertPixel c.outputFourcc (c.shadowPixels x y) := by
  obtain ⟨buf, hbuf⟩ := Option.isSome_iff_exists.mp (h.mapped c.backIndex)
  have hrange : InRange size c .flush := fun _ => h.dirty.unionFits (h.prevFlush c.backIndex)
  obtain ⟨copied, heq, hcopied⟩ := flush_eq h.tracked hbuf hrange
  have htracked := tracked_flush h.tracked hrange
  rw [heq] at htracked ⊢
  refine ⟨⟨htracked, fun i => ?_, h.dirty, fun i => ?_⟩, ⟨rfl, rfl⟩, rfl, copied, ?_, hcopied⟩
  · by_cases hi : i = c.backIndex
    · subst hi
      simp
    · simpa [Function.update_of_ne hi] using h.mapped i
  · by_cases hi : i = c.backIndex
    · subst hi
      simpa using h.dirty
    · simpa [Function.update_of_ne hi] using h.prevFlush i
  · exact Function.update_self _ _ _

/-! ### What a frame composes to -/

instance (s : DamageSlot) (x y : ℕ) : Decidable (s.Covers x y) :=
  inferInstanceAs (Decidable (_ ∧ _ ∧ _ ∧ _ ∧ _))

/-- The pixel of the surface, wherever it is placed. -/
def Surface.pixel (s : Surface) (x y : ℕ) : UInt32 :=
  s.pixels.word (y * (s.stride.toNat / 4) + x)

/-- The pixel of the decoration at a pixel of the canvas. -/
def SurfaceRef.pixelAt (ref : SurfaceRef) (x y : ℕ) : UInt32 :=
  match ref.surface with
  | none => 0
  | some s => s.pixel (x - ref.x.toInt).toNat (y - ref.y.toInt).toNat

/-- The whole decoration blended over `under`. -/
def SurfaceRef.over (ref : SurfaceRef) (x y : ℕ) (under : UInt32) : UInt32 :=
  if ref.slot.Covers x y then blendPixelOver (ref.pixelAt x y) under else under

def blendedOver (refs : List SurfaceRef) (x y : ℕ) (under : UInt32) : UInt32 :=
  refs.foldl (fun under ref => ref.over x y under) under

/-- The backdrop is opaque. -/
def backdrop (size : CanvasSize) (background : Option (ℕ → UInt32)) (x y : ℕ) : UInt32 :=
  match background with
  | none => 0
  | some word => word (y * size.width + x) ||| 0xFF000000

/-- The backdrop with all decorations blended over it in full, in list order. -/
def composition (size : CanvasSize) (background : Option (ℕ → UInt32)) (refs : List SurfaceRef)
    (x y : ℕ) : UInt32 :=
  blendedOver refs x y (backdrop size background x y)

/-- One axis of a blend whose source and destination have one size, both inside. -/
theorem clipAxis_unscaled {pos srcPos : ℤ} {len extent srcExtent p : ℕ}
    (hpos : 0 ≤ pos ∧ pos + len ≤ extent) (hsrc : 0 ≤ srcPos ∧ srcPos + len ≤ srcExtent)
    (hextent : extent < 2 ^ 31) (hsrcExtent : srcExtent < 2 ^ 31)
    (hp : pos ≤ p ∧ (p : ℤ) < pos + len) :
    ∃ r, clipAxis pos len extent srcPos len srcExtent = some r ∧
      r.srcSpan = r.dstEnd - r.dstStart ∧ (r.dstStart ≤ p ∧ p < r.dstEnd) ∧
      sampleIndex true r p = (p - pos + srcPos).toNat := by
  have hdstVisible : visibleLen pos len extent = len := by
    unfold visibleLen
    omega
  have hsrcVisible : visibleLen srcPos len srcExtent = len := by
    unfold visibleLen
    omega
  refine ⟨_, clipAxis_visible ⟨by omega, by omega⟩ hextent ⟨by omega, by omega⟩ hsrcExtent
    (by omega) (by omega), ?_⟩
  simp only [visibleAxis, sampleIndex, if_pos, hdstVisible, hsrcVisible]
  omega

/-- A blend whose source and destination have one size, both inside. -/
theorem blendInto_unscaled {src : CompositeSrc} {pixels : PixelSpan}
    (hread : src.readable = some pixels) {r : DamageRect} (hr : r.Inside size) {sx sy : ℤ}
    (hsx : 0 ≤ sx ∧ sx + r.w ≤ src.srcWidth.toNat) (hsy : 0 ≤ sy ∧ sy + r.h ≤ src.srcHeight.toNat)
    (hwidth : src.srcWidth.toNat < 2 ^ 31) (hheight : src.srcHeight.toNat < 2 ^ 31) (dst : Pixmap)
    (x y : ℕ) :
    blendInto dst size.width size.height src (CompositePresenter.canvasRect sx sy r.w r.h)
        (CompositePresenter.canvasRect r.x r.y r.w r.h) x y =
      if r.Has x y then
        src.shade (pixels.word ((y - r.y + sy).toNat * (src.srcStrideBytes.toNat / 4) +
          (x - r.x + sx).toNat)) (dst x y)
      else dst x y := by
  obtain ⟨hxr, hyr, hwr, hhr⟩ := canvasRect_eq hr
  have hsx' : (CompositePresenter.canvasRect sx sy r.w r.h).x.toInt = sx :=
    toInt_ofInt (by omega) (by omega)
  have hsy' : (CompositePresenter.canvasRect sx sy r.w r.h).y.toInt = sy :=
    toInt_ofInt (by omega) (by omega)
  have hwr' : (CompositePresenter.canvasRect sx sy r.w r.h).w.toNat = r.w := hwr
  have hhr' : (CompositePresenter.canvasRect sx sy r.w r.h).h.toNat = r.h := hhr
  by_cases hin : r.Has x y
  · obtain ⟨hx, hx', hy, hy'⟩ := id hin
    have hcanvasWidth := size.width_lt
    obtain ⟨xr, hxclip, hxspan, hxvisible, hxsample⟩ := clipAxis_unscaled (p := x)
      ⟨hr.x, hr.w⟩ hsx (by omega) hwidth ⟨hx, hx'⟩
    obtain ⟨yr, hyclip, hyspan, hyvisible, hysample⟩ := clipAxis_unscaled (p := y)
      ⟨hr.y, hr.h⟩ hsy size.height_lt hheight ⟨hy, hy'⟩
    have haxes : blendAxes size.width size.height src
        (CompositePresenter.canvasRect sx sy r.w r.h)
        (CompositePresenter.canvasRect r.x r.y r.w r.h) = some (xr, yr) := by
      unfold blendAxes
      rw [hxr, hyr, hwr, hhr, hsx', hsy', hwr', hhr', hxclip, hyclip]
      rfl
    have hnoScale : decide (xr.srcSpan = xr.dstEnd - xr.dstStart ∧
        yr.srcSpan = yr.dstEnd - yr.dstStart) = true := decide_eq_true ⟨hxspan, hyspan⟩
    unfold blendInto
    rw [hread, haxes]
    dsimp only
    unfold blendRange
    rw [if_pos hin, if_pos ⟨hxvisible.1, hxvisible.2, hyvisible⟩, hnoScale]
    dsimp only
    rw [hxsample, hysample]
  · obtain ⟨hxlt, hylt, hwlt, hhlt⟩ := hr.lt
    have hrx := hr.x
    have hry := hr.y
    rw [if_neg hin, blendInto_outside ⟨by omega, by omega⟩]
    rwa [hxr, hyr, hwr, hhr]

theorem shade_src (s : Surface) (p under : UInt32) :
    s.src.shade p under = blendPixelOver p under := by
  have hopaque : sourceIsOpaque drmFormatArgb8888 = false := by decide
  have halpha : ¬ planeAlpha8 0xFFFF < 0xFF := by decide
  simp only [CompositeSrc.shade, Surface.src, hopaque]
  rw [if_neg halpha]
  rfl

theorem shade_backdropSrc (word : ℕ → UInt32) (p under : UInt32) :
    (CompositePresenter.backdropSrc size word).shade p under = p ||| 0xFF000000 := by
  have hopaque : sourceIsOpaque drmFormatXrgb8888 = true := by decide
  have halpha : ¬ planeAlpha8 0xFFFF < 0xFF := by decide
  simp only [CompositeSrc.shade, CompositePresenter.backdropSrc, hopaque]
  rw [if_neg halpha]
  rfl

theorem readable_src (s : Surface) : s.src.readable = some s.pixels := by
  have hsupported : formatSupported drmFormatArgb8888 = true := by decide
  simp [CompositeSrc.readable, Surface.src, hsupported, s.stride_ok, s.size_ok, s.aligned]

/-- The backdrop's rows are as long as the canvas's. -/
theorem backdropSrc_toNat (size : CanvasSize) (word : ℕ → UInt32) :
    let src := CompositePresenter.backdropSrc size word
    src.srcWidth.toNat = size.width ∧ src.srcHeight.toNat = size.height ∧
      src.srcStrideBytes.toNat = size.width * 4 := by
  have hwidth := size.width_lt
  have hheight := size.height_lt
  refine ⟨?_, ?_, ?_⟩ <;> exact UInt32.toNat_ofNat_of_lt' (by rw [UInt32.size]; omega)

theorem readable_backdropSrc (word : ℕ → UInt32) :
    (CompositePresenter.backdropSrc size word).readable =
      some { word, size := size.width * size.height * 4 } := by
  obtain ⟨hwidth, hheight, hstride⟩ := backdropSrc_toNat size word
  have hsupported : formatSupported drmFormatXrgb8888 = true := by decide
  unfold CompositeSrc.readable
  rw [hwidth, hheight, hstride]
  simp only [CompositePresenter.backdropSrc, hsupported, Option.filter_some]
  rw [if_pos]
  simp only [le_refl, decide_true, Bool.and_true, decide_eq_true_eq, Bool.true_and]
  exact le_of_eq (by ring)

/-! ### Painting a region -/

/-- A non-empty intersection is part of the rectangle. -/
theorem intersectRect_within {x y : ℤ} {w h : ℕ} (hfits : EdgesFit x y w h) {r : DamageRect}
    (hr : r.Inside size) (hd : (intersectRect x y w h r).empty = false) :
    let d := intersectRect x y w h r
    (x ≤ d.x ∧ d.x + d.w ≤ x + w) ∧ y ≤ d.y ∧ d.y + d.h ≤ y + h := by
  obtain ⟨hinside, hhas⟩ := intersectRect_spec hfits hr
  generalize intersectRect x y w h r = d at hd hinside hhas
  obtain ⟨hdx, hdy, -, -⟩ := hinside
  simp only [DamageRect.empty, Bool.or_eq_false_iff, decide_eq_false_iff_not] at hd
  -- its first and its last pixel are in the rectangle
  have hfirst := (hhas d.x.toNat d.y.toNat).mp (by unfold DamageRect.Has; omega)
  have hlast := (hhas (d.x + d.w - 1).toNat (d.y + d.h - 1).toNat).mp
    (by unfold DamageRect.Has; omega)
  dsimp only
  omega

theorem SurfaceRef.over_of_not_covers {ref : SurfaceRef} {x y : ℕ} (h : ¬ ref.slot.Covers x y)
    (under : UInt32) : ref.over x y under = under := if_neg h

/-- The decoration has pixels in the region. -/
def SurfaceRef.Meets (ref : SurfaceRef) (region : DamageRect) : Prop :=
  ∃ s ∈ ref.surface,
    (intersectRect ref.x.toInt ref.y.toInt s.width.toNat s.height.toNat region).empty = false

instance (ref : SurfaceRef) (region : DamageRect) : Decidable (ref.Meets region) :=
  inferInstanceAs (Decidable (∃ s ∈ ref.surface, DamageRect.empty _ = false))

/-- Every decoration that has pixels in the region can be mapped for reading. -/
def MapsAll (region : DamageRect) (refs : List SurfaceRef) : Prop :=
  ∀ ref ∈ refs, ref.Meets region → ref.mapError = none

instance (region : DamageRect) (refs : List SurfaceRef) : Decidable (MapsAll region refs) :=
  inferInstanceAs (Decidable (∀ _ ∈ _, _))

section

variable {ref : SurfaceRef} {s : Surface}

theorem SurfaceRef.edgesFit (hs : ref.surface = some s) (hfits : ref.slot.Fits) :
    EdgesFit ref.x.toInt ref.y.toInt s.width.toNat s.height.toNat := by
  rw [DamageSlot.Fits, SurfaceRef.slot, hs] at hfits
  exact hfits rfl

theorem SurfaceRef.covers_iff (hs : ref.surface = some s) (x y : ℕ) :
    ref.slot.Covers x y ↔ ref.x.toInt ≤ x ∧ (x : ℤ) < ref.x.toInt + s.width.toNat ∧
      ref.y.toInt ≤ y ∧ (y : ℤ) < ref.y.toInt + s.height.toNat := by
  rw [DamageSlot.Covers, SurfaceRef.slot, hs]
  exact and_iff_right rfl

theorem SurfaceRef.meets_iff (hs : ref.surface = some s) {region : DamageRect} :
    ref.Meets region ↔
      (intersectRect ref.x.toInt ref.y.toInt s.width.toNat s.height.toNat region).empty =
        false := by
  simp [SurfaceRef.Meets, hs]

/-- A decoration without pixels in the region covers none of them. -/
theorem SurfaceRef.not_covers_of_not_meets (hfits : ref.slot.Fits) {region : DamageRect}
    (hregion : region.Inside size) (h : ¬ ref.Meets region) {x y : ℕ} (hin : region.Has x y) :
    ¬ ref.slot.Covers x y := by
  intro hcovers
  cases hs : ref.surface with
  | none =>
    rw [DamageSlot.Covers, SurfaceRef.slot, hs] at hcovers
    exact absurd hcovers.1 Bool.false_ne_true
  | some s =>
    have hempty := Bool.not_eq_false _ ▸ mt (SurfaceRef.meets_iff hs).mpr h
    have hhas := (intersectRect_spec (SurfaceRef.edgesFit hs hfits) hregion).2 x y
    exact DamageRect.not_has_of_empty hempty x y
      (hhas.mpr ⟨(SurfaceRef.covers_iff hs x y).mp hcovers, hin⟩)

/-- Nothing has pixels in an empty region. -/
theorem SurfaceRef.not_meets_of_empty (hfits : ref.slot.Fits) {region : DamageRect}
    (hregion : region.Inside size) (hempty : region.empty = true) : ¬ ref.Meets region := by
  rintro ⟨s, hs, hne⟩
  obtain ⟨hinside, hhas⟩ := intersectRect_spec (SurfaceRef.edgesFit hs (hfits)) hregion
  generalize intersectRect ref.x.toInt ref.y.toInt s.width.toNat s.height.toNat region = d at *
  -- the corner of the intersection would be in the region
  refine absurd ((hhas d.x.toNat d.y.toNat).mp ?_).2 (DamageRect.not_has_of_empty hempty _ _)
  simp only [DamageRect.empty, Bool.or_eq_false_iff, decide_eq_false_iff_not] at hne
  have hx := hinside.x
  have hy := hinside.y
  unfold DamageRect.Has
  omega

/-- A decoration's blend paints it over its part of the region. -/
theorem blendInto_ref (hs : ref.surface = some s) (hfits : ref.slot.Fits) {region d : DamageRect}
    (hregion : region.Inside size)
    (hd : intersectRect ref.x.toInt ref.y.toInt s.width.toNat s.height.toNat region = d)
    (hne : d.empty = false) (dst : Pixmap) (x y : ℕ) :
    blendInto dst size.width size.height s.src
        (CompositePresenter.canvasRect (d.x - ref.x.toInt) (d.y - ref.y.toInt) d.w d.h)
        (CompositePresenter.canvasRect d.x d.y d.w d.h) x y =
      if region.Has x y then ref.over x y (dst x y) else dst x y := by
  have hedges := SurfaceRef.edgesFit hs hfits
  obtain ⟨hinside, hhas⟩ := intersectRect_spec hedges hregion
  obtain ⟨hdx, hdy⟩ := intersectRect_within hedges hregion (hd.symm ▸ hne)
  rw [hd] at hinside hhas hdx hdy
  have hsx : d.x - ref.x.toInt + d.w ≤ s.src.srcWidth.toNat := by
    change _ ≤ (s.width.toNat : ℤ)
    omega
  have hsy : d.y - ref.y.toInt + d.h ≤ s.src.srcHeight.toNat := by
    change _ ≤ (s.height.toNat : ℤ)
    omega
  rw [blendInto_unscaled (readable_src s) hinside ⟨by omega, hsx⟩ ⟨by omega, hsy⟩ hedges.w hedges.h]
  by_cases hin : d.Has x y
  · obtain ⟨hcovers, hregionHas⟩ := (hhas x y).mp hin
    have hx : (x : ℤ) - d.x + (d.x - ref.x.toInt) = x - ref.x.toInt := by ring
    have hy : (y : ℤ) - d.y + (d.y - ref.y.toInt) = y - ref.y.toInt := by ring
    rw [if_pos hin, if_pos hregionHas, shade_src, SurfaceRef.over,
      if_pos ((SurfaceRef.covers_iff hs x y).mpr hcovers), SurfaceRef.pixelAt, hs, hx, hy]
    rfl
  · rw [if_neg hin]
    split
    · rename_i hregionHas
      exact (SurfaceRef.over_of_not_covers (fun hcovers =>
        hin ((hhas x y).mpr ⟨(SurfaceRef.covers_iff hs x y).mp hcovers, hregionHas⟩)) _).symm
    · rfl

theorem CanvasKept.blendRef {c : CompositeCanvas} (h : CanvasKept size c)
    (hs : ref.surface = some s) (hfits : ref.slot.Fits) {region d : DamageRect}
    (hregion : region.Inside size)
    (hd : intersectRect ref.x.toInt ref.y.toInt s.width.toNat s.height.toNat region = d)
    (hne : d.empty = false) :
    let c' := c.blend size s.src
      (CompositePresenter.canvasRect (d.x - ref.x.toInt) (d.y - ref.y.toInt) d.w d.h)
      (CompositePresenter.canvasRect d.x d.y d.w d.h)
    CanvasKept size c' ∧ SameScanout c c' ∧ ∀ x y, c'.shadowPixels x y =
      if region.Has x y then ref.over x y (c.shadowPixels x y) else c.shadowPixels x y := by
  have hinside := (intersectRect_spec (SurfaceRef.edgesFit hs hfits) hregion).1
  rw [hd] at hinside
  obtain ⟨hkept, hsame, hshadow⟩ := h.blend s.src
    (CompositePresenter.canvasRect (d.x - ref.x.toInt) (d.y - ref.y.toInt) d.w d.h) hinside
  refine ⟨hkept, hsame, fun x y => ?_⟩
  rw [hshadow]
  exact blendInto_ref hs hfits hregion hd hne _ x y

end

/-- What painting `refs` over `c` leads to. -/
structure PaintedOver (size : CanvasSize) (region : DamageRect) (refs : List SurfaceRef)
    (c : CompositeCanvas) (q : CompositeCanvas × Option Errc) : Prop where
  kept : CanvasKept size q.1
  same : SameScanout c q.1
  mapped : q.2 = none ↔ MapsAll region refs
  /-- Nothing outside of the region is painted, even by a loop that fails. -/
  frame : ∀ x < size.width, ∀ y < size.height, ¬ region.Has x y →
    q.1.shadowPixels x y = c.shadowPixels x y
  drawn : q.2 = none → ∀ x < size.width, ∀ y < size.height, region.Has x y →
    q.1.shadowPixels x y = blendedOver refs x y (c.shadowPixels x y)

theorem mapsAll_cons {region : DamageRect} {ref : SurfaceRef} {refs : List SurfaceRef} :
    MapsAll region (ref :: refs) ↔
      (ref.Meets region → ref.mapError = none) ∧ MapsAll region refs :=
  List.forall_mem_cons

/-- A decoration without pixels in the region is passed over. -/
theorem PaintedOver.skip {region : DamageRect} {ref : SurfaceRef} {refs : List SurfaceRef}
    {c : CompositeCanvas} {q : CompositeCanvas × Option Errc}
    (h : PaintedOver size region refs c q) (hmeets : ¬ ref.Meets region)
    (hcovers : ∀ x y, region.Has x y → ¬ ref.slot.Covers x y) :
    PaintedOver size region (ref :: refs) c q := by
  refine ⟨h.kept, h.same, ?_, h.frame, fun hnone x hx y hy hhas => ?_⟩
  · rw [h.mapped, mapsAll_cons]
    exact (and_iff_right fun hm => absurd hm hmeets).symm
  · rw [h.drawn hnone x hx y hy hhas, blendedOver, blendedOver, List.foldl_cons,
      SurfaceRef.over_of_not_covers (hcovers x y hhas)]

theorem blendSurfaces_spec {region : DamageRect} (hregion : region.Inside size)
    {refs : List SurfaceRef} (hfits : ∀ ref ∈ refs, ref.slot.Fits) {c : CompositeCanvas}
    (h : CanvasKept size c) :
    PaintedOver size region refs c (CompositePresenter.blendSurfaces size region c refs) := by
  induction refs generalizing c with
  | nil =>
    exact ⟨h, ⟨rfl, rfl⟩, iff_of_true rfl fun _ hmem => absurd hmem List.not_mem_nil,
      fun _ _ _ _ _ => rfl, fun _ _ _ _ _ _ => rfl⟩
  | cons ref refs ih =>
    obtain ⟨hfit, hrefs⟩ := List.forall_mem_cons.mp hfits
    unfold CompositePresenter.blendSurfaces
    cases hs : ref.surface with
    | none =>
      have hmeets : ¬ ref.Meets region := by simp [SurfaceRef.Meets, hs]
      exact (ih hrefs h).skip hmeets fun x y =>
        SurfaceRef.not_covers_of_not_meets hfit hregion hmeets
    | some s =>
      dsimp only
      generalize hd : intersectRect ref.x.toInt ref.y.toInt s.width.toNat s.height.toNat region = d
      cases hempty : d.empty with
      | true =>
        have hmeets : ¬ ref.Meets region := by simp [SurfaceRef.meets_iff hs, hd, hempty]
        exact (ih hrefs h).skip hmeets fun x y =>
          SurfaceRef.not_covers_of_not_meets hfit hregion hmeets
      | false =>
        have hmeets : ref.Meets region := (SurfaceRef.meets_iff hs).mpr (hd.symm ▸ hempty)
        rw [if_neg Bool.false_ne_true]
        cases hmap : ref.mapError with
        | some e =>
          refine ⟨h, ⟨rfl, rfl⟩, ?_, fun _ _ _ _ _ => rfl, fun hnone => by cases hnone⟩
          refine iff_of_false (fun hnone => by cases hnone) fun hall => ?_
          simpa [hmap] using hall ref List.mem_cons_self hmeets
        | none =>
          obtain ⟨hkept, hsame, hshadow⟩ := h.blendRef hs hfit hregion hd hempty
          obtain ⟨hkept', hsame', hmapped, hframe, hdrawn⟩ := ih hrefs hkept
          refine ⟨hkept', ⟨hsame'.outputFourcc.trans hsame.outputFourcc,
            hsame'.backIndex.trans hsame.backIndex⟩, ?_, fun x hx y hy hout => ?_,
            fun hnone x hx y hy hin => ?_⟩
          · rw [hmapped, mapsAll_cons]
            exact (and_iff_right fun _ => hmap).symm
          · rw [hframe x hx y hy hout, hshadow, if_neg hout]
          · rw [hdrawn hnone x hx y hy hin, hshadow, if_pos hin]
            rfl

theorem CanvasKept.layBackdrop {c : CompositeCanvas} (h : CanvasKept size c)
    (background : Option (ℕ → UInt32)) {region : DamageRect} (hregion : region.Inside size) :
    let c' := CompositePresenter.layBackdrop size background region c
    CanvasKept size c' ∧ SameScanout c c' ∧ ∀ x < size.width, ∀ y < size.height,
      c'.shadowPixels x y =
        if region.Has x y then backdrop size background x y else c.shadowPixels x y := by
  obtain ⟨hcleared, hsame, hclearedShadow⟩ := h.clearRect hregion
  unfold CompositePresenter.layBackdrop
  cases background with
  | none => exact ⟨hcleared, hsame, fun x _ y _ => hclearedShadow x y⟩
  | some word =>
    obtain ⟨hkept, hsame', hshadow⟩ := hcleared.blend (CompositePresenter.backdropSrc size word)
      (CompositePresenter.canvasRect region.x region.y region.w region.h) hregion
    refine ⟨hkept, ⟨hsame'.outputFourcc.trans hsame.outputFourcc,
      hsame'.backIndex.trans hsame.backIndex⟩, fun x hx y hy => ?_⟩
    obtain ⟨hwidth, hheight, hstride⟩ := backdropSrc_toNat size word
    have hcanvasWidth := size.width_lt
    have hcanvasHeight := size.height_lt
    have hwlt := hregion.w
    have hhlt := hregion.h
    rw [hshadow, blendInto_unscaled (readable_backdropSrc word) hregion
      ⟨hregion.x, by omega⟩ ⟨hregion.y, by omega⟩ (by omega) (by omega)]
    by_cases hin : region.Has x y
    · have hx' : (x : ℤ) - region.x + region.x = x := by ring
      have hy' : (y : ℤ) - region.y + region.y = y := by ring
      rw [if_pos hin, if_pos hin, shade_backdropSrc, hstride, hx', hy', Int.toNat_natCast,
        Int.toNat_natCast, Nat.mul_div_cancel _ (by decide : 0 < 4)]
      rfl
    · rw [if_neg hin, if_neg hin, hclearedShadow, if_neg hin]

/-- The region composes anew; everything else stays. -/
theorem paintRegion_spec {p : CompositePresenter} (h : CanvasKept size p.canvas)
    {region : DamageRect} (hregion : region.Inside size) {refs : List SurfaceRef}
    (hfits : ∀ ref ∈ refs, ref.slot.Fits) :
    let q := p.paintRegion size region refs
    CanvasKept size q.1 ∧ q.1.outputFourcc = p.canvas.outputFourcc ∧
      (q.2 = none ↔ MapsAll region refs) ∧
      (∀ x < size.width, ∀ y < size.height, ¬ region.Has x y →
        q.1.shadowPixels x y = p.canvas.shadowPixels x y) ∧
      (q.2 = none → ∀ x < size.width, ∀ y < size.height, region.Has x y →
        q.1.shadowPixels x y = composition size p.background refs x y) := by
  obtain ⟨hbegun, hshadow⟩ := h.beginFrame
  unfold CompositePresenter.paintRegion
  cases hempty : region.empty with
  | true =>
    have hnot := DamageRect.not_has_of_empty hempty
    refine ⟨hbegun, rfl, iff_of_true rfl fun ref href hmeets => ?_, fun x _ y _ _ => ?_,
      fun _ x _ y _ hhas => absurd hhas (hnot x y)⟩
    · exact absurd hmeets (SurfaceRef.not_meets_of_empty (hfits ref href) hregion hempty)
    · exact congrFun (congrFun hshadow x) y
  | false =>
    rw [if_neg Bool.false_ne_true]
    obtain ⟨hlaid, hlaidSame, hlaidShadow⟩ := hbegun.layBackdrop p.background hregion
    obtain ⟨hkept, hsame, hmapped, hframe, hdrawn⟩ := blendSurfaces_spec hregion hfits hlaid
    refine ⟨hkept, hsame.outputFourcc.trans hlaidSame.outputFourcc, hmapped,
      fun x hx y hy hout => ?_, fun hnone x hx y hy hin => ?_⟩
    · rw [hframe x hx y hy hout, hlaidShadow x hx y hy, if_neg hout, hshadow]
    · rw [hdrawn hnone x hx y hy hin, hlaidShadow x hx y hy, if_pos hin]
      rfl

end DrmCxx.Csd
