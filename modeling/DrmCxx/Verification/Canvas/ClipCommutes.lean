import DrmCxx.Verification.Canvas.Bounds

/-!
# Clipping a blend

A blend that the canvas cuts off should paint what the whole blend would, on the pixels that are
left. `clip_axis` cuts the destination without cutting the source, so it does exactly where the
nearest-neighbour indices of the cut and of the whole destination happen to be the same.
-/

namespace DrmCxx.Scene.CompositeCanvas

/-- The source with other pixels. -/
def CompositeSrc.withWords (src : CompositeSrc) (word : ℕ → UInt32) : CompositeSrc :=
  { src with pixels := src.pixels.map fun p => { p with word := word } }

/-- The pixel lies in the rectangle. -/
def CompositeRect.Covers (r : CompositeRect) (x y : ℕ) : Prop :=
  (r.x.toInt ≤ x ∧ (x : ℤ) < r.x.toInt + r.w.toNat) ∧
    (r.y.toInt ≤ y ∧ (y : ℤ) < r.y.toInt + r.h.toNat)

/-- `whole` is the rectangle moved to where all of it fits a canvas of `width` by `height`. -/
structure Fits (r whole : CompositeRect) (width height : ℕ) : Prop where
  size : whole.w = r.w ∧ whole.h = r.h
  start : 0 ≤ whole.x.toInt ∧ 0 ≤ whole.y.toInt
  stop : whole.x.toInt + whole.w.toNat ≤ width ∧ whole.y.toInt + whole.h.toNat ≤ height
  width_lt : width < 2 ^ 31
  height_lt : height < 2 ^ 31

/-- The canvas moved along with the rectangle. -/
def moved (dst : Pixmap) (r whole : CompositeRect) : Pixmap := fun x y =>
  dst (x - whole.x.toInt + r.x.toInt).toNat (y - whole.y.toInt + r.y.toInt).toNat

/-- Whatever the canvas and the source show, the pixels of the rectangle that are on the canvas get
what they would get on a canvas with room for all of it, and no other pixel is touched. -/
def ClipCommutes (src : CompositeSrc) (width height : ℕ) (srcRect dstRect : CompositeRect) : Prop :=
  ∀ (word : ℕ → UInt32) (dst : Pixmap) (x y : ℕ),
    (x < width → y < height → dstRect.Covers x y →
      ∀ whole roomyWidth roomyHeight, Fits dstRect whole roomyWidth roomyHeight →
        blendInto dst width height (src.withWords word) srcRect dstRect x y =
          blendInto (moved dst dstRect whole) roomyWidth roomyHeight (src.withWords word) srcRect
            whole (x - dstRect.x.toInt + whole.x.toInt).toNat
            (y - dstRect.y.toInt + whole.y.toInt).toNat) ∧
      (¬ (x < width ∧ y < height ∧ dstRect.Covers x y) →
        blendInto dst width height (src.withWords word) srcRect dstRect x y = dst x y)

/-- The source word the loops sample for a pixel. -/
def sampledWord (src : CompositeSrc) (xr yr : AxisRange) (x y : ℕ) : ℕ :=
  let noScale : Bool :=
    xr.srcSpan = xr.dstEnd - xr.dstStart ∧ yr.srcSpan = yr.dstEnd - yr.dstStart
  sampleIndex noScale yr y * (src.srcStrideBytes.toNat / 4) + sampleIndex noScale xr x

/-- The axis with none of its destination cut off, counted from its start. -/
def AxisRange.whole (r : AxisRange) (size : ℕ) : AxisRange :=
  { r with dstStart := 0, dstEnd := size }

/-- Every visible pixel samples the word it would sample if nothing were cut off. -/
def SamplesAgree (src : CompositeSrc) (dstRect : CompositeRect) (xr yr : AxisRange) : Prop :=
  ∀ x y, xr.dstStart ≤ x → x < xr.dstEnd → yr.dstStart ≤ y → y < yr.dstEnd →
    sampledWord src xr yr x y =
      sampledWord src (xr.whole dstRect.w.toNat) (yr.whole dstRect.h.toNat)
        (x - dstRect.x.toInt).toNat (y - dstRect.y.toInt).toNat

/-! ### Both axes -/

theorem blendRange_apply (dst : Pixmap) (src : CompositeSrc) (pixels : PixelSpan)
    (xr yr : AxisRange) (x y : ℕ) :
    blendRange dst src pixels xr yr x y =
      if xr.dstStart ≤ x ∧ x < xr.dstEnd ∧ yr.dstStart ≤ y ∧ y < yr.dstEnd then
        src.shade (pixels.word (sampledWord src xr yr x y)) (dst x y)
      else dst x y := rfl

theorem readable_withWords (src : CompositeSrc) (word : ℕ → UInt32) :
    (src.withWords word).readable = src.readable.map fun p => { p with word := word } := by
  unfold CompositeSrc.readable CompositeSrc.withWords
  cases src.pixels with
  | none => rfl
  | some p =>
    simp only [Option.map_some, Option.filter_some]
    split <;> rfl

theorem blendAxes_eq_some {width height : ℕ} {src : CompositeSrc} {srcRect dstRect : CompositeRect}
    {xr yr : AxisRange} :
    blendAxes width height src srcRect dstRect = some (xr, yr) ↔
      clipAxis dstRect.x.toInt dstRect.w.toNat width srcRect.x.toInt srcRect.w.toNat
          src.srcWidth.toNat = some xr ∧
        clipAxis dstRect.y.toInt dstRect.h.toNat height srcRect.y.toInt srcRect.h.toNat
          src.srcHeight.toNat = some yr := by
  refine ⟨clipAxis_of_blendAxes, ?_⟩
  rintro ⟨hx, hy⟩
  simp [blendAxes, hx, hy]

/-- An axis is clipped to nothing, or to the part of its destination that is visible; the source
side does not depend on the destination. -/
theorem clipAxis_eq {dstPos srcPos : ℤ} {dstSize dstExtent srcSize srcExtent : ℕ}
    (hlo : -2 ^ 31 < dstPos) (hhi : dstPos < 2 ^ 31) (hext : dstExtent < 2 ^ 31) :
    clipAxis dstPos dstSize dstExtent srcPos srcSize srcExtent =
      if srcSize = 0 ∨ min (dstSize - (-dstPos).toNat) (dstExtent - dstPos.toNat) = 0 then none
      else (clipSide srcPos srcSize srcExtent).map fun side =>
        { dstStart := dstPos.toNat
          dstEnd := dstPos.toNat + min (dstSize - (-dstPos).toNat) (dstExtent - dstPos.toNat)
          srcStart := side.1
          srcSpan := side.2 } := by
  unfold clipAxis
  rw [clipSide_eq hlo hhi hext]
  by_cases hsrc : srcSize = 0
  · rw [if_pos (.inr hsrc), if_pos (.inl hsrc)]
  by_cases hvis : min (dstSize - (-dstPos).toNat) (dstExtent - dstPos.toNat) = 0
  · simp only [hvis, or_true, if_true]
    split
    · rfl
    · cases clipSide srcPos srcSize srcExtent <;> rfl
  · rw [if_neg (not_or.mpr ⟨by omega, hsrc⟩), if_neg (not_or.mpr ⟨hsrc, hvis⟩), if_neg hvis]
    have hend : u32 ((dstPos.toNat : ℤ) +
        (min (dstSize - (-dstPos).toNat) (dstExtent - dstPos.toNat) : ℕ)) =
          dstPos.toNat + min (dstSize - (-dstPos).toNat) (dstExtent - dstPos.toNat) := by
      rw [u32_of_fits (by omega) (by omega)]
      omega
    cases clipSide srcPos srcSize srcExtent with
    | none => rfl
    | some side => simp only [hend, Option.map_some]

variable {src : CompositeSrc} {width height : ℕ} {srcRect dstRect : CompositeRect}
  {xr yr : AxisRange}

/-- The visible part of a clipped axis. -/
theorem mem_clipAxis_iff {dstPos srcPos : ℤ} {dstSize dstExtent srcSize srcExtent p : ℕ}
    {r : AxisRange} (hlo : -2 ^ 31 < dstPos) (hhi : dstPos < 2 ^ 31) (hext : dstExtent < 2 ^ 31)
    (h : clipAxis dstPos dstSize dstExtent srcPos srcSize srcExtent = some r) :
    (r.dstStart ≤ p ∧ p < r.dstEnd) ↔
      p < dstExtent ∧ dstPos ≤ p ∧ (p : ℤ) < dstPos + dstSize := by
  rw [clipAxis_eq hlo hhi hext] at h
  split at h
  · cases h
  · obtain ⟨side, -, rfl⟩ := Option.map_eq_some_iff.mp h
    dsimp only
    omega

/-- Whether an axis is kept depends on its source alone, once a destination pixel is visible. -/
theorem exists_clipAxis {dstPos dstPos' srcPos : ℤ}
    {dstSize dstSize' dstExtent dstExtent' srcSize srcExtent p : ℕ} {r : AxisRange}
    (h : clipAxis dstPos dstSize dstExtent srcPos srcSize srcExtent = some r)
    (hlo : -2 ^ 31 < dstPos') (hhi : dstPos' < 2 ^ 31) (hext : dstExtent' < 2 ^ 31)
    (hp : p < dstExtent' ∧ dstPos' ≤ p ∧ (p : ℤ) < dstPos' + dstSize') :
    ∃ r', clipAxis dstPos' dstSize' dstExtent' srcPos srcSize srcExtent = some r' := by
  obtain ⟨-, -, hs, -⟩ := clipAxis_sides h
  have hsrc : srcSize ≠ 0 := by
    rintro rfl
    simp [clipAxis] at h
  rw [clipAxis_eq hlo hhi hext, if_neg (not_or.mpr ⟨hsrc, by omega⟩), hs]
  exact ⟨_, rfl⟩

/-- A destination with room is not cut. -/
theorem clipAxis_roomy {dstPos srcPos : ℤ} {dstSize dstExtent srcSize srcExtent : ℕ}
    {r : AxisRange} (h0 : 0 ≤ dstPos) (hstop : dstPos + dstSize ≤ dstExtent)
    (hext : dstExtent < 2 ^ 31)
    (h : clipAxis dstPos dstSize dstExtent srcPos srcSize srcExtent = some r) :
    r.dstStart = dstPos.toNat ∧ r.dstEnd = dstPos.toNat + dstSize := by
  rw [clipAxis_eq (by omega) (by omega) hext] at h
  split at h
  · cases h
  · obtain ⟨side, -, rfl⟩ := Option.map_eq_some_iff.mp h
    dsimp only
    omega

/-- The source side of an axis is the same for every destination. -/
theorem srcSide_eq {dstPos dstPos' srcPos : ℤ} {dstSize dstSize' dstExtent dstExtent' srcSize
    srcExtent : ℕ} {r r' : AxisRange}
    (h : clipAxis dstPos dstSize dstExtent srcPos srcSize srcExtent = some r)
    (h' : clipAxis dstPos' dstSize' dstExtent' srcPos srcSize srcExtent = some r') :
    r'.srcStart = r.srcStart ∧ r'.srcSpan = r.srcSpan := by
  obtain ⟨-, -, hs, -⟩ := clipAxis_sides h
  obtain ⟨-, -, hs', -⟩ := clipAxis_sides h'
  have heq := Option.some.inj (hs'.symm.trans hs)
  exact ⟨congrArg Prod.fst heq, congrArg Prod.snd heq⟩

/-! ### The whole blend -/

theorem blendInto_of_axes {pixels : PixelSpan} (dst : Pixmap) (hp : src.readable = some pixels)
    (h : blendAxes width height src srcRect dstRect = some (xr, yr)) :
    blendInto dst width height src srcRect dstRect = blendRange dst src pixels xr yr := by
  simp [blendInto, hp, h]

theorem blendInto_of_axes_none (dst : Pixmap)
    (h : blendAxes width height src srcRect dstRect = none) :
    blendInto dst width height src srcRect dstRect = dst := by
  unfold blendInto
  rw [h]
  cases src.readable <;> rfl

/-- The word sampled depends on the sources, the lengths and the offsets only. -/
theorem sampledWord_congr {xr' yr' : AxisRange} {x y x' y' : ℕ}
    (hx : xr'.srcStart = xr.srcStart ∧ xr'.srcSpan = xr.srcSpan)
    (hy : yr'.srcStart = yr.srcStart ∧ yr'.srcSpan = yr.srcSpan)
    (hxl : xr'.dstEnd - xr'.dstStart = xr.dstEnd - xr.dstStart)
    (hyl : yr'.dstEnd - yr'.dstStart = yr.dstEnd - yr.dstStart)
    (hxd : x' - xr'.dstStart = x - xr.dstStart) (hyd : y' - yr'.dstStart = y - yr.dstStart) :
    sampledWord src xr' yr' x' y' = sampledWord src xr yr x y := by
  unfold sampledWord sampleIndex
  rw [hx.1, hx.2, hy.1, hy.2, hxl, hyl, hxd, hyd]

theorem moved_apply {whole : CompositeRect} {x y : ℕ} {dst : Pixmap}
    (hstart : 0 ≤ whole.x.toInt ∧ 0 ≤ whole.y.toInt) (hxy : dstRect.Covers x y) :
    moved dst dstRect whole (x - dstRect.x.toInt + whole.x.toInt).toNat
      (y - dstRect.y.toInt + whole.y.toInt).toNat = dst x y := by
  obtain ⟨⟨hx, -⟩, hy, -⟩ := hxy
  unfold moved
  congr 1 <;> omega

/-- On a canvas with room, a covered pixel is shaded with the word the whole axes sample. -/
theorem roomy_apply {pixels : PixelSpan} {whole : CompositeRect} {roomyWidth roomyHeight x y : ℕ}
    (hp : src.readable = some pixels)
    (haxes : blendAxes width height src srcRect dstRect = some (xr, yr))
    (hfits : Fits dstRect whole roomyWidth roomyHeight) (hxy : dstRect.Covers x y) (dst : Pixmap) :
    blendInto (moved dst dstRect whole) roomyWidth roomyHeight src srcRect whole
        (x - dstRect.x.toInt + whole.x.toInt).toNat (y - dstRect.y.toInt + whole.y.toInt).toNat =
      src.shade (pixels.word (sampledWord src (xr.whole dstRect.w.toNat) (yr.whole dstRect.h.toNat)
        (x - dstRect.x.toInt).toNat (y - dstRect.y.toInt).toNat)) (dst x y) := by
  obtain ⟨⟨hw, hh⟩, ⟨hx0, hy0⟩, ⟨hxs, hys⟩, hwlt, hhlt⟩ := hfits
  obtain ⟨⟨hxlo, hxhi⟩, hylo, hyhi⟩ := hxy
  obtain ⟨hxr, hyr⟩ := blendAxes_eq_some.mp haxes
  have hw' : whole.w.toNat = dstRect.w.toNat := congrArg UInt32.toNat hw
  have hh' : whole.h.toNat = dstRect.h.toNat := congrArg UInt32.toNat hh
  have hxp : (x - dstRect.x.toInt + whole.x.toInt).toNat < roomyWidth ∧
      whole.x.toInt ≤ (x - dstRect.x.toInt + whole.x.toInt).toNat ∧
      ((x - dstRect.x.toInt + whole.x.toInt).toNat : ℤ) < whole.x.toInt + whole.w.toNat := by omega
  have hyp : (y - dstRect.y.toInt + whole.y.toInt).toNat < roomyHeight ∧
      whole.y.toInt ≤ (y - dstRect.y.toInt + whole.y.toInt).toNat ∧
      ((y - dstRect.y.toInt + whole.y.toInt).toNat : ℤ) < whole.y.toInt + whole.h.toNat := by omega
  obtain ⟨xr', hxr'⟩ := exists_clipAxis hxr (by omega) whole.x.toInt_lt hwlt hxp
  obtain ⟨yr', hyr'⟩ := exists_clipAxis hyr (by omega) whole.y.toInt_lt hhlt hyp
  obtain ⟨hxstart, hxend⟩ := clipAxis_roomy hx0 hxs hwlt hxr'
  obtain ⟨hystart, hyend⟩ := clipAxis_roomy hy0 hys hhlt hyr'
  rw [blendInto_of_axes _ hp (blendAxes_eq_some.mpr ⟨hxr', hyr'⟩), blendRange_apply,
    if_pos (by omega)]
  rw [moved_apply ⟨hx0, hy0⟩ ⟨⟨hxlo, hxhi⟩, hylo, hyhi⟩]
  congr 2
  have hxsrc := srcSide_eq hxr hxr'
  have hysrc := srcSide_eq hyr hyr'
  refine sampledWord_congr hxsrc hysrc ?_ ?_ ?_ ?_
  · simp only [AxisRange.whole]
    omega
  · simp only [AxisRange.whole]
    omega
  · simp only [AxisRange.whole]
    omega
  · simp only [AxisRange.whole]
    omega

theorem shade_withWords (word : ℕ → UInt32) : (src.withWords word).shade = src.shade := rfl

theorem sampledWord_withWords (word : ℕ → UInt32) :
    sampledWord (src.withWords word) = sampledWord src := rfl

theorem readable_withWords_some {pixels : PixelSpan} (word : ℕ → UInt32)
    (hp : src.readable = some pixels) :
    (src.withWords word).readable = some { pixels with word := word } := by
  rw [readable_withWords, hp]
  rfl

/-- A kept axis of a wrapped destination starts off the canvas. -/
theorem exists_offCanvas {dstPos srcPos : Int32} {dstSize srcSize srcExtent : UInt32}
    {dstExtent : ℕ} {r : AxisRange}
    (h : clipAxis dstPos.toInt dstSize.toNat dstExtent srcPos.toInt srcSize.toNat
      srcExtent.toNat = some r) (hsize : dstSize.toNat < 2 ^ 31) (hext : dstExtent < 2 ^ 31) :
    r.dstStart < r.dstEnd ∧ (dstPos.toInt = -2 ^ 31 → dstExtent ≤ r.dstStart) := by
  obtain ⟨visible, hdst, -, hend⟩ := clipAxis_sides h
  have hspec := clipSide_spec dstPos.le_toInt dstPos.toInt_lt dstSize.toNat_lt (by omega) hdst
  have hpos := hspec.visible_pos
  have hle := hspec.visible_le
  by_cases hok : SideOk dstPos.toInt dstExtent
  · have hinside := hspec.inside hok
    rw [hend, u32_of_fits (by omega) (by omega)]
    exact ⟨by omega, fun h => absurd (hok.resolve_left (not_not.mpr h)) (by omega)⟩
  · have hstart := (hspec.wrapped hok).1
    rw [hend, u32_of_fits (by omega) (by omega)]
    exact ⟨by omega, fun _ => by omega⟩

theorem clippable_of_commutes {pixels : PixelSpan} (hp : src.readable = some pixels)
    (haxes : blendAxes width height src srcRect dstRect = some (xr, yr))
    (hw : dstRect.w.toNat < 2 ^ 31) (hh : dstRect.h.toNat < 2 ^ 31) (hwidth : width < 2 ^ 31)
    (hheight : height < 2 ^ 31) (hcommutes : ClipCommutes src width height srcRect dstRect)
    {s u : UInt32} (hsu : src.shade s u ≠ u) : dstRect.Clippable := by
  obtain ⟨hxr, hyr⟩ := blendAxes_eq_some.mp haxes
  obtain ⟨hxlt, hxoff⟩ := exists_offCanvas hxr hw hwidth
  obtain ⟨hylt, hyoff⟩ := exists_offCanvas hyr hh hheight
  have hx := dstRect.x.le_toInt
  have hy := dstRect.y.le_toInt
  by_contra hbad
  have hout : ¬ (xr.dstStart < width ∧ yr.dstStart < height ∧
      dstRect.Covers xr.dstStart yr.dstStart) := by
    rintro ⟨hxin, hyin, -⟩
    refine hbad ⟨lt_of_le_of_ne hx fun h => ?_, lt_of_le_of_ne hy fun h => ?_⟩
    · exact absurd (hxoff h.symm) (by omega)
    · exact absurd (hyoff h.symm) (by omega)
  have hkept := (hcommutes (fun _ => s) (fun _ _ => u) xr.dstStart yr.dstStart).2 hout
  rw [blendInto_of_axes _ (readable_withWords_some _ hp) haxes, blendRange_apply,
    if_pos ⟨Nat.le_refl _, hxlt, Nat.le_refl _, hylt⟩] at hkept
  exact hsu hkept

/-- The rectangle at the origin of a canvas of its own size. -/
theorem fits_own (hw : dstRect.w.toNat < 2 ^ 31) (hh : dstRect.h.toNat < 2 ^ 31) :
    Fits dstRect ⟨0, 0, dstRect.w, dstRect.h⟩ dstRect.w.toNat dstRect.h.toNat :=
  ⟨⟨rfl, rfl⟩, by simp, by simp, hw, hh⟩

theorem covers_iff (hclip : dstRect.Clippable) (hwidth : width < 2 ^ 31) (hheight : height < 2 ^ 31)
    (haxes : blendAxes width height src srcRect dstRect = some (xr, yr)) {x y : ℕ} :
    (xr.dstStart ≤ x ∧ x < xr.dstEnd ∧ yr.dstStart ≤ y ∧ y < yr.dstEnd) ↔
      x < width ∧ y < height ∧ dstRect.Covers x y := by
  obtain ⟨hxr, hyr⟩ := blendAxes_eq_some.mp haxes
  have hx := mem_clipAxis_iff (p := x) hclip.1 dstRect.x.toInt_lt hwidth hxr
  have hy := mem_clipAxis_iff (p := y) hclip.2 dstRect.y.toInt_lt hheight hyr
  unfold CompositeRect.Covers
  rw [← and_assoc, hx, hy]
  constructor
  · rintro ⟨⟨hxw, hxl, hxr⟩, hyh, hyl, hyr⟩
    exact ⟨hxw, hyh, ⟨hxl, hxr⟩, hyl, hyr⟩
  · rintro ⟨hxw, hyh, ⟨hxl, hxr⟩, hyl, hyr⟩
    exact ⟨⟨hxw, hxl, hxr⟩, hyh, hyl, hyr⟩

theorem samplesAgree_of_commutes {pixels : PixelSpan} (hp : src.readable = some pixels)
    (haxes : blendAxes width height src srcRect dstRect = some (xr, yr))
    (hclip : dstRect.Clippable) (hw : dstRect.w.toNat < 2 ^ 31) (hh : dstRect.h.toNat < 2 ^ 31)
    (hwidth : width < 2 ^ 31) (hheight : height < 2 ^ 31)
    (hcommutes : ClipCommutes src width height srcRect dstRect)
    {s s' u : UInt32} (hsee : src.shade s u ≠ src.shade s' u) :
    SamplesAgree src dstRect xr yr := by
  intro x y hxs hxe hys hye
  by_contra hdiff
  obtain ⟨hxw, hyh, hcovers⟩ := (covers_iff hclip hwidth hheight haxes).mp ⟨hxs, hxe, hys, hye⟩
  -- a source that is `s` at the one word and `s'` at the others
  have hpaint := (hcommutes (Function.update (fun _ => s') (sampledWord src xr yr x y) s)
    (fun _ _ => u) x y).1 hxw hyh hcovers _ _ _ (fits_own hw hh)
  rw [roomy_apply (readable_withWords_some _ hp) haxes (fits_own hw hh) hcovers,
    blendInto_of_axes _ (readable_withWords_some _ hp) haxes, blendRange_apply,
    if_pos ⟨hxs, hxe, hys, hye⟩] at hpaint
  rw [shade_withWords, sampledWord_withWords] at hpaint
  dsimp only at hpaint
  rw [Function.update_self, Function.update_of_ne (Ne.symm hdiff)] at hpaint
  exact hsee hpaint

/-- The blend changes no pixel, whatever the source shows. -/
def Invisible (src : CompositeSrc) : Prop := ∀ s u, src.shade s u = u

/-- The blend paints the same whatever the source shows. -/
def Uniform (src : CompositeSrc) : Prop := ∀ s s' u, src.shade s u = src.shade s' u

theorem commutes_of_samples {pixels : PixelSpan} (hp : src.readable = some pixels)
    (haxes : blendAxes width height src srcRect dstRect = some (xr, yr))
    (hclip : dstRect.Clippable) (hwidth : width < 2 ^ 31) (hheight : height < 2 ^ 31)
    (hsamples : Uniform src ∨ SamplesAgree src dstRect xr yr) :
    ClipCommutes src width height srcRect dstRect := by
  intro word dst x y
  have hp' := readable_withWords_some word hp
  have hvisible := covers_iff hclip hwidth hheight haxes (x := x) (y := y)
  rw [blendInto_of_axes _ hp' haxes, blendRange_apply, shade_withWords, sampledWord_withWords]
  constructor
  · intro hx hy hcovers whole roomyWidth roomyHeight hfits
    have hin := hvisible.mpr ⟨hx, hy, hcovers⟩
    rw [if_pos hin, roomy_apply hp' haxes hfits hcovers, shade_withWords, sampledWord_withWords]
    rcases hsamples with huniform | hagree
    · exact huniform _ _ _
    · rw [hagree x y hin.1 hin.2.1 hin.2.2.1 hin.2.2.2]
  · intro hout
    exact if_neg fun hin => hout (hvisible.mp hin)

theorem blendInto_of_invisible (hinv : Invisible src) (dst : Pixmap) :
    blendInto dst width height src srcRect dstRect = dst := by
  unfold blendInto
  split
  · funext x y
    rw [blendRange_apply]
    split
    · exact hinv _ _
    · rfl
  · rfl

theorem commutes_of_invisible (hinv : Invisible src) :
    ClipCommutes src width height srcRect dstRect := by
  intro word dst x y
  have hinv' : Invisible (src.withWords word) := hinv
  refine ⟨fun _ _ hcovers whole _ _ hfits => ?_, fun _ => ?_⟩
  · rw [blendInto_of_invisible hinv', blendInto_of_invisible hinv', moved_apply hfits.start hcovers]
  · rw [blendInto_of_invisible hinv']

theorem blendInto_of_unreadable (hp : src.readable = none) (dst : Pixmap) :
    blendInto dst width height src srcRect dstRect = dst := by
  simp [blendInto, hp]

theorem clippable_of_covers {x y : ℕ} (hw : dstRect.w.toNat < 2 ^ 31)
    (hh : dstRect.h.toNat < 2 ^ 31) (hxy : dstRect.Covers x y) : dstRect.Clippable := by
  obtain ⟨⟨-, hx⟩, -, hy⟩ := hxy
  constructor <;> omega

/-- Where nothing of the cut rectangle is kept, a visible pixel sees nothing of the whole either. -/
theorem commutes_of_axes_none (hw : dstRect.w.toNat < 2 ^ 31) (hh : dstRect.h.toNat < 2 ^ 31)
    (hwidth : width < 2 ^ 31) (hheight : height < 2 ^ 31)
    (hnone : blendAxes width height src srcRect dstRect = none) :
    ClipCommutes src width height srcRect dstRect := by
  intro word dst x y
  have hcut : blendInto dst width height (src.withWords word) srcRect dstRect = dst :=
    blendInto_of_axes_none dst hnone
  rw [hcut]
  refine ⟨fun hx hy hcovers whole roomyWidth roomyHeight hfits => ?_, fun _ => rfl⟩
  have hclip := clippable_of_covers hw hh hcovers
  have hwhole : blendAxes roomyWidth roomyHeight src srcRect whole = none := by
    cases hsome : blendAxes roomyWidth roomyHeight src srcRect whole with
    | none => rfl
    | some axes =>
      obtain ⟨hxr, hyr⟩ := blendAxes_eq_some.mp hsome
      obtain ⟨xr', hxr'⟩ := exists_clipAxis hxr hclip.1 dstRect.x.toInt_lt hwidth
        ⟨hx, hcovers.1⟩
      obtain ⟨yr', hyr'⟩ := exists_clipAxis hyr hclip.2 dstRect.y.toInt_lt hheight
        ⟨hy, hcovers.2⟩
      rw [blendAxes_eq_some.mpr ⟨hxr', hyr'⟩] at hnone
      cases hnone
  have hroomy : blendInto (moved dst dstRect whole) roomyWidth roomyHeight (src.withWords word)
      srcRect whole = moved dst dstRect whole := blendInto_of_axes_none _ hwhole
  rw [hroomy, moved_apply hfits.start hcovers]

/-- Clipping commutes with the blend exactly when nothing is drawn, nothing can be told apart, or
every pixel left on the canvas samples the source as the whole rectangle would. -/
theorem clipCommutes_iff_samples (hw : dstRect.w.toNat < 2 ^ 31) (hh : dstRect.h.toNat < 2 ^ 31)
    (hwidth : width < 2 ^ 31) (hheight : height < 2 ^ 31) :
    ClipCommutes src width height srcRect dstRect ↔
      ∀ pixels ∈ src.readable, ∀ xr yr,
        blendAxes width height src srcRect dstRect = some (xr, yr) →
          Invisible src ∨ dstRect.Clippable ∧ (Uniform src ∨ SamplesAgree src dstRect xr yr) := by
  constructor
  · intro hcommutes pixels hp xr yr haxes
    refine or_iff_not_imp_left.mpr fun hvisible => ?_
    obtain ⟨s, u, hsu⟩ : ∃ s u, src.shade s u ≠ u := by simpa [Invisible] using hvisible
    have hclip := clippable_of_commutes hp haxes hw hh hwidth hheight hcommutes hsu
    refine ⟨hclip, or_iff_not_imp_left.mpr fun huniform => ?_⟩
    obtain ⟨s, s', u, hsee⟩ : ∃ s s' u, src.shade s u ≠ src.shade s' u := by
      simpa [Uniform] using huniform
    exact samplesAgree_of_commutes hp haxes hclip hw hh hwidth hheight hcommutes hsee
  · intro h
    cases hp : src.readable with
    | none =>
      intro word dst x y
      have hp' : (src.withWords word).readable = none := by rw [readable_withWords, hp]; rfl
      refine ⟨fun _ _ hcovers whole _ _ hfits => ?_, fun _ => ?_⟩
      · rw [blendInto_of_unreadable hp', blendInto_of_unreadable hp',
          moved_apply hfits.start hcovers]
      · rw [blendInto_of_unreadable hp']
    | some pixels =>
      cases haxes : blendAxes width height src srcRect dstRect with
      | none => exact commutes_of_axes_none hw hh hwidth hheight haxes
      | some axes =>
        rcases h pixels hp axes.1 axes.2 haxes with hinv | ⟨hclip, hsamples⟩
        · exact commutes_of_invisible hinv
        · exact commutes_of_samples hp haxes hclip hwidth hheight hsamples

/-- Four different pixels in a row. -/
def strip : CompositeSrc where
  pixels := some { word := fun i => 0xFF000000 ||| i.toUInt32, size := 16 }
  srcStrideBytes := 16
  srcWidth := 4
  srcHeight := 1
  drmFourcc := drmFormatArgb8888

end DrmCxx.Scene.CompositeCanvas
