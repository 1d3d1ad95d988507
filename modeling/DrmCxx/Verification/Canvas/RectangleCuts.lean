import DrmCxx.Lib.Resampling
import DrmCxx.Verification.Canvas.ClipCommutes

/-!
# Rectangles whose cut moves nothing

When the pixels left on the canvas sample the source as the whole rectangle would is a matter of
four lengths on each axis: what is cut off before and after, what is left, and how much of the
source the crop has. Only cuts that move no cell are harmless; they are few.
-/

namespace DrmCxx.Scene.CompositeCanvas

open Lib (Cut)

/-! ### The lengths of an axis -/

/-- Nothing of the side is painted; at `INT32_MIN` something is, though nothing is visible. -/
def SideEmpty (pos : ℤ) (size extent : ℕ) : Prop :=
  size = 0 ∨ pos ≠ -2 ^ 31 ∧ visibleLen pos size extent = 0

/-- How the canvas cuts the destination of an axis, and how much of its source there is. -/
def axisCut (dstPos : ℤ) (dstSize dstExtent : ℕ) (srcPos : ℤ) (srcSize srcExtent : ℕ) : Cut where
  before := (-dstPos).toNat
  kept := visibleLen dstPos dstSize dstExtent
  after := dstSize - (-dstPos).toNat - visibleLen dstPos dstSize dstExtent
  span := visibleLen srcPos srcSize srcExtent

/-- The index products of the whole row fit 32 bits, as far as the row is visible. -/
def ProductsFit (q : Cut) : Prop := (q.before + (q.kept - 1)) * q.span < 2 ^ 32

/-- The rectangle lies on the canvas. -/
def OnCanvas (r : CompositeRect) (width height : ℕ) : Prop :=
  (0 ≤ r.x.toInt ∧ r.x.toInt + r.w.toNat ≤ width) ∧ 0 ≤ r.y.toInt ∧ r.y.toInt + r.h.toNat ≤ height

section Axis

variable {dstPos srcPos : ℤ} {dstSize dstExtent srcSize srcExtent : ℕ} {r : AxisRange}

theorem clipSide_eq_none_iff {pos : ℤ} {size extent : ℕ} (hlo : -2 ^ 31 ≤ pos) (hhi : pos < 2 ^ 31)
    (hext : extent < 2 ^ 31) : clipSide pos size extent = none ↔ SideEmpty pos size extent := by
  unfold SideEmpty visibleLen
  by_cases hpos : pos = -2 ^ 31
  · subst hpos
    have hi32 : i32 extent = extent := i32_of_fits (by omega) (by omega)
    have hu32 : u32 (extent + 2 ^ 31) = extent + 2 ^ 31 := by
      rw [u32_of_fits (by omega) (by omega)]
      omega
    rw [clipSide_wrapped, hi32, hu32]
    split_ifs with hkept
    · simp only [true_iff]
      omega
    · simp only [false_iff]
      omega
  · rw [clipSide_eq (by omega) hhi hext]
    split_ifs with hkept
    · simp only [true_iff]
      exact .inr ⟨hpos, hkept⟩
    · simp only [false_iff]
      omega

variable (dstSize srcSize) in
/-- An axis is clipped to nothing if its source or its destination is. -/
theorem clipAxis_eq_none_iff (hdlo : -2 ^ 31 ≤ dstPos) (hdhi : dstPos < 2 ^ 31)
    (hdext : dstExtent < 2 ^ 31) (hslo : -2 ^ 31 ≤ srcPos) (hshi : srcPos < 2 ^ 31)
    (hsext : srcExtent < 2 ^ 31) :
    clipAxis dstPos dstSize dstExtent srcPos srcSize srcExtent = none ↔
      SideEmpty dstPos dstSize dstExtent ∨ SideEmpty srcPos srcSize srcExtent := by
  rw [← clipSide_eq_none_iff hdlo hdhi hdext, ← clipSide_eq_none_iff hslo hshi hsext]
  unfold clipAxis
  by_cases hzero : dstSize = 0 ∨ srcSize = 0
  · rw [if_pos hzero]
    simp only [true_iff]
    rcases hzero with hd | hs
    · exact .inl ((clipSide_eq_none_iff hdlo hdhi hdext).mpr (.inl hd))
    · exact .inr ((clipSide_eq_none_iff hslo hshi hsext).mpr (.inl hs))
  · rw [if_neg hzero]
    cases clipSide srcPos srcSize srcExtent with
    | none => simp
    | some src => cases clipSide dstPos dstSize dstExtent <;> simp

/-- The lengths of a clipped axis are those of its cut. -/
structure AxisOf (q : Cut) (dstPos : ℤ) (dstSize srcExtent : ℕ) (r : AxisRange) : Prop where
  dstStart : r.dstStart = dstPos.toNat
  visible : r.dstEnd - r.dstStart = q.kept
  span : r.srcSpan = q.span
  kept_pos : 0 < q.kept
  span_pos : 0 < q.span
  whole : q.whole = dstSize
  before : q.before = (-dstPos).toNat
  inside : r.srcStart + q.span ≤ srcExtent

theorem axisOf_clipAxis (hdlo : -2 ^ 31 < dstPos) (hdhi : dstPos < 2 ^ 31)
    (hdext : dstExtent < 2 ^ 31) (hslo : -2 ^ 31 < srcPos) (hshi : srcPos < 2 ^ 31)
    (hsext : srcExtent < 2 ^ 31)
    (h : clipAxis dstPos dstSize dstExtent srcPos srcSize srcExtent = some r) :
    AxisOf (axisCut dstPos dstSize dstExtent srcPos srcSize srcExtent) dstPos dstSize srcExtent
      r := by
  rw [clipAxis_eq hdlo hdhi hdext] at h
  split at h
  · cases h
  rename_i hempty
  rw [clipSide_eq hslo hshi hsext] at h
  split at h
  · cases h
  rename_i hsource
  cases h
  refine ⟨rfl, ?_, rfl, ?_, ?_, ?_, rfl, ?_⟩
  all_goals
    simp only [axisCut, Cut.whole, visibleLen]
    omega

namespace AxisOf

variable {q : Cut} {noScale : Bool} {p : ℕ}

theorem sampleIndex (h : AxisOf q dstPos dstSize srcExtent r) (hfit : ProductsFit q)
    (hp : r.dstStart ≤ p ∧ p < r.dstEnd)
    (hsame : noScale = true → r.srcSpan = r.dstEnd - r.dstStart) :
    sampleIndex noScale r p = r.srcStart + (p - r.dstStart) * q.span / q.kept := by
  have hvisible := h.visible
  have hoffset : p - r.dstStart ≤ q.before + (q.kept - 1) := by omega
  rw [sampleIndex_eq (by omega) hsame fun _ => ?_, h.span, h.visible]
  rw [h.span]
  exact (Nat.mul_le_mul_right _ hoffset).trans_lt hfit

theorem sampleIndex_whole (h : AxisOf q dstPos dstSize srcExtent r) (hfit : ProductsFit q)
    (hp : r.dstStart ≤ p ∧ p < r.dstEnd)
    (hsame : noScale = true → (r.whole dstSize).srcSpan =
      (r.whole dstSize).dstEnd - (r.whole dstSize).dstStart) :
    CompositeCanvas.sampleIndex noScale (r.whole dstSize) (p - dstPos).toNat =
      r.srcStart + (p - r.dstStart + q.before) * q.span / q.whole := by
  have hvisible := h.visible
  have hstart := h.dstStart
  have hbefore := h.before
  have hwhole := h.whole
  have hlen : q.before + q.kept ≤ q.whole := by
    unfold Cut.whole
    omega
  have hoffset : (p - dstPos).toNat = p - r.dstStart + q.before := by omega
  have hle : p - r.dstStart + q.before ≤ q.before + (q.kept - 1) := by omega
  rw [hoffset, sampleIndex_eq ?_ hsame fun _ => ?_]
  · simp only [AxisRange.whole, Nat.sub_zero, h.span, h.whole]
  · simp only [AxisRange.whole, Nat.sub_zero]
    omega
  · simp only [AxisRange.whole, Nat.sub_zero, h.span]
    exact (Nat.mul_le_mul_right _ hle).trans_lt hfit

/-- A cell that is sampled lies in the buffer. -/
theorem cell_lt (h : AxisOf q dstPos dstSize srcExtent r) {k n : ℕ} (hk : k < n) :
    r.srcStart + k * q.span / n < srcExtent := by
  have hinside := h.inside
  have hcell : k * q.span / n < q.span :=
    Nat.div_lt_of_lt_mul ((Nat.mul_lt_mul_of_pos_right hk h.span_pos))
  omega

end AxisOf

end Axis

/-! ### Both axes -/

/-- Two words are one if their rows and their columns are. -/
theorem word_eq_iff {row row' column column' width : ℕ} (h : column < width)
    (h' : column' < width) :
    row * width + column = row' * width + column' ↔ row = row' ∧ column = column' := by
  constructor
  · intro heq
    have hcolumn := congrArg (· % width) heq
    simp only [Nat.mul_add_mod_of_lt h, Nat.mul_add_mod_of_lt h'] at hcolumn
    subst hcolumn
    exact ⟨Nat.eq_of_mul_eq_mul_right (Nat.zero_lt_of_lt h) (Nat.add_right_cancel heq), rfl⟩
  · rintro ⟨rfl, rfl⟩
    rfl

section Blend

variable {src : CompositeSrc} {width height : ℕ} {srcRect dstRect : CompositeRect}
  {xr yr : AxisRange}

theorem samplesAgree_iff_same {qx qy : Cut} {rows : ℕ}
    (hx : AxisOf qx dstRect.x.toInt dstRect.w.toNat src.srcWidth.toNat xr)
    (hy : AxisOf qy dstRect.y.toInt dstRect.h.toNat rows yr) (hxfit : ProductsFit qx)
    (hyfit : ProductsFit qy) (hstride : src.srcWidth.toNat ≤ src.srcStrideBytes.toNat / 4) :
    SamplesAgree src dstRect xr yr ↔ qx.Same ∧ qy.Same := by
  have hword : ∀ x y, xr.dstStart ≤ x → x < xr.dstEnd → yr.dstStart ≤ y → y < yr.dstEnd →
      (sampledWord src xr yr x y =
        sampledWord src (xr.whole dstRect.w.toNat) (yr.whole dstRect.h.toNat)
          (x - dstRect.x.toInt).toNat (y - dstRect.y.toInt).toNat ↔
      (y - yr.dstStart) * qy.span / qy.kept =
          (y - yr.dstStart + qy.before) * qy.span / qy.whole ∧
        (x - xr.dstStart) * qx.span / qx.kept =
          (x - xr.dstStart + qx.before) * qx.span / qx.whole) := by
    intro x y hxs hxe hys hye
    have hxv := hx.visible
    have hxlen : qx.before + qx.kept ≤ qx.whole := by
      unfold Cut.whole
      omega
    unfold sampledWord
    dsimp only
    rw [hx.sampleIndex hxfit ⟨hxs, hxe⟩ fun h => (of_decide_eq_true h).1,
      hy.sampleIndex hyfit ⟨hys, hye⟩ fun h => (of_decide_eq_true h).2,
      hx.sampleIndex_whole hxfit ⟨hxs, hxe⟩ fun h => (of_decide_eq_true h).1,
      hy.sampleIndex_whole hyfit ⟨hys, hye⟩ fun h => (of_decide_eq_true h).2,
      word_eq_iff ((hx.cell_lt (by omega)).trans_le hstride)
        ((hx.cell_lt (by omega)).trans_le hstride)]
    omega
  have hxv := hx.visible
  have hyv := hy.visible
  have hxpos := hx.kept_pos
  have hypos := hy.kept_pos
  constructor
  · intro h
    refine ⟨fun k hk => ?_, fun k hk => ?_⟩
    · have hcolumn := (hword (xr.dstStart + k) yr.dstStart (by omega) (by omega) (by omega)
        (by omega)).mp (h _ _ (by omega) (by omega) (by omega) (by omega))
      simpa only [Nat.add_sub_cancel_left] using hcolumn.2
    · have hrow := (hword xr.dstStart (yr.dstStart + k) (by omega) (by omega) (by omega)
        (by omega)).mp (h _ _ (by omega) (by omega) (by omega) (by omega))
      simpa only [Nat.add_sub_cancel_left] using hrow.1
  · rintro ⟨hsameX, hsameY⟩ x y hxs hxe hys hye
    exact (hword x y hxs hxe hys hye).mpr ⟨hsameY _ (by omega), hsameX _ (by omega)⟩

/-- How the canvas cuts the columns of the destination. -/
def xCut (src : CompositeSrc) (width : ℕ) (srcRect dstRect : CompositeRect) : Cut :=
  axisCut dstRect.x.toInt dstRect.w.toNat width srcRect.x.toInt srcRect.w.toNat src.srcWidth.toNat

/-- How the canvas cuts its rows. -/
def yCut (src : CompositeSrc) (height : ℕ) (srcRect dstRect : CompositeRect) : Cut :=
  axisCut dstRect.y.toInt dstRect.h.toNat height srcRect.y.toInt srcRect.h.toNat
    src.srcHeight.toNat

/-- The indices are computed without a wrap: the source's edges can be negated, and the products of
both axes fit. -/
structure IndicesFit (src : CompositeSrc) (width height : ℕ) (srcRect dstRect : CompositeRect) :
    Prop where
  source : srcRect.Clippable
  x : ProductsFit (xCut src width srcRect dstRect)
  y : ProductsFit (yCut src height srcRect dstRect)

/-- A side of the source or of the destination leaves nothing to paint. -/
def PaintsNothing (src : CompositeSrc) (width height : ℕ) (srcRect dstRect : CompositeRect) :
    Prop :=
  (SideEmpty dstRect.x.toInt dstRect.w.toNat width ∨
      SideEmpty srcRect.x.toInt srcRect.w.toNat src.srcWidth.toNat) ∨
    SideEmpty dstRect.y.toInt dstRect.h.toNat height ∨
      SideEmpty srcRect.y.toInt srcRect.h.toNat src.srcHeight.toNat

/-- The cut keeps the picture: nothing is painted or told apart, nothing is cut off, or the cuts of
both axes are harmless. -/
def CutKeepsPicture (src : CompositeSrc) (width height : ℕ) (srcRect dstRect : CompositeRect) :
    Prop :=
  src.readable = none ∨ Invisible src ∨ PaintsNothing src width height srcRect dstRect ∨
    dstRect.Clippable ∧ (Uniform src ∨ OnCanvas dstRect width height ∨
      IndicesFit src width height srcRect dstRect ∧ (xCut src width srcRect dstRect).Harmless ∧
        (yCut src height srcRect dstRect).Harmless)

theorem blendAxes_eq_none_iff (hwidth : width < 2 ^ 31) (hheight : height < 2 ^ 31)
    (hsw : src.srcWidth.toNat < 2 ^ 31) (hsh : src.srcHeight.toNat < 2 ^ 31) :
    blendAxes width height src srcRect dstRect = none ↔
      PaintsNothing src width height srcRect dstRect := by
  have hx := clipAxis_eq_none_iff dstRect.w.toNat srcRect.w.toNat
    dstRect.x.le_toInt dstRect.x.toInt_lt hwidth srcRect.x.le_toInt srcRect.x.toInt_lt hsw
  have hy := clipAxis_eq_none_iff dstRect.h.toNat srcRect.h.toNat
    dstRect.y.le_toInt dstRect.y.toInt_lt hheight srcRect.y.le_toInt srcRect.y.toInt_lt hsh
  unfold PaintsNothing
  rw [← hx, ← hy]
  unfold blendAxes
  cases clipAxis dstRect.x.toInt dstRect.w.toNat width srcRect.x.toInt srcRect.w.toNat
    src.srcWidth.toNat with
  | none => simp
  | some xr =>
    cases clipAxis dstRect.y.toInt dstRect.h.toNat height srcRect.y.toInt srcRect.h.toNat
      src.srcHeight.toNat <;> simp

theorem samplesAgree_of_onCanvas (hwidth : width < 2 ^ 31) (hheight : height < 2 ^ 31)
    (hon : OnCanvas dstRect width height)
    (haxes : blendAxes width height src srcRect dstRect = some (xr, yr)) :
    SamplesAgree src dstRect xr yr := by
  obtain ⟨⟨hx0, hxs⟩, hy0, hys⟩ := hon
  obtain ⟨hxr, hyr⟩ := blendAxes_eq_some.mp haxes
  obtain ⟨hxstart, hxend⟩ := clipAxis_roomy hx0 hxs hwidth hxr
  obtain ⟨hystart, hyend⟩ := clipAxis_roomy hy0 hys hheight hyr
  intro x y hx _ hy _
  refine @sampledWord_congr src (xr.whole dstRect.w.toNat) (yr.whole dstRect.h.toNat) xr yr
    _ _ x y ⟨rfl, rfl⟩ ⟨rfl, rfl⟩ ?_ ?_ ?_ ?_
  all_goals
    simp only [AxisRange.whole]
    omega

/-- Without a wrap, the samples agree exactly if the cuts of both axes are harmless. -/
theorem samplesAgree_iff_harmless (hwidth : width < 2 ^ 31) (hheight : height < 2 ^ 31)
    (hsw : src.srcWidth.toNat < 2 ^ 31) (hsh : src.srcHeight.toNat < 2 ^ 31)
    (hfit : IndicesFit src width height srcRect dstRect) (hclip : dstRect.Clippable)
    {pixels : PixelSpan} (hp : src.readable = some pixels)
    (haxes : blendAxes width height src srcRect dstRect = some (xr, yr)) :
    SamplesAgree src dstRect xr yr ↔
      (xCut src width srcRect dstRect).Harmless ∧ (yCut src height srcRect dstRect).Harmless := by
  obtain ⟨hxr, hyr⟩ := blendAxes_eq_some.mp haxes
  have hx := axisOf_clipAxis hclip.1 dstRect.x.toInt_lt hwidth hfit.source.1 srcRect.x.toInt_lt hsw
    hxr
  have hy := axisOf_clipAxis hclip.2 dstRect.y.toInt_lt hheight hfit.source.2 srcRect.y.toInt_lt
    hsh hyr
  have hguards := (Option.filter_eq_some_iff.mp hp).2
  simp only [Bool.and_eq_true, decide_eq_true_eq] at hguards
  obtain ⟨⟨⟨-, hwide⟩, -⟩, -⟩ := hguards
  rw [samplesAgree_iff_same hx hy hfit.x hfit.y (by omega), Cut.same_iff_harmless,
    Cut.same_iff_harmless]
  rfl

end Blend

end DrmCxx.Scene.CompositeCanvas
