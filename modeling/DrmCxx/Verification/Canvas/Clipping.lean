import DrmCxx.Scene.Canvas.CompositeCanvas

/-!
# Rectangles of the canvas

What the clipping and the union of rectangles compute while nothing overflows 32 bits, and which
pixels a blend or a clear can change.
-/

namespace DrmCxx.Scene

theorem i32_of_fits {z : ℤ} (hlo : -2 ^ 31 ≤ z) (hhi : z < 2 ^ 31) : i32 z = z := by
  unfold i32
  rw [Int.bmod_def]
  split <;> omega

theorem u32_of_fits {z : ℤ} (hlo : 0 ≤ z) (hhi : z < 2 ^ 32) : u32 z = z.toNat := by
  unfold u32
  rw [Int.emod_eq_of_lt hlo hhi]

/-! ### Dirty rectangles -/

namespace DirtyRect

/-- The union of the two rectangles can be computed in 32 bits. -/
def UnionFits (a b : DirtyRect) : Prop :=
  ¬ a.empty → ¬ b.empty →
    (a.x + a.w < 2 ^ 31 ∧ b.x + b.w < 2 ^ 31 ∧
      max (a.x + a.w) (b.x + b.w) - min a.x b.x < 2 ^ 31) ∧
    (a.y + a.h < 2 ^ 31 ∧ b.y + b.h < 2 ^ 31 ∧
      max (a.y + a.h) (b.y + b.h) - min a.y b.y < 2 ^ 31)

instance (a b : DirtyRect) : Decidable (UnionFits a b) :=
  inferInstanceAs (Decidable (_ → _ → _))

/-- The rectangle starts at 32-bit coordinates. -/
def Placed (r : DirtyRect) : Prop :=
  -2 ^ 31 ≤ r.x ∧ -2 ^ 31 ≤ r.y

theorem empty_iff {r : DirtyRect} : r.empty ↔ r.w ≤ 0 ∨ r.h ≤ 0 := by
  simp [empty]

theorem not_has_of_empty {r : DirtyRect} (hr : r.empty) (x y : ℕ) : ¬ r.Has x y := by
  rw [empty_iff] at hr
  unfold Has
  omega

theorem not_has_default (x y : ℕ) : ¬ ({} : DirtyRect).Has x y :=
  not_has_of_empty (by decide) x y

theorem placed_default : ({} : DirtyRect).Placed := by simp [Placed]

theorem union_of_fits {a b : DirtyRect} (ha : a.Placed) (hb : b.Placed) (hab : UnionFits a b)
    (hna : ¬ a.empty) (hnb : ¬ b.empty) :
    a.union b = ⟨min a.x b.x, min a.y b.y, max (a.x + a.w) (b.x + b.w) - min a.x b.x,
      max (a.y + a.h) (b.y + b.h) - min a.y b.y⟩ := by
  obtain ⟨⟨hax, hbx, hx⟩, hay, hby, hy⟩ := hab hna hnb
  obtain ⟨hpax, hpay⟩ := ha
  obtain ⟨hpbx, hpby⟩ := hb
  have hsa := hna
  have hsb := hnb
  rw [empty_iff] at hsa hsb
  unfold union
  rw [if_neg hna, if_neg hnb]
  dsimp only
  rw [i32_of_fits (z := a.x + a.w) (by omega) hax, i32_of_fits (z := b.x + b.w) (by omega) hbx,
    i32_of_fits (z := a.y + a.h) (by omega) hay, i32_of_fits (z := b.y + b.h) (by omega) hby,
    i32_of_fits (by omega) hx, i32_of_fits (by omega) hy]

theorem placed_union {a b : DirtyRect} (ha : a.Placed) (hb : b.Placed) (hab : UnionFits a b) :
    (a.union b).Placed := by
  by_cases hna : a.empty
  · simpa [union, hna] using hb
  by_cases hnb : b.empty
  · simpa [union, hna, hnb] using ha
  rw [union_of_fits ha hb hab hna hnb]
  exact ⟨le_min ha.1 hb.1, le_min ha.2 hb.2⟩

theorem has_union_left {a b : DirtyRect} {x y : ℕ} (ha : a.Placed) (hb : b.Placed)
    (hab : UnionFits a b) (hxy : a.Has x y) : (a.union b).Has x y := by
  have hna : ¬ a.empty := fun h => not_has_of_empty h x y hxy
  by_cases hnb : b.empty
  · simpa [union, hna, hnb] using hxy
  rw [union_of_fits ha hb hab hna hnb]
  unfold Has at hxy ⊢
  dsimp only
  omega

theorem has_union_right {a b : DirtyRect} {x y : ℕ} (ha : a.Placed) (hb : b.Placed)
    (hab : UnionFits a b) (hxy : b.Has x y) : (a.union b).Has x y := by
  have hnb : ¬ b.empty := fun h => not_has_of_empty h x y hxy
  by_cases hna : a.empty
  · simpa [union, hna] using hxy
  rw [union_of_fits ha hb hab hna hnb]
  unfold Has at hxy ⊢
  dsimp only
  omega

/-- On the canvas, the clipped rectangle has the pixels of the whole one. -/
theorem has_clipToCanvas {size : CanvasSize} {r q : DirtyRect} (hq : r.clipToCanvas size = some q)
    {x y : ℕ} (hx : x < size.width) (hy : y < size.height) : q.Has x y ↔ r.Has x y := by
  unfold clipToCanvas at hq
  split at hq
  · cases hq
  dsimp only at hq
  split at hq
  · cases hq
  cases hq
  unfold Has
  dsimp only
  omega

theorem not_has_of_clipToCanvas {size : CanvasSize} {r : DirtyRect}
    (hr : r.clipToCanvas size = none) {x y : ℕ} (hx : x < size.width) (hy : y < size.height) :
    ¬ r.Has x y := by
  intro hxy
  unfold Has at hxy
  unfold clipToCanvas at hr
  rw [if_neg (by omega)] at hr
  dsimp only at hr
  rw [if_neg (by omega)] at hr
  cases hr

end DirtyRect

/-! ### What a clear and a blend change -/

namespace CompositeCanvas

theorem clearInto_eq_zero_or (dst : Pixmap) (dw dh : ℕ) (x y w h : Int32) (px py : ℕ) :
    clearInto dst dw dh x y w h px py = 0 ∨
      clearInto dst dw dh x y w h px py = dst px py := by
  unfold clearInto
  split
  · exact .inr rfl
  · dsimp only
    split
    · exact .inl rfl
    · exact .inr rfl

/-- How much of a side lies in its buffer. -/
def visibleLen (pos : ℤ) (size extent : ℕ) : ℕ := min (size - (-pos).toNat) (extent - pos.toNat)

/-- What `clip_axis` keeps of one side of a rectangle. -/
theorem clipSide_eq {pos : ℤ} {size extent : ℕ} (hlo : -2 ^ 31 < pos) (hhi : pos < 2 ^ 31)
    (hext : extent < 2 ^ 31) :
    clipSide pos size extent =
      if min (size - (-pos).toNat) (extent - pos.toNat) = 0 then none
      else some (pos.toNat, min (size - (-pos).toNat) (extent - pos.toNat)) := by
  unfold clipSide
  have hneg : i32 (-pos) = -pos := i32_of_fits (by omega) (by omega)
  have hpos : i32 (pos + max 0 (-pos)) = pos + max 0 (-pos) :=
    i32_of_fits (by omega) (by omega)
  have hextent : i32 extent = extent := i32_of_fits (by omega) (by omega)
  have hleft : u32 (max 0 (-pos)) = (-pos).toNat := by
    rw [u32_of_fits (by omega) (by omega)]
    omega
  have hstart : u32 (pos + max 0 (-pos)) = pos.toNat := by
    rw [u32_of_fits (by omega) (by omega)]
    omega
  dsimp only
  rw [hneg, hpos, hextent, hleft, hstart]
  by_cases hout : (extent : ℤ) ≤ pos + max 0 (-pos)
  · rw [if_pos (.inl hout), if_pos (by omega)]
  · have hrest : u32 (extent - (pos + max 0 (-pos))) = extent - pos.toNat := by
      rw [u32_of_fits (by omega) (by omega)]
      omega
    rw [hrest]
    simp [hout]

/-- An axis that keeps what lies in the canvas, and what lies in the source. -/
def visibleAxis (dstPos : ℤ) (dstSize dstExtent : ℕ) (srcPos : ℤ) (srcSize srcExtent : ℕ) :
    AxisRange where
  dstStart := dstPos.toNat
  dstEnd := dstPos.toNat + visibleLen dstPos dstSize dstExtent
  srcStart := srcPos.toNat
  srcSpan := visibleLen srcPos srcSize srcExtent

theorem clipAxis_visible {dstPos srcPos : ℤ} {dstSize dstExtent srcSize srcExtent : ℕ}
    (hdst : -2 ^ 31 < dstPos ∧ dstPos < 2 ^ 31) (hdstExtent : dstExtent < 2 ^ 31)
    (hsrc : -2 ^ 31 < srcPos ∧ srcPos < 2 ^ 31) (hsrcExtent : srcExtent < 2 ^ 31)
    (hdstVisible : 0 < visibleLen dstPos dstSize dstExtent)
    (hsrcVisible : 0 < visibleLen srcPos srcSize srcExtent) :
    clipAxis dstPos dstSize dstExtent srcPos srcSize srcExtent =
      some (visibleAxis dstPos dstSize dstExtent srcPos srcSize srcExtent) := by
  have hdstSide : clipSide dstPos dstSize dstExtent = _ := clipSide_eq hdst.1 hdst.2 hdstExtent
  have hsrcSide : clipSide srcPos srcSize srcExtent = _ := clipSide_eq hsrc.1 hsrc.2 hsrcExtent
  unfold visibleLen at hdstVisible hsrcVisible
  rw [if_neg (by omega)] at hdstSide hsrcSide
  unfold clipAxis
  rw [if_neg (by omega), hdstSide, hsrcSide]
  dsimp only
  rw [u32_of_fits (by omega) (by omega)]
  rfl

theorem clipAxis_some {dstPos srcPos : ℤ} {dstSize dstExtent srcSize srcExtent : ℕ}
    {r : AxisRange}
    (hr : clipAxis dstPos dstSize dstExtent srcPos srcSize srcExtent = some r) :
    ∃ side, clipSide dstPos dstSize dstExtent = some side ∧ r.dstStart = side.1 ∧
      r.dstEnd = u32 (side.1 + side.2) := by
  unfold clipAxis at hr
  split at hr
  · cases hr
  split at hr
  next src dst _ hdst =>
    cases hr
    exact ⟨dst, hdst, rfl, rfl⟩
  next => cases hr

/-- The clipped axis stays in the destination rectangle. -/
theorem mem_of_clipAxis {dstPos srcPos : ℤ} {dstSize dstExtent srcSize srcExtent : ℕ}
    {r : AxisRange}
    (hr : clipAxis dstPos dstSize dstExtent srcPos srcSize srcExtent = some r)
    (hlo : -2 ^ 31 < dstPos) (hhi : dstPos < 2 ^ 31) (hext : dstExtent < 2 ^ 31) {p : ℕ}
    (hp : r.dstStart ≤ p ∧ p < r.dstEnd) : dstPos ≤ p ∧ (p : ℤ) < dstPos + dstSize := by
  obtain ⟨side, hside, hstart, hend⟩ := clipAxis_some hr
  rw [clipSide_eq hlo hhi hext] at hside
  split at hside
  · cases hside
  cases hside
  rw [u32_of_fits (by omega) (by omega)] at hend
  dsimp only at hstart hend
  omega

/-- A destination whose left and upper edges can be negated in 32 bits. -/
def CompositeRect.Clippable (r : CompositeRect) : Prop :=
  -2 ^ 31 < r.x.toInt ∧ -2 ^ 31 < r.y.toInt

theorem clipAxis_of_blendAxes {dw dh : ℕ} {src : CompositeSrc} {srcRect dstRect : CompositeRect}
    {xr yr : AxisRange} (h : blendAxes dw dh src srcRect dstRect = some (xr, yr)) :
    clipAxis dstRect.x.toInt dstRect.w.toNat dw srcRect.x.toInt srcRect.w.toNat
        src.srcWidth.toNat = some xr ∧
      clipAxis dstRect.y.toInt dstRect.h.toNat dh srcRect.y.toInt srcRect.h.toNat
        src.srcHeight.toNat = some yr := by
  unfold blendAxes at h
  simp only [Option.pure_def, Option.bind_eq_bind, Option.bind_eq_some_iff] at h
  obtain ⟨xr', hxr, yr', hyr, heq⟩ := h
  cases heq
  exact ⟨hxr, hyr⟩

theorem blendInto_outside {size : CanvasSize} {dst : Pixmap} {src : CompositeSrc}
    {srcRect dstRect : CompositeRect} (hdst : dstRect.Clippable) {x y : ℕ}
    (hxy : ¬ (⟨dstRect.x.toInt, dstRect.y.toInt, dstRect.w.toNat, dstRect.h.toNat⟩ :
      DirtyRect).Has x y) :
    blendInto dst size.width size.height src srcRect dstRect x y = dst x y := by
  unfold blendInto
  cases src.readable with
  | none => rfl
  | some pixels =>
    cases haxes : blendAxes size.width size.height src srcRect dstRect with
    | none => rfl
    | some axes =>
      obtain ⟨xr, yr⟩ := axes
      obtain ⟨hxr, hyr⟩ := clipAxis_of_blendAxes haxes
      have hwidth := size.width_lt
      refine if_neg fun hin => hxy ?_
      have hx := mem_of_clipAxis hxr hdst.1 dstRect.x.toInt_lt (by omega) ⟨hin.1, hin.2.1⟩
      have hy := mem_of_clipAxis hyr hdst.2 dstRect.y.toInt_lt size.height_lt
        ⟨hin.2.2.1, hin.2.2.2⟩
      exact ⟨hx.1, hx.2, hy.1, hy.2⟩

/-- While its products fit, an axis samples by the floor of `k * span / visible`, scaled or not. -/
theorem sampleIndex_eq {noScale : Bool} {r : AxisRange} {d : ℕ}
    (hd : d - r.dstStart < r.dstEnd - r.dstStart)
    (hsame : noScale = true → r.srcSpan = r.dstEnd - r.dstStart)
    (hfits : noScale = false → (d - r.dstStart) * r.srcSpan < 2 ^ 32) :
    sampleIndex noScale r d =
      r.srcStart + (d - r.dstStart) * r.srcSpan / (r.dstEnd - r.dstStart) := by
  unfold sampleIndex
  congr 1
  cases noScale with
  | true => rw [if_pos rfl, hsame rfl, Nat.mul_div_cancel _ (by omega)]
  | false =>
    rw [if_neg Bool.false_ne_true]
    unfold mapSrcIndex
    split
    · have hzero : d - r.dstStart = 0 := by omega
      rw [hzero, Nat.zero_mul, Nat.zero_div]
    · have hproduct := hfits rfl
      rw [← Nat.cast_mul, u32_of_fits (Int.natCast_nonneg _) (by exact_mod_cast hproduct),
        Int.toNat_natCast]

theorem convertPixel_zero (outFourcc : UInt32) : convertPixel outFourcc 0 = 0 := by
  unfold convertPixel
  split
  · decide
  split
  · decide
  split
  · decide
  · rfl

end CompositeCanvas

end DrmCxx.Scene
