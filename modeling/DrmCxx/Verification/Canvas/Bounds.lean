import DrmCxx.Scene.Canvas.BlendAccess
import DrmCxx.Verification.Canvas.Clipping

/-!
# Bounds of a blend

Every word a blend touches lies inside its spans, as long as no clipped side starts at `INT32_MIN`:
there the negation in `clip_axis` wraps, nothing is cut off, and the indices start at `2 ^ 31`.
-/

namespace DrmCxx.Scene.CompositeCanvas

/-! ### One side -/

/-- The side is not the one whose position cannot be negated, or its buffer reaches past
`2 ^ 31`. -/
def SideOk (pos : ℤ) (extent : ℕ) : Prop := pos ≠ -2 ^ 31 ∨ 2 ^ 31 < extent

instance (pos : ℤ) (extent : ℕ) : Decidable (SideOk pos extent) :=
  inferInstanceAs (Decidable (_ ∨ _))

/-- What `clip_axis` keeps of a side, wherever it starts. -/
structure SideSpec (pos : ℤ) (size extent start visible : ℕ) : Prop where
  visible_pos : 0 < visible
  visible_le : visible ≤ size
  inside : SideOk pos extent → start + visible ≤ extent
  wrapped : ¬ SideOk pos extent → start = 2 ^ 31 ∧ extent < 2 ^ 31

theorem clipSide_wrapped {size extent : ℕ} :
    clipSide (-2 ^ 31) size extent =
      if i32 extent ≤ -2 ^ 31 ∨ min size (u32 (extent + 2 ^ 31)) = 0 then none
      else some (2 ^ 31, min size (u32 (extent + 2 ^ 31))) := by
  have hneg : max 0 (i32 (-(-2 ^ 31))) = 0 := by decide
  have hpos : i32 (-2 ^ 31 + 0) = -2 ^ 31 := by decide
  have hstart : u32 (-2 ^ 31) = 2 ^ 31 := by decide
  have hzero : u32 0 = 0 := by decide
  unfold clipSide
  dsimp only
  rw [hneg, hpos, hstart, hzero, Nat.sub_zero, Int.sub_neg]

theorem clipSide_spec {pos : ℤ} {size extent start visible : ℕ} (hlo : -2 ^ 31 ≤ pos)
    (hhi : pos < 2 ^ 31) (hsize : size < 2 ^ 32) (hext : extent < 2 ^ 32)
    (h : clipSide pos size extent = some (start, visible)) :
    SideSpec pos size extent start visible := by
  by_cases hpos : pos = -2 ^ 31
  · subst hpos
    rw [clipSide_wrapped] at h
    split at h
    · cases h
    · rename_i hkept
      cases h
      rw [not_or] at hkept
      have hi32 : i32 extent = if extent < 2 ^ 31 then (extent : ℤ) else extent - 2 ^ 32 := by
        unfold i32
        rw [Int.bmod_def]
        split <;> split <;> omega
      have hu32 : u32 (extent + 2 ^ 31) =
          if extent < 2 ^ 31 then extent + 2 ^ 31 else extent - 2 ^ 31 := by
        unfold u32
        split <;> omega
      rw [hi32] at hkept
      rw [hu32] at hkept ⊢
      refine ⟨by omega, by omega, fun hok => ?_, fun hbad => ?_⟩
      · have htall : 2 ^ 31 < extent := hok.resolve_left (by simp)
        rw [if_neg (by omega)]
        omega
      · have hshort : ¬ 2 ^ 31 < extent := fun h => hbad (.inr h)
        refine ⟨rfl, ?_⟩
        by_contra hge
        rw [if_neg hge] at hkept
        omega
  · by_cases hsmall : extent < 2 ^ 31
    · rw [clipSide_eq (by omega) hhi hsmall] at h
      split at h
      · cases h
      · cases h
        exact ⟨by omega, by omega, fun _ => by omega, fun hbad => absurd (.inl hpos) hbad⟩
    · -- the extent is negative as a signed value, so the side counts as degenerate
      have hclipped : 0 ≤ i32 (pos + max 0 (i32 (-pos))) := by
        rw [i32_of_fits (z := -pos) (by omega) (by omega), i32_of_fits (by omega) (by omega)]
        omega
      have hnegative : i32 extent < 0 := by
        unfold i32
        rw [Int.bmod_def]
        split <;> omega
      unfold clipSide at h
      dsimp only at h
      rw [if_pos (.inl (by omega))] at h
      cases h

/-- Both sides of a clipped axis. -/
theorem clipAxis_sides {dstPos srcPos : ℤ} {dstSize dstExtent srcSize srcExtent : ℕ} {r : AxisRange}
    (h : clipAxis dstPos dstSize dstExtent srcPos srcSize srcExtent = some r) :
    ∃ visible, clipSide dstPos dstSize dstExtent = some (r.dstStart, visible) ∧
      clipSide srcPos srcSize srcExtent = some (r.srcStart, r.srcSpan) ∧
      r.dstEnd = u32 (r.dstStart + visible) := by
  unfold clipAxis at h
  split at h
  · cases h
  split at h
  next src dst hsrc hdst =>
    cases h
    exact ⟨dst.2, hdst, hsrc, rfl⟩
  next => cases h

/-- A clipped axis, as the loops see it. -/
structure AxisSpec (dstPos srcPos : ℤ) (dstExtent srcExtent : ℕ) (r : AxisRange) : Prop where
  visible_pos : 0 < r.visible
  span_pos : 0 < r.srcSpan
  dst_inside : SideOk dstPos dstExtent → r.dstStart + r.visible ≤ dstExtent
  dst_end : SideOk dstPos dstExtent → r.dstEnd = r.dstStart + r.visible
  dst_wrapped : ¬ SideOk dstPos dstExtent → r.dstStart = 2 ^ 31 ∧ dstExtent < 2 ^ 31
  src_inside : SideOk srcPos srcExtent → r.srcStart + r.srcSpan ≤ srcExtent
  src_wrapped : ¬ SideOk srcPos srcExtent → r.srcStart = 2 ^ 31 ∧ srcExtent < 2 ^ 31

theorem clipAxis_spec {dstPos srcPos : Int32} {dstSize dstExtent srcSize srcExtent : UInt32}
    {r : AxisRange} (h : clipAxis dstPos.toInt dstSize.toNat dstExtent.toNat srcPos.toInt
      srcSize.toNat srcExtent.toNat = some r) :
    AxisSpec dstPos.toInt srcPos.toInt dstExtent.toNat srcExtent.toNat r := by
  obtain ⟨visible, hdst, hsrc, hend⟩ := clipAxis_sides h
  have hd := clipSide_spec dstPos.le_toInt dstPos.toInt_lt dstSize.toNat_lt dstExtent.toNat_lt hdst
  have hs := clipSide_spec srcPos.le_toInt srcPos.toInt_lt srcSize.toNat_lt srcExtent.toNat_lt hsrc
  have hvisible : r.visible = visible := by
    have hle := hd.visible_le
    have hsize := dstSize.toNat_lt
    unfold AxisRange.visible
    rw [hend]
    unfold u32
    omega
  rw [← hvisible] at hd hend
  refine ⟨hd.visible_pos, hs.visible_pos, hd.inside, fun hok => ?_, hd.wrapped, hs.inside,
    hs.wrapped⟩
  have hinside := hd.inside hok
  have hext := dstExtent.toNat_lt
  rw [hend, u32_of_fits (by omega) (by omega)]
  omega

/-! ### One pixel -/

/-- The divisor of `map_src_index` is never zero. -/
theorem checkedSrcIndex_eq (d visible span : ℕ) :
    checkedSrcIndex d visible span = some (mapSrcIndex d visible span) := by
  unfold checkedSrcIndex mapSrcIndex divU32
  split
  · rfl
  · rw [if_neg (by omega)]

theorem mapSrcIndex_lt {d visible span : ℕ} (hd : d < visible) (hspan : 0 < span) :
    mapSrcIndex d visible span < span := by
  unfold mapSrcIndex
  split
  · exact hspan
  · have hwrap : u32 ((d : ℤ) * span) ≤ d * span := by
      unfold u32
      rw [← Nat.cast_mul]
      omega
    rw [Nat.div_lt_iff_lt_mul (by omega)]
    calc u32 ((d : ℤ) * span) ≤ d * span := hwrap
      _ < visible * span := Nat.mul_lt_mul_of_pos_right hd hspan
      _ = span * visible := Nat.mul_comm _ _

namespace AxisRange

/-- The offset of the `d`-th visible pixel in the visible source. -/
def offset (noScale : Bool) (r : AxisRange) (d : ℕ) : ℕ :=
  if noScale then d else mapSrcIndex d r.visible r.srcSpan

theorem mapped_eq (noScale : Bool) (r : AxisRange) (d : ℕ) :
    r.mapped noScale d = some (r.offset noScale d) := by
  unfold mapped offset
  split
  · rfl
  · exact checkedSrcIndex_eq _ _ _

theorem offset_lt {noScale : Bool} {r : AxisRange} {d : ℕ} (hd : d < r.visible)
    (hspan : 0 < r.srcSpan) (hsame : noScale = true → r.srcSpan = r.visible) :
    r.offset noScale d < r.srcSpan := by
  unfold offset
  split
  · rename_i h
    rw [hsame h]
    exact hd
  · exact mapSrcIndex_lt hd hspan

end AxisRange

namespace BlendCall

variable {c : BlendCall} {ad : Admitted}

/-- Neither axis is scaled. -/
def noScale (ad : Admitted) : Bool :=
  ad.xr.srcSpan = ad.xr.visible ∧ ad.yr.srcSpan = ad.yr.visible

/-- The source column of the `dx`-th visible pixel. -/
def sampledColumn (ad : Admitted) (dx : ℕ) : ℕ :=
  if noScale ad then ad.xr.srcStart + ad.xr.offset (noScale ad) dx
  else u32 (ad.xr.srcStart + ad.xr.offset (noScale ad) dx)

/-- The source row of the `dy`-th visible pixel. -/
def sampledRow (ad : Admitted) (dy : ℕ) : ℕ :=
  u32 (ad.yr.srcStart + ad.yr.offset (noScale ad) dy)

/-- The destination column the loops form: in 32 bits in the scaled copy, as a pointer elsewhere. -/
def paintedColumn (c : BlendCall) (ad : Admitted) (dx : ℕ) : ℕ :=
  if c.src.pureOpaqueCopy && !noScale ad then u32 (ad.xr.dstStart + dx) else ad.xr.dstStart + dx

theorem access_eq (c : BlendCall) (ad : Admitted) (dx dy : ℕ) :
    c.access ad.xr ad.yr dx dy = some
      { srcIndex := sampledRow ad dy * c.srcStridePx + sampledColumn ad dx
        dstRow := u32 (ad.yr.dstStart + dy)
        dstColumn := c.paintedColumn ad dx
        dstIndex := u32 (ad.yr.dstStart + dy) * c.dstStridePx + c.paintedColumn ad dx } := by
  unfold access
  simp only [AxisRange.mapped_eq, Option.bind_eq_bind, Option.bind_some, Option.pure_def]
  rfl

/-- The guards that let a call through. -/
structure AdmittedSpec (c : BlendCall) (ad : Admitted) : Prop where
  dst_width : c.dstWidth.toNat * 4 ≤ c.dstStrideBytes.toNat
  dst_size : c.dstHeight.toNat * c.dstStrideBytes.toNat ≤ ad.dst.size
  src_width : c.src.srcWidth.toNat * 4 ≤ c.src.srcStrideBytes.toNat
  src_size : c.src.srcHeight.toNat * c.src.srcStrideBytes.toNat ≤ ad.src.size
  xr : AxisSpec c.dstRect.x.toInt c.srcRect.x.toInt c.dstWidth.toNat c.src.srcWidth.toNat ad.xr
  yr : AxisSpec c.dstRect.y.toInt c.srcRect.y.toInt c.dstHeight.toNat c.src.srcHeight.toNat ad.yr

theorem admitted_spec (h : c.admitted = some ad) : AdmittedSpec c ad := by
  unfold admitted at h
  simp only [Option.bind_eq_bind, Option.pure_def, Option.bind_eq_some_iff] at h
  obtain ⟨dst, hdst, src, hsrc, ⟨xr, yr⟩, haxes, heq⟩ := h
  cases heq
  have hd := (Option.filter_eq_some_iff.mp hdst).2
  have hs := (Option.filter_eq_some_iff.mp hsrc).2
  simp only [Bool.and_eq_true, decide_eq_true_eq] at hd hs
  obtain ⟨hxr, hyr⟩ := clipAxis_of_blendAxes haxes
  exact ⟨hd.1.1.2, hd.1.2, hs.1.1.2, hs.1.2, clipAxis_spec hxr, clipAxis_spec hyr⟩

/-! ### The whole blend -/

/-- The words touched for a pixel lie in their spans, the destination pixel on the canvas. -/
structure Inside (c : BlendCall) (ad : Admitted) (a : Access) : Prop where
  src : a.srcIndex < ad.src.size / 4
  row : a.dstRow < c.dstHeight.toNat
  column : a.dstColumn < c.dstWidth.toNat
  dst : a.dstIndex < ad.dst.size / 4

/-- The blend divides by no zero and touches only words of its spans. -/
def StaysInside (c : BlendCall) : Prop :=
  ∀ ad ∈ c.admitted, ∀ dx < ad.xr.visible, ∀ dy < ad.yr.visible,
    ∃ a ∈ c.access ad.xr ad.yr dx dy, Inside c ad a

/-- No clipped side of the destination wraps. -/
def DstOk (c : BlendCall) : Prop :=
  SideOk c.dstRect.x.toInt c.dstWidth.toNat ∧ SideOk c.dstRect.y.toInt c.dstHeight.toNat

instance (c : BlendCall) : Decidable c.DstOk := inferInstanceAs (Decidable (_ ∧ _))

/-- No clipped side of the source wraps. -/
def SrcOk (c : BlendCall) : Prop :=
  SideOk c.srcRect.x.toInt c.src.srcWidth.toNat ∧ SideOk c.srcRect.y.toInt c.src.srcHeight.toNat

/-- The source span goes on past every sampled word. -/
def SpanReaches (c : BlendCall) (ad : Admitted) : Prop :=
  ∀ dx < ad.xr.visible, ∀ dy < ad.yr.visible,
    sampledRow ad dy * c.srcStridePx + sampledColumn ad dx < ad.src.size / 4

/-- Inside the rows and the columns is inside the span. -/
theorem index_lt {row column height width stride size : ℕ} (hrow : row < height)
    (hcolumn : column < width) (hwidth : width * 4 ≤ stride) (hsize : height * stride ≤ size) :
    row * (stride / 4) + column < size / 4 := by
  have hpx : column < stride / 4 := by omega
  have hrows : (row + 1) * (stride / 4) ≤ height * (stride / 4) := Nat.mul_le_mul_right _ hrow
  have hwords : height * (stride / 4) ≤ size / 4 := by
    rw [Nat.le_div_iff_mul_le (by decide)]
    calc height * (stride / 4) * 4 = height * (stride / 4 * 4) := Nat.mul_assoc _ _ _
      _ ≤ height * stride := Nat.mul_le_mul_left _ (Nat.div_mul_le_self _ _)
      _ ≤ size := hsize
  rw [Nat.add_mul, Nat.one_mul] at hrows
  omega

theorem u32_eq {z : ℕ} (h : z < 2 ^ 32) : u32 (z : ℤ) = z := by
  rw [u32_of_fits (by omega) (by omega), Int.toNat_natCast]

theorem sampledColumn_eq {start : ℕ} {dx : ℕ} (hstart : ad.xr.srcStart = start)
    (hfits : start + ad.xr.offset (noScale ad) dx < 2 ^ 32) :
    sampledColumn ad dx = start + ad.xr.offset (noScale ad) dx := by
  unfold sampledColumn
  rw [hstart, ← Nat.cast_add, u32_eq hfits, ite_self]

theorem sampledRow_eq {start : ℕ} {dy : ℕ} (hstart : ad.yr.srcStart = start)
    (hfits : start + ad.yr.offset (noScale ad) dy < 2 ^ 32) :
    sampledRow ad dy = start + ad.yr.offset (noScale ad) dy := by
  unfold sampledRow
  rw [hstart, ← Nat.cast_add, u32_eq hfits]

theorem paintedColumn_eq {start dx : ℕ} (hstart : ad.xr.dstStart = start)
    (hfits : start + dx < 2 ^ 32) : c.paintedColumn ad dx = start + dx := by
  unfold paintedColumn
  rw [hstart, ← Nat.cast_add, u32_eq hfits, ite_self]

theorem noScale_xr (h : noScale ad = true) : ad.xr.srcSpan = ad.xr.visible :=
  (of_decide_eq_true h).1

theorem noScale_yr (h : noScale ad = true) : ad.yr.srcSpan = ad.yr.visible :=
  (of_decide_eq_true h).2

theorem offset_zero (noScale : Bool) (r : AxisRange) : r.offset noScale 0 = 0 := by
  unfold AxisRange.offset mapSrcIndex u32
  split
  · rfl
  · simp

theorem spanReaches_of_srcOk (h : AdmittedSpec c ad) (hok : c.SrcOk) : c.SpanReaches ad := by
  intro dx hdx dy hdy
  have hx := h.xr.src_inside hok.1
  have hy := h.yr.src_inside hok.2
  have hw := c.src.srcWidth.toNat_lt
  have hh := c.src.srcHeight.toNat_lt
  have hxo := AxisRange.offset_lt hdx h.xr.span_pos noScale_xr
  have hyo := AxisRange.offset_lt hdy h.yr.span_pos noScale_yr
  refine index_lt ?_ ?_ h.src_width h.src_size
  · rw [sampledRow_eq rfl (by omega)]
    omega
  · rw [sampledColumn_eq rfl (by omega)]
    omega

/-- A wrapped source side samples from `2 ^ 31` on. -/
theorem long_of_spanReaches (h : AdmittedSpec c ad) (hbad : ¬ c.SrcOk) (hreach : c.SpanReaches ad) :
    2 ^ 31 < ad.src.size / 4 := by
  have hindex := hreach 0 h.xr.visible_pos 0 h.yr.visible_pos
  by_cases hx : SideOk c.srcRect.x.toInt c.src.srcWidth.toNat
  · have hstart := (h.yr.src_wrapped fun hy => hbad ⟨hx, hy⟩).1
    rw [sampledRow_eq hstart (by rw [offset_zero]; decide), offset_zero] at hindex
    -- the stride is at least one word, as the visible row has a pixel
    have hinside := h.xr.src_inside hx
    have hspan := h.xr.span_pos
    have hwidth := h.src_width
    have hstride : 1 ≤ c.srcStridePx := by
      unfold srcStridePx
      omega
    have hrow : 2 ^ 31 * 1 ≤ (2 ^ 31 + 0) * c.srcStridePx := Nat.mul_le_mul (by decide) hstride
    omega
  · have hstart := (h.xr.src_wrapped hx).1
    rw [sampledColumn_eq hstart (by rw [offset_zero]; decide), offset_zero] at hindex
    omega

theorem dstOk_of_inside (h : AdmittedSpec c ad) {a : Access}
    (ha : a ∈ c.access ad.xr ad.yr 0 0) (hin : Inside c ad a) : c.DstOk := by
  rw [access_eq] at ha
  cases ha
  constructor
  · by_contra hx
    obtain ⟨hstart, hext⟩ := h.xr.dst_wrapped hx
    have hcolumn := hin.column
    dsimp only at hcolumn
    rw [paintedColumn_eq hstart (by decide)] at hcolumn
    omega
  · by_contra hy
    obtain ⟨hstart, hext⟩ := h.yr.dst_wrapped hy
    have hrow := hin.row
    dsimp only at hrow
    rw [hstart, ← Nat.cast_add, u32_eq (by decide)] at hrow
    omega

theorem inside_of_dstOk (h : AdmittedSpec c ad) (hok : c.DstOk) (hreach : c.SpanReaches ad)
    {dx dy : ℕ} (hdx : dx < ad.xr.visible) (hdy : dy < ad.yr.visible) :
    ∃ a ∈ c.access ad.xr ad.yr dx dy, Inside c ad a := by
  have hx := h.xr.dst_inside hok.1
  have hy := h.yr.dst_inside hok.2
  have hw := c.dstWidth.toNat_lt
  have hh := c.dstHeight.toNat_lt
  have hrow : u32 (ad.yr.dstStart + dy) = ad.yr.dstStart + dy := by
    rw [← Nat.cast_add, u32_eq (by omega)]
  have hcolumn : c.paintedColumn ad dx = ad.xr.dstStart + dx := paintedColumn_eq rfl (by omega)
  refine ⟨_, access_eq c ad dx dy, hreach dx hdx dy hdy, ?_, ?_, ?_⟩
  · dsimp only
    rw [hrow]
    omega
  · dsimp only
    rw [hcolumn]
    omega
  · dsimp only
    rw [hrow, hcolumn]
    exact index_lt (by omega) (by omega) h.dst_width h.dst_size

/-- A blend stays in its spans exactly when no clipped side wraps, save that a span of more than
`2 ^ 31` words may happen to hold what a wrapped source side samples. -/
theorem staysInside_iff (c : BlendCall) :
    (c.StaysInside ↔ ∀ ad ∈ c.admitted, c.DstOk ∧ (c.SrcOk ∨ c.SpanReaches ad)) ∧
      ∀ ad ∈ c.admitted, ¬ c.SrcOk → c.SpanReaches ad → 2 ^ 31 < ad.src.size / 4 := by
  refine ⟨⟨fun h ad had => ?_, fun h ad had dx hdx dy hdy => ?_⟩, fun ad had hbad hreach => ?_⟩
  · have hspec := admitted_spec had
    obtain ⟨a, ha, hin⟩ := h ad had 0 hspec.xr.visible_pos 0 hspec.yr.visible_pos
    refine ⟨dstOk_of_inside hspec ha hin, .inr fun dx hdx dy hdy => ?_⟩
    obtain ⟨b, hb, hbin⟩ := h ad had dx hdx dy hdy
    rw [access_eq] at hb
    cases hb
    exact hbin.src
  · have hspec := admitted_spec had
    obtain ⟨hdst, hsrc⟩ := h ad had
    exact inside_of_dstOk hspec hdst (hsrc.elim (spanReaches_of_srcOk hspec) id) hdx hdy
  · exact long_of_spanReaches (admitted_spec had) hbad hreach

/-- One opaque pixel blended onto a canvas of one pixel. -/
def onePixel (srcRect dstRect : CompositeRect) : BlendCall where
  dst := some { size := 4 }
  dstStrideBytes := 4
  dstWidth := 1
  dstHeight := 1
  src :=
    { pixels := some { word := fun _ => 0xFF0000FF, size := 4 }
      srcStrideBytes := 4
      srcWidth := 1
      srcHeight := 1
      drmFourcc := drmFormatArgb8888 }
  srcRect := srcRect
  dstRect := dstRect

/-- At `INT32_MIN` the destination column, or the source column, is `2 ^ 31`. -/
theorem not_staysInside :
    ¬ (onePixel ⟨0, 0, 1, 1⟩ ⟨Int32.minValue, 0, 1, 1⟩).StaysInside ∧
      ¬ (onePixel ⟨Int32.minValue, 0, 1, 1⟩ ⟨0, 0, 1, 1⟩).StaysInside := by
  constructor
  · intro h
    obtain ⟨a, ha, hin⟩ := h _ rfl 0 (by decide) 0 (by decide)
    exact absurd (dstOk_of_inside (admitted_spec rfl) ha hin) (by decide)
  · intro h
    obtain ⟨a, ha, hin⟩ := h _ rfl 0 (by decide) 0 (by decide)
    cases ha
    exact absurd hin.src (by decide)

end BlendCall

end DrmCxx.Scene.CompositeCanvas
