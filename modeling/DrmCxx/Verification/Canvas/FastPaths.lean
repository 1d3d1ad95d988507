import DrmCxx.Scene.Canvas.RowKernels
import Mathlib.Tactic.Ring

/-!
# The fast paths of the blender

The NEON routines, the copy loop and the unscaled loops against the plain per-pixel path. They write
the same pixels, but for one kind: the vector body has no branch for a transparent source pixel,
and adds its colours where the plain path leaves the destination alone.
-/

namespace DrmCxx.Scene.CompositeCanvas

open Lib.Neon Lib.Sweep

/-! ### Pixels by bytes -/

theorem packArgb_eq_word (b : Fin 4 → UInt8) :
    packArgb (b 3).toUInt32 (b 2).toUInt32 (b 1).toUInt32 (b 0).toUInt32 = word b := by
  unfold packArgb word
  generalize (b 3).toUInt32 <<< 24 = w, (b 2).toUInt32 <<< 16 = x, (b 1).toUInt32 <<< 8 = y,
    (b 0).toUInt32 = z
  rw [UInt32.or_comm (_ ||| y), UInt32.or_comm _ y, UInt32.or_comm w, UInt32.or_assoc,
    UInt32.or_assoc]

theorem and_ff (p : UInt32) : p &&& 0xFF = p.toUInt8.toUInt32 := by
  refine UInt32.toNat_inj.mp ?_
  simpa using Nat.and_two_pow_sub_one_eq_mod p.toNat 8

theorem componentB_eq (p : UInt32) : componentB p = (byte p 0).toUInt32 :=
  (and_ff p).trans (by simp [byte])

theorem componentG_eq (p : UInt32) : componentG p = (byte p 1).toUInt32 := and_ff (p >>> 8)

theorem componentR_eq (p : UInt32) : componentR p = (byte p 2).toUInt32 := and_ff (p >>> 16)

theorem componentA_eq (p : UInt32) : componentA p = (byte p 3).toUInt32 := and_ff (p >>> 24)

/-- SRC_OVER of one channel, `inv` being 255 less the source alpha. -/
def overByte (inv s d : UInt8) : UInt8 :=
  (min (s.toUInt32 + (d.toUInt32 * inv.toUInt32 + 127) / 255) 0xFF).toUInt8

theorem mul_toNat_le (x y : UInt8) : x.toNat * y.toNat ≤ 255 * 255 :=
  Nat.mul_le_mul (Nat.le_of_lt_succ x.toNat_lt) (Nat.le_of_lt_succ y.toNat_lt)

theorem toNat_min_ff (x : UInt32) : (min x 0xFF).toNat = min x.toNat 255 := by
  rw [show min x 0xFF = if x ≤ 0xFF then x else 0xFF from rfl]
  split
  · rename_i h
    exact (Nat.min_eq_left (UInt32.le_iff_toNat_le.mp h)).symm
  · rename_i h
    rw [UInt32.le_iff_toNat_le] at h
    exact (Nat.min_eq_right (by simpa using Nat.le_of_not_le h)).symm

theorem toNat_over (inv s d : UInt8) :
    (s.toUInt32 + (d.toUInt32 * inv.toUInt32 + 127) / 255).toNat =
      s.toNat + (d.toNat * inv.toNat + 127) / 255 := by
  have hmul := mul_toNat_le d inv
  have hs := s.toNat_lt
  have hprod : (d.toUInt32 * inv.toUInt32).toNat = d.toNat * inv.toNat := by
    rw [UInt32.toNat_mul, UInt8.toNat_toUInt32, UInt8.toNat_toUInt32]
    exact Nat.mod_eq_of_lt (by omega)
  rw [UInt32.toNat_add, UInt32.toNat_div, UInt32.toNat_add, hprod, UInt8.toNat_toUInt32]
  simp only [UInt32.reduceToNat]
  omega

theorem toNat_overByte (inv s d : UInt8) :
    (overByte inv s d).toNat = min (s.toNat + (d.toNat * inv.toNat + 127) / 255) 255 := by
  unfold overByte
  rw [UInt32.toNat_toUInt8, toNat_min_ff, toNat_over]
  omega

/-- Dividing by 255 with shifts. -/
theorem shift_div_255 {x : ℕ} (hx : x ≤ 65152) : (x + x / 2 ^ 8 + 1) / 2 ^ 8 = x / 255 := by
  obtain ⟨q, r, hr, rfl⟩ : ∃ q r, r < 255 ∧ x = 255 * q + r :=
    ⟨x / 255, x % 255, Nat.mod_lt _ (by decide), (Nat.div_add_mod x 255).symm⟩
  rw [Nat.mul_add_div (by decide), Nat.div_eq_of_lt hr]
  rcases Nat.lt_or_ge r q with hlt | hge
  · have hhigh : (255 * q + r) / 2 ^ 8 = q - 1 := by omega
    omega
  · have hhigh : (255 * q + r) / 2 ^ 8 = q := by omega
    omega

/-- The lanes compute SRC_OVER. -/
theorem lane_eq_overByte (inv s d : UInt8) (x : UInt16)
    (hx : x = 127 + d.toUInt16 * inv.toUInt16) :
    (min (((x + x >>> 8 + 1) >>> 8) + s.toUInt16) 0xFF).toUInt8 = overByte inv s d := by
  have hmul := mul_toNat_le d inv
  have hs := s.toNat_lt
  have hprod : x.toNat = 127 + d.toNat * inv.toNat := by
    rw [hx, UInt16.toNat_add, UInt16.toNat_mul, UInt8.toNat_toUInt16, UInt8.toNat_toUInt16]
    simp only [UInt16.reduceToNat]
    omega
  have hquot : ((x + x >>> 8 + 1) >>> 8).toNat = (d.toNat * inv.toNat + 127) / 255 := by
    rw [Nat.add_comm (d.toNat * inv.toNat), ← hprod, ← shift_div_255 (by omega),
      UInt16.toNat_shiftRight, UInt16.toNat_add, UInt16.toNat_add, UInt16.toNat_shiftRight]
    simp only [UInt16.reduceToNat, Nat.reduceMod, Nat.shiftRight_eq_div_pow]
    omega
  refine UInt8.toNat_inj.mp ?_
  rw [toNat_overByte, UInt16.toNat_toUInt8]
  have hsum : ((x + x >>> 8 + 1) >>> 8 + s.toUInt16).toNat =
      s.toNat + (d.toNat * inv.toNat + 127) / 255 := by
    rw [UInt16.toNat_add, hquot, UInt8.toNat_toUInt16]
    omega
  rw [show ∀ y : UInt16, min y 0xFF = if y ≤ 0xFF then y else 0xFF from fun _ => rfl]
  split
  · rename_i h
    rw [UInt16.le_iff_toNat_le, hsum] at h
    rw [hsum]
    simp only [UInt16.reduceToNat] at h
    omega
  · rename_i h
    rw [UInt16.le_iff_toNat_le, hsum] at h
    simp only [UInt16.reduceToNat] at h ⊢
    omega

/-- An opaque source replaces the pixel. -/
theorem overByte_zero (s d : UInt8) : overByte 0 s d = s := by
  have hs := s.toNat_lt
  refine UInt8.toNat_inj.mp ?_
  rw [toNat_overByte]
  simp
  omega

/-- A transparent source adds its channel. -/
theorem overByte_ff (s d : UInt8) :
    (overByte 255 s d).toNat = min (s.toNat + d.toNat) 255 := by
  rw [toNat_overByte]
  have : (d.toNat * (255 : UInt8).toNat + 127) / 255 = d.toNat := by
    simp only [UInt8.reduceToNat]
    omega
  rw [this]

theorem overByte_ff_eq_iff (s d : UInt8) : overByte 255 s d = d ↔ s = 0 ∨ d = 255 := by
  have hs := s.toNat_lt
  have hd := d.toNat_lt
  rw [← UInt8.toNat_inj, ← UInt8.toNat_inj, ← UInt8.toNat_inj, overByte_ff]
  simp only [UInt8.reduceToNat]
  omega

/-- SRC_OVER of all four channels, without the branches for transparent and opaque sources. -/
def overWord (s d : UInt32) : UInt32 :=
  word fun c => overByte (255 - byte s 3) (byte s c) (byte d c)

theorem blendPixelOver_transparent {s : UInt32} (ha : byte s 3 = 0) (d : UInt32) :
    blendPixelOver s d = d := by
  simp [blendPixelOver, componentA_eq, ha]

theorem channel_eq (inv s d : UInt8) :
    min (s.toUInt32 + (d.toUInt32 * inv.toUInt32 + 127) / 255) 0xFF =
      (overByte inv s d).toUInt32 := by
  refine UInt32.toNat_inj.mp ?_
  rw [toNat_min_ff, toNat_over, UInt8.toNat_toUInt32, toNat_overByte]

theorem blendPixelOver_eq {s : UInt32} (ha : byte s 3 ≠ 0) (d : UInt32) :
    blendPixelOver s d = overWord s d := by
  have hzero : ¬ componentA s = 0 := by
    rw [componentA_eq]
    exact fun h => ha (UInt8.toUInt32_inj.mp h)
  unfold blendPixelOver
  dsimp only
  rw [if_neg hzero]
  split
  · rename_i hff
    rw [componentA_eq] at hff
    have hfourcc : byte s 3 = 255 := UInt8.toUInt32_inj.mp hff
    refine eq_of_byte fun c => ?_
    rw [overWord, byte_word, hfourcc]
    exact (overByte_zero _ _).symm
  · have hinv : 255 - (byte s 3).toUInt32 = (255 - byte s 3).toUInt32 := by
      have hle := (byte s 3).toNat_lt
      refine UInt32.toNat_inj.mp ?_
      rw [UInt8.toNat_toUInt32, UInt8.toNat_sub_of_le _ _ (UInt8.le_iff_toNat_le.mpr (by
        simp only [UInt8.reduceToNat]; omega)), UInt32.toNat_sub_of_le _ _
        (UInt32.le_iff_toNat_le.mpr
          (by simp only [UInt8.toNat_toUInt32, UInt32.reduceToNat]; omega))]
      simp
    simp only [componentA_eq, componentR_eq, componentG_eq, componentB_eq, hinv, channel_eq]
    exact packArgb_eq_word fun c => overByte (255 - byte s 3) (byte s c) (byte d c)

/-- A transparent source pixel that has no colour, or none that shows on the pixel under it. -/
def Untinted (s d : UInt32) : Prop :=
  byte s 3 = 0 → ∀ c : Fin 4, c ≠ 3 → byte s c = 0 ∨ byte d c = 255

instance (s d : UInt32) : Decidable (Untinted s d) :=
  inferInstanceAs (Decidable (_ → ∀ c : Fin 4, c ≠ 3 → _))

/-- The vector code agrees with the scalar one exactly on untinted pixels. -/
theorem overWord_eq_iff (s d : UInt32) : overWord s d = blendPixelOver s d ↔ Untinted s d := by
  by_cases ha : byte s 3 = 0
  · rw [blendPixelOver_transparent ha]
    have hbytes : overWord s d = d ↔ ∀ c, byte s c = 0 ∨ byte d c = 255 := by
      refine ⟨fun h c => ?_, fun h => eq_of_byte fun c => ?_⟩
      · have hc : byte (overWord s d) c = byte d c := by rw [h]
        rw [overWord, byte_word, ha] at hc
        exact (overByte_ff_eq_iff _ _).mp hc
      · rw [overWord, byte_word, ha]
        exact (overByte_ff_eq_iff _ _).mpr (h c)
    rw [hbytes]
    refine ⟨fun h _ c _ => h c, fun h c => ?_⟩
    by_cases hc : c = 3
    · exact .inl (hc ▸ ha)
    · exact h ha c hc
  · exact iff_of_true (blendPixelOver_eq ha d).symm fun h => absurd h ha

theorem byte_opaqueFixUp (opaqueSrc : Bool) (s : UInt32) (c : Fin 4) :
    byte (opaqueFixUp opaqueSrc s) c = if opaqueSrc ∧ c = 3 then 255 else byte s c := by
  unfold opaqueFixUp
  cases opaqueSrc with
  | false => simp
  | true =>
    rw [if_pos rfl, byte_or]
    have hmask : byte 0xFF000000 c = if c = 3 then 255 else 0 := by
      revert c
      decide
    rw [hmask]
    by_cases hc : c = 3
    · rw [if_pos hc, if_pos ⟨rfl, hc⟩]
      exact UInt8.or_neg_one
    · simp [hc]

/-- An opaque source is copied. -/
theorem blendPixelOver_opaque (s d : UInt32) :
    blendPixelOver (opaqueFixUp true s) d = s ||| 0xFF000000 := by
  have ha : byte (opaqueFixUp true s) 3 = 255 := by simp [byte_opaqueFixUp]
  rw [blendPixelOver_eq (by simp [ha]), overWord, ha]
  refine eq_of_byte fun c => ?_
  rw [byte_word]
  exact overByte_zero _ _

/-! ### The routines by pixel -/

theorem neonBlend8_rewrites (src : Row) (force : Bool) (i : ℕ) (dst : Row) :
    Rewrites (fun j d => overWord (opaqueFixUp force (src j)) d) i (i + 8) dst
      (neonBlend8 src force i dst) := by
  intro j
  unfold neonBlend8
  dsimp only
  unfold vst4U8
  split
  · rename_i hj
    have hidx : i + (j - i) = j := by omega
    refine congrArg word (funext fun c => ?_)
    have hload (c : Fin 4) (k : Fin 8) (hk : i + k.val = j) :
        (if force then Function.update (vld4U8 src i) 3 (vdupNU8 0xFF) else vld4U8 src i) c k =
          byte (opaqueFixUp force (src j)) c := by
      rw [byte_opaqueFixUp]
      cases force with
      | false => simp [vld4U8, hk]
      | true => by_cases hc : c = 3 <;> simp [Function.update, hc, vld4U8, hk, vdupNU8]
    simp only [vqmovnU16, vaddqU16, div255, vshrqNU16, vdupqNU16, vmlalU8, vmovlU8, vsubU8]
    rw [hload c _ hidx, hload 3 _ hidx, vld4U8, hidx]
    exact lane_eq_overByte _ _ _ _ rfl
  · rfl

theorem copy4_rewrites (src : Row) (i : ℕ) (dst : Row) :
    Rewrites (fun j _ => src j ||| 0xFF000000) i (i + 4) dst
      (vst1qU32 i (vorrqU32 (vld1qU32 src i) (vdupqNU32 0xFF000000)) dst) := by
  intro j
  unfold vst1qU32
  split
  · rename_i hj
    have hidx : i + (j - i) = j := by omega
    simp only [vorrqU32, vld1qU32, vdupqNU32, hidx]
  · rfl

/-- `neon_row_pure_opaque` copies every pixel, opaque. -/
theorem neonRowPureOpaque_rewrites (dst src : Row) (n : ℕ) :
    Rewrites (fun j _ => src j ||| 0xFF000000) 0 n dst (neonRowPureOpaque dst src n) := by
  have hsixteen (i : ℕ) (dst : Row) := (copy4_rewrites src i dst).trans
    ((copy4_rewrites src (i + 4) _).trans ((copy4_rewrites src (i + 8) _).trans
      (copy4_rewrites src (i + 12) _) (by omega) (by omega)) (by omega) (by omega))
      (by omega) (by omega)
  obtain ⟨hwide, -, hi⟩ := (Rewrites.refl _ 0 dst).whileFits (Nat.le_refl 0) (Nat.zero_le n)
    (by decide : 0 < 16) fun i _ => hsixteen i
  obtain ⟨hquad, -, hj⟩ := hwide.whileFits (Nat.zero_le _) hi (by decide : 0 < 4)
    fun i _ => copy4_rewrites src i
  exact hquad.whileFits_one (Nat.zero_le _) hj
    fun i _ => Rewrites.update (fun j _ => src j ||| 0xFF000000) i

/-- `neon_row_blend_over`: whole groups of eight by lanes, the rest by pixel. -/
theorem neonRowBlendOver_rewrites (dst src : Row) (n : ℕ) (force : Bool) :
    Rewrites (fun j d => if j < 8 * (n / 8) then overWord (opaqueFixUp force (src j)) d
      else blendPixelOver (opaqueFixUp force (src j)) d) 0 n dst
      (neonRowBlendOver dst src n force) := by
  obtain ⟨hstop, hbody⟩ := whileFits_spec (n := n) (by decide : 0 < 8)
    (fun i _ => neonBlend8_rewrites src force i) 0 dst
  have hle : 8 * ((n - 0) / 8) ≤ n - 0 := Nat.mul_div_le _ _
  rw [← hstop] at hbody
  -- the tail starts where the last whole group ends
  have htail := (Rewrites.refl (fun j d => blendPixelOver (opaqueFixUp force (src j)) d)
    (whileFits 8 n (neonBlend8 src force) 0 dst).1
    (whileFits 8 n (neonBlend8 src force) 0 dst).2).whileFits_one (n := n) (Nat.le_refl _)
    (by omega) fun i _ => Rewrites.update _ i
  refine (hbody.congr ?_).trans (htail.congr ?_) (Nat.zero_le _) (by omega)
  · intro j _ hj d
    exact (if_pos (by omega)).symm
  · intro j hj _ d
    exact (if_neg (by omega)).symm

theorem rowLoop_rewrites (n : ℕ) (pixel : ℕ → UInt32 → UInt32) (dst : Row) :
    Rewrites pixel 0 n dst (rowLoop n pixel dst) :=
  (Rewrites.refl pixel 0 dst).whileFits_one (Nat.le_refl 0) (Nat.zero_le n)
    fun i _ => Rewrites.update pixel i

theorem atOffset_rewrites {f : ℕ → UInt32 → UInt32} {base n : ℕ} {routine : Row → Row} {row : Row}
    (h : Rewrites f 0 n (fun dx => row (base + dx)) (routine fun dx => row (base + dx))) :
    Rewrites (fun x => f (x - base)) base (base + n) row (atOffset base routine row) := by
  intro x
  unfold atOffset
  by_cases hx : x < base
  · rw [if_pos hx, if_neg (by omega)]
  · have hback : base + (x - base) = x := by omega
    rw [if_neg hx, h]
    dsimp only
    rw [hback]
    by_cases hn : x < base + n
    · rw [if_pos (by omega), if_pos (by omega)]
    · rw [if_neg (by omega), if_neg (by omega)]

/-! ### One row -/

/-- What `blend_row` makes of the pixel `under` at `x`. -/
def rowPixel (neon noScale : Bool) (src : CompositeSrc) (xr : AxisRange) (srcRow : Row) (x : ℕ)
    (under : UInt32) : UInt32 :=
  let s := srcRow (sampleIndex noScale xr x)
  if src.pureOpaqueCopy then s ||| 0xFF000000
  else if neon ∧ noScale ∧ src.toneMapper.isNone ∧ ¬ src.modulateAlpha ∧
      x - xr.dstStart < 8 * ((xr.dstEnd - xr.dstStart) / 8) then
    overWord (opaqueFixUp (sourceIsOpaque src.drmFourcc) s) under
  else blendPixelOver (src.prepare s) under

theorem sampleIndex_add (noScale : Bool) (r : AxisRange) (d : ℕ) :
    sampleIndex noScale r (r.dstStart + d) = r.srcStart +
      (if noScale then d else mapSrcIndex d (r.dstEnd - r.dstStart) r.srcSpan) := by
  unfold sampleIndex
  rw [Nat.add_sub_cancel_left]

/-- Without tone mapping and plane alpha, a source word is only fixed up. -/
theorem prepare_plain {src : CompositeSrc} (htone : src.toneMapper = none)
    (halpha : src.modulateAlpha = false) (s : UInt32) :
    src.prepare s = opaqueFixUp (sourceIsOpaque src.drmFourcc) s := by
  have hfull : ¬ planeAlpha8 src.planeAlpha < 0xFF := by
    simpa [CompositeSrc.modulateAlpha] using halpha
  simp [CompositeSrc.prepare, htone, hfull]

theorem blendRow_rewrites (neon noScale : Bool) (src : CompositeSrc) (xr : AxisRange)
    (dstRow srcRow : Row) :
    Rewrites (rowPixel neon noScale src xr srcRow) xr.dstStart
      (xr.dstStart + (xr.dstEnd - xr.dstStart)) dstRow
      (blendRow neon noScale src xr dstRow srcRow) := by
  unfold blendRow
  refine Rewrites.congr (atOffset_rewrites (f := fun dx =>
    rowPixel neon noScale src xr srcRow (xr.dstStart + dx)) ?_) fun x hx _ under => by
      rw [show xr.dstStart + (x - xr.dstStart) = x by omega]
  generalize hn : xr.dstEnd - xr.dstStart = n
  have hpixel (dx : ℕ) (under : UInt32) :
      rowPixel neon noScale src xr srcRow (xr.dstStart + dx) under =
        if src.pureOpaqueCopy then
          srcRow (xr.srcStart + if noScale then dx else mapSrcIndex dx n xr.srcSpan) ||| 0xFF000000
        else if neon ∧ noScale ∧ src.toneMapper.isNone ∧ ¬ src.modulateAlpha ∧ dx < 8 * (n / 8) then
          overWord (opaqueFixUp (sourceIsOpaque src.drmFourcc)
            (srcRow (xr.srcStart + if noScale then dx else mapSrcIndex dx n xr.srcSpan))) under
        else blendPixelOver (src.prepare
          (srcRow (xr.srcStart + if noScale then dx else mapSrcIndex dx n xr.srcSpan))) under := by
    simp only [rowPixel, sampleIndex_add, Nat.add_sub_cancel_left, hn]
  refine Rewrites.congr ?_ fun dx _ _ under => (hpixel dx under).symm
  by_cases hcopy : src.pureOpaqueCopy
  · simp only [hcopy, if_true]
    cases noScale with
    | true =>
      simp only [if_true]
      cases neon with
      | true => exact neonRowPureOpaque_rewrites _ _ n
      | false => exact rowLoop_rewrites n _ _
    | false => exact rowLoop_rewrites n _ _
  · simp only [hcopy, Bool.false_eq_true, if_false]
    cases noScale with
    | true =>
      simp only [if_true, true_and]
      by_cases hfast : neon ∧ src.toneMapper.isNone ∧ ¬ src.modulateAlpha
      · obtain ⟨rfl, htone, halpha⟩ := hfast
        simp only [htone, halpha, Bool.not_false, Bool.and_true, if_true, true_and,
          not_false_eq_true, Bool.false_eq_true]
        simp only [prepare_plain (Option.isNone_iff_eq_none.mp htone) (by simpa using halpha)]
        exact neonRowBlendOver_rewrites _ _ n _
      · rw [if_neg (by simpa [and_assoc] using hfast)]
        refine (rowLoop_rewrites n _ _).congr fun dx _ _ under => (if_neg ?_).symm
        exact fun h => hfast ⟨h.1, h.2.1, h.2.2.1⟩
    | false =>
      simp only [Bool.false_eq_true, false_and, and_false, if_false]
      exact rowLoop_rewrites n _ _

/-! ### The fast paths against the plain one -/

/-- Every pixel of the row fixed up and blended by itself. -/
def plainPixels (opaqueSrc : Bool) (src : Row) (n : ℕ) (dst : Row) : Row :=
  rowLoop n (fun dx under => blendPixelOver (opaqueFixUp opaqueSrc (src dx)) under) dst

theorem neonRowPureOpaque_eq (dst src : Row) (n : ℕ) :
    neonRowPureOpaque dst src n = plainPixels true src n dst := by
  refine (neonRowPureOpaque_rewrites dst src n).ext ((rowLoop_rewrites n _ dst).congr ?_)
  intro dx _ _ under
  exact blendPixelOver_opaque (src dx) under

theorem untinted_opaqueFixUp (s d : UInt32) : Untinted (opaqueFixUp true s) d := by
  intro ha
  simp [byte_opaqueFixUp] at ha

theorem neonRowBlendOver_eq_iff (dst src : Row) (n : ℕ) (force : Bool) :
    neonRowBlendOver dst src n force = plainPixels force src n dst ↔
      (force = false → ∀ dx < 8 * (n / 8), Untinted (src dx) (dst dx)) := by
  unfold plainPixels
  rw [(neonRowBlendOver_rewrites dst src n force).eq_iff (rowLoop_rewrites n _ dst)]
  have hle : 8 * (n / 8) ≤ n := Nat.mul_div_le n 8
  cases force with
  | true =>
    refine iff_of_true (fun dx _ _ => ?_) (by simp)
    split
    · exact (overWord_eq_iff _ _).mpr (untinted_opaqueFixUp _ _)
    · rfl
  | false =>
    refine ⟨fun h _ dx hdx => (overWord_eq_iff _ _).mp ?_, fun h dx _ _ => ?_⟩
    · simpa [hdx, opaqueFixUp] using h dx (Nat.zero_le dx) (by omega)
    · split
      · rename_i hdx
        exact (overWord_eq_iff _ _).mpr (h rfl dx hdx)
      · rfl

/-- The NEON build gives the row of an unscaled, untouched source with alpha to
`neon_row_blend_over`. -/
def CompositeSrc.takesVectorBlend (src : CompositeSrc) : Bool :=
  src.toneMapper.isNone && !src.modulateAlpha && !sourceIsOpaque src.drmFourcc

theorem plainRow_rewrites (noScale : Bool) (src : CompositeSrc) (xr : AxisRange)
    (dstRow srcRow : Row) :
    Rewrites (fun x under => blendPixelOver (src.prepare (srcRow (sampleIndex noScale xr x))) under)
      xr.dstStart (xr.dstStart + (xr.dstEnd - xr.dstStart)) dstRow
      (plainRow noScale src xr dstRow srcRow) := by
  intro x
  unfold plainRow
  by_cases hx : xr.dstStart ≤ x ∧ x < xr.dstEnd
  · rw [if_pos hx, if_pos (by omega)]
  · rw [if_neg hx, if_neg (by omega)]

theorem blendRow_eq_iff (neon noScale : Bool) (src : CompositeSrc) (xr : AxisRange)
    (dstRow srcRow : Row) :
    blendRow neon noScale src xr dstRow srcRow = plainRow noScale src xr dstRow srcRow ↔
      (neon = true → noScale = true → src.takesVectorBlend = true →
        ∀ dx < 8 * ((xr.dstEnd - xr.dstStart) / 8),
          Untinted (srcRow (xr.srcStart + dx)) (dstRow (xr.dstStart + dx))) := by
  rw [(blendRow_rewrites neon noScale src xr dstRow srcRow).eq_iff
    (plainRow_rewrites noScale src xr dstRow srcRow)]
  generalize hn : xr.dstEnd - xr.dstStart = n
  have hle : 8 * (n / 8) ≤ n := Nat.mul_div_le n 8
  by_cases hvector : neon = true ∧ noScale = true ∧ src.takesVectorBlend = true
  · obtain ⟨rfl, rfl, htakes⟩ := hvector
    obtain ⟨⟨htone, halpha⟩, hfourcc⟩ : (src.toneMapper.isNone = true ∧
        src.modulateAlpha = false) ∧ sourceIsOpaque src.drmFourcc = false := by
      simpa [CompositeSrc.takesVectorBlend] using htakes
    have hcopy : src.pureOpaqueCopy = false := by simp [CompositeSrc.pureOpaqueCopy, hfourcc]
    have hprepare := prepare_plain (Option.isNone_iff_eq_none.mp htone) halpha
    simp only [rowPixel, hn, hcopy, htone, halpha, hfourcc, hprepare, opaqueFixUp, htakes,
      Bool.false_eq_true, if_false, true_and, not_false_eq_true, sampleIndex, if_true,
      forall_const]
    constructor
    · intro h dx hdx
      have hpixel := h (xr.dstStart + dx) (by omega) (by omega)
      rw [Nat.add_sub_cancel_left, if_pos hdx] at hpixel
      exact (overWord_eq_iff _ _).mp hpixel
    · intro h x hx _
      split
      · rename_i hdx
        have huntinted := h (x - xr.dstStart) hdx
        rw [show xr.dstStart + (x - xr.dstStart) = x by omega] at huntinted
        exact (overWord_eq_iff _ _).mpr huntinted
      · rfl
  · refine iff_of_true (fun x _ _ => ?_) (fun h1 h2 h3 => absurd ⟨h1, h2, h3⟩ hvector)
    unfold rowPixel
    dsimp only
    by_cases hcopy : src.pureOpaqueCopy = true
    · obtain ⟨⟨hfourcc, halpha⟩, htone⟩ : (sourceIsOpaque src.drmFourcc = true ∧
          src.modulateAlpha = false) ∧ src.toneMapper.isNone = true := by
        simpa [CompositeSrc.pureOpaqueCopy] using hcopy
      rw [if_pos hcopy, prepare_plain (Option.isNone_iff_eq_none.mp htone) halpha, hfourcc,
        blendPixelOver_opaque]
    · rw [if_neg hcopy, if_neg]
      rintro ⟨hneon, hscale, htone, halpha, -⟩
      have halpha' : src.modulateAlpha = false := by simpa using halpha
      have hfourcc : sourceIsOpaque src.drmFourcc = false := by
        simpa [CompositeSrc.pureOpaqueCopy, htone, halpha'] using hcopy
      exact hvector ⟨hneon, hscale,
        by simp [CompositeSrc.takesVectorBlend, htone, halpha', hfourcc]⟩

/-- The index of the scaled loops is the unscaled one while its product fits 32 bits. -/
theorem mapSrcIndex_unscaled_iff (n : ℕ) : (∀ d < n, mapSrcIndex d n n = d) ↔ n ≤ 2 ^ 16 := by
  have hwrap (d : ℕ) : u32 ((d : ℤ) * n) = d * n % 2 ^ 32 := by
    unfold u32
    rw [← Nat.cast_mul]
    omega
  constructor
  · intro h
    by_contra hn
    -- the last index: its product has wrapped, so the quotient falls short
    have hlast := h (n - 1) (by omega)
    unfold mapSrcIndex at hlast
    rw [if_neg (by omega), hwrap] at hlast
    have hsmall : (n - 1) * n % 2 ^ 32 < 2 ^ 32 := Nat.mod_lt _ (by decide)
    have hlarge : 2 ^ 16 * (2 ^ 16 + 1) ≤ (n - 1) * n := Nat.mul_le_mul (by omega) (by omega)
    have hquot : (n - 1) * n % 2 ^ 32 / n < n - 1 := by
      rw [Nat.div_lt_iff_lt_mul (by omega)]
      omega
    omega
  · intro hn d hd
    unfold mapSrcIndex
    split
    · omega
    · have hfits : d * n < 2 ^ 32 := by
        calc d * n ≤ (2 ^ 16 - 1) * 2 ^ 16 := Nat.mul_le_mul (by omega) hn
          _ < 2 ^ 32 := by decide
      rw [hwrap, Nat.mod_eq_of_lt hfits, Nat.mul_div_cancel _ (by omega)]

/-- The opaque copies agree with the plain path always; the vector blend agrees exactly when no
pixel of its body is tinted; the unscaled loops sample as the scaled ones up to `2 ^ 16` pixels. -/
theorem fastPaths_agree_iff (neon noScale force : Bool) (src : CompositeSrc) (xr : AxisRange)
    (dst s : Row) (n : ℕ) :
    neonRowPureOpaque dst s n = plainPixels true s n dst ∧
    (neonRowBlendOver dst s n force = plainPixels force s n dst ↔
      (force = false → ∀ dx < 8 * (n / 8), Untinted (s dx) (dst dx))) ∧
    (blendRow neon noScale src xr dst s = plainRow noScale src xr dst s ↔
      (neon = true → noScale = true → src.takesVectorBlend = true →
        ∀ dx < 8 * ((xr.dstEnd - xr.dstStart) / 8),
          Untinted (s (xr.srcStart + dx)) (dst (xr.dstStart + dx)))) ∧
    ((∀ d < n, mapSrcIndex d n n = d) ↔ n ≤ 2 ^ 16) :=
  ⟨neonRowPureOpaque_eq dst s n, neonRowBlendOver_eq_iff dst s n force,
    blendRow_eq_iff neon noScale src xr dst s, mapSrcIndex_unscaled_iff n⟩

/-- Eight transparent red pixels on black: the vector code turns the row red. -/
theorem not_fastPaths_agree :
    neonRowBlendOver (fun _ => 0xFF000000) (fun _ => 0x00FF0000) 8 false ≠
        plainPixels false (fun _ => 0x00FF0000) 8 (fun _ => 0xFF000000) ∧
      blendRow true true { drmFourcc := drmFormatArgb8888 } ⟨0, 8, 0, 8⟩ (fun _ => 0xFF000000)
          (fun _ => 0x00FF0000) ≠
        plainRow true { drmFourcc := drmFormatArgb8888 } ⟨0, 8, 0, 8⟩ (fun _ => 0xFF000000)
          (fun _ => 0x00FF0000) := by
  have htinted : ¬ Untinted 0x00FF0000 0xFF000000 := by decide
  refine ⟨fun h => htinted ?_, fun h => htinted ?_⟩
  · exact (neonRowBlendOver_eq_iff _ _ 8 false).mp h rfl 0 (by decide)
  · exact (blendRow_eq_iff true true _ ⟨0, 8, 0, 8⟩ _ _).mp h rfl rfl (by decide) 0 (by decide)

/-! ### The whole destination -/

theorem shade_eq (src : CompositeSrc) (s under : UInt32) :
    src.shade s under = blendPixelOver (src.prepare s) under := by
  unfold CompositeSrc.shade
  dsimp only
  split
  · rename_i hcopy
    obtain ⟨hfourcc, halpha, htone⟩ := hcopy
    rw [prepare_plain (Option.isNone_iff_eq_none.mp htone)
      (by simpa [CompositeSrc.modulateAlpha] using halpha), hfourcc, blendPixelOver_opaque]
    simp
  · rfl

/-- Without NEON the rows are what `blend_into` computes pixel by pixel. -/
theorem blendRangeOn_scalar (dst : Pixmap) (src : CompositeSrc) (pixels : PixelSpan)
    (xr yr : AxisRange) :
    blendRangeOn false dst src pixels xr yr = blendRange dst src pixels xr yr := by
  funext x y
  unfold blendRangeOn blendRange
  dsimp only
  by_cases hy : yr.dstStart ≤ y ∧ y < yr.dstEnd
  · rw [if_pos hy, (blendRow_eq_iff false _ src xr _ _).mpr (by simp)]
    unfold plainRow
    by_cases hx : xr.dstStart ≤ x ∧ x < xr.dstEnd
    · rw [if_pos hx, if_pos ⟨hx.1, hx.2, hy⟩, shade_eq]
    · rw [if_neg hx, if_neg fun h => hx ⟨h.1, h.2.1⟩]
  · rw [if_neg hy, if_neg fun h => hy h.2.2]

/-- With NEON they are the same pixels when no row has a tinted one in its vector body. -/
theorem blendRangeOn_neon (dst : Pixmap) (src : CompositeSrc) (pixels : PixelSpan)
    (xr yr : AxisRange)
    (h : src.takesVectorBlend = true → ∀ y, yr.dstStart ≤ y → y < yr.dstEnd →
      ∀ dx < 8 * ((xr.dstEnd - xr.dstStart) / 8), Untinted
        (pixels.word (sampleIndex true yr y * (src.srcStrideBytes.toNat / 4) + (xr.srcStart + dx)))
        (dst (xr.dstStart + dx) y)) :
    blendRangeOn true dst src pixels xr yr = blendRange dst src pixels xr yr := by
  rw [← blendRangeOn_scalar]
  funext x y
  unfold blendRangeOn
  dsimp only
  by_cases hy : yr.dstStart ≤ y ∧ y < yr.dstEnd
  · rw [if_pos hy, if_pos hy, (blendRow_eq_iff true _ src xr _ _).mpr,
      (blendRow_eq_iff false _ src xr _ _).mpr (by simp)]
    intro _ hscale htakes dx hdx
    simp only [hscale]
    exact h htakes y hy.1 hy.2 dx hdx
  · rw [if_neg hy, if_neg hy]

end DrmCxx.Scene.CompositeCanvas
