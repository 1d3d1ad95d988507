import DrmCxx.Scene.V4l2PlaneLayout
import Mathlib.Order.CompletePartialOrder
import Mathlib.Order.Interval.Set.Disjoint
import Mathlib.Tactic.Linarith

/-!
# The planes of an imported frame

A YUV frame in one V4L2 plane is cut into DRM planes that follow each other without a gap, each as
long as its rows, and every number fits the 32 bits it is handed over in.
-/

namespace DrmCxx.Scene

/-! ### YUV frames -/

/-- The planes of a YUV frame: luma, and `chromaPlanes` of `components` interleaved components,
subsampled by `hsub` and `vsub`. -/
structure YuvShape where
  hsub : ℕ
  vsub : ℕ
  chromaPlanes : ℕ
  components : ℕ
  deriving DecidableEq, Repr

def yuvShape (fourcc : UInt32) : Option YuvShape :=
  if fourcc ∈ [drmFormatNv12, drmFormatP010, drmFormatP012, drmFormatP016] then some ⟨2, 2, 1, 2⟩
  else if fourcc ∈ [drmFormatNv16, drmFormatNv61] then some ⟨2, 1, 1, 2⟩
  else if fourcc ∈ [drmFormatNv24, drmFormatNv42] then some ⟨1, 1, 1, 2⟩
  else if fourcc ∈ [drmFormatYuv420, drmFormatYvu420] then some ⟨2, 2, 2, 1⟩
  else if fourcc ∈ [drmFormatYuv422, drmFormatYvu422] then some ⟨2, 1, 2, 1⟩
  else if fourcc ∈ [drmFormatYuv444, drmFormatYvu444] then some ⟨1, 1, 2, 1⟩
  else none

/-- The rows of a plane; a last chroma row may be half used. -/
def YuvShape.rows (s : YuvShape) (h : ℕ) (i : Fin 4) : ℕ :=
  if i = 0 then h else (h + s.vsub - 1) / s.vsub

/-- What an echo may say of the image and its rows. -/
structure WithinCeilings (f : V4l2Format) (isMplane : Bool) : Prop where
  height : 0 < (f.height isMplane).toNat ∧ (f.height isMplane).toNat ≤ 16384
  planes : 0 < (f.numPlanes isMplane).toNat ∧ (f.numPlanes isMplane).toNat ≤ 4
  stride : ∀ i : Fin 4, i.val < (f.numPlanes isMplane).toNat →
    0 < (f.planeBpl isMplane i).toNat ∧ (f.planeBpl isMplane i).toNat ≤ 65536

namespace DrmPlaneLayout

variable (l : DrmPlaneLayout)

/-- Where a plane of so many rows ends. -/
def planeEnd (rows : Fin 4 → ℕ) (i : Fin 4) : ℕ :=
  (l.offset i).toNat + (l.pitch i).toNat * rows i

/-- The bytes of a plane. -/
def extent (rows : Fin 4 → ℕ) (i : Fin 4) : Set ℕ :=
  Set.Ico (l.offset i).toNat (l.planeEnd rows i)

/-- The planes of a frame of that shape, with luma rows of `bpl` bytes, fill the buffer one after
the other. -/
structure Tiles (shape : YuvShape) (bpl h : ℕ) : Prop where
  count : l.numDrmPlanes.toNat = 1 + shape.chromaPlanes
  luma : (l.pitch 0).toNat = bpl
  /-- A row of chroma takes its share of the bytes of a row of luma. -/
  chroma : ∀ i : Fin 4, i ≠ 0 → i.val < l.numDrmPlanes.toNat →
    (l.pitch i).toNat * shape.hsub = shape.components * bpl
  start : l.offset 0 = 0
  contiguous : ∀ i j : Fin 4, j.val = i.val + 1 → j.val < l.numDrmPlanes.toNat →
    (l.offset j).toNat = l.planeEnd (shape.rows h) i
  fits : ∀ i : Fin 4, i.val < l.numDrmPlanes.toNat → l.planeEnd (shape.rows h) i < 2 ^ 32
  disjoint : ∀ i j : Fin 4, i.val < l.numDrmPlanes.toNat → j.val < l.numDrmPlanes.toNat → i ≠ j →
    Disjoint (l.extent (shape.rows h) i) (l.extent (shape.rows h) j)
  sameBuffer : ∀ i : Fin 4, i.val < l.numDrmPlanes.toNat → l.v4l2PlaneIdx i = 0

/-- Planes that follow each other do not overlap. -/
theorem disjoint_of_contiguous {rows : Fin 4 → ℕ} {n : ℕ}
    (h : ∀ i j : Fin 4, j.val = i.val + 1 → j.val < n → (l.offset j).toNat = l.planeEnd rows i) :
    ∀ i j : Fin 4, i.val < n → j.val < n → i ≠ j →
      Disjoint (l.extent rows i) (l.extent rows j) := by
  have hbefore (k : ℕ) (i j : Fin 4) (hij : j.val = i.val + 1 + k) (hj : j.val < n) :
      l.planeEnd rows i ≤ (l.offset j).toNat := by
    induction k generalizing j with
    | zero => exact (h i j hij hj).ge
    | succ k ih =>
      have hlt := j.isLt
      let m : Fin 4 := ⟨i.val + 1 + k, by omega⟩
      have hm : m.val = i.val + 1 + k := rfl
      calc l.planeEnd rows i ≤ (l.offset m).toNat := ih m hm (by omega)
        _ ≤ l.planeEnd rows m := Nat.le_add_right _ _
        _ = (l.offset j).toNat := (h m j (by omega) hj).symm
  have hlt (i j : Fin 4) (hij : i.val < j.val) (hj : j.val < n) :
      Disjoint (l.extent rows i) (l.extent rows j) := by
    have hle := hbefore (j.val - i.val - 1) i j (by omega) hj
    rw [extent, extent, Set.Ico_disjoint_Ico]
    omega
  intro i j hi hj hne
  rcases Nat.lt_or_gt_of_ne (fun heq => hne (Fin.ext heq)) with hij | hji
  · exact hlt i j hij hj
  · exact (hlt j i hji hi).symm

end DrmPlaneLayout

/-! ### The numbers handed over -/

section Words

variable {bpl h : UInt32}

theorem toNat_ySize (hb : bpl.toNat ≤ 65536) (hh : h.toNat ≤ 16384) :
    (bpl.toUInt64 * h.toUInt64).toNat = bpl.toNat * h.toNat ∧ bpl.toNat * h.toNat ≤ 2 ^ 30 := by
  have hle : bpl.toNat * h.toNat ≤ 65536 * 16384 := Nat.mul_le_mul hb hh
  refine ⟨?_, hle⟩
  rw [UInt64.toNat_mul, UInt32.toNat_toUInt64, UInt32.toNat_toUInt64, Nat.mod_eq_of_lt (by omega)]

/-- The words that a planar layout is computed with are exact. -/
theorem toNat_chroma (bpl : UInt32) (s : ChromaSubsampling) (hvsub : 0 < s.vsub.toNat)
    (hv : s.vsub.toNat ≤ 2) (hh : h.toNat ≤ 16384) :
    ((bpl / s.hsub).toUInt64).toNat = bpl.toNat / s.hsub.toNat ∧
      ((h.toUInt64 + s.vsub.toUInt64 - 1) / s.vsub.toUInt64).toNat =
        (h.toNat + s.vsub.toNat - 1) / s.vsub.toNat := by
  refine ⟨by rw [UInt32.toNat_toUInt64, UInt32.toNat_div], ?_⟩
  have hone : (1 : UInt64) ≤ h.toUInt64 + s.vsub.toUInt64 := by
    rw [UInt64.le_iff_toNat_le, UInt64.toNat_add, UInt32.toNat_toUInt64, UInt32.toNat_toUInt64,
      Nat.mod_eq_of_lt (by omega)]
    exact (show 1 ≤ h.toNat + s.vsub.toNat by omega)
  rw [UInt64.toNat_div, UInt64.toNat_sub_of_le _ _ hone, UInt64.toNat_add, UInt32.toNat_toUInt64,
    UInt32.toNat_toUInt64, Nat.mod_eq_of_lt (by omega)]
  rfl

end Words

theorem toNat_toUInt32_of_lt {v : UInt64} (h : v.toNat < 2 ^ 32) : v.toUInt32.toNat = v.toNat := by
  rw [UInt64.toNat_toUInt32, Nat.mod_eq_of_lt h]

/-! ### The layouts -/

section Layouts

variable {shape : YuvShape} {bpl : UInt32} {h : ℕ} (out : DrmPlaneLayout)

theorem tiles_semiplanar {chromaPitch : UInt32} {ySize : UInt64} (hplanes : shape.chromaPlanes = 1)
    (hsize : ySize.toNat = bpl.toNat * h)
    (hchroma : chromaPitch.toNat * shape.hsub = shape.components * bpl.toNat)
    (hfits : bpl.toNat * h + chromaPitch.toNat * shape.rows h 1 < 2 ^ 32) :
    (out.semiplanar bpl chromaPitch ySize).Tiles shape bpl.toNat h := by
  set l := out.semiplanar bpl chromaPitch ySize with hl
  have hoffset : (l.offset 1).toNat = bpl.toNat * h := by
    rw [← hsize]
    exact toNat_toUInt32_of_lt (by omega)
  have hend₀ : l.planeEnd (shape.rows h) 0 = bpl.toNat * h := Nat.zero_add _
  have hend₁ : l.planeEnd (shape.rows h) 1 = bpl.toNat * h + chromaPitch.toNat * shape.rows h 1 :=
    congrArg (· + chromaPitch.toNat * shape.rows h 1) hoffset
  have hcount : l.numDrmPlanes.toNat = 2 := rfl
  have hcontiguous : ∀ i j : Fin 4, j.val = i.val + 1 → j.val < 2 →
      (l.offset j).toNat = l.planeEnd (shape.rows h) i := by
    intro i j hij hj
    obtain rfl : i = 0 := by omega
    obtain rfl : j = 1 := by omega
    rw [hoffset, hend₀]
  refine ⟨by rw [hcount, hplanes], rfl, fun i hi hlt => ?_, rfl, hcontiguous, fun i hlt => ?_,
    l.disjoint_of_contiguous hcontiguous, fun i hlt => ?_⟩
  · obtain rfl : i = 1 := by omega
    exact hchroma
  · rw [hcount] at hlt
    obtain rfl | rfl : i = 0 ∨ i = 1 := by omega
    · rw [hend₀]
      omega
    · rwa [hend₁]
  · rw [hcount] at hlt
    obtain rfl | rfl : i = 0 ∨ i = 1 := by omega
    · rfl
    · rfl

theorem tiles_planar {chromaBpl ySize vOffset : UInt64} (hplanes : shape.chromaPlanes = 2)
    (hsize : ySize.toNat = bpl.toNat * h)
    (hv : vOffset.toNat = bpl.toNat * h + chromaBpl.toNat * shape.rows h 1)
    (hchroma : chromaBpl.toNat * shape.hsub = shape.components * bpl.toNat)
    (hbpl : chromaBpl.toNat < 2 ^ 32)
    (hfits : bpl.toNat * h + chromaBpl.toNat * shape.rows h 1 + chromaBpl.toNat * shape.rows h 1 <
      2 ^ 32) :
    (out.planar bpl chromaBpl ySize vOffset).Tiles shape bpl.toNat h := by
  set l := out.planar bpl chromaBpl ySize vOffset with hl
  have hrows : shape.rows h 2 = shape.rows h 1 := rfl
  have hpitch₁ : (l.pitch 1).toNat = chromaBpl.toNat := toNat_toUInt32_of_lt hbpl
  have hpitch₂ : (l.pitch 2).toNat = chromaBpl.toNat := toNat_toUInt32_of_lt hbpl
  have hoffset₁ : (l.offset 1).toNat = bpl.toNat * h := by
    rw [← hsize]
    exact toNat_toUInt32_of_lt (by omega)
  have hoffset₂ : (l.offset 2).toNat = bpl.toNat * h + chromaBpl.toNat * shape.rows h 1 := by
    rw [← hv]
    exact toNat_toUInt32_of_lt (by omega)
  have hend₀ : l.planeEnd (shape.rows h) 0 = bpl.toNat * h := Nat.zero_add _
  have hend₁ : l.planeEnd (shape.rows h) 1 = bpl.toNat * h + chromaBpl.toNat * shape.rows h 1 := by
    rw [DrmPlaneLayout.planeEnd, hoffset₁, hpitch₁]
  have hend₂ : l.planeEnd (shape.rows h) 2 =
      bpl.toNat * h + chromaBpl.toNat * shape.rows h 1 + chromaBpl.toNat * shape.rows h 1 := by
    rw [DrmPlaneLayout.planeEnd, hoffset₂, hpitch₂, hrows]
  have hcount : l.numDrmPlanes.toNat = 3 := rfl
  have hcontiguous : ∀ i j : Fin 4, j.val = i.val + 1 → j.val < 3 →
      (l.offset j).toNat = l.planeEnd (shape.rows h) i := by
    intro i j hij hj
    obtain ⟨rfl, rfl⟩ | ⟨rfl, rfl⟩ : i = 0 ∧ j = 1 ∨ i = 1 ∧ j = 2 := by omega
    · rw [hoffset₁, hend₀]
    · rw [hoffset₂, hend₁]
  refine ⟨by rw [hcount, hplanes], rfl, fun i hi hlt => ?_, rfl, hcontiguous, fun i hlt => ?_,
    l.disjoint_of_contiguous hcontiguous, fun i hlt => ?_⟩
  · rw [hcount] at hlt
    obtain rfl | rfl : i = 1 ∨ i = 2 := by omega
    · rwa [hpitch₁]
    · rwa [hpitch₂]
  · rw [hcount] at hlt
    obtain rfl | rfl | rfl : i = 0 ∨ i = 1 ∨ i = 2 := by omega
    · rw [hend₀]
      omega
    · rw [hend₁]
      omega
    · rwa [hend₂]
  · rw [hcount] at hlt
    obtain rfl | rfl | rfl : i = 0 ∨ i = 1 ∨ i = 2 := by omega
    · rfl
    · rfl
    · rfl

end Layouts

/-! ### Which echoes are accepted -/

/-- The formats whose frames are cut up. -/
def yuvFourccs : List UInt32 :=
  [drmFormatNv12, drmFormatP010, drmFormatP012, drmFormatP016, drmFormatNv16, drmFormatNv61,
    drmFormatNv24, drmFormatNv42, drmFormatYuv420, drmFormatYvu420, drmFormatYuv422,
    drmFormatYvu422, drmFormatYuv444, drmFormatYvu444]

/-- What the code knows of a format. -/
def KnownAs (fourcc : UInt32) (shape : YuvShape) : Prop :=
  (shape.hsub = 1 ∨ shape.hsub = 2) ∧ (shape.vsub = 1 ∨ shape.vsub = 2) ∧
    if isSemiplanarYuv fourcc then
      shape.chromaPlanes = 1 ∧ shape.components = 2 ∧
        (shape.hsub = 1 ↔ fourcc = drmFormatNv24 ∨ fourcc = drmFormatNv42)
    else
      shape.chromaPlanes = 2 ∧ shape.components = 1 ∧
        (planarYuvSubsampling fourcc).hsub.toNat = shape.hsub ∧
          (planarYuvSubsampling fourcc).vsub.toNat = shape.vsub

instance (fourcc : UInt32) (shape : YuvShape) : Decidable (KnownAs fourcc shape) := by
  unfold KnownAs
  infer_instance

theorem knownAs_of_yuvShape {fourcc : UInt32} {shape : YuvShape}
    (h : yuvShape fourcc = some shape) : KnownAs fourcc shape := by
  have hmem : fourcc ∈ yuvFourccs := by
    by_contra hne
    simp only [yuvFourccs, List.mem_cons, List.not_mem_nil, or_false, not_or] at hne
    simp [yuvShape, hne] at h
  have hknown : (yuvFourccs.all fun f =>
      (yuvShape f).all fun s => decide (KnownAs f s)) = true := by
    decide
  have hall := List.all_eq_true.mp hknown fourcc hmem
  rw [h] at hall
  exact of_decide_eq_true hall

theorem importPlanes_fst (capFmt : V4l2Format) (isMplane : Bool) (is : List (Fin 4))
    (out : DrmPlaneLayout) :
    (importPlanes capFmt isMplane is out).1 = none ∧ (∀ i ∈ is,
        0 < (capFmt.planeBpl isMplane i).toNat ∧ (capFmt.planeBpl isMplane i).toNat ≤ 65536) ∨
      (importPlanes capFmt isMplane is out).1 = some .invalidArgument := by
  induction is generalizing out with
  | nil => exact .inl ⟨rfl, nofun⟩
  | cons i is ih =>
    rw [importPlanes]
    split
    · exact .inr rfl
    · rename_i hbpl
      obtain ⟨hpos, hle⟩ := not_or.mp hbpl
      refine (ih _).imp_left fun h => ⟨h.1, List.forall_mem_cons.mpr ⟨⟨?_, ?_⟩, h.2⟩⟩
      · exact Nat.pos_of_ne_zero fun h0 => hpos (UInt32.toNat_inj.mp h0)
      · exact UInt32.le_iff_toNat_le.mp (UInt32.not_lt.mp hle)

theorem toNat_pos_of_ne_zero {v : UInt32} (h : v ≠ 0) : 0 < v.toNat :=
  Nat.pos_of_ne_zero fun h0 => h (UInt32.toNat_inj.mp h0)

/-- What the function may do: refuse, or lay out an echo within the ceilings. -/
theorem deriveDrmPlaneLayout_cases (capFmt : V4l2Format) (isMplane : Bool) (fourcc : UInt32)
    (out : DrmPlaneLayout) :
    (deriveDrmPlaneLayout capFmt isMplane fourcc out).1 = some .invalidArgument ∨
      (deriveDrmPlaneLayout capFmt isMplane fourcc out).1 = none ∧
        WithinCeilings capFmt isMplane ∧ (capFmt.numPlanes isMplane = 1 →
          let bpl := capFmt.planeBpl isMplane 0
          let h := capFmt.height isMplane
          let s := planarYuvSubsampling fourcc
          if isSemiplanarYuv fourcc then
            (deriveDrmPlaneLayout capFmt isMplane fourcc out).2 =
              out.semiplanar bpl (semiplanarChromaPitch fourcc bpl) (bpl.toUInt64 * h.toUInt64)
          else s.hsub ≠ 0 → ¬ (s.hsub = 2 ∧ bpl &&& 1 ≠ 0) ∧
            (deriveDrmPlaneLayout capFmt isMplane fourcc out).2 =
              out.planar bpl (bpl / s.hsub).toUInt64 (bpl.toUInt64 * h.toUInt64)
                (bpl.toUInt64 * h.toUInt64 + (bpl / s.hsub).toUInt64 *
                  ((h.toUInt64 + s.vsub.toUInt64 - 1) / s.vsub.toUInt64))) := by
  rw [deriveDrmPlaneLayout]
  dsimp only
  split
  · exact .inl rfl
  rename_i hdims
  simp only [not_or] at hdims
  obtain ⟨hh, hhle, hn, hnle⟩ := hdims
  have hheight : 0 < (capFmt.height isMplane).toNat ∧ (capFmt.height isMplane).toNat ≤ 16384 :=
    ⟨toNat_pos_of_ne_zero hh, UInt32.le_iff_toNat_le.mp (UInt32.not_lt.mp hhle)⟩
  have hplanes : 0 < (capFmt.numPlanes isMplane).toNat ∧ (capFmt.numPlanes isMplane).toNat ≤ 4 :=
    ⟨toNat_pos_of_ne_zero hn, UInt32.le_iff_toNat_le.mp (UInt32.not_lt.mp hnle)⟩
  split
  · rename_i hone
    split
    · exact .inl rfl
    rename_i hbpl
    obtain ⟨hpos, hle⟩ := not_or.mp hbpl
    have hceilings : WithinCeilings capFmt isMplane := by
      refine ⟨hheight, hplanes, fun i hi => ?_⟩
      have hcount : (capFmt.numPlanes isMplane).toNat = 1 := by rw [hone.1]; rfl
      obtain rfl : i = 0 := by omega
      exact ⟨toNat_pos_of_ne_zero hpos, UInt32.le_iff_toNat_le.mp (UInt32.not_lt.mp hle)⟩
    split
    · exact .inr ⟨rfl, hceilings, fun _ => rfl⟩
    · split
      · exact .inl rfl
      · rename_i heven
        exact .inr ⟨rfl, hceilings, fun _ _ => ⟨heven, rfl⟩⟩
  · rename_i hone
    rcases importPlanes_fst capFmt isMplane
        ((List.finRange 4).take (capFmt.numPlanes isMplane).toNat)
        { out with numDrmPlanes := capFmt.numPlanes isMplane } with ⟨hnone, hstride⟩ | hbad
    · refine .inr ⟨hnone, ⟨hheight, hplanes, fun i hi => hstride i ?_⟩, fun hcount => ?_⟩
      · rw [List.mem_take_iff_getElem]
        exact ⟨i.val, lt_min hi (by simp), by simp⟩
      · obtain ⟨hsemi, hhsub⟩ := not_or.mp (fun h => hone ⟨hcount, h⟩)
        rw [if_neg hsemi]
        exact fun hne => absurd hne hhsub
    · exact .inl hbad

section Accepted

variable {capFmt : V4l2Format} {isMplane : Bool} {fourcc : UInt32} {shape : YuvShape}

/-- Chroma has no more rows than luma. -/
theorem YuvShape.rows_le (hvsub : shape.vsub = 1 ∨ shape.vsub = 2) {h : ℕ} (hh : 0 < h) :
    shape.rows h 1 ≤ h := by
  rw [YuvShape.rows, if_neg (by decide)]
  rcases hvsub with hv | hv <;> rw [hv] <;> omega

/-- Interleaved chroma takes the bytes of a luma row, or twice as many at full width. -/
theorem toNat_semiplanarChromaPitch {bpl : UInt32} (hb : bpl.toNat ≤ 65536)
    (hhsub : shape.hsub = 1 ∨ shape.hsub = 2)
    (hfull : shape.hsub = 1 ↔ fourcc = drmFormatNv24 ∨ fourcc = drmFormatNv42) :
    (semiplanarChromaPitch fourcc bpl).toNat * shape.hsub = 2 * bpl.toNat := by
  rw [semiplanarChromaPitch]
  rcases hhsub with h | h
  · rw [if_pos (hfull.mp h), h, UInt32.toNat_mul]
    have htwo : (2 : UInt32).toNat = 2 := rfl
    rw [htwo, Nat.mod_eq_of_lt (by omega)]
    omega
  · rw [if_neg fun hf => by have := hfull.mpr hf; omega, h]
    omega

theorem tiles_of_semiplanar (hceilings : WithinCeilings capFmt isMplane)
    (hknown : KnownAs fourcc shape) (hsemi : isSemiplanarYuv fourcc = true)
    (hcount : capFmt.numPlanes isMplane = 1) (out : DrmPlaneLayout) :
    (out.semiplanar (capFmt.planeBpl isMplane 0)
        (semiplanarChromaPitch fourcc (capFmt.planeBpl isMplane 0))
        ((capFmt.planeBpl isMplane 0).toUInt64 * (capFmt.height isMplane).toUInt64)).Tiles shape
      (capFmt.planeBpl isMplane 0).toNat (capFmt.height isMplane).toNat := by
  obtain ⟨hhsub, hvsub, hknown⟩ := hknown
  rw [if_pos hsemi] at hknown
  obtain ⟨hplanes, hcomponents, hfull⟩ := hknown
  obtain ⟨hbpos, hble⟩ := hceilings.stride 0 (by rw [hcount]; decide)
  obtain ⟨hhpos, hhle⟩ := hceilings.height
  obtain ⟨hsize, hsizeLe⟩ := toNat_ySize hble hhle
  have hpitch := toNat_semiplanarChromaPitch hble hhsub hfull
  refine tiles_semiplanar out hplanes hsize (by rw [hpitch, hcomponents]) ?_
  have hle : (semiplanarChromaPitch fourcc (capFmt.planeBpl isMplane 0)).toNat ≤
      2 * (capFmt.planeBpl isMplane 0).toNat := by
    rcases hhsub with h | h <;> rw [h] at hpitch <;> omega
  have hchroma := Nat.mul_le_mul hle (shape.rows_le hvsub hhpos)
  rw [Nat.mul_assoc] at hchroma
  omega

/-- Halved rows have an even number of bytes. -/
theorem mul_hsub_div {bpl hsub : UInt32} (hhsub : hsub.toNat = 1 ∨ hsub.toNat = 2)
    (heven : ¬ (hsub = 2 ∧ bpl &&& 1 ≠ 0)) : bpl.toNat / hsub.toNat * hsub.toNat = bpl.toNat := by
  rcases hhsub with h | h
  · rw [h, Nat.div_one, Nat.mul_one]
  · have hzero : bpl &&& 1 = 0 :=
      not_not.mp fun hne => heven ⟨UInt32.toNat_inj.mp h, hne⟩
    have hmod : bpl.toNat % 2 = 0 := by
      have hand := congrArg UInt32.toNat hzero
      rw [UInt32.toNat_and] at hand
      exact (Nat.and_one_is_mod bpl.toNat).symm.trans hand
    rw [h]
    omega

theorem tiles_of_planar (hceilings : WithinCeilings capFmt isMplane)
    (hknown : KnownAs fourcc shape) (hsemi : ¬ isSemiplanarYuv fourcc = true)
    (hcount : capFmt.numPlanes isMplane = 1) (out : DrmPlaneLayout)
    (heven : ¬ ((planarYuvSubsampling fourcc).hsub = 2 ∧ capFmt.planeBpl isMplane 0 &&& 1 ≠ 0)) :
    let bpl := capFmt.planeBpl isMplane 0
    let h := capFmt.height isMplane
    let s := planarYuvSubsampling fourcc
    (out.planar bpl (bpl / s.hsub).toUInt64 (bpl.toUInt64 * h.toUInt64)
        (bpl.toUInt64 * h.toUInt64 + (bpl / s.hsub).toUInt64 *
          ((h.toUInt64 + s.vsub.toUInt64 - 1) / s.vsub.toUInt64))).Tiles shape bpl.toNat
      h.toNat := by
  intro bpl h s
  obtain ⟨hhsub, hvsub, hknown⟩ := hknown
  rw [if_neg hsemi] at hknown
  obtain ⟨hplanes, hcomponents, hcodeH, hcodeV⟩ := hknown
  obtain ⟨hbpos, hble⟩ : 0 < bpl.toNat ∧ bpl.toNat ≤ 65536 :=
    hceilings.stride 0 (by rw [hcount]; decide)
  obtain ⟨hhpos, hhle⟩ : 0 < h.toNat ∧ h.toNat ≤ 16384 := hceilings.height
  obtain ⟨hsize, hsizeLe⟩ := toNat_ySize hble hhle
  obtain ⟨hbplEq, hrowsEq⟩ := toNat_chroma bpl s
    (by rw [hcodeV]; omega) (by rw [hcodeV]; omega) hhle
  rw [hcodeV] at hrowsEq
  have hrows : shape.rows h.toNat 1 = (h.toNat + shape.vsub - 1) / shape.vsub := rfl
  rw [← hrows] at hrowsEq
  have hbplLe : (bpl / s.hsub).toUInt64.toNat ≤ bpl.toNat := hbplEq ▸ Nat.div_le_self _ _
  have hchroma : (bpl / s.hsub).toUInt64.toNat * shape.rows h.toNat 1 ≤ bpl.toNat * h.toNat :=
    Nat.mul_le_mul hbplLe (shape.rows_le hvsub hhpos)
  refine tiles_planar out hplanes hsize ?_ ?_ (by omega) (by omega)
  · rw [UInt64.toNat_add, hsize, UInt64.toNat_mul, hrowsEq,
      Nat.mod_eq_of_lt (by omega : _ < 2 ^ 64), Nat.mod_eq_of_lt (by omega)]
  · rw [hbplEq, ← hcodeH, hcomponents, Nat.one_mul]
    exact mul_hsub_div (by rw [hcodeH]; exact hhsub) heven

end Accepted

/-- Every echo outside the ceilings is refused. A YUV frame that is accepted in one V4L2 plane is
cut into planes that tile it. -/
theorem deriveDrmPlaneLayout_tiles (capFmt : V4l2Format) (isMplane : Bool) (fourcc : UInt32)
    (out : DrmPlaneLayout) :
    (¬ WithinCeilings capFmt isMplane →
      (deriveDrmPlaneLayout capFmt isMplane fourcc out).1 = some .invalidArgument) ∧
    ∀ shape, yuvShape fourcc = some shape → capFmt.numPlanes isMplane = 1 →
      (deriveDrmPlaneLayout capFmt isMplane fourcc out).1 = none →
        (deriveDrmPlaneLayout capFmt isMplane fourcc out).2.Tiles shape
          (capFmt.planeBpl isMplane 0).toNat (capFmt.height isMplane).toNat := by
  rcases deriveDrmPlaneLayout_cases capFmt isMplane fourcc out with
    hbad | ⟨hnone, hceilings, hlayout⟩
  · refine ⟨fun _ => hbad, fun _ _ _ hnone => ?_⟩
    rw [hbad] at hnone
    cases hnone
  refine ⟨fun hout => absurd hceilings hout, fun shape hshape hcount _ => ?_⟩
  have hknown := knownAs_of_yuvShape hshape
  have hlayout := hlayout hcount
  by_cases hsemi : isSemiplanarYuv fourcc
  · rw [if_pos hsemi] at hlayout
    rw [hlayout]
    exact tiles_of_semiplanar hceilings hknown hsemi hcount out
  · rw [if_neg hsemi] at hlayout
    have hne : (planarYuvSubsampling fourcc).hsub ≠ 0 := fun h0 => by
      obtain ⟨hhsub, -, hcode⟩ := hknown
      rw [if_neg hsemi, h0] at hcode
      have hzero : (0 : UInt32).toNat = shape.hsub := hcode.2.2.1
      have h00 : (0 : UInt32).toNat = 0 := rfl
      omega
    obtain ⟨heven, hlayout⟩ := hlayout hne
    rw [hlayout]
    exact tiles_of_planar hceilings hknown hsemi hcount out heven

/-- An odd height: the chroma planes have half of the rows, rounded up. -/
theorem deriveDrmPlaneLayout_tiles_oddHeight :
    let f : V4l2Format := ⟨⟨3, 4⟩, ⟨0, 0, fun _ => 0⟩⟩
    let r := deriveDrmPlaneLayout f false drmFormatYuv420 {}
    r.1 = none ∧ r.2.offset 2 = 4 * 3 + 2 * 2 ∧ r.2.Tiles ⟨2, 2, 2, 1⟩ 4 3 ∧
      (deriveDrmPlaneLayout ⟨⟨3, 0⟩, ⟨0, 0, fun _ => 0⟩⟩ false drmFormatYuv420 {}).1 =
        some .invalidArgument :=
  ⟨by decide, by decide,
    (deriveDrmPlaneLayout_tiles ⟨⟨3, 4⟩, ⟨0, 0, fun _ => 0⟩⟩ false drmFormatYuv420 {}).2
      ⟨2, 2, 2, 1⟩ (by decide) (by decide) (by decide),
    (deriveDrmPlaneLayout_tiles ⟨⟨3, 0⟩, ⟨0, 0, fun _ => 0⟩⟩ false drmFormatYuv420 {}).1
      fun h => absurd (h.stride 0 (by decide)).1 (by decide)⟩

end DrmCxx.Scene
