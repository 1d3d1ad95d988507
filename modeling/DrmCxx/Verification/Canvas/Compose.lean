import DrmCxx.Verification.Canvas.Flush
import DrmCxx.Verification.Canvas.Sampling
import DrmCxx.Verification.Planes.Trace
import Mathlib.Data.List.Sort

/-!
# The canvas shows what the planes would

A composed layer is painted from its description a second time, beside the geometry that lowering
writes for a plane. Where the crop and the destination fit, both paint the same source pixels, and
layers whose zpos differs are painted in the stacking order.
-/

namespace DrmCxx.Scene

open Planes CompositeCanvas Lib

namespace ComposedLayer

/-! ### Stacking -/

/-- The pixel is in the layer's destination. -/
def Covers (l : ComposedLayer) (x y : ℕ) : Prop :=
  (⟨l.dstRect.x.toInt, l.dstRect.y.toInt, l.dstRect.w.toNat, l.dstRect.h.toNat⟩ :
    DirtyRect).Has x y

/-- What the layer's plane paints on the pixel `under`. -/
def planeDraws (l : ComposedLayer) (x y : ℕ) (under : UInt32) : UInt32 :=
  match planeSample (planeSpans l.desc).1 x, planeSample (planeSpans l.desc).2 y with
  | some sx, some sy => l.src.shade (l.pixels.word (sy * (l.strideBytes.toNat / 4) + sx)) under
  | _, _ => under

/-- Lowest first, ties in scene order. -/
def stackingOrder (layers : List ComposedLayer) : List ComposedLayer :=
  layers.insertionSort fun a b => a.zpos ≤ b.zpos

/-- The layers' planes, painted in stacking order. -/
def painted (layers : List ComposedLayer) (x y : ℕ) : UInt32 :=
  (stackingOrder layers).foldl (fun under l => l.planeDraws x y under) 0

/-! ### Layers the canvas samples as their plane does -/

/-- The destination meets the canvas. -/
def Reaches (size : CanvasSize) (l : ComposedLayer) : Prop :=
  (l.dstRect.x.toInt < size.width ∧ 0 < l.dstRect.x.toInt + l.dstRect.w.toNat ∧
      0 < l.dstRect.w.toNat) ∧
    l.dstRect.y.toInt < size.height ∧ 0 < l.dstRect.y.toInt + l.dstRect.h.toNat ∧
      0 < l.dstRect.h.toNat

/-- The columns of the source that lowering shows on the plane, in 16.16. -/
def xSpan (l : ComposedLayer) : ℕ × ℕ :=
  srcSpan l.desc.display.srcRect.x l.desc.display.srcRect.w l.desc.format.width.toUInt32
    (l.desc.display.srcRectFixed.map fun f => (f.x, f.w))

/-- The rows. -/
def ySpan (l : ComposedLayer) : ℕ × ℕ :=
  srcSpan l.desc.display.srcRect.y l.desc.display.srcRect.h l.desc.format.height.toUInt32
    (l.desc.display.srcRectFixed.map fun f => (f.y, f.h))

/-- The visible columns of the destination. -/
def columns (size : CanvasSize) (l : ComposedLayer) : ℕ :=
  visibleLen l.dstRect.x.toInt l.dstRect.w.toNat size.width

def rows (size : CanvasSize) (l : ComposedLayer) : ℕ :=
  visibleLen l.dstRect.y.toInt l.dstRect.h.toNat size.height

/-- The columns of the canvas's crop that lie in the buffer. -/
def srcColumns (l : ComposedLayer) : ℕ :=
  visibleLen l.srcRect.x.toInt l.srcRect.w.toNat l.desc.format.width.toUInt32.toNat

def srcRows (l : ComposedLayer) : ℕ :=
  visibleLen l.srcRect.y.toInt l.srcRect.h.toNat l.desc.format.height.toUInt32.toNat

/-- The columns the canvas blends. -/
def xAxis (size : CanvasSize) (l : ComposedLayer) : AxisRange :=
  visibleAxis l.dstRect.x.toInt l.dstRect.w.toNat size.width l.srcRect.x.toInt
    l.srcRect.w.toNat l.desc.format.width.toUInt32.toNat

def yAxis (size : CanvasSize) (l : ComposedLayer) : AxisRange :=
  visibleAxis l.dstRect.y.toInt l.dstRect.h.toNat size.height l.srcRect.y.toInt
    l.srcRect.h.toNat l.desc.format.height.toUInt32.toNat

/-- What is left of the canvas's crop samples as the plane's span on both axes, without scaling or
with indices that fit 32 bits. -/
structure Fits (size : CanvasSize) (l : ComposedLayer) : Prop where
  x : AxisFits l.dstRect.x.toInt l.dstRect.w.toNat size.width l.srcRect.x.toInt
    l.srcRect.w.toNat l.desc.format.width.toUInt32.toNat l.xSpan
  y : AxisFits l.dstRect.y.toInt l.dstRect.h.toNat size.height l.srcRect.y.toInt
    l.srcRect.h.toNat l.desc.format.height.toUInt32.toNat l.ySpan
  product : l.srcColumns = l.columns size ∧ l.srcRows = l.rows size ∨
    (l.columns size - 1) * l.srcColumns < 2 ^ 32 ∧ (l.rows size - 1) * l.srcRows < 2 ^ 32

variable {size : CanvasSize} {l : ComposedLayer} {x y : ℕ}

theorem reaches_of_covers (hx : x < size.width) (hy : y < size.height) (h : l.Covers x y) :
    l.Reaches size := by
  unfold Covers DirtyRect.Has at h
  unfold Reaches
  dsimp only at h
  omega

theorem clipApplies_desc (l : ComposedLayer) :
    clipApplies l.desc.display.rotation l.desc.format.drmFourcc.toUInt32 = true := by
  have hsupported := l.supported
  unfold formatSupported at hsupported
  have hformat : chromaSubsampled l.desc.format.drmFourcc.toUInt32 = false := by
    rcases (by simpa using hsupported :
      l.desc.format.drmFourcc.toUInt32 = drmFormatArgb8888 ∨
        l.desc.format.drmFourcc.toUInt32 = drmFormatXrgb8888) with h | h <;>
      rw [h] <;> decide
  unfold clipApplies
  rw [hformat]
  rcases l.unrotated with h | h <;> simp [h]

/-- The geometry lowering writes for the layer. -/
theorem planeSpans_eq (l : ComposedLayer) :
    planeSpans l.desc =
      (clipLeading ⟨l.dstRect.x.toInt, l.dstRect.w.toNat, l.xSpan.1, l.xSpan.2⟩,
        clipLeading ⟨l.dstRect.y.toInt, l.dstRect.h.toNat, l.ySpan.1, l.ySpan.2⟩) := by
  unfold planeSpans
  rw [if_pos l.clipApplies_desc]
  rfl

/-- A layer paints nothing outside its destination, on the canvas and on its plane. -/
theorem planeDraws_outside (h : ¬ l.Covers x y) (under : UInt32) :
    l.planeDraws x y under = under := by
  unfold planeDraws
  rw [planeSpans_eq]
  by_cases hx : l.dstRect.x.toInt ≤ x ∧ (x : ℤ) < l.dstRect.x.toInt + l.dstRect.w.toNat
  · have hy : planeSample (clipLeading ⟨l.dstRect.y.toInt, l.dstRect.h.toNat, l.ySpan.1,
        l.ySpan.2⟩) y = none := by
      rw [planeSample_clipLeading_eq_none]
      exact fun hy => h ⟨hx.1, hx.2, hy.1, hy.2⟩
    rw [hy]
    cases planeSample (clipLeading ⟨l.dstRect.x.toInt, l.dstRect.w.toNat, l.xSpan.1,
      l.xSpan.2⟩) x <;> rfl
  · rw [planeSample_clipLeading_eq_none.2 hx]

theorem readable_src (l : ComposedLayer) : l.src.readable = some l.pixels := by
  unfold CompositeSrc.readable
  simpa [src, LayerDesc.compositeSrc, l.supported, l.aligned] using ⟨l.stride_ok, l.size_ok⟩

/-- Inside a fitting layer's destination, the canvas paints what the plane does. -/
theorem blendInto_covered (h : l.Fits size) (hclip : l.dstRect.Clippable) (hx : x < size.width)
    (hy : y < size.height) (hcovers : l.Covers x y) (dst : Pixmap) :
    blendInto dst size.width size.height l.src l.srcRect l.dstRect x y =
      l.planeDraws x y (dst x y) := by
  unfold Covers DirtyRect.Has at hcovers
  dsimp only at hcovers
  obtain ⟨hcx, hcx', hcy, hcy'⟩ := hcovers
  have hwidth := size.width_lt
  have hstride := l.stride_ok
  have hstrideLt := l.strideBytes.toNat_lt
  have hcolumns : x < l.dstRect.x.toInt.toNat + l.columns size := by
    unfold columns visibleLen
    omega
  have hrows : y < l.dstRect.y.toInt.toNat + l.rows size := by
    unfold rows visibleLen
    omega
  have hxr := clipAxis_visible ⟨hclip.1, l.dstRect.x.toInt_lt⟩ (by omega)
    ⟨h.x.crop_start, l.srcRect.x.toInt_lt⟩ (by omega)
    (show 0 < l.columns size by omega) h.x.crop_visible
  have hyr := clipAxis_visible ⟨hclip.2, l.dstRect.y.toInt_lt⟩ size.height_lt
    ⟨h.y.crop_start, l.srcRect.y.toInt_lt⟩ l.height_lt (show 0 < l.rows size by omega)
    h.y.crop_visible
  have haxes : blendAxes size.width size.height l.src l.srcRect l.dstRect =
      some (l.xAxis size, l.yAxis size) := by
    unfold blendAxes
    simp only [src, LayerDesc.compositeSrc, hxr, hyr, Option.bind_eq_bind, Option.bind_some,
      Option.pure_def]
    rfl
  -- without scaling on both axes the canvas takes the path without products
  have hunscaled : ((l.xAxis size).srcSpan = (l.xAxis size).dstEnd - (l.xAxis size).dstStart ∧
      (l.yAxis size).srcSpan = (l.yAxis size).dstEnd - (l.yAxis size).dstStart) ↔
        l.srcColumns = l.columns size ∧ l.srcRows = l.rows size :=
    iff_of_eq (congrArg₂ And (congrArg _ (Nat.add_sub_cancel_left _ _))
      (congrArg _ (Nat.add_sub_cancel_left _ _)))
  have hsx := sampleIndex_of_fits h.x ⟨hcx, hcx'⟩ hx
    (fun hno => (hunscaled.mp (of_decide_eq_true hno)).1)
    fun hno => (h.product.resolve_left (mt hunscaled.mpr (of_decide_eq_false hno))).1
  have hsy := sampleIndex_of_fits h.y ⟨hcy, hcy'⟩ hy
    (fun hno => (hunscaled.mp (of_decide_eq_true hno)).2)
    fun hno => (h.product.resolve_left (mt hunscaled.mpr (of_decide_eq_false hno))).2
  unfold blendInto planeDraws
  rw [readable_src, haxes, planeSpans_eq]
  dsimp only
  rw [hsx, hsy]
  exact if_pos ⟨Int.toNat_le.mpr hcx, hcolumns, Int.toNat_le.mpr hcy, hrows⟩

/-- The condition on one layer: its left and upper edges can be negated, and it fits if it
reaches the canvas. -/
def Exact (size : CanvasSize) (l : ComposedLayer) : Prop :=
  l.dstRect.Clippable ∧ (l.Reaches size → l.Fits size)

theorem blendInto_eq_planeDraws (h : l.Exact size) (hx : x < size.width) (hy : y < size.height)
    (dst : Pixmap) :
    blendInto dst size.width size.height l.src l.srcRect l.dstRect x y =
      l.planeDraws x y (dst x y) := by
  by_cases hcovers : l.Covers x y
  · exact blendInto_covered (h.2 (reaches_of_covers hx hy hcovers)) h.1 hx hy hcovers dst
  · rw [blendInto_outside h.1 hcovers, planeDraws_outside hcovers]

/-! ### Stacking order -/

/-- Two layers whose paint cannot depend on how a tie between them is broken. -/
def TiesApart (size : CanvasSize) (a b : ComposedLayer) : Prop :=
  a.zpos = b.zpos → ∀ x < size.width, ∀ y < size.height, ¬ (a.Covers x y ∧ b.Covers x y)

theorem TiesApart.symm {a b : ComposedLayer} (h : TiesApart size a b) : TiesApart size b a :=
  fun heq x hx y hy hboth => h heq.symm x hx y hy hboth.symm

instance (l : ComposedLayer) (x y : ℕ) : Decidable (l.Covers x y) :=
  inferInstanceAs (Decidable (DirtyRect.Has _ _ _))

/-- Only the layers that cover a pixel paint it. -/
theorem foldl_planeDraws_filter (layers : List ComposedLayer) (under : UInt32) :
    layers.foldl (fun under l => l.planeDraws x y under) under =
      (layers.filter (·.Covers x y)).foldl (fun under l => l.planeDraws x y under) under := by
  induction layers generalizing under with
  | nil => rfl
  | cons a layers ih =>
    by_cases h : a.Covers x y
    · rw [List.filter_cons_of_pos (by simpa using h), List.foldl_cons, List.foldl_cons, ih]
    · rw [List.filter_cons_of_neg (by simpa using h), List.foldl_cons, planeDraws_outside h, ih]

/-- The layers that cover a pixel are in the same order in every list sorted by zpos. -/
theorem filter_eq_of_sorted {layers as bs : List ComposedLayer}
    (hties : layers.Pairwise (TiesApart size)) (hx : x < size.width) (hy : y < size.height)
    (ha : as.Perm layers) (hb : bs.Perm layers) (has : as.Pairwise fun a b => a.zpos ≤ b.zpos)
    (hbs : bs.Pairwise fun a b => a.zpos ≤ b.zpos) :
    as.filter (·.Covers x y) = bs.filter (·.Covers x y) := by
  have hstrict : ∀ {cs : List ComposedLayer}, cs.Perm layers →
      cs.Pairwise (fun a b => a.zpos ≤ b.zpos) →
        (cs.filter (·.Covers x y)).Pairwise fun a b => a.zpos < b.zpos := by
    intro cs hperm hsorted
    have happart : cs.Pairwise (TiesApart size) := (hperm.pairwise_iff TiesApart.symm).2 hties
    rw [List.pairwise_filter]
    refine (hsorted.and happart).imp fun ⟨hle, hne⟩ hca hcb => lt_of_le_of_ne hle fun heq => ?_
    exact hne heq x hx y hy ⟨by simpa using hca, by simpa using hcb⟩
  refine List.Perm.eq_of_pairwise (fun a b _ _ hab hba => ?_) (hstrict ha has) (hstrict hb hbs)
    ((ha.trans hb.symm).filter _)
  exact absurd (lt_trans hab hba) (lt_irrefl _)

theorem stackingOrder_perm (layers : List ComposedLayer) : (stackingOrder layers).Perm layers :=
  List.perm_insertionSort _ layers

theorem stackingOrder_sorted (layers : List ComposedLayer) :
    (stackingOrder layers).Pairwise fun a b => a.zpos ≤ b.zpos := by
  have : Std.Total fun a b : ComposedLayer => a.zpos ≤ b.zpos := ⟨fun a b => le_total _ _⟩
  have : IsTrans ComposedLayer fun a b => a.zpos ≤ b.zpos := ⟨fun _ _ _ => le_trans⟩
  exact List.pairwise_insertionSort _ layers

/-- The order `std::sort` gives, whichever it is among ties. -/
theorem sort_sorted (sort : StdSort) (layers : List ComposedLayer) :
    (sort.sort (fun a b => decide (a.zpos < b.zpos)) layers).Pairwise
      fun a b => a.zpos ≤ b.zpos := by
  refine (sort.sorted (fun a b : ComposedLayer => decide (a.zpos < b.zpos))
    (fun a b hab => ?_) (fun a b c hab hbc => ?_) layers).imp fun h => ?_
  · simp only [decide_eq_true_eq, decide_eq_false_iff_not] at hab ⊢
    omega
  · simp only [decide_eq_false_iff_not] at hab hbc ⊢
    omega
  · simpa using h

/-! ### The blend loop -/

/-- One blend onto an allocated shadow. -/
theorem blend_of_mapped {c : CompositeCanvas} {buf s : Pixmap}
    (hback : c.buffers c.backIndex = some buf) (hs : c.shadow = some s) (src : CompositeSrc)
    (srcRect dstRect : CompositeRect) :
    c.blend size src srcRect dstRect =
      { c with
        shadow := some (blendInto s size.width size.height src srcRect dstRect)
        currentDirty := c.currentDirty.union (blendDirty dstRect) } := by
  simp [blend, ensureShadow, hback, hs]

/-- The loop paints every pixel as the layers' planes do, in the loop's order. -/
theorem foldl_blend_pixel {layers : List ComposedLayer} (hexact : ∀ l ∈ layers, l.Exact size)
    (hx : x < size.width) (hy : y < size.height) {c : CompositeCanvas} {buf s : Pixmap}
    (hback : c.buffers c.backIndex = some buf) (hs : c.shadow = some s) :
    (layers.foldl (fun c l => c.blend size l.src l.srcRect l.dstRect) c).shadowPixels x y =
      layers.foldl (fun under l => l.planeDraws x y under) (s x y) := by
  induction layers generalizing c s with
  | nil => simp [shadowPixels, hs]
  | cons l layers ih =>
    have hrest := ih (fun l' hl => hexact l' (List.mem_cons_of_mem _ hl))
      (c := c.blend size l.src l.srcRect l.dstRect) (by rwa [blend_of_mapped hback hs])
      (by rw [blend_of_mapped hback hs])
    rw [List.foldl_cons, List.foldl_cons, hrest,
      blendInto_eq_planeDraws (hexact l List.mem_cons_self) hx hy]

/-- Composing the layers gives every canvas pixel what their planes would show, painted in
stacking order. -/
def ShowsPlanes (sort : StdSort) (size : CanvasSize) (c : CompositeCanvas)
    (layers : List ComposedLayer) : Prop :=
  ∀ x < size.width, ∀ y < size.height,
    (composeUnassigned sort size c layers).shadowPixels x y = painted layers x y

/-- A canvas of four pixels in a row. -/
def stripCanvas : CanvasSize :=
  { CompositeCanvas.smallCanvas with
    width := 4
    width_pos := by decide
    width_lt := by decide }

/-- A buffer of one red and one green pixel, shown as `display` says. -/
def twoPixels (display : DisplayParams)
    (unrotated : display.rotation = 0 ∨ display.rotation = rotate0) : ComposedLayer where
  desc := { display, format := ⟨drmFormatXrgb8888.toNat, 0, 2, 1⟩ }
  pixels := { word := fun i => if i = 0 then 0xFFFF0000 else 0xFF00FF00, size := 8 }
  strideBytes := 8
  supported := (by decide : formatSupported drmFormatXrgb8888.toNat.toUInt32 = true)
  unrotated := unrotated
  height_lt := (by decide : (1 : ℕ).toUInt32.toNat < 2 ^ 31)
  stride_ok := (by decide : (2 : ℕ).toUInt32.toNat * 4 ≤ (8 : UInt32).toNat)
  size_ok := (by decide : (1 : ℕ).toUInt32.toNat * (8 : UInt32).toNat ≤ 8)
  aligned := rfl

/-- Sorts ties last first, as a `std::sort` may. -/
def reversingSort : StdSort where
  sort lt l := Controller.stdSort.sort lt l.reverse
  perm lt l := (Controller.stdSort.perm lt l.reverse).trans (List.reverse_perm l)
  sorted lt asymm trans l := Controller.stdSort.sorted lt asymm trans l.reverse

end ComposedLayer

end DrmCxx.Scene
