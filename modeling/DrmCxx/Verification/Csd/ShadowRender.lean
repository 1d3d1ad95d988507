import DrmCxx.Csd.ShadowCache
import DrmCxx.Verification.Csd.BoxBlur
import Mathlib.Algebra.Order.Ring.Abs
import Mathlib.Tactic.Linarith
import Mathlib.Tactic.Ring

/-!
# What a render gives

A render that is defined gives four bytes for every pixel. It is defined for sizes and themes whose
`int`s fit: the patch has no more pixels than an `int` counts, and the blur no larger sums.
-/

namespace DrmCxx.Csd

open BoxBlur (checkedInt store blur3 intMax Radius checkedInt_of_le)
open Lib (foldlM_range)

/-! ### Sizes -/

theorem checkedInt_of_fits {n : ℤ} (h₀ : -intMax - 1 ≤ n) (h₁ : n ≤ intMax) :
    checkedInt n = some n :=
  if_pos ⟨h₀, h₁⟩

theorem checkedInt_eq_some {n m : ℤ} (h : checkedInt n = some m) :
    n = m ∧ -intMax - 1 ≤ n ∧ n ≤ intMax := by
  unfold checkedInt at h
  obtain ⟨hfits, hm⟩ := Option.ite_none_right_eq_some.mp h
  exact ⟨Option.some.inj hm, hfits⟩

theorem toInt_emod (v : UInt32) : toInt v % 2 ^ 32 = v.toNat := by
  have h : toInt v = (v.toNat : ℤ).bmod (2 ^ 32) := by
    rw [toInt, ← Int32.toInt_toBitVec, UInt32.toBitVec_toInt32, BitVec.toInt_eq_toNat_bmod,
      UInt32.toNat_toBitVec]
  rw [h, Int.bmod_def]
  have := v.toNat_lt
  split <;> omega

theorem toInt_ne_zero {v : UInt32} (hv : v ≠ 0) : toInt v ≠ 0 := by
  intro h
  have hmod := toInt_emod v
  rw [h, Int.zero_emod] at hmod
  exact hv (UInt32.toNat_inj.mp (by exact_mod_cast hmod.symm))

theorem toInt_of_fits {v : UInt32} (hv : (v.toNat : ℤ) ≤ intMax) : toInt v = v.toNat := by
  have hmod := toInt_emod v
  have hlt := v.toInt32.toInt_lt
  have hge := v.toInt32.le_toInt
  unfold toInt at *
  unfold intMax at hv
  omega

theorem toNat_ofInt_emod (n : ℤ) : ((UInt64.ofInt n).toNat : ℤ) = n % 2 ^ 64 := by
  rw [UInt64.ofInt, UInt64.toNat_ofNat']
  omega

theorem toNat_area (w h : ℤ) : ((area w h).toNat : ℤ) = w * h % 2 ^ 64 := by
  rw [area, UInt64.toNat_mul, Int.natCast_emod, Int.natCast_mul, toNat_ofInt_emod,
    toNat_ofInt_emod]
  exact (Int.mul_emod w h (2 ^ 64)).symm

theorem area_eq {w h : ℕ} (hfits : w * h < 2 ^ 64) : (area w h).toNat = w * h := by
  have := toNat_area w h
  rw [Int.emod_eq_of_lt (by positivity) (by exact_mod_cast hfits)] at this
  exact_mod_cast this

theorem zeros_eq_some {n : UInt64} {out : List UInt8} (h : zeros n = some out) :
    out.length = n.toNat := by
  obtain ⟨-, h⟩ := Option.ite_none_right_eq_some.mp h
  exact Option.some.inj h ▸ List.length_replicate

theorem zeros_of_lt {n : UInt64} (h : n.toNat < 2 ^ 63) :
    zeros n = some (List.replicate n.toNat 0) :=
  if_pos h

/-! ### Lengths -/

theorem length_store {dst dst' : List UInt8} {i : ℕ} {v : UInt8} (h : store dst i v = some dst') :
    dst'.length = dst.length := by
  obtain ⟨-, h⟩ := Option.ite_none_right_eq_some.mp h
  exact Option.some.inj h ▸ List.length_set

theorem length_storePixel {out out' : List UInt8} {i : ℕ} {pixel : List UInt8}
    (h : storePixel out i pixel = some out') : out'.length = out.length :=
  Lib.keeps_foldlM (fun l : List UInt8 => l.length = out.length)
    (fun _ _ _ _ hl hstep => (length_store hstep).trans hl) rfl h

/-- The steps of a render that is defined. -/
theorem renderShadow_eq_some {tint : Tint} {key : ShadowKey} {theme : Theme} {px : List UInt8}
    (h : renderShadow tint key theme = some px) :
    ∃ out n, zeros (area (toInt key.width) (toInt key.height) * 4) = some out ∧
      checkedInt (toInt key.width * toInt key.height) = some n ∧ px.length = out.length := by
  simp only [renderShadow, Option.bind_eq_bind, Option.bind_eq_some_iff] at h
  obtain ⟨mask, -, blurred, -, out, hout, n, hn, hloop⟩ := h
  refine ⟨out, n, hout, hn, Lib.keeps_foldlM (fun l : List UInt8 => l.length = out.length)
    (fun i _ l l' hl hstep => ?_) rfl hloop⟩
  obtain ⟨m, -, hstore⟩ := Option.bind_eq_some_iff.mp hstep
  exact (length_storePixel hstore).trans hl

/-- A render of a patch that is not empty is not empty. -/
theorem renderShadow_ne_nil {tint : Tint} {key : ShadowKey} {theme : Theme} {px : List UInt8}
    (hw : key.width ≠ 0) (hh : key.height ≠ 0) (h : renderShadow tint key theme = some px) :
    px.isEmpty = false := by
  obtain ⟨out, n, hout, hn, hlen⟩ := renderShadow_eq_some h
  obtain ⟨-, hlo, hhi⟩ := checkedInt_eq_some hn
  have hne : toInt key.width * toInt key.height ≠ 0 :=
    mul_ne_zero (toInt_ne_zero hw) (toInt_ne_zero hh)
  have harea := toNat_area (toInt key.width) (toInt key.height)
  have hbytes : (area (toInt key.width) (toInt key.height) * 4).toNat ≠ 0 := by
    have hfour : (4 : UInt64).toNat = 4 := rfl
    rw [UInt64.toNat_mul, hfour]
    unfold intMax at hlo hhi
    omega
  rw [List.isEmpty_eq_false_iff, ← List.length_pos_iff, hlen, zeros_eq_some hout]
  exact Nat.pos_of_ne_zero hbytes

/-! ### What fits -/

/-- The half-window of each blur pass. -/
def perPass (theme : Theme) : ℕ := (max 1 ((max 0 theme.shadowExtent.toInt + 2) / 3)).toNat

/-- A patch and a theme whose render stays within its `int`s: the pixels are counted by one, the
blur's sums and positions fit, and a corner radius below 0 is not too far below. -/
structure Renderable (key : ShadowKey) (theme : Theme) : Prop where
  width_pos : 0 < key.width.toNat
  height_pos : 0 < key.height.toNat
  pixels : key.width.toNat * key.height.toNat ≤ intMax
  radius : Radius (perPass theme)
  wide : key.width.toNat + perPass theme ≤ intMax
  tall : key.height.toNat + perPass theme ≤ intMax
  corner_wide : key.width.toNat ≤ intMax + theme.cornerRadius.toInt
  corner_tall : key.height.toNat ≤ intMax + theme.cornerRadius.toInt

/-- A side of the panel and its corners: everything about it fits. -/
structure Side (v start len radius : ℤ) : Prop where
  start_nonneg : 0 ≤ start
  stop : start + len ≤ intMax
  least : -intMax - 1 ≤ radius
  most : radius ≤ len / 2
  corner : start + len - radius ≤ intMax
  first : start ≤ v
  last : v < start + len

namespace Side

variable {v start len radius : ℤ}

theorem insideBand (h : Side v start len radius) :
    insideBand v start len radius =
      some (decide (start + radius ≤ v ∧ v < start + len - radius)) := by
  obtain ⟨hstart, hstop, hleast, hmost, hcorner, hfirst, hlast⟩ := h
  have h₁ := checkedInt_of_fits (n := start + radius) (by omega) (by omega)
  have h₂ := checkedInt_of_fits (n := start + len) (by unfold intMax; omega) hstop
  have h₃ := checkedInt_of_fits (n := start + len - radius) (by unfold intMax; omega) hcorner
  simp only [Csd.insideBand, h₁, h₂, h₃, Option.bind_eq_bind, Option.bind_some]
  split_ifs with hv
  · rw [decide_eq_false (by omega)]
  · simp only [not_lt.mp hv, true_and]

/-- Outside the band, the nearer corner's centre is within the radius. -/
theorem cornerCentre (h : Side v start len radius)
    (hout : ¬ (start + radius ≤ v ∧ v < start + len - radius)) :
    0 ≤ radius ∧ ∃ c, cornerCentre v start len radius = some c ∧ |v - c| ≤ radius := by
  obtain ⟨hstart, hstop, hleast, hmost, hcorner, hfirst, hlast⟩ := h
  refine ⟨by omega, ?_⟩
  have h₁ := checkedInt_of_fits (n := start + radius) (by omega) (by omega)
  have h₂ := checkedInt_of_fits (n := start + len) (by unfold intMax; omega) hstop
  have h₃ := checkedInt_of_fits (n := start + len - 1) (by unfold intMax; omega) (by omega)
  have h₄ := checkedInt_of_fits (n := start + len - 1 - radius) (by unfold intMax; omega)
    (by omega)
  simp only [Csd.cornerCentre, h₁, h₂, h₃, h₄, Option.bind_eq_bind, Option.bind_some]
  split_ifs with hv
  · exact ⟨_, rfl, abs_le.mpr ⟨by omega, by omega⟩⟩
  · exact ⟨_, rfl, abs_le.mpr ⟨by omega, by omega⟩⟩

end Side

theorem isSome_withinRadius {dx dy radius : ℤ} (hx : |dx| ≤ radius) (hy : |dy| ≤ radius)
    (hfits : 2 * (radius * radius) ≤ intMax) : (withinRadius dx dy radius).isSome := by
  have hxx : dx * dx ≤ radius * radius :=
    abs_le_iff_mul_self_le.mp (hx.trans (le_abs_self radius))
  have hyy : dy * dy ≤ radius * radius :=
    abs_le_iff_mul_self_le.mp (hy.trans (le_abs_self radius))
  have hx₀ := mul_self_nonneg dx
  have hy₀ := mul_self_nonneg dy
  have h₁ := checkedInt_of_le (n := dx * dx) hx₀ (by omega)
  have h₂ := checkedInt_of_le (n := dy * dy) hy₀ (by omega)
  have h₃ := checkedInt_of_le (n := dx * dx + dy * dy) (by omega) (by omega)
  have h₄ := checkedInt_of_le (n := radius * radius) (mul_self_nonneg radius) (by
    have := mul_self_nonneg radius
    omega)
  simp only [withinRadius, h₁, h₂, h₃, h₄, Option.bind_eq_bind, Option.bind_some,
    Option.isSome_some]

section Panel

variable {w h extent corner : ℤ}

/-- The corner radius of a panel. -/
def panelRadius (w h extent corner : ℤ) : ℤ :=
  min corner (min ((w - 2 * extent) / 2) ((h - 2 * extent) / 2))

/-- Two squared radii are no more than the patch has pixels. -/
theorem two_mul_sq_panelRadius_le (hw : 2 * extent < w) (hextent : 0 ≤ extent)
    (hpos : 0 ≤ panelRadius w h extent corner) :
    2 * (panelRadius w h extent corner * panelRadius w h extent corner) ≤ w * h := by
  have hleft : 2 * panelRadius w h extent corner ≤ w := by
    unfold panelRadius
    omega
  have hright : 2 * panelRadius w h extent corner ≤ h := by
    unfold panelRadius
    omega
  calc 2 * (panelRadius w h extent corner * panelRadius w h extent corner)
      ≤ 2 * panelRadius w h extent corner * (2 * panelRadius w h extent corner) := by
        nlinarith [mul_self_nonneg (panelRadius w h extent corner)]
    _ ≤ w * h := mul_le_mul hleft hright (by omega) (by omega)

theorem isSome_insideRoundedRect (hw : 2 * extent < w) (hh : 2 * extent < h) (hextent : 0 ≤ extent)
    (hfits : w * h ≤ intMax) (hwide : w ≤ intMax) (htall : h ≤ intMax)
    (hleast : -intMax - 1 ≤ corner) (hcw : w ≤ intMax + corner) (hch : h ≤ intMax + corner)
    (x y : ℤ) :
    (insideRoundedRect x y extent extent (w - 2 * extent) (h - 2 * extent)
      (panelRadius w h extent corner)).isSome := by
  have hright := checkedInt_of_fits (n := extent + (w - 2 * extent)) (by unfold intMax; omega)
    (by omega)
  have hbottom := checkedInt_of_fits (n := extent + (h - 2 * extent)) (by unfold intMax; omega)
    (by omega)
  simp only [insideRoundedRect, hright, hbottom, Option.bind_eq_bind, Option.bind_some]
  split_ifs with hout
  · rfl
  simp only [not_or, not_lt, not_le, ge_iff_le] at hout
  obtain ⟨hx₀, hx₁, hy₀, hy₁⟩ := hout
  have hsideX : Side x extent (w - 2 * extent) (panelRadius w h extent corner) :=
    ⟨hextent, by omega, by unfold panelRadius intMax at *; omega, by unfold panelRadius; omega,
      by unfold panelRadius; omega, hx₀, hx₁⟩
  have hsideY : Side y extent (h - 2 * extent) (panelRadius w h extent corner) :=
    ⟨hextent, by omega, by unfold panelRadius intMax at *; omega, by unfold panelRadius; omega,
      by unfold panelRadius; omega, hy₀, hy₁⟩
  simp only [hsideX.insideBand, hsideY.insideBand, Option.bind_some, decide_eq_true_eq]
  split_ifs with hbandX hbandY
  · rfl
  · rfl
  obtain ⟨hpos, cx, hcx, hdx⟩ := hsideX.cornerCentre hbandX
  obtain ⟨-, cy, hcy, hdy⟩ := hsideY.cornerCentre hbandY
  have hsq := (two_mul_sq_panelRadius_le hw hextent hpos).trans hfits
  have hbound : panelRadius w h extent corner ≤ intMax := by
    unfold panelRadius
    omega
  have hdx' := checkedInt_of_fits (n := x - cx) (by have := abs_le.mp hdx; omega)
    (by have := abs_le.mp hdx; omega)
  have hdy' := checkedInt_of_fits (n := y - cy) (by have := abs_le.mp hdy; omega)
    (by have := abs_le.mp hdy; omega)
  simp only [hcx, hcy, hdx', hdy', Option.bind_some]
  exact isSome_withinRadius hdx hdy hsq

end Panel

/-! ### Renders that are defined -/

section Patch

variable {w h : ℕ} {extent corner : ℤ}

/-- A loop over the pixels of a patch whose writes stay inside. -/
theorem exists_paint {f : List UInt8 → ℕ → ℕ → Option (List UInt8)} {mask : List UInt8}
    (hlen : mask.length = w * h)
    (hf : ∀ y < h, ∀ x < w, ∀ m : List UInt8, m.length = w * h →
      ∃ m', f m y x = some m' ∧ m'.length = w * h) :
    ∃ m', (List.range h).foldlM (fun m y => (List.range w).foldlM (fun m x => f m y x) m) mask =
      some m' ∧ m'.length = w * h :=
  foldlM_range (fun _ (m : List UInt8) => m.length = w * h)
    (fun y hy _ hm => foldlM_range (fun _ (m : List UInt8) => m.length = w * h)
      (fun x hx m hm => hf y hy x hx m hm) hm) hlen

variable (w h extent corner) in
theorem exists_panelMask (hextent : 0 ≤ extent) (hmargins : 2 * extent ≤ intMax)
    (hfits : (w * h : ℤ) ≤ intMax) (hwide : w ≤ intMax) (htall : h ≤ intMax)
    (hleast : -intMax - 1 ≤ corner) (hcw : w ≤ intMax + corner) (hch : h ≤ intMax + corner) :
    ∃ mask, panelMask w h extent corner = some mask ∧ mask.length = w * h := by
  have hproduct : w * h < 2 ^ 31 := by
    unfold intMax at hfits
    exact_mod_cast Int.lt_of_le_sub_one hfits
  have harea : (area w h).toNat = w * h := area_eq (by omega)
  have hzeros := zeros_of_lt (n := area w h) (by omega)
  have h₁ := checkedInt_of_le (n := 2 * extent) (by omega) hmargins
  have h₂ := checkedInt_of_fits (n := w - 2 * extent) (by omega) (by omega)
  have h₃ := checkedInt_of_fits (n := h - 2 * extent) (by omega) (by omega)
  have hlen : (List.replicate (area w h).toNat (0 : UInt8)).length = w * h :=
    List.length_replicate.trans harea
  simp only [panelMask, hzeros, h₁, h₂, h₃, Option.bind_eq_bind, Option.bind_some,
    Int.toNat_natCast]
  split_ifs with hpanel
  · have hw : 2 * extent < w := by omega
    have hh : 2 * extent < h := by omega
    rw [max_eq_right (by omega), max_eq_right (by omega)]
    refine exists_paint hlen fun y hy x hx m hm => ?_
    obtain ⟨inside, hinside⟩ := Option.isSome_iff_exists.mp (isSome_insideRoundedRect hw hh hextent
      hfits hwide htall hleast hcw hch x y)
    simp only [panelRadius] at hinside
    simp only [hinside, Option.bind_some]
    cases inside with
    | false => exact ⟨m, rfl, hm⟩
    | true => exact ⟨_, if_pos (hm ▸ BoxBlur.place_lt hx hy), List.length_set.trans hm⟩
  · exact ⟨_, rfl, hlen⟩

end Patch

theorem exists_storePixel (out : List UInt8) (i : ℕ) {b₀ b₁ b₂ b₃ : UInt8}
    (hi : 4 * i + 3 < out.length) :
    ∃ out', storePixel out i [b₀, b₁, b₂, b₃] = some out' ∧ out'.length = out.length := by
  have hstores : (storePixel out i [b₀, b₁, b₂, b₃]).isSome := by
    simp only [storePixel, List.zipIdx_cons, List.zipIdx_nil, List.foldlM_cons, List.foldlM_nil,
      store]
    simp only [if_pos (show 4 * i + 0 < out.length by omega), Option.bind_eq_bind, Option.bind_some,
      List.length_set, Nat.zero_add, Nat.reduceAdd,
      if_pos (show 4 * i + 1 < out.length by omega), if_pos (show 4 * i + 2 < out.length by omega),
      if_pos hi]
    rfl
  obtain ⟨out', hout⟩ := Option.isSome_iff_exists.mp hstores
  exact ⟨out', hout, length_storePixel hout⟩

variable {tint : Tint} {key : ShadowKey} {theme : Theme}

/-- Four bytes for every pixel. -/
theorem exists_renderShadow (tint : Tint) (h : Renderable key theme) :
    ∃ px, renderShadow tint key theme = some px ∧
      px.length = key.width.toNat * key.height.toNat * 4 := by
  obtain ⟨hw, hh, hfits, hradius, hwide, htall, hcw, hch⟩ := h
  have hsum := hradius.sum
  have hper : (perPass theme : ℤ) = max 1 ((max 0 theme.shadowExtent.toInt + 2) / 3) := by
    unfold perPass
    omega
  have hcorner := theme.cornerRadius.le_toInt
  have hproduct : key.width.toNat * key.height.toNat < 2 ^ 31 := by
    unfold intMax at hfits
    exact_mod_cast Int.lt_of_le_sub_one hfits
  have hwInt : toInt key.width = key.width.toNat := toInt_of_fits (by omega)
  have hhInt : toInt key.height = key.height.toNat := toInt_of_fits (by omega)
  have harea := area_eq (w := key.width.toNat) (h := key.height.toNat) (by omega)
  obtain ⟨mask, hmask, hmaskLen⟩ := exists_panelMask key.width.toNat
    key.height.toNat (max 0 theme.shadowExtent.toInt) theme.cornerRadius.toInt (le_max_left ..)
    (by unfold intMax at *; omega) hfits (by omega) (by omega) (by unfold intMax; omega) hcw hch
  have hpass : 0 < max 0 theme.shadowExtent.toInt →
      max 1 ((max 0 theme.shadowExtent.toInt + 2) / 3) = (perPass theme : ℤ) := fun _ => hper.symm
  obtain ⟨blurred, hblurred, hblurredLen, -⟩ :=
    BoxBlur.blur3_spec hradius hwide htall hmaskLen.ge hpass
  have hbytes : (area key.width.toNat key.height.toNat * 4).toNat =
      key.width.toNat * key.height.toNat * 4 := by
    have hfour : (4 : UInt64).toNat = 4 := rfl
    rw [UInt64.toNat_mul, hfour, harea]
    exact Nat.mod_eq_of_lt (by omega)
  have hzeros := zeros_of_lt (n := area key.width.toNat key.height.toNat * 4) (by omega)
  have hcount := checkedInt_of_le
    (n := (key.width.toNat : ℤ) * key.height.toNat) (by positivity) hfits
  obtain ⟨px, hloop, hpx⟩ := foldlM_range
    (fun _ (out : List UInt8) => out.length = key.width.toNat * key.height.toNat * 4)
    (n := key.width.toNat * key.height.toNat)
    (f := fun out i => do
      let m ← blurred[i]?
      storePixel out i (shadowPixel tint theme.shadow key.elevation m))
    (fun i hi out hout => by
      have hlt : i < blurred.length := by omega
      have hget : blurred[i]? = some blurred[i] := List.getElem?_eq_getElem hlt
      obtain ⟨out', hstore, hlen⟩ := exists_storePixel out i (by omega)
      exact ⟨out', by rw [hget]; exact hstore, hlen.trans hout⟩)
    (b := List.replicate (area key.width.toNat key.height.toNat * 4).toNat 0)
    (List.length_replicate.trans hbytes)
  refine ⟨px, ?_, hpx⟩
  have hcountNat : ((key.width.toNat : ℤ) * key.height.toNat).toNat =
      key.width.toNat * key.height.toNat := by
    rw [← Int.natCast_mul, Int.toNat_natCast]
  simp only [renderShadow, hwInt, hhInt, hmask, hblurred, hzeros, hcount, hcountNat,
    Option.bind_eq_bind, Option.bind_some]
  exact hloop

end DrmCxx.Csd
