import DrmCxx.Lib.Resampling
import DrmCxx.Scene.Canvas.Compose
import DrmCxx.Verification.Canvas.Clipping
import Mathlib.Tactic.GCongr

/-!
# Sampling along one axis

A plane shows, at each screen pixel, the source pixel under its centre. The canvas rounds the crop
to whole pixels and computes an index into what is left of it. On the whole axis the two agree when
the destination lies on the canvas and rounding moves no centre out of its pixel, or when what is
left is a single pixel that the visible centres lie in.
-/

namespace DrmCxx.Scene

open Lib (floor_shift_iff floor_affine_iff)

/-! ### Centres -/

/-- The plane's first centre, counted from the canvas's first pixel in parts of which a pixel has
`2 * d * 2 ^ 16`. -/
def firstCentre (start d : ℕ) (span : ℕ × ℕ) : ℤ := 2 * d * (span.1 - start * 2 ^ 16) + span.2

/-- The crop of `s` pixels from `start` on, spread over `d`, shows at every position the pixel that
lies under its centre in the 16.16 `span`. Either the span has exactly that length, and its offset
from `start` leaves no cell; or every pixel has equally many positions, and the first and the last
have theirs. -/
def CentresKept (start s d : ℕ) (span : ℕ × ℕ) : Prop :=
  (span.2 = s * 2 ^ 16 ∧ 0 ≤ firstCentre start d span ∧
      firstCentre start d span < (Nat.gcd s d * 2 ^ 17 : ℕ)) ∨
    (s ∣ d ∧
      (0 ≤ firstCentre start d span ∧
        ((s : ℤ) - 1) * (2 * d * 2 ^ 16) ≤
          2 * span.2 * ((s - 1) * (d / s : ℕ)) + firstCentre start d span) ∧
      2 * span.2 * ((d / s : ℕ) - 1) + firstCentre start d span < 2 * d * 2 ^ 16 ∧
      2 * span.2 * (s * (d / s : ℕ) - 1) + firstCentre start d span < s * (2 * d * 2 ^ 16))

instance (start s d : ℕ) (span : ℕ × ℕ) : Decidable (CentresKept start s d span) :=
  inferInstanceAs (Decidable (_ ∨ _))

/-- The pixel under the centre of position `k`. -/
def nearest (d : ℕ) (span : ℕ × ℕ) (k : ℕ) : ℕ :=
  (2 * span.1 * d + (2 * k + 1) * span.2) / (2 * d * 2 ^ 16)

theorem nearest_eq {d : ℕ} (hd : 0 < d) (start : ℕ) (span : ℕ × ℕ) (k : ℕ) :
    (nearest d span k : ℤ) =
      start + (2 * span.2 * k + firstCentre start d span) / (2 * d * 2 ^ 16) := by
  have hpos : (2 * d * 2 ^ 16 : ℤ) ≠ 0 := by positivity
  have hsplit : ((2 * span.1 * d + (2 * k + 1) * span.2 : ℕ) : ℤ) =
      2 * span.2 * k + firstCentre start d span + start * (2 * d * 2 ^ 16) := by
    unfold firstCentre
    push_cast
    ring
  have hparts : ((2 * d * 2 ^ 16 : ℕ) : ℤ) = 2 * d * 2 ^ 16 := by push_cast; ring
  rw [nearest, Int.natCast_ediv, hsplit, hparts, Int.add_mul_ediv_right _ _ hpos, Int.add_comm]

/-- The first case of `CentresKept` is exact for a span of whole pixels. -/
theorem centres_iff_of_whole {start s d : ℕ} {span : ℕ × ℕ} (hd : 0 < d)
    (hwhole : span.2 = s * 2 ^ 16) :
    (∀ k < d, start + k * s / d = nearest d span k) ↔
      0 ≤ firstCentre start d span ∧ firstCentre start d span < (Nat.gcd s d * 2 ^ 17 : ℕ) := by
  rw [← floor_shift_iff hd (by decide : 0 < 2 ^ 17)]
  refine forall_congr' fun k => imp_congr_right fun _ => ?_
  have hnearest := nearest_eq hd start span k
  have hnumerator : (2 * span.2 * k : ℤ) = (k * s * 2 ^ 17 : ℕ) := by
    rw [hwhole]
    push_cast
    ring
  have hdenominator : (2 * d * 2 ^ 16 : ℤ) = (d * 2 ^ 17 : ℕ) := by
    push_cast
    ring
  rw [hnumerator, hdenominator] at hnearest
  omega

/-- The second case is exact where every pixel has equally many positions. -/
theorem centres_iff_of_dvd {start s m : ℕ} {span : ℕ × ℕ} (hs : 0 < s) (hm : 0 < m) :
    (∀ k < s * m, start + k * s / (s * m) = nearest (s * m) span k) ↔
      (0 ≤ firstCentre start (s * m) span ∧
        ((s : ℤ) - 1) * (2 * (s * m : ℕ) * 2 ^ 16) ≤
          2 * span.2 * ((s - 1) * m) + firstCentre start (s * m) span) ∧
      2 * span.2 * (m - 1) + firstCentre start (s * m) span < 2 * (s * m : ℕ) * 2 ^ 16 ∧
      2 * span.2 * (s * m - 1) + firstCentre start (s * m) span <
        s * (2 * (s * m : ℕ) * 2 ^ 16) := by
  have hd : 0 < s * m := Nat.mul_pos hs hm
  rw [← floor_affine_iff hs hm (a := 2 * span.2) (n := 2 * (s * m : ℕ) * 2 ^ 16) (by positivity)
    (by positivity)]
  refine forall_congr' fun k => imp_congr_right fun _ => ?_
  have hnearest := nearest_eq hd start span k
  have hcell : k * s / (s * m) = k / m := by
    rw [Nat.mul_comm k, Nat.mul_div_mul_left k m hs]
  rw [hcell]
  omega

theorem centres_of_kept {start s d : ℕ} {span : ℕ × ℕ} (hs : 0 < s) (hd : 0 < d)
    (h : CentresKept start s d span) : ∀ k < d, start + k * s / d = nearest d span k := by
  rcases h with ⟨hwhole, hshift⟩ | ⟨⟨m, rfl⟩, hends⟩
  · exact (centres_iff_of_whole hd hwhole).mpr hshift
  · have hm : 0 < m := Nat.pos_of_mul_pos_left hd
    rw [Nat.mul_div_cancel_left m hs] at hends
    exact (centres_iff_of_dvd hs hm).mpr hends

/-! ### What a plane shows -/

/-- The source pixel a plane shows at the screen position `p`: the one under the centre. -/
def planeSample (s : PlaneSpan) (p : ℕ) : Option ℕ :=
  if s.dst ≤ p ∧ (p : ℤ) < s.dst + s.dstLen then
    some ((2 * s.src * s.dstLen + (2 * (p - s.dst).toNat + 1) * s.srcLen) /
      (2 * s.dstLen * 2 ^ 16))
  else none

/-- Clipping keeps what is on the screen. -/
theorem clipLeading_covers (s : PlaneSpan) (p : ℕ) :
    ((clipLeading s).dst ≤ p ∧ (p : ℤ) < (clipLeading s).dst + (clipLeading s).dstLen) ↔
      s.dst ≤ p ∧ (p : ℤ) < s.dst + s.dstLen := by
  unfold clipLeading
  dsimp only
  split
  · exact Iff.rfl
  · dsimp only
    omega

theorem planeSample_clipLeading_eq_none {s : PlaneSpan} {p : ℕ} :
    planeSample (clipLeading s) p = none ↔ ¬ (s.dst ≤ p ∧ (p : ℤ) < s.dst + s.dstLen) := by
  rw [← not_congr (clipLeading_covers s p)]
  unfold planeSample
  simp

/-- A destination that starts on the screen is not clipped. -/
theorem planeSample_onScreen {dst : ℤ} {d p : ℕ} {span : ℕ × ℕ} (hdst : 0 ≤ dst)
    (hp : dst ≤ p ∧ (p : ℤ) < dst + d) :
    planeSample (clipLeading ⟨dst, d, span.1, span.2⟩) p =
      some (nearest d span (p - dst).toNat) := by
  have hclip : clipLeading ⟨dst, d, span.1, span.2⟩ = ⟨dst, d, span.1, span.2⟩ := if_pos (.inl hdst)
  rw [hclip]
  exact if_pos hp

/-- The clip starts a span where the screen does, or not at all. -/
theorem clipLeading_dst (s : PlaneSpan) :
    (clipLeading s).dst = s.dst ∨ (clipLeading s).dst = 0 ∧ s.dst < 0 := by
  unfold clipLeading
  dsimp only
  split
  · exact .inl rfl
  · exact .inr ⟨rfl, by omega⟩

/-- The centres of the first `n` positions on the screen lie in the pixel. -/
def CentresWithin (pixel n : ℕ) (s : PlaneSpan) : Prop :=
  pixel * (2 * s.dstLen * 2 ^ 16) ≤ 2 * s.src * s.dstLen + (2 * (-s.dst).toNat + 1) * s.srcLen ∧
    2 * s.src * s.dstLen + (2 * ((-s.dst).toNat + (n - 1)) + 1) * s.srcLen <
      (pixel + 1) * (2 * s.dstLen * 2 ^ 16)

instance (pixel n : ℕ) (s : PlaneSpan) : Decidable (CentresWithin pixel n s) :=
  inferInstanceAs (Decidable (_ ∧ _))

/-! ### What the canvas samples -/

namespace CompositeCanvas

/-- A plane shows one pixel wherever it is visible exactly when its first and its last visible
centre lie in it. -/
theorem centresWithin_iff {dst : ℤ} {d extent pixel : ℕ} {span : ℕ × ℕ}
    (hvisible : 0 < visibleLen dst d extent) :
    (∀ p < extent, dst ≤ p → (p : ℤ) < dst + d →
        planeSample (clipLeading ⟨dst, d, span.1, span.2⟩) p = some pixel) ↔
      CentresWithin pixel (visibleLen dst d extent) (clipLeading ⟨dst, d, span.1, span.2⟩) := by
  have hcovers := clipLeading_covers ⟨dst, d, span.1, span.2⟩
  have hstart := clipLeading_dst ⟨dst, d, span.1, span.2⟩
  generalize clipLeading ⟨dst, d, span.1, span.2⟩ = s at hcovers hstart
  dsimp only at hcovers hstart
  unfold visibleLen at hvisible ⊢
  -- the first and the last position that are visible
  have hfirst := (hcovers dst.toNat).mpr (by omega)
  have hlast := (hcovers (dst.toNat + (min (d - (-dst).toNat) (extent - dst.toNat) - 1))).mpr
    (by omega)
  have hpos : 0 < 2 * s.dstLen * 2 ^ 16 := by omega
  constructor
  · intro h
    have hatFirst := h dst.toNat (by omega) (by omega) (by omega)
    have hatLast := h (dst.toNat + (min (d - (-dst).toNat) (extent - dst.toNat) - 1)) (by omega)
      (by omega) (by omega)
    have hindexFirst : ((dst.toNat : ℤ) - s.dst).toNat = (-s.dst).toNat := by omega
    have hindexLast : (((dst.toNat + (min (d - (-dst).toNat) (extent - dst.toNat) - 1) : ℕ) : ℤ) -
        s.dst).toNat = (-s.dst).toNat + (min (d - (-dst).toNat) (extent - dst.toNat) - 1) := by
      omega
    rw [planeSample, if_pos hfirst, hindexFirst, Option.some_inj, Nat.div_eq_iff hpos] at hatFirst
    rw [planeSample, if_pos hlast, hindexLast, Option.some_inj, Nat.div_eq_iff hpos] at hatLast
    refine ⟨hatFirst.1, ?_⟩
    rw [Nat.add_one_mul pixel]
    omega
  · intro ⟨hlo, hhi⟩ p hp hdst hend
    have hk : (-s.dst).toNat ≤ (p - s.dst).toNat ∧ (p - s.dst).toNat ≤
        (-s.dst).toNat + (min (d - (-dst).toNat) (extent - dst.toNat) - 1) := by omega
    have hafter : (2 * (-s.dst).toNat + 1) * s.srcLen ≤ (2 * (p - s.dst).toNat + 1) * s.srcLen :=
      Nat.mul_le_mul_right _ (by omega)
    have hbefore : (2 * (p - s.dst).toNat + 1) * s.srcLen ≤
        (2 * ((-s.dst).toNat + (min (d - (-dst).toNat) (extent - dst.toNat) - 1)) + 1) *
          s.srcLen := Nat.mul_le_mul_right _ (by omega)
    rw [planeSample, if_pos ((hcovers p).mpr ⟨hdst, hend⟩), Option.some_inj, Nat.div_eq_iff hpos]
    rw [Nat.add_one_mul pixel] at hhi
    omega

/-- What is left of the crop is sampled as the 16.16 `span` is: the destination lies on the canvas
and the span's centres stay in their pixels, or it is one pixel that the visible centres lie in. -/
structure AxisFits (dstPos : ℤ) (dstLen extent : ℕ) (srcPos : ℤ) (srcLen srcExtent : ℕ)
    (span : ℕ × ℕ) : Prop where
  crop_start : -2 ^ 31 < srcPos
  crop_visible : 0 < visibleLen srcPos srcLen srcExtent
  samples :
    (0 ≤ dstPos ∧ dstPos + dstLen ≤ extent) ∧
        CentresKept srcPos.toNat (visibleLen srcPos srcLen srcExtent) dstLen span ∨
      visibleLen srcPos srcLen srcExtent = 1 ∧
        CentresWithin srcPos.toNat (visibleLen dstPos dstLen extent)
          (clipLeading ⟨dstPos, dstLen, span.1, span.2⟩)

/-- On a fitting axis the canvas samples what the plane shows. -/
theorem sampleIndex_of_fits {dstPos srcPos : ℤ} {dstLen extent srcLen srcExtent p : ℕ}
    {span : ℕ × ℕ} {noScale : Bool}
    (h : AxisFits dstPos dstLen extent srcPos srcLen srcExtent span)
    (hp : dstPos ≤ p ∧ (p : ℤ) < dstPos + dstLen) (hvis : p < extent)
    (hsame : noScale = true →
      visibleLen srcPos srcLen srcExtent = visibleLen dstPos dstLen extent)
    (hproduct : noScale = false →
      (visibleLen dstPos dstLen extent - 1) * visibleLen srcPos srcLen srcExtent < 2 ^ 32) :
    planeSample (clipLeading ⟨dstPos, dstLen, span.1, span.2⟩) p =
      some (sampleIndex noScale (visibleAxis dstPos dstLen extent srcPos srcLen srcExtent) p) := by
  have hcrop := h.crop_visible
  have hk : p - dstPos.toNat < visibleLen dstPos dstLen extent := by
    unfold visibleLen
    omega
  have hvisible : (visibleAxis dstPos dstLen extent srcPos srcLen srcExtent).dstEnd -
      (visibleAxis dstPos dstLen extent srcPos srcLen srcExtent).dstStart =
        visibleLen dstPos dstLen extent := Nat.add_sub_cancel_left _ _
  rw [sampleIndex_eq (by rw [hvisible]; exact hk) (fun hno => by rw [hvisible]; exact hsame hno)
    fun hscaled => (Nat.mul_le_mul_right _ (Nat.le_sub_one_of_lt hk)).trans_lt (hproduct hscaled),
    hvisible]
  show _ = some (srcPos.toNat + (p - dstPos.toNat) * visibleLen srcPos srcLen srcExtent /
    visibleLen dstPos dstLen extent)
  rcases h.samples with ⟨⟨hdst0, hdstEnd⟩, hcentres⟩ | ⟨hone, hcentres⟩
  · -- the whole destination is visible, so the index runs over all of it
    have hwhole : visibleLen dstPos dstLen extent = dstLen := by
      unfold visibleLen
      omega
    rw [hwhole] at hk ⊢
    have hindex : (p - dstPos).toNat = p - dstPos.toNat := by omega
    rw [planeSample_onScreen hdst0 hp, hindex, centres_of_kept hcrop (by omega) hcentres _ hk]
  · rw [(centresWithin_iff (by omega)).mpr hcentres p hvis hp.1 hp.2, hone, Nat.mul_one,
      Nat.div_eq_of_lt hk, Nat.add_zero]

end CompositeCanvas

end DrmCxx.Scene
