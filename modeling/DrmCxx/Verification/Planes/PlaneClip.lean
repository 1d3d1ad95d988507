import DrmCxx.Planes.PlaneClip
import Mathlib.Algebra.Order.Field.Basic
import Mathlib.Tactic.FieldSimp
import Mathlib.Tactic.Linarith
import Mathlib.Tactic.Ring

/-!
# A clipped span keeps its picture

The clip removes as much of the source as of the destination, to one unit of the fixed point, and
rounds towards no scale. In words no step of it overflows, as long as the source's far edge fits.
-/

namespace DrmCxx.Planes

open Scene (PlaneSpan clipLeading)

/-! ### Without bounds -/

/-- The span is clipped: it starts before 0, and some of it is left. -/
structure Clips (s : PlaneSpan) : Prop where
  neg : s.dst < 0
  visible : -s.dst < s.dstLen
  dstLen : s.dstLen < 2 ^ 32
  srcLen : s.srcLen < 2 ^ 32

/-- What is left of the source's length. -/
def clippedLen (s : PlaneSpan) : ℕ :=
  if s.srcLen < s.dstLen * 2 ^ 16 then
    (s.srcLen * (s.dstLen - (-s.dst).toNat) + s.dstLen - 1) / s.dstLen
  else s.srcLen * (s.dstLen - (-s.dst).toNat) / s.dstLen

theorem clipLeading_of_clips {s : PlaneSpan} (h : Clips s) :
    clipLeading s = { dst := 0, dstLen := s.dstLen - (-s.dst).toNat,
                      src := s.src + (s.srcLen - clippedLen s), srcLen := clippedLen s } := by
  have hneg := h.neg
  have hvisible := h.visible
  have hdst := h.dstLen
  have hsrc := h.srcLen
  exact if_neg (by omega)

theorem clipLeading_of_not_clips {s : PlaneSpan} (h : ¬ Clips s) : clipLeading s = s := by
  refine if_pos ?_
  by_contra hcon
  exact h ⟨by omega, by omega, by omega, by omega⟩

/-- An unscaled span loses as many pixels on both sides. -/
theorem clipLeading_unscaled (dst : ℤ) (n : ℕ) :
    ∃ k : ℕ, (k = 0 ∨ k < n ∧ dst + k = 0) ∧
      clipLeading ⟨dst, n, 0, n * 2 ^ 16⟩ = ⟨dst + k, n - k, k * 2 ^ 16, (n - k) * 2 ^ 16⟩ := by
  by_cases h : Clips ⟨dst, n, 0, n * 2 ^ 16⟩
  · have hneg : dst < 0 := h.neg
    have hvisible : -dst < n := h.visible
    have hpos : 0 < n := by omega
    have hlen : clippedLen ⟨dst, n, 0, n * 2 ^ 16⟩ = (n - (-dst).toNat) * 2 ^ 16 := by
      rw [clippedLen, if_neg (lt_irrefl _)]
      exact Nat.div_eq_of_eq_mul_right hpos (by ring)
    refine ⟨(-dst).toNat, .inr ⟨by omega, by omega⟩, ?_⟩
    rw [clipLeading_of_clips h, hlen]
    simp only [Scene.PlaneSpan.mk.injEq, true_and, and_true]
    omega
  · exact ⟨0, .inl rfl, by rw [clipLeading_of_not_clips h]; simp⟩

/-! ### What is kept -/

/-- `t` shows the part of `s` from 0 on. -/
structure KeepsPicture (s t : PlaneSpan) : Prop where
  origin : t.dst = 0
  dstFar : t.dst + t.dstLen = s.dst + s.dstLen
  srcFar : t.src + t.srcLen = s.src + s.srcLen
  -- what the source loses is what the destination loses, in the source's scale
  scaled : |((t.src : ℚ) - s.src) - (t.dst - s.dst) * s.srcLen / s.dstLen| < 1
  shrinks : t.srcLen ≤ s.srcLen
  unscaled : s.srcLen = s.dstLen * 2 ^ 16 → t.srcLen = t.dstLen * 2 ^ 16
  upscaled : s.srcLen < s.dstLen * 2 ^ 16 → t.srcLen ≤ t.dstLen * 2 ^ 16
  downscaled : s.dstLen * 2 ^ 16 < s.srcLen → t.dstLen * 2 ^ 16 ≤ t.srcLen

section Kept

variable {s : PlaneSpan} {k : ℕ}

theorem clippedLen_ceil (h : s.srcLen < s.dstLen * 2 ^ 16) (hk : k = s.dstLen - (-s.dst).toNat) :
    s.srcLen * k ≤ clippedLen s * s.dstLen ∧ clippedLen s * s.dstLen < s.srcLen * k + s.dstLen := by
  subst hk
  have hpos : 0 < s.dstLen := by omega
  rw [clippedLen, if_pos h]
  have hle := Nat.div_mul_le_self (s.srcLen * (s.dstLen - (-s.dst).toNat) + s.dstLen - 1) s.dstLen
  have hlt := Nat.lt_div_mul_add
    (a := s.srcLen * (s.dstLen - (-s.dst).toNat) + s.dstLen - 1) hpos
  omega

theorem clippedLen_floor (h : ¬ s.srcLen < s.dstLen * 2 ^ 16) (hpos : 0 < s.dstLen)
    (hk : k = s.dstLen - (-s.dst).toNat) :
    clippedLen s * s.dstLen ≤ s.srcLen * k ∧ s.srcLen * k < clippedLen s * s.dstLen + s.dstLen := by
  subst hk
  rw [clippedLen, if_neg h]
  exact ⟨Nat.div_mul_le_self _ _, Nat.lt_div_mul_add hpos⟩

/-- A source no larger than the destination stays so. -/
theorem clippedLen_le_of_le (h : s.srcLen ≤ s.dstLen * 2 ^ 16) (hpos : 0 < s.dstLen)
    (hk : k = s.dstLen - (-s.dst).toNat) : clippedLen s ≤ k * 2 ^ 16 := by
  have hprod : s.srcLen * k ≤ k * 2 ^ 16 * s.dstLen := by
    calc s.srcLen * k ≤ s.dstLen * 2 ^ 16 * k := Nat.mul_le_mul_right k h
      _ = k * 2 ^ 16 * s.dstLen := by ring
  have hlt : clippedLen s * s.dstLen < (k * 2 ^ 16 + 1) * s.dstLen := by
    rw [Nat.add_mul, Nat.one_mul]
    by_cases hup : s.srcLen < s.dstLen * 2 ^ 16
    · have := (clippedLen_ceil hup hk).2
      omega
    · have := (clippedLen_floor hup hpos hk).1
      omega
  exact Nat.lt_succ_iff.mp (Nat.lt_of_mul_lt_mul_right hlt)

/-- A source no smaller than the destination stays so. -/
theorem le_clippedLen_of_le (h : s.dstLen * 2 ^ 16 ≤ s.srcLen) (hpos : 0 < s.dstLen)
    (hk : k = s.dstLen - (-s.dst).toNat) : k * 2 ^ 16 ≤ clippedLen s := by
  have hprod : k * 2 ^ 16 * s.dstLen ≤ s.srcLen * k := by
    calc k * 2 ^ 16 * s.dstLen = s.dstLen * 2 ^ 16 * k := by ring
      _ ≤ s.srcLen * k := Nat.mul_le_mul_right k h
  have hlt : k * 2 ^ 16 * s.dstLen < (clippedLen s + 1) * s.dstLen := by
    rw [Nat.add_mul, Nat.one_mul]
    have := (clippedLen_floor (by omega) hpos hk).2
    omega
  exact Nat.lt_succ_iff.mp (Nat.lt_of_mul_lt_mul_right hlt)

theorem clippedLen_le_srcLen (hpos : 0 < s.dstLen) : clippedLen s ≤ s.srcLen := by
  have hprod : s.srcLen * (s.dstLen - (-s.dst).toNat) ≤ s.srcLen * s.dstLen :=
    Nat.mul_le_mul_left _ (by omega)
  have hlt : clippedLen s * s.dstLen < (s.srcLen + 1) * s.dstLen := by
    rw [Nat.add_mul, Nat.one_mul]
    by_cases hup : s.srcLen < s.dstLen * 2 ^ 16
    · have := (clippedLen_ceil hup rfl).2
      omega
    · have := (clippedLen_floor hup hpos rfl).1
      omega
  exact Nat.lt_succ_iff.mp (Nat.lt_of_mul_lt_mul_right hlt)

/-- The kept length is the source's in proportion, to less than a unit. -/
theorem clippedLen_within (hpos : 0 < s.dstLen) (hk : k = s.dstLen - (-s.dst).toNat) :
    |(s.srcLen * k - clippedLen s * s.dstLen : ℤ)| < s.dstLen := by
  rw [abs_lt]
  by_cases hup : s.srcLen < s.dstLen * 2 ^ 16
  · have := clippedLen_ceil hup hk
    zify at this
    constructor <;> linarith
  · have := clippedLen_floor hup hpos hk
    zify at this
    constructor <;> linarith

theorem clippedLen_pos (h : Clips s) (hsrc : 0 < s.srcLen) : 0 < clippedLen s := by
  have hneg := h.neg
  have hvisible := h.visible
  obtain ⟨k, hk⟩ : ∃ k, k = s.dstLen - (-s.dst).toNat := ⟨_, rfl⟩
  have hkept : 0 < k := by omega
  by_cases hup : s.srcLen < s.dstLen * 2 ^ 16
  · have hle := (clippedLen_ceil hup hk).1
    exact Nat.pos_of_mul_pos_right ((Nat.mul_pos hsrc hkept).trans_le hle)
  · have := le_clippedLen_of_le (not_lt.mp hup) (by omega) hk
    omega

end Kept

/-- What is removed from the source is what is removed from the destination, scaled. -/
theorem removed_within {s : PlaneSpan} (h : Clips s) :
    |(s.srcLen - clippedLen s : ℚ) - (0 - s.dst) * s.srcLen / s.dstLen| < 1 := by
  have hneg := h.neg
  have hvisible := h.visible
  have hpos : (0 : ℚ) < s.dstLen := by exact_mod_cast (by omega : 0 < s.dstLen)
  have hkept : ((s.dstLen - (-s.dst).toNat : ℕ) : ℤ) = s.dstLen + s.dst := by omega
  have hwithin := clippedLen_within (s := s) (by omega) rfl
  rw [hkept] at hwithin
  have hfrac : (s.srcLen - clippedLen s : ℚ) - (0 - s.dst) * s.srcLen / s.dstLen =
      (s.srcLen * (s.dstLen + s.dst) - clippedLen s * s.dstLen) / s.dstLen := by
    field_simp
    ring
  rw [hfrac, abs_div, abs_of_pos hpos, div_lt_one hpos]
  exact_mod_cast hwithin

theorem keepsPicture_clipLeading {s : PlaneSpan} (h : Clips s) :
    KeepsPicture s (clipLeading s) := by
  have hneg := h.neg
  have hvisible := h.visible
  have hpos : 0 < s.dstLen := by omega
  have hle := clippedLen_le_srcLen hpos
  rw [clipLeading_of_clips h]
  exact
    { origin := rfl
      dstFar := by simp only; omega
      srcFar := by simp only; omega
      scaled := by
        rw [Nat.cast_add, add_sub_cancel_left, Nat.cast_sub hle]
        exact_mod_cast removed_within h
      shrinks := hle
      unscaled := fun heq => Nat.le_antisymm (clippedLen_le_of_le heq.le hpos rfl)
        (le_clippedLen_of_le heq.ge hpos rfl)
      upscaled := fun hlt => clippedLen_le_of_le hlt.le hpos rfl
      downscaled := fun hlt => le_clippedLen_of_le hlt.le hpos rfl }

/-! ### In words -/

theorem checkedAdd_eq_some_iff {a b c : UInt64} :
    checkedAdd a b = some c ↔ c.toNat = a.toNat + b.toNat := by
  have hc := c.toNat_lt
  rw [checkedAdd]
  split_ifs with h
  · rw [Option.some_inj, ← UInt64.toNat_inj, UInt64.toNat_add, Nat.mod_eq_of_lt h]
    exact eq_comm
  · exact ⟨nofun, fun heq => absurd (heq ▸ hc) h⟩

theorem checkedMul_eq_some_iff {a b c : UInt64} :
    checkedMul a b = some c ↔ c.toNat = a.toNat * b.toNat := by
  have hc := c.toNat_lt
  rw [checkedMul]
  split_ifs with h
  · rw [Option.some_inj, ← UInt64.toNat_inj, UInt64.toNat_mul, Nat.mod_eq_of_lt h]
    exact eq_comm
  · exact ⟨nofun, fun heq => absurd (heq ▸ hc) h⟩

theorem checkedSub_eq_some_iff {a b c : UInt64} :
    checkedSub a b = some c ↔ c.toNat + b.toNat = a.toNat := by
  rw [checkedSub]
  split_ifs with h
  · have hle := UInt64.le_iff_toNat_le.mp h
    rw [Option.some_inj, ← UInt64.toNat_inj, UInt64.toNat_sub_of_le _ _ h]
    omega
  · rw [UInt64.le_iff_toNat_le] at h
    exact ⟨nofun, fun heq => absurd heq (by omega)⟩

theorem checkedAdd_of_lt {a b : UInt64} (h : a.toNat + b.toNat < 2 ^ 64) :
    ∃ c, checkedAdd a b = some c ∧ c.toNat = a.toNat + b.toNat :=
  ⟨a + b, if_pos h, checkedAdd_eq_some_iff.mp (if_pos h)⟩

theorem checkedMul_of_lt {a b : UInt64} (h : a.toNat * b.toNat < 2 ^ 64) :
    ∃ c, checkedMul a b = some c ∧ c.toNat = a.toNat * b.toNat :=
  ⟨a * b, if_pos h, checkedMul_eq_some_iff.mp (if_pos h)⟩

theorem checkedSub_of_le {a b : UInt64} (h : b.toNat ≤ a.toNat) :
    ∃ c, checkedSub a b = some c ∧ c.toNat = a.toNat - b.toNat := by
  have hle : checkedSub a b = some (a - b) := if_pos (UInt64.le_iff_toNat_le.mpr h)
  have := checkedSub_eq_some_iff.mp hle
  exact ⟨a - b, hle, by omega⟩

/-- A destination whose span is visible has a magnitude. -/
theorem checkedNeg_of_clips {s : SpanWords} (h : Clips s.toSpan) :
    ∃ c, checkedNeg s.dst = some c ∧ c.toNat = (-s.toSpan.dst).toNat := by
  have hneg : s.dst.toInt < 0 := h.neg
  have hvisible : -s.dst.toInt < s.dstLen.toNat := h.visible
  have hlen : s.dstLen.toNat < 2 ^ 32 := h.dstLen
  have hint : (-s.dst).toInt = -s.dst.toInt := by
    rw [Int64.toInt_neg, Int.bmod_eq_of_le (by omega) (by omega)]
  have hnonneg : (0 : Int64) ≤ -s.dst := by
    rw [Int64.le_iff_toInt_le, hint]
    exact (Int.neg_pos_of_neg hneg).le
  refine ⟨_, if_pos (by omega), ?_⟩
  rw [Int64.toNat_toUInt64_of_le hnonneg, Int64.toNatClampNeg, hint]
  rfl

/-- The products fit: the lengths are those of 32-bit properties. -/
theorem clippedLen_words {s : SpanWords} {kept : UInt64} (h : Clips s.toSpan)
    (hkept : kept.toNat = s.dstLen.toNat - (-s.toSpan.dst).toNat) :
    ∃ scaled unscaled len : UInt64,
      checkedMul s.srcLen kept = some scaled ∧ checkedMul s.dstLen 0x10000 = some unscaled ∧
      newSrcLen s scaled unscaled = some len ∧ len.toNat = clippedLen s.toSpan := by
  have hneg : s.dst.toInt < 0 := h.neg
  have hvisible : -s.dst.toInt < s.dstLen.toNat := h.visible
  have hdst : s.dstLen.toNat < 2 ^ 32 := h.dstLen
  have hsrc : s.srcLen.toNat < 2 ^ 32 := h.srcLen
  change kept.toNat = s.dstLen.toNat - (-s.dst.toInt).toNat at hkept
  have hprod : s.srcLen.toNat * kept.toNat ≤ (2 ^ 32 - 1) * (2 ^ 32 - 1) :=
    Nat.mul_le_mul (by omega) (by omega)
  obtain ⟨scaled, hscaled, hscaledNat⟩ :=
    checkedMul_of_lt (a := s.srcLen) (b := kept) (by omega)
  obtain ⟨unscaled, hunscaled, hunscaledNat⟩ :=
    checkedMul_of_lt (a := s.dstLen) (b := 0x10000) (by
      change s.dstLen.toNat * 2 ^ 16 < 2 ^ 64
      omega)
  refine ⟨scaled, unscaled, ?_⟩
  have hup : s.srcLen < unscaled ↔ s.srcLen.toNat < s.dstLen.toNat * 2 ^ 16 := by
    rw [UInt64.lt_iff_toNat_lt, hunscaledNat]
    rfl
  simp only [newSrcLen, hup, hscaled, hunscaled, true_and]
  change ∃ len : UInt64, _ ∧ len.toNat = if s.srcLen.toNat < s.dstLen.toNat * 2 ^ 16 then
    (s.srcLen.toNat * (s.dstLen.toNat - (-s.dst.toInt).toNat) + s.dstLen.toNat - 1) /
      s.dstLen.toNat else s.srcLen.toNat * (s.dstLen.toNat - (-s.dst.toInt).toNat) / s.dstLen.toNat
  rw [← hkept, ← hscaledNat]
  split_ifs
  · obtain ⟨sum, hsum, hsumNat⟩ := checkedAdd_of_lt (a := scaled) (b := s.dstLen) (by omega)
    obtain ⟨pred, hpred, hpredNat⟩ := checkedSub_of_le (a := sum) (b := 1) (by
      change 1 ≤ sum.toNat
      omega)
    simp only [hsum, hpred, Option.bind_eq_bind, Option.bind_some]
    refine ⟨_, rfl, ?_⟩
    rw [UInt64.toNat_div, hpredNat, hsumNat]
    rfl
  · exact ⟨_, rfl, UInt64.toNat_div _ _⟩

/-- Every step of a clip but the last one fits. -/
theorem clipLeadingWords_of_clips {s : SpanWords} (h : Clips s.toSpan) :
    ∃ kept removed len : UInt64,
      kept.toNat = s.dstLen.toNat - (-s.toSpan.dst).toNat ∧
      removed.toNat = s.srcLen.toNat - clippedLen s.toSpan ∧ len.toNat = clippedLen s.toSpan ∧
      clipLeadingWords s =
        (checkedAdd s.src removed).map fun src => (⟨0, kept, src, len⟩, true) := by
  have hneg : s.dst.toInt < 0 := h.neg
  have hvisible : -s.dst.toInt < s.dstLen.toNat := h.visible
  have hdst : s.dstLen.toNat < 2 ^ 32 := h.dstLen
  have hsrc : s.srcLen.toNat < 2 ^ 32 := h.srcLen
  have hguard : ¬ (0 ≤ s.dst ∨ s.dstLen = 0 ∨ uint32Max < s.dstLen ∨ uint32Max < s.srcLen) := by
    have hmax : uint32Max.toNat = 2 ^ 32 - 1 := rfl
    have hzero : (0 : Int64).toInt = 0 := rfl
    rw [Int64.le_iff_toInt_le, ← UInt64.toNat_inj, UInt64.lt_iff_toNat_lt,
      UInt64.lt_iff_toNat_lt, UInt64.toNat_zero]
    omega
  obtain ⟨clip, hclip, hclipNat⟩ := checkedNeg_of_clips h
  have hoff : ¬ s.dstLen ≤ clip := by
    rw [UInt64.le_iff_toNat_le, hclipNat]
    change ¬ s.dstLen.toNat ≤ (-s.dst.toInt).toNat
    omega
  obtain ⟨kept, hkept, hkeptNat⟩ := checkedSub_of_le (a := s.dstLen) (b := clip) (by
    rw [UInt64.le_iff_toNat_le] at hoff
    omega)
  rw [hclipNat] at hkeptNat
  obtain ⟨scaled, unscaled, len, hscaled, hunscaled, hlen, hlenNat⟩ := clippedLen_words h hkeptNat
  obtain ⟨removed, hremoved, hremovedNat⟩ := checkedSub_of_le (a := s.srcLen) (b := len) (by
    rw [hlenNat]
    exact clippedLen_le_srcLen (s := s.toSpan) (by change 0 < s.dstLen.toNat; omega))
  rw [hlenNat] at hremovedNat
  refine ⟨kept, removed, len, hkeptNat, hremovedNat, hlenNat, ?_⟩
  simp only [clipLeadingWords, if_neg hguard, hclip, if_neg hoff, hkept, hscaled, hunscaled, hlen,
    hremoved, Option.bind_eq_bind, Option.bind_some]
  exact Option.map_eq_bind.symm

/-- Only the source's new origin can leave its word. -/
theorem clipLeadingWords_keepsPicture {s : SpanWords} (h : Clips s.toSpan) :
    s.src.toNat + (s.srcLen.toNat - clippedLen s.toSpan) < 2 ^ 64 ↔
      ∃ t, clipLeadingWords s = some (t, true) ∧ KeepsPicture s.toSpan t.toSpan := by
  obtain ⟨kept, removed, len, hkept, hremoved, hlen, hwords⟩ := clipLeadingWords_of_clips h
  rw [← hremoved, hwords]
  constructor
  · intro hfit
    obtain ⟨src, hsrc, hsrcNat⟩ := checkedAdd_of_lt hfit
    refine ⟨⟨0, kept, src, len⟩, by rw [hsrc]; rfl, ?_⟩
    have hspan : (SpanWords.mk 0 kept src len).toSpan = clipLeading s.toSpan := by
      rw [clipLeading_of_clips h, SpanWords.toSpan, hkept, hsrcNat, hremoved, hlen]
      rfl
    rw [hspan]
    exact keepsPicture_clipLeading h
  · rintro ⟨t, ht, -⟩
    obtain ⟨src, hsrc, -⟩ := Option.map_eq_some_iff.mp ht
    rw [← checkedAdd_eq_some_iff.mp hsrc]
    exact src.toNat_lt

theorem clipLeadingWords_keepsPicture_upscaled :
    ∃ t, clipLeadingWords ⟨-1, 30, 0, 655360⟩ = some (t, true) ∧
      KeepsPicture (SpanWords.mk (-1) 30 0 655360).toSpan t.toSpan :=
  (clipLeadingWords_keepsPicture (s := ⟨-1, 30, 0, 655360⟩)
    ⟨by decide, by decide, by decide, by decide⟩).mp (by decide)

/-- Ten pixels shown over thirty: the length is rounded up. -/
example : clipLeadingWords ⟨-1, 30, 0, 655360⟩ = some (⟨0, 29, 21845, 633515⟩, true) := by decide

/-- Moved by what was removed, the last origin of a word wraps around to 0. -/
theorem not_keepsPicture_lastOrigin :
    Clips (SpanWords.mk (-1) 2 0xffffffffffffffff 2).toSpan ∧
      ¬ ∃ t, clipLeadingWords ⟨-1, 2, 0xffffffffffffffff, 2⟩ = some (t, true) ∧
        KeepsPicture (SpanWords.mk (-1) 2 0xffffffffffffffff 2).toSpan t.toSpan := by
  have hnone : clipLeadingWords ⟨-1, 2, 0xffffffffffffffff, 2⟩ = none := by decide
  refine ⟨⟨by decide, by decide, by decide, by decide⟩, ?_⟩
  rintro ⟨t, ht, -⟩
  exact absurd (hnone.symm.trans ht) nofun

/-- A far edge that fits is enough: some of the source is left, if there is any. -/
theorem origin_fits_of_far {s : SpanWords} (h : Clips s.toSpan)
    (hfar : s.src.toNat + s.srcLen.toNat ≤ 2 ^ 64) :
    s.src.toNat + (s.srcLen.toNat - clippedLen s.toSpan) < 2 ^ 64 := by
  have hsrc := s.src.toNat_lt
  obtain hzero | hsome := Nat.eq_zero_or_pos s.srcLen.toNat
  · omega
  · have := clippedLen_pos h hsome
    omega

end DrmCxx.Planes
