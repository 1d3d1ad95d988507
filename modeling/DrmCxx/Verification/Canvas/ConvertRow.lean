import DrmCxx.Scene.Canvas.RowKernels
import DrmCxx.Verification.Canvas.FastPaths

/-!
# The bytes of a converted row

On every build, `convert_row` writes the bytes of the converted pixels, the least significant first,
and no byte besides.
-/

namespace DrmCxx.Scene.CompositeCanvas

open Lib.ByteView Lib.Neon Lib.Sweep

/-! ### Swapping red and blue -/

theorem convertPixel_swap {outFourcc : UInt32}
    (h : outFourcc = drmFormatXbgr8888 ∨ outFourcc = drmFormatAbgr8888) (p : UInt32) :
    convertPixel outFourcc p = word (swapRedBlue (byte p)) := by
  rw [convertPixel, if_pos h, componentA_eq, componentB_eq, componentG_eq, componentR_eq,
    ← packArgb_eq_word]
  rfl

/-- The offsets of rows below `2 ^ 30` pixels do not wrap. -/
theorem elementAt_eq {size i : ℕ} (hsize : 0 < size) (hi : i * size < 2 ^ 32) :
    elementAt size i = i := by
  rw [elementAt, Nat.mod_eq_of_lt hi, Nat.mul_div_cancel _ hsize]

theorem elementAt_four {i : ℕ} (hi : i < 2 ^ 30) : elementAt 4 i = i :=
  elementAt_eq (by decide) (by omega)

theorem elementAt_two {i : ℕ} (hi : i < 2 ^ 30) : elementAt 2 i = i :=
  elementAt_eq (by decide) (by omega)

theorem neonSwap8_rewrites (src : Row) {i : ℕ} (hi : i < 2 ^ 30) (dst : Row) :
    Rewrites (fun j _ => word (swapRedBlue (byte (src j)))) i (i + 8) dst
      (neonSwap8 src i dst) := by
  intro j
  unfold neonSwap8
  rw [elementAt_four hi]
  unfold vst4U8
  split
  · rename_i hj
    have hidx : i + (j - i) = j := by omega
    refine congrArg word (funext fun c => ?_)
    fin_cases c <;> simp [swapRedBlue, vld4U8, hidx]
  · rfl

theorem swapPixel_rewrites (src : Row) {i : ℕ} (hi : i < 2 ^ 30) (dst : Row) :
    Rewrites (fun j _ => word (swapRedBlue (byte (src j)))) i (i + 1) dst
      (swapPixel src i dst) := by
  unfold swapPixel
  rw [elementAt_four hi]
  exact Rewrites.update _ i dst

theorem rowSwapRb_rewrites (neon : Bool) (dst src : Row) {n : ℕ} (hn : n ≤ 2 ^ 30) :
    Rewrites (fun j _ => word (swapRedBlue (byte (src j)))) 0 n dst (rowSwapRb neon dst src n) := by
  have hstart := Rewrites.refl (fun j _ => word (swapRedBlue (byte (src j)))) 0 dst
  have hone : ∀ i, i < n → ∀ dst, Rewrites _ i (i + 1) dst (swapPixel src i dst) :=
    fun i hi => swapPixel_rewrites src (by omega)
  cases neon with
  | false => exact hstart.whileFits_one (Nat.le_refl 0) (Nat.zero_le n) hone
  | true =>
    obtain ⟨hwide, -, hi⟩ := hstart.whileFits (Nat.le_refl 0) (Nat.zero_le n) (by decide : 0 < 8)
      fun i hi => neonSwap8_rewrites src (by omega : i < 2 ^ 30)
    exact hwide.whileFits_one (Nat.zero_le _) hi hone

/-! ### Packing to 16 bits -/

/-- The high bits of a byte, in a word and in a lane. -/
theorem toUInt16_shiftRight_byte (b : UInt8) {n : UInt32} (hn : n < 16) :
    (b.toUInt32 >>> n).toUInt16 = b.toUInt16 >>> n.toUInt16 := by
  have hb := b.toNat_lt
  have hn' : n.toNat < 16 := hn
  have hle : b.toNat >>> n.toNat ≤ b.toNat := Nat.shiftRight_le _ _
  refine UInt16.toNat_inj.mp ?_
  simp only [UInt32.toNat_toUInt16, UInt32.toNat_shiftRight, UInt8.toNat_toUInt32,
    UInt16.toNat_shiftRight, UInt8.toNat_toUInt16]
  rw [Nat.mod_eq_of_lt (a := n.toNat) (by omega), Nat.mod_eq_of_lt (a := n.toNat) (by omega),
    Nat.mod_eq_of_lt (a := n.toNat) (by omega), Nat.mod_eq_of_lt (by omega)]

/-- A lane packs like the scalar loop. -/
theorem packLane_eq (hi g lo : UInt8) :
    ((hi.toUInt16 >>> 3) <<< 11 ||| (g.toUInt16 >>> 2) <<< 5) ||| lo.toUInt16 >>> 3 =
      (pack565 hi.toUInt32 g.toUInt32 lo.toUInt32).toUInt16 := by
  rw [pack565, UInt32.toUInt16_or, UInt32.toUInt16_or, UInt32.toUInt16_shiftLeft _ _ (by decide),
    UInt32.toUInt16_shiftLeft _ _ (by decide), toUInt16_shiftRight_byte _ (by decide),
    toUInt16_shiftRight_byte _ (by decide), toUInt16_shiftRight_byte _ (by decide)]
  rfl

theorem neonPack8_rewrites (src : Row) (swapRb : Bool) {i : ℕ} (hi : i < 2 ^ 30)
    (dst : ℕ → UInt16) : Rewrites (fun j _ => packPixel565 swapRb (src j)) i (i + 8) dst
      (neonPack8 src swapRb i dst) := by
  intro j
  unfold neonPack8
  rw [elementAt_four hi, elementAt_two hi]
  dsimp only
  unfold vst1qU16
  split
  · rename_i hj
    have hidx : i + (j - i) = j := by omega
    simp only [vorrqU16, vshlqNU16, vshrqNU16, vmovlU8, packPixel565]
    cases swapRb with
    | false => simpa [vld4U8, hidx] using packLane_eq _ _ _
    | true => simpa [vld4U8, hidx] using packLane_eq _ _ _
  · rfl

theorem packPixel_rewrites (src : Row) (swapRb : Bool) {i : ℕ} (hi : i < 2 ^ 30)
    (dst : ℕ → UInt16) : Rewrites (fun j _ => packPixel565 swapRb (src j)) i (i + 1) dst
      (packPixel src swapRb i dst) := by
  unfold packPixel
  rw [elementAt_four hi, elementAt_two hi]
  exact Rewrites.update _ i dst

theorem rowPack565_rewrites (neon : Bool) (dst : ℕ → UInt16) (src : Row) {n : ℕ}
    (hn : n ≤ 2 ^ 30) (swapRb : Bool) :
    Rewrites (fun j _ => packPixel565 swapRb (src j)) 0 n dst
      (rowPack565 neon dst src n swapRb) := by
  have hstart := Rewrites.refl (fun j _ => packPixel565 swapRb (src j)) 0 dst
  have hone : ∀ i, i < n → ∀ dst, Rewrites _ i (i + 1) dst (packPixel src swapRb i dst) :=
    fun i hi => packPixel_rewrites src swapRb (by omega)
  cases neon with
  | false => exact hstart.whileFits_one (Nat.le_refl 0) (Nat.zero_le n) hone
  | true =>
    obtain ⟨hwide, -, hi⟩ := hstart.whileFits (Nat.le_refl 0) (Nat.zero_le n) (by decide : 0 < 8)
      fun i hi => neonPack8_rewrites src swapRb (by omega : i < 2 ^ 30)
    exact hwide.whileFits_one (Nat.zero_le _) hi hone

/-- The packed value is the low half of the converted pixel. -/
theorem convertPixel_pack {outFourcc : UInt32}
    (h : outFourcc = drmFormatRgb565 ∨ outFourcc = drmFormatBgr565) (p : UInt32) :
    (convertPixel outFourcc p).toUInt16 = packPixel565 (outFourcc = drmFormatBgr565) p := by
  rcases h with rfl | rfl
  · have hother :
        ¬ (drmFormatRgb565 = drmFormatXbgr8888 ∨ drmFormatRgb565 = drmFormatAbgr8888) := by
      decide
    rw [convertPixel, if_neg hother, if_pos rfl, componentB_eq, componentG_eq, componentR_eq]
    rfl
  · have hother :
        ¬ (drmFormatBgr565 = drmFormatXbgr8888 ∨ drmFormatBgr565 = drmFormatAbgr8888) := by
      decide
    have hne : ¬ drmFormatBgr565 = drmFormatRgb565 := by decide
    rw [convertPixel, if_neg hother, if_neg hne, if_pos rfl, componentB_eq, componentG_eq,
      componentR_eq]
    rfl

/-! ### Rows -/

/-- How many bytes `convert_row` writes for a pixel. -/
def pixelSize (outFourcc : UInt32) : ℕ :=
  if outFourcc = drmFormatRgb565 ∨ outFourcc = drmFormatBgr565 then 2 else 4

theorem pixelSize_pos (outFourcc : UInt32) : 0 < pixelSize outFourcc := by
  unfold pixelSize
  split
  · decide
  · decide

/-- The bytes of a pixel are in the row. -/
theorem pixel_byte_lt {outFourcc : UInt32} {x n c : ℕ} (hx : x < n) (hc : c < pixelSize outFourcc) :
    x * pixelSize outFourcc + c < n * pixelSize outFourcc :=
  calc x * pixelSize outFourcc + c
    _ < (x + 1) * pixelSize outFourcc := by rw [Nat.add_mul, Nat.one_mul]; omega
    _ ≤ _ := Nat.mul_le_mul_right _ hx

/-- The bytes of the converted pixels, one pixel after the other. -/
def convertedByte (outFourcc : UInt32) (src : Row) (i : ℕ) : UInt8 :=
  byte (convertPixel outFourcc (src (i / pixelSize outFourcc)))
    (Fin.ofNat 4 (i % pixelSize outFourcc))

theorem convertedByte_pixel {outFourcc : UInt32} (src : Row) (x : ℕ) {c : ℕ}
    (hc : c < pixelSize outFourcc) :
    convertedByte outFourcc src (x * pixelSize outFourcc + c) =
      byte (convertPixel outFourcc (src x)) (Fin.ofNat 4 c) := by
  rw [convertedByte, Nat.mul_comm x, Nat.mul_add_div (pixelSize_pos _), Nat.div_eq_of_lt hc,
    Nat.add_zero, Nat.mul_add_mod, Nat.mod_eq_of_lt hc]

theorem memcpy_rewrites (dst src : Bytes) (n : ℕ) :
    Rewrites (fun i _ => src i) 0 n dst (memcpy dst src n) := by
  intro i
  exact if_congr (by omega) rfl rfl

/-- The formats with the shadow's bytes, and those it was not made for, are copied. -/
theorem convertRowInto_copy {outFourcc : UInt32}
    (hswap : ¬ (outFourcc = drmFormatXbgr8888 ∨ outFourcc = drmFormatAbgr8888))
    (hpack : ¬ (outFourcc = drmFormatRgb565 ∨ outFourcc = drmFormatBgr565)) (neon : Bool)
    (dst : Bytes) (src : Row) (n : ℕ) :
    convertRowInto neon dst src n outFourcc = memcpy dst (bytes wordBytes src) (n * 4) ∧
      ∀ p, convertPixel outFourcc p = p := by
  refine ⟨?_, fun p => ?_⟩
  · unfold convertRowInto
    rw [if_neg hswap, if_neg hpack, ite_id]
  · rw [not_or] at hpack
    rw [convertPixel, if_neg hswap, if_neg hpack.1, if_neg hpack.2]

/-- Whatever the build, `convert_row` writes the bytes of the converted pixels and no others. -/
theorem convertRowInto_rewrites (neon : Bool) (dst : Bytes) (src : Row) {n : ℕ}
    (hn : n ≤ 2 ^ 30) (outFourcc : UInt32) :
    Rewrites (fun i _ => convertedByte outFourcc src i) 0 (n * pixelSize outFourcc) dst
      (convertRowInto neon dst src n outFourcc) := by
  by_cases hpack : outFourcc = drmFormatRgb565 ∨ outFourcc = drmFormatBgr565
  · have hsize : pixelSize outFourcc = 2 := if_pos hpack
    have hcopy : ¬ (outFourcc = drmFormatArgb8888 ∨ outFourcc = drmFormatXrgb8888) := by
      rcases hpack with rfl | rfl <;> decide
    have hswap : ¬ (outFourcc = drmFormatXbgr8888 ∨ outFourcc = drmFormatAbgr8888) := by
      rcases hpack with rfl | rfl <;> decide
    have hbytes := onElements_rewrites halfBytes
      (fun row => rowPack565 neon row src n (outFourcc = drmFormatBgr565)) dst
      (rowPack565_rewrites neon _ src hn _)
    rw [Nat.zero_mul] at hbytes
    rw [convertRowInto, if_neg hcopy, if_neg hswap, if_pos hpack, hsize]
    refine hbytes.congr fun i _ _ _ => ?_
    rw [convertedByte, hsize]
    change halfByte (packPixel565 _ (src (i / 2))) (Fin.ofNat 2 i) = _
    rw [← convertPixel_pack hpack, halfByte_toUInt16]
    rfl
  · have hsize : pixelSize outFourcc = 4 := if_neg hpack
    have hindex (i : ℕ) : Fin.ofNat 4 (i % 4) = Fin.ofNat 4 i := Fin.ext (Nat.mod_mod i 4)
    by_cases hswap : outFourcc = drmFormatXbgr8888 ∨ outFourcc = drmFormatAbgr8888
    · have hcopy : ¬ (outFourcc = drmFormatArgb8888 ∨ outFourcc = drmFormatXrgb8888) := by
        rcases hswap with rfl | rfl <;> decide
      have hbytes := onElements_rewrites wordBytes (fun row => rowSwapRb neon row src n) dst
        (rowSwapRb_rewrites neon _ src hn)
      rw [Nat.zero_mul] at hbytes
      rw [convertRowInto, if_neg hcopy, if_pos hswap, hsize]
      refine hbytes.congr fun i _ _ _ => ?_
      rw [convertedByte, hsize, convertPixel_swap hswap, hindex]
      rfl
    · obtain ⟨hcopied, hsame⟩ := convertRowInto_copy hswap hpack neon dst src n
      rw [hcopied, hsize]
      refine (memcpy_rewrites dst (bytes wordBytes src) (n * 4)).congr fun i _ _ _ => ?_
      rw [convertedByte, hsize, hsame, hindex]
      rfl

/-- Every pixel of a converted row, byte by byte; what lies behind the row; and the same on builds
with and without NEON. From `2 ^ 30` pixels on the 32-bit offsets wrap. -/
theorem converted_row_bytes (dst : Bytes) (src : Row) (n : ℕ) (hn : n ≤ 2 ^ 30)
    (outFourcc : UInt32) :
    (∀ neon, ∀ x < n, ∀ c < pixelSize outFourcc,
      convertRowInto neon dst src n outFourcc (x * pixelSize outFourcc + c) =
        byte (convertPixel outFourcc (src x)) (Fin.ofNat 4 c)) ∧
      (∀ neon, ∀ i, n * pixelSize outFourcc ≤ i →
        convertRowInto neon dst src n outFourcc i = dst i) ∧
      convertRowInto true dst src n outFourcc = convertRowInto false dst src n outFourcc := by
  refine ⟨fun neon x hx c hc => ?_, fun neon i hi => ?_, ?_⟩
  · rw [convertRowInto_rewrites neon dst src hn outFourcc,
      if_pos ⟨Nat.zero_le _, pixel_byte_lt hx hc⟩]
    exact convertedByte_pixel src x hc
  · rw [convertRowInto_rewrites neon dst src hn outFourcc, if_neg (by omega)]
  · exact (convertRowInto_rewrites true dst src hn outFourcc).ext
      (convertRowInto_rewrites false dst src hn outFourcc)

/-- The second pixel of a row of two, packed to 16 bits. -/
theorem converted_row_bytes_two : (2 : ℕ) ≤ 2 ^ 30 ∧
    convertRowInto true (fun _ => 0) (fun _ => 0xFF102030) 2 drmFormatRgb565
      (1 * pixelSize drmFormatRgb565 + 1) = 0x11 := by
  have hrow := converted_row_bytes (fun _ => 0) (fun _ => 0xFF102030) 2 (by decide) drmFormatRgb565
  refine ⟨by decide, (hrow.1 true 1 (by decide) 1 (by decide)).trans (by decide)⟩

end DrmCxx.Scene.CompositeCanvas
