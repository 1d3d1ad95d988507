import DrmCxx.Lib.Indices
import Mathlib.Algebra.Group.Nat.Defs
import Mathlib.Data.Fintype.Basic
import Mathlib.Data.Nat.Notation
import Mathlib.Tactic.FinCases

/-!
# NEON lanes

The vector registers and intrinsics used on 32-bit words. A register is a function of the lane,
memory is read and written as little-endian words from a base index.
-/

namespace DrmCxx.Lib.Neon

abbrev Uint8x8 := Fin 8 → UInt8

abbrev Uint16x8 := Fin 8 → UInt16

abbrev Uint32x4 := Fin 4 → UInt32

/-- `uint8x8x4_t`: four registers, one a byte of the words loaded. -/
abbrev Uint8x8x4 := Fin 4 → Uint8x8

/-! ### Bytes of a word -/

/-- Byte `c` of a little-endian word. -/
def byte (w : UInt32) (c : Fin 4) : UInt8 :=
  (w >>> (8 * c.val.toUInt32)).toUInt8

/-- The word of four bytes. -/
def word (b : Fin 4 → UInt8) : UInt32 :=
  (b 0).toUInt32 ||| ((b 1).toUInt32 <<< 8) ||| ((b 2).toUInt32 <<< 16) |||
    ((b 3).toUInt32 <<< 24)

theorem toNat_byte (w : UInt32) (c : Fin 4) :
    (byte w c).toNat = w.toNat / 2 ^ (8 * c.val) % 2 ^ 8 := by
  have hc : 8 * c.val % 32 = 8 * c.val := Nat.mod_eq_of_lt (by omega)
  simp [byte, Nat.shiftRight_eq_div_pow, hc]

/-- A field above the bits of another. -/
theorem toNat_or_shiftLeft {v w : UInt32} {n : ℕ} (hn : n < 32) (hv : v.toNat < 2 ^ n)
    (hw : 2 ^ n * w.toNat < 2 ^ 32) :
    (v ||| (w <<< n.toUInt32)).toNat = v.toNat + 2 ^ n * w.toNat := by
  have hshift : (w <<< n.toUInt32).toNat = w.toNat <<< n := by
    rw [UInt32.toNat_shiftLeft, Nat.toUInt32_eq, UInt32.toNat_ofNat']
    rw [Nat.mod_eq_of_lt (a := n) (by omega), Nat.mod_eq_of_lt hn, Nat.shiftLeft_eq,
      Nat.mul_comm, Nat.mod_eq_of_lt hw]
  rw [UInt32.toNat_or, hshift, Nat.or_comm, ← Nat.shiftLeft_add_eq_or_of_lt hv, Nat.shiftLeft_eq,
    Nat.mul_comm, Nat.add_comm]

theorem toNat_word (b : Fin 4 → UInt8) :
    (word b).toNat = (b 0).toNat + 2 ^ 8 * (b 1).toNat + 2 ^ 16 * (b 2).toNat +
      2 ^ 24 * (b 3).toNat := by
  have hb (c) : (b c).toNat < 2 ^ 8 := (b c).toNat_lt
  have h0 := hb 0
  have h1 := hb 1
  have h2 := hb 2
  have h3 := hb 3
  have hlow : ((b 0).toUInt32 ||| ((b 1).toUInt32 <<< 8)).toNat =
      (b 0).toNat + 2 ^ 8 * (b 1).toNat :=
    toNat_or_shiftLeft (n := 8) (by decide) (by simpa using h0) (by simp; omega)
  have hmid := toNat_or_shiftLeft (n := 16) (v := (b 0).toUInt32 ||| ((b 1).toUInt32 <<< 8))
    (w := (b 2).toUInt32) (by decide) (by rw [hlow]; omega) (by simp; omega)
  rw [hlow] at hmid
  have hhigh := toNat_or_shiftLeft (n := 24) (v := (b 0).toUInt32 ||| ((b 1).toUInt32 <<< 8) |||
    ((b 2).toUInt32 <<< 16)) (w := (b 3).toUInt32) (by decide)
    (hmid.trans_lt (by simp; omega)) (by simp; omega)
  exact hhigh.trans (congrArg (· + 2 ^ 24 * (b 3).toNat) hmid)

/-- Words with the same bytes are the same. -/
theorem eq_of_byte {v w : UInt32} (h : ∀ c, byte v c = byte w c) : v = w := by
  have hc (c : Fin 4) : v.toNat / 2 ^ (8 * c.val) % 2 ^ 8 = w.toNat / 2 ^ (8 * c.val) % 2 ^ 8 := by
    rw [← toNat_byte, ← toNat_byte, h c]
  have h0 : v.toNat % 2 ^ 8 = w.toNat % 2 ^ 8 := by simpa using hc 0
  have h1 : v.toNat / 2 ^ 8 % 2 ^ 8 = w.toNat / 2 ^ 8 % 2 ^ 8 := hc 1
  have h2 : v.toNat / 2 ^ 16 % 2 ^ 8 = w.toNat / 2 ^ 16 % 2 ^ 8 := hc 2
  have h3 : v.toNat / 2 ^ 24 % 2 ^ 8 = w.toNat / 2 ^ 24 % 2 ^ 8 := hc 3
  have hv := v.toNat_lt
  have hw := w.toNat_lt
  exact UInt32.toNat_inj.mp (by omega)

theorem byte_word (b : Fin 4 → UInt8) (c : Fin 4) : byte (word b) c = b c := by
  have hb (c) : (b c).toNat < 2 ^ 8 := (b c).toNat_lt
  have h0 := hb 0
  have h1 := hb 1
  have h2 := hb 2
  have h3 := hb 3
  refine UInt8.toNat_inj.mp ?_
  rw [toNat_byte, toNat_word]
  fin_cases c <;> simp <;> omega

theorem byte_or (v w : UInt32) (c : Fin 4) : byte (v ||| w) c = byte v c ||| byte w c := by
  simp [byte, UInt32.shiftRight_or]

/-! ### Bytes of a half-word -/

/-- Byte `c` of a little-endian half-word. -/
def halfByte (h : UInt16) (c : Fin 2) : UInt8 :=
  (h >>> (8 * c.val.toUInt16)).toUInt8

/-- The half-word of two bytes. -/
def half (b : Fin 2 → UInt8) : UInt16 :=
  (b 0).toUInt16 ||| ((b 1).toUInt16 <<< 8)

theorem toNat_halfByte (h : UInt16) (c : Fin 2) :
    (halfByte h c).toNat = h.toNat / 2 ^ (8 * c.val) % 2 ^ 8 := by
  have hc : 8 * c.val % 16 = 8 * c.val := Nat.mod_eq_of_lt (by omega)
  simp [halfByte, Nat.shiftRight_eq_div_pow, hc]

theorem toNat_half (b : Fin 2 → UInt8) :
    (half b).toNat = (b 0).toNat + 2 ^ 8 * (b 1).toNat := by
  have h0 : (b 0).toNat < 2 ^ 8 := (b 0).toNat_lt
  have h1 : (b 1).toNat < 2 ^ 8 := (b 1).toNat_lt
  have hshift : ((b 1).toUInt16 <<< 8).toNat = (b 1).toNat <<< 8 := by
    simp [Nat.shiftLeft_eq]
    omega
  rw [half, UInt16.toNat_or, hshift, Nat.or_comm, UInt8.toNat_toUInt16,
    ← Nat.shiftLeft_add_eq_or_of_lt h0, Nat.shiftLeft_eq, Nat.mul_comm, Nat.add_comm]

/-- Half-words with the same bytes are the same. -/
theorem eq_of_halfByte {g h : UInt16} (hbytes : ∀ c, halfByte g c = halfByte h c) : g = h := by
  have hc (c : Fin 2) : g.toNat / 2 ^ (8 * c.val) % 2 ^ 8 = h.toNat / 2 ^ (8 * c.val) % 2 ^ 8 := by
    rw [← toNat_halfByte, ← toNat_halfByte, hbytes c]
  have h0 : g.toNat % 2 ^ 8 = h.toNat % 2 ^ 8 := by simpa using hc 0
  have h1 : g.toNat / 2 ^ 8 % 2 ^ 8 = h.toNat / 2 ^ 8 % 2 ^ 8 := hc 1
  have hg := g.toNat_lt
  have hh := h.toNat_lt
  exact UInt16.toNat_inj.mp (by omega)

theorem halfByte_half (b : Fin 2 → UInt8) (c : Fin 2) : halfByte (half b) c = b c := by
  have h0 : (b 0).toNat < 2 ^ 8 := (b 0).toNat_lt
  have h1 : (b 1).toNat < 2 ^ 8 := (b 1).toNat_lt
  refine UInt8.toNat_inj.mp ?_
  rw [toNat_halfByte, toNat_half]
  fin_cases c
  · simp
  · simp
    omega

/-- The low half of a word. -/
theorem halfByte_toUInt16 (w : UInt32) (c : Fin 2) :
    halfByte w.toUInt16 c = byte w (Fin.ofNat 4 c.val) := by
  refine UInt8.toNat_inj.mp ?_
  rw [toNat_halfByte, toNat_byte, UInt32.toNat_toUInt16]
  fin_cases c
  · simp
  · simp
    omega

/-! ### Loads and stores -/

/-- `vld1q_u32`. -/
def vld1qU32 (mem : ℕ → UInt32) (i : ℕ) : Uint32x4 := fun k => mem (i + k)

/-- `vst1q_u32`. -/
def vst1qU32 (i : ℕ) (v : Uint32x4) (mem : ℕ → UInt32) : ℕ → UInt32 := fun j =>
  if h : i ≤ j ∧ j < i + 4 then v ⟨j - i, by omega⟩ else mem j

/-- `vld4_u8`: eight words by bytes. -/
def vld4U8 (mem : ℕ → UInt32) (i : ℕ) : Uint8x8x4 := fun c k => byte (mem (i + k)) c

/-- `vst4_u8`. -/
def vst4U8 (i : ℕ) (v : Uint8x8x4) (mem : ℕ → UInt32) : ℕ → UInt32 := fun j =>
  if h : i ≤ j ∧ j < i + 8 then word fun c => v c ⟨j - i, by omega⟩ else mem j

/-- `vst1q_u16`. -/
def vst1qU16 (i : ℕ) (v : Uint16x8) (mem : ℕ → UInt16) : ℕ → UInt16 := fun j =>
  if h : i ≤ j ∧ j < i + 8 then v ⟨j - i, by omega⟩ else mem j

/-! ### Arithmetic -/

def vdupNU8 (x : UInt8) : Uint8x8 := fun _ => x

def vdupqNU16 (x : UInt16) : Uint16x8 := fun _ => x

def vdupqNU32 (x : UInt32) : Uint32x4 := fun _ => x

def vorrqU32 (x y : Uint32x4) : Uint32x4 := fun k => x k ||| y k

def vorrqU16 (x y : Uint16x8) : Uint16x8 := fun k => x k ||| y k

def vsubU8 (x y : Uint8x8) : Uint8x8 := fun k => x k - y k

def vmovlU8 (x : Uint8x8) : Uint16x8 := fun k => (x k).toUInt16

/-- `vmlal_u8`: the widened product added to the accumulator. -/
def vmlalU8 (acc : Uint16x8) (x y : Uint8x8) : Uint16x8 := fun k =>
  acc k + (x k).toUInt16 * (y k).toUInt16

def vaddqU16 (x y : Uint16x8) : Uint16x8 := fun k => x k + y k

def vshrqNU16 (x : Uint16x8) (n : UInt16) : Uint16x8 := fun k => x k >>> n

def vshlqNU16 (x : Uint16x8) (n : UInt16) : Uint16x8 := fun k => x k <<< n

/-- `vqmovn_u16`: narrowed with saturation. -/
def vqmovnU16 (x : Uint16x8) : Uint8x8 := fun k => (min (x k) 0xFF).toUInt8

end DrmCxx.Lib.Neon
