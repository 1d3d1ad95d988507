import Mathlib.Data.List.Basic

/-!
# Checked reads of a buffer

Reads of whole values; a read beyond the end has no result. The host is little-endian.
-/

namespace DrmCxx.Lib

/-- `n` bytes from `i` on. -/
def readBytes (buf : List UInt8) (i n : ℕ) : Option (List UInt8) :=
  if i + n ≤ buf.length then some ((buf.drop i).take n) else none

/-- The number that the bytes stand for, the least significant first. -/
def ofBytes : List UInt8 → ℕ
  | [] => 0
  | b :: bs => b.toNat + 256 * ofBytes bs

def readU32 (buf : List UInt8) (i : ℕ) : Option UInt32 :=
  (readBytes buf i 4).map fun bs => UInt32.ofNat (ofBytes bs)

def readU64 (buf : List UInt8) (i : ℕ) : Option UInt64 :=
  (readBytes buf i 8).map fun bs => UInt64.ofNat (ofBytes bs)

theorem isSome_readBytes {buf : List UInt8} {i n : ℕ} (h : i + n ≤ buf.length) :
    (readBytes buf i n).isSome := by
  rw [readBytes, if_pos h]
  rfl

theorem isSome_readU32 {buf : List UInt8} {i : ℕ} (h : i + 4 ≤ buf.length) :
    (readU32 buf i).isSome := by
  rw [readU32, Option.isSome_map]
  exact isSome_readBytes h

theorem isSome_readU64 {buf : List UInt8} {i : ℕ} (h : i + 8 ≤ buf.length) :
    (readU64 buf i).isSome := by
  rw [readU64, Option.isSome_map]
  exact isSome_readBytes h

end DrmCxx.Lib
