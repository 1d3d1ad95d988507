import DrmCxx.Lib.Neon
import DrmCxx.Lib.Sweep
import Mathlib.Logic.Equiv.Defs

/-!
# Arrays in memory

Memory is a function of the address, a byte each. An array of elements of `k` bytes lies in it one
element after the other, and a loop over the elements rewrites their bytes. The host is
little-endian.
-/

namespace DrmCxx.Lib.ByteView

open Sweep Neon

/-- The bytes from a pointer on. -/
abbrev Bytes := ℕ → UInt8

section

variable {α : Type*} {k : ℕ} [NeZero k]

/-- The elements from a pointer on. -/
def elements (e : α ≃ (Fin k → UInt8)) (mem : Bytes) : ℕ → α :=
  fun j => e.symm fun c => mem (k * j + c)

def bytes (e : α ≃ (Fin k → UInt8)) (a : ℕ → α) : Bytes :=
  fun i => e (a (i / k)) (Fin.ofNat k i)

/-- A routine on elements, run on the memory they lie in. -/
def onElements (e : α ≃ (Fin k → UInt8)) (routine : (ℕ → α) → ℕ → α) (mem : Bytes) : Bytes :=
  bytes e (routine (elements e mem))

@[simp] theorem bytes_elements (e : α ≃ (Fin k → UInt8)) (mem : Bytes) :
    bytes e (elements e mem) = mem := by
  funext i
  simp [bytes, elements, Nat.div_add_mod]

/-- A loop that stores elements stores their bytes. -/
theorem onElements_rewrites (e : α ≃ (Fin k → UInt8)) (routine : (ℕ → α) → ℕ → α) (mem : Bytes)
    {g : ℕ → α} {lo hi : ℕ}
    (h : Rewrites (fun j _ => g j) lo hi (elements e mem) (routine (elements e mem))) :
    Rewrites (fun i _ => bytes e g i) (lo * k) (hi * k) mem (onElements e routine mem) := by
  have hk : 0 < k := Nat.pos_of_neZero k
  intro i
  have hin : (lo ≤ i / k ∧ i / k < hi) ↔ (lo * k ≤ i ∧ i < hi * k) :=
    and_congr (Nat.le_div_iff_mul_le hk) (Nat.div_lt_iff_lt_mul hk)
  have hold : e (elements e mem (i / k)) (Fin.ofNat k i) = mem i :=
    congrFun (bytes_elements e mem) i
  rw [onElements, bytes, h (i / k)]
  by_cases hi' : lo * k ≤ i ∧ i < hi * k
  · rw [if_pos (hin.mpr hi'), if_pos hi']
    rfl
  · rw [if_neg (mt hin.mp hi'), if_neg hi', hold]

end

section

variable {α : Type*}

/-- The array after a routine that was given the pointer `base` elements into it. -/
def fromPointer (base : ℕ) (routine : (ℕ → α) → ℕ → α) (a : ℕ → α) : ℕ → α := fun i =>
  if i < base then a i else routine (fun j => a (base + j)) (i - base)

theorem fromPointer_rewrites (base : ℕ) (routine : (ℕ → α) → ℕ → α) (a : ℕ → α) {f : ℕ → α → α}
    {n : ℕ} (h : Rewrites f 0 n (fun j => a (base + j)) (routine fun j => a (base + j))) :
    Rewrites (fun i => f (i - base)) base (base + n) a (fromPointer base routine a) := by
  intro i
  unfold fromPointer
  by_cases hi : i < base
  · rw [if_pos hi, if_neg (by omega)]
  · have hback : base + (i - base) = i := by omega
    rw [if_neg hi, h]
    dsimp only
    rw [hback]
    by_cases hn : i < base + n
    · rw [if_pos (by omega), if_pos (by omega)]
    · rw [if_neg (by omega), if_neg (by omega)]

end

/-! ### Words and half-words -/

def wordBytes : UInt32 ≃ (Fin 4 → UInt8) where
  toFun := byte
  invFun := word
  left_inv w := eq_of_byte (byte_word (byte w))
  right_inv b := funext (byte_word b)

def halfBytes : UInt16 ≃ (Fin 2 → UInt8) where
  toFun := halfByte
  invFun := half
  left_inv h := eq_of_halfByte (halfByte_half (halfByte h))
  right_inv b := funext (halfByte_half b)

end DrmCxx.Lib.ByteView
