import DrmCxx.Lib.Bytes
import DrmCxx.Lib.SortedSearch
import Mathlib.Data.List.Sort

/-!
# Format tables

The (fourcc, modifier) pairs of an `IN_FORMATS` blob, and the lookups in them. Reads of the blob
are checked: one outside it has no result.
-/

namespace DrmCxx.Fmt

open Lib (readU32 readU64)

structure FormatMod where
  fourcc : UInt32
  modifier : UInt64
  deriving DecidableEq, Repr

/-- `operator<`. -/
def FormatMod.lt (a b : FormatMod) : Bool :=
  if a.fourcc ≠ b.fourcc then a.fourcc < b.fourcc else a.modifier < b.modifier

/-- A run of `mods`. -/
structure Group where
  fourcc : UInt32
  first : UInt32
  count : UInt32
  deriving DecidableEq, Repr

structure FormatTable where
  pairs : List FormatMod := []
  mods : List UInt64 := []
  groups : List Group := []
  deriving DecidableEq, Repr

/-! ### The blob -/

/-- `drm_format_modifier_blob`. -/
structure BlobHeader where
  version : UInt32
  flags : UInt32
  countFormats : UInt32
  formatsOffset : UInt32
  countModifiers : UInt32
  modifiersOffset : UInt32
  deriving DecidableEq, Repr

/-- `drm_format_modifier`, but for its padding. -/
structure FormatModifier where
  formats : UInt64
  offset : UInt32
  modifier : UInt64
  deriving DecidableEq, Repr

def sizeofHeader : ℕ := 24

def sizeofFormat : ℕ := 4

def sizeofModifier : ℕ := 24

def readHeader (buf : List UInt8) : Option BlobHeader := do
  let version ← readU32 buf 0
  let flags ← readU32 buf 4
  let countFormats ← readU32 buf 8
  let formatsOffset ← readU32 buf 12
  let countModifiers ← readU32 buf 16
  let modifiersOffset ← readU32 buf 20
  some { version, flags, countFormats, formatsOffset, countModifiers, modifiersOffset }

/-- The entry `i` of the modifiers. -/
def readModifier (buf : List UInt8) (h : BlobHeader) (i : ℕ) : Option FormatModifier := do
  let start := h.modifiersOffset.toNat + i * sizeofModifier
  let formats ← readU64 buf start
  let offset ← readU32 buf (start + 8)
  let modifier ← readU64 buf (start + 16)
  some { formats, offset, modifier }

/-- The entry `i` of the formats. -/
def readFormat (buf : List UInt8) (h : BlobHeader) (i : ℕ) : Option UInt32 :=
  readU32 buf (h.formatsOffset.toNat + i * sizeofFormat)

/-- Both arrays lie in the buffer, by divisions that cannot overflow. -/
def BlobHeader.fits (h : BlobHeader) (size : ℕ) : Bool :=
  !(h.formatsOffset.toNat > size || h.modifiersOffset.toNat > size ||
    h.countFormats.toNat > (size - h.formatsOffset.toNat) / sizeofFormat ||
    h.countModifiers.toNat > (size - h.modifiersOffset.toNat) / sizeofModifier)

/-- The bit `b` of the mask. -/
def FormatModifier.hasBit (m : FormatModifier) (b : ℕ) : Bool :=
  (m.formats >>> UInt64.ofNat b) &&& 1 ≠ 0

/-- Each set bit is one fourcc. -/
def pushBits (buf : List UInt8) (h : BlobHeader) (m : FormatModifier) (pairs : List FormatMod) :
    Option (List FormatMod) :=
  (List.range 64).foldlM (fun pairs b =>
    if !m.hasBit b then some pairs
    else
      let idx := m.offset + UInt32.ofNat b
      if idx ≥ h.countFormats then some pairs
      else do
        let fourcc ← readFormat buf h idx.toNat
        some (pairs ++ [⟨fourcc, m.modifier⟩])) pairs

def pushModifiers (buf : List UInt8) (h : BlobHeader) (pairs : List FormatMod) :
    Option (List FormatMod) :=
  (List.range h.countModifiers.toNat).foldlM (fun pairs i => do
    let m ← readModifier buf h i
    pushBits buf h m pairs) pairs

/-! ### The index -/

/-- One group for each fourcc, in the order of the pairs. -/
def groupLoop : ℕ → List FormatMod → FormatTable → FormatTable
  | 0, _, t => t
  | _ + 1, [], t => t
  | fuel + 1, p :: ps, t =>
    let run := (p :: ps).takeWhile fun q => q.fourcc = p.fourcc
    groupLoop fuel ((p :: ps).dropWhile fun q => q.fourcc = p.fourcc)
      { t with
        mods := t.mods ++ run.map (·.modifier)
        groups := t.groups ++ [⟨p.fourcc, UInt32.ofNat t.mods.length, UInt32.ofNat run.length⟩] }

def buildIndex (pairs : List FormatMod) : FormatTable :=
  let pairs := Lib.unique (pairs.insertionSort fun a b => !b.lt a)
  groupLoop pairs.length pairs { pairs }

namespace FormatTable

/-- The table that the data give, null or bytes. -/
def fromBlob (data : Option (List UInt8)) : Option FormatTable :=
  match data with
  | none => some {}
  | some buf =>
    if buf.length < sizeofHeader then some {}
    else do
      let h ← readHeader buf
      if !h.fits buf.length then some {}
      else do
        let pairs ← pushModifiers buf h []
        some (buildIndex pairs)

variable (t : FormatTable)

def supports (fourcc : UInt32) (m : UInt64) : Bool :=
  Lib.binarySearch FormatMod.lt ⟨fourcc, m⟩ t.pairs

/-- The span of a group. -/
def modifiersFor (fourcc : UInt32) : List UInt64 :=
  match t.groups[Lib.lowerBound (fun g => g.fourcc < fourcc) t.groups]? with
  | none => []
  | some g => if g.fourcc ≠ fourcc then [] else (t.mods.drop g.first.toNat).take g.count.toNat

def all : List FormatMod := t.pairs

end FormatTable

end DrmCxx.Fmt
