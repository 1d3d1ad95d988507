import DrmCxx.Scene.Lowering

/-!
# Clipping in words

`clip_leading` in the integers of its types: an operation whose result does not fit 64 bits has no
result. `Scene.clipLeading` is the same arithmetic without bounds.
-/

namespace DrmCxx.Planes

open Scene (PlaneSpan)

/-! ### Checked words -/

def checkedAdd (a b : UInt64) : Option UInt64 :=
  if a.toNat + b.toNat < 2 ^ 64 then some (a + b) else none

def checkedSub (a b : UInt64) : Option UInt64 := if b ≤ a then some (a - b) else none

def checkedMul (a b : UInt64) : Option UInt64 :=
  if a.toNat * b.toNat < 2 ^ 64 then some (a * b) else none

/-- The magnitude of a negative destination. -/
def checkedNeg (a : Int64) : Option UInt64 :=
  if -a.toInt < 2 ^ 63 then some (-a).toUInt64 else none

/-! ### The clip -/

/-- `PlaneSpan`, as it is declared. -/
structure SpanWords where
  dst : Int64
  dstLen : UInt64
  src : UInt64
  srcLen : UInt64
  deriving DecidableEq, Repr

def SpanWords.toSpan (s : SpanWords) : PlaneSpan :=
  ⟨s.dst.toInt, s.dstLen.toNat, s.src.toNat, s.srcLen.toNat⟩

/-- `UINT32_MAX`. -/
def uint32Max : UInt64 := 0xffffffff

/-- `new_src_len`: `scaled / dst_len`, rounded towards no scale. -/
def newSrcLen (s : SpanWords) (scaled unscaled : UInt64) : Option UInt64 :=
  if s.srcLen < unscaled then do
    let sum ← checkedAdd scaled s.dstLen
    let sum ← checkedSub sum 1
    some (sum / s.dstLen)
  else some (scaled / s.dstLen)

/-- `clip_leading`, with whether it clipped. -/
def clipLeadingWords (s : SpanWords) : Option (SpanWords × Bool) :=
  if 0 ≤ s.dst ∨ s.dstLen = 0 ∨ uint32Max < s.dstLen ∨ uint32Max < s.srcLen then some (s, false)
  else do
    let clip ← checkedNeg s.dst
    if s.dstLen ≤ clip then some (s, false)
    else
      let kept ← checkedSub s.dstLen clip
      let scaled ← checkedMul s.srcLen kept
      let unscaled ← checkedMul s.dstLen 0x10000
      let srcLen ← newSrcLen s scaled unscaled
      let removed ← checkedSub s.srcLen srcLen
      let src ← checkedAdd s.src removed
      some ({ dst := 0, dstLen := kept, src, srcLen }, true)

end DrmCxx.Planes
