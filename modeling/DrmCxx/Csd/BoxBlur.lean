import Mathlib.Algebra.Order.Group.Int

/-!
# The box blur in memory

`box_blur_h`, `box_blur_v` and `blur3` over flat buffers, in the integers of their types. An index
outside a buffer, an `int` that does not fit and a division by 0 have no result.
-/

namespace DrmCxx.Csd.BoxBlur

/-! ### Ints and buffers -/

def intMax : ℤ := 2 ^ 31 - 1

/-- The result of an operation on `int`s. -/
def checkedInt (n : ℤ) : Option ℤ := if -intMax - 1 ≤ n ∧ n ≤ intMax then some n else none

/-- `dst[i] = v`. -/
def store (dst : List UInt8) (i : ℕ) (v : UInt8) : Option (List UInt8) :=
  if i < dst.length then some (dst.set i v) else none

/-- `memcpy` of as many bytes as the product of two `size_t`s says. -/
def copy (src dst : List UInt8) (width height : ℤ) : Option (List UInt8) :=
  let n := (UInt64.ofInt width * UInt64.ofInt height).toNat
  if n ≤ src.length ∧ n ≤ dst.length then some (src.take n ++ dst.drop n) else none

/-! ### The window -/

structure Window where
  sum : ℤ := 0
  count : ℤ := 0
  deriving DecidableEq, Repr

namespace Window

def add (w : Window) (v : UInt8) : Option Window := do
  let sum ← checkedInt (w.sum + v.toNat)
  let count ← checkedInt (w.count + 1)
  some { sum, count }

def drop (w : Window) (v : UInt8) : Option Window := do
  let sum ← checkedInt (w.sum - v.toNat)
  let count ← checkedInt (w.count - 1)
  some { sum, count }

def mean (w : Window) : Option UInt8 :=
  if w.count = 0 then none else some (UInt8.ofInt (w.sum.tdiv w.count))

/-- The byte of a line at `addX` is added, if the line has it. -/
def enter (src : List UInt8) (addr : ℕ → ℕ) (len : ℕ) (addX : ℤ) (w : Window) : Option Window :=
  if addX < len then src[addr addX.toNat]?.bind w.add else some w

/-- The byte of a line at `dropX` is dropped, if the line has it. -/
def leave (src : List UInt8) (addr : ℕ → ℕ) (dropX : ℤ) (w : Window) : Option Window :=
  if dropX ≥ 0 then src[addr dropX.toNat]?.bind w.drop else some w

/-- The window of a line that lies at `addr`, from around `x` to around `x + 1`. -/
def slide (src : List UInt8) (addr : ℕ → ℕ) (len radius x : ℕ) (w : Window) : Option Window := do
  let addX ← checkedInt (x + radius + 1)
  let dropX ← checkedInt (x - radius)
  let w ← w.enter src addr len addX
  w.leave src addr dropX

/-- The window around the first position. -/
def prime (src : List UInt8) (addr : ℕ → ℕ) (len radius : ℕ) : Option Window :=
  (List.range (min (radius + 1) len)).foldlM (fun w x => src[addr x]?.bind w.add) {}

end Window

/-! ### The passes -/

/-- One position of a line: the mean is written, and the window slides on. -/
def blurAt (src : List UInt8) (addr : ℕ → ℕ) (len radius : ℕ) (s : List UInt8 × Window) (x : ℕ) :
    Option (List UInt8 × Window) := do
  let mean ← s.2.mean
  let dst ← store s.1 (addr x) mean
  let w ← s.2.slide src addr len radius x
  some (dst, w)

/-- One row of `box_blur_h`, or one column of `box_blur_v`. -/
def blurLine (src : List UInt8) (addr : ℕ → ℕ) (len radius : ℕ) (dst : List UInt8) :
    Option (List UInt8) := do
  let w ← Window.prime src addr len radius
  let s ← (List.range len).foldlM (blurAt src addr len radius) (dst, w)
  some s.1

/-- `box_blur_h`. -/
def boxBlurH (src dst : List UInt8) (width height radius : ℤ) : Option (List UInt8) :=
  if radius ≤ 0 then copy src dst width height
  else (List.range height.toNat).foldlM (fun dst y =>
    blurLine src (fun x => y * width.toNat + x) width.toNat radius.toNat dst) dst

/-- `box_blur_v`. -/
def boxBlurV (src dst : List UInt8) (width height radius : ℤ) : Option (List UInt8) :=
  if radius ≤ 0 then copy src dst width height
  else (List.range width.toNat).foldlM (fun dst x =>
    blurLine src (fun y => y * width.toNat + x) height.toNat radius.toNat dst) dst

/-- One of the three passes, over the buffer and the scratch one. -/
def pass (width height radius : ℤ) (b : List UInt8 × List UInt8) :
    Option (List UInt8 × List UInt8) := do
  let scratch ← boxBlurH b.1 b.2 width height radius
  let buf ← boxBlurV scratch b.1 width height radius
  some (buf, scratch)

/-- `blur3`. -/
def blur3 (buf : List UInt8) (width height totalRadius : ℤ) : Option (List UInt8) :=
  if totalRadius ≤ 0 ∨ width = 0 ∨ height = 0 then some buf
  else do
    let total ← checkedInt (totalRadius + 2)
    let perPass := max 1 (total.tdiv 3)
    let scratch := List.replicate buf.length 0
    let b ← (List.range 3).foldlM (fun b _ => pass width height perPass b) (buf, scratch)
    some b.1

end DrmCxx.Csd.BoxBlur
