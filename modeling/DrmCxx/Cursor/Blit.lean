import DrmCxx.Cursor.Renderer

/-!
# Drawing a cursor frame

The pixels that `blit_frame` lays into a buffer. Reads of the frame and writes of the buffer are
checked: one outside them has no result.
-/

namespace DrmCxx.Cursor

open Scene (fourccCode drmFormatArgb8888 drmFormatAbgr8888)

/-! ### Pixels -/

def drmFormatRgba8888 : UInt32 := fourccCode 'R' 'A' '2' '4'

def drmFormatBgra8888 : UInt32 := fourccCode 'B' 'A' '2' '4'

/-- The eight bits of a word from `shift` on. -/
def channel (p shift : UInt32) : UInt32 := (p >>> shift) &&& 0xff

/-- Four channels in one word, the first on top. -/
def pack (a r g b : UInt32) : UInt32 := (a <<< 24) ||| (r <<< 16) ||| (g <<< 8) ||| b

/-- An ARGB8888 word in another of the cursor formats. -/
def fromArgb (argb fourcc : UInt32) : UInt32 :=
  let a := argb >>> 24
  let r := channel argb 16
  let g := channel argb 8
  let b := argb &&& 0xff
  if fourcc = drmFormatRgba8888 then pack r g b a
  else if fourcc = drmFormatAbgr8888 then pack a b g r
  else if fourcc = drmFormatBgra8888 then pack b g r a
  else argb

/-- A frame with its pixels, row by row. -/
structure Bitmap where
  frame : Frame
  pixels : List UInt32
  length_pixels : pixels.length = frame.width * frame.height

/-! ### The buffer -/

/-- A mapped buffer, as words; rows are `stride` words apart. -/
structure Surface where
  width : ℕ
  height : ℕ
  stride : ℕ
  width_le : width ≤ stride
  words : ℕ → UInt32

namespace Surface

variable (s : Surface)

/-- The word belongs to a pixel of the buffer. -/
def inside (i : ℕ) : Bool := i % s.stride < s.width && i / s.stride < s.height

/-- A word is replaced by what `f` makes of it. -/
def put (i : ℕ) (f : UInt32 → Option UInt32) : Option Surface :=
  if s.inside i then (f (s.words i)).map fun v => { s with words := Function.update s.words i v }
  else none

/-- The places of a `w` by `h` rectangle, row by row. -/
def places (w h : ℕ) : List (ℕ × ℕ) :=
  (List.range h).flatMap fun y => (List.range w).map fun x => (x, y)

/-- A loop over the rectangle whose corner is at `x₀`, `y₀`. -/
def paint (x₀ y₀ w h : ℕ) (pixel : ℕ → ℕ → UInt32 → Option UInt32) : Option Surface :=
  (places w h).foldlM (fun t p => t.put ((p.2 + y₀) * s.stride + (p.1 + x₀)) (pixel p.1 p.2)) s

end Surface

/-! ### Turning -/

/-- `len - 1 - i`, which must not go below zero. -/
def mirror (len i : ℕ) : Option ℕ := if i < len then some (len - 1 - i) else none

/-- The source of a pixel of the turned frame. -/
def unturned (f : Frame) : Rotation → ℕ → ℕ → Option (ℕ × ℕ)
  | .k0, rx, ry => some (rx, ry)
  | .k90, rx, ry => (mirror f.height rx).map fun sy => (ry, sy)
  | .k180, rx, ry => (mirror f.width rx).bind fun sx => (mirror f.height ry).map fun sy => (sx, sy)
  | .k270, rx, ry => (mirror f.width ry).map fun sx => (sx, rx)

def sampleRotated (img : Bitmap) (rot : Rotation) (rx ry : ℕ) : Option UInt32 :=
  (unturned img.frame rot rx ry).bind fun src => img.pixels[src.2 * img.frame.width + src.1]?

/-! ### Downscaling -/

/-- The source pixels to a destination pixel on one axis, in 24.8. -/
def axisStep (rot dst : ℕ) : ℕ := rot * 2 ^ 8 / dst

/-- The source pixels that a destination pixel lies on, on one axis. -/
def boxCells (step d : ℕ) : List ℕ :=
  let first := d * step / 2 ^ 8
  List.range' first ((d * step + step + 0xff) / 2 ^ 8 - first)

/-- How much of the source pixel `s` the destination pixel `d` lies on. -/
def cellWeight (step d s : ℕ) : ℕ :=
  min (d * step + step) ((s + 1) * 2 ^ 8) - max (d * step) (s * 2 ^ 8)

/-- The sums over a box. -/
structure BoxSums where
  a : ℕ := 0
  r : ℕ := 0
  g : ℕ := 0
  b : ℕ := 0
  w : ℕ := 0
  deriving DecidableEq, Repr

def BoxSums.add (acc : BoxSums) (weight : ℕ) (p : UInt32) : BoxSums where
  a := acc.a + weight * (channel p 24).toNat
  r := acc.r + weight * (channel p 16).toNat
  g := acc.g + weight * (channel p 8).toNat
  b := acc.b + weight * (p &&& 0xff).toNat
  w := acc.w + weight

/-- The means, rounded to nearest. -/
def BoxSums.mean (acc : BoxSums) : Option UInt32 :=
  if acc.w = 0 then none
  else
    let half := acc.w / 2
    let mean (sum : ℕ) : UInt32 := UInt32.ofNat ((sum + half) / acc.w)
    some (pack (mean acc.a) (mean acc.r) (mean acc.g) (mean acc.b))

/-- One pixel of `box_downscale_rotated`. -/
def boxPixel (img : Bitmap) (rot : Rotation) (fx fy dx dy : ℕ) : Option UInt32 := do
  let acc ← (boxCells fy dy).foldlM (fun acc sy =>
    (boxCells fx dx).foldlM (fun acc sx => do
      let p ← sampleRotated img rot sx sy
      some (BoxSums.add acc (cellWeight fx dx sx * cellWeight fy dy sy) p)) acc) {}
  acc.mean

/-! ### The blit -/

/-- `needs_downscale`. -/
def needsDownscale (f : Frame) (rot : Rotation) (width height : ℕ) : Bool :=
  let (rotW, rotH) := Renderer.turnedSize f rot
  width < rotW || height < rotH

/-- One pixel of the sprite, before it is reordered. -/
def spritePixel (img : Bitmap) (rot : Rotation) (width height dx dy : ℕ) : Option UInt32 :=
  let (rotW, rotH) := Renderer.turnedSize img.frame rot
  let (blitW, blitH) := Renderer.blitSize img.frame rot width height
  if needsDownscale img.frame rot width height then
    boxPixel img rot (axisStep rotW blitW) (axisStep rotH blitH) dx dy
  else if rot = .k0 then img.pixels[dy * img.frame.width + dx]?
  else sampleRotated img rot dx dy

/-- What `blit_frame` does to the buffer's pixels. -/
def blitPixels (img : Bitmap) (rot : Rotation) (fourcc : UInt32) (s : Surface) :
    Option Surface := do
  let (blitW, blitH) := Renderer.blitSize img.frame rot s.width s.height
  let xOff := (s.width - blitW) / 2
  let yOff := (s.height - blitH) / 2
  let s ← s.paint 0 0 s.width s.height fun _ _ _ => some 0
  let s ← s.paint xOff yOff blitW blitH fun dx dy _ => spritePixel img rot s.width s.height dx dy
  if fourcc ≠ drmFormatArgb8888 then
    s.paint xOff yOff blitW blitH fun _ _ old => some (fromArgb old fourcc)
  else some s

end DrmCxx.Cursor
