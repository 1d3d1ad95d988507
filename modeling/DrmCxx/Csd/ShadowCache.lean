import DrmCxx.Csd.BoxBlur
import DrmCxx.Lib.Table
import Mathlib.Algebra.Order.Ring.Int
import Mathlib.Logic.Function.Basic

/-!
# The shadow cache

Shadows are rendered once for each size, elevation and theme, and kept in a list with the most
recently used first, which an index of list nodes finds by key. Reads and writes of pixels are
checked, and so are the `int`s of a render and pointers to nodes: what the language leaves undefined
has no result, and neither has a render that throws.
-/

namespace DrmCxx.Csd

open BoxBlur (checkedInt store blur3)
open Lib (Table)

/-! ### Themes and keys -/

inductive Elevation
  | blurred
  | focused
  deriving DecidableEq, Repr

structure Color where
  r : UInt8 := 0
  g : UInt8 := 0
  b : UInt8 := 0
  a : UInt8 := 0
  deriving DecidableEq, Repr

/-- The fields of a theme that are hashed. The noise amplitude is given by its bits. -/
structure Theme where
  cornerRadius : Int32 := 0
  shadowExtent : Int32 := 0
  noiseAmplitude : UInt64 := 0
  titleBarHeight : Int32 := 0
  titleBarFontSize : Int32 := 0
  panelTop : Color := {}
  panelBottom : Color := {}
  rimFocused : Color := {}
  rimBlurred : Color := {}
  shadow : Color := {}
  titleText : Color := {}
  titleShadow : Color := {}
  closeFill : Color := {}
  closeHover : Color := {}
  minimizeFill : Color := {}
  minimizeHover : Color := {}
  maximizeFill : Color := {}
  maximizeHover : Color := {}
  deriving DecidableEq, Repr

def fnvOffset : UInt64 := 0xCBF29CE484222325

def fnvPrime : UInt64 := 0x100000001B3

def fnv1a (seed : UInt64) (bytes : List UInt8) : UInt64 :=
  bytes.foldl (fun h b => (h ^^^ b.toUInt64) * fnvPrime) seed

def hashColor (h : UInt64) (c : Color) : UInt64 := fnv1a h [c.r, c.g, c.b, c.a]

def hashU32 (h : UInt64) (v : UInt32) : UInt64 :=
  fnv1a h [(v >>> 24).toUInt8, (v >>> 16).toUInt8, (v >>> 8).toUInt8, v.toUInt8]

/-- The bytes of a 64-bit value in memory, of a little-endian host. -/
def bytesOfU64 (v : UInt64) : List UInt8 :=
  [v.toUInt8, (v >>> 8).toUInt8, (v >>> 16).toUInt8, (v >>> 24).toUInt8, (v >>> 32).toUInt8,
    (v >>> 40).toUInt8, (v >>> 48).toUInt8, (v >>> 56).toUInt8]

/-- `theme_id`. -/
def themeId (t : Theme) : UInt64 :=
  let h := hashU32 fnvOffset t.cornerRadius.toUInt32
  let h := hashU32 h t.shadowExtent.toUInt32
  let h := fnv1a h (bytesOfU64 t.noiseAmplitude)
  let h := hashU32 h t.titleBarHeight.toUInt32
  let h := hashU32 h t.titleBarFontSize.toUInt32
  [t.panelTop, t.panelBottom, t.rimFocused, t.rimBlurred, t.shadow, t.titleText, t.titleShadow,
    t.closeFill, t.closeHover, t.minimizeFill, t.minimizeHover, t.maximizeFill,
    t.maximizeHover].foldl hashColor h

structure ShadowKey where
  width : UInt32 := 0
  height : UInt32 := 0
  elevation : Elevation := .blurred
  themeId : UInt64 := 0
  deriving DecidableEq, Repr

/-! ### Rendering -/

/-- `static_cast<int>` of a size. -/
def toInt (v : UInt32) : ℤ := v.toInt32.toInt

/-- The product of two `int`s that are converted to `size_t`. -/
def area (w h : ℤ) : UInt64 := UInt64.ofInt w * UInt64.ofInt h

/-- A vector of `n` zeros; one that is longer than vectors can be throws. -/
def zeros (n : UInt64) : Option (List UInt8) :=
  if n.toNat < 2 ^ 63 then some (List.replicate n.toNat 0) else none

/-- `v` lies between the two corners of a side. -/
def insideBand (v start len radius : ℤ) : Option Bool := do
  let first ← checkedInt (start + radius)
  if v < first then some false
  else
    let stop ← checkedInt (start + len)
    let last ← checkedInt (stop - radius)
    some (v < last)

/-- The centre of the nearer corner of a side. -/
def cornerCentre (v start len radius : ℤ) : Option ℤ := do
  let first ← checkedInt (start + radius)
  if v < first then some first
  else
    let stop ← checkedInt (start + len)
    let last ← checkedInt (stop - 1)
    checkedInt (last - radius)

/-- The square of the distance is within the radius's. -/
def withinRadius (dx dy radius : ℤ) : Option Bool := do
  let xx ← checkedInt (dx * dx)
  let yy ← checkedInt (dy * dy)
  let distance ← checkedInt (xx + yy)
  let limit ← checkedInt (radius * radius)
  some (distance ≤ limit)

def insideRoundedRect (x y rx ry rw rh radius : ℤ) : Option Bool := do
  let right ← checkedInt (rx + rw)
  let bottom ← checkedInt (ry + rh)
  if x < rx ∨ x ≥ right ∨ y < ry ∨ y ≥ bottom then some false
  else
    let across ← insideBand x rx rw radius
    if across then some true
    else
      let down ← insideBand y ry rh radius
      if down then some true
      else
        let cx ← cornerCentre x rx rw radius
        let cy ← cornerCentre y ry rh radius
        let dx ← checkedInt (x - cx)
        let dy ← checkedInt (y - cy)
        withinRadius dx dy radius

/-- The mask of the panel, before it is blurred. -/
def panelMask (w h extent cornerRadius : ℤ) : Option (List UInt8) := do
  let mask ← zeros (area w h)
  let margins ← checkedInt (2 * extent)
  let innerW ← checkedInt (w - margins)
  let innerH ← checkedInt (h - margins)
  let panelW := max 0 innerW
  let panelH := max 0 innerH
  let radius := min cornerRadius (min (panelW / 2) (panelH / 2))
  if panelW > 0 ∧ panelH > 0 then
    (List.range h.toNat).foldlM (fun mask (y : ℕ) =>
      (List.range w.toNat).foldlM (fun mask (x : ℕ) => do
        let inside ← insideRoundedRect x y extent extent panelW panelH radius
        if inside then store mask (y * w.toNat + x) 0xFF else some mask) mask) mask
  else some mask

/-- What the floating-point arithmetic makes of the mask, the shadow's alpha and the elevation. -/
abbrev Tint := UInt8 → UInt8 → Elevation → UInt8

/-- A premultiplied pixel, in the order B, G, R, A. -/
def shadowPixel (tint : Tint) (s : Color) (elevation : Elevation) (m : UInt8) : List UInt8 :=
  let a := tint m s.a elevation
  let scale (c : UInt8) : UInt8 := UInt8.ofNat (c.toNat * a.toNat / 255)
  [scale s.b, scale s.g, scale s.r, a]

/-- The bytes of the pixel `i` of a vector. -/
def storePixel (out : List UInt8) (i : ℕ) (pixel : List UInt8) : Option (List UInt8) :=
  pixel.zipIdx.foldlM (fun out v => store out (4 * i + v.2) v.1) out

/-- `render_shadow`. -/
def renderShadow (tint : Tint) (key : ShadowKey) (theme : Theme) : Option (List UInt8) := do
  let w := toInt key.width
  let h := toInt key.height
  let extent := max 0 theme.shadowExtent.toInt
  let mask ← panelMask w h extent theme.cornerRadius.toInt
  let mask ← blur3 mask w h extent
  let out ← zeros (area w h * 4)
  let count ← checkedInt (w * h)
  (List.range count.toNat).foldlM (fun out i => do
    let m ← mask[i]?
    storePixel out i (shadowPixel tint theme.shadow key.elevation m)) out

/-! ### Compositing -/

/-- Memory, from the destination's first byte on. -/
abbrev Bytes := ℕ → UInt8

/-- Whether there are pixels, and their layout. -/
structure ShadowDest where
  pixels : Bool := true
  stride : UInt32 := 0
  width : UInt32 := 0
  height : UInt32 := 0
  deriving DecidableEq, Repr

def srcOver (s d a : UInt8) : UInt8 := UInt8.ofNat (s.toNat + d.toNat * (255 - a.toNat) / 255)

/-- `src_over_row`, onto the row that starts at `off`. -/
def srcOverRow (src : ℕ → Option UInt8) (off pixels : ℕ) (dst : Bytes) : Option Bytes :=
  (List.range pixels).foldlM (fun dst x => do
    let s₀ ← src (4 * x)
    let s₁ ← src (4 * x + 1)
    let s₂ ← src (4 * x + 2)
    let a ← src (4 * x + 3)
    let i := off + 4 * x
    let dst := Function.update dst i (srcOver s₀ (dst i) a)
    let dst := Function.update dst (i + 1) (srcOver s₁ (dst (i + 1)) a)
    let dst := Function.update dst (i + 2) (srcOver s₂ (dst (i + 2)) a)
    some (Function.update dst (i + 3) (srcOver a (dst (i + 3)) a))) dst

/-- The rows are composited one after another, as far as both sides reach. -/
def blitRows (row : ℕ → ℕ → Option UInt8) (key : ShadowKey) (dest : ShadowDest) (dst : Bytes) :
    Option Bytes :=
  (List.range (min dest.height.toNat key.height.toNat)).foldlM (fun dst y =>
    srcOverRow (row y) (y * dest.stride.toNat) (min dest.width.toNat key.width.toNat) dst) dst

/-- A byte of a row of an entry's pixels. -/
def rowOf (pixels : List UInt8) (key : ShadowKey) (y i : ℕ) : Option UInt8 :=
  pixels[y * key.width.toNat * 4 % 2 ^ 64 + i]?

/-- A byte of the scratch row of a cross-fade. -/
def lerpRow (a b : ℕ → ℕ → Option UInt8) (wa wb : ℕ) (y i : ℕ) : Option UInt8 := do
  let pa ← a y i
  let pb ← b y i
  some (UInt8.ofNat ((pa.toNat * wa + pb.toNat * wb + 128) / 256))

/-! ### The cache -/

abbrev NodeId := ℕ

/-- A node of the list; nodes are numbered in the order of their creation. -/
structure CacheEntry where
  node : NodeId
  key : ShadowKey
  pixels : List UInt8
  deriving DecidableEq, Repr

structure ShadowCache where
  capacity : ℕ
  capacity_pos : 0 < capacity
  /-- The most recently used first. -/
  order : List CacheEntry := []
  index : Table ShadowKey NodeId := .empty
  next : NodeId := 0

namespace ShadowCache

def defaultCapacity : ℕ := 8

/-- The constructor. -/
def create (capacity : ℕ) : ShadowCache :=
  if h : capacity = 0 then { capacity := defaultCapacity, capacity_pos := by decide }
  else { capacity, capacity_pos := Nat.pos_of_ne_zero h }

variable (tint : Tint) (c : ShadowCache)

def clear : ShadowCache := { c with order := [], index := .empty }

/-- The entry an iterator or a pointer leads to, if it is still there. -/
def deref (it : Option NodeId) : Option CacheEntry :=
  it.bind fun n => c.order.find? fun e => e.node = n

/-- The node moves to the front. -/
def splice (n : NodeId) : ShadowCache :=
  { c with
    order := (c.order.filter fun e => e.node = n) ++ c.order.filter fun e => e.node ≠ n }

/-- The loop that drops the last entry while there are too many. -/
def evictLoop : ℕ → ShadowCache → ShadowCache
  | 0, c => c
  | fuel + 1, c =>
    if c.order.length > c.capacity then
      match c.order.getLast? with
      | none => c
      | some e => evictLoop fuel { c with order := c.order.dropLast, index := c.index.erase e.key }
    else c

def evict : ShadowCache := evictLoop c.order.length c

/-- A null pointer, or an iterator of the index that is yet to be followed. -/
inductive Fetched
  | null
  | at (it : Option NodeId)
  deriving DecidableEq, Repr

/-- The cache with a new entry at the front. -/
def withEntry (key : ShadowKey) (pixels : List UInt8) : ShadowCache :=
  { c with
    order := ⟨c.next, key, pixels⟩ :: c.order
    index := c.index.insertOrAssign key c.next
    next := c.next + 1 }

/-- The lookup of both blits: a hit goes to the front, a miss is rendered. -/
def fetch (key : ShadowKey) (theme : Theme) : Option (ShadowCache × Fetched) :=
  match c.index.find? key with
  | some n => some (c.splice n, .at (some n))
  | none => (renderShadow tint key theme).map fun pixels =>
    if pixels.isEmpty then (c, .null)
    else
      let c := (c.withEntry key pixels).evict
      (c, .at (c.index.find? key))

structure BlitResult where
  cache : ShadowCache
  ok : Bool
  bytes : Bytes

/-- There is nothing to blit onto. -/
def refusesDest (dest : ShadowDest) : Bool := !dest.pixels || dest.width = 0 || dest.height = 0

def blitInto (key : ShadowKey) (theme : Theme) (dest : ShadowDest) (dst : Bytes) :
    Option BlitResult :=
  if refusesDest dest || key.width = 0 || key.height = 0 then some ⟨c, false, dst⟩
  else do
    let (c, e) ← c.fetch tint key theme
    match e with
    | .null => some ⟨c, false, dst⟩
    | .at it =>
      let e ← c.deref it
      let dst ← blitRows (rowOf e.pixels key) key dest dst
      some ⟨c, true, dst⟩

/-- What the clamped `t` comes to: an end, or the two weights. -/
inductive Fade
  | atA
  | atB
  | between (wa wb : ℕ)
  deriving DecidableEq, Repr

def refusesKeys (keyA keyB : ShadowKey) : Bool :=
  keyA.width = 0 || keyA.height = 0 || keyA.width ≠ keyB.width || keyA.height ≠ keyB.height

def blitCrossFade (keyA keyB : ShadowKey) (theme : Theme) (dest : ShadowDest) (fade : Fade)
    (dst : Bytes) : Option BlitResult :=
  if refusesDest dest || refusesKeys keyA keyB then some ⟨c, false, dst⟩
  else match fade with
    | .atA => c.blitInto tint keyA theme dest dst
    | .atB => c.blitInto tint keyB theme dest dst
    | .between wa wb => do
      let (c, ea) ← c.fetch tint keyA theme
      let (c, eb) ← c.fetch tint keyB theme
      match ea, eb with
      | .at ita, .at itb =>
        -- both pointers are followed only now
        let a ← c.deref ita
        let b ← c.deref itb
        let dst ← blitRows (lerpRow (rowOf a.pixels keyA) (rowOf b.pixels keyB) wa wb) keyA dest dst
        some ⟨c, true, dst⟩
      | _, _ => some ⟨c, false, dst⟩

end ShadowCache

end DrmCxx.Csd
