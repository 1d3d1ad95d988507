import DrmCxx.Scene.Canvas.CompositeCanvas

/-!
# Damage between two frames

Decoration slots of one frame are compared with those of the frame before, by index, to bound what
of the canvas has to be painted again.
-/

namespace DrmCxx.Csd

open Scene (CanvasSize i32 u32)

structure DamageSlot where
  armed : Bool := false
  x : Int32 := 0
  y : Int32 := 0
  w : UInt32 := 0
  h : UInt32 := 0
  gen : UInt64 := 0
  deriving DecidableEq, Repr

/-- Half-open; the corner holds `std::int32_t` values, the extents `std::uint32_t` ones. -/
structure DamageRect where
  x : ℤ := 0
  y : ℤ := 0
  w : ℕ := 0
  h : ℕ := 0
  deriving DecidableEq, Repr

namespace DamageRect

def empty (r : DamageRect) : Bool := r.w = 0 || r.h = 0

/-- The pixel is in the rectangle. -/
def Has (r : DamageRect) (x y : ℕ) : Prop :=
  r.x ≤ x ∧ (x : ℤ) < r.x + r.w ∧ r.y ≤ y ∧ (y : ℤ) < r.y + r.h

instance (r : DamageRect) (x y : ℕ) : Decidable (r.Has x y) :=
  inferInstanceAs (Decidable (_ ∧ _ ∧ _ ∧ _))

end DamageRect

/-- The bounding box that `compute_damage` grows. -/
structure Bounds where
  x0 : ℤ
  y0 : ℤ
  x1 : ℤ
  y1 : ℤ

/-- The far edge of a side, in 32 bits. -/
def farEdge (pos : ℤ) (extent : ℕ) : ℤ := i32 (pos + i32 extent)

def addRect (b : Option Bounds) (x y : ℤ) (w h : ℕ) : Option Bounds :=
  if w = 0 ∨ h = 0 then b
  else
    let rx1 := farEdge x w
    let ry1 := farEdge y h
    match b with
    | none => some ⟨x, y, rx1, ry1⟩
    | some b => some ⟨min b.x0 x, min b.y0 y, max b.x1 rx1, max b.y1 ry1⟩

def DamageSlot.addTo (s : DamageSlot) (b : Option Bounds) : Option Bounds :=
  if s.armed then addRect b s.x.toInt s.y.toInt s.w.toNat s.h.toNat else b

/-- What the diff of one slot calls a change. -/
def slotChanged (p c : DamageSlot) : Bool :=
  p.armed != c.armed ||
    c.armed && (p.x != c.x || p.y != c.y || p.w != c.w || p.h != c.h || p.gen != c.gen)

/-- The rectangle between two corners. -/
def rectBetween (x0 y0 x1 y1 : ℤ) : DamageRect :=
  if x1 ≤ x0 ∨ y1 ≤ y0 then {} else ⟨x0, y0, u32 (i32 (x1 - x0)), u32 (i32 (y1 - y0))⟩

/-- The changed slots' rectangles, where they were and where they are. -/
def changedBounds (prev cur : List DamageSlot) : Option Bounds :=
  (prev.zip cur).foldl
    (fun b pc => if slotChanged pc.1 pc.2 then pc.2.addTo (pc.1.addTo b) else b) none

/-- `compute_damage`. -/
def computeDamageOf (canvasW canvasH : ℕ) (prev cur : List DamageSlot) : DamageRect :=
  if prev.length ≠ cur.length ∨ prev = [] then ⟨0, 0, canvasW, canvasH⟩
  else
    match changedBounds prev cur with
    | none => {}
    | some b =>
      rectBetween (max 0 b.x0) (max 0 b.y0) (min (i32 canvasW) b.x1) (min (i32 canvasH) b.y1)

def computeDamage (size : CanvasSize) (prev cur : List DamageSlot) : DamageRect :=
  computeDamageOf size.width size.height prev cur

def intersectRect (x y : ℤ) (w h : ℕ) (r : DamageRect) : DamageRect :=
  rectBetween (max x r.x) (max y r.y) (min (farEdge x w) (farEdge r.x r.w))
    (min (farEdge y h) (farEdge r.y r.h))

def unionRect (a b : DamageRect) : DamageRect :=
  if a.empty then b
  else if b.empty then a
  else
    let x0 := min a.x b.x
    let y0 := min a.y b.y
    let x1 := max (farEdge a.x a.w) (farEdge b.x b.w)
    let y1 := max (farEdge a.y a.h) (farEdge b.y b.h)
    ⟨x0, y0, u32 (i32 (x1 - x0)), u32 (i32 (y1 - y0))⟩

end DrmCxx.Csd
