import DrmCxx.Lib.Indices
import DrmCxx.Scene.Canvas.Blend
import Mathlib.Logic.Function.Basic

/-!
# The composition canvas

`CompositeCanvas`: a pair of scanout buffers painted in turn through one ARGB8888 shadow, with the
rectangles that say which part of the shadow was painted and which part of each buffer it was
copied to.
-/

namespace DrmCxx.Scene

/-- Canvas dimensions the kernel made scanout buffers of. -/
structure CanvasSize where
  width : ℕ
  height : ℕ
  width_pos : 0 < width
  height_pos : 0 < height
  /-- A shadow row fits 32 bits. -/
  width_lt : width < 2 ^ 30
  height_lt : height < 2 ^ 31

/-- A half-open rectangle in canvas pixels; the fields hold `std::int32_t` values. -/
structure DirtyRect where
  x : ℤ := 0
  y : ℤ := 0
  w : ℤ := 0
  h : ℤ := 0
  deriving DecidableEq, Repr

namespace DirtyRect

def empty (r : DirtyRect) : Bool := r.w ≤ 0 || r.h ≤ 0

/-- `dirty_union`, in 32-bit arithmetic. -/
def union (a b : DirtyRect) : DirtyRect :=
  if a.empty then b
  else if b.empty then a
  else
    let x0 := min a.x b.x
    let y0 := min a.y b.y
    let x1 := max (i32 (a.x + a.w)) (i32 (b.x + b.w))
    let y1 := max (i32 (a.y + a.h)) (i32 (b.y + b.h))
    ⟨x0, y0, i32 (x1 - x0), i32 (y1 - y0)⟩

/-- `clip_to_canvas`; its bounds are computed in 64 bits. -/
def clipToCanvas (size : CanvasSize) (r : DirtyRect) : Option DirtyRect :=
  if r.w ≤ 0 ∨ r.h ≤ 0 then none
  else
    let x0 := max 0 r.x
    let y0 := max 0 r.y
    let x1 := min (size.width : ℤ) (r.x + r.w)
    let y1 := min (size.height : ℤ) (r.y + r.h)
    if x1 ≤ x0 ∨ y1 ≤ y0 then none else some ⟨x0, y0, x1 - x0, y1 - y0⟩

/-- The pixel is in the rectangle. -/
def Has (r : DirtyRect) (x y : ℕ) : Prop :=
  r.x ≤ x ∧ (x : ℤ) < r.x + r.w ∧ r.y ≤ y ∧ (y : ℤ) < r.y + r.h

instance (r : DirtyRect) (x y : ℕ) : Decidable (r.Has x y) :=
  inferInstanceAs (Decidable (_ ∧ _ ∧ _ ∧ _))

end DirtyRect

structure CompositeCanvas where
  outputFourcc : UInt32
  /-- The mapped pixels of each scanout buffer; `none` is a buffer that was forgotten. -/
  buffers : Fin 2 → Option Pixmap := fun _ => some fun _ _ => 0
  /-- Unallocated until the first paint. -/
  shadow : Option Pixmap := none
  currentDirty : DirtyRect := {}
  prevFlush : Fin 2 → DirtyRect := fun _ => {}
  backIndex : Fin 2 := 1

namespace CompositeCanvas

/-- A canvas as `create` returns it. -/
def created (outputFourcc : UInt32) : CompositeCanvas where
  outputFourcc := outputFourcc

def beginFrame (c : CompositeCanvas) : CompositeCanvas :=
  { c with backIndex := 1 - c.backIndex }

/-- `ensure_shadow`: the shadow to paint into, `none` without a back buffer. -/
def ensureShadow (c : CompositeCanvas) : Option (CompositeCanvas × Pixmap) :=
  match c.buffers c.backIndex, c.shadow with
  | none, _ => none
  | some _, some s => some (c, s)
  | some _, none => some ({ c with currentDirty := {}, prevFlush := fun _ => {} }, fun _ _ => 0)

def clear (size : CanvasSize) (c : CompositeCanvas) : CompositeCanvas :=
  match c.ensureShadow with
  | none => c
  | some (c, s) =>
    match c.currentDirty.clipToCanvas size with
    | none => { c with shadow := some s, currentDirty := {} }
    | some r =>
      { c with
        shadow := some fun x y => if r.Has x y then 0 else s x y
        currentDirty := {} }

def clearRect (size : CanvasSize) (c : CompositeCanvas) (x y w h : Int32) : CompositeCanvas :=
  match c.ensureShadow with
  | none => c
  | some (c, s) =>
    { c with
      shadow := some (clearInto s size.width size.height x y w h)
      currentDirty := c.currentDirty.union ⟨x.toInt, y.toInt, w.toInt, h.toInt⟩ }

/-- The rectangle `blend` marks: its extents converted to signed. -/
def blendDirty (dstRect : CompositeRect) : DirtyRect :=
  ⟨dstRect.x.toInt, dstRect.y.toInt, i32 dstRect.w.toNat, i32 dstRect.h.toNat⟩

def blend (size : CanvasSize) (c : CompositeCanvas) (src : CompositeSrc)
    (srcRect dstRect : CompositeRect) : CompositeCanvas :=
  match c.ensureShadow with
  | none => c
  | some (c, s) =>
    { c with
      shadow := some (blendInto s size.width size.height src srcRect dstRect)
      currentDirty := c.currentDirty.union (blendDirty dstRect) }

def flush (size : CanvasSize) (c : CompositeCanvas) : CompositeCanvas :=
  match c.buffers c.backIndex, c.shadow with
  | some buf, some s =>
    let copied : Pixmap :=
      match (c.currentDirty.union (c.prevFlush c.backIndex)).clipToCanvas size with
      | none => buf
      | some r => fun x y => if r.Has x y then convertPixel c.outputFourcc (s x y) else buf x y
    { c with
      buffers := Function.update c.buffers c.backIndex (some copied)
      prevFlush := Function.update c.prevFlush c.backIndex c.currentDirty }
  | _, _ => c

def onSessionPaused (c : CompositeCanvas) : CompositeCanvas :=
  { c with buffers := fun _ => none }

/-- `on_session_resumed`; `created i` says whether the `i`-th buffer could be made again. A new
buffer is zeroed. -/
def onSessionResumed (c : CompositeCanvas) (created : Fin 2 → Bool) : CompositeCanvas :=
  let fresh : Option Pixmap := some fun _ _ => 0
  if ¬ created 0 then c
  else if ¬ created 1 then { c with buffers := Function.update c.buffers 0 fresh }
  else { c with buffers := fun _ => fresh, backIndex := 1 }

end CompositeCanvas

end DrmCxx.Scene
