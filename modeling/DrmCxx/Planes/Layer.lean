import Mathlib.Data.List.Nodup
import Mathlib.Data.Int.Notation
import Mathlib.Data.Nat.Notation

/-!
# Layers and outputs

A `planes::Layer` is a bag of KMS plane properties and a few flags. Layers are shared by pointer
between the scene, the output and the allocator, so they live in a heap and are named by their
address.
-/

namespace DrmCxx.Planes

abbrev PlaneId := ℕ

abbrev CrtcId := ℕ

/-- The address of a layer. -/
abbrev LayerId := ℕ

/-! ### Properties -/

/-- The plane properties a layer can carry, in the order the code walks them. -/
inductive PropTag
  | fbId | fbModifier | crtcId | crtcX | crtcY | crtcW | crtcH | srcX | srcY | srcW | srcH
  | rotation | alpha | zpos | pixelFormat | inFenceFd
  deriving DecidableEq, Repr

inductive PropClass
  | content
  | placement
  deriving DecidableEq, Repr

/-- Content changes every frame without moving the layer. -/
def propClass : PropTag → PropClass
  | .fbId | .inFenceFd => .content
  | _ => .placement

def PropTag.all : List PropTag :=
  [.fbId, .fbModifier, .crtcId, .crtcX, .crtcY, .crtcW, .crtcH, .srcX, .srcY, .srcW, .srcH,
    .rotation, .alpha, .zpos, .pixelFormat, .inFenceFd]

theorem PropTag.mem_all (t : PropTag) : t ∈ PropTag.all := by cases t <;> decide

/-- `values_` under `set_mask_`: a value that is not set is never read. -/
abbrev Properties := PropTag → Option UInt64

/-- One boost-style `hash_combine`. `std::hash` of an integer is the integer. -/
def hashCombine (h x : UInt64) : UInt64 :=
  h ^^^ (x + 0x9e3779b97f4a7c15 + (h <<< (6 : UInt64)) + (h >>> (2 : UInt64)))

/-- What one property adds to the hash: content adds nothing. -/
def hashProperty (props : Properties) (h : UInt64) (i : ℕ) (t : PropTag) : UInt64 :=
  if propClass t = .content then h
  else match props t with
    | some v => hashCombine (hashCombine h i.toUInt64) v
    | none => h

/-- `Layer::property_hash`, on a 64-bit ABI. -/
def propertyHash (props : Properties) : UInt64 :=
  PropTag.all.zipIdx.foldl (fun h ti => hashProperty props h ti.2 ti.1) 0x9e3779b97f4a7c15

/-- Two bags that differ in content only have the same hash. -/
theorem propertyHash_congr {p q : Properties}
    (h : ∀ t, propClass t = .placement → p t = q t) : propertyHash p = propertyHash q := by
  have hstep : ∀ g i t, hashProperty p g i t = hashProperty q g i t := by
    intro g i t
    unfold hashProperty
    cases ht : propClass t with
    | content => rfl
    | placement => rw [h t ht]
  unfold propertyHash
  simp only [hstep]

/-! ### Layers -/

inductive ContentType
  | generic
  | video
  | ui
  | cursor
  deriving DecidableEq, Repr

structure Rect where
  x : ℤ
  y : ℤ
  w : ℕ
  h : ℕ
  deriving DecidableEq, Repr

structure Layer where
  props : Properties := fun _ => none
  forceComposited : Bool := false
  transientComposited : Bool := false
  needsComposition : Bool := false
  dirty : Bool := true
  externallyBound : Bool := false
  pinned : Bool := false
  assignedPlane : Option PlaneId := none
  contentType : ContentType := .generic
  updateHz : ℕ := 0
  appPriority : ℕ := 0

namespace Layer

def setProperty (l : Layer) (t : PropTag) (v : UInt64) : Layer :=
  { l with
    props := fun t' => if t' = t then some v else l.props t'
    dirty := l.dirty || l.props t ≠ some v }

def zpos (l : Layer) : Option UInt64 := l.props .zpos

def format (l : Layer) : Option UInt32 := (l.props .pixelFormat).map UInt64.toUInt32

def modifier (l : Layer) : UInt64 := (l.props .fbModifier).getD 0

def rotation (l : Layer) : UInt64 := (l.props .rotation).getD 0

/-- The source is 16.16 fixed point; the comparison is made at that precision. -/
def requiresScaling (l : Layer) : Bool :=
  match l.props .srcW, l.props .crtcW, l.props .srcH, l.props .crtcH with
  | some srcW, some crtcW, some srcH, some crtcH =>
    srcW ≠ crtcW <<< (16 : UInt64) || srcH ≠ crtcH <<< (16 : UInt64)
  | _, _, _, _ => false

def width (l : Layer) : ℕ := ((l.props .crtcW).getD 0).toUInt32.toNat

def height (l : Layer) : ℕ := ((l.props .crtcH).getD 0).toUInt32.toNat

/-- The origin is narrowed to a signed 32-bit value. -/
def crtcRect (l : Layer) : Rect where
  x := ((l.props .crtcX).getD 0).toUInt32.toBitVec.toInt
  y := ((l.props .crtcY).getD 0).toUInt32.toBitVec.toInt
  w := l.width
  h := l.height

end Layer

def layersIntersect (a b : Layer) : Bool :=
  let ra := a.crtcRect
  let rb := b.crtcRect
  ra.x + ra.w > rb.x && rb.x + rb.w > ra.x && ra.y + ra.h > rb.y && rb.y + rb.h > ra.y

/-! ### Outputs -/

abbrev Heap := LayerId → Layer

/-- The layers of a CRTC, each once. The composition layer is given by reference, so there always
is one; `is_composition_layer_` is set on exactly that layer and is read off the pointer. -/
structure Output where
  crtcId : CrtcId
  layers : List LayerId
  compositionLayer : LayerId
  nodupLayers : layers.Nodup := by decide
  deriving DecidableEq, Repr

namespace Output

def isCompositionLayer (o : Output) (l : LayerId) : Bool := o.compositionLayer = l

def anyLayerDirty (o : Output) (heap : Heap) : Bool :=
  o.layers.any (fun l => (heap l).dirty) || (heap o.compositionLayer).dirty

def markClean (o : Output) (heap : Heap) : Heap := fun l =>
  if l ∈ o.layers ∨ o.compositionLayer = l then { heap l with dirty := false } else heap l

end Output

end DrmCxx.Planes
