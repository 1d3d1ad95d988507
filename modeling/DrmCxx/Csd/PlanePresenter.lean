import DrmCxx.Core.PropertyStore
import DrmCxx.Csd.OverlayReservation
import DrmCxx.Lib.WriteLog
import DrmCxx.Scene.Placement

/-!
# The plane presenter

`csd::PlanePresenter` gives each window decoration an overlay plane of its own, and
`csd::probe_presenter` chooses between it and the composite presenter. An id of 0 stands for a
property that a plane does not have.
-/

namespace DrmCxx.Csd

open Core (ObjectId PropertyId PropertyStore ListedProperty)
open Planes (PlaneId PlaneCapabilities PlaneRegistry)

/-- `errc::no_buffer_space`. -/
def noBufferSpace : Errc := .other 105

/-- The members of a slot that hold property ids. -/
inductive SlotProp
  | fbId
  | crtcId
  | crtcX
  | crtcY
  | crtcW
  | crtcH
  | srcX
  | srcY
  | srcW
  | srcH
  | blendMode
  | alpha
  | zpos
  deriving DecidableEq, Repr

def SlotProp.name : SlotProp → String
  | fbId => "FB_ID"
  | crtcId => "CRTC_ID"
  | crtcX => "CRTC_X"
  | crtcY => "CRTC_Y"
  | crtcW => "CRTC_W"
  | crtcH => "CRTC_H"
  | srcX => "SRC_X"
  | srcY => "SRC_Y"
  | srcW => "SRC_W"
  | srcH => "SRC_H"
  | blendMode => "pixel blend mode"
  | alpha => "alpha"
  | zpos => "zpos"

/-- The properties a plane must have, in the order they are looked up. -/
def SlotProp.required : List SlotProp :=
  [fbId, crtcId, crtcX, crtcY, crtcW, crtcH, srcX, srcY, srcW, srcH]

/-- `PlaneSlot`. -/
structure OverlaySlot where
  planeId : PlaneId
  crtcId : UInt32
  prop : SlotProp → PropertyId := fun _ => 0
  blendModeValue : UInt64 := 0
  zposValue : UInt64 := 0

/-- What the presenter reads of a surface that is not empty. -/
structure ScanoutSurface where
  fbId : UInt32
  width : UInt32
  height : UInt32
  deriving DecidableEq, Repr

/-- `SurfaceRef`; no surface stands for a null pointer, or for an empty surface. -/
structure OverlayRef where
  surface : Option ScanoutSurface := none
  x : Int32 := 0
  y : Int32 := 0
  deriving DecidableEq, Repr

/-- One `add_property` call: the object and the property, and the value. -/
abbrev OverlayWrite := (ObjectId × PropertyId) × UInt64

namespace PlanePresenter

/-! ### The writes of a frame -/

/-- `to_16_16`. -/
def fixed16 (pixels : UInt32) : UInt64 := pixels.toUInt64 <<< 16

/-- A signed coordinate, extended to the width of a property. -/
def coordinate (c : Int32) : UInt64 := .ofInt c.toInt

/-- What an armed slot shows. -/
def armedValues (slot : OverlaySlot) (s : ScanoutSurface) (x y : Int32) :
    List (SlotProp × UInt64) :=
  [(.fbId, s.fbId.toUInt64), (.crtcId, slot.crtcId.toUInt64), (.crtcX, coordinate x),
    (.crtcY, coordinate y), (.crtcW, s.width.toUInt64), (.crtcH, s.height.toUInt64), (.srcX, 0),
    (.srcY, 0), (.srcW, fixed16 s.width), (.srcH, fixed16 s.height)] ++
    [(.blendMode, slot.blendModeValue), (.alpha, 0xFFFF), (.zpos, slot.zposValue)].filter
      fun w => slot.prop w.1 ≠ 0

/-- What a slot is set to, when there may be a surface for it. -/
def slotValues (slot : OverlaySlot) (ref : Option OverlayRef) : List (SlotProp × UInt64) :=
  match ref with
  | some ⟨some s, x, y⟩ => armedValues slot s x y
  -- The plane would keep scanning out what it did before.
  | _ => [(.fbId, 0), (.crtcId, 0)]

def slotWrites (slot : OverlaySlot) (ref : Option OverlayRef) : List OverlayWrite :=
  (slotValues slot ref).map fun w => ((slot.planeId, slot.prop w.1), w.2)

/-- The loop over the slots; `refs` are the surfaces for those that are left. -/
def writesFor : List OverlaySlot → List OverlayRef → List OverlayWrite
  | [], _ => []
  | slot :: slots, refs => slotWrites slot refs.head? ++ writesFor slots refs.tail

def computeWrites (slots : List OverlaySlot) (refs : List OverlayRef) :
    Except Errc (List OverlayWrite) :=
  if slots.length < refs.length then .error noBufferSpace else .ok (writesFor slots refs)

/-- `apply`, on a request with some writes in it; `addError` is a call of `add_property` that fails,
and how. What was added before stays in the request. -/
def apply (slots : List OverlaySlot) (refs : List OverlayRef) (request : List OverlayWrite)
    (addError : Option (ℕ × Errc)) : List OverlayWrite × Except Errc Unit :=
  match computeWrites slots refs with
  | .error e => (request, .error e)
  | .ok writes =>
    match addError with
    | some (n, e) =>
      if n < writes.length then (request ++ writes.take n, .error e)
      else (request ++ writes, .ok ())
    | none => (request ++ writes, .ok ())

/-! ### Creation -/

/-- The part of `PlaneCapabilities` that only creation reads. -/
structure OverlayTraits where
  hasPixelBlendMode : Bool := false
  blendModePremultiplied : Option UInt64 := none
  hasPerPlaneAlpha : Bool := false
  deriving DecidableEq, Repr

/-- The plane's required properties are looked up one by one. -/
def resolveRequired (props : PropertyStore) (planeId : PlaneId) :
    List SlotProp → OverlaySlot → Except Errc OverlaySlot
  | [], slot => .ok slot
  | p :: ps, slot =>
    match props.propertyId planeId p.name with
    | .error e => .error e
    | .ok id =>
      resolveRequired props planeId ps { slot with prop := Function.update slot.prop p id }

/-- A property that the slot does without if the plane has none of its name, and what is set with
it. -/
def resolveOptional (props : PropertyStore) (p : SlotProp) (set : OverlaySlot → OverlaySlot)
    (slot : OverlaySlot) : OverlaySlot :=
  match props.propertyId slot.planeId p.name with
  | .error _ => slot
  | .ok id => set { slot with prop := Function.update slot.prop p id }

/-- The plane's zpos can be written. -/
def zposMutable (caps : PlaneCapabilities) : Bool :=
  match caps.zposMin, caps.zposMax with
  | some lo, some hi => lo < hi
  | _, _ => false

def addBlendMode (props : PropertyStore) (traits : OverlayTraits) (slot : OverlaySlot) :
    OverlaySlot :=
  match traits.hasPixelBlendMode, traits.blendModePremultiplied with
  | true, some v => resolveOptional props .blendMode ({ · with blendModeValue := v }) slot
  | _, _ => slot

def addAlpha (props : PropertyStore) (traits : OverlayTraits) (slot : OverlaySlot) : OverlaySlot :=
  if traits.hasPerPlaneAlpha then resolveOptional props .alpha id slot else slot

/-- A zpos whose flags are not known counts as immutable. -/
def addZpos (props : PropertyStore) (caps : PlaneCapabilities) (baseZpos : UInt64) (index : ℕ)
    (slot : OverlaySlot) : OverlaySlot :=
  if baseZpos ≠ 0 ∧ zposMutable caps ∧
      props.isImmutable slot.planeId SlotProp.zpos.name = .ok false then
    resolveOptional props .zpos ({ · with zposValue := baseZpos + .ofNat index }) slot
  else slot

/-- One round of the loop of `create`; `index` is the number of slots before it. -/
def createSlot (props : PropertyStore) (caps : PlaneCapabilities) (traits : OverlayTraits)
    (crtcId : UInt32) (baseZpos : UInt64) (index : ℕ) (planeId : PlaneId) :
    Except Errc OverlaySlot :=
  (resolveRequired props planeId SlotProp.required { planeId, crtcId }).map fun slot =>
    addZpos props caps baseZpos index (addAlpha props traits (addBlendMode props traits slot))

variable (registry : PlaneRegistry) (traits : PlaneId → OverlayTraits)
  (listing : PlaneId → Except Errc (List ListedProperty))

/-- The loop of `create` over the reserved planes. -/
def createSlots (crtcId : UInt32) (baseZpos : UInt64) :
    PropertyStore → List OverlaySlot → List PlaneId → Except Errc (List OverlaySlot)
  | _, slots, [] => .ok slots
  | props, slots, planeId :: ids =>
    match registry.capsOf planeId with
    | none => .error .invalidArgument
    | some caps =>
      match props.cacheProperties planeId (listing planeId) with
      | .error e => .error e
      | .ok props =>
        match createSlot props caps (traits planeId) crtcId baseZpos slots.length planeId with
        | .error e => .error e
        | .ok slot => createSlots crtcId baseZpos props (slots ++ [slot]) ids

def create (crtcId : UInt32) (reserved : List PlaneId) (baseZpos : UInt64) :
    Except Errc (List OverlaySlot) :=
  if crtcId = 0 then .error .invalidArgument
  else createSlots registry traits listing crtcId baseZpos {} [] reserved

end PlanePresenter

end DrmCxx.Csd
