import Mathlib.Data.List.Nodup
import Mathlib.Data.Nat.Bitwise
import DrmCxx.Planes.Layer

/-!
# Plane capabilities

What the kernel says about each plane, and the static checks that read it.
-/

namespace DrmCxx.Planes

/-! ### Format modifiers -/

def modLinear : UInt64 := 0

def modInvalid : UInt64 := 0x00ffffffffffffff

def modifierVendor (m : UInt64) : UInt64 := m >>> (56 : UInt64)

/-- The (fourcc, modifier) pairs of a plane's `IN_FORMATS`. -/
abbrev FormatTable := List (UInt32 × UInt64)

def FormatTable.supports (t : FormatTable) (fourcc : UInt32) (m : UInt64) : Bool :=
  t.contains (fourcc, m)

/-- `LINEAR` and `INVALID` stand for each other; a Broadcom SAND buffer carries its column height
in the modifier and matches the base entry of its kind. -/
def layerFitsPlane (t : FormatTable) (fourcc : UInt32) (m : UInt64) : Bool :=
  t.supports fourcc m ||
    if m = modLinear || m = modInvalid then
      t.supports fourcc modLinear || t.supports fourcc modInvalid
    else
      let code := m &&& 0xff
      modifierVendor m = 0x07 && 3 ≤ code && code ≤ 5 &&
        t.supports fourcc ((0x07 <<< (56 : UInt64)) ||| code)

inductive BandwidthClass
  | linear
  | tiling
  | compression
  deriving DecidableEq, Repr

def vendor0bIsMtk (m : UInt64) : Bool :=
  let body := m &&& 0x00ffffffffffffff
  (body >>> (54 : UInt64)) &&& 0x3 = 0 && (body &&& 0xffff00 ≠ 0 || body = 1)

/-- Best effort, by vendor; scores only. -/
def classify (m : UInt64) : BandwidthClass :=
  let compressedIf (b : Bool) : BandwidthClass := if b then .compression else .tiling
  if m = modLinear || m = modInvalid then .linear
  else if modifierVendor m = 0x08 then
    if m = 0x0810000000000001 then .tiling
    else
      let type := (m >>> (52 : UInt64)) &&& 0xf
      compressedIf (type = 0x00 || type = 0x02)
  else if modifierVendor m = 0x02 then compressedIf ((m >>> (13 : UInt64)) &&& 0x1 ≠ 0)
  else if modifierVendor m = 0x05 then .compression
  else if modifierVendor m = 0x03 then compressedIf ((m >>> (23 : UInt64)) &&& 0x7 ≠ 0)
  else if modifierVendor m = 0x0b then
    if vendor0bIsMtk m then compressedIf ((m >>> (8 : UInt64)) &&& 0xff ≠ 0)
    else if m &&& 0x00ffffffffffffff = 0 then .linear
    else compressedIf ((m >>> (54 : UInt64)) &&& 0x3 = 0x1)
  else .tiling

/-! ### Planes -/

inductive DRMPlaneType
  | primary
  | overlay
  | cursor
  deriving DecidableEq, Repr

structure PlaneCapabilities where
  id : PlaneId := 0
  possibleCrtcs : UInt32 := 0
  type : DRMPlaneType := .overlay
  formatTable : FormatTable := []
  /-- The class of each advertised modifier. -/
  modifierClasses : List (UInt64 × BandwidthClass) := []
  zposMin : Option UInt64 := none
  zposMax : Option UInt64 := none
  /-- The plane a multirect virtual plane is only valid alongside. -/
  multirectParent : Option PlaneId := none
  /-- Driver-private properties written 0 when the plane is armed. -/
  resetOnArmProps : List ℕ := []
  rotationBits : UInt64 := 0
  supportsScaling : Bool := false
  alphaMax : UInt64 := 0xFFFF
  cursorMaxW : ℕ := 0
  cursorMaxH : ℕ := 0
  deriving DecidableEq, Repr

namespace PlaneCapabilities

def compatibleWithCrtc (p : PlaneCapabilities) (crtcIndex : ℕ) : Bool :=
  crtcIndex < 32 && p.possibleCrtcs.toNat.testBit crtcIndex

def bandwidthClass (p : PlaneCapabilities) (m : UInt64) : BandwidthClass :=
  (p.modifierClasses.lookup m).getD (classify m)

end PlaneCapabilities

/-- Alpha is a fraction of full opacity: it is rescaled to the plane's range, to nearest. -/
def rescaleAlpha (value alphaMax : UInt64) : UInt64 :=
  let clamped := min value 0xFFFF
  if alphaMax ≥ 0xFFFF then clamped else (clamped * alphaMax + 0xFFFF / 2) / 0xFFFF

/-- The planes of the device. Their ids are kernel object ids. -/
structure PlaneRegistry where
  planes : List PlaneCapabilities
  nodupIds : (planes.map PlaneCapabilities.id).Nodup
  /-- Planes another user of the device holds. -/
  excluded : List PlaneId := []
  blendLimits : List (ℕ × ℕ) := []

namespace PlaneRegistry

def forCrtc (r : PlaneRegistry) (crtcIndex : ℕ) : List PlaneCapabilities :=
  r.planes.filter (fun p => p.compatibleWithCrtc crtcIndex && !r.excluded.contains p.id)

def blendLimit (r : PlaneRegistry) (crtcIndex : ℕ) : Option ℕ := r.blendLimits.lookup crtcIndex

def capsOf (r : PlaneRegistry) (id : PlaneId) : Option PlaneCapabilities :=
  r.planes.find? (fun p => p.id = id)

theorem eq_of_id_eq {r : PlaneRegistry} {p q : PlaneCapabilities} (hp : p ∈ r.planes)
    (hq : q ∈ r.planes) (h : p.id = q.id) : p = q :=
  List.inj_on_of_nodup_map r.nodupIds hp hq h

theorem capsOf_eq_some {r : PlaneRegistry} {id : PlaneId} {p : PlaneCapabilities} :
    r.capsOf id = some p ↔ p ∈ r.planes ∧ p.id = id := by
  constructor
  · intro h
    exact ⟨List.mem_of_find?_eq_some h, by simpa using List.find?_some h⟩
  · rintro ⟨hp, rfl⟩
    cases h : r.capsOf p.id with
    | none => exact absurd (List.find?_eq_none.mp h p hp) (by simp)
    | some q =>
      have hq := List.mem_of_find?_eq_some h
      have hid : q.id = p.id := by simpa using List.find?_some h
      rw [r.eq_of_id_eq hq hp hid]

theorem mem_forCrtc {r : PlaneRegistry} {crtcIndex : ℕ} {p : PlaneCapabilities} :
    p ∈ r.forCrtc crtcIndex ↔
      p ∈ r.planes ∧ p.compatibleWithCrtc crtcIndex = true ∧ p.id ∉ r.excluded := by
  simp [forCrtc]

end PlaneRegistry

end DrmCxx.Planes
