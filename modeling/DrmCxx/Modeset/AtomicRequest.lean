import DrmCxx.Lib.WriteLog
import DrmCxx.Planes.Layer

/-!
# Atomic requests

A request is the list of property writes added to it; an accepted commit applies them to the
kernel's property values in order. Property ids are resolved by name, and the kernel gives each
name of an object its own id, so the name stands for the id.
-/

namespace DrmCxx.Modeset

open DrmCxx.Lib DrmCxx.Planes

/-- Plane properties a layer's property bag does not carry. -/
inductive PlaneProp
  | pixelBlendMode
  | colorEncoding
  | colorRange
  | fbDamageClips
  | amdDegammaTf
  | amdHdrMult
  | amdShaperTf
  | amdShaperLut
  | amdLut3d
  | amdBlendTf
  | amdBlendLut
  | amdCtm
  deriving DecidableEq, Repr

/-- Properties of a CRTC or a connector. -/
inductive OutputProp
  | modeId
  | active
  | colorspace
  | hdrOutputMetadata
  | vrrEnabled
  | amdCrtcRegammaTf
  deriving DecidableEq, Repr

/-- The name of a KMS object property. -/
inductive PropName
  | tag (t : PropTag)
  | plane (p : PlaneProp)
  | output (p : OutputProp)
  /-- A plane property that only its driver interprets. -/
  | driverPrivate (id : ℕ)
  deriving DecidableEq, Repr

abbrev ObjectId := ℕ

abbrev PropKey := ObjectId × PropName

/-- The writes added to a request, oldest first. -/
abbrev AtomicRequest := List (PropKey × UInt64)

/-- The value of every property of every object. -/
abbrev Kernel := PropKey → UInt64

def Kernel.commit (k : Kernel) (req : AtomicRequest) : Kernel := applyWrites k req

end DrmCxx.Modeset
