import DrmCxx.Scene.Detail.DrmFiles
import DrmCxx.Scene.ExternalDmaBufPool

/-!
# Importing one buffer

The steps that the sources of external buffers share: the planes' descriptors are duplicated, the
duplicates imported into a file of the card, and a framebuffer is added for them. A step that fails
leaves the slot with what was done, for its owner to undo.
-/

namespace DrmCxx.Scene.Detail

/-- A plane whose descriptor was duplicated. -/
structure PlaneRecord where
  dupedFd : ℕ
  gemHandle : GemHandle := 0
  offset : ℕ
  pitch : ℕ
  deriving DecidableEq, Repr

structure DmaBufSlot where
  /-- The first `plane_count` records. -/
  planes : List PlaneRecord := []
  /-- `0` is no framebuffer. -/
  fbId : FbId := 0
  modifier : ℕ
  deriving DecidableEq, Repr

/-- What the kernel answers to the calls of an import, the planes' by index. -/
structure ImportAnswers where
  device : Except Errc ℕ
  plane : ℕ → Except Errc ℕ
  handle : ℕ → Except Errc GemHandle
  /-- The driver has `DRM_CAP_ADDFB2_MODIFIERS`. -/
  modifiersCap : Bool
  fb : Except Errc FbId

/-- `DRM_FORMAT_MOD_INVALID`. -/
def modInvalid : ℕ := 2 ^ 56 - 1

/-- `DRM_FORMAT_MOD_LINEAR`. -/
def modLinear : ℕ := 0

def addfb2NeedsModifiers (cap : Bool) (modifier : ℕ) : Bool :=
  if modifier = modInvalid then false
  else if modifier ≠ modLinear then true
  else cap

/-- `dup_planes`, with the error that ends it. -/
def dupPlanes (answer : ℕ → Except Errc ℕ) :
    Kernel → DmaBufSlot → List ExternalPlaneInfo → Kernel × DmaBufSlot × Option Errc
  | k, slot, [] => (k, slot, none)
  | k, slot, p :: ps =>
    match k.dupFd p.fd.toNat (answer slot.planes.length) with
    | .error e => (k, slot, some e)
    | .ok (k, n) =>
      dupPlanes answer k
        { slot with
          planes := slot.planes ++ [{ dupedFd := n, offset := p.offset, pitch := p.pitch }] }
        ps

/-- The handles of the planes from the `i`-th on. -/
def importPlanes (device : ℕ) (answer : ℕ → Except Errc GemHandle) :
    Kernel → ℕ → List PlaneRecord → Kernel × List PlaneRecord × Option Errc
  | k, _, [] => (k, [], none)
  | k, i, rec :: recs =>
    match k.primeFdToHandle device rec.dupedFd (answer i) with
    | .error e => (k, rec :: recs, some e)
    | .ok (k, h) =>
      let (k, recs, error) := importPlanes device answer k (i + 1) recs
      (k, { rec with gemHandle := h } :: recs, error)

def importSlot (answers : ImportAnswers) (k : Kernel) (device : ℕ) (slot : DmaBufSlot)
    (fmt : SourceFormat) : Kernel × DmaBufSlot × Option Errc :=
  match importPlanes device answers.handle k 0 slot.planes with
  | (k, planes, some e) => (k, { slot with planes }, some e)
  | (k, planes, none) =>
    let modifier :=
      if addfb2NeedsModifiers answers.modifiersCap slot.modifier then some slot.modifier else none
    match k.addFb device fmt.width fmt.height fmt.drmFourcc modifier
        (planes.map fun rec => (rec.gemHandle, rec.pitch, rec.offset)) answers.fb with
    | .error e => (k, { slot with planes }, some e)
    | .ok (k, id) => (k, { slot with planes, fbId := id }, none)

/-- `teardown_slot`; `none` is a descriptor of -1. -/
def teardownSlot (k : Kernel) (fd : Option ℕ) (slot : DmaBufSlot) : Kernel × DmaBufSlot :=
  match fd with
  | none => (k, slot)
  | some n =>
    let k := if slot.fbId ≠ 0 then k.rmFb n slot.fbId else k
    (slot.planes.foldl
        (fun k rec => if rec.gemHandle ≠ 0 then k.gemClose n rec.gemHandle else k) k,
      { slot with fbId := 0, planes := slot.planes.map fun rec => { rec with gemHandle := 0 } })

def closeSlotFds (k : Kernel) (slot : DmaBufSlot) : Kernel :=
  slot.planes.foldl (fun k rec => k.close rec.dupedFd) k

def closeDeviceFd (k : Kernel) (fd : Option ℕ) : Kernel :=
  match fd with
  | none => k
  | some n => k.close n

end DrmCxx.Scene.Detail
