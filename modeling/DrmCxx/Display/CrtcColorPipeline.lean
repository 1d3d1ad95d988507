import DrmCxx.Errc
import Mathlib.Data.Nat.Notation
import Mathlib.Logic.Function.Basic

/-!
# The colour pipeline of a CRTC

`CrtcColorPipeline` owns one property blob for each of its three stages, and a duplicate of the
device's descriptor, on which it creates and destroys them. The kernel keeps what became of every
blob.
-/

namespace DrmCxx.Display

abbrev Fd := ℕ

abbrev BlobId := ℕ

abbrev PropId := ℕ

inductive Stage
  | degamma
  | ctm
  | gamma
  deriving DecidableEq, Repr

/-! ### Blob contents -/

/-- `drm_color_lut`. -/
structure ColorLut where
  red : UInt16
  green : UInt16
  blue : UInt16
  deriving DecidableEq, Repr

/-- A table of the given number of entries, or the caller's own. -/
inductive Lut
  | identity (size : ℕ)
  | pqEotf (size : ℕ)
  | hlgOetfInverse (size : ℕ)
  | pqOetf (size : ℕ)
  | custom (entries : List ColorLut)
  deriving DecidableEq, Repr

inductive Ctm
  | identity
  | bt2020ToBt709
  | custom (matrix : List UInt64)
  deriving DecidableEq, Repr

inductive BlobData
  | lut (l : Lut)
  | ctm (c : Ctm)
  deriving DecidableEq, Repr

/-! ### The kernel's blobs -/

/-- The blobs are numbered in the order of their creation; ids may be used again. -/
structure Blob where
  serial : ℕ
  fd : Fd
  id : BlobId
  data : BlobData
  deriving DecidableEq, Repr

structure Kernel where
  /-- Open descriptors; each duplicate gets a number of its own. -/
  openFds : List Fd := []
  opened : ℕ := 0
  created : ℕ := 0
  live : List Blob := []
  destroyed : List Blob := []
  /-- Blobs whose owner forgot them when its session was lost. -/
  forgotten : List Blob := []
  /-- Blobs that were still there when their owner closed its descriptor otherwise. -/
  leaked : List Blob := []
  /-- Requests to destroy what is no live blob of an open descriptor. -/
  strays : List (Fd × BlobId) := []

/-- How the kernel chooses ids: not zero, and of no live blob. -/
structure IdSource where
  pick : Kernel → BlobId
  ne_zero : ∀ k, pick k ≠ 0
  fresh : ∀ k, ∀ b ∈ k.live, b.id ≠ pick k

/-- `EBADF`. -/
def badFileDescriptor : Errc := .other 9

namespace Kernel

variable (ids : IdSource) (k : Kernel)

/-- `fcntl(F_DUPFD_CLOEXEC)`. -/
def dup : Kernel × Fd :=
  ({ k with openFds := k.opened :: k.openFds, opened := k.opened + 1 }, k.opened)

/-- `create_blob`. A refusal is the kernel's errno. -/
def createBlob (fd : Option Fd) (refusal : Option Errc) (data : BlobData) :
    Kernel × Except Errc BlobId :=
  match fd, refusal with
  | none, _ => (k, .error badFileDescriptor)
  | some _, some e => (k, .error e)
  | some fd, none =>
    if fd ∈ k.openFds then
      ({ k with created := k.created + 1, live := ⟨k.created, fd, ids.pick k, data⟩ :: k.live },
        .ok (ids.pick k))
    else (k, .error badFileDescriptor)

/-- `drmModeDestroyPropertyBlob`. -/
def destroyPropertyBlob (fd : Fd) (id : BlobId) : Kernel :=
  match k.live.find? fun b => b.id = id with
  | none => { k with strays := (fd, id) :: k.strays }
  | some b =>
    if b.fd = fd ∧ fd ∈ k.openFds then
      { k with live := k.live.erase b, destroyed := b :: k.destroyed }
    else { k with strays := (fd, id) :: k.strays }

/-- `close`. What is still live on the descriptor is forgotten if the session is lost. -/
def close (fd : Fd) (sessionLost : Bool) : Kernel :=
  let rest := k.live.filter fun b => b.fd = fd
  { k with
    openFds := k.openFds.erase fd
    live := k.live.filter fun b => b.fd ≠ fd
    forgotten := if sessionLost then rest ++ k.forgotten else k.forgotten
    leaked := if sessionLost then k.leaked else rest ++ k.leaked }

end Kernel

/-! ### The pipeline -/

structure CrtcCapabilities where
  has : Stage → Bool := fun _ => false
  degammaLutSize : ℕ := 0
  gammaLutSize : ℕ := 0

/-- No descriptor stands for `fd_ = -1`; a blob id of zero for a stage that is not set. -/
structure CrtcColorPipeline where
  fd : Option Fd := none
  crtcId : ℕ := 0
  caps : CrtcCapabilities := {}
  blob : Stage → BlobId := fun _ => 0
  prop : Stage → PropId := fun _ => 0

namespace CrtcColorPipeline

variable (ids : IdSource) (k : Kernel) (p : CrtcColorPipeline)

def stages : List Stage := [.degamma, .ctm, .gamma]

/-- `destroy_blob`, of one stage. -/
def destroyBlob (s : Stage) : Kernel × CrtcColorPipeline :=
  (match p.fd with
    | some fd => if p.blob s ≠ 0 then k.destroyPropertyBlob fd (p.blob s) else k
    | none => k,
    { p with blob := Function.update p.blob s 0 })

/-- `close_fd`. -/
def closeFd (sessionLost : Bool) : Kernel × CrtcColorPipeline :=
  (match p.fd with
    | some fd => k.close fd sessionLost
    | none => k, { p with fd := none })

/-- The destructor, and the first half of a move assignment. -/
def release : Kernel × CrtcColorPipeline :=
  let (k, p) := p.destroyBlob k .degamma
  let (k, p) := p.destroyBlob k .ctm
  let (k, p) := p.destroyBlob k .gamma
  p.closeFd k false

/-- What a move leaves behind. -/
def movedFrom : CrtcColorPipeline := { p with fd := none, crtcId := 0, blob := fun _ => 0 }

/-- `replace_lut_blob` and `replace_ctm_blob`. -/
def replaceBlob (s : Stage) (refusal : Option Errc) (data : BlobData) :
    (Kernel × CrtcColorPipeline) × Except Errc Unit :=
  match k.createBlob ids p.fd refusal data with
  | (k, .error e) => ((k, p), .error e)
  | (k, .ok id) =>
    let (k, p) := p.destroyBlob k s
    ((k, { p with blob := Function.update p.blob s id }), .ok ())

/-! ### Built-in stages -/

def identityData : Stage → BlobData
  | .degamma => .lut (.identity p.caps.degammaLutSize)
  | .ctm => .ctm .identity
  | .gamma => .lut (.identity p.caps.gammaLutSize)

/-- The stages of `set_identity`, one after another, with an exit after each. -/
def setIdentityOf (refusal : Stage → Option Errc) :
    List Stage → Kernel → CrtcColorPipeline → (Kernel × CrtcColorPipeline) × Except Errc Unit
  | [], k, p => ((k, p), .ok ())
  | s :: rest, k, p =>
    if p.caps.has s then
      match p.replaceBlob ids k s (refusal s) (p.identityData s) with
      | ((k, p), .error e) => ((k, p), .error e)
      | ((k, p), .ok ()) => setIdentityOf refusal rest k p
    else setIdentityOf refusal rest k p

/-- `set_identity`. -/
def setIdentity (refusal : Stage → Option Errc) :
    (Kernel × CrtcColorPipeline) × Except Errc Unit :=
  if stages.all fun s => !p.caps.has s then ((k, p), .error .notSupported)
  else setIdentityOf ids refusal stages k p

/-- The setters of one stage, which first look for the property. -/
def setStage (s : Stage) (refusal : Option Errc) (data : BlobData) :
    (Kernel × CrtcColorPipeline) × Except Errc Unit :=
  if !p.caps.has s then ((k, p), .error .notSupported)
  else p.replaceBlob ids k s refusal data

def setPqToLinear (refusal : Option Errc) : (Kernel × CrtcColorPipeline) × Except Errc Unit :=
  p.setStage ids k .degamma refusal (.lut (.pqEotf p.caps.degammaLutSize))

def setHlgToLinear (refusal : Option Errc) : (Kernel × CrtcColorPipeline) × Except Errc Unit :=
  p.setStage ids k .degamma refusal (.lut (.hlgOetfInverse p.caps.degammaLutSize))

def setBt2020ToBt709 (refusal : Option Errc) : (Kernel × CrtcColorPipeline) × Except Errc Unit :=
  p.setStage ids k .ctm refusal (.ctm .bt2020ToBt709)

def setLinearToPq (refusal : Option Errc) : (Kernel × CrtcColorPipeline) × Except Errc Unit :=
  p.setStage ids k .gamma refusal (.lut (.pqOetf p.caps.gammaLutSize))

/-! ### Custom stages -/

/-- A custom table must have the stage's number of entries. -/
def setCustomLut (s : Stage) (size : ℕ) (refusal : Option Errc) (lut : List ColorLut) :
    (Kernel × CrtcColorPipeline) × Except Errc Unit :=
  if !p.caps.has s then ((k, p), .error .notSupported)
  else if lut.length ≠ size then ((k, p), .error .invalidArgument)
  else p.replaceBlob ids k s refusal (.lut (.custom lut))

def setCustomDegamma (refusal : Option Errc) (lut : List ColorLut) :
    (Kernel × CrtcColorPipeline) × Except Errc Unit :=
  p.setCustomLut ids k .degamma p.caps.degammaLutSize refusal lut

def setCustomGamma (refusal : Option Errc) (lut : List ColorLut) :
    (Kernel × CrtcColorPipeline) × Except Errc Unit :=
  p.setCustomLut ids k .gamma p.caps.gammaLutSize refusal lut

def setCustomCtm (refusal : Option Errc) (matrix : List UInt64) :
    (Kernel × CrtcColorPipeline) × Except Errc Unit :=
  p.setStage ids k .ctm refusal (.ctm (.custom matrix))

/-! ### Applying and the session -/

/-- The writes that `apply` makes of the stages, until one fails. A refusal is the request's. -/
def applyOf (refusal : Stage → Option Errc) :
    List Stage → List (ℕ × PropId × BlobId) × Except Errc Unit
  | [] => ([], .ok ())
  | s :: rest =>
    if p.blob s = 0 then applyOf refusal rest
    else if p.prop s = 0 then ([], .error .notSupported)
    else match refusal s with
      | some e => ([], .error e)
      | none =>
        let (writes, r) := applyOf refusal rest
        ((p.crtcId, p.prop s, p.blob s) :: writes, r)

/-- `apply`. -/
def apply (refusal : Stage → Option Errc) : List (ℕ × PropId × BlobId) × Except Errc Unit :=
  p.applyOf refusal stages

/-- `clear_for_session_loss`. -/
def clearForSessionLoss : Kernel × CrtcColorPipeline :=
  let (k, p) := p.closeFd k true
  (k, { p with blob := fun _ => 0 })

/-- `on_session_resumed`, on a device that is open or not. A refusal is that of the duplicate. -/
def onSessionResumed (deviceOpen : Bool) (refusal : Option Errc) :
    (Kernel × CrtcColorPipeline) × Except Errc Unit :=
  let (k, p) := p.clearForSessionLoss k
  if !deviceOpen then ((k, p), .error badFileDescriptor)
  else match refusal with
    | some e => ((k, p), .error e)
    | none =>
      let (k, fd) := k.dup
      ((k, { p with fd := some fd }), .ok ())

/-- `create`. The properties are looked up when the pipeline already has its descriptor. -/
def create (crtcId : ℕ) (caps : Except Errc CrtcCapabilities) (dupRefusal : Option Errc)
    (props : Except Errc (Stage → PropId)) : Kernel × Except Errc CrtcColorPipeline :=
  match caps with
  | .error e => (k, .error e)
  | .ok caps =>
    if stages.all fun s => !caps.has s then (k, .error .notSupported)
    else match dupRefusal with
      | some e => (k, .error e)
      | none =>
        let (k, fd) := k.dup
        let p : CrtcColorPipeline := { fd := some fd, crtcId, caps }
        match props with
        | .error e => ((p.release k).1, .error e)
        | .ok prop => (k, .ok { p with prop })

end CrtcColorPipeline

end DrmCxx.Display
