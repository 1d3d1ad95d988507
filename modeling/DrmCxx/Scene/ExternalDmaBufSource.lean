import DrmCxx.Scene.Detail.DmaBufSlot

/-!
# Sources of one external buffer

`ExternalDmaBufSource` shows a buffer that was allocated elsewhere, through descriptors of its own;
`DmaBufSourceCache` keeps such sources by a key of the producer's.
-/

namespace DrmCxx.Scene

open Detail Lib

structure ExternalDmaBufSource where
  /-- The source's own descriptor of the card. -/
  fd : Option ℕ
  slot : Detail.DmaBufSlot
  format : SourceFormat
  /-- An `on_release` was given. -/
  onRelease : Bool
  onReleaseFired : Bool := false

namespace ExternalDmaBufSource

/-- `fire_on_release_once`, with how often `on_release` is called. -/
def fireOnReleaseOnce (src : ExternalDmaBufSource) : ExternalDmaBufSource × ℕ :=
  if src.onReleaseFired then (src, 0)
  else ({ src with onReleaseFired := true }, if src.onRelease then 1 else 0)

/-- The destructor. -/
def destroy (k : Kernel) (src : ExternalDmaBufSource) : Kernel × ℕ :=
  let (k, slot) := teardownSlot k src.fd src.slot
  (closeSlotFds (closeDeviceFd k src.fd) slot, src.fireOnReleaseOnce.2)

/-- What `create` is given. -/
structure Request where
  /-- The card's descriptor. -/
  device : ℤ
  format : SourceFormat
  planes : List ExternalPlaneInfo
  onRelease : Bool := false

/-- The checks of `create`, in order. -/
def Request.check (r : Request) : Option Errc :=
  if r.format.width = 0 ∨ r.format.height = 0 ∨ r.format.drmFourcc = 0 then some .invalidArgument
  else if r.planes = [] ∨ kMaxPlanes < r.planes.length then some .invalidArgument
  else if r.planes.any fun p => p.fd < 0 || p.pitch = 0 then some .invalidArgument
  else if r.device < 0 then some ebadf
  else none

/-- A source that failed halfway goes through its destructor. -/
def unwound (k : Kernel) (src : ExternalDmaBufSource) (e : Errc) :
    Kernel × ℕ × Except Errc ExternalDmaBufSource :=
  let (k, calls) := src.destroy k
  (k, calls, .error e)

/-- `create`, with how often `on_release` is called. -/
def create (answers : ImportAnswers) (k : Kernel) (r : Request) :
    Kernel × ℕ × Except Errc ExternalDmaBufSource :=
  match r.check with
  | some e => (k, 0, .error e)
  | none =>
    match k.dupFd r.device.toNat answers.device with
    | .error e => (k, 0, .error e)
    | .ok (k, own) =>
      let src : ExternalDmaBufSource :=
        { fd := some own, slot := { modifier := r.format.modifier }, format := r.format
          onRelease := r.onRelease }
      match dupPlanes answers.plane k src.slot r.planes with
      | (k, slot, some e) => unwound k { src with slot } e
      | (k, slot, none) =>
        match importSlot answers k own slot r.format with
        | (k, slot, some e) => unwound k { src with slot } e
        | (k, slot, none) => (k, 0, .ok { src with slot })

/-- `acquire`, but for the fence. -/
def acquire (src : ExternalDmaBufSource) : Except Errc FbId :=
  if src.slot.fbId = 0 then .error .invalidArgument else .ok src.slot.fbId

def release (src : ExternalDmaBufSource) : ExternalDmaBufSource × ℕ := src.fireOnReleaseOnce

/-- The handles and the framebuffer are forgotten without a call. -/
def forgotten (src : ExternalDmaBufSource) : Detail.DmaBufSlot :=
  { src.slot with
    fbId := 0
    planes := src.slot.planes.map fun rec => { rec with gemHandle := 0 } }

/-- `on_session_resumed`; `on_session_paused` does nothing. -/
def onSessionResumed (answers : ImportAnswers) (k : Kernel) (src : ExternalDmaBufSource)
    (newDevice : ℤ) : Kernel × ExternalDmaBufSource × Option Errc :=
  if newDevice < 0 then (k, src, some ebadf)
  else
    let src := { src with slot := src.forgotten }
    let k := closeDeviceFd k src.fd
    match k.dupFd newDevice.toNat answers.device with
    | .error e => (k, { src with fd := none }, some e)
    | .ok (k, own) =>
      match importSlot answers k own src.slot src.format with
      | (k, slot, some e) =>
        let (k, slot) := teardownSlot k (some own) slot
        (k, { src with fd := some own, slot }, some e)
      | (k, slot, none) => (k, { src with fd := some own, slot }, none)

end ExternalDmaBufSource

/-! ### Sources in a process -/

/-- A process with the sources it has, by name; in a `DmaBufSourceCache` the key is the name. -/
structure SourceProcess (κ : Type*) where
  kernel : Kernel := {}
  sources : Table κ ExternalDmaBufSource := .empty
  /-- How often the `on_release` of the sources of a name was called. -/
  calls : κ → ℕ := fun _ => 0

namespace SourceProcess

variable {κ : Type*} [DecidableEq κ]

/-- The call of `on_release` is counted. -/
def count (p : SourceProcess κ) (key : κ) (n : ℕ) : SourceProcess κ :=
  { p with calls := Function.update p.calls key (p.calls key + n) }

/-- `ExternalDmaBufSource::create`, under a name that is free. -/
def create (p : SourceProcess κ) (key : κ) (answers : ImportAnswers)
    (r : ExternalDmaBufSource.Request) : SourceProcess κ × Option Errc :=
  match ExternalDmaBufSource.create answers p.kernel r with
  | (kernel, calls, .error e) => ({ p with kernel }.count key calls, some e)
  | (kernel, calls, .ok src) =>
    ({ p with kernel, sources := p.sources.insertOrAssign key src }.count key calls, none)

/-- The source of the name is destroyed; `evict`. -/
def destroy (p : SourceProcess κ) (key : κ) : SourceProcess κ :=
  match p.sources.find? key with
  | none => p
  | some src =>
    let (kernel, calls) := src.destroy p.kernel
    { p with kernel, sources := p.sources.erase key }.count key calls

/-- `DmaBufSourceCache::get_or_create`, with its error. -/
def getOrCreate (p : SourceProcess κ) (key : κ) (answers : ImportAnswers)
    (r : ExternalDmaBufSource.Request) : SourceProcess κ × Option Errc :=
  match p.sources.find? key with
  | some src =>
    if src.format = r.format then (p, none)
    else (p.destroy key).create key answers { r with onRelease := false }
  | none => p.create key answers { r with onRelease := false }

/-- `clear`, of the cache whose keys these names are. -/
def clear (p : SourceProcess κ) (mine : κ → Bool) : SourceProcess κ :=
  (p.sources.keys.filter mine).foldl destroy p

def release (p : SourceProcess κ) (key : κ) : SourceProcess κ :=
  match p.sources.find? key with
  | none => p
  | some src =>
    let (src, calls) := src.release
    { p with sources := p.sources.insertOrAssign key src }.count key calls

def onSessionResumed (p : SourceProcess κ) (key : κ) (answers : ImportAnswers) (newDevice : ℤ) :
    SourceProcess κ :=
  match p.sources.find? key with
  | none => p
  | some src =>
    let (kernel, src, _) := src.onSessionResumed answers p.kernel newDevice
    { p with kernel, sources := p.sources.insertOrAssign key src }

end SourceProcess

end DrmCxx.Scene
