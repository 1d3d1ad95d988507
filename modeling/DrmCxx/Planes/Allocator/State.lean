import DrmCxx.Errc
import DrmCxx.Lib.Table
import DrmCxx.Modeset.AtomicRequest
import DrmCxx.Planes.ZposOrder

/-!
# Allocator state

The device as the allocator sees it, the caches it keeps between frames, and the part of its
state a placement search may change.
-/

namespace DrmCxx.Planes

open DrmCxx.Lib DrmCxx.Modeset

/-- `PlaneAssignment`: which layer each plane scans out. -/
abbrev Assignment := Table PlaneId LayerId

namespace Assignment

def hasLayer (a : Assignment) (l : LayerId) : Bool := a.entries.any (fun e => e.2 = l)

end Assignment

/-! ### The device -/

structure PropertyInfo where
  immutable : Bool := false
  deriving DecidableEq, Repr

abbrev Flags := ℕ

/-- A deterministic `std::sort`: it permutes its input, and sorts it when the comparison is a
strict weak order. -/
structure StdSort where
  sort : {α : Type} → (α → α → Bool) → List α → List α
  perm : ∀ {α : Type} (lt : α → α → Bool) (l : List α), (sort lt l).Perm l
  sorted : ∀ {α : Type} (lt : α → α → Bool), (∀ a b, lt a b = true → lt b a = false) →
    (∀ a b c, lt a b = false → lt b c = false → lt a c = false) →
    ∀ l : List α, (sort lt l).Pairwise fun a b => lt b a = false

/-- What the allocator is given and does not change: the planes, their advertised properties, the
caller's hooks, and the kernel's answers. TEST verdicts and preparer answers are indexed by how
many TESTs were attempted before, so they may be any. -/
structure Device where
  registry : PlaneRegistry
  propertyInfo : PlaneId → PropTag → Option PropertyInfo
  /-- `drmModeGetResources`. -/
  crtcs : Option (List CrtcId)
  /-- Planes `drmModeGetPlane` can read. -/
  readable : PlaneId → Bool
  canvasHost : Option (PlaneCapabilities → Bool)
  testPreparer : Option (ℕ → Flags → Except Errc AtomicRequest)
  test : ℕ → AtomicRequest → Flags → Option Errc
  /-- Bytes read per frame for a buffer of this size, format and class. -/
  scanoutCostBytes : ℕ → ℕ → UInt32 → BandwidthClass → ℕ
  stdSort : StdSort

namespace Device

variable (d : Device)

/-- The index of a CRTC in the resource list, else the first one some plane supports. -/
def crtcIndex (crtc : CrtcId) : ℕ :=
  match d.crtcs.bind fun cs => cs.findIdx? (· = crtc) with
  | some i => i
  | none =>
    ((List.range 32).find? fun idx => d.registry.planes.any (·.compatibleWithCrtc idx)).getD 0

def advertises (p : PlaneId) (t : PropTag) : Bool := (d.propertyInfo p t).isSome

def isImmutable (p : PlaneId) (t : PropTag) : Bool := (d.propertyInfo p t).any (·.immutable)

def zposIsFixed (p : PlaneId) : Bool := (d.registry.capsOf p).any zposFixed

end Device

/-! ### Caches -/

structure CacheEntry where
  passed : Bool
  failures : ℕ
  deriving DecidableEq, Repr

/-- `TestCache`: the last verdict of a (plane, property hash), and how often it was rejected. -/
abbrev TestCache := Table (PlaneId × UInt64) CacheEntry

namespace TestCache

def lookup (c : TestCache) (p : PlaneId) (hash : UInt64) : Option Bool :=
  (c.find? (p, hash)).map (·.passed)

def record (c : TestCache) (p : PlaneId) (hash : UInt64) (passed : Bool) : TestCache :=
  let failures := ((c.find? (p, hash)).map (·.failures)).getD 0
  c.insertOrAssign (p, hash) ⟨passed, if passed then failures else failures + 1⟩

def failureCount (c : TestCache) (p : PlaneId) (hash : UInt64) : ℕ :=
  match c.find? (p, hash) with
  | some e => if e.passed then 0 else e.failures
  | none => 0

end TestCache

/-- `ModifierProbeCache`, by (CRTC, plane, fourcc, modifier). -/
abbrev ProbeCache := Table (ℕ × PlaneId × UInt32 × UInt64) Bool

/-! ### The allocator -/

/-- What a plane was last armed with. -/
structure LastCommitted where
  /-- None once the layer is forgotten. -/
  layer : Option LayerId
  properties : Properties
  hash : UInt64

structure Diagnostics where
  propertiesWritten : ℕ := 0
  fbsAttached : ℕ := 0
  testCommitsIssued : ℕ := 0
  fbDeltaFastPath : Bool := false
  deriving DecidableEq, Repr

namespace Diagnostics

/-- The counters after `req` was added to the caller's request. -/
def count (d : Diagnostics) (req : AtomicRequest) : Diagnostics :=
  { d with
    propertiesWritten := d.propertiesWritten + req.length
    fbsAttached := d.fbsAttached + req.countP (fun w => w.1.2 = .tag .fbId) }

end Diagnostics

/-- The part of the allocator a search changes. -/
structure SearchState where
  testCommitsThisFrame : ℕ := 0
  failureCache : TestCache := Table.empty
  probeCache : ProbeCache := Table.empty
  canvasPlane : Option PlaneId := none
  /-- TESTs attempted since the allocator was made; selects the verdict. -/
  attempts : ℕ := 0

structure Allocator where
  previousAllocationValid : Bool := false
  previousAllocation : Assignment := Table.empty
  previousCanvasPlane : Option PlaneId := none
  canvasZpos : Option UInt64 := none
  zposStack : List (PlaneId × UInt64) := []
  committedLayerCount : ℕ := 0
  search : SearchState := {}
  lastCommitted : Table PlaneId LastCommitted := Table.empty
  /-- Planes another client left lit. -/
  foreignLit : List PlaneId := []
  forceFullWrites : Bool := false
  maxTestCommits : ℕ := 16
  diagnostics : Diagnostics := {}

namespace Allocator

def setSearch (a : Allocator) (s : SearchState) : Allocator := { a with search := s }

def setDiagnostics (a : Allocator) (diag : Diagnostics) : Allocator :=
  { a with diagnostics := diag }

def invalidateAllocation (a : Allocator) : Allocator := { a with previousAllocationValid := false }

/-- The snapshot keeps its properties: the disable pass still reads its framebuffer. -/
def forgetLayer (a : Allocator) (l : LayerId) : Allocator :=
  let previous := a.previousAllocation.filter (fun e => e.2 ≠ l)
  { a with
    lastCommitted := a.lastCommitted.mapValues fun s =>
      if s.layer = some l then { s with layer := none } else s
    previousAllocation := previous
    previousAllocationValid := a.previousAllocationValid && !previous.isEmpty }

end Allocator

/-- What a search reads and does not change. -/
structure SearchContext where
  device : Device
  crtcIndex : ℕ
  output : Output
  /-- The layers of the output in zpos order. -/
  layers : List LayerId
  heap : Heap
  flags : Flags
  reserved : List PlaneId
  previous : Option Assignment
  maxTestCommits : ℕ

end DrmCxx.Planes
