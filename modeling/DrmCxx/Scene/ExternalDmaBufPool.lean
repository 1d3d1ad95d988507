import DrmCxx.Errc
import DrmCxx.Scene.ExternalDmaBufRing
import Mathlib.Data.List.AList
import Mathlib.Data.PNat.Basic

/-!
# The dynamic dma-buf pool

`ExternalDmaBufPool`: a lazily populated map from the producer's buffer keys to imported
framebuffers, bounded by LRU eviction and drained by generation and key retirement.
-/

namespace DrmCxx.Scene

structure SourceFormat where
  drmFourcc : ℕ
  modifier : ℕ
  width : ℕ
  height : ℕ
  deriving DecidableEq, Repr

structure ExternalPlaneInfo where
  fd : ℤ
  offset : ℕ
  pitch : ℕ
  deriving DecidableEq, Repr

/-- `k_max_planes`. -/
def kMaxPlanes : ℕ := 4

/-- An imported buffer: its planes, as duplicated, and its framebuffer. -/
structure DmaBufSlot where
  planes : List ExternalPlaneInfo
  fbId : FbId
  modifier : ℕ
  deriving DecidableEq, Repr

/-- The kernel's answer to duplicating the planes and adding a framebuffer, whose id is never 0. -/
abbrev ImportResult := Except Errc ℕ+

structure ExternalDmaBufPool where
  format : SourceFormat
  maxPool : ℕ
  slots : AList (fun _ : SlotKey => DmaBufSlot) := ∅
  /-- Least recently submitted first. -/
  lru : List SlotKey := []
  /-- The keys with a position in `lru`. -/
  lruPos : List SlotKey := []
  retiring : List SlotKey := []
  stale : List SlotKey := []
  presenter : RingPresenter

namespace ExternalDmaBufPool

def create (format : SourceFormat) (fenceDeadline : Option ℕ) (maxPool : ℕ) :
    ExternalDmaBufPool :=
  { format, maxPool := if maxPool < 1 then 1 else maxPool, presenter := { fenceDeadline } }

def touchLru (p : ExternalDmaBufPool) (key : SlotKey) : ExternalDmaBufPool :=
  if key ∈ p.lruPos then { p with lru := p.lru.erase key ++ [key] }
  else { p with lru := p.lru ++ [key], lruPos := key :: p.lruPos }

/-- The import of a key's first submit. -/
def importKey (p : ExternalDmaBufPool) (key : SlotKey) (planes : List ExternalPlaneInfo)
    (imported : ImportResult) : Except Errc ExternalDmaBufPool :=
  if key ∈ p.slots then .ok p
  else if planes = [] ∨ kMaxPlanes < planes.length then .error .invalidArgument
  else if planes.any (fun plane => plane.fd < 0 || plane.pitch = 0) then .error .invalidArgument
  else match imported with
    | .error e => .error e
    | .ok fb => .ok { p with slots := p.slots.insert key ⟨planes, fb, p.format.modifier⟩ }

/-- The locked section of `submit`. -/
def submitLocked (p : ExternalDmaBufPool) (key : SlotKey) (planes : List ExternalPlaneInfo)
    (imported : ImportResult) : Except Errc ExternalDmaBufPool :=
  if key ∈ p.stale then .error .resourceUnavailableTryAgain
  else match p.importKey key planes imported with
    | .error e => .error e
    | .ok p' =>
      let p'' := p'.touchLru key
      .ok { p'' with retiring := p''.retiring.erase key }

/-- The rest of `submit`, after the lock is dropped. -/
def submitHandOff (p : ExternalDmaBufPool) (key : SlotKey) (fence : Option SyncFence)
    (damage : List DamageRect) : ExternalDmaBufPool :=
  { p with presenter := p.presenter.submit key fence damage }

def resetGeneration (p : ExternalDmaBufPool) (width height drmFourcc : ℕ) :
    ExternalDmaBufPool :=
  { p with
    format := { p.format with width, height, drmFourcc }
    retiring := p.slots.keys.foldl (fun retiring key => retiring.insert key) p.retiring }

def retire (p : ExternalDmaBufPool) (key : SlotKey) : ExternalDmaBufPool :=
  if key ∈ p.slots then
    { p with retiring := p.retiring.insert key, stale := p.stale.insert key }
  else p

/-- `evict_locked`: the key's framebuffer is torn down and forgotten. -/
def evict (p : ExternalDmaBufPool) (key : SlotKey) : ExternalDmaBufPool :=
  { p with
    slots := p.slots.erase key
    lru := if key ∈ p.lruPos then p.lru.erase key else p.lru
    lruPos := p.lruPos.erase key
    stale := p.stale.erase key }

/-- `sweep_retiring_locked` over the keys still to be visited. -/
def sweepKeys : List SlotKey → ExternalDmaBufPool → ExternalDmaBufPool
  | [], p => p
  | key :: keys, p =>
    if p.presenter.isReferenced key then sweepKeys keys p
    else sweepKeys keys ({ p with retiring := p.retiring.erase key }.evict key)

def sweepRetiring (p : ExternalDmaBufPool) : ExternalDmaBufPool :=
  sweepKeys p.retiring p

/-- The least recently used key no commit holds. -/
def victim (p : ExternalDmaBufPool) : Option SlotKey :=
  p.lru.find? (fun key => !p.presenter.isReferenced key)

/-- `prune_locked`, for at most `fuel` evictions. -/
def pruneLoop : ℕ → ExternalDmaBufPool → ExternalDmaBufPool
  | 0, p => p
  | fuel + 1, p =>
    if p.slots.entries.length ≤ p.maxPool then p
    else match p.victim with
      | none => p
      | some key => pruneLoop fuel (p.evict key)

/-- Each eviction shortens `lru`, which bounds the loop. -/
def prune (p : ExternalDmaBufPool) : ExternalDmaBufPool :=
  pruneLoop p.lru.length p

/-- The presenter's part of `acquire`. -/
def acquireDrain (ptr : PtrWidth) (wait : FenceWait) (p : ExternalDmaBufPool) :
    ExternalDmaBufPool × Acquired :=
  let (presenter, d) := p.presenter.acquire ptr wait
  ({ p with presenter }, d)

/-- The framebuffer a drained frame resolves to; `0` when its key is not cached. -/
def lookupFb (p : ExternalDmaBufPool) (d : Acquired) : FbId :=
  if d.kind = .none then 0 else ((p.slots.lookup d.key).map (·.fbId)).getD 0

/-- The locked section of `acquire`, and its result; `none` is `EAGAIN`. -/
def acquireLocked (p : ExternalDmaBufPool) (d : Acquired) :
    ExternalDmaBufPool × Option AcquiredBuffer :=
  let fbId := p.lookupFb d
  (p.sweepRetiring.prune,
    match d.kind with
    | .fresh => some ⟨fbId, d.token, d.fence, d.damage⟩
    | .hold => if fbId ≠ 0 then some ⟨fbId, d.token, none, []⟩ else none
    | .none => none)

def release (p : ExternalDmaBufPool) (token : Token) : ExternalDmaBufPool × Option SlotKey :=
  let (presenter, key) := p.presenter.release token
  ({ p with presenter }, key)

end ExternalDmaBufPool

end DrmCxx.Scene
