import Mathlib.Algebra.Group.Nat.Defs
import Mathlib.Data.Int.Notation
import Mathlib.Data.List.Basic

/-!
# The external ring's presentation state machine

`RingPresenter` (`scene/detail/external_ring_core`): which buffer is pending and scanning, the
tokens handed to the scene's deferred release, and the damage carried over dropped frames.
-/

namespace DrmCxx.Scene

/-- Width of `std::uintptr_t` on the target; the C++ standard promises 16 bits. -/
structure PtrWidth where
  bits : ℕ
  bits_ge : 16 ≤ bits

/-- `SlotKey`: a slot index or a pool's buffer key. -/
abbrev SlotKey := ℕ

/-- A presentation token; `0` is the "no acquisition" sentinel. -/
abbrev Token := ℕ

/-- A `sync::SyncFence`, by identity. -/
abbrev SyncFence := ℕ

structure DamageRect where
  x : ℤ
  y : ℤ
  w : ℕ
  h : ℕ
  deriving DecidableEq, Repr

/-- `k_max_damage`. -/
def kMaxDamage : ℕ := 16

/-- Outcome of `SyncFence::wait` on a fence, for a timeout in milliseconds. -/
abbrev FenceWait := SyncFence → ℕ → Bool

structure Outstanding where
  token : Token
  key : SlotKey
  deriving DecidableEq, Repr

structure RingPresenter where
  /-- In nanoseconds. -/
  fenceDeadline : Option ℕ
  pendingKey : Option SlotKey := none
  pendingFence : Option SyncFence := none
  /-- The first `pending_damage_count_` rectangles of the fixed store. -/
  pendingDamage : List DamageRect := []
  scanningKey : Option SlotKey := none
  nextToken : Token := 0
  scanningToken : Token := 0
  outstanding : List Outstanding := []
  carriedDamage : List DamageRect := []
  carriedDamageWhole : Bool := false
  deriving DecidableEq, Repr

inductive Present
  | none
  | fresh
  | hold
  deriving DecidableEq, Repr

structure Acquired where
  kind : Present := .none
  key : SlotKey := 0
  token : Token := 0
  fence : Option SyncFence := none
  damage : List DamageRect := []
  deriving DecidableEq, Repr

namespace RingPresenter

/-- `submit`: replaces the pending frame; over-cap damage degrades to whole-frame. -/
def submit (p : RingPresenter) (key : SlotKey) (acquire : Option SyncFence)
    (damage : List DamageRect) : RingPresenter :=
  { p with
    pendingKey := some key
    pendingFence := acquire
    pendingDamage := if kMaxDamage < damage.length then [] else damage }

def hasFreshFrame (p : RingPresenter) : Bool :=
  p.pendingKey.isSome

/-- The pre-wait's timeout: a sub-millisecond deadline rounds up to 1 ms. -/
def waitMs (deadline : ℕ) : ℕ :=
  if deadline / 1000000 = 0 ∧ 0 < deadline then 1 else deadline / 1000000

/-- What the fence pre-wait leaves of a drained frame's fence; `none` on a deadline miss. -/
def preWait (p : RingPresenter) (wait : FenceWait) : Option (Option SyncFence) :=
  match p.fenceDeadline, p.pendingFence with
  | some deadline, some fence => if wait fence (waitMs deadline) then some none else none
  | _, fence => some fence

/-- A frame is pending and its fence, where it is pre-waited, signals in time. -/
def freshReady (p : RingPresenter) (wait : FenceWait) : Bool :=
  p.pendingKey.isSome && (p.preWait wait).isSome

/-- The token after `nextToken`, skipping the sentinel on wrap. -/
def advanceToken (ptr : PtrWidth) (t : ℕ) : ℕ :=
  if (t + 1) % 2 ^ ptr.bits = 0 then 1 else (t + 1) % 2 ^ ptr.bits

def accumulateCarriedDamage (p : RingPresenter) (buf : List DamageRect) : RingPresenter :=
  if p.carriedDamageWhole then p
  else if buf.length = 0 ∨ kMaxDamage < p.carriedDamage.length + buf.length then
    { p with carriedDamageWhole := true, carriedDamage := [] }
  else
    { p with carriedDamage := p.carriedDamage ++ buf }

/-- `take_damage_with_carry`: the frame's damage, empty for whole-frame. -/
def damageWithCarry (p : RingPresenter) (buf : List DamageRect) : List DamageRect :=
  if p.carriedDamageWhole ∨ buf.length = 0 ∨
      kMaxDamage < p.carriedDamage.length + buf.length then []
  else p.carriedDamage ++ buf

/-- The locked section of `acquire`: the pending frame is drained. -/
def drain (p : RingPresenter) : RingPresenter :=
  match p.pendingKey with
  | none => p
  | some _ => { p with pendingKey := none, pendingFence := none, pendingDamage := [] }

/-- Promotion of a fresh frame under a new token. -/
def promote (ptr : PtrWidth) (p : RingPresenter) (key : SlotKey) (fence : Option SyncFence)
    (buf : List DamageRect) : RingPresenter × Acquired :=
  let token := advanceToken ptr p.nextToken
  ({ p with
      scanningKey := some key
      nextToken := token
      scanningToken := token
      outstanding := p.outstanding ++ [⟨token, key⟩]
      carriedDamage := []
      carriedDamageWhole := false },
    { kind := .fresh, key := key, token := token, fence := fence,
      damage := p.damageWithCarry buf })

/-- Idle hold: the scanning key again, under the live token. -/
def hold (p : RingPresenter) : Acquired :=
  match p.scanningKey with
  | some key => { kind := .hold, key := key, token := p.scanningToken }
  | none => {}

/-- `acquire`: one vblank of the state machine. -/
def acquire (ptr : PtrWidth) (wait : FenceWait) (p : RingPresenter) :
    RingPresenter × Acquired :=
  match p.pendingKey, p.preWait wait with
  | some key, some fence => promote ptr p.drain key fence p.pendingDamage
  -- the deadline was missed: the frame is dropped and its damage carried
  | some _, none => (p.drain.accumulateCarriedDamage p.pendingDamage, p.drain.hold)
  | none, _ => (p, p.hold)

/-- Erases the first entry of `token`. -/
def eraseToken (outstanding : List Outstanding) (token : Token) : List Outstanding :=
  outstanding.eraseP (·.token = token)

/-- The key of the first entry of `token`. -/
def findToken (outstanding : List Outstanding) (token : Token) : Option SlotKey :=
  (outstanding.find? (·.token = token)).map (·.key)

/-- `release`: the key to signal free, unless the token is live or already fired. -/
def release (p : RingPresenter) (token : Token) : RingPresenter × Option SlotKey :=
  if token = 0 then (p, none)
  else if token = p.scanningToken then (p, none)
  else ({ p with outstanding := eraseToken p.outstanding token },
    findToken p.outstanding token)

/-- `retire_scanning`: no later frame will supersede the scanning buffer. -/
def retireScanning (p : RingPresenter) : RingPresenter :=
  { p with scanningToken := 0 }

def isReferenced (p : RingPresenter) (key : SlotKey) : Bool :=
  p.scanningKey = some key || p.outstanding.any (·.key = key)

/-- `reset`: a session resume restarts presentation, token counter included. -/
def reset (p : RingPresenter) : RingPresenter :=
  { p with
    pendingKey := none
    pendingFence := none
    pendingDamage := []
    scanningKey := none
    nextToken := 0
    scanningToken := 0
    outstanding := []
    carriedDamage := []
    carriedDamageWhole := false }

end RingPresenter

end DrmCxx.Scene
