import DrmCxx.Errc
import DrmCxx.Present.BufferRing

/-!
# The dumb ring source

`DumbRingSource`: a layer source over a `BufferRing` of dumb buffers. `paint` presents a slot to
the ring at once; the scene's `acquire` picks it up at the next commit.
-/

namespace DrmCxx.Present

structure DumbRingSource where
  ring : BufferRing
  /-- The framebuffer of each slot's buffer, once allocated. -/
  buffers : List (Option ℕ) := []
  pendingSlot : Option ℕ := none
  pendingDamage : List Rect := []
  deriving DecidableEq, Repr

/-- `AcquiredBuffer`: the slot travels in `opaque`. -/
structure AcquiredSlot where
  fbId : ℕ
  slot : ℕ
  damage : List Rect
  deriving DecidableEq, Repr

namespace DumbRingSource

/-- The ring's own default for `max_damage_rects`. -/
def kMaxDamageRects : ℕ := 16

/-- `std::errc::io_error`. -/
def ioError : Errc := .other 5

def create (maxSlots : ℕ) : DumbRingSource :=
  { ring := .create maxSlots kMaxDamageRects }

/-- The buffer list, long enough for the slot. -/
def growBuffers (buffers : List (Option ℕ)) (slot : ℕ) : List (Option ℕ) :=
  if buffers.length ≤ slot then buffers ++ List.replicate (slot + 1 - buffers.length) none
  else buffers

def bufferAt (s : DumbRingSource) (slot : ℕ) : Option ℕ :=
  s.buffers[slot]?.join

/-- `alloc` is the answer to creating a dumb buffer with its framebuffer. -/
def ensureSlot (s : DumbRingSource) (slot : ℕ) (alloc : Except Errc ℕ) :
    DumbRingSource × Option Errc :=
  let s := { s with buffers := growBuffers s.buffers slot }
  match s.bufferAt slot with
  | some _ => (s, none)
  | none =>
    match alloc with
    | .error e => (s, some e)
    | .ok fbId => ({ s with buffers := s.buffers.set slot (some fbId) }, none)

/-- `fn` is what the application's callback returns for the slot and its repaint. -/
def paint (s : DumbRingSource) (alloc : Except Errc ℕ) (fn : ℕ → Repaint → List Rect) :
    DumbRingSource × Except Errc Lease :=
  match s.ring.acquire with
  | (ring, none) => ({ s with ring }, .error .resourceUnavailableTryAgain)
  | (ring, some lease) =>
    match ensureSlot { s with ring } lease.slot alloc with
    | (s, some e) => (s, .error e)
    | (s, none) =>
      match s.bufferAt lease.slot with
      | none => (s, .error ioError)
      | some _ =>
        let frameDamage := fn lease.slot lease.repaint
        ({ s with
            ring := s.ring.present lease.slot frameDamage
            pendingDamage := if lease.repaint.full then [] else frameDamage
            pendingSlot := some lease.slot },
          .ok lease)

def acquire (s : DumbRingSource) : DumbRingSource × Except Errc AcquiredSlot :=
  match s.pendingSlot with
  | none => (s, .error .resourceUnavailableTryAgain)
  | some slot =>
    match s.bufferAt slot with
    | none => ({ s with pendingSlot := none }, .error ioError)
    | some fbId => ({ s with pendingSlot := none }, .ok ⟨fbId, slot, s.pendingDamage⟩)

def release (s : DumbRingSource) (acquired : ℕ) : DumbRingSource :=
  { s with ring := s.ring.release acquired }

end DumbRingSource

end DrmCxx.Present
