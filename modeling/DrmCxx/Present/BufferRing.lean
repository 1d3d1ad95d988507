import Mathlib.Algebra.Group.Nat.Defs
import Mathlib.Data.Int.Notation
import Mathlib.Data.List.Basic

/-!
# The buffer ring

`BufferRing`: a pool of scanout slots. Each slot remembers when it was last presented; a bounded
history of frame damage says what a producer must repaint in a slot it gets back.
-/

namespace DrmCxx.Present

structure Pixel where
  x : ℤ
  y : ℤ
  deriving DecidableEq, Repr

structure Rect where
  x : ℤ
  y : ℤ
  width : ℕ
  height : ℕ
  deriving DecidableEq, Repr

def Rect.contains (r : Rect) (p : Pixel) : Bool :=
  r.x ≤ p.x && p.x < r.x + r.width && r.y ≤ p.y && p.y < r.y + r.height

/-- Some rectangle of the list contains the pixel. -/
def covered (rects : List Rect) (p : Pixel) : Bool :=
  rects.any (·.contains p)

structure Repaint where
  full : Bool := true
  region : List Rect := []
  deriving DecidableEq, Repr

/-- The pixels a producer repaints. -/
def Repaint.covers (r : Repaint) (p : Pixel) : Bool :=
  r.full || covered r.region p

inductive SlotState
  | free
  | inFlight
  | scanning
  | pendingRelease
  deriving DecidableEq, Repr

structure Slot where
  state : SlotState := .free
  /-- The present sequence when it was last presented; `0` if it never was. -/
  lastPresent : ℕ := 0
  deriving DecidableEq, Repr

/-- The present sequence is a 64-bit counter. -/
def seqModulus : ℕ := 2 ^ 64

structure BufferRing where
  maxSlots : ℕ
  maxDamageRects : ℕ
  slots : List Slot := []
  /-- Damage of the frames `baseSeq + 1` to `presentSeq`, oldest first. -/
  damage : List (List Rect) := []
  presentSeq : ℕ := 0
  baseSeq : ℕ := 0
  deriving DecidableEq, Repr

structure Lease where
  slot : ℕ
  fresh : Bool
  repaint : Repaint
  deriving DecidableEq, Repr

namespace BufferRing

/-- `k_min_slots`. -/
def kMinSlots : ℕ := 1

def create (maxSlots maxDamageRects : ℕ) : BufferRing :=
  { maxSlots := if maxSlots < kMinSlots then kMinSlots else maxSlots, maxDamageRects }

def inFlight (r : BufferRing) : ℕ :=
  r.slots.countP (·.state = .inFlight)

/-- The inner loop of `repaint_for`; `none` once the region holds too many rectangles. -/
def pushRects (cap : ℕ) (region : List Rect) : List Rect → Option (List Rect)
  | [] => some region
  | rect :: rects =>
    if cap < (region ++ [rect]).length then none else pushRects cap (region ++ [rect]) rects

/-- The outer loop of `repaint_for`. -/
def pushFrames (cap : ℕ) (region : List Rect) : List (List Rect) → Option (List Rect)
  | [] => some region
  | frame :: frames =>
    match pushRects cap region frame with
    | none => none
    | some region => pushFrames cap region frames

def repaintFor (r : BufferRing) (lastPresent : ℕ) : Repaint :=
  if lastPresent = 0 ∨ lastPresent < r.baseSeq then {}
  else match pushFrames r.maxDamageRects [] (r.damage.drop (lastPresent - r.baseSeq)) with
    | none => {}
    | some region => { full := false, region }

/-- The loop of `acquire`: the freshest free slot among those from index `i` on, if fresher than
the best one before. -/
def freshestFree : List Slot → ℕ → Option (ℕ × ℕ) → Option (ℕ × ℕ)
  | [], _, best => best
  | s :: slots, i, best =>
    if s.state ≠ .free then freshestFree slots (i + 1) best
    else match best with
      | none => freshestFree slots (i + 1) (some (i, s.lastPresent))
      | some (b, lastPresent) =>
        if lastPresent < s.lastPresent then freshestFree slots (i + 1) (some (i, s.lastPresent))
        else freshestFree slots (i + 1) (some (b, lastPresent))

def setState (r : BufferRing) (slot : ℕ) (state : SlotState) : BufferRing :=
  { r with slots := r.slots.modify slot (fun s => { s with state }) }

def acquire (r : BufferRing) : BufferRing × Option Lease :=
  match freshestFree r.slots 0 none with
  | some (slot, lastPresent) =>
    (r.setState slot .inFlight, some ⟨slot, false, r.repaintFor lastPresent⟩)
  | none =>
    if r.slots.length < r.maxSlots then
      ({ r with slots := r.slots ++ [{ state := .inFlight }] }, some ⟨r.slots.length, true, {}⟩)
    else (r, none)

/-- The outgoing scanout buffer. -/
def retireScanning (s : Slot) : Slot :=
  if s.state = .scanning then { s with state := .pendingRelease } else s

/-- The loop that drops damage older than `maxSlots` frames. -/
def trimDamage (maxSlots : ℕ) : List (List Rect) → ℕ → List (List Rect) × ℕ
  | [], base => ([], base)
  | frame :: frames, base =>
    if maxSlots < (frame :: frames).length then
      trimDamage maxSlots frames ((base + 1) % seqModulus)
    else (frame :: frames, base)

def present (r : BufferRing) (slot : ℕ) (frameDamage : List Rect) : BufferRing :=
  if r.slots.length ≤ slot then r
  else
    let seq := (r.presentSeq + 1) % seqModulus
    let history := trimDamage r.maxSlots (r.damage ++ [frameDamage]) r.baseSeq
    { r with
      presentSeq := seq
      damage := history.1
      baseSeq := history.2
      slots := (r.slots.map retireScanning).modify slot
        (fun _ => { state := .scanning, lastPresent := seq }) }

def release (r : BufferRing) (slot : ℕ) : BufferRing :=
  match r.slots[slot]? with
  | none => r
  | some s => if s.state = .scanning then r else r.setState slot .free

end BufferRing

end DrmCxx.Present
