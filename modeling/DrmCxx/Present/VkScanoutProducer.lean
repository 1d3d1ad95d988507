import DrmCxx.Scene.ExternalDmaBufRing

/-!
# The Vulkan scanout producer

`VkScanoutProducer`, as far as it rotates its buffers. In the ring tiers (export and import) a
frame is drawn into one of the ring's images; in the copy tier it is copied into one of two dumb
buffers. Which slots are free is known from the ring's release callback.
-/

namespace DrmCxx.Present

open Scene (ExternalDmaBufRing FbId SlotKey SyncFence)

/-- `Impl::Mode`, without the tier whose buffers GL rotates. -/
inductive ScanoutTier
  /-- `Export` and `Import`. -/
  | ring
  | copy
  deriving DecidableEq, Repr

structure VkScanoutProducer where
  tier : ScanoutTier
  /-- `Slot::free` of each image, or `copy_slot_free`. -/
  free : List Bool
  lastSlot : ℕ := 0
  copyNext : ℕ := 0
  ring : ExternalDmaBufRing

namespace VkScanoutProducer

def create (tier : ScanoutTier) (slots : List FbId) : VkScanoutProducer :=
  { tier, free := slots.map fun _ => true, ring := .create slots none }

/-- `pick_slot`: the first free slot after the last, or the slot after the last. -/
def pickSlot (p : VkScanoutProducer) : ℕ :=
  let n := p.free.length
  if n = 0 then 0
  else
    match (List.range n).find? fun k => p.free[(p.lastSlot + (k + 1)) % n]? = some true with
    | some k => (p.lastSlot + (k + 1)) % n
    | none => (p.lastSlot + 1) % n

/-- `target` of the copy tier. -/
def copyTarget (p : VkScanoutProducer) : ℕ :=
  if p.free[p.copyNext]? ≠ some true ∧ p.free[p.copyNext ^^^ 1]? = some true then p.copyNext ^^^ 1
  else p.copyNext

/-- The slot `render` draws into. -/
def target (p : VkScanoutProducer) : ℕ :=
  match p.tier with
  | .ring => p.pickSlot
  | .copy => p.copyTarget

/-- The rest of `render`: the slot is drawn and handed to the ring, in the ring tiers with the
fence of the draw. -/
def submit (p : VkScanoutProducer) (index : ℕ) (fence : Option SyncFence) : VkScanoutProducer :=
  match p.tier with
  | .ring =>
    { p with
      free := p.free.set index false
      lastSlot := index
      ring := p.ring.submit index fence [] }
  | .copy =>
    { p with
      free := p.free.set index false
      copyNext := index ^^^ 1
      ring := p.ring.submit index none [] }

/-- The rest of `render` where `getSemaphoreFdKHR` throws: the slot is drawn and busy, and the ring
never hears of it. Nothing of the copy tier throws once its buffer is chosen. -/
def abandon (p : VkScanoutProducer) (index : ℕ) : VkScanoutProducer :=
  match p.tier with
  | .ring => { p with free := p.free.set index false, lastSlot := index }
  | .copy => p

/-- The ring's `on_release`. -/
def onRelease (p : VkScanoutProducer) (slot : SlotKey) : VkScanoutProducer :=
  { p with free := p.free.set slot true }

end VkScanoutProducer

end DrmCxx.Present
