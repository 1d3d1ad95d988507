import DrmCxx.Scene.RingPresenter

/-!
# The fixed external ring

`ExternalDmaBufRing`: an adapter from the presenter's slot keys to the framebuffers its slots
were imported to, and to the producer's `on_release` callback.
-/

namespace DrmCxx.Scene

/-- A framebuffer id; `0` is "no framebuffer". -/
abbrev FbId := ℕ

structure AcquiredBuffer where
  fbId : FbId
  /-- The presentation token, carried as the opaque pointer. -/
  token : Token
  acquireFence : Option SyncFence := none
  damage : List DamageRect := []
  deriving DecidableEq, Repr

structure ExternalDmaBufRing where
  /-- The cached `fb_id` of each slot. -/
  slots : List FbId
  presenter : RingPresenter
  deriving DecidableEq, Repr

namespace ExternalDmaBufRing

/-- A ring whose slots are imported as `slots`. -/
def create (slots : List FbId) (fenceDeadline : Option ℕ) : ExternalDmaBufRing :=
  { slots, presenter := { fenceDeadline } }

/-- `submit`: an out-of-range slot is ignored. -/
def submit (r : ExternalDmaBufRing) (slot : ℕ) (fence : Option SyncFence)
    (damage : List DamageRect) : ExternalDmaBufRing :=
  if r.slots.length ≤ slot then r
  else { r with presenter := r.presenter.submit slot fence damage }

def slotFb (r : ExternalDmaBufRing) (key : SlotKey) : FbId :=
  r.slots.getD key 0

/-- `acquire`; `none` is `EAGAIN`. -/
def acquire (ptr : PtrWidth) (wait : FenceWait) (r : ExternalDmaBufRing) :
    ExternalDmaBufRing × Option AcquiredBuffer :=
  let (p, d) := r.presenter.acquire ptr wait
  let r' := { r with presenter := p }
  match d.kind with
  | .fresh => (r', some ⟨r.slotFb d.key, d.token, d.fence, d.damage⟩)
  | .hold => (r', if r.slotFb d.key ≠ 0 then some ⟨r.slotFb d.key, d.token, none, []⟩ else none)
  | .none => (r', none)

/-- `release_with_fence`: the slot `on_release` fires for. -/
def release (r : ExternalDmaBufRing) (b : AcquiredBuffer) :
    ExternalDmaBufRing × Option SlotKey :=
  let (p, key) := r.presenter.release b.token
  ({ r with presenter := p }, key)

end ExternalDmaBufRing

end DrmCxx.Scene
