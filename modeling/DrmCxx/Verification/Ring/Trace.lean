import DrmCxx.Lib.Run
import DrmCxx.Verification.Ring.Equations

/-!
# Calls on the presenter, with their history

The presenter under any sequence of `submit`, `acquire`, `release`, `retire_scanning` and
`reset`, together with what its callers hold: the fresh frames handed out, the acquisitions not
released yet, and what each release returned.
-/

namespace DrmCxx.Scene

/-- A fresh frame the presenter handed out. -/
structure HandOut where
  serial : ℕ
  token : Token
  key : SlotKey
  /-- The number of resets before it. -/
  generation : ℕ
  /-- A newer fresh frame exists, or the source is retired. -/
  superseded : Bool := false
  deriving DecidableEq, Repr

/-- An acquisition its caller has not released; `handOut` is the serial of the frame it shows. -/
structure Acquisition where
  token : Token
  handOut : Option ℕ
  deriving DecidableEq, Repr

structure ReleaseRecord where
  acquisition : Acquisition
  generation : ℕ
  /-- The live token when the release ran. -/
  liveToken : Token
  returned : Option SlotKey
  deriving DecidableEq, Repr

structure RingTrace where
  presenter : RingPresenter
  /-- Newest first. -/
  handOuts : List HandOut := []
  held : List Acquisition := []
  generation : ℕ := 0
  /-- Newest first. -/
  releases : List ReleaseRecord := []

inductive RingEvent
  | submit (key : SlotKey) (fence : Option SyncFence) (damage : List DamageRect)
  | acquire (wait : FenceWait)
  /-- Releases the `i`-th acquisition still held. -/
  | release (i : ℕ)
  | retireScanning
  | reset

namespace RingTrace

def init (fenceDeadline : Option ℕ) : RingTrace :=
  { presenter := { fenceDeadline } }

/-- The newest frame of this generation handed out under `token`. -/
def owner (t : RingTrace) (token : Token) : Option ℕ :=
  (t.handOuts.find? (fun h => h.token = token ∧ h.generation = t.generation)).map (·.serial)

/-- The frame is still held by an acquisition. -/
def Claimed (t : RingTrace) (h : HandOut) : Prop :=
  ∃ a ∈ t.held, a.handOut = some h.serial

instance (t : RingTrace) (h : HandOut) : Decidable (t.Claimed h) :=
  inferInstanceAs (Decidable (∃ a ∈ t.held, a.handOut = some h.serial))

/-- The releases of the frame's own acquisitions that returned a key. -/
def returns (t : RingTrace) (h : HandOut) : ℕ :=
  t.releases.countP (fun r => r.acquisition.handOut = some h.serial ∧ r.returned.isSome)

/-- The frames handed out so far, all superseded. -/
def supersede (handOuts : List HandOut) : List HandOut :=
  handOuts.map (fun h => { h with superseded := true })

def afterAcquire (t : RingTrace) (p : RingPresenter) (a : Acquired) : RingTrace :=
  match a.kind with
  | .none => { t with presenter := p }
  | .fresh =>
    { t with
      presenter := p
      handOuts := ⟨t.handOuts.length, a.token, a.key, t.generation, false⟩ ::
        supersede t.handOuts
      held := t.held ++ [⟨a.token, some t.handOuts.length⟩] }
  | .hold => { t with presenter := p, held := t.held ++ [⟨a.token, t.owner a.token⟩] }

def afterRelease (t : RingTrace) (i : ℕ) (a : Acquisition) : RingTrace :=
  { t with
    presenter := (t.presenter.release a.token).1
    held := t.held.eraseIdx i
    releases := ⟨a, t.generation, t.presenter.scanningToken,
      (t.presenter.release a.token).2⟩ :: t.releases }

def step (ptr : PtrWidth) (t : RingTrace) : RingEvent → RingTrace
  | .submit key fence damage => { t with presenter := t.presenter.submit key fence damage }
  | .acquire wait =>
    t.afterAcquire (t.presenter.acquire ptr wait).1 (t.presenter.acquire ptr wait).2
  | .release i =>
    match t.held[i]? with
    | some a => t.afterRelease i a
    | none => t
  | .retireScanning =>
    { t with presenter := t.presenter.retireScanning, handOuts := supersede t.handOuts }
  | .reset =>
    { t with presenter := t.presenter.reset, generation := t.generation + 1 }

end RingTrace

end DrmCxx.Scene
