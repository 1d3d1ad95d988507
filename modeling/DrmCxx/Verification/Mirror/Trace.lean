import DrmCxx.Lib.Run
import DrmCxx.Scene.SourceMirror

/-!
# Calls on the mirror, with their history

The mirror under any sequence of its consumers' calls, together with the hand-outs it made and
the ones not released yet. Frames are numbered by the source's acquisition they come from.
-/

namespace DrmCxx.Scene

open Lib

namespace SourceMirror

def InnerCall.acquired? : InnerCall → Option AcquiredBuffer
  | .acquire answer => answer.toOption
  | .release _ => none
  | .onRetired => none
  | .onSessionPaused => none
  | .onSessionResumed _ => none

def InnerCall.released? : InnerCall → Option Frame
  | .acquire _ => none
  | .release f => some f
  | .onRetired => none
  | .onSessionPaused => none
  | .onSessionResumed _ => none

/-- The buffers the source handed over, oldest first. -/
def acquired (m : SourceMirror) : List AcquiredBuffer :=
  m.innerCalls.filterMap (·.acquired?)

/-- What the source got back, oldest first. -/
def returned (m : SourceMirror) : List Frame :=
  m.innerCalls.filterMap (·.released?)

/-- The number of the frame at an address; `0` is none. -/
def frameAt (m : SourceMirror) (address : Token) : ℕ :=
  ((m.frames.find? (·.address = address)).map (·.seq)).getD 0

def retirements (calls : List InnerCall) : ℕ :=
  calls.countP (· matches .onRetired)

def pauses (calls : List InnerCall) : ℕ :=
  calls.countP (· matches .onSessionPaused)

def resumes (calls : List InnerCall) : ℕ :=
  calls.countP (· matches .onSessionResumed _)

end SourceMirror

/-- A buffer a consumer was handed. -/
structure MirrorHandOut where
  consumer : ℕ
  frame : ℕ
  buffer : AcquiredBuffer
  deriving DecidableEq, Repr

structure MirrorTrace where
  mirror : SourceMirror := {}
  /-- Oldest first. -/
  handOuts : List MirrorHandOut := []
  /-- The hand-outs not released yet. -/
  held : List MirrorHandOut := []
  /-- The newest frame, until the session pauses or every consumer retires. -/
  newest : Option ℕ := none
  destroyed : Bool := false

inductive MirrorEvent
  | makeConsumer
  /-- The source's answer if it is asked, and the outcome of duplicating the acquire fence. -/
  | acquire (id : ℕ) (answer : Except Errc AcquiredBuffer) (dup : Except Errc Unit)
  /-- Releases the `i`-th hand-out still held. -/
  | release (i : ℕ) (fence : Option SyncFence) (merges : Bool)
  | retire (id : ℕ)
  | drop (id : ℕ)
  | pause (id : ℕ)
  | resume (id : ℕ) (answer : Except Errc Unit)
  | destroy

namespace MirrorTrace

open SourceMirror

/-- The newest frame after an acquire that leaves the mirror at `m`. -/
def newestAfter (t : MirrorTrace) (m : SourceMirror) : Option ℕ :=
  if m.acquired.length = t.mirror.acquired.length then t.newest else some m.acquired.length

def afterAcquire (t : MirrorTrace) (id : ℕ) (m : SourceMirror)
    (out : Except Errc AcquiredBuffer) : MirrorTrace :=
  match out with
  | .error _ => { t with mirror := m, newest := t.newestAfter m }
  | .ok b =>
    { t with
      mirror := m
      handOuts := t.handOuts ++ [⟨id, m.frameAt b.token, b⟩]
      held := t.held ++ [⟨id, m.frameAt b.token, b⟩]
      newest := t.newestAfter m }

def step (alloc : Allocation) (t : MirrorTrace) : MirrorEvent → MirrorTrace
  | .makeConsumer => { t with mirror := t.mirror.makeConsumer }
  | .acquire id answer dup =>
    t.afterAcquire id (t.mirror.acquire alloc id answer dup).1
      (t.mirror.acquire alloc id answer dup).2
  | .release i fence merges =>
    match t.held[i]? with
    | none => t
    | some h =>
      { t with mirror := t.mirror.release h.buffer fence merges, held := t.held.eraseIdx i }
  | .retire id =>
    let m := t.mirror.retire id
    { t with mirror := m, newest := if m.allRetired then none else t.newest }
  | .drop id => { t with mirror := t.mirror.drop id }
  | .pause _ => { t with mirror := t.mirror.onSessionPaused, newest := none }
  | .resume _ answer => { t with mirror := t.mirror.onSessionResumed answer }
  | .destroy => { t with mirror := t.mirror.destroy, newest := none, destroyed := true }

def Live (t : MirrorTrace) (id : ℕ) : Prop :=
  ∃ c ∈ t.mirror.consumers[id]?, c.live = true

instance (t : MirrorTrace) (id : ℕ) : Decidable (t.Live id) :=
  inferInstanceAs (Decidable (∃ c ∈ t.mirror.consumers[id]?, c.live = true))

/-- A call its caller may make: consumers are called while they exist, each gives back what it
took before it goes, and they keep the mirror alive. -/
def Legal (t : MirrorTrace) : MirrorEvent → Prop
  | .makeConsumer => t.destroyed = false
  | .acquire id _ _ => t.destroyed = false ∧ t.Live id
  | .release i _ _ => t.destroyed = false ∧ i < t.held.length
  | .retire id | .pause id | .resume id _ => t.destroyed = false ∧ t.Live id
  | .drop id => t.destroyed = false ∧ t.Live id ∧ ∀ h ∈ t.held, h.consumer ≠ id
  | .destroy => t.destroyed = false ∧ ∀ c ∈ t.mirror.consumers, c.live = false

instance (t : MirrorTrace) : ∀ e, Decidable (t.Legal e)
  | .makeConsumer => inferInstanceAs (Decidable (_ = _))
  | .acquire .. => inferInstanceAs (Decidable (_ ∧ _))
  | .release .. => inferInstanceAs (Decidable (_ ∧ _))
  | .retire .. => inferInstanceAs (Decidable (_ ∧ _))
  | .pause .. => inferInstanceAs (Decidable (_ ∧ _))
  | .resume .. => inferInstanceAs (Decidable (_ ∧ _))
  | .drop .. => inferInstanceAs (Decidable (_ ∧ _ ∧ _))
  | .destroy => inferInstanceAs (Decidable (_ ∧ _))

end MirrorTrace

end DrmCxx.Scene
