import DrmCxx.Errc
import DrmCxx.Scene.ExternalDmaBufRing

/-!
# The source mirror

`SourceMirror`: one `LayerBufferSource` shown on several scenes. The mirrored source is outside:
each of its answers is an argument, and the mirror keeps the calls it made on it.
-/

namespace DrmCxx.Scene

namespace SourceMirror

/-- One buffer acquired from the source, shared by the consumers that took it. -/
structure Frame where
  /-- Where the frame lives; consumers get it as the opaque pointer. -/
  address : Token
  seq : ℕ := 0
  buffer : AcquiredBuffer
  /-- Consumers yet to release it. -/
  holders : ℕ := 0
  /-- The newest frame; held for consumers yet to take it. -/
  current : Bool := false
  /-- The fences merged so far. -/
  releaseFence : Option (List SyncFence) := none
  deriving DecidableEq, Repr

structure Consumer where
  live : Bool := false
  retired : Bool := false
  /-- The newest frame taken; `0` is none. -/
  lastSeq : ℕ := 0
  deriving DecidableEq, Repr

/-- A call on the mirrored source. -/
inductive InnerCall
  | acquire (answer : Except Errc AcquiredBuffer)
  /-- The frame's buffer goes back, with its merged fence when it has one. -/
  | release (f : Frame)
  | onRetired
  | onSessionPaused
  | onSessionResumed (answer : Except Errc Unit)

/-- The address a new frame is allocated at: any that no frame of the list has. -/
structure Allocation where
  address : ℕ → List Frame → Token
  fresh : ∀ n fs, address n fs ∉ fs.map (·.address)

theorem le_foldr_max {n : ℕ} {ns : List ℕ} (h : n ∈ ns) : n ≤ ns.foldr max 0 := by
  induction ns with
  | nil => cases h
  | cons m ns ih =>
    rw [List.foldr_cons]
    rcases List.mem_cons.mp h with rfl | h
    · exact Nat.le_max_left n _
    · exact Nat.le_trans (ih h) (Nat.le_max_right m _)

/-- The allocation one past the highest address. -/
def Allocation.above : Allocation where
  address _ fs := (fs.map (·.address)).foldr max 0 + 1
  fresh _ _ h := absurd (le_foldr_max h) (Nat.not_succ_le_self _)

end SourceMirror

structure SourceMirror where
  frames : List SourceMirror.Frame := []
  consumers : List SourceMirror.Consumer := []
  nextSeq : ℕ := 1
  paused : Bool := false
  innerRetired : Bool := false
  resumeResult : Except Errc Unit := .ok ()
  /-- The calls made on `inner_`, oldest first. -/
  innerCalls : List SourceMirror.InnerCall := []

namespace SourceMirror

/-- A call on `inner_`. -/
def call (m : SourceMirror) (c : InnerCall) : SourceMirror :=
  { m with innerCalls := m.innerCalls ++ [c] }

/-- `make_consumer`; the consumer's id is its position. -/
def makeConsumer (m : SourceMirror) : SourceMirror :=
  { m with consumers := m.consumers ++ [⟨true, false, 0⟩] }

/-- The first frame that meets `p`, with its index. -/
def findFrame (m : SourceMirror) (p : Frame → Bool) : Option (ℕ × Frame) := do
  let i ← m.frames.findIdx? p
  let f ← m.frames[i]?
  pure (i, f)

def currentFrame (m : SourceMirror) : Option (ℕ × Frame) :=
  m.findFrame (·.current)

/-- `hand_out`; `dup` is the outcome of duplicating the acquire fence. -/
def handOut (dup : Except Errc Unit) (f : Frame) (c : Consumer) : Except Errc AcquiredBuffer :=
  let out : AcquiredBuffer :=
    { fbId := f.buffer.fbId
      token := f.address
      acquireFence := f.buffer.acquireFence
      damage := if c.lastSeq + 1 = f.seq then f.buffer.damage else [] }
  match f.buffer.acquireFence, dup with
  | some _, .error e => .error e
  | _, _ => .ok out

def returnIfDone (m : SourceMirror) (i : ℕ) : SourceMirror :=
  match m.frames[i]? with
  | none => m
  | some f =>
    if f.holders ≠ 0 ∨ f.current then m
    else { m with frames := m.frames.eraseIdx i }.call (.release f)

def dropCurrent (m : SourceMirror) : SourceMirror :=
  match m.currentFrame with
  | none => m
  | some (i, f) => { m with frames := m.frames.set i { f with current := false } }.returnIfDone i

/-- A buffer the source handed over becomes the newest frame. -/
def addFrame (alloc : Allocation) (m : SourceMirror) (b : AcquiredBuffer) : SourceMirror :=
  { m with
    frames := m.frames ++
      [{ address := alloc.address m.nextSeq m.frames
         seq := m.nextSeq, buffer := b, current := true }]
    nextSeq := m.nextSeq + 1 }

/-- The end of `acquire`: the newest frame is handed to the consumer. -/
def give (m : SourceMirror) (dup : Except Errc Unit) (id : ℕ) (c : Consumer) :
    SourceMirror × Except Errc AcquiredBuffer :=
  match m.currentFrame with
  | none => (m, .error .invalidArgument)
  | some (i, f) =>
    match handOut dup f c with
    | .error e => (m, .error e)
    | .ok out =>
      ({ m with
          frames := m.frames.set i { f with holders := f.holders + 1 }
          consumers := m.consumers.set id { c with lastSeq := f.seq } },
        .ok out)

/-- The consumer has had the newest frame, or there is none. -/
def wantsNew (m : SourceMirror) (c : Consumer) : Bool :=
  match m.currentFrame with
  | none => true
  | some (_, f) => f.seq ≤ c.lastSeq

/-- `acquire`; `answer` is what the source says if it is asked. -/
def acquire (alloc : Allocation) (m : SourceMirror) (id : ℕ) (answer : Except Errc AcquiredBuffer)
    (dup : Except Errc Unit) : SourceMirror × Except Errc AcquiredBuffer :=
  match m.consumers[id]? with
  | none => (m, .error .invalidArgument)
  | some c =>
    if m.wantsNew c then
      match answer with
      | .error e => (m.call (.acquire answer), .error e)
      | .ok b => ((m.call (.acquire answer)).dropCurrent.addFrame alloc b).give dup id c
    else m.give dup id c

/-- `merge`: the consumers' fences pile up; one that cannot be merged drops them all. -/
def mergeFence (fence : Option SyncFence) (merges : Bool) (held : Option (List SyncFence)) :
    Option (List SyncFence) :=
  match fence, held with
  | none, _ => held
  | some x, none => some [x]
  | some x, some xs => if merges then some (xs ++ [x]) else none

/-- `release`, for a valid fence or none; `merges` is the outcome of merging it. -/
def release (m : SourceMirror) (acquired : AcquiredBuffer) (fence : Option SyncFence)
    (merges : Bool) : SourceMirror :=
  match m.findFrame (·.address = acquired.token) with
  | none => m
  | some (i, f) =>
    if f.holders = 0 then m
    else
      { m with
        frames := m.frames.set i
          { f with
            releaseFence := mergeFence fence merges f.releaseFence
            holders := f.holders - 1 } }.returnIfDone i

/-- `has_fresh_content`; `fresh` is the source's own answer. -/
def hasFreshContent (m : SourceMirror) (fresh : Bool) (id : ℕ) : Bool :=
  match m.consumers[id]? with
  | none => fresh
  | some c => m.frames.any (fun f => f.current && c.lastSeq < f.seq) || fresh

def allRetired (m : SourceMirror) : Bool :=
  m.consumers.all (fun c => !c.live || c.retired)

def retire (m : SourceMirror) (id : ℕ) : SourceMirror :=
  let m := { m with consumers := m.consumers.modify id (fun c => { c with retired := true }) }
  if m.allRetired ∧ ¬ m.innerRetired then
    { m with innerRetired := true }.dropCurrent.call .onRetired
  else m

def drop (m : SourceMirror) (id : ℕ) : SourceMirror :=
  { m with consumers := m.consumers.modify id (fun c => { c with live := false }) }

def onSessionPaused (m : SourceMirror) : SourceMirror :=
  if m.paused then m
  else { m with paused := true }.dropCurrent.call .onSessionPaused

/-- `on_session_resumed`; what it returns is `resumeResult`. -/
def onSessionResumed (m : SourceMirror) (answer : Except Errc Unit) : SourceMirror :=
  if m.paused then
    { m with paused := false, resumeResult := answer }.call (.onSessionResumed answer)
  else m

/-- `~SourceMirror`: every frame goes back, without a fence. -/
def destroy (m : SourceMirror) : SourceMirror :=
  let returned := m.frames.map (fun f => InnerCall.release { f with releaseFence := none })
  let retired := if m.innerRetired then [] else [InnerCall.onRetired]
  { m with frames := [], innerCalls := m.innerCalls ++ returned ++ retired }

end SourceMirror

end DrmCxx.Scene
