import DrmCxx.Lib.Run
import DrmCxx.Verification.DmaBuf.Sources

/-!
# A process with sources and its history

Sources come, go and are resumed while the application opens and closes descriptors and makes
framebuffers of its own, through the same files. The history keeps what the application holds, what
each source was asked for and how many of its calls of `on_release` are due.
-/

namespace DrmCxx.Scene

open Detail Detail.Kernel Lib Lib.Holdings

variable {κ : Type*} [DecidableEq κ]

namespace ExternalDmaBufSource

/-- The planes of a request whose descriptors are open. -/
def Request.asked? (k : Kernel) (r : Request) : Option (List (BufferId × ℕ × ℕ)) :=
  if ∀ p ∈ r.planes, k.fds.contains p.fd.toNat = true then some (r.asked k) else none

end ExternalDmaBufSource

open ExternalDmaBufSource

/-- The framebuffer of a name's source. -/
def SourceProcess.fbIdOf (p : SourceProcess κ) (key : κ) : FbId :=
  match p.sources.find? key with
  | none => 0
  | some src => src.slot.fbId

structure SourceTrace (κ : Type*) where
  process : SourceProcess κ := {}
  /-- The descriptors that the application opened and has not closed. -/
  appFds : List ℕ := []
  /-- Its framebuffers, in files that it has open. -/
  appFbs : Table FbId DrmFramebuffer := .empty
  /-- Framebuffers that were in a file when their owner gave the file up. -/
  left : List FbId := []
  /-- What the source of a name was made for. -/
  asked : κ → Option (List (BufferId × ℕ × ℕ)) := fun _ => none
  /-- How many requests under a name took an `on_release`. -/
  owed : κ → ℕ := fun _ => 0

inductive SourceEvent (κ : Type*)
  /-- The application opens a descriptor under a free number. -/
  | openFd (n : ℕ) (d : Description)
  | closeFd (n : ℕ)
  | importFd (device n : ℕ) (answer : Except Errc GemHandle)
  | gemClose (device : ℕ) (h : GemHandle)
  | addFb (device width height drmFourcc : ℕ) (modifier : Option ℕ)
    (planes : List (GemHandle × ℕ × ℕ)) (answer : Except Errc FbId)
  | rmFb (device : ℕ) (id : FbId)
  | create (key : κ) (answers : ImportAnswers) (r : Request)
  | destroy (key : κ)
  | getOrCreate (key : κ) (answers : ImportAnswers) (r : Request)
  | clear (mine : κ → Bool)
  | release (key : κ)
  | resume (key : κ) (answers : ImportAnswers) (newDevice : ℤ)

namespace SourceTrace

def kernel (t : SourceTrace κ) : Kernel := t.process.kernel

/-- The application can still reach the framebuffer. -/
def reachable (k : Kernel) (fds : List ℕ) (e : FbId × DrmFramebuffer) : Bool :=
  k.fbs.contains e.1 && fds.any fun n => k.fds.find? n = some (.device e.2.file)

/-- The trace after a call of the application. -/
def afterCall (t : SourceTrace κ) (k : Kernel) (fds : List ℕ) : SourceTrace κ :=
  { t with
    process := { t.process with kernel := k }
    appFds := fds
    appFbs := t.appFbs.filter (reachable k fds)
    left := t.left ++
      t.appFbs.keys.filter fun id =>
        k.fbs.contains id && !(t.appFbs.filter (reachable k fds)).contains id }

def afterImport (t : SourceTrace κ) : Except Errc (Kernel × GemHandle) → SourceTrace κ
  | .error _ => t
  | .ok (k, _) => { t with process := { t.process with kernel := k } }

def afterAddFb (t : SourceTrace κ) : Except Errc (Kernel × FbId) → SourceTrace κ
  | .error _ => t
  | .ok (k, id) =>
    match k.fbs.find? id with
    | none => t
    | some fb =>
      { t with
        process := { t.process with kernel := k }
        appFbs := t.appFbs.insertOrAssign id fb }

/-- The trace after a request for a source. -/
def requested (t : SourceTrace κ) (key : κ) (answers : ImportAnswers) (r : Request) :
    SourceTrace κ :=
  { t with
    process := (t.process.create key answers r).1
    asked := Function.update t.asked key (r.asked? t.kernel)
    owed := Function.update t.owed key
      (t.owed key + if r.onRelease && r.taken answers t.kernel then 1 else 0) }

def destroy (t : SourceTrace κ) (key : κ) : SourceTrace κ :=
  { t with process := t.process.destroy key }

/-- A request through a cache, which takes no `on_release`. -/
def cached (t : SourceTrace κ) (key : κ) (answers : ImportAnswers) (r : Request) :
    SourceTrace κ :=
  match t.process.sources.find? key with
  | none => t.requested key answers { r with onRelease := false }
  | some src =>
    if src.format = r.format then t
    else (t.destroy key).requested key answers { r with onRelease := false }

def resumed (t : SourceTrace κ) (key : κ) (answers : ImportAnswers) (newDevice : ℤ) :
    SourceTrace κ :=
  let process := t.process.onSessionResumed key answers newDevice
  { t with
    process
    left :=
      if process.fbIdOf key ≠ t.process.fbIdOf key ∧
          process.kernel.fbs.contains (t.process.fbIdOf key) then
        t.left ++ [t.process.fbIdOf key]
      else t.left }

def step (t : SourceTrace κ) : SourceEvent κ → SourceTrace κ
  | .openFd n d =>
    if t.kernel.fds.contains n then t
    else
      { t with
        process :=
          { t.process with kernel := { t.kernel with fds := t.kernel.fds.insertOrAssign n d } }
        appFds := n :: t.appFds }
  | .closeFd n =>
    if n ∈ t.appFds then t.afterCall (t.kernel.close n) (t.appFds.erase n) else t
  | .importFd device n answer =>
    if device ∈ t.appFds then t.afterImport (t.kernel.primeFdToHandle device n answer) else t
  | .gemClose device h =>
    if device ∈ t.appFds then
      { t with process := { t.process with kernel := t.kernel.gemClose device h } }
    else t
  | .addFb device width height drmFourcc modifier planes answer =>
    if device ∈ t.appFds then
      t.afterAddFb (t.kernel.addFb device width height drmFourcc modifier planes answer)
    else t
  | .rmFb device id =>
    if device ∈ t.appFds ∧ t.appFbs.contains id then
      t.afterCall (t.kernel.rmFb device id) t.appFds
    else t
  | .create key answers r =>
    if t.process.sources.contains key then t else t.requested key answers r
  | .destroy key => t.destroy key
  | .getOrCreate key answers r =>
    { t.cached key answers r with process := (t.process.getOrCreate key answers r).1 }
  | .clear mine => { t with process := t.process.clear mine }
  | .release key => { t with process := t.process.release key }
  | .resume key answers newDevice => t.resumed key answers newDevice

end SourceTrace

end DrmCxx.Scene
