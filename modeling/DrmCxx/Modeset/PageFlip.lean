import DrmCxx.Errc
import DrmCxx.Lib.Run
import DrmCxx.Lib.Table
import Mathlib.Data.Int.Notation
import Mathlib.Data.List.Dedup
import Mathlib.Logic.Function.Basic

/-!
# The page flip dispatcher

`PageFlip` objects, each with an epoll instance that watches its device and the descriptors its
callers registered. The flip handler and the sources' callbacks run in the middle of a dispatch,
and are free to call the dispatchers. A registration belongs to a descriptor's number and to the
file it was open on, and lasts as long as the file. Times are in nanoseconds of the steady clock.
-/

namespace DrmCxx.Modeset

open Lib

/-- A descriptor as the code keeps it; a negative one stands for none. -/
abbrev Fd := ℤ

/-- An open file description. Descriptors share it, and not only those of one process. -/
abbrev File := ℕ

abbrev FlipId := ℕ

/-- Which function a callback is; `none` is an empty `std::function`. -/
abbrev Callback := Option ℕ

/-- `errc::interrupted`. -/
def interrupted : Errc := .other 4

/-- `errc::bad_file_descriptor`. -/
def badFileDescriptor : Errc := .other 9

def fileExists : Errc := .other 17

/-- `errc::timed_out`. -/
def timedOut : Errc := .other 110

structure PageFlip where
  drmFd : Fd := -1
  epfd : Fd := -1
  handler : Callback := none
  sources : Table Fd Callback := .empty

/-- What an epoll instance knows a watched descriptor by. The number is also what it reports. -/
structure Registration where
  fd : Fd
  file : File
  deriving DecidableEq, Repr

/-- The dispatchers that were not destroyed, the open descriptors, and the interest lists of those
that are epoll instances. -/
structure Process where
  flips : FlipId → Option PageFlip := fun _ => none
  files : Table Fd File := .empty
  epolls : Fd → Option (List Registration) := fun _ => none

namespace Process

variable (w : Process)

def setFlip (o : FlipId) (pf : PageFlip) : Process :=
  { w with flips := Function.update w.flips o (some pf) }

def setEpoll (epfd : Fd) (interest : Option (List Registration)) : Process :=
  { w with epolls := Function.update w.epolls epfd interest }

/-- What the epoll instance behind the descriptor watches. -/
def interest (epfd : Fd) : List Registration := (w.epolls epfd).getD []

/-! ### Descriptors -/

/-- A descriptor with a number that is not in use, on a new file or on one that has others. -/
def openFd (fd : ℕ) (file : File) : Process :=
  if w.files.contains fd then w else { w with files := w.files.insertOrAssign fd file }

/-- Nobody else has the file open any more. It goes unless a descriptor is still open on it, and
its registrations go with it. -/
def letGo (file : File) : Process :=
  if file ∈ w.files.values then w
  else { w with epolls := fun epfd => (w.epolls epfd).map (·.filter (·.file ≠ file)) }

/-- `close`; `held` if the file is open elsewhere. -/
def close (fd : Fd) (held : Bool) : Process :=
  match w.files.find? fd with
  | none => w
  | some file =>
    let w := { w with files := w.files.erase fd }
    if held then w else w.letGo file

/-- A descriptor is closed by somebody else than the dispatchers, who keep their epoll instances to
themselves. -/
def closeFd (fd : Fd) (held : Bool) : Process :=
  if (w.epolls fd).isSome then w else w.close fd held

/-! ### epoll -/

/-- `epoll_create1`: a descriptor with a number that is not in use, if one can be made. -/
def epollCreate (created : Option (ℕ × File)) : Option (ℕ × File) :=
  created.filter fun new => !w.files.contains new.1

/-- The new epoll instance, which watches nothing. -/
def openEpoll (epfd : Fd) (file : File) : Process :=
  { w with files := w.files.insertOrAssign epfd file }.setEpoll epfd (some [])

/-- `EPOLL_CTL_ADD`; `refused` is an error other than those that the arguments explain. -/
def ctlAdd (epfd fd : Fd) (refused : Option Errc) : Except Errc Process :=
  match w.epolls epfd, w.files.find? fd with
  | some watched, some file =>
    if fd = epfd then .error .invalidArgument
    else if ⟨fd, file⟩ ∈ watched then .error fileExists
    else
      match refused with
      | some e => .error e
      | none => .ok (w.setEpoll epfd (some (watched ++ [⟨fd, file⟩])))
  | _, _ => .error badFileDescriptor

/-- `EPOLL_CTL_DEL`, whose answer is never looked at. It finds nothing if the number was closed, or
names another file by now. -/
def ctlDel (epfd fd : Fd) : Process :=
  match w.files.find? fd with
  | none => w
  | some file => w.setEpoll epfd ((w.epolls epfd).map (·.erase ⟨fd, file⟩))

/-- `k_max_dispatch_events`. -/
def maxDispatchEvents : ℕ := 8

/-- What `epoll_wait` reports: the numbers of those ready registrations that are there, as far as
there is room. -/
def report (epfd : Fd) (ready : List Registration) : List Fd :=
  (((ready.filter (· ∈ w.interest epfd)).dedup).take maxDispatchEvents).map (·.fd)

/-! ### The life of a dispatcher -/

/-- The constructor. A registration that fails is not reported. -/
def construct (o : FlipId) (deviceFd : Fd) (created : Option (ℕ × File)) (refused : Option Errc) :
    Process :=
  match w.flips o with
  | some _ => w
  | none =>
    match w.epollCreate created with
    | none => w.setFlip o { drmFd := deviceFd }
    | some (epfd, file) =>
      let w := (w.setFlip o { drmFd := deviceFd, epfd }).openEpoll epfd file
      if 0 ≤ deviceFd then (w.ctlAdd epfd deviceFd refused).toOption.getD w else w

/-- `close_epfd`, as far as the kernel sees it. -/
def closeEpfd (pf : PageFlip) : Process :=
  if 0 ≤ pf.epfd then (w.close pf.epfd false).setEpoll pf.epfd none else w

def destroy (o : FlipId) : Process :=
  match w.flips o with
  | none => w
  | some pf => { w.closeEpfd pf with flips := Function.update w.flips o none }

/-- `PageFlip(PageFlip&& other)`. A function and a map that were moved from are empty. -/
def moveConstruct (o other : FlipId) : Process :=
  match w.flips o, w.flips other with
  | none, some pf => (w.setFlip o pf).setFlip other {}
  | _, _ => w

/-- `operator=(PageFlip&& other)`. -/
def moveAssign (o other : FlipId) : Process :=
  match w.flips o, w.flips other with
  | some old, some pf =>
    if o = other then w else ((w.closeEpfd old).setFlip o pf).setFlip other {}
  | _, _ => w

/-! ### Registrations -/

def setHandler (o : FlipId) (handler : Callback) : Process :=
  match w.flips o with
  | none => w
  | some pf => w.setFlip o { pf with handler }

def addSource (o : FlipId) (fd : Fd) (cb : Callback) (refused : Option Errc) :
    Process × Except Errc Unit :=
  match w.flips o with
  | none => (w, .ok ())
  | some pf =>
    if fd < 0 then (w, .error .invalidArgument)
    else if pf.epfd < 0 then (w, .error badFileDescriptor)
    else if pf.sources.contains fd then (w, .error .invalidArgument)
    else
      match w.ctlAdd pf.epfd fd refused with
      | .error e => (w, .error e)
      | .ok w => (w.setFlip o { pf with sources := pf.sources.insertOrAssign fd cb }, .ok ())

def removeSource (o : FlipId) (fd : Fd) : Process :=
  match w.flips o with
  | none => w
  | some pf =>
    if !pf.sources.contains fd then w
    else
      let w := if 0 ≤ pf.epfd then w.ctlDel pf.epfd fd else w
      w.setFlip o { pf with sources := pf.sources.erase fd }

def rebind (o : FlipId) (newFd : Fd) (refused : Option Errc) : Process × Except Errc Unit :=
  match w.flips o with
  | none => (w, .ok ())
  | some pf =>
    if pf.epfd < 0 then (w, .error badFileDescriptor)
    else if newFd < 0 then (w, .error badFileDescriptor)
    else
      -- The old registration goes first, whether or not the new one will be made.
      let w := if 0 ≤ pf.drmFd then (w.ctlDel pf.epfd pf.drmFd).setFlip o { pf with drmFd := -1 }
        else w
      match w.ctlAdd pf.epfd newFd refused with
      | .error e => (w, .error e)
      | .ok w => (w.setFlip o { pf with drmFd := newFd }, .ok ())

end Process

/-- A call of one of the dispatchers, or what becomes of other descriptors: one is opened, received
or duplicated, one is closed, or the last one outside of the process is. -/
inductive FlipCall
  | construct (o : FlipId) (deviceFd : Fd) (created : Option (ℕ × File)) (refused : Option Errc)
  | destroy (o : FlipId)
  | moveConstruct (o other : FlipId)
  | moveAssign (o other : FlipId)
  | setHandler (o : FlipId) (handler : Callback)
  | addSource (o : FlipId) (fd : Fd) (cb : Callback) (refused : Option Errc)
  | removeSource (o : FlipId) (fd : Fd)
  | rebind (o : FlipId) (newFd : Fd) (refused : Option Errc)
  | openFd (fd : ℕ) (file : File)
  | closeFd (fd : Fd) (held : Bool)
  | letGo (file : File)
  deriving DecidableEq, Repr

def FlipCall.apply (w : Process) : FlipCall → Process
  | .construct o deviceFd created refused => w.construct o deviceFd created refused
  | .destroy o => w.destroy o
  | .moveConstruct o other => w.moveConstruct o other
  | .moveAssign o other => w.moveAssign o other
  | .setHandler o handler => w.setHandler o handler
  | .addSource o fd cb refused => (w.addSource o fd cb refused).1
  | .removeSource o fd => w.removeSource o fd
  | .rebind o newFd refused => (w.rebind o newFd refused).1
  | .openFd fd file => w.openFd fd file
  | .closeFd fd held => w.closeFd fd held
  | .letGo file => w.letGo file

/-! ### Waiting -/

/-- One `epoll_wait`: when it is called, and what it answers. -/
structure Wait where
  called : ℕ := 0
  answer : Except Errc (List Registration)

/-- The waiting loops of `dispatch`, with the timeout asked for at a reading of the clock: what was
asked, and the answer that ends the loop. There is none while every wait is interrupted. -/
def waitLoop (timeout : ℕ → ℤ) : List Wait → List ℤ × Option (Except Errc (List Registration))
  | [] => ([], none)
  | wait :: waits =>
    if wait.answer = .error interrupted then
      let r := waitLoop timeout waits
      (timeout wait.called :: r.1, r.2)
    else ([timeout wait.called], some wait.answer)

def nsPerMs : ℕ := 1000000

/-- `duration_cast<milliseconds>`, towards zero, and what is asked of `epoll_wait`. -/
def remainingMs (deadline now : ℕ) : ℤ :=
  let remaining := ((deadline : ℤ) - now).tdiv nsPerMs
  if remaining < 0 then 0 else remaining

/-- An infinite wait or a poll is taken up as it was, one with a budget for what is left of it. -/
def wait (timeoutMs : ℤ) (now : ℕ) :
    List Wait → List ℤ × Option (Except Errc (List Registration)) :=
  if timeoutMs ≤ 0 then waitLoop fun _ => timeoutMs
  else waitLoop (remainingMs (now + timeoutMs.toNat * nsPerMs))

/-! ### Dispatching -/

/-- A completion event of the device. `userData` is the `PageFlip` that the commit was given with
the request for it, or null. -/
structure FlipEvent where
  tvSec : UInt32 := 0
  tvUsec : UInt32 := 0
  sequence : UInt32 := 0
  crtcId : UInt32 := 0
  userData : Option FlipId := none
  deriving DecidableEq, Repr

/-- The `timestamp_ns` of `page_flip_handler_v2`. -/
def FlipEvent.timestampNs (e : FlipEvent) : UInt64 :=
  e.tvSec.toUInt64 * 1000000000 + e.tvUsec.toUInt64 * 1000

/-- What is met when the turn of a report comes: what reading the device gives, with the calls the
handler makes on each event, and the calls the source's callback makes. -/
structure Turn where
  read : Except Errc (List (FlipEvent × List FlipCall)) := .ok []
  calls : List FlipCall := []

/-- A function that was called: the handler of a dispatcher, or a source's callback. -/
inductive Fired
  | flip (pf : FlipId) (handler : ℕ) (crtcId : UInt32) (sequence : UInt64) (timestampNs : UInt64)
  | source (fd : Fd) (cb : ℕ)
  deriving DecidableEq, Repr

/-- How far a dispatch got: the functions it called, and the calls these made. There is no result
once a dispatcher is used that was destroyed. -/
structure Dispatched where
  process : Process
  fired : List Fired := []
  calls : List FlipCall := []
  result : Option (Except Errc Unit) := some (.ok ())

/-- What was done before, put in front. -/
def Dispatched.after (d : Dispatched) (fired : List Fired) (calls : List FlipCall) : Dispatched :=
  { d with fired := fired ++ d.fired, calls := calls ++ d.calls }

namespace Process

/-- `drmHandleEvent`, which hands each event to `page_flip_handler_v2`. The dispatcher it goes to
need not be the one that reads the device. -/
def handleEvents : Process → List (FlipEvent × List FlipCall) → Dispatched
  | w, [] => { process := w }
  | w, (event, calls) :: events =>
    match event.userData with
    | none => handleEvents w events
    | some p =>
      match w.flips p with
      | none => { process := w, result := none }
      | some pf =>
        match pf.handler with
        | none => handleEvents w events
        | some handler =>
          (handleEvents (run FlipCall.apply w calls) events).after
            [.flip p handler event.crtcId event.sequence.toUInt64 event.timestampNs] calls

/-- The loop of `dispatch` over what `epoll_wait` reported. -/
def route (o : FlipId) : (ℕ → Turn) → Process → List Fd → Dispatched
  | _, w, [] => { process := w }
  | turn, w, fd :: fds =>
    let later := fun i => turn (i + 1)
    match w.flips o with
    | none => { process := w, result := none }
    | some pf =>
      if fd = pf.drmFd then
        match (turn 0).read with
        | .error e => { process := w, result := some (.error e) }
        | .ok events =>
          let d := handleEvents w events
          if d.result = none then d else (route o later d.process fds).after d.fired d.calls
      else
        match pf.sources.find? fd with
        | some (some cb) =>
          let calls := (turn 0).calls
          (route o later (run FlipCall.apply w calls) fds).after [.source fd cb] calls
        | _ => route o later w fds

/-- `dispatch`, on the answers of the waits and of what the loop meets. It does not return while
every wait is interrupted. -/
def dispatch (w : Process) (o : FlipId) (timeoutMs : ℤ) (now : ℕ) (waits : List Wait)
    (turn : ℕ → Turn) : Dispatched :=
  match w.flips o with
  | none => { process := w, result := none }
  | some pf =>
    if pf.epfd < 0 then { process := w, result := some (.error badFileDescriptor) }
    else if pf.drmFd < 0 && pf.sources.isEmpty then
      { process := w, result := some (.error badFileDescriptor) }
    else
      match (wait timeoutMs now waits).2 with
      | none => { process := w, result := none }
      | some (.error e) => { process := w, result := some (.error e) }
      | some (.ok ready) =>
        match w.report pf.epfd ready with
        | [] => { process := w, result := some (.error timedOut) }
        | fds => route o turn w fds

end Process

/-- What happens to the dispatchers of a program. -/
inductive FlipOp
  | call (c : FlipCall)
  | dispatch (o : FlipId) (timeoutMs : ℤ) (now : ℕ) (waits : List Wait) (turn : ℕ → Turn)

/-- The calls of the dispatchers it comes to, those of the callbacks included. -/
def FlipOp.calls (w : Process) : FlipOp → List FlipCall
  | .call c => [c]
  | .dispatch o timeoutMs now waits turn => (w.dispatch o timeoutMs now waits turn).calls

def FlipOp.apply (w : Process) : FlipOp → Process
  | .call c => c.apply w
  | .dispatch o timeoutMs now waits turn => (w.dispatch o timeoutMs now waits turn).process

end DrmCxx.Modeset
