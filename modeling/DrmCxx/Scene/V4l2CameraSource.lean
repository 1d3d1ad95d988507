import DrmCxx.Errc
import DrmCxx.Lib.Indices
import DrmCxx.Scene.ExternalDmaBufRing

/-!
# The V4L2 camera source

`V4l2CameraSource` after `create`: frames come from the capture queue in `drive` and go to the
scene in `acquire`. In the zero-copy mode the scene is given the capture buffer itself; in the
copy mode `drive` copies the latest frame into the back one of two dumb buffers.
-/

namespace DrmCxx.Scene

/-! ### The device's queue

One direction of a device's streaming interface, as the kernel keeps it. Buffers are named by
their index; the driver holds the ones that are queued and hands them back in an order of its
own. -/

structure V4l2Queue where
  /-- The buffers `VIDIOC_REQBUFS` gave. -/
  count : ℕ := 0
  /-- The indices the driver holds. -/
  queued : List ℕ := []
  deriving DecidableEq, Repr

/-- The driver's answer to `VIDIOC_DQBUF`: an error, or which of the buffers it holds is done. -/
abbrev DqbufAnswer := Except Errc ℕ

namespace V4l2Queue

/-- `VIDIOC_REQBUFS`: the buffers of before are forgotten. -/
def reqbufs (count : ℕ) : V4l2Queue :=
  { count }

/-- `VIDIOC_REQBUFS` and then every buffer queued. -/
def filled (count : ℕ) : V4l2Queue :=
  { count, queued := List.range count }

/-- `VIDIOC_QBUF`: `EINVAL` for an index that does not exist or that the driver already holds. -/
def qbuf (q : V4l2Queue) (index : ℕ) : V4l2Queue × Option Errc :=
  if index < q.count ∧ index ∉ q.queued then ({ q with queued := q.queued ++ [index] }, none)
  else (q, some .invalidArgument)

/-- `VIDIOC_DQBUF`, `EAGAIN` when there is no such buffer. -/
def dqbuf (q : V4l2Queue) : DqbufAnswer → V4l2Queue × Except Errc ℕ
  | .error e => (q, .error e)
  | .ok k =>
    match q.queued[k]? with
    | none => (q, .error .resourceUnavailableTryAgain)
    | some index => ({ q with queued := q.queued.eraseIdx k }, .ok index)

theorem qbuf_of_dequeued {q : V4l2Queue} {index : ℕ} (h : index < q.count)
    (hq : index ∉ q.queued) :
    q.qbuf index = ({ q with queued := q.queued ++ [index] }, none) :=
  if_pos ⟨h, hq⟩

end V4l2Queue

/-! ### The source -/

/-- `V4l2CameraBufferMode`. -/
inductive CameraBufferMode
  | auto
  | dmaBufZeroCopy
  | mmapCopy
  deriving DecidableEq, Repr

/-- A dumb buffer of the copy mode's pair. -/
structure DumbBuffer where
  /-- Nothing is allocated or mapped. -/
  empty : Bool := true
  fbId : FbId := 0
  deriving DecidableEq, Repr

/-- `AcquiredBuffer` of a V4L2 source; `cookie` is the integer the opaque pointer carries. -/
structure V4l2Acquired where
  fbId : FbId
  cookie : ℕ
  deriving DecidableEq, Repr

structure V4l2CameraSource where
  activeMode : CameraBufferMode
  /-- The kernel's capture queue. -/
  queue : V4l2Queue
  /-- The `fb_id` of each capture buffer. -/
  buffers : List FbId
  readyIdx : Option ℕ := none
  acquiredMask : List Bool
  dumbPair : Fin 2 → DumbBuffer := fun _ => {}
  frontIdx : Fin 2 := 0
  anyPublished : Bool := false
  pendingError : Option Errc := none

namespace V4l2CameraSource

/-- The source `create` leaves: every buffer is queued and the queue streams. -/
def create (mode : CameraBufferMode) (fbIds : List FbId) (dumbPair : Fin 2 → DumbBuffer) :
    V4l2CameraSource :=
  { activeMode := mode
    queue := .filled fbIds.length
    buffers := fbIds
    acquiredMask := List.replicate fbIds.length false
    dumbPair }

/-- `queue_capture_buffer` with what `drive` makes of its error. -/
def requeue (s : V4l2CameraSource) (index : ℕ) : V4l2CameraSource :=
  match s.queue.qbuf index with
  | (queue, none) => { s with queue }
  | (queue, some e) =>
    if e ≠ .resourceUnavailableTryAgain ∧ s.pendingError = none then
      { s with queue, pendingError := some e }
    else { s with queue }

/-- The zero-copy loop of `drive`, over the answers to its `VIDIOC_DQBUF`s. -/
def driveZeroCopy (s : V4l2CameraSource) :
    List DqbufAnswer → V4l2CameraSource × Except Errc Unit
  | [] => (s, .ok ())
  | answer :: answers =>
    match s.queue.dqbuf answer with
    | (_, .error e) => if e = .resourceUnavailableTryAgain then (s, .ok ()) else (s, .error e)
    | (queue, .ok index) =>
      let s := { s with queue }
      if s.buffers.length ≤ index then driveZeroCopy s answers
      else
        let s := match s.readyIdx with
          | none => s
          | some ready => s.requeue ready
        driveZeroCopy { s with readyIdx := some index } answers

/-- The copy mode's loop: the queue it leaves, and `latest_idx` with `dq_indices`. -/
def drain (buffers : ℕ) (queue : V4l2Queue) (latest : Option ℕ) (dqIndices : List ℕ) :
    List DqbufAnswer → V4l2Queue × Except Errc (Option ℕ × List ℕ)
  | [] => (queue, .ok (latest, dqIndices))
  | answer :: answers =>
    match queue.dqbuf answer with
    | (_, .error e) =>
      if e = .resourceUnavailableTryAgain then (queue, .ok (latest, dqIndices))
      else (queue, .error e)
    | (queue, .ok index) =>
      if buffers ≤ index then drain buffers queue latest dqIndices answers
      else drain buffers queue (some index) (dqIndices ++ latest.toList) answers

/-- What a `drive` did besides its answer. -/
structure Driven where
  source : V4l2CameraSource
  result : Except Errc Unit
  /-- The dumb buffer `copy_v4l2_to_dumb` wrote. -/
  written : Option (Fin 2) := none

def driveCopy (s : V4l2CameraSource) (answers : List DqbufAnswer) : Driven :=
  match drain s.buffers.length s.queue none [] answers with
  | (queue, .error e) => { source := { s with queue }, result := .error e }
  | (queue, .ok (none, dqIndices)) =>
    { source := dqIndices.foldl requeue { s with queue }, result := .ok () }
  | (queue, .ok (some latest, dqIndices)) =>
    let back := 1 - s.frontIdx
    { source := (dqIndices ++ [latest]).foldl requeue
        { s with queue, frontIdx := back, anyPublished := true }
      result := .ok ()
      written := if (s.dumbPair back).empty then none else some back }

def drive (s : V4l2CameraSource) (answers : List DqbufAnswer) : Driven :=
  if s.activeMode = .dmaBufZeroCopy then
    let (source, result) := s.driveZeroCopy answers
    { source, result }
  else s.driveCopy answers

def acquire (s : V4l2CameraSource) : V4l2CameraSource × Except Errc V4l2Acquired :=
  match s.pendingError with
  | some e => (s, .error e)
  | none =>
    if s.activeMode = .dmaBufZeroCopy then
      match s.readyIdx with
      | none => (s, .error .resourceUnavailableTryAgain)
      | some index =>
        match s.buffers[index]? with
        | none => (s, .error .invalidArgument)
        | some fbId =>
          if fbId = 0 then (s, .error .resourceUnavailableTryAgain)
          else
            -- offset by one, so that index 0 is not the null pointer
            ({ s with acquiredMask := s.acquiredMask.set index true, readyIdx := none },
              .ok ⟨fbId, index + 1⟩)
    else if !s.anyPublished then (s, .error .resourceUnavailableTryAgain)
    else
      let front := s.dumbPair s.frontIdx
      if front.empty || front.fbId == 0 then (s, .error .resourceUnavailableTryAgain)
      else (s, .ok ⟨front.fbId, 0⟩)

def release (s : V4l2CameraSource) (acquired : V4l2Acquired) : V4l2CameraSource :=
  if s.activeMode = .dmaBufZeroCopy then
    if acquired.cookie = 0 then s
    else
      let index := acquired.cookie - 1
      if s.buffers.length ≤ index ∨ s.acquiredMask[index]? ≠ some true then s
      else
        -- the error of the re-queue is dropped here
        { s with
          acquiredMask := s.acquiredMask.set index false
          queue := (s.queue.qbuf index).1 }
  else s

end V4l2CameraSource

end DrmCxx.Scene
