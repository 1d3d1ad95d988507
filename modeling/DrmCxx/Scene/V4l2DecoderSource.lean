import DrmCxx.Scene.V4l2CameraSource

/-!
# The V4L2 decoder source

`V4l2DecoderSource` after `create`: `submit_bitstream` feeds the OUTPUT queue, `drive` collects
consumed OUTPUT buffers and the newest decoded CAPTURE buffer, and rebuilds the CAPTURE ring when
the stream changes its resolution.
-/

namespace DrmCxx.Scene

/-- `V4l2CaptureBuffer`; its destructor removes the framebuffer. -/
structure CaptureBuffer where
  fbId : FbId
  acquired : Bool := false
  deriving DecidableEq, Repr

/-- How a rebuild of the CAPTURE ring went: the framebuffers of the new buffers, or the error with
the queue it leaves behind. -/
abbrev Rebuilt := Except (Errc × V4l2Queue) (List FbId)

/-- What `VIDIOC_DQEVENT` can give. -/
inductive V4l2Event
  | sourceChange (rebuilt : Rebuilt)
  | eos
  | other
  deriving Repr

structure V4l2DecoderSource where
  captureQueue : V4l2Queue
  outputQueue : V4l2Queue
  captureBuffers : List CaptureBuffer
  /-- How many bytes each OUTPUT buffer maps, if it is mapped. -/
  outputBuffers : List (Option ℕ)
  outputFree : List ℕ
  outputStreaming : Bool := false
  captureReadyIdx : Option ℕ := none
  sourceChangeSeen : Bool := false
  eosSeen : Bool := false

namespace V4l2DecoderSource

/-- `ENOENT`. -/
def noEntry : Errc := .other 2

/-- `std::errc::message_size`. -/
def messageSize : Errc := .other 90

/-- `std::errc::operation_canceled`. -/
def operationCanceled : Errc := .other 125

/-- The source `create` leaves: CAPTURE is queued and streams, OUTPUT waits for its first
buffer. -/
def create (fbIds : List FbId) (outputBuffers : List (Option ℕ)) : V4l2DecoderSource :=
  { captureQueue := .filled fbIds.length
    outputQueue := .reqbufs outputBuffers.length
    captureBuffers := fbIds.map ({ fbId := · })
    outputBuffers
    outputFree := List.range outputBuffers.length }

/-- `reconfigure_capture_for_source_change`. -/
def reconfigureCaptureForSourceChange (s : V4l2DecoderSource) (rebuilt : Rebuilt) :
    V4l2DecoderSource × Option Errc :=
  -- drops any still-acquired slots with the ring
  let s := { s with
    captureReadyIdx := none
    captureBuffers := []
    captureQueue := .reqbufs 0 }
  match rebuilt with
  | .error (e, captureQueue) => ({ s with captureQueue }, some e)
  | .ok fbIds =>
    ({ s with
        captureBuffers := fbIds.map ({ fbId := · })
        captureQueue := .filled fbIds.length },
      none)

/-- What a `drive` did besides its answer. -/
structure Driven where
  source : V4l2DecoderSource
  result : Except Errc Unit
  /-- The CAPTURE rings it dropped. -/
  dropped : List (List CaptureBuffer) := []

/-- The event loop of `drive`; an error spends the call. -/
def drainEvents (s : V4l2DecoderSource) (dropped : List (List CaptureBuffer)) :
    List (Except Errc V4l2Event) → V4l2DecoderSource × List (List CaptureBuffer) × Option Errc
  | [] => (s, dropped, none)
  | .error e :: _ =>
    if e = noEntry ∨ e = .resourceUnavailableTryAgain then (s, dropped, none)
    else (s, dropped, some e)
  | .ok (.sourceChange rebuilt) :: events =>
    let dropped := dropped ++ [s.captureBuffers]
    match s.reconfigureCaptureForSourceChange rebuilt with
    | (s, some e) => ({ s with sourceChangeSeen := true }, dropped, some e)
    | (s, none) => drainEvents s dropped events
  | .ok .eos :: events => drainEvents { s with eosSeen := true } dropped events
  | .ok .other :: events => drainEvents s dropped events

/-- The OUTPUT loop of `drive`. -/
def drainOutput (s : V4l2DecoderSource) : List DqbufAnswer → V4l2DecoderSource × Option Errc
  | [] => (s, none)
  | answer :: answers =>
    match s.outputQueue.dqbuf answer with
    | (_, .error e) => (s, if e = .resourceUnavailableTryAgain then none else some e)
    | (outputQueue, .ok index) =>
      if index < s.outputBuffers.length then
        drainOutput { s with outputQueue, outputFree := s.outputFree ++ [index] } answers
      else drainOutput { s with outputQueue } answers

/-- The CAPTURE loop of `drive`: the newest frame wins. -/
def drainCapture (s : V4l2DecoderSource) : List DqbufAnswer → V4l2DecoderSource × Option Errc
  | [] => (s, none)
  | answer :: answers =>
    match s.captureQueue.dqbuf answer with
    | (_, .error e) => (s, if e = .resourceUnavailableTryAgain then none else some e)
    | (captureQueue, .ok index) =>
      let s := { s with captureQueue }
      if s.captureBuffers.length ≤ index then drainCapture s answers
      else
        let s := match s.captureReadyIdx with
          | none => s
          | some ready => { s with captureQueue := (s.captureQueue.qbuf ready).1 }
        drainCapture { s with captureReadyIdx := some index } answers

/-- Both buffer loops of `drive`. OUTPUT cannot be dequeued before it streams. -/
def drainQueues (s : V4l2DecoderSource) (output capture : List DqbufAnswer) :
    V4l2DecoderSource × Option Errc :=
  match if s.outputStreaming then s.drainOutput output else (s, none) with
  | (s, some e) => (s, some e)
  | (s, none) => s.drainCapture capture

/-- `drive`, over the answers to its `VIDIOC_DQEVENT`s and to its `VIDIOC_DQBUF`s on each side. -/
def drive (s : V4l2DecoderSource) (events : List (Except Errc V4l2Event))
    (output capture : List DqbufAnswer) : Driven :=
  if s.sourceChangeSeen then { source := s, result := .error operationCanceled }
  else
    match s.drainEvents [] events with
    | (source, dropped, some e) => { source, dropped, result := .error e }
    | (s, dropped, none) =>
      match s.drainQueues output capture with
      | (source, some e) => { source, dropped, result := .error e }
      | (source, none) => { source, dropped, result := .ok () }

/-- `submit_bitstream` of `size` bytes; `streamon` is the answer to `VIDIOC_STREAMON`. -/
def submitBitstream (s : V4l2DecoderSource) (size : ℕ) (streamon : Option Errc) :
    V4l2DecoderSource × Except Errc Unit :=
  if size = 0 then (s, .error .invalidArgument)
  else if s.sourceChangeSeen then (s, .error operationCanceled)
  else
    match s.outputFree.getLast? with
    | none => (s, .error .resourceUnavailableTryAgain)
    | some index =>
      let popped := { s with outputFree := s.outputFree.dropLast }
      match s.outputBuffers[index]? with
      | none => (popped, .error .invalidArgument)
      | some none => (s, .error .invalidArgument)
      | some (some mappedLen) =>
        if mappedLen < size then (s, .error messageSize)
        else
          match s.outputQueue.qbuf index with
          | (_, some e) => (s, .error e)
          | (outputQueue, none) =>
            let s := { popped with outputQueue }
            if s.outputStreaming then (s, .ok ())
            else
              match streamon with
              -- the slot stays with the kernel
              | some e => (s, .error e)
              | none => ({ s with outputStreaming := true }, .ok ())

def acquire (s : V4l2DecoderSource) : V4l2DecoderSource × Except Errc V4l2Acquired :=
  if s.sourceChangeSeen then (s, .error operationCanceled)
  else
    match s.captureReadyIdx with
    | none => (s, .error .resourceUnavailableTryAgain)
    | some index =>
      match s.captureBuffers[index]? with
      | none => (s, .error .invalidArgument)
      | some { fbId, .. } =>
        if fbId = 0 then (s, .error .resourceUnavailableTryAgain)
        else
          ({ s with
              captureBuffers := s.captureBuffers.set index { fbId, acquired := true }
              captureReadyIdx := none },
            .ok ⟨fbId, index + 1⟩)

def release (s : V4l2DecoderSource) (acquired : V4l2Acquired) : V4l2DecoderSource :=
  if acquired.cookie = 0 then s
  else
    let index := acquired.cookie - 1
    match s.captureBuffers[index]? with
    | some { fbId, acquired := true } =>
      { s with
        captureBuffers := s.captureBuffers.set index { fbId, acquired := false }
        captureQueue := (s.captureQueue.qbuf index).1 }
    | _ => s

end V4l2DecoderSource

end DrmCxx.Scene
