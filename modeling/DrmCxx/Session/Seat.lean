import DrmCxx.Errc
import DrmCxx.Lib.NodeMap
import Mathlib.Data.Int.Notation
import Mathlib.Logic.Function.Basic

/-!
# The seat

`session::Seat`: devices opened through libseat, by their users and by libinput's opener, and
opened anew each time the seat is enabled again. The pause and resume callbacks run in the middle
of that, and are free to call the seat.
-/

namespace DrmCxx.Session

open Lib

/-- What libseat names an open device by. -/
abbrev DeviceId := ℤ

abbrev Fd := ℤ

abbrev DevicePath := String

structure DeviceHandle where
  fd : Fd
  deviceId : DeviceId
  deriving DecidableEq, Repr

structure TrackedDevice where
  /-- `fd` and `device_id`; `none` is -1 for both. -/
  handle : Option DeviceHandle
  preserveFdAcrossResume : Bool := false
  deriving DecidableEq, Repr

/-- A call of the resume callback, or of the one for a failed resume. -/
structure Notice where
  node : ℕ
  path : DevicePath
  told : Except Errc (Option Fd)

/-- The loop of `on_enable_trampoline` over the devices. -/
structure EnableLoop where
  /-- The device its iterator is at. -/
  last : Option ℕ := none
  /-- No insertion has rehashed the map. -/
  valid : Bool := true
  /-- The devices it has to open anew. -/
  held : List ℕ
  notices : List Notice := []

/-- `Seat::Impl`, with the table of the input opener and the loops that are running, the innermost
first. -/
structure Seat where
  /-- libseat's own handle is not null. -/
  seat : Bool := true
  devices : NodeMap DevicePath TrackedDevice := .empty
  active : Bool := false
  everEnabled : Bool := false
  tracked : Fd → Option DevicePath := fun _ => none
  loops : List EnableLoop := []

/-- Where a new entry of the map goes. -/
structure MapSlot where
  slot : ℕ := 0
  rehash : Bool := false
  deriving DecidableEq, Repr

/-- What a call did: what it closed, and then opened, through libseat. -/
structure SeatCall where
  seat : Seat
  closed : List DeviceId := []
  opened : Option (DeviceId × DevicePath) := none
  /-- The callback called last. -/
  notice : Option Notice := none
  /-- A loop that came to its end. -/
  finished : Option EnableLoop := none
  /-- The behaviour of the step is not defined. -/
  undefined : Bool := false

namespace Seat

/-- `devices[path] = dev`: a new entry may rehash the map, and no iterator survives that. -/
def assign (s : Seat) (path : DevicePath) (dev : TrackedDevice) (slot : MapSlot) : Seat :=
  { s with
    devices := s.devices.assign path dev slot.slot
    loops := if s.devices.get path = none ∧ slot.rehash then
        s.loops.map fun loop => { loop with valid := false }
      else s.loops }

/-- `take_device`, with the handle returned. -/
def takeDevice (s : Seat) (path : DevicePath) (preserve : Bool) (answer : Except Errc DeviceHandle)
    (slot : MapSlot) : SeatCall × Option DeviceHandle :=
  if !s.seat || !s.active then ({ seat := s }, none)
  else
    match (s.devices.get path).bind (·.handle), answer with
    | some handle, _ => ({ seat := s }, some handle)
    | none, .error _ => ({ seat := s }, none)
    | none, .ok handle =>
      ({ seat := s.assign path ⟨handle, preserve⟩ slot, opened := some (handle.deviceId, path) },
        some handle)

/-- The device under `path` is closed, if it is open, and given up. -/
def closeDevice (s : Seat) (path : DevicePath) : SeatCall :=
  match s.devices.get path with
  | none => { seat := s }
  | some dev =>
    { seat := { s with devices := s.devices.erase path }
      closed := (dev.handle.map (·.deviceId)).toList }

def releaseDevice (s : Seat) (path : DevicePath) : SeatCall :=
  if !s.seat then { seat := s } else s.closeDevice path

/-- The open of `input_opener`. -/
def openInput (s : Seat) (path : DevicePath) (answer : Except Errc DeviceHandle) (slot : MapSlot) :
    SeatCall :=
  if !s.seat || !s.active then { seat := s }
  else
    match answer with
    | .error _ => { seat := s }
    | .ok handle =>
      { seat := { s.assign path { handle } slot with
          tracked := Function.update s.tracked handle.fd (some path) }
        opened := some (handle.deviceId, path) }

/-- The close of `input_opener`. -/
def closeInput (s : Seat) (fd : Fd) : SeatCall :=
  match s.tracked fd with
  | none => { seat := s }
  | some path =>
    let s := { s with tracked := Function.update s.tracked fd none }
    if !s.seat then { seat := s } else s.closeDevice path

def onDisable (s : Seat) : SeatCall :=
  { seat := if s.seat then { s with active := false } else s }

/-- One turn of the innermost loop, up to its callback: `answer` is what libseat opens. -/
def enableNext (s : Seat) (answer : Except Errc DeviceHandle) : SeatCall :=
  match s.loops with
  | [] => { seat := s }
  | loop :: loops =>
    -- The iterator is to be incremented: the node it is at must still be there.
    if !loop.valid || loop.last.any (· ∉ s.devices.nodes) then
      { seat := { s with loops }, undefined := true }
    else
      match s.devices.rest loop.last with
      | [] => { seat := { s with loops }, finished := some loop }
      | entry :: _ =>
        let visited (notice : Notice) : EnableLoop :=
          { loop with last := some entry.node, notices := loop.notices ++ [notice] }
        if entry.value.preserveFdAcrossResume then
          let notice := ⟨entry.node, entry.key, .ok (entry.value.handle.map (·.fd))⟩
          { seat := { s with loops := visited notice :: loops }, notice := some notice }
        else
          let notice := ⟨entry.node, entry.key, answer.map fun handle => some handle.fd⟩
          let dev := { entry.value with handle := answer.toOption }
          { seat := { s with
              devices := s.devices.set entry.key dev
              loops := visited notice :: loops }
            closed := (entry.value.handle.map (·.deviceId)).toList
            opened := answer.toOption.map fun handle => (handle.deviceId, entry.key)
            notice := some notice }

/-- The devices a loop that begins now has to open anew. -/
def toReopen (s : Seat) : List ℕ :=
  (s.devices.entries.filter fun e =>
    e.value.handle.isSome && !e.value.preserveFdAcrossResume).map (·.node)

/-- `on_enable_trampoline`, up to its first callback. -/
def onEnable (s : Seat) (answer : Except Errc DeviceHandle) : SeatCall :=
  if !s.seat then { seat := s }
  else
    let s' := { s with active := true, everEnabled := true }
    if !s.everEnabled then { seat := s' }
    else { s' with loops := { held := s.toReopen } :: s.loops }.enableNext answer

/-- `~Seat`. A loop that is running, whose callback it is called from, does not survive it. -/
def destroy (s : Seat) : SeatCall :=
  if !s.seat then { seat := s }
  else
    { seat := { s with seat := false, devices := .empty, loops := [] }
      closed := s.devices.entries.filterMap fun e => e.value.handle.map (·.deviceId)
      undefined := !s.loops.isEmpty }

end Seat

end DrmCxx.Session
