import DrmCxx.Errc
import DrmCxx.Lib.Indices
import DrmCxx.Scene.Lowering
import Mathlib.Logic.Function.Basic

/-!
# The cursor renderer

`cursor::Renderer` on its atomic paths, in self-commit mode: an animated sprite is drawn into the
back one of two buffers, and each commit writes the whole state of the cursor plane.
-/

set_option linter.dupNamespace false

namespace DrmCxx.Cursor

open Scene (PlaneSpan clipApplies clipLeading rotate0)

/-! ### Cursors -/

structure Frame where
  /-- Where the frame is stored: frames are compared by address. -/
  address : ℕ
  width : ℕ
  height : ℕ
  xhot : ℤ
  yhot : ℤ
  /-- In milliseconds. -/
  delay : ℕ
  deriving DecidableEq, Repr

structure Cursor where
  frames : List Frame
  frames_ne_nil : frames ≠ []

namespace Cursor

def first (c : Cursor) : Frame := c.frames.head c.frames_ne_nil

def cycle (c : Cursor) : ℕ := (c.frames.map (·.delay)).sum

def animated (c : Cursor) : Bool := 1 < c.frames.length && 0 < c.cycle

/-- The first frame whose delay reaches past `t`, of those after `acc` milliseconds. -/
def frameAfter (t : ℤ) : ℤ → List Frame → Option Frame
  | _, [] => none
  | acc, f :: fs => if t < acc + f.delay then some f else frameAfter t (acc + f.delay) fs

/-- `frame_at`, for `elapsed` milliseconds. -/
def frameAt (c : Cursor) (elapsed : ℤ) : Frame :=
  if c.frames.length = 1 ∨ c.cycle = 0 then c.first
  else (frameAfter (elapsed.tmod c.cycle) 0 c.frames).getD (c.frames.getLast c.frames_ne_nil)

end Cursor

/-! ### The renderer's state -/

inductive Rotation
  | k0
  | k90
  | k180
  | k270
  deriving DecidableEq, Repr

/-- `rotation_to_drm_mask`. -/
def Rotation.toDrmMask : Rotation → UInt64
  | .k0 => 1
  | .k90 => 2
  | .k180 => 4
  | .k270 => 8

/-- `PlanePath`, without the legacy path. -/
inductive PlanePath
  | atomicCursor
  | atomicOverlay
  deriving DecidableEq, Repr

/-- What `blit_frame` last laid out in a buffer: the frame, as its own rotation turned it. -/
structure Picture where
  frame : Frame
  rotation : Rotation
  deriving DecidableEq, Repr

structure CursorBuffer where
  width : ℕ
  height : ℕ
  /-- `none` is a zeroed buffer. -/
  picture : Option Picture := none
  /-- How often it was written. -/
  writes : ℕ := 0
  deriving DecidableEq, Repr

/-- The plane properties `probe_plane_properties` finds. -/
structure PlaneProbe where
  /-- The values "rotation" takes, if the plane has it. -/
  rotations : Option UInt64 := none
  hotspotX : Bool := false
  hotspotY : Bool := false
  zpos : Bool := false
  deriving DecidableEq, Repr

/-- What a commit writes to the plane. -/
structure CursorPlane where
  buffer : Fin 2
  x : PlaneSpan
  y : PlaneSpan
  rotation : Option UInt64 := none
  zpos : Option UInt64 := none
  hotspotX : Option ℕ := none
  hotspotY : Option ℕ := none
  deriving DecidableEq, Repr

structure Renderer where
  path : PlanePath
  fourcc : UInt32
  zpos : Option UInt64 := none
  rotation : Rotation := .k0
  /-- `none` is an empty buffer, with no `fb_id`. -/
  buffers : Fin 2 → Option CursorBuffer
  activeIdx : Fin 2 := 0
  dirtyBack : Bool := false
  /-- The property cache, and what was probed in it. -/
  props : Bool := true
  probe : PlaneProbe := {}
  cursor : Option Cursor := none
  /-- In nanoseconds, as every time here. -/
  animStart : ℤ := 0
  lastFrame : Option Frame := none
  lastBlit : ℕ × ℕ := (0, 0)
  firstCommitNeeded : Bool := true
  visible : Bool := true
  paused : Bool := false
  lastX : ℤ := 0
  lastY : ℤ := 0

/-- What a call did: the commit it attempted, if any, with the plane it leaves (`none` is off), and
what it returned. -/
structure Call (α : Type) where
  renderer : Renderer
  commit : Option (Except Errc (Option CursorPlane)) := none
  result : Except Errc α

namespace Renderer

/-- `std::errc::no_such_file_or_directory`: a property is not cached. -/
def noSuchProperty : Errc := .other 2

/-- `std::errc::bad_file_descriptor`. -/
def badFileDescriptor : Errc := .other 9

/-- `std::errc::operation_not_permitted`. -/
def operationNotPermitted : Errc := .other 1

def backIdx (r : Renderer) : Fin 2 := r.activeIdx + 1

/-- The index of `commit_buffer`. -/
def commitIdx (r : Renderer) : Fin 2 := if r.dirtyBack then r.backIdx else r.activeIdx

/-! ### Drawing -/

/-- The plane turns the sprite itself. -/
def turnsInHardware (p : PlaneProbe) (rotation : Rotation) : Bool :=
  p.rotations.any fun mask => mask &&& rotation.toDrmMask ≠ 0

/-- `effective_sw_rotation`. -/
def effectiveSwRotation (r : Renderer) : Rotation :=
  if turnsInHardware r.probe r.rotation then .k0 else r.rotation

def swapsDims (rotation : Rotation) : Bool := rotation = .k90 || rotation = .k270

/-- The size of the frame once turned. -/
def turnedSize (f : Frame) (rotation : Rotation) : ℕ × ℕ :=
  if swapsDims rotation then (f.height, f.width) else (f.width, f.height)

/-- `blit_w` and `blit_h`: a frame that does not fit is scaled down, in 16.16. -/
def blitSize (f : Frame) (rotation : Rotation) (width height : ℕ) : ℕ × ℕ :=
  let (rotW, rotH) := turnedSize f rotation
  if width < rotW ∨ height < rotH then
    let r := min (width * 2 ^ 16 / rotW) (height * 2 ^ 16 / rotH)
    let blitW := min ((rotW * r + 2 ^ 15) / 2 ^ 16) width
    let blitH := min ((rotH * r + 2 ^ 15) / 2 ^ 16) height
    (if blitW = 0 then 1 else blitW, if blitH = 0 then 1 else blitH)
  else (min rotW width, min rotH height)

/-- `blit_frame`. -/
def blitFrame (r : Renderer) (f : Frame) : Renderer :=
  match r.buffers r.backIdx with
  | none => r
  | some b =>
    { r with
      buffers := Function.update r.buffers r.backIdx (some { b with
        picture := some ⟨f, r.effectiveSwRotation⟩
        writes := b.writes + 1 })
      lastFrame := some f
      lastBlit := blitSize f r.effectiveSwRotation b.width b.height
      dirtyBack := true }

/-- The milliseconds since the cursor was set. -/
def elapsed (r : Renderer) (now : ℤ) : ℤ := (now - r.animStart).tdiv 1000000

/-- `advance`, with whether a frame was drawn. -/
def advance (r : Renderer) (now : ℤ) : Renderer × Bool :=
  match r.cursor with
  | none => (r, false)
  | some c =>
    if !c.animated then (r, false)
    else
      let f := c.frameAt (r.elapsed now)
      if r.lastFrame.any (·.address = f.address) then (r, false) else (r.blitFrame f, true)

/-! ### Staging -/

/-- Where a frame's hotspot is once the frame is turned. -/
def turnedHotspot (f : Frame) : Rotation → ℤ × ℤ
  | .k0 => (f.xhot, f.yhot)
  | .k90 => (f.height - 1 - f.yhot, f.xhot)
  | .k180 => (f.width - 1 - f.xhot, f.height - 1 - f.yhot)
  | .k270 => (f.yhot, f.width - 1 - f.xhot)

/-- One axis of `buffer_hotspot`: scaled as the sprite was, and off by its centering. -/
def hotspotOn (hot : ℤ) (turned blit buffer : ℕ) : ℤ :=
  let scaled := if blit ≠ 0 ∧ blit ≠ turned then (hot * blit).tdiv turned else hot
  let drawn := if blit ≠ 0 then blit else turned
  scaled + (buffer - drawn : ℕ) / 2

/-- Where the hotspot of a frame is in a buffer of that size. -/
def hotspotIn (f : Frame) (rotation : Rotation) (blit : ℕ × ℕ) (width height : ℕ) : ℤ × ℤ :=
  let hot := turnedHotspot f rotation
  let turned := turnedSize f rotation
  (hotspotOn hot.1 turned.1 blit.1 width, hotspotOn hot.2 turned.2 blit.2 height)

/-- `width` and `height` of `commit_buffer`. -/
def commitSize (r : Renderer) : ℕ × ℕ :=
  ((r.buffers r.commitIdx).map fun b => (b.width, b.height)).getD (0, 0)

/-- `buffer_hotspot`. -/
def bufferHotspot (r : Renderer) : ℤ × ℤ :=
  match r.lastFrame with
  | none => (0, 0)
  | some f => hotspotIn f r.effectiveSwRotation r.lastBlit r.commitSize.1 r.commitSize.2

/-- The rotation written to the plane, if it has the property. -/
def hwRotation (r : Renderer) : Option UInt64 :=
  r.probe.rotations.map fun mask =>
    if mask &&& r.rotation.toDrmMask ≠ 0 then r.rotation.toDrmMask else rotate0

/-- The two axes of a buffer whose corner is at `px`, `py`. -/
def spansAt (r : Renderer) (size : ℕ × ℕ) (px py : ℤ) : PlaneSpan × PlaneSpan :=
  let x : PlaneSpan := ⟨px, size.1, 0, size.1 * 2 ^ 16⟩
  let y : PlaneSpan := ⟨py, size.2, 0, size.2 * 2 ^ 16⟩
  if r.path = .atomicOverlay ∧ clipApplies (r.hwRotation.getD 0) r.fourcc then
    (clipLeading x, clipLeading y)
  else (x, y)

/-- `stage_position`, where every property is there and an int holds what `hotspot_adjust`
returns. -/
def stagePosition (r : Renderer) (crtcX crtcY : ℤ) : CursorPlane :=
  let h := r.bufferHotspot
  let spans := r.spansAt r.commitSize (crtcX - h.1) (crtcY - h.2)
  { buffer := r.commitIdx
    x := spans.1
    y := spans.2
    rotation := r.hwRotation
    zpos := if r.probe.zpos then r.zpos else none
    hotspotX := if r.lastFrame.isSome ∧ r.probe.hotspotX then some h.1.toNat else none
    hotspotY := if r.lastFrame.isSome ∧ r.probe.hotspotY then some h.2.toNat else none }

/-- `commit_position`; the kernel answers `answer`, but takes no plane without a framebuffer. -/
def commitPosition (r : Renderer) (crtcX crtcY : ℤ) (answer : Option Errc) : Call Unit :=
  let refused (e : Errc) : Call Unit :=
    { renderer := r, commit := some (.error e), result := .error e }
  if !r.props then refused noSuchProperty
  else
    match answer, r.buffers r.commitIdx with
    | some e, _ => refused e
    | none, none => refused .invalidArgument
    | none, some _ =>
      { renderer := { r with
          firstCommitNeeded := false
          activeIdx := r.commitIdx
          dirtyBack := false }
        commit := some (.ok (some (r.stagePosition crtcX crtcY)))
        result := .ok () }

/-! ### Calls -/

/-- `set_cursor`; `none` is a null pointer. -/
def setCursor (r : Renderer) (cursor : Option Cursor) (now : ℤ) : Call Unit :=
  match cursor with
  | none => { renderer := r, result := .error .invalidArgument }
  | some c =>
    { renderer := { { r with cursor := some c, animStart := now }.blitFrame c.first with
        firstCommitNeeded := true }
      result := .ok () }

def moveTo (r : Renderer) (crtcX crtcY now : ℤ) (answer : Option Errc) : Call Unit :=
  if r.cursor.isNone then { renderer := r, result := .error operationNotPermitted }
  else
    let r := { r with lastX := crtcX, lastY := crtcY }
    if r.paused || !r.visible then { renderer := r, result := .ok () }
    else (r.advance now).1.commitPosition crtcX crtcY answer

def tick (r : Renderer) (now : ℤ) (answer : Option Errc) : Call Bool :=
  if r.cursor.isNone then { renderer := r, result := .error operationNotPermitted }
  else if r.paused || !r.visible then { renderer := r, result := .ok false }
  else
    match r.advance now with
    | (r, false) => { renderer := r, result := .ok false }
    | (r, true) =>
      let call := r.commitPosition r.lastX r.lastY answer
      { renderer := call.renderer, commit := call.commit, result := call.result.map fun _ => true }

def hide (r : Renderer) (answer : Option Errc) : Call Unit :=
  if !r.visible then { renderer := r, result := .ok () }
  else
    let r := { r with visible := false }
    if r.paused then { renderer := r, result := .ok () }
    else
      match (if r.props then answer else some noSuchProperty) with
      | some e => { renderer := r, commit := some (.error e), result := .error e }
      | none =>
        { renderer := { r with firstCommitNeeded := true }
          commit := some (.ok none), result := .ok () }

def «show» (r : Renderer) (answer : Option Errc) : Call Unit :=
  if r.visible then { renderer := r, result := .ok () }
  else
    let r := { r with visible := true }
    if r.cursor.isNone || r.paused then { renderer := r, result := .ok () }
    else r.commitPosition r.lastX r.lastY answer

/-- The rotation is stored, and the frame drawn anew where it is turned in software. -/
def turnTo (r : Renderer) (rotation : Rotation) : Renderer :=
  let turned := { r with rotation }
  match r.lastFrame with
  | some f =>
    if r.effectiveSwRotation ≠ .k0 ∨ turned.effectiveSwRotation ≠ .k0 then turned.blitFrame f
    else turned
  | none => turned

def setRotation (r : Renderer) (rotation : Rotation) (answer : Option Errc) : Call Unit :=
  if r.rotation = rotation then { renderer := r, result := .ok () }
  else
    let r := r.turnTo rotation
    if r.cursor.isSome && r.visible && !r.paused then r.commitPosition r.lastX r.lastY answer
    else { renderer := r, result := .ok () }

def onSessionPaused (r : Renderer) : Renderer := { r with paused := true }

/-- `alloc_buffer` of both buffers, for which `answer` says whether the kernel gives them. -/
def allocBuffer (r : Renderer) (size : ℕ × ℕ) (answer : Option Errc) :
    Renderer × Option Errc :=
  let r := { r with activeIdx := 0, dirtyBack := false }
  match (if size.1 = 0 ∨ size.2 = 0 then some .invalidArgument else answer) with
  | some e => ({ r with buffers := fun _ => none }, some e)
  | none => ({ r with buffers := fun _ => some { width := size.1, height := size.2 } }, none)

/-- The size of `active_buffer`. -/
def activeSize (r : Renderer) : ℕ × ℕ :=
  ((r.buffers r.activeIdx).map fun b => (b.width, b.height)).getD (0, 0)

/-- `on_session_resumed`: `alloc`, `probed` and `answer` are what the new descriptor's kernel gives
for the buffers, the property cache and the commit. -/
def onSessionResumed (r : Renderer) (newFd : ℤ) (alloc : Option Errc)
    (probed : Except Errc PlaneProbe) (now : ℤ) (answer : Option Errc) : Call Unit :=
  if newFd < 0 then { renderer := r, result := .error badFileDescriptor }
  else
    match { r with props := false }.allocBuffer r.activeSize alloc with
    | (r, some e) => { renderer := r, result := .error e }
    | (r, none) =>
      match probed with
      | .error e => { renderer := r, result := .error e }
      | .ok probe =>
        let r := { r with props := true, probe, paused := false, firstCommitNeeded := true }
        match r.cursor with
        | none => { renderer := r, result := .ok () }
        | some c =>
          let r := r.blitFrame (if c.animated then c.frameAt (r.elapsed now) else c.first)
          if r.visible then r.commitPosition r.lastX r.lastY answer
          else { renderer := r, result := .ok () }

end Renderer

end DrmCxx.Cursor
