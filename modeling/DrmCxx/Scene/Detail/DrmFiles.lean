import DrmCxx.Errc
import DrmCxx.Lib.Table
import DrmCxx.Scene.ExternalDmaBufRing
import DrmCxx.Scene.SceneObjects

/-!
# The kernel's side of an import

The descriptors of a process, and for each open file of a card the GEM handles and framebuffers made
through it. Which number the kernel picks for a descriptor, a handle or a framebuffer is an input of
each call; a number that is taken is not one it picks.
-/

namespace DrmCxx.Scene.Detail

open Lib

/-- An open file description of a card. -/
abbrev FileId := ℕ

/-- `0` is no handle. -/
abbrev GemHandle := ℕ

/-- What a descriptor refers to. -/
inductive Description
  | device (file : FileId)
  | dmaBuf (buffer : BufferId)
  deriving DecidableEq, Repr

structure DrmFramebuffer where
  file : FileId
  width : ℕ
  height : ℕ
  drmFourcc : ℕ
  /-- `none` without `DRM_MODE_FB_MODIFIERS`. -/
  modifier : Option ℕ
  /-- The buffer, the pitch and the offset of each plane. -/
  planes : List (BufferId × ℕ × ℕ)
  deriving DecidableEq, Repr

structure Kernel where
  fds : Table ℕ Description := .empty
  handles : Table (FileId × GemHandle) BufferId := .empty
  fbs : Table FbId DrmFramebuffer := .empty

def ebadf : Errc := .other 9

def emfile : Errc := .other 24

def enoent : Errc := .other 2

def eio : Errc := .other 5

namespace Kernel

/-- `F_DUPFD_CLOEXEC`. -/
def dupFd (k : Kernel) (n : ℕ) (answer : Except Errc ℕ) : Except Errc (Kernel × ℕ) :=
  match k.fds.find? n with
  | none => .error ebadf
  | some d =>
    match answer with
    | .error e => .error e
    | .ok m =>
      if k.fds.contains m then .error emfile
      else .ok ({ k with fds := k.fds.insertOrAssign m d }, m)

/-- `close`. With the last descriptor of a card's file go its handles and framebuffers. -/
def close (k : Kernel) (n : ℕ) : Kernel :=
  match k.fds.find? n with
  | some (.device file) =>
    if (k.fds.erase n).values.contains (.device file) then { k with fds := k.fds.erase n }
    else
      { fds := k.fds.erase n
        handles := k.handles.filter fun e => e.1.1 ≠ file
        fbs := k.fbs.filter fun e => e.2.file ≠ file }
  | _ => { k with fds := k.fds.erase n }

/-- The handle that a file has for a buffer. -/
def handleOf (k : Kernel) (file : FileId) (buffer : BufferId) : Option GemHandle :=
  (k.handles.entries.find? fun e => e.1.1 = file ∧ e.2 = buffer).map fun e => e.1.2

/-- `drmPrimeFDToHandle`: a buffer that is imported has one handle in a file, and no count. -/
def primeFdToHandle (k : Kernel) (device : ℕ) (n : ℕ) (answer : Except Errc GemHandle) :
    Except Errc (Kernel × GemHandle) :=
  match k.fds.find? device, k.fds.find? n with
  | some (.device file), some (.dmaBuf buffer) =>
    match answer with
    | .error e => .error e
    | .ok h =>
      match k.handleOf file buffer with
      | some h => .ok (k, h)
      | none =>
        if h = 0 ∨ k.handles.contains (file, h) then .error eio
        else .ok ({ k with handles := k.handles.insertOrAssign (file, h) buffer }, h)
  | _, _ => .error ebadf

/-- `DRM_IOCTL_GEM_CLOSE`. -/
def gemClose (k : Kernel) (device : ℕ) (h : GemHandle) : Kernel :=
  match k.fds.find? device with
  | some (.device file) => { k with handles := k.handles.erase (file, h) }
  | _ => k

/-- The buffer of each plane, with its pitch and offset. -/
def planeBuffers (k : Kernel) (file : FileId) :
    List (GemHandle × ℕ × ℕ) → Option (List (BufferId × ℕ × ℕ))
  | [] => some []
  | p :: ps =>
    match k.handles.find? (file, p.1), k.planeBuffers file ps with
    | some buffer, some rest => some ((buffer, p.2) :: rest)
    | _, _ => none

/-- `drmModeAddFB2WithModifiers`. -/
def addFb (k : Kernel) (device : ℕ) (width height drmFourcc : ℕ) (modifier : Option ℕ)
    (planes : List (GemHandle × ℕ × ℕ)) (answer : Except Errc FbId) :
    Except Errc (Kernel × FbId) :=
  match k.fds.find? device with
  | some (.device file) =>
    match k.planeBuffers file planes with
    | none => .error enoent
    | some buffers =>
      match answer with
      | .error e => .error e
      | .ok id =>
        if id = 0 ∨ k.fbs.contains id then .error eio
        else
          .ok ({ k with
            fbs := k.fbs.insertOrAssign id
              { file, width, height, drmFourcc, modifier, planes := buffers } }, id)
  | _ => .error ebadf

/-- `drmModeRmFB`: a file's own framebuffers only. -/
def rmFb (k : Kernel) (device : ℕ) (id : FbId) : Kernel :=
  match k.fds.find? device with
  | some (.device file) =>
    match k.fbs.find? id with
    | some fb => if fb.file = file then { k with fbs := k.fbs.erase id } else k
    | none => k
  | _ => k

end Kernel

end DrmCxx.Scene.Detail
