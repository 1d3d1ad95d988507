import DrmCxx.Scene.SceneBuild
import DrmCxx.Scene.SceneLifecycle

/-!
# Between the frames of a scene

What a caller does to a live scene besides building frames: `remove_layer`, `replace_source`, the
setters of a layer, and the session hooks. `do_commit` builds a frame and has it answered.
-/

namespace DrmCxx.Scene

open Lib Modeset
open Planes (PlaneId Flags)

namespace SceneSlot

/-- A change of a slot under which a layer in it is a layer that was there before, with its
`planes::Layer`. -/
def Keeps (f : SceneSlot → SceneSlot) : Prop :=
  ∀ slot, (f slot).live = true → slot.live = true ∧ (f slot).planesLayer = slot.planesLayer

/-- The slot without its layer. -/
def cleared (slot : SceneSlot) : SceneSlot :=
  { generation := slot.generation
    streamPinnedPlaneId := if slot.sceneLayer.isSome then none else slot.streamPinnedPlaneId }

theorem keeps_cleared : Keeps cleared := fun slot h => by simp [cleared, live] at h

/-- A layer's source with what the scene reads of it. -/
structure NewSource where
  source : SourceId
  format : SourceFormat
  bindingModel : BindingModel := .sceneSubmitsFbId
  deriving DecidableEq, Repr

/-- `exchange_source`: the layer, its pin and its `planes::Layer` stay. -/
def exchangeSource (new : NewSource) (slot : SceneSlot) : SceneSlot :=
  { slot with
    sceneLayer := slot.sceneLayer.map fun l => { l with source := new.source }
    attrs := { slot.attrs with
      desc := { slot.attrs.desc with format := new.format, bindingModel := new.bindingModel } } }

theorem keeps_exchangeSource (new : NewSource) : Keeps (exchangeSource new) := fun slot h =>
  ⟨by simpa [exchangeSource, live] using h, rfl⟩

def withAttrs (attrs : LayerAttrs) (slot : SceneSlot) : SceneSlot := { slot with attrs := attrs }

theorem keeps_withAttrs (attrs : LayerAttrs) : Keeps (withAttrs attrs) := fun _ h => ⟨h, rfl⟩

def withoutPin (slot : SceneSlot) : SceneSlot := { slot with streamPinnedPlaneId := none }

end SceneSlot

namespace SceneState

variable (dev : SceneDevice) (s : SceneState)

theorem sublist_modify {f : SceneSlot → SceneSlot} (hf : SceneSlot.Keeps f) (slots : List SceneSlot)
    (i : ℕ) : (((slots.modify i f).filter (·.live)).map (·.planesLayer)).Sublist
      ((slots.filter (·.live)).map (·.planesLayer)) := by
  induction slots generalizing i with
  | nil => cases i <;> exact List.Sublist.refl _
  | cons slot slots ih =>
    cases i with
    | zero =>
      rw [List.modify_zero_cons, List.filter_cons, List.filter_cons]
      cases hnew : (f slot).live with
      | true =>
        obtain ⟨hlive, hlayer⟩ := hf slot hnew
        rw [if_pos rfl, if_pos hlive, List.map_cons, List.map_cons, hlayer]
      | false =>
        rw [if_neg Bool.false_ne_true]
        split
        · exact List.sublist_cons_self _ _
        · exact List.Sublist.refl _
    | succ i =>
      rw [List.modify_succ_cons, List.filter_cons, List.filter_cons]
      split
      · exact (ih i).cons_cons _
      · exact ih i

/-- One slot of the table changes. -/
def modifySlot (h : LayerHandle) (f : SceneSlot → SceneSlot) (hf : SceneSlot.Keeps f) :
    SceneState :=
  { s with
    slots := s.slots.modify (h.id - 1) f
    nodupTwins := s.nodupTwins.sublist (sublist_modify hf s.slots (h.id - 1)) }

/-! ### Layers -/

/-- `remove_layer`. -/
def removeLayer (h : LayerHandle) : SceneState :=
  match s.slotFor h with
  | none => s
  | some slot =>
    { s.modifySlot h SceneSlot.cleared SceneSlot.keeps_cleared with
      freeIds := s.freeIds ++ [h.id - 1]
      output := { s.output with
        layers := s.output.layers.erase slot.planesLayer
        nodupLayers := s.output.nodupLayers.sublist List.erase_sublist }
      allocator := s.allocator.forgetLayer slot.planesLayer
      demoted := [] }

/-- `replace_source`. -/
def replaceSource (h : LayerHandle) (new : SceneSlot.NewSource) : Except Errc SceneState :=
  if new.bindingModel = .driverOwnsBinding ∧ s.mixing = .unsupported then .error .notSupported
  else
    match (s.slotFor h).filter (·.sceneLayer.isSome) with
    | none => .error .invalidArgument
    | some _ =>
      .ok { s.modifySlot h (SceneSlot.exchangeSource new) (SceneSlot.keeps_exchangeSource new) with
        demoted := [] }

/-- The setters of a layer. Those of its hints ask for a new allocation. -/
def setAttrs (h : LayerHandle) (attrs : LayerAttrs) (hints : Bool) : SceneState :=
  match s.slotFor h with
  | none => s
  | some slot =>
    { s.modifySlot h (SceneSlot.withAttrs attrs) (SceneSlot.keeps_withAttrs attrs) with
      hintsDirty := match slot.sceneLayer with
        | some layer =>
          if hints then Function.update s.hintsDirty layer.id true else s.hintsDirty
        | none => s.hintsDirty }

/-! ### The session -/

theorem twins_withoutPin (slots : List SceneSlot) :
    ((slots.map SceneSlot.withoutPin).filter (·.live)).map (·.planesLayer) =
      (slots.filter (·.live)).map (·.planesLayer) := by
  rw [List.filter_map, List.map_map]
  rfl

/-- `on_session_paused`: sources drop what they bound, and the canvas its buffers. -/
def pause : SceneState :=
  { s with
    slots := s.slots.map SceneSlot.withoutPin
    nodupTwins := by rw [twins_withoutPin]; exact s.nodupTwins
    canvas := { s.canvas with target := s.canvas.target.map (·.onSessionPaused) } }

/-- What the new device, the sources and the canvas answer to a resume. -/
structure ResumeAnswers where
  enumerate : Except Errc Unit := .ok ()
  resumeSources : Except Errc Unit := .ok ()
  /-- The canvas buffers made anew. -/
  resumeCanvas : Option (Fin 2 → UInt64) := none
  /-- EGL brought up again. -/
  resumeGl : Option EglSupport := none

/-- `on_session_resumed`, on the new device. After a failure the scene is half resumed. -/
def resume (a : ResumeAnswers) : Except Errc SceneState := do
  a.enumerate
  let properties ← dev.objectProperties s.crtcId s.connectorId
  a.resumeSources
  return { s with
    properties := properties
    allocator := { forceFullWrites := s.forceFullWrites }
    stickyProps := fun _ => {}
    canvas :=
      { target := s.canvas.target.bind fun t => t.onSessionResumed a.resumeCanvas a.resumeGl }
    demoted := []
    pinVerdicts := []
    primaryZposHint := primaryZposHintOf dev.planes.registry dev.planes.crtcs s.crtcId
    cachedCrtcIndex := none
    mixingProbeRan := false
    firstCommit := true
    suspended := false
    modeBlob := none
    signaling := { s.signaling with
      hdrCache := {}
      lastWrittenHdrBlobId := 0
      lastWrittenColorspaceValue := none } }

/-! ### Commits -/

/-- `do_commit`: the frame is built and, if there is one, sent and answered. -/
def doCommit (q : FrameAnswers) (flags : Flags) (testOnly : Bool) (kernel : Except Errc Unit) :
    SceneState :=
  let built := s.buildFrameInto dev q flags testOnly
  match built.result with
  | .ok (some f) => built.scene.finalizeFrame f kernel
  | _ => built.scene

end SceneState

end DrmCxx.Scene
