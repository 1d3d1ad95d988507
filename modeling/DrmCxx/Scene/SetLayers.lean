import DrmCxx.Lib.SlotMap
import DrmCxx.Scene.Lowering
import DrmCxx.Scene.SceneObjects
import DrmCxx.Scene.SceneSet

/-!
# The layers of a scene set

A set-level layer is one layer in each of its target scenes. The set keeps a pin for every such
layer, and removes them together.
-/

namespace DrmCxx.Scene

open Lib (SlotMap Handle)

abbrev SceneId := ℕ

/-- A scene as the set sees it: its handle table, and whether it may hold streams. -/
structure MemberScene where
  id : SceneId
  layers : SlotMap LayerId
  streamUsable : Bool := false

namespace MemberScene

/-- `LayerScene::add_layer`, with the layer object built for it. -/
def addLayer (s : MemberScene) (model : BindingModel) (layer : LayerId) :
    Except Errc (MemberScene × Handle) :=
  if model = .driverOwnsBinding ∧ ¬ s.streamUsable then .error .notSupported
  else .ok ({ s with layers := (s.layers.insert layer).1 }, (s.layers.insert layer).2)

def removeLayer (s : MemberScene) (h : Handle) : MemberScene :=
  { s with layers := s.layers.remove h }

end MemberScene

structure PerScenePin where
  sceneIndex : SceneIndex
  layerHandle : Handle
  deriving DecidableEq, Repr

/-- The binding model is the source's, if there is a source. -/
structure SceneSetLayerSpec where
  source : Option BindingModel
  targets : List SceneIndex
  deriving DecidableEq, Repr

/-- `scenes_`, where a removed scene leaves a hole, and `set_slots_`. -/
structure SetLayers where
  scenes : List (Option MemberScene) := []
  setSlots : SlotMap (List PerScenePin) := .empty

namespace SetLayers

def sceneAt (scenes : List (Option MemberScene)) (i : SceneIndex) : Option MemberScene :=
  scenes[i]?.join

def removePin (scenes : List (Option MemberScene)) (p : PerScenePin) : List (Option MemberScene) :=
  match sceneAt scenes p.sceneIndex with
  | none => scenes
  | some scene => scenes.set p.sceneIndex (some (scene.removeLayer p.layerHandle))

def removePins (scenes : List (Option MemberScene)) (pins : List PerScenePin) :
    List (Option MemberScene) :=
  pins.foldl removePin scenes

/-- The lowest hole, else the end. -/
def addScene (s : SetLayers) : Option MemberScene → SetLayers × Except Errc SceneIndex
  | none => (s, .error .invalidArgument)
  | some scene =>
    match s.scenes.findIdx? (·.isNone) with
    | some i => ({ s with scenes := s.scenes.set i (some scene) }, .ok i)
    | none => ({ s with scenes := s.scenes ++ [some scene] }, .ok s.scenes.length)

def removeScene (s : SetLayers) (index : SceneIndex) : SetLayers :=
  match sceneAt s.scenes index with
  | none => s
  | some _ =>
    { scenes := s.scenes.set index none
      setSlots := s.setSlots.mapContents fun _ pins =>
        pins.filter fun p => p.sceneIndex ≠ index }

/-- Every target names a scene, and none twice. -/
def validTargets (scenes : List (Option MemberScene)) :
    List SceneIndex → List SceneIndex → Bool
  | _, [] => true
  | seen, t :: ts =>
    (sceneAt scenes t).isSome && !seen.contains t && validTargets scenes (t :: seen) ts

/-- The loop of `add_set_layer` over the targets, with the pins made so far; the layers are
numbered from `layer`. A failure rolls the earlier targets back. -/
def addTargets (model : BindingModel) (layer : LayerId) (scenes : List (Option MemberScene))
    (pins : List PerScenePin) :
    List SceneIndex → List (Option MemberScene) × Except Errc (List PerScenePin)
  | [] => (scenes, .ok pins)
  | t :: ts =>
    match sceneAt scenes t with
    -- not reached: the targets were validated
    | none => (removePins scenes pins, .error .invalidArgument)
    | some scene =>
      match scene.addLayer model layer with
      | .error e => (removePins scenes pins, .error e)
      | .ok (scene, h) =>
        addTargets model (layer + 1) (scenes.set t (some scene)) (pins ++ [⟨t, h⟩]) ts

/-- `add_set_layer`. -/
def addSetLayer (s : SetLayers) (spec : SceneSetLayerSpec) (layer : LayerId) :
    SetLayers × Except Errc Handle :=
  match spec.source with
  | none => (s, .error .invalidArgument)
  | some model =>
    if spec.targets = [] then (s, .error .invalidArgument)
    else if ¬ validTargets s.scenes [] spec.targets then (s, .error .invalidArgument)
    else match addTargets model layer s.scenes [] spec.targets with
      | (scenes, .error e) => ({ s with scenes }, .error e)
      | (scenes, .ok pins) =>
        ({ scenes, setSlots := (s.setSlots.insert pins).1 }, .ok (s.setSlots.insert pins).2)

/-- `remove_set_layer`. -/
def removeSetLayer (s : SetLayers) (h : Handle) : SetLayers :=
  match s.setSlots.find? h with
  | none => s
  | some pins => { scenes := removePins s.scenes pins, setSlots := s.setSlots.remove h }

end SetLayers

end DrmCxx.Scene
