import DrmCxx.Scene.SceneState

/-!
# Making, filling and rebinding a scene

`LayerScene::create`, the caller's settings, `add_layer` with the `planes::Layer` it makes, and
`rebind`, which moves a live scene to another CRTC, connector and mode.
-/

namespace DrmCxx.Scene

open Lib Modeset
open Planes (PlaneId CrtcId Heap)

/-- What a scene drives. -/
structure SceneTarget where
  crtcId : CrtcId
  connectorId : ObjectId
  mode : DisplayMode
  deriving DecidableEq, Repr

/-- `LayerScene::Config`. -/
structure SceneConfig extends SceneTarget where
  mixing : StreamMixingMode := .unsupported
  composition : Composition := .auto
  hasEgl : Bool := false
  deriving DecidableEq, Repr

/-- The layer a slot gets: its object, and what its description says. -/
structure NewLayer where
  sceneLayer : SceneLayer
  attrs : LayerAttrs := {}
  deriving DecidableEq, Repr

/-- Where the `planes::Layer`s of a handle table are allocated, by slot. -/
structure TwinAddresses where
  twin : ℕ → Planes.LayerId
  injective : Function.Injective twin

namespace TwinAddresses

variable (mem : TwinAddresses)

/-- The slots with new `planes::Layer`s and without stream pins. -/
def retwin (slots : List SceneSlot) : List SceneSlot :=
  slots.zipIdx.map fun (slot, i) =>
    { slot with planesLayer := mem.twin i, streamPinnedPlaneId := none }

/-- The addresses of the live layers. -/
def liveTwins (slots : List SceneSlot) : List Planes.LayerId :=
  (slots.zipIdx.filter (·.1.live)).map fun e => mem.twin e.2

theorem twins_retwin (slots : List SceneSlot) :
    ((mem.retwin slots).filter (·.live)).map (·.planesLayer) = mem.liveTwins slots := by
  simp only [retwin, liveTwins, List.filter_map, List.map_map]
  rfl

theorem nodup_liveTwins (slots : List SceneSlot) : (mem.liveTwins slots).Nodup := by
  have hidx : (slots.zipIdx.map Prod.snd).Nodup := by
    rw [List.zipIdx_map_snd]
    exact List.nodup_range'
  have hlive : ((slots.zipIdx.filter (·.1.live)).map Prod.snd).Nodup :=
    hidx.sublist (List.filter_sublist.map _)
  simpa [liveTwins, List.map_map, Function.comp_def] using hlive.map mem.injective

theorem nodup_retwin (slots : List SceneSlot) :
    (((mem.retwin slots).filter (·.live)).map (·.planesLayer)).Nodup := by
  rw [mem.twins_retwin]
  exact mem.nodup_liveTwins slots

end TwinAddresses

namespace SceneState

variable (dev : SceneDevice) (s : SceneState)

/-! ### Creation -/

/-- `create`. -/
def create (config : SceneConfig) (placeholder : Planes.LayerId) : Except Errc SceneState :=
  if config.crtcId = 0 ∨ config.connectorId = 0 then .error .invalidArgument
  else
    (dev.objectProperties config.crtcId config.connectorId).map fun properties =>
      { crtcId := config.crtcId
        connectorId := config.connectorId
        mode := config.mode
        properties := properties
        slots := []
        nodupTwins := List.nodup_nil
        output := ⟨config.crtcId, [], placeholder, List.nodup_nil⟩
        heap := fun _ => {}
        primaryZposHint := primaryZposHintOf dev.planes.registry dev.planes.crtcs config.crtcId
        mixing := config.mixing
        composition := config.composition
        hasEgl := config.hasEgl }

/-! ### Settings -/

def setForceFullPropertyWrites (force : Bool) : SceneState :=
  { s with forceFullWrites := force, allocator := { s.allocator with forceFullWrites := force } }

def setExternalReservedPlanes (planes : List PlaneId) : SceneState :=
  { s with externalReservedPlanes := planes }

def setPlanesClaimedElsewhere (planes : List PlaneId) : SceneState :=
  { s with claimedElsewhere := planes }

def setOutputMetadata (src : Option HdrSourceMetadata) : SceneState :=
  { s with
    requests := (s.signaling.setOutputMetadata s.requests src).1
    signaling := (s.signaling.setOutputMetadata s.requests src).2 }

def setVrrEnabled (enable : Bool) : SceneState :=
  { s with requests := { s.requests with desiredVrr := enable, vrrUserSet := true } }

def setOutputTransferFunction (tf : OutputTransferFunction) : SceneState :=
  { s with requests := { s.requests with desiredRegammaTf := tf, regammaTfUserSet := true } }

/-! ### Adding a layer -/

/-- The `planes::Layer` made for a new layer. Nothing else calls `set_composited`. -/
def addedTwin (attrs : LayerAttrs) : Planes.Layer :=
  { forceComposited := attrs.desc.forceComposited }

theorem nodup_putSlot {slots : List SceneSlot} (idx : ℕ) (slot : SceneSlot)
    (h : ((slots.filter (·.live)).map (·.planesLayer)).Nodup)
    (hfree : slot.planesLayer ∉ (slots.filter (·.live)).map (·.planesLayer)) :
    (((slots.take idx ++ slot :: slots.drop (idx + 1)).filter (·.live)).map
      (·.planesLayer)).Nodup := by
  have hkept : ((slots.take idx ++ slots.drop (idx + 1)).filter (·.live)).Sublist
      (slots.filter (·.live)) := by
    refine List.Sublist.filter _ ?_
    conv_rhs => rw [← List.take_append_drop idx slots]
    exact (List.Sublist.refl _).append (List.drop_sublist_drop_left _ (Nat.le_succ idx))
  have hnodup := h.sublist (hkept.map (·.planesLayer))
  have hnot := fun hmem => hfree ((hkept.map (·.planesLayer)).subset hmem)
  rw [List.filter_append, List.filter_cons]
  rw [List.filter_append] at hnodup hnot
  cases slot.live with
  | true =>
    rw [if_pos rfl, List.map_append, List.map_cons, List.nodup_middle, ← List.map_append]
    exact List.nodup_cons.mpr ⟨hnot, hnodup⟩
  | false => simpa using hnodup

/-- `add_layer`, with the address of the `planes::Layer` it allocates. -/
def addLayer (new : NewLayer) (twin : Planes.LayerId) (hfree : twin ∉ s.twins)
    (hout : twin ∉ s.output.layers) : Except Errc (SceneState × LayerHandle) :=
  if new.attrs.desc.bindingModel = .driverOwnsBinding ∧ s.mixing = .unsupported then
    .error .notSupported
  else
    let idx := s.freeIds.getLast?.getD s.slots.length
    let generation := ((s.slots[idx]?).map (·.generation)).getD 0 + 1
    let slot : SceneSlot :=
      { generation, alive := true, sceneLayer := some new.sceneLayer, attrs := new.attrs
        planesLayer := twin }
    .ok ({ s with
      slots := s.slots.take idx ++ slot :: s.slots.drop (idx + 1)
      nodupTwins := nodup_putSlot idx slot s.nodupTwins hfree
      hintsDirty := Function.update s.hintsDirty new.sceneLayer.id false
      freeIds := s.freeIds.dropLast
      output := { s.output with
        layers := s.output.layers ++ [twin]
        nodupLayers := List.nodup_append.mpr ⟨s.output.nodupLayers, List.nodup_singleton _,
          fun a ha b hb hab => hout (by rw [← List.mem_singleton.mp hb, ← hab]; exact ha)⟩ }
      heap := Function.update s.heap twin (addedTwin new.attrs)
      demoted := [] }, ⟨idx + 1, generation⟩)

/-! ### Rebinding -/

/-- The layers of a handle table in a new output. -/
def withTable (slots : List SceneSlot) (crtc : CrtcId) (mem : TwinAddresses) : SceneState :=
  { s with
    slots := mem.retwin slots
    nodupTwins := mem.nodup_retwin slots
    output := ⟨crtc, mem.liveTwins slots, s.output.compositionLayer, mem.nodup_liveTwins slots⟩ }

/-- The layers that lie outside a mode. -/
def offScreen (mode : DisplayMode) : List LayerHandle :=
  s.slots.zipIdx.filterMap fun (slot, i) =>
    let d := slot.attrs.desc.display.dstRect
    if slot.live && (d.x.toInt + d.w.toNat ≤ 0 || d.y.toInt + d.h.toNat ≤ 0 ||
        d.x.toInt ≥ mode.hdisplay || d.y.toInt ≥ mode.vdisplay) then
      some ⟨i + 1, slot.generation⟩
    else none

/-- `rebind`, with the addresses of the new `planes::Layer`s and the report. After a failure the
scene is not to be used. -/
def rebind (target : SceneTarget) (mem : TwinAddresses) :
    Except Errc (SceneState × List LayerHandle) :=
  (dev.objectProperties target.crtcId target.connectorId).map fun properties =>
    ({ s.withTable s.slots target.crtcId mem with
        crtcId := target.crtcId
        connectorId := target.connectorId
        mode := target.mode
        properties := properties
        heap := fun _ => {}
        allocator := { forceFullWrites := s.forceFullWrites }
        stickyProps := fun _ => {}
        canvas := {}
        demoted := []
        pinVerdicts := []
        primaryZposHint := primaryZposHintOf dev.planes.registry dev.planes.crtcs target.crtcId
        cachedCrtcIndex := none
        mixingProbeRan := false
        firstCommit := true
        modeBlob := none
        signaling := { s.signaling with
          hdrCache := .flush
          lastWrittenHdrBlobId := 0
          lastWrittenColorspaceValue := none } },
      s.offScreen target.mode)

end SceneState

end DrmCxx.Scene
