import DrmCxx.Errc
import DrmCxx.Scene.Lowering

/-!
# The handle table of a scene

`LayerScene` hands out 32-bit ids: a slot's index plus one, with the generation of its occupant.
Slots are recycled through a free list, used from the back.
-/

namespace DrmCxx.Scene

namespace HandleTable

/-- An id of zero is the default handle, which names no slot. -/
structure LayerHandle where
  id : UInt32 := 0
  generation : UInt32 := 0
  deriving DecidableEq, Repr

/-- What `add_layer` is given: a source, which may be null, and the description. -/
structure LayerSpec (S : Type*) where
  source : Option S
  desc : LayerDesc := {}

/-- `Layer`, built under its handle. -/
structure Layer (S : Type*) where
  handle : LayerHandle
  source : S
  desc : LayerDesc

structure Slot (S : Type*) where
  generation : UInt32 := 0
  alive : Bool := false
  sceneLayer : Option (Layer S) := none

end HandleTable

open HandleTable

/-- `slots_`, `free_ids_` and whether `stream_capability_` is usable. -/
structure HandleTable (S : Type*) where
  slots : List (HandleTable.Slot S) := []
  freeIds : List UInt32 := []
  streamUsable : Bool := false

namespace HandleTable

variable {S : Type*} (t : HandleTable S)

/-- The index of the slot the next layer gets, and the table with that slot in it. -/
def takeSlot : UInt32 × HandleTable S :=
  match t.freeIds.getLast? with
  | some i => (i, { t with freeIds := t.freeIds.dropLast })
  | none => (UInt32.ofNat t.slots.length, { t with slots := t.slots ++ [{}] })

/-- The slot is occupied by a layer built from the source and the description. -/
def occupy (i : UInt32) (source : S) (desc : LayerDesc) : HandleTable S × LayerHandle :=
  let generation := ((t.slots[i.toNat]?.map (·.generation)).getD 0) + 1
  let handle : LayerHandle := ⟨i + 1, generation⟩
  ({ t with slots := t.slots.set i.toNat ⟨generation, true, some ⟨handle, source, desc⟩⟩ }, handle)

/-- `add_layer`. -/
def addLayer (spec : LayerSpec S) : HandleTable S × Except Errc LayerHandle :=
  match spec.source with
  | none => (t, .error .invalidArgument)
  | some source =>
    if spec.desc.bindingModel = .driverOwnsBinding ∧ ¬ t.streamUsable then
      (t, .error .notSupported)
    else
      let (i, t') := t.takeSlot
      let (t'', handle) := t'.occupy i source spec.desc
      (t'', .ok handle)

/-- `slot_for`: nothing for a handle that names no live layer. -/
def slotFor (h : LayerHandle) : Option (HandleTable.Slot S) :=
  if h.id = 0 ∨ t.slots.length < h.id.toNat then none
  else (t.slots[(h.id - 1).toNat]?).filter fun slot => slot.alive && slot.generation = h.generation

/-- `remove_layer`. The layer object moves to the retire ring. -/
def removeLayer (h : LayerHandle) : HandleTable S :=
  match t.slotFor h with
  | none => t
  | some slot =>
    { t with
      slots := t.slots.set (h.id - 1).toNat { slot with alive := false, sceneLayer := none }
      freeIds := t.freeIds ++ [h.id - 1] }

/-- `get_layer`. -/
def getLayer (h : LayerHandle) : Option (Layer S) := (t.slotFor h).bind (·.sceneLayer)

/-- `layer_count`. -/
def layerCount : ℕ := t.slots.length - t.freeIds.length

end HandleTable

end DrmCxx.Scene
