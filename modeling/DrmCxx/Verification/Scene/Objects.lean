import DrmCxx.Scene.SetLayers
import DrmCxx.Verification.Scene.FrameBuild
import DrmCxx.Verification.Scene.LayerHandles
import DrmCxx.Verification.Scene.SettledPlacement

/-!
# One scene

`LayerScene::Impl` has one table of layers. The state a frame is built from, the objects whose
buffers go home, the 32-bit handles a caller holds and the layers a scene set keeps pins of are four
views of it. An edit does the same to each, and a run of the state is a run of its objects.
-/

namespace DrmCxx.Scene

open Lib Modeset
open Planes (PlaneId Flags)

/-! ### The objects and their handles -/

/-- Which handles of a table name a layer. -/
abbrev Occupancy := SlotMap Unit

def Slot.occupancy (slot : Slot) : TableSlot Unit :=
  ⟨slot.generation, slot.sceneLayer.map fun _ => ()⟩

def LayerHandle.toHandle (h : LayerHandle) : Handle := ⟨h.id, h.generation⟩

namespace SceneObjects

/-- The slot the next layer gets. -/
def next (o : SceneObjects) : ℕ := o.freeIds.getLast?.getD o.slots.length

def generationAt (o : SceneObjects) (i : ℕ) : ℕ := (o.slots[i]?.map (·.generation)).getD 0

theorem addLayer_eq {o : SceneObjects} (hfree : ∀ i ∈ o.freeIds, i < o.slots.length)
    (layer : SceneLayer) : o.addLayer layer =
      ({ o with
          slots := putAt o.slots o.next ⟨o.generationAt o.next + 1, true, some layer⟩
          freeIds := o.freeIds.dropLast },
        ⟨o.next + 1, o.generationAt o.next + 1⟩) := by
  unfold addLayer next
  cases hlast : o.freeIds.getLast? with
  | none =>
    rw [List.getLast?_eq_none_iff.mp hlast]
    simp [putAt, generationAt]
  | some idx =>
    have hlt := hfree idx (List.mem_of_getLast? hlast)
    simp only [Option.getD_some, putAt, List.set_eq_take_append_cons_drop, if_pos hlt]
    rfl

/-- The objects have their layers under these handles. -/
structure Occupies (o : SceneObjects) (m : Occupancy) : Prop where
  slots : m.slots = o.slots.map Slot.occupancy
  freeIds : m.freeIds = o.freeIds
  alive : ∀ slot ∈ o.slots, slot.alive = slot.sceneLayer.isSome

theorem occupies_initial : Occupies {} SlotMap.empty := ⟨rfl, rfl, by simp⟩

namespace Occupies

variable {o : SceneObjects} {m : Occupancy}

theorem slotFor_eq_some (hm : o.Occupies m) {h : LayerHandle} {idx : ℕ} :
    o.slotFor h = some idx ↔ h.id ≠ 0 ∧ h.id - 1 = idx ∧ ∃ slot, o.slots[idx]? = some slot ∧
      slot.generation = h.generation ∧ slot.sceneLayer.isSome = true := by
  unfold SceneObjects.slotFor
  by_cases hid : h.id = 0
  · simp [hid]
  · rw [if_neg hid]
    cases hget : o.slots[h.id - 1]? with
    | none =>
      refine iff_of_false nofun ?_
      rintro ⟨-, rfl, slot, hslot, -⟩
      rw [hget] at hslot
      cases hslot
    | some slot =>
      have halive := hm.alive slot (List.mem_of_getElem? hget)
      constructor
      · intro h
        obtain ⟨hnamed, hidx⟩ := Option.ite_none_right_eq_some.mp h
        cases hidx
        exact ⟨hid, rfl, slot, hget, hnamed.2, halive ▸ hnamed.1⟩
      · rintro ⟨-, rfl, slot', hslot', hgen, hlayer⟩
        rw [hget] at hslot'
        cases hslot'
        exact if_pos ⟨halive.trans hlayer, hgen⟩

/-- The objects find what the handles name. -/
theorem slotFor_isSome (hm : o.Occupies m) (h : LayerHandle) :
    (o.slotFor h).isSome = (m.find? h.toHandle).isSome := by
  rw [Bool.eq_iff_iff, Option.isSome_iff_exists, Option.isSome_iff_exists]
  constructor
  · rintro ⟨idx, hidx⟩
    obtain ⟨hid, rfl, slot, hslot, hgen, hlayer⟩ := hm.slotFor_eq_some.mp hidx
    refine ⟨(), SlotMap.find?_eq_some.mpr ⟨hid, slot.occupancy, ?_, hgen, ?_⟩⟩
    · rw [hm.slots, List.getElem?_map]
      exact congrArg (Option.map Slot.occupancy) hslot
    · obtain ⟨layer, hlayer⟩ := Option.isSome_iff_exists.mp hlayer
      rw [Slot.occupancy, hlayer]
      rfl
  · rintro ⟨_, hfound⟩
    obtain ⟨hid, ts, hts, hgen, hcontent⟩ := SlotMap.find?_eq_some.mp hfound
    rw [hm.slots, List.getElem?_map] at hts
    obtain ⟨slot, hslot, rfl⟩ := Option.map_eq_some_iff.mp hts
    obtain ⟨layer, hlayer, -⟩ := Option.map_eq_some_iff.mp hcontent
    exact ⟨_, hm.slotFor_eq_some.mpr ⟨hid, rfl, slot, hslot, hgen, by rw [hlayer]; rfl⟩⟩

theorem length_slots (hm : o.Occupies m) : m.slots.length = o.slots.length := by
  rw [hm.slots, List.length_map]

theorem next_eq (hm : o.Occupies m) : m.next = o.next := by
  rw [SlotMap.next, hm.freeIds, hm.length_slots, next]

theorem generationAt_eq (hm : o.Occupies m) (i : ℕ) : m.generationAt i = o.generationAt i := by
  rw [SlotMap.generationAt, hm.slots, List.getElem?_map, Option.map_map]
  rfl

theorem free_lt (hm : o.Occupies m) : ∀ i ∈ o.freeIds, i < o.slots.length := by
  intro i hi
  obtain ⟨slot, hslot, -⟩ := Option.map_eq_some_iff.mp ((m.mem_free i).mp (hm.freeIds ▸ hi))
  exact hm.length_slots ▸ (List.getElem?_eq_some_iff.mp hslot).1

/-- While its generation can be counted the layer gets the slot map's next handle. -/
theorem addLayer (hm : o.Occupies m) (hroom : m.Unwrapped) (layer : SceneLayer) :
    (o.addLayer layer).1.Occupies (m.insert ()).1 ∧
      (o.addLayer layer).2.toHandle = m.nextHandle := by
  have hhandle : m.nextHandle = ⟨o.next + 1, o.generationAt o.next + 1⟩ := by
    rw [SlotMap.nextHandle, Nat.mod_eq_of_lt hroom, hm.next_eq, hm.generationAt_eq]
  have hslots : (m.insert ()).1.slots =
      putAt m.slots m.next ⟨m.nextHandle.generation, some ()⟩ := rfl
  rw [addLayer_eq hm.free_lt]
  refine ⟨⟨?_, ?_, fun slot hslot => ?_⟩, hhandle.symm⟩
  · rw [hslots, hhandle, hm.next_eq, hm.slots, map_putAt]
    rfl
  · exact congrArg List.dropLast hm.freeIds
  · rcases mem_of_mem_putAt hslot with hslot | rfl
    · exact hm.alive slot hslot
    · rfl

theorem removeLayer (hm : o.Occupies m) (h : LayerHandle) :
    (o.removeLayer h).Occupies (m.remove h.toHandle) := by
  have hfound := hm.slotFor_isSome h
  unfold SceneObjects.removeLayer
  cases hslot : o.slotFor h with
  | none =>
    rw [hslot] at hfound
    rw [SlotMap.remove, dif_neg (by simp [← hfound])]
    exact hm
  | some idx =>
    rw [hslot] at hfound
    obtain ⟨-, rfl, ⟨g, alive, layer⟩, hget, hgen, -⟩ := hm.slotFor_eq_some.mp hslot
    dsimp only
    rw [hget]
    refine ⟨?_, ?_, fun slot hmem => ?_⟩
    · rw [SlotMap.slots_remove hfound.symm, hm.slots, List.map_set]
      exact congrArg (fun g => (o.slots.map Slot.occupancy).set (h.id - 1) ⟨g, none⟩) hgen.symm
    · rw [SlotMap.freeIds_remove hfound.symm, hm.freeIds]
      rfl
    · rcases List.mem_or_eq_of_mem_set hmem with hmem | rfl
      · exact hm.alive slot hmem
      · rfl

/-- The handles do not see which source a layer has. -/
theorem replaceSource (hm : o.Occupies m) (h : LayerHandle) (source : SourceId) :
    (o.replaceSource h source).Occupies m := by
  unfold SceneObjects.replaceSource
  cases hslot : o.slotFor h with
  | none => exact hm
  | some idx =>
    obtain ⟨-, rfl, ⟨g, alive, layer⟩, hget, -, hlayer⟩ := hm.slotFor_eq_some.mp hslot
    obtain ⟨layer, rfl⟩ := Option.isSome_iff_exists.mp hlayer
    dsimp only
    rw [hget]
    have halive := hm.alive _ (List.mem_of_getElem? hget)
    obtain ⟨hlt, hget'⟩ := List.getElem?_eq_some_iff.mp hget
    have hlt' : h.id - 1 < (o.slots.map Slot.occupancy).length := by rwa [List.length_map]
    have hsame : Slot.occupancy ⟨g, alive, some { layer with source }⟩ =
        (o.slots.map Slot.occupancy)[h.id - 1] := by
      rw [List.getElem_map, hget']
      rfl
    refine ⟨?_, hm.freeIds, fun slot hmem => ?_⟩
    · rw [hm.slots, List.map_set, hsame, List.set_getElem_self]
    · rcases List.mem_or_eq_of_mem_set hmem with hmem | rfl
      · exact hm.alive slot hmem
      · exact halive

end Occupies

end SceneObjects

/-! ### The state and its objects -/

namespace SceneState

/-- The slots of the state are those of the objects, with what a frame reads beside them. -/
structure Over (s : SceneState) (o : SceneObjects) : Prop where
  slots : s.slots.map (·.toSlot) = o.slots
  freeIds : s.freeIds = o.freeIds
  suspended : s.suspended = o.suspended

theorem map_modify_eq_set {α β : Type*} {g : α → β} {f : α → α} {xs : List α} {i : ℕ} {x : α}
    (hx : xs[i]? = some x) : (xs.modify i f).map g = (xs.map g).set i (g (f x)) := by
  refine List.ext_getElem? fun j => ?_
  rw [List.getElem?_map, List.getElem?_modify, List.getElem?_set, List.getElem?_map]
  by_cases hij : i = j
  · subst hij
    obtain ⟨hlt, rfl⟩ := List.getElem?_eq_some_iff.mp hx
    simp [hlt]
  · simp [hij]

namespace Over

variable {s s' : SceneState} {o : SceneObjects} {m : Occupancy}

theorem length_slots (hover : s.Over o) : s.slots.length = o.slots.length := by
  rw [← hover.slots, List.length_map]

/-- A handle names the same slot in both, or none. -/
theorem slotFor_cases (hover : s.Over o) (h : LayerHandle) :
    s.slotFor h = none ∧ o.slotFor h = none ∨ ∃ slot, s.slotFor h = some slot ∧
      s.slots[h.id - 1]? = some slot ∧ o.slotFor h = some (h.id - 1) ∧
      o.slots[h.id - 1]? = some slot.toSlot := by
  have hget : o.slots[h.id - 1]? = (s.slots[h.id - 1]?).map (·.toSlot) := by
    rw [← hover.slots, List.getElem?_map]
  unfold SceneState.slotFor SceneObjects.slotFor
  by_cases hid : h.id = 0
  · exact .inl ⟨if_pos hid, if_pos hid⟩
  · rw [if_neg hid, if_neg hid, hget]
    cases s.slots[h.id - 1]? with
    | none => exact .inl ⟨rfl, rfl⟩
    | some slot =>
      by_cases hnamed : slot.alive = true ∧ slot.generation = h.generation
      · right
        refine ⟨slot, ?_, rfl, if_pos hnamed, rfl⟩
        rw [Option.filter_some, if_pos (by simpa using hnamed)]
      · left
        refine ⟨?_, if_neg hnamed⟩
        rw [Option.filter_some, if_neg (by simpa using hnamed)]

theorem addLayer (hover : s.Over o) (hs : s.Accounted) {new : NewLayer} {twin : Planes.LayerId}
    {hfree : twin ∉ s.twins} {hout : twin ∉ s.output.layers} {added : SceneState × LayerHandle}
    (hok : s.addLayer new twin hfree hout = .ok added) :
    added.1.Over (o.addLayer new.sceneLayer).1 ∧ added.2 = (o.addLayer new.sceneLayer).2 := by
  have hlt : ∀ i ∈ o.freeIds, i < o.slots.length := by
    intro i hi
    obtain ⟨slot, hslot, -⟩ := (hs.free i).mp (hover.freeIds ▸ hi)
    exact hover.length_slots ▸ (List.getElem?_eq_some_iff.mp hslot).1
  have hnext : s.freeIds.getLast?.getD s.slots.length = o.next := by
    rw [hover.freeIds, hover.length_slots, SceneObjects.next]
  have hgeneration : ((s.slots[s.freeIds.getLast?.getD s.slots.length]?).map
      (·.generation)).getD 0 = o.generationAt o.next := by
    rw [hnext, SceneObjects.generationAt, ← hover.slots, List.getElem?_map, Option.map_map]
    rfl
  rw [SceneObjects.addLayer_eq hlt]
  unfold SceneState.addLayer at hok
  split at hok
  · cases hok
  · cases hok
    refine ⟨⟨?_, congrArg List.dropLast hover.freeIds, hover.suspended⟩, ?_⟩
    · refine (map_putAt (fun slot : SceneSlot => slot.toSlot) s.slots _ _).trans ?_
      rw [hover.slots, hgeneration, hnext]
    · exact congrArg₂ (fun i g => (⟨i + 1, g + 1⟩ : LayerHandle)) hnext hgeneration

theorem removeLayer (hover : s.Over o) (h : LayerHandle) :
    (s.removeLayer h).Over (o.removeLayer h) := by
  unfold SceneState.removeLayer SceneObjects.removeLayer
  obtain ⟨hs, ho⟩ | ⟨slot, hs, hget, ho, hoget⟩ := hover.slotFor_cases h
  · rw [hs, ho]
    exact hover
  · rw [hs, ho]
    dsimp only
    rw [hoget]
    refine ⟨?_, by rw [← hover.freeIds], hover.suspended⟩
    rw [← hover.slots]
    exact map_modify_eq_set hget

theorem replaceSource (hover : s.Over o) {h : LayerHandle} {new : SceneSlot.NewSource}
    (hok : s.replaceSource h new = .ok s') : s'.Over (o.replaceSource h new.source) := by
  unfold SceneState.replaceSource at hok
  unfold SceneObjects.replaceSource
  split at hok
  · cases hok
  · obtain ⟨hs, ho⟩ | ⟨slot, hs, hget, ho, hoget⟩ := hover.slotFor_cases h
    · rw [hs] at hok
      cases hok
    · rw [hs, Option.filter_some] at hok
      cases hlayer : slot.sceneLayer with
      | none =>
        rw [if_neg (by simp [hlayer])] at hok
        cases hok
      | some layer =>
        rw [if_pos (by simp [hlayer])] at hok
        cases hok
        rw [ho]
        dsimp only
        rw [hoget, show slot.toSlot = ⟨slot.generation, slot.alive, some layer⟩ by rw [← hlayer]]
        refine ⟨?_, hover.freeIds, hover.suspended⟩
        have hslot : (slot.exchangeSource new).toSlot =
            ⟨slot.generation, slot.alive, some { layer with source := new.source }⟩ := by
          rw [SceneSlot.exchangeSource, hlayer]
          rfl
        refine (map_modify_eq_set hget).trans ?_
        rw [hover.slots, hslot]

theorem setAttrs (hover : s.Over o) (h : LayerHandle) (attrs : LayerAttrs) (hints : Bool) :
    (s.setAttrs h attrs hints).Over o := by
  unfold SceneState.setAttrs
  split
  · exact hover
  · refine ⟨?_, hover.freeIds, hover.suspended⟩
    have hsame : ∀ slot : SceneSlot, (slot.withAttrs attrs).toSlot = slot.toSlot := fun _ => rfl
    exact (map_modify hsame s.slots (h.id - 1)).trans hover.slots

end Over

end SceneState

/-! ### Acquisition -/

/-- Every source answers as the layer that has it. -/
def AnswersFor (slots : List Slot) (q : FrameAnswers)
    (acquire : SourceId → Except Errc Unit) : Prop :=
  ∀ slot ∈ slots, ∀ layer, slot.sceneLayer = some layer →
    acquire layer.source = (q.acquire layer.id).map fun _ => ()

/-- The layer of an acquisition, and the source that was asked. -/
def AcquiredLayer.asked (a : AcquiredLayer) : LayerId × SourceId :=
  (a.sceneLayer, (a.slot.sceneLayer.map (·.source)).getD 0)

/-- How a loop returns that an error ends. -/
def ended : Option Errc → Except Errc Unit
  | none => .ok ()
  | some e => .error e

/-- The objects acquire what the state does, and fail where it fails. -/
theorem acquireUntilError_eq {q : FrameAnswers} {acquire : SourceId → Except Errc Unit}
    {slots : List (SceneSlot × ℕ)} (h : AnswersFor (slots.map (·.1.toSlot)) q acquire)
    (next : BufferId) :
    (acquireUntilError acquire next (slots.map (·.1.toSlot))).1.map
        (fun a => (a.1.sceneLayer, a.2)) =
        (SceneState.acquireSlots q slots).1.map AcquiredLayer.asked ∧
      (acquireUntilError acquire next (slots.map (·.1.toSlot))).2 =
        ended (SceneState.acquireSlots q slots).2.2 := by
  induction slots generalizing next with
  | nil => exact ⟨rfl, rfl⟩
  | cons e slots ih =>
    obtain ⟨slot, idx⟩ := e
    have hrest := ih fun slot' hslot' => h slot' (.tail _ hslot')
    rw [List.map_cons, acquireUntilError, SceneState.acquireSlots]
    cases halive : slot.alive with
    | false => simpa [SceneSlot.live, halive] using hrest next
    | true =>
      cases hlayer : slot.sceneLayer with
      | none => simpa [SceneSlot.live, halive, hlayer] using hrest next
      | some layer =>
        have hlive : slot.live = true := by simp [SceneSlot.live, halive, hlayer]
        have hanswer := h slot.toSlot (.head _) layer hlayer
        rw [hlive]
        dsimp only
        cases hacquire : q.acquire layer.id with
        | ok buffer =>
          rw [hacquire] at hanswer
          rw [hanswer]
          obtain ⟨hfst, hsnd⟩ := hrest (next + 1)
          refine ⟨?_, hsnd⟩
          rw [Except.map, List.map_cons, List.map_cons, hfst, AcquiredLayer.asked,
            AcquiredLayer.sceneLayer, hlayer]
          rfl
        | error e =>
          rw [hacquire] at hanswer
          rw [hanswer]
          cases e with
          | resourceUnavailableTryAgain => exact hrest next
          | _ => exact ⟨rfl, rfl⟩

/-! ### Builds -/

namespace SceneState

/-- The objects of a scene stay, and whether it is to be lit. -/
structure SameObjects (s s' : SceneState) : Prop where
  slots : s'.slots.map (·.toSlot) = s.slots.map (·.toSlot)
  freeIds : s'.freeIds = s.freeIds
  suspended : s'.suspended = s.suspended
  firstCommit : s'.firstCommit = s.firstCommit

theorem SameObjects.trans {s s' s'' : SceneState} (h : SameObjects s s')
    (h' : SameObjects s' s'') : SameObjects s s'' :=
  ⟨h'.slots.trans h.slots, h'.freeIds.trans h.freeIds, h'.suspended.trans h.suspended,
    h'.firstCommit.trans h.firstCommit⟩

theorem Kept.sameObjects {s s' : SceneState} (h : Kept s s') : SameObjects s s' :=
  ⟨by rw [h.slots], h.freeIds, congrArg KeptPart.suspended h, congrArg KeptPart.firstCommit h⟩

theorem SameObjects.keepsObjects {s s' : SceneState} {o : SceneObjects} (h : SameObjects s s')
    (hover : s.Over o) : s'.Over o :=
  ⟨h.slots.trans hover.slots, h.freeIds.trans hover.freeIds, h.suspended.trans hover.suspended⟩

section

variable (dev : SceneDevice)

theorem sameObjects_prepared (s : SceneState) (q : FrameAnswers) :
    SameObjects s (s.prepared dev q) := by
  have hslots := congrArg (List.map (·.toSlot)) (map_withoutPin_prepared dev s q)
  rw [List.map_map, List.map_map] at hslots
  refine ⟨hslots, s.prepared_freeIds dev q, ?_, ?_⟩
  all_goals
    unfold prepared ensureStreamLayerPins
    split <;> rfl

theorem sameObjects_buildFrameInto (s : SceneState) (q : FrameAnswers) (flags : Flags)
    (testOnly : Bool) : SameObjects s (s.buildFrameInto dev q flags testOnly).scene := by
  have hprepared := sameObjects_prepared dev s q
  cases hentry : s.entry dev q flags testOnly with
  | none =>
    obtain ⟨-, hsuspended⟩ | ⟨s', e, hheld, hfailed⟩ := entry_none hentry
    · rw [hsuspended]
      exact (Kept.refl s).sameObjects
    · rw [hfailed]
      exact hprepared.trans hheld.kept.sameObjects
  | some e =>
    obtain ⟨spec, hbuild⟩ := entry_spec hentry
    have hrounds := hprepared.trans (spec.held.kept.trans
      (kept_placeRounds dev e.round e.request e.report e.round.acquired.length e.scene)).sameObjects
    rw [hbuild, placeAndFinish]
    cases hended : placeRounds dev e.round e.request e.report e.round.acquired.length e.scene with
    | failed s₁ err =>
      rw [hended] at hrounds
      exact hrounds
    | placed w feasible =>
      rw [hended] at hrounds
      have hcomposed := hrounds.trans (w.still_composeUnassigned dev e.round.answers
        w.scene.verifyFlags e.round.acquired).held.kept.sameObjects
      unfold finishBuild
      dsimp only
      split <;> exact hcomposed.trans ⟨rfl, rfl, rfl, rfl⟩

/-- The last turn of the placement loop places its layers, and a pass after that fails. -/
def ArmingFails (s : SceneState) (q : FrameAnswers) (flags : Flags) (testOnly : Bool) : Prop :=
  ∃ (e : Entry) (last s' : SceneState) (n : ℕ) (err : Errc),
    s.entry dev q flags testOnly = some e ∧
    placeRounds dev e.round e.request e.report e.round.acquired.length e.scene =
      last.placeRound dev e.round e.request e.report ∧
    (last.dropStaleAllocation.applied dev e.round).result = .ok n ∧
    (last.dropStaleAllocation.afterApply dev e.round).armPasses dev e.round = (s', .error err)

end

end SceneState

/-- How a build ends that acquired its layers. -/
inductive BuildEnd
  | modeset (error : Errc)
  | placement (error : PlacementError)
  | output (error : Errc)
  | built
  deriving DecidableEq, Repr

namespace BuildEnd

/-- What the build returns, of these layers. -/
def result (layers : List LayerId) : BuildEnd → Except Errc (Option (List LayerId))
  | .modeset e | .output e | .placement (.allocator e) | .placement (.arming e) => .error e
  | .built => .ok (some layers)

/-- What the placement rounds return. -/
def placed : BuildEnd → Except PlacementError Unit
  | .placement e => .error e
  | _ => .ok ()

def armingFails : BuildEnd → Bool
  | .placement (.arming _) => true
  | _ => false

/-- Only a first commit has a modeset to fail at, and a pass needs a layer to arm. -/
def Possible (firstCommit : Bool) (layers : List LayerId) : BuildEnd → Prop
  | .modeset _ => firstCommit = true
  | .placement (.arming _) => layers ≠ []
  | _ => True

/-- A placement round for the end, whatever was demoted before it. -/
def round (ending : BuildEnd) : PlacementRound where
  apply := match ending with
    | .placement (.allocator e) => .error e
    | _ => .ok fun _ => some 0
  acquireFences _ _ := []
  damageClips _ _ := []
  amdPlaneColor _ _ := match ending with
    | .placement (.arming e) => [.error e]
    | _ => []
  pinnedPlane _ := none
  pinnedLayers _ _ := []
  canvasFeasible := true
  demotable _ := false
  keepPriority _ := 0
  zpos _ := 0

/-- Answers that lead to the end. -/
def answers (ending : BuildEnd) (acquire : SourceId → Except Errc Unit) : BuildAnswers where
  acquire
  ensureModeBlob := match ending with
    | .modeset e => .error e
    | _ => .ok ()
  injectModesetState := .ok ()
  round _ := ending.round
  injectOutputColorspace := match ending with
    | .output e => .error e
    | _ => .ok ()
  injectHdrOutputMetadata := .ok ()
  injectVrrEnabled := .ok ()
  injectOutputRegammaTf := .ok ()

theorem run_nil (plane : LayerId → Option PlaneId) (as : List AcquisitionSlot) :
    ArmingPass.run (fun _ _ => []) plane as = .ok () := by
  induction as with
  | nil => rfl
  | cons a as ih =>
    rw [ArmingPass.run]
    cases plane a.sceneLayer <;> exact ih

theorem exit_round {ending : BuildEnd} {firstCommit : Bool} {as : List AcquisitionSlot}
    (h : ending.Possible firstCommit (as.map (·.sceneLayer))) (demoted : List LayerId) :
    ending.round.exit as demoted =
      match ending with
      | .placement e => .failed e
      | _ => .placed := by
  have hsome : ∀ as, ArmingPass.run (fun _ _ => []) (fun _ => some 0) as = .ok () := run_nil _
  have hnone : ∀ as, ArmingPass.run (fun _ _ => []) (fun _ => none) as = .ok () := run_nil _
  cases ending with
  | placement e =>
    cases e with
    | allocator e => rfl
    | arming e =>
      cases as with
      | nil => exact absurd rfl h
      | cons a as =>
        simp only [PlacementRound.exit, round, PlacementRound.arm, hsome]
        rfl
  | _ =>
    simp only [PlacementRound.exit, round, PlacementRound.arm, hsome, hnone]
    rfl

end BuildEnd

namespace FrameBuilder

variable {b : FrameBuilder} {acquire : SourceId → Except Errc Unit} {ending : BuildEnd}

theorem result_of_acquire_error {a : BuildAnswers} {e : Errc}
    (hsuspended : b.objects.suspended = false)
    (h : (acquireUntilError a.acquire b.nextBuffer b.objects.slots).2 = .error e) :
    (b.buildFrameInto a).result = .error e := by
  rw [buildFrameInto, if_neg (by simp [hsuspended]), h]
  rfl

/-- The builder's answers lead to the end they are made for. -/
theorem buildFrameInto_answers (hsuspended : b.objects.suspended = false)
    (hacquire : (acquireUntilError acquire b.nextBuffer b.objects.slots).2 = .ok ())
    (hpossible : ending.Possible b.firstCommit
      ((acquireUntilError acquire b.nextBuffer b.objects.slots).1.map (·.1.sceneLayer))) :
    (b.buildFrameInto (ending.answers acquire)).result.map
        (Option.map (List.map (·.sceneLayer))) =
        ending.result
          ((acquireUntilError acquire b.nextBuffer b.objects.slots).1.map (·.1.sceneLayer)) ∧
      (b.LeavesInScratch (ending.answers acquire) ↔ ending.armingFails = true) := by
  have hacquire' : (acquireUntilError (ending.answers acquire).acquire b.nextBuffer
      b.objects.slots).2 = .ok () := hacquire
  have hlayers : (((acquireUntilError acquire b.nextBuffer b.objects.slots).1.map (·.1)).map
      (·.sceneLayer)) =
      (acquireUntilError acquire b.nextBuffer b.objects.slots).1.map (·.1.sceneLayer) := by
    rw [List.map_map]
    rfl
  have hexit := BuildEnd.exit_round (hlayers ▸ hpossible) b.demoted
  have hplacement : b.placement (ending.answers acquire) = (ending.placed, b.demoted) := by
    cases ending with
    | placement e => exact placeRounds_of_failed hexit _
    | _ => exact placeRounds_of_placed hexit _
  unfold LeavesInScratch
  rw [buildFrameInto, if_neg (by simp [hsuspended]), hacquire', hplacement]
  have hmodeset : (∀ e, ending ≠ .modeset e) → b.modeset (ending.answers acquire) = .ok () := by
    intro hno
    unfold FrameBuilder.modeset
    cases ending with
    | modeset e => exact absurd rfl (hno e)
    | _ => split <;> rfl
  cases ending with
  | modeset e =>
    have herror : b.modeset ((BuildEnd.modeset e).answers acquire) = .error e := if_pos hpossible
    rw [herror]
    exact ⟨rfl, by simp [BuildEnd.armingFails, BuildEnd.placed]⟩
  | placement e =>
    rw [hmodeset fun _ h => by cases h]
    cases e with
    | allocator e => exact ⟨rfl, by simp [BuildEnd.armingFails, BuildEnd.placed]⟩
    | arming e => exact ⟨rfl, iff_of_true ⟨hsuspended, rfl, rfl, e, rfl⟩ rfl⟩
  | output e =>
    rw [hmodeset fun _ h => by cases h]
    exact ⟨rfl, by simp [BuildEnd.armingFails, BuildEnd.placed]⟩
  | built =>
    rw [hmodeset fun _ h => by cases h]
    exact ⟨congrArg (fun layers => Except.ok (some layers)) hlayers,
      by simp [BuildEnd.armingFails, BuildEnd.placed]⟩

end FrameBuilder

/-- The layers of the state a build returns. -/
def SceneBuild.layers (built : SceneBuild) : Except Errc (Option (List LayerId)) :=
  built.result.map (Option.map fun f => f.acquisitions.map (·.sceneLayer))

namespace SceneState

/-- A state and a builder of one scene. -/
structure Matches (s : SceneState) (b : FrameBuilder) : Prop where
  objects : s.Over b.objects
  firstCommit : s.firstCommit = b.firstCommit

variable {dev : SceneDevice} {s : SceneState} {b : FrameBuilder} {q : FrameAnswers}
  {acquire : SourceId → Except Errc Unit} {flags : Flags} {testOnly : Bool}

/-- The builder acquires the layers the state acquires, from the same sources. -/
theorem Matches.acquisitions (h : s.Matches b) (dev : SceneDevice)
    (hanswers : AnswersFor b.objects.slots q acquire) :
    (acquireUntilError acquire b.nextBuffer b.objects.slots).1.map
        (fun a => (a.1.sceneLayer, a.2)) =
        ((s.prepared dev q).acquireAll q).1.map AcquiredLayer.asked ∧
      (acquireUntilError acquire b.nextBuffer b.objects.slots).2 =
        ended ((s.prepared dev q).acquireAll q).2.2 := by
  have hslots : (s.prepared dev q).slots.zipIdx.map (·.1.toSlot) = b.objects.slots := by
    rw [← ((sameObjects_prepared dev s q).keepsObjects h.objects).slots]
    conv_rhs => rw [← List.zipIdx_map_fst 0 (s.prepared dev q).slots, List.map_map]
    rfl
  rw [← hslots] at hanswers ⊢
  exact acquireUntilError_eq hanswers b.nextBuffer

/-- An arming pass that fails has a layer to arm. -/
theorem acquired_of_armPasses {s' : SceneState} {r : Round} {e : Errc}
    (h : s.armPasses dev r = (s', .error e)) : r.acquired ≠ [] := by
  intro hnil
  have herror := congrArg Prod.snd h
  unfold armPasses armAmdPlaneColor at herror
  rw [hnil] at herror
  cases herror

theorem result_of_acquire_error {e : Errc} (dev : SceneDevice) (flags : Flags) (testOnly : Bool)
    (hsuspended : s.suspended = false)
    (h : ((s.prepared dev q).acquireAll q).2.2 = some e) :
    (s.buildFrameInto dev q flags testOnly).result = .error e := by
  rw [buildFrameInto, if_neg (by simp [hsuspended])]
  generalize (s.prepared dev q).acquireAll q = all at h
  obtain ⟨acquired, skipped, error⟩ := all
  obtain rfl : error = some e := h
  rfl

theorem placeRound_of_armPasses {last s' : SceneState} {r : Round} {n : ℕ} {e : Errc}
    (happly : (last.dropStaleAllocation.applied dev r).result = .ok n)
    (harm : (last.dropStaleAllocation.afterApply dev r).armPasses dev r = (s', .error e))
    (request : AtomicRequest) (report : CommitReport) :
    last.placeRound dev r request report = .failed s' e := by
  unfold placeRound
  dsimp only
  rw [happly]
  dsimp only
  rw [harm]

/-- A build that acquires its layers ends in one of the ways that are possible for it. -/
theorem exists_buildEnd (dev : SceneDevice) (flags : Flags) (testOnly : Bool)
    (hsuspended : s.suspended = false)
    (hacquire : ((s.prepared dev q).acquireAll q).2.2 = none) :
    ∃ ending : BuildEnd,
      ending.Possible s.firstCommit (((s.prepared dev q).acquireAll q).1.map (·.sceneLayer)) ∧
      (s.buildFrameInto dev q flags testOnly).layers =
        ending.result (((s.prepared dev q).acquireAll q).1.map (·.sceneLayer)) ∧
      (ending.armingFails = true ↔ ArmingFails dev s q flags testOnly) := by
  cases hentry : s.entry dev q flags testOnly with
  | none =>
    have hnever : ¬ ArmingFails dev s q flags testOnly := by
      rintro ⟨e, -, -, -, -, hentered, -⟩
      rw [hentry] at hentered
      cases hentered
    unfold entry at hentry
    rw [if_neg (by simp [hsuspended])] at hentry
    unfold buildFrameInto
    rw [if_neg (by simp [hsuspended])]
    generalize hall : (s.prepared dev q).acquireAll q = all at hentry hacquire
    obtain ⟨acquired, skipped, error⟩ := all
    obtain rfl : error = none := hacquire
    dsimp only
    cases hbegin : (s.lowered dev q).beginModeset q with
    | ok begun =>
      rw [hbegin] at hentry
      cases hentry
    | error e =>
      refine ⟨.modeset e, ?_, rfl, iff_of_false Bool.false_ne_true hnever⟩
      refine Bool.not_eq_false _ |>.mp fun hlit => ?_
      have hlowered : (s.lowered dev q).firstCommit = s.firstCommit :=
        (sameObjects_prepared dev s q).firstCommit
      rw [beginModeset, hlowered, hlit] at hbegin
      cases hbegin
  | some e =>
    obtain ⟨spec, hbuild⟩ := entry_spec hentry
    rw [hbuild, placeAndFinish, spec.acquireAll]
    by_cases harming : ArmingFails dev s q flags testOnly
    · obtain ⟨entered, last, s', n, err, hentered, hlast, happly, harm⟩ := id harming
      rw [hentry] at hentered
      cases hentered
      rw [hlast, placeRound_of_armPasses happly harm]
      exact ⟨.placement (.arming err),
        fun hnil => acquired_of_armPasses harm (List.map_eq_nil_iff.mp hnil), rfl,
        iff_of_true rfl harming⟩
    · cases placeRounds dev e.round e.request e.report e.round.acquired.length e.scene with
      | failed s' err =>
        exact ⟨.placement (.allocator err), trivial, rfl, iff_of_false Bool.false_ne_true harming⟩
      | placed w feasible =>
        unfold finishBuild
        dsimp only
        split
        · rename_i err _
          exact ⟨.output err, trivial, rfl, iff_of_false Bool.false_ne_true harming⟩
        · exact ⟨.built, trivial, rfl, iff_of_false Bool.false_ne_true harming⟩

/-- Each build of the state is one that the builder makes of its objects: it returns the same
layers or fails with the same error, and its buffers stay in scratch exactly if a pass after `apply`
fails. -/
theorem Matches.exists_build (h : s.Matches b) (dev : SceneDevice)
    (hanswers : AnswersFor b.objects.slots q acquire) (flags : Flags) (testOnly : Bool) :
    ∃ a : BuildAnswers, a.acquire = acquire ∧
      (b.buildFrameInto a).result.map (Option.map (List.map (·.sceneLayer))) =
        (s.buildFrameInto dev q flags testOnly).layers ∧
      (b.LeavesInScratch a ↔ ArmingFails dev s q flags testOnly) := by
  obtain ⟨hfst, hsnd⟩ := h.acquisitions dev hanswers
  have hnoEntry : s.entry dev q flags testOnly = none → ¬ ArmingFails dev s q flags testOnly := by
    rintro hentry ⟨e, -, -, -, -, hentered, -⟩
    rw [hentry] at hentered
    cases hentered
  cases hsuspended : s.suspended with
  | true =>
    have hobjects : b.objects.suspended = true := h.objects.suspended ▸ hsuspended
    refine ⟨BuildEnd.built.answers acquire, rfl, ?_, iff_of_false ?_ (hnoEntry ?_)⟩
    · rw [buildFrameInto, FrameBuilder.buildFrameInto, if_pos hobjects, if_pos hsuspended]
      rfl
    · rintro ⟨hnot, -⟩
      rw [hobjects] at hnot
      cases hnot
    · rw [entry, if_pos hsuspended]
  | false =>
    have hobjects : b.objects.suspended = false := h.objects.suspended ▸ hsuspended
    cases herror : ((s.prepared dev q).acquireAll q).2.2 with
    | some e =>
      rw [herror] at hsnd
      refine ⟨BuildEnd.built.answers acquire, rfl, ?_, iff_of_false ?_ ?_⟩
      · rw [FrameBuilder.result_of_acquire_error hobjects hsnd, SceneBuild.layers,
          result_of_acquire_error dev flags testOnly hsuspended herror]
        rfl
      · rintro ⟨-, hok, -⟩
        cases hsnd.symm.trans hok
      · rintro ⟨entered, -, -, -, -, hentered, -⟩
        rw [(entry_spec hentered).1.acquireAll] at herror
        cases herror
    | none =>
      rw [herror] at hsnd
      have hlayers := congrArg (List.map Prod.fst) hfst
      rw [List.map_map, List.map_map] at hlayers
      obtain ⟨ending, hpossible, hresult, harming⟩ :=
        exists_buildEnd dev flags testOnly hsuspended herror
      obtain ⟨hbuilt, hleaves⟩ := FrameBuilder.buildFrameInto_answers hobjects hsnd
        (h.firstCommit ▸ hlayers ▸ hpossible)
      refine ⟨ending.answers acquire, rfl, ?_, hleaves.trans harming⟩
      rw [hbuilt, hresult]
      exact congrArg ending.result hlayers

end SceneState

/-! ### Commits -/

namespace FrameBuilder

variable {b : FrameBuilder} {a : BuildAnswers}

theorem objects_buildFrameInto (b : FrameBuilder) (a : BuildAnswers) :
    (b.buildFrameInto a).builder.objects = b.objects := by
  have hexits := exits_buildFrameInto b a
  generalize b.buildFrameInto a = c at hexits
  cases hexits <;> rfl

theorem firstCommit_buildFrameInto (b : FrameBuilder) (a : BuildAnswers) :
    (b.buildFrameInto a).builder.firstCommit = b.firstCommit := by
  have hexits := exits_buildFrameInto b a
  generalize b.buildFrameInto a = c at hexits
  cases hexits <;> rfl

end FrameBuilder

/-- What one call of the scene does to its objects. -/
inductive BuilderStep (wants : SourceId → Bool) (b : FrameBuilder) : FrameBuilder → Prop
  | addLayer (layer : SceneLayer) :
      BuilderStep wants b { b with objects := (b.objects.addLayer layer).1, demoted := [] }
  | removeLayer (h : LayerHandle) :
      BuilderStep wants b { b with objects := b.objects.removeLayer h, demoted := [] }
  | replaceSource (h : LayerHandle) (source : SourceId) :
      BuilderStep wants b { b with objects := b.objects.replaceSource h source, demoted := [] }
  | frame (a : BuildAnswers) (testOnly : Bool) (ending : FrameEnding) :
      BuilderStep wants b (b.frame a wants testOnly ending).builder
  /-- The drain of a pause or a rebind. -/
  | drain : BuilderStep wants b { b with objects := b.objects.drain }
  /-- What a resume, a rebind or a setting leaves of these. -/
  | restart (suspended firstCommit : Bool) (demoted : List LayerId) :
      BuilderStep wants b
        { b with objects := { b.objects with suspended }, firstCommit, demoted }

namespace SceneState

section

variable {dev : SceneDevice} {s s' : SceneState} {b : FrameBuilder} {q : FrameAnswers}
  {acquire : SourceId → Except Errc Unit}

theorem SameObjects.matches (h : SameObjects s s') (hb : s.Matches b) : s'.Matches b :=
  ⟨h.keepsObjects hb.objects, h.firstCommit.trans hb.firstCommit⟩

theorem testOnly_of_built {flags : Flags} {testOnly : Bool} {f : BuiltFrame}
    (h : (s.buildFrameInto dev q flags testOnly).result = .ok (some f)) :
    f.testOnly = testOnly := by
  cases hentry : s.entry dev q flags testOnly with
  | none =>
    obtain ⟨-, hsuspended⟩ | ⟨s', e, -, hfailed⟩ := entry_none hentry
    · rw [hsuspended] at h
      cases h
    · rw [hfailed] at h
      cases h
  | some e =>
    obtain ⟨spec, hbuild⟩ := entry_spec hentry
    rw [hbuild, placeAndFinish] at h
    split at h
    · cases h
    · unfold finishBuild at h
      dsimp only at h
      split at h
      · cases h
      · cases h
        exact spec.testOnly

/-- A rejected frame changes nothing of the objects, but a lost device suspends the scene. -/
structure Rejected (e : Errc) (s s' : SceneState) : Prop where
  slots : s'.slots = s.slots
  freeIds : s'.freeIds = s.freeIds
  suspended : s'.suspended = (s.suspended || decide (e = .permissionDenied))
  firstCommit : s'.firstCommit = s.firstCommit

theorem rejected_finalizeFrame (s : SceneState) (f : BuiltFrame) (e : Errc) :
    Rejected e s (s.finalizeFrame f (.error e)) := by
  by_cases hlost : e = .permissionDenied
  · subst hlost
    exact ⟨rfl, rfl, by simp [SceneState.finalizeFrame], rfl⟩
  · have hsame : (s.suspended || decide (e = .permissionDenied)) = s.suspended := by
      simp [hlost]
    unfold SceneState.finalizeFrame
    split
    · rename_i heq
      exact absurd (Except.error.inj heq) hlost
    · split <;> exact ⟨rfl, rfl, hsame.symm, rfl⟩
    · rename_i heq
      cases heq

/-- The objects are told what the state is told of the kernel's answer. -/
theorem Matches.finalizeFrame {c : FrameCall} (hb : s.Matches c.builder) (f : BuiltFrame)
    (kernel : Except Errc Unit) {as : List AcquisitionSlot} (hresult : c.result = .ok (some as))
    (wants : SourceId → Bool) (outFence : Option SyncFence) :
    (s.finalizeFrame f kernel).Matches
      (c.finish wants f.testOnly (.finalized kernel outFence)).builder := by
  have hover := hb.objects
  unfold FrameCall.finish
  rw [hresult]
  cases kernel with
  | error e =>
    have hrejected := rejected_finalizeFrame s f e
    exact ⟨⟨hrejected.slots ▸ hover.slots, hrejected.freeIds.trans hover.freeIds,
      hrejected.suspended.trans (congrArg (· || decide (e = .permissionDenied)) hover.suspended)⟩,
      hrejected.firstCommit.trans hb.firstCommit⟩
  | ok u =>
    unfold SceneState.finalizeFrame
    cases f.testOnly with
    | true => exact hb
    | false => exact ⟨⟨hover.slots, hover.freeIds, hover.suspended⟩, rfl⟩

theorem doCommit_of_not_returned {flags : Flags} {testOnly : Bool}
    (h : ¬ ∃ f, (s.buildFrameInto dev q flags testOnly).result = .ok (some f))
    (kernel : Except Errc Unit) : s.doCommit dev q flags testOnly kernel =
      (s.buildFrameInto dev q flags testOnly).scene := by
  unfold SceneState.doCommit
  dsimp only
  split
  · rename_i f hf
    exact absurd ⟨f, hf⟩ h
  · rfl

theorem finish_of_not_returned {c : FrameCall} (h : ¬ ∃ as, c.result = .ok (some as))
    (wants : SourceId → Bool) (testOnly : Bool) (ending : FrameEnding) :
    c.finish wants testOnly ending = c := by
  unfold FrameCall.finish
  split
  · rename_i as has
    exact absurd ⟨as, has⟩ h
  · rfl

/-- Calls that return as much return a state together. -/
theorem exists_returned {α β γ : Type*} {r : Except Errc (Option α)} {r' : Except Errc (Option β)}
    {f : α → γ} {g : β → γ} (h : r.map (Option.map f) = r'.map (Option.map g)) {y : β}
    (hy : r' = .ok (some y)) : ∃ x, r = .ok (some x) := by
  subst hy
  rcases r with _ | _ | x
  · cases h
  · cases h
  · exact ⟨x, rfl⟩

/-- A commit of the state is a frame of its objects. -/
theorem Matches.doCommit (hb : s.Matches b) (dev : SceneDevice)
    (hanswers : AnswersFor b.objects.slots q acquire) (flags : Flags) (testOnly : Bool)
    (kernel : Except Errc Unit) (wants : SourceId → Bool) (outFence : Option SyncFence) :
    ∃ a : BuildAnswers, a.acquire = acquire ∧
      (s.doCommit dev q flags testOnly kernel).Matches
        (b.frame a wants testOnly (.finalized kernel outFence)).builder := by
  obtain ⟨a, hacquire, hresult, -⟩ := hb.exists_build dev hanswers flags testOnly
  refine ⟨a, hacquire, ?_⟩
  have hbuilt : (s.buildFrameInto dev q flags testOnly).scene.Matches
      (b.buildFrameInto a).builder := by
    have hsame := (sameObjects_buildFrameInto dev s q flags testOnly).matches hb
    exact ⟨(b.objects_buildFrameInto a).symm ▸ hsame.objects,
      hsame.firstCommit.trans (b.firstCommit_buildFrameInto a).symm⟩
  by_cases hreturned : ∃ f, (s.buildFrameInto dev q flags testOnly).result = .ok (some f)
  · obtain ⟨f, hf⟩ := hreturned
    obtain ⟨as, has⟩ := exists_returned hresult hf
    unfold SceneState.doCommit FrameBuilder.frame
    dsimp only
    have hfinal := hbuilt.finalizeFrame f kernel has wants outFence
    rw [testOnly_of_built hf] at hfinal
    rw [hf]
    exact hfinal
  · have hnone : ¬ ∃ as, (b.buildFrameInto a).result = .ok (some as) := fun ⟨_, has⟩ =>
      hreturned (exists_returned hresult.symm has)
    rw [doCommit_of_not_returned hreturned, FrameBuilder.frame, finish_of_not_returned hnone]
    exact hbuilt

/-! ### Runs -/

/-- A layer owns its source. -/
def Unshared (slots : List Slot) : Prop :=
  ((slots.filterMap (·.sceneLayer)).map (·.source)).Nodup

/-- What a frame asks of the layers, their sources answer. -/
theorem exists_answersFor {slots : List Slot} (h : Unshared slots) (q : FrameAnswers) :
    ∃ acquire, AnswersFor slots q acquire := by
  refine ⟨fun source =>
    ((slots.filterMap (·.sceneLayer)).find? (·.source = source)).elim (.ok ()) fun layer =>
      (q.acquire layer.id).map fun _ => (), fun slot hslot layer hlayer => ?_⟩
  have hmem : layer ∈ slots.filterMap (·.sceneLayer) :=
    List.mem_filterMap.mpr ⟨slot, hslot, hlayer⟩
  dsimp only
  rw [find?_of_nodup_map h hmem, Option.elim_some]

theorem firstCommit_addLayer {new : NewLayer} {twin : Planes.LayerId} {hfree : twin ∉ s.twins}
    {hout : twin ∉ s.output.layers} {added : SceneState × LayerHandle}
    (h : s.addLayer new twin hfree hout = .ok added) :
    added.1.firstCommit = s.firstCommit := by
  unfold SceneState.addLayer at h
  split at h
  · cases h
  · cases h
    rfl

theorem firstCommit_removeLayer (s : SceneState) (h : LayerHandle) :
    (s.removeLayer h).firstCommit = s.firstCommit := by
  unfold SceneState.removeLayer
  split <;> rfl

theorem firstCommit_replaceSource {h : LayerHandle} {new : SceneSlot.NewSource}
    (hok : s.replaceSource h new = .ok s') : s'.firstCommit = s.firstCommit := by
  unfold SceneState.replaceSource at hok
  split at hok
  · cases hok
  · split at hok
    · cases hok
    · cases hok
      rfl

theorem firstCommit_setAttrs (s : SceneState) (h : LayerHandle) (attrs : LayerAttrs)
    (hints : Bool) : (s.setAttrs h attrs hints).firstCommit = s.firstCommit := by
  unfold SceneState.setAttrs
  split <;> rfl

/-- A pause, a resume or a rebind, which the objects know by what is drained and what is set
back. -/
theorem Matches.restart (hb : s.Matches b) (wants : SourceId → Bool)
    (hslots : s'.slots.map (·.toSlot) = s.slots.map (·.toSlot))
    (hfree : s'.freeIds = s.freeIds) :
    ∃ b', Relation.ReflTransGen (BuilderStep wants) b b' ∧ s'.Matches b' := by
  refine ⟨_, .tail (.single .drain) (.restart s'.suspended s'.firstCommit s'.demoted),
    ⟨hslots.trans hb.objects.slots, hfree.trans hb.objects.freeIds, rfl⟩, rfl⟩

/-- An edit, a frame or a change of the session is made of steps of the objects. -/
theorem Matches.step (hb : s.Matches b) (hs : s.Accounted) (hunshared : Unshared b.objects.slots)
    (wants : SourceId → Bool) (action : SceneAction) :
    ∃ b', Relation.ReflTransGen (BuilderStep wants) b b' ∧ (s.step action).Matches b' := by
  cases action with
  | addLayer new twin =>
    rw [SceneState.step]
    split
    · rename_i hfree
      cases hadd : s.addLayer new twin hfree.1 hfree.2 with
      | error e => exact ⟨b, .refl, hb⟩
      | ok added =>
        exact ⟨_, .single (.addLayer new.sceneLayer),
          (hb.objects.addLayer hs hadd).1, (firstCommit_addLayer hadd).trans hb.firstCommit⟩
    · exact ⟨b, .refl, hb⟩
  | removeLayer h =>
    exact ⟨_, .single (.removeLayer h), hb.objects.removeLayer h,
      (firstCommit_removeLayer s h).trans hb.firstCommit⟩
  | replaceSource h new =>
    rw [SceneState.step]
    cases hreplaced : s.replaceSource h new with
    | error e => exact ⟨b, .refl, hb⟩
    | ok s' =>
      exact ⟨_, .single (.replaceSource h new.source), hb.objects.replaceSource hreplaced,
        (firstCommit_replaceSource hreplaced).trans hb.firstCommit⟩
  | setAttrs h attrs hints =>
    exact ⟨b, .refl, hb.objects.setAttrs h attrs hints,
      (firstCommit_setAttrs s h attrs hints).trans hb.firstCommit⟩
  | commit dev q flags testOnly kernel =>
    obtain ⟨acquire, hanswers⟩ := exists_answersFor hunshared q
    obtain ⟨a, -, hcommit⟩ := hb.doCommit dev hanswers flags testOnly kernel wants none
    exact ⟨_, .single (.frame a testOnly _), hcommit⟩
  | pause =>
    exact hb.restart wants (by rw [SceneState.step, pause, List.map_map]; rfl) rfl
  | resume dev a =>
    rw [SceneState.step]
    cases hresume : s.resume dev a with
    | error e => exact ⟨b, .refl, hb⟩
    | ok s' =>
      have hresumed := resume_spec hresume
      exact hb.restart wants (congrArg _ hresumed.slots) hresumed.freeIds
  | rebind dev target mem =>
    rw [SceneState.step]
    cases hrebind : s.rebind dev target mem with
    | error e => exact ⟨b, .refl, hb⟩
    | ok rebound =>
      have hrebound := rebind_spec hrebind
      refine hb.restart wants ?_ hrebound.freeIds
      show rebound.1.slots.map (·.toSlot) = s.slots.map (·.toSlot)
      rw [hrebound.slots, TwinAddresses.retwin, List.map_map]
      conv_rhs => rw [← List.zipIdx_map_fst 0 s.slots, List.map_map]
      rfl
  | elsewhere left reset => exact hb.restart wants rfl rfl

/-- A life of the state is one of its objects, as long as no two layers have one source. -/
theorem Matches.run (hb : s.Matches b) (hs : s.Accounted) (wants : SourceId → Bool)
    {es : List SceneAction}
    (hunshared : Meets SceneState.step (fun s _ => Unshared (s.slots.map (·.toSlot))) s es) :
    ∃ b', Relation.ReflTransGen (BuilderStep wants) b b' ∧
      (Lib.run SceneState.step s es).Matches b' := by
  induction es generalizing s b with
  | nil => exact ⟨b, .refl, hb⟩
  | cons e es ih =>
    obtain ⟨b₁, hfirst, hb₁⟩ := hb.step hs (hb.objects.slots ▸ hunshared.1) wants e
    obtain ⟨b₂, hrest, hb₂⟩ := ih hb₁ (accounted_step hs e) hunshared.2
    exact ⟨b₂, hfirst.trans hrest, hb₂⟩

end

end SceneState

/-! ### One table -/

/-- The state of a scene, its objects, the table its caller's handles go through, and the scene as a
set has it as a member. -/
structure OneTable {S : Type*} (s : SceneState) (o : SceneObjects) (t : HandleTable S)
    (scene : MemberScene) : Prop where
  objects : s.Over o
  occupied : ∃ m, t.Refines m ∧ o.Occupies m.occupancy ∧ scene.layers.occupancy = m.occupancy
  mixing : t.streamUsable = true ↔ s.mixing ≠ .unsupported
  member : scene.streamUsable = t.streamUsable

namespace HandleTable

variable {S : Type*} (t : HandleTable S)

theorem streamUsable_occupy (source : S) (desc : LayerDesc) :
    (t.takeSlot.2.occupy t.takeSlot.1 source desc).1.streamUsable = t.streamUsable := by
  unfold occupy takeSlot
  split <;> rfl

theorem streamUsable_removeLayer (h : LayerHandle) :
    (t.removeLayer h).streamUsable = t.streamUsable := by
  unfold removeLayer
  split <;> rfl

end HandleTable

namespace OneTable

variable {S : Type*} {s : SceneState} {o : SceneObjects} {t : HandleTable S} {scene : MemberScene}

theorem mixing_addLayer {new : NewLayer} {twin : Planes.LayerId} {hfree : twin ∉ s.twins}
    {hout : twin ∉ s.output.layers} {added : SceneState × LayerHandle}
    (h : s.addLayer new twin hfree hout = .ok added) : added.1.mixing = s.mixing := by
  unfold SceneState.addLayer at h
  split at h
  · cases h
  · cases h
    rfl

theorem mixing_removeLayer (s : SceneState) (h : LayerHandle) :
    (s.removeLayer h).mixing = s.mixing := by
  unfold SceneState.removeLayer
  split <;> rfl

/-- A handle names a layer of every view, or of none. -/
theorem names (h : OneTable s o t scene) {handle : LayerHandle} {handle' : HandleTable.LayerHandle}
    (hsame : handle'.toHandle = handle.toHandle) :
    (s.slotFor handle).isSome = (o.slotFor handle).isSome ∧
      (t.slotFor handle').isSome = (o.slotFor handle).isSome ∧
      (scene.layers.find? handle.toHandle).isSome = (o.slotFor handle).isSome := by
  obtain ⟨m, hrefines, hoccupied, hmember⟩ := h.occupied
  have hfound : (o.slotFor handle).isSome = (m.find? handle.toHandle).isSome := by
    rw [hoccupied.slotFor_isSome, SlotMap.isSome_find?_occupancy]
  refine ⟨?_, ?_, ?_⟩
  · obtain ⟨hs, ho⟩ | ⟨slot, hs, -, ho, -⟩ := h.objects.slotFor_cases handle
    · rw [hs, ho]
      rfl
    · rw [hs, ho]
      rfl
  · rw [hfound, Bool.eq_iff_iff, hrefines.slotFor_isSome, hsame]
  · rw [hfound, ← SlotMap.isSome_find?_occupancy, hmember, SlotMap.isSome_find?_occupancy]

/-- Every view adds the layer under one handle, or all refuse it. -/
theorem addLayer (h : OneTable s o t scene) (hs : s.Accounted)
    (hroom : t.takeSlot.2.slots.length < 2 ^ 32)
    (hcounted : o.generationAt o.next + 1 < generationModulus) (new : NewLayer)
    (twin : Planes.LayerId) (hfree : twin ∉ s.twins) (hout : twin ∉ s.output.layers) (source : S) :
    (s.addLayer new twin hfree hout = .error .notSupported ∧
      t.addLayer ⟨some source, new.attrs.desc⟩ = (t, .error .notSupported) ∧
      scene.addLayer new.attrs.desc.bindingModel new.sceneLayer.id = .error .notSupported) ∨
    ∃ added handle' scene',
      s.addLayer new twin hfree hout = .ok added ∧
      (o.addLayer new.sceneLayer).2 = added.2 ∧
      (t.addLayer ⟨some source, new.attrs.desc⟩).2 = .ok handle' ∧
      scene.addLayer new.attrs.desc.bindingModel new.sceneLayer.id =
        .ok (scene', added.2.toHandle) ∧
      handle'.toHandle = added.2.toHandle ∧
      OneTable added.1 (o.addLayer new.sceneLayer).1
        (t.addLayer ⟨some source, new.attrs.desc⟩).1 scene' := by
  obtain ⟨m, hrefines, hoccupied, hmember⟩ := h.occupied
  have hrefused : (new.attrs.desc.bindingModel = .driverOwnsBinding ∧ ¬ t.streamUsable = true) ↔
      new.attrs.desc.bindingModel = .driverOwnsBinding ∧ s.mixing = .unsupported := by
    rw [h.mixing, not_not]
  by_cases hmodel :
      new.attrs.desc.bindingModel = .driverOwnsBinding ∧ s.mixing = .unsupported
  · left
    have hmodel' := hrefused.mpr hmodel
    refine ⟨if_pos hmodel, if_pos hmodel', if_pos ?_⟩
    rwa [h.member]
  · right
    have hmodel' := mt hrefused.mp hmodel
    have hadd : t.addLayer ⟨some source, new.attrs.desc⟩ =
        ((t.takeSlot.2.occupy t.takeSlot.1 source new.attrs.desc).1,
          .ok (t.takeSlot.2.occupy t.takeSlot.1 source new.attrs.desc).2) := if_neg hmodel'
    cases hok : s.addLayer new twin hfree hout with
    | error e =>
      unfold SceneState.addLayer at hok
      rw [if_neg hmodel] at hok
      cases hok
    | ok added =>
      have hunwrapped : m.occupancy.Unwrapped := by
        rw [SlotMap.Unwrapped, hoccupied.next_eq, hoccupied.generationAt_eq]
        exact hcounted
      obtain ⟨hover, hhandle⟩ := h.objects.addLayer hs hok
      obtain ⟨hoccupied', hnext⟩ := hoccupied.addLayer hunwrapped new.sceneLayer
      rw [SlotMap.nextHandle_occupancy] at hnext
      have hmnext : scene.layers.nextHandle = m.nextHandle := by
        rw [← SlotMap.nextHandle_occupancy, hmember, SlotMap.nextHandle_occupancy]
      rw [hadd]
      refine ⟨added, _, { scene with layers := (scene.layers.insert new.sceneLayer.id).1 }, rfl,
        hhandle.symm, rfl, ?_, ?_, hover, ⟨_, hrefines.occupy hroom source new.attrs.desc, ?_, ?_⟩,
        ?_, ?_⟩
      · rw [MemberScene.addLayer, if_neg (by rwa [h.member]), SlotMap.insert_snd, hmnext, hhandle,
          hnext]
      · rw [hrefines.toHandle_occupy hroom, hhandle, hnext]
      · rw [SlotMap.occupancy_insert]
        exact hoccupied'
      · rw [SlotMap.occupancy_insert, SlotMap.occupancy_insert, hmember]
      · rw [HandleTable.streamUsable_occupy, mixing_addLayer hok]
        exact h.mixing
      · exact h.member.trans (t.streamUsable_occupy source new.attrs.desc).symm

/-- Every view removes the layer a handle names. -/
theorem removeLayer (h : OneTable s o t scene) {handle : LayerHandle}
    {handle' : HandleTable.LayerHandle} (hsame : handle'.toHandle = handle.toHandle) :
    OneTable (s.removeLayer handle) (o.removeLayer handle) (t.removeLayer handle')
      (scene.removeLayer handle.toHandle) := by
  obtain ⟨m, hrefines, hoccupied, hmember⟩ := h.occupied
  refine ⟨h.objects.removeLayer handle, ⟨m.remove handle.toHandle, ?_, ?_, ?_⟩, ?_, ?_⟩
  · exact hsame ▸ hrefines.removeLayer handle'
  · rw [SlotMap.occupancy_remove]
    exact hoccupied.removeLayer handle
  · rw [SlotMap.occupancy_remove, ← hmember, ← SlotMap.occupancy_remove]
    rfl
  · rw [HandleTable.streamUsable_removeLayer, mixing_removeLayer]
    exact h.mixing
  · exact h.member.trans (t.streamUsable_removeLayer handle').symm

end OneTable

end DrmCxx.Scene
