import DrmCxx.Lib.Run
import DrmCxx.Lib.SlotMap
import DrmCxx.Scene.SceneEdits
import DrmCxx.Verification.Planes.Outcome
import DrmCxx.Verification.Planes.Trace
import DrmCxx.Verification.Scene.Kept

/-!
# Runs of a scene

A scene lives through its caller's edits, its frames, and its session. Through all of it the free
list holds the dead slots, every live layer is in the output, and no allocation puts a layer on two
planes.
-/

namespace DrmCxx.Scene

open Lib Modeset
open Planes (PlaneId Flags)
open Planes.Assignment (OnePlane onePlane_empty)

/-- What a scene goes through. -/
inductive SceneAction
  | addLayer (new : NewLayer) (twin : Planes.LayerId)
  | removeLayer (h : LayerHandle)
  | replaceSource (h : LayerHandle) (new : SceneSlot.NewSource)
  | setAttrs (h : LayerHandle) (attrs : LayerAttrs) (hints : Bool)
  | commit (dev : SceneDevice) (q : FrameAnswers) (flags : Flags) (testOnly : Bool)
      (kernel : Except Errc Unit)
  | pause
  | resume (dev : SceneDevice) (a : SceneState.ResumeAnswers)
  | rebind (dev : SceneDevice) (target : SceneTarget) (mem : TwinAddresses)
  /-- Whatever leaves the layers alone: a setting of the scene, or a rebind or a resume that fails
  midway, before or after it reset the allocator. -/
  | elsewhere (left : SceneState) (reset : Bool)

namespace SceneState

def step (s : SceneState) : SceneAction → SceneState
  | .addLayer new twin =>
    if h : twin ∉ s.twins ∧ twin ∉ s.output.layers then
      ((s.addLayer new twin h.1 h.2).toOption.map (·.1)).getD s
    else s
  | .removeLayer h => s.removeLayer h
  | .replaceSource h new => (s.replaceSource h new).toOption.getD s
  | .setAttrs h attrs hints => s.setAttrs h attrs hints
  | .commit dev q flags testOnly kernel => s.doCommit dev q flags testOnly kernel
  | .pause => s.pause
  | .resume dev a => (s.resume dev a).toOption.getD s
  | .rebind dev target mem => ((s.rebind dev target mem).toOption.map (·.1)).getD s
  | .elsewhere left reset =>
    { left with
      slots := s.slots
      nodupTwins := s.nodupTwins
      freeIds := s.freeIds
      output := s.output
      allocator :=
        if reset then {} else { s.allocator with forceFullWrites := left.forceFullWrites } }

/-! ### The table -/

/-- What the table and the allocator know of a slot. -/
def shape (slot : SceneSlot) : Bool × Bool × Planes.LayerId :=
  (slot.alive, slot.sceneLayer.isSome, slot.planesLayer)

/-- The table, the output and the allocation agree about the layers. -/
structure Accounted (s : SceneState) : Prop where
  nodupFree : s.freeIds.Nodup
  /-- The free list holds the dead slots. -/
  free : ∀ i, i ∈ s.freeIds ↔ ∃ slot, s.slots[i]? = some slot ∧ slot.alive = false
  filled : ∀ slot ∈ s.slots, slot.alive = true → slot.sceneLayer.isSome = true
  listed : ∀ slot ∈ s.slots, slot.live = true → slot.planesLayer ∈ s.output.layers
  onePlane : OnePlane s.allocator.previousAllocation

variable {s s' : SceneState}

/-- Only the shape of the table counts. -/
theorem Accounted.congr (hs : s.Accounted) (hshape : s'.slots.map shape = s.slots.map shape)
    (hfree : s'.freeIds = s.freeIds) (hout : s'.output.layers.Perm s.output.layers)
    (hone : OnePlane s'.allocator.previousAllocation) : s'.Accounted where
  nodupFree := hfree ▸ hs.nodupFree
  free i := by
    have hget : (s'.slots[i]?).map shape = (s.slots[i]?).map shape := by
      rw [← List.getElem?_map, ← List.getElem?_map, hshape]
    rw [hfree, hs.free i]
    cases hi : s.slots[i]? with
    | none => rw [hi, Option.map_none, Option.map_eq_none_iff] at hget; rw [hget]
    | some slot =>
      rw [hi, Option.map_some, Option.map_eq_some_iff] at hget
      obtain ⟨slot', hi', hsame⟩ := hget
      have halive : slot'.alive = slot.alive := congrArg Prod.fst hsame
      simp [hi', halive]
  filled slot' hslot' halive := by
    obtain ⟨slot, hslot, hsame⟩ :=
      List.mem_map.mp (hshape ▸ List.mem_map_of_mem (f := shape) hslot')
    rw [shape, shape, Prod.mk.injEq, Prod.mk.injEq] at hsame
    rw [← hsame.2.1]
    exact hs.filled slot hslot (hsame.1.trans halive)
  listed slot' hslot' hlive := by
    obtain ⟨slot, hslot, hsame⟩ :=
      List.mem_map.mp (hshape ▸ List.mem_map_of_mem (f := shape) hslot')
    rw [shape, shape, Prod.mk.injEq, Prod.mk.injEq] at hsame
    rw [← hsame.2.2]
    refine hout.mem_iff.mpr (hs.listed slot hslot ?_)
    rw [SceneSlot.live, hsame.1, hsame.2.1]
    exact hlive
  onePlane := hone

theorem countP_dead_eq_length {slots : List SceneSlot} {free : List ℕ} (hfree : free.Nodup)
    (h : ∀ i, i ∈ free ↔ ∃ slot, slots[i]? = some slot ∧ slot.alive = false) :
    slots.countP (!·.alive) = free.length := by
  have hindices : ((slots.zipIdx.filter (!·.1.alive)).map Prod.snd).Perm free := by
    refine (List.perm_ext_iff_of_nodup ?_ hfree).mpr fun i => ?_
    · have hnodup : (slots.zipIdx.map Prod.snd).Nodup := by
        rw [List.zipIdx_map_snd]
        exact List.nodup_range'
      exact hnodup.sublist (List.filter_sublist.map _)
    · rw [h i]
      simp [List.mem_zipIdx_iff_getElem?]
  rw [← hindices.length_eq, List.length_map, ← List.countP_eq_length_filter]
  have hfst : slots.zipIdx.countP (fun e => !e.1.alive) =
      (slots.zipIdx.map Prod.fst).countP (!·.alive) := by
    rw [List.countP_map]
    rfl
  rw [hfst, List.zipIdx_map_fst]

/-- `layer_count` counts the live layers. -/
theorem Accounted.layerCount_eq (hs : s.Accounted) : s.layerCount = s.liveSlots.length := by
  have hdead := countP_dead_eq_length hs.nodupFree hs.free
  have hlive : s.slots.countP (·.live) = s.slots.countP (·.alive) := by
    refine List.countP_congr fun slot hslot => ?_
    rw [SceneSlot.live, Bool.and_eq_true, and_iff_left_iff_imp]
    exact hs.filled slot hslot
  have hsplit :=
    List.length_eq_countP_add_countP (fun slot : SceneSlot => slot.alive) (l := s.slots)
  rw [layerCount, liveSlots, ← List.countP_eq_length_filter, hlive, ← hdead, hsplit]
  simp

/-! ### Edits -/

theorem map_modify {α : Type*} {g : SceneSlot → α} {f : SceneSlot → SceneSlot}
    (hf : ∀ slot, g (f slot) = g slot) (slots : List SceneSlot) (i : ℕ) :
    (slots.modify i f).map g = slots.map g := by
  induction slots generalizing i with
  | nil => cases i <;> rfl
  | cons slot slots ih =>
    cases i with
    | zero => rw [List.modify_zero_cons, List.map_cons, List.map_cons, hf]
    | succ i => rw [List.modify_succ_cons, List.map_cons, List.map_cons, ih]

theorem shape_exchangeSource (new : SceneSlot.NewSource) (slot : SceneSlot) :
    shape (slot.exchangeSource new) = shape slot := by
  simp [shape, SceneSlot.exchangeSource]

/-- Where `add_layer` puts its layer: the slot freed last, or a new one. -/
theorem mem_dropLast_freeIds (hs : s.Accounted) (i : ℕ) : i ∈ s.freeIds.dropLast ↔
    i ∈ s.freeIds ∧ i ≠ s.freeIds.getLast?.getD s.slots.length := by
  have hnodup := hs.nodupFree
  have hbound : ∀ j ∈ s.freeIds, j < s.slots.length := fun j hj => by
    obtain ⟨slot, hslot, -⟩ := (hs.free j).mp hj
    exact (List.getElem?_eq_some_iff.mp hslot).1
  rcases List.eq_nil_or_concat s.freeIds with hnil | ⟨init, last, hconcat⟩
  · simp [hnil]
  · rw [List.concat_eq_append] at hconcat
    rw [hconcat] at hnodup
    have hlast := (List.nodup_append.mp hnodup).2.2
    rw [hconcat, List.dropLast_concat, List.getLast?_concat, Option.getD_some, List.mem_append,
      List.mem_singleton]
    constructor
    · exact fun hi => ⟨.inl hi, hlast i hi last (List.mem_singleton.mpr rfl)⟩
    · exact fun hi => hi.1.resolve_right hi.2

theorem Accounted.next_le (hs : s.Accounted) :
    s.freeIds.getLast?.getD s.slots.length ≤ s.slots.length := by
  cases hlast : s.freeIds.getLast? with
  | none => exact le_refl _
  | some idx =>
    obtain ⟨slot, hslot, -⟩ := (hs.free idx).mp (List.mem_of_getLast? hlast)
    exact (List.getElem?_eq_some_iff.mp hslot).1.le

/-- `add_layer` fills one slot. -/
theorem exists_addedSlot {new : NewLayer} {twin : Planes.LayerId} {hfree : twin ∉ s.twins}
    {hout : twin ∉ s.output.layers} {added : SceneState × LayerHandle}
    (h : s.addLayer new twin hfree hout = .ok added) : ∃ slot : SceneSlot,
      slot.alive = true ∧ slot.live = true ∧ slot.planesLayer = twin ∧
      added.1.slots = putAt s.slots (s.freeIds.getLast?.getD s.slots.length) slot := by
  unfold addLayer at h
  split at h
  · cases h
  · cases h
    exact ⟨_, rfl, rfl, rfl, rfl⟩

theorem accounted_addLayer (hs : s.Accounted) {new : NewLayer} {twin : Planes.LayerId}
    {hfree : twin ∉ s.twins} {hout : twin ∉ s.output.layers} {added : SceneState × LayerHandle}
    (h : s.addLayer new twin hfree hout = .ok added) : added.1.Accounted := by
  obtain ⟨filled, halive, hlive, htwin, hslots⟩ := exists_addedSlot h
  unfold addLayer at h
  split at h
  · cases h
  · cases h
    constructor
    · exact hs.nodupFree.sublist (List.dropLast_sublist _)
    · intro i
      rw [mem_dropLast_freeIds hs, hslots, getElem?_putAt hs.next_le, hs.free i]
      split
      · rename_i heq
        simp [heq, halive]
      · rename_i hne
        simp [hne]
    · intro slot hslot hfilled
      rcases mem_of_mem_putAt hslot with hold | rfl
      · exact hs.filled slot hold hfilled
      · rfl
    · intro slot hslot hlive
      rcases mem_of_mem_putAt hslot with hold | rfl
      · exact List.mem_append_left _ (hs.listed slot hold hlive)
      · exact List.mem_append_right _ (List.mem_singleton.mpr rfl)
    · exact hs.onePlane

/-- The slot a handle names is alive. -/
theorem slotFor_eq_some {h : LayerHandle} {slot : SceneSlot} (hslot : s.slotFor h = some slot) :
    h.id ≠ 0 ∧ s.slots[h.id - 1]? = some slot ∧ slot.alive = true ∧
      slot.generation = h.generation := by
  unfold slotFor at hslot
  split at hslot
  · cases hslot
  · rename_i hid
    obtain ⟨hget, hnamed⟩ := Option.filter_eq_some_iff.mp hslot
    rw [Bool.and_eq_true, decide_eq_true_eq] at hnamed
    exact ⟨hid, hget, hnamed⟩

/-- No two slots share a `planes::Layer`. -/
theorem index_of_twin {i j : ℕ} {a b : SceneSlot} (ha : s.slots[i]? = some a)
    (halive : a.live = true) (hb : s.slots[j]? = some b) (hblive : b.live = true)
    (h : a.planesLayer = b.planesLayer) : i = j := by
  have hpairs := s.nodupTwins
  rw [List.Nodup, List.pairwise_map, List.pairwise_filter, List.pairwise_iff_getElem] at hpairs
  obtain ⟨hi, rfl⟩ := List.getElem?_eq_some_iff.mp ha
  obtain ⟨hj, rfl⟩ := List.getElem?_eq_some_iff.mp hb
  rcases lt_trichotomy i j with hlt | heq | hgt
  · exact absurd h (hpairs i j hi hj hlt halive hblive)
  · exact heq
  · exact absurd h.symm (hpairs j i hj hi hgt hblive halive)

theorem forgetLayer_onePlane {a : Planes.Allocator} (h : OnePlane a.previousAllocation)
    (l : Planes.LayerId) : OnePlane (a.forgetLayer l).previousAllocation :=
  h.subset fun _ he => (Table.mem_filter.mp he).1

theorem accounted_removeLayer (hs : s.Accounted) (h : LayerHandle) :
    (s.removeLayer h).Accounted := by
  unfold removeLayer
  split
  · exact hs
  · rename_i slot hslot
    obtain ⟨-, hget, halive, -⟩ := slotFor_eq_some hslot
    have hmodify : s.slots.modify (h.id - 1) SceneSlot.cleared =
        s.slots.set (h.id - 1) slot.cleared := by
      rw [List.modify_eq_set_getElem?, hget]
      rfl
    have hlive : slot.live = true := by
      rw [SceneSlot.live, halive, hs.filled slot (List.mem_of_getElem? hget) halive]
      rfl
    have hnotfree : h.id - 1 ∉ s.freeIds := fun hmem => by
      obtain ⟨slot', hget', hdead⟩ := (hs.free _).mp hmem
      rw [hget] at hget'
      cases hget'
      rw [halive] at hdead
      cases hdead
    constructor
    · exact List.nodup_append.mpr ⟨hs.nodupFree, List.nodup_singleton _, fun i hi j hj hij =>
        hnotfree (by rw [← List.mem_singleton.mp hj, ← hij]; exact hi)⟩
    · intro i
      show i ∈ s.freeIds ++ [h.id - 1] ↔
        ∃ slot, (s.slots.modify (h.id - 1) SceneSlot.cleared)[i]? = some slot ∧ slot.alive = false
      rw [hmodify, List.mem_append, List.mem_singleton, hs.free i, List.getElem?_set]
      by_cases heq : h.id - 1 = i
      · have hbound : h.id - 1 < s.slots.length := (List.getElem?_eq_some_iff.mp hget).1
        rw [if_pos heq, if_pos (heq ▸ hbound)]
        exact ⟨fun _ => ⟨_, rfl, rfl⟩, fun _ => .inr heq.symm⟩
      · rw [if_neg heq]
        exact ⟨fun h => h.resolve_right fun h => heq h.symm, .inl⟩
    · intro slot' hslot' halive'
      have hslot' : slot' ∈ s.slots.modify (h.id - 1) SceneSlot.cleared := hslot'
      rw [hmodify] at hslot'
      rcases List.mem_or_eq_of_mem_set hslot' with hold | rfl
      · exact hs.filled slot' hold halive'
      · cases halive'
    · intro slot' hslot' hlive'
      have hslot' : slot' ∈ s.slots.modify (h.id - 1) SceneSlot.cleared := hslot'
      obtain ⟨i, hi⟩ := List.mem_iff_getElem?.mp hslot'
      rw [hmodify, List.getElem?_set] at hi
      split at hi
      · split at hi
        · cases hi
          cases hlive'
        · cases hi
      · rename_i hne
        refine (List.mem_erase_of_ne fun htwin => hne ?_).mpr
          (hs.listed slot' (List.mem_of_getElem? hi) hlive')
        exact index_of_twin hget hlive hi hlive' htwin.symm
    · exact forgetLayer_onePlane hs.onePlane _

/-! ### Frames -/

section Build

variable (dev : SceneDevice)

theorem map_withoutPin_pinStreams (s : SceneState) (q : FrameAnswers) (taken : List PlaneId)
    (slots : List SceneSlot) : (s.pinStreams dev q taken slots).map SceneSlot.withoutPin =
      slots.map SceneSlot.withoutPin := by
  induction slots generalizing taken with
  | nil => rfl
  | cons slot slots ih =>
    rw [pinStreams, List.map_cons, List.map_cons, ih]
    rfl

/-- Binding streams changes pins alone. -/
theorem map_withoutPin_prepared (s : SceneState) (q : FrameAnswers) :
    (s.prepared dev q).slots.map SceneSlot.withoutPin = s.slots.map SceneSlot.withoutPin := by
  unfold prepared ensureStreamLayerPins
  split
  · rfl
  · exact map_withoutPin_pinStreams dev _ q _ _

theorem map_shape_prepared (s : SceneState) (q : FrameAnswers) :
    (s.prepared dev q).slots.map shape = s.slots.map shape := by
  have hpins := congrArg (List.map shape) (map_withoutPin_prepared dev s q)
  rw [List.map_map, List.map_map] at hpins
  exact hpins

theorem prepared_output (s : SceneState) (q : FrameAnswers) :
    (s.prepared dev q).output = s.output := by
  unfold prepared ensureStreamLayerPins
  split <;> rfl

theorem prepared_allocator (s : SceneState) (q : FrameAnswers) :
    (s.prepared dev q).allocator = s.allocator := by
  unfold prepared ensureStreamLayerPins
  split <;> rfl

theorem accounted_prepared (hs : s.Accounted) (q : FrameAnswers) :
    (s.prepared dev q).Accounted :=
  hs.congr (map_shape_prepared dev s q) (s.prepared_freeIds dev q)
    (by rw [prepared_output]) (by rw [prepared_allocator]; exact hs.onePlane)

theorem Accounted.held (hs : s.Accounted) (h : Held s s') : s'.Accounted :=
  hs.congr (by rw [h.kept.slots]) h.kept.freeIds (by rw [h.output])
    (by rw [h.allocation]; exact hs.onePlane)

theorem accounted_afterApply (hs : s.Accounted) (r : Round) : (s.afterApply dev r).Accounted :=
  hs.congr rfl rfl (Planes.Allocator.apply_layers_perm _ _ _)
    (Planes.Allocator.apply_onePlane _ _ hs.onePlane)

theorem accounted_placeRound (hs : s.Accounted) (r : Round) (request : AtomicRequest)
    (report : CommitReport) : (s.placeRound dev r request report).scene.Accounted :=
  (accounted_afterApply dev (hs.held s.held_dropStaleAllocation) r).held
    (held_placeRound dev r request report s)

/-- Every turn of the placement loop starts from an accounted scene, and the last one is the
loop's. -/
theorem lastRound (hs : s.Accounted) (r : Round) (request : AtomicRequest) (report : CommitReport)
    (fuel : ℕ) : ∃ s', s'.Accounted ∧ Kept s s' ∧
      placeRounds dev r request report fuel s = s'.placeRound dev r request report := by
  obtain ⟨s', ⟨hs', hkept⟩, heq⟩ := placeRounds_eq_round dev r request report
    (fun s' => s'.Accounted ∧ Kept s s') (fun s' w victim hs' hround => by
      have haccounted := accounted_placeRound dev hs'.1 r request report
      have hkept := kept_placeRound dev r request report s'
      rw [hround] at haccounted hkept
      have hdemote := w.scene.held_demote victim
      exact ⟨Accounted.held haccounted hdemote, (hs'.2.trans hkept).trans hdemote.kept⟩)
    fuel ⟨hs, .refl s⟩
  exact ⟨s', hs', hkept, heq⟩

theorem accounted_buildFrameInto (hs : s.Accounted) (q : FrameAnswers) (flags : Flags)
    (testOnly : Bool) : (s.buildFrameInto dev q flags testOnly).scene.Accounted := by
  have hprepared := accounted_prepared dev hs q
  cases hentry : s.entry dev q flags testOnly with
  | none =>
    obtain ⟨-, hsuspended⟩ | ⟨s', e, hheld, hfailed⟩ := entry_none hentry
    · rw [hsuspended]
      exact hs
    · rw [hfailed]
      exact hprepared.held hheld
  | some e =>
    obtain ⟨spec, hbuild⟩ := entry_spec hentry
    obtain ⟨s', hs', -, heq⟩ := lastRound dev (hprepared.held spec.held) e.round e.request e.report
      e.round.acquired.length
    have hround := accounted_placeRound dev hs' e.round e.request e.report
    rw [hbuild, placeAndFinish, heq]
    cases hended : s'.placeRound dev e.round e.request e.report with
    | failed s₁ err =>
      rw [hended] at hround
      exact hround
    | placed w feasible =>
      rw [hended] at hround
      have hcomposed := (Accounted.held hround (w.still_composeUnassigned dev e.round.answers
        w.scene.verifyFlags e.round.acquired).held)
      unfold finishBuild
      dsimp only
      split <;> exact hcomposed.congr rfl rfl (.refl _) hcomposed.onePlane

theorem accounted_finalizeFrame (hs : s.Accounted) (f : BuiltFrame) (kernel : Except Errc Unit) :
    (s.finalizeFrame f kernel).Accounted := by
  unfold finalizeFrame
  split
  · exact hs.congr rfl rfl (.refl _) hs.onePlane
  · split
    · exact hs.congr rfl rfl (.refl _) hs.onePlane
    · exact hs
  · split
    · exact hs
    · exact hs.congr rfl rfl (.refl _) hs.onePlane

theorem accounted_doCommit (hs : s.Accounted) (q : FrameAnswers) (flags : Flags) (testOnly : Bool)
    (kernel : Except Errc Unit) : (s.doCommit dev q flags testOnly kernel).Accounted := by
  have hbuilt := accounted_buildFrameInto dev hs q flags testOnly
  unfold doCommit
  dsimp only
  split
  · exact accounted_finalizeFrame hbuilt _ kernel
  · exact hbuilt

end Build

/-! ### The run -/

theorem accounted_rebind {dev : SceneDevice} (hs : s.Accounted) {target : SceneTarget}
    {mem : TwinAddresses} {rebound : SceneState × List LayerHandle}
    (h : s.rebind dev target mem = .ok rebound) : rebound.1.Accounted := by
  have hrebound := rebind_spec h
  have hget : ∀ i : ℕ, rebound.1.slots[i]? = (s.slots[i]?).map fun slot =>
      { slot with planesLayer := mem.twin i, streamPinnedPlaneId := none } := by
    intro i
    rw [hrebound.slots]
    simp [TwinAddresses.retwin, List.getElem?_zipIdx, Option.map_map, Function.comp_def]
  constructor
  · exact hrebound.freeIds ▸ hs.nodupFree
  · intro i
    rw [hrebound.freeIds, hs.free i, hget i]
    simp
  · intro slot hslot halive
    obtain ⟨i, hi⟩ := List.mem_iff_getElem?.mp hslot
    obtain ⟨old, hold, rfl⟩ := Option.map_eq_some_iff.mp ((hget i).symm.trans hi)
    exact hs.filled old (List.mem_of_getElem? hold) halive
  · intro slot hslot hlive
    rw [hrebound.layers, ← mem.twins_retwin, ← hrebound.slots]
    exact List.mem_map_of_mem (f := (·.planesLayer)) (List.mem_filter.mpr ⟨hslot, hlive⟩)
  · exact hrebound.allocation ▸ onePlane_empty

theorem accounted_create {dev : SceneDevice} {config : SceneConfig} {placeholder : Planes.LayerId}
    (h : create dev config placeholder = .ok s) : s.Accounted := by
  unfold create at h
  split at h
  · cases h
  · obtain ⟨properties, -, heq⟩ := exists_of_map_ok h
    cases heq
    exact
      { nodupFree := List.nodup_nil
        free := fun i => by simp
        filled := fun slot hslot => absurd hslot List.not_mem_nil
        listed := fun slot hslot => absurd hslot List.not_mem_nil
        onePlane := onePlane_empty }

theorem accounted_step (hs : s.Accounted) (e : SceneAction) : (s.step e).Accounted := by
  cases e with
  | addLayer new twin =>
    rw [step]
    split
    · rename_i hfree
      cases hadd : s.addLayer new twin hfree.1 hfree.2 with
      | error e => exact hs
      | ok added => exact accounted_addLayer hs hadd
    · exact hs
  | removeLayer h => exact accounted_removeLayer hs h
  | replaceSource h new =>
    rw [step, replaceSource]
    split
    · exact hs
    · split
      · exact hs
      · exact hs.congr (map_modify (shape_exchangeSource new) _ _) rfl (.refl _) hs.onePlane
  | setAttrs h attrs hints =>
    rw [step, setAttrs]
    split
    · exact hs
    · exact hs.congr (map_modify (f := SceneSlot.withAttrs attrs) (fun _ => rfl) _ _) rfl
        (.refl _) hs.onePlane
  | commit dev q flags testOnly kernel => exact accounted_doCommit dev hs q flags testOnly kernel
  | pause =>
    refine hs.congr ?_ rfl (.refl _) hs.onePlane
    show (s.slots.map SceneSlot.withoutPin).map shape = s.slots.map shape
    rw [List.map_map]
    rfl
  | resume dev a =>
    rw [step]
    cases hresume : s.resume dev a with
    | error e => exact hs
    | ok s' =>
      have hresumed := resume_spec hresume
      exact hs.congr (congrArg _ hresumed.slots) hresumed.freeIds
        (.of_eq (congrArg _ hresumed.output)) (hresumed.allocation ▸ onePlane_empty)
  | rebind dev target mem =>
    rw [step]
    cases hrebind : s.rebind dev target mem with
    | error e => exact hs
    | ok rebound => exact accounted_rebind hs hrebind
  | elsewhere left reset =>
    refine hs.congr rfl rfl (.refl _) ?_
    rw [step]
    cases reset with
    | true => exact onePlane_empty
    | false => exact hs.onePlane

/-- A scene's table, output and allocation agree through its whole life. -/
theorem accounted_of_run {dev : SceneDevice} {config : SceneConfig} {placeholder : Planes.LayerId}
    (h : create dev config placeholder = .ok s) (es : List SceneAction) :
    (run step s es).Accounted := by
  have hstep : ∀ s e, Accounted s → Accounted (step s e) := fun _ e hs => accounted_step hs e
  exact run_always hstep (accounted_create h) es

end SceneState

/-! ### A small scene -/

namespace SmallScene

/-- A CRTC with a PRIMARY and an OVERLAY, and a kernel that accepts every TEST. -/
def device : SceneDevice where
  planes := Planes.Controller.device
  traits _ := { formats := [1] }
  objectProperties crtc connector := .ok { crtcId := crtc, connectorId := connector }
  test _ _ _ := none

def config : SceneConfig where
  crtcId := 7
  connectorId := 20
  mode := { hdisplay := 640, vdisplay := 480 }
  mixing := .mixed

/-- The scene just created, with its composition placeholder at address 9. -/
def created : SceneState where
  crtcId := 7
  connectorId := 20
  mode := config.mode
  properties := { crtcId := 7, connectorId := 20 }
  slots := []
  nodupTwins := List.nodup_nil
  output := ⟨7, [], 9, List.nodup_nil⟩
  heap _ := {}
  primaryZposHint := some 0
  mixing := .mixed

/-- A layer of 10 by 10 pixels. -/
def newLayer (layer : SceneLayer) (bindingModel : BindingModel) : NewLayer where
  sceneLayer := layer
  attrs :=
    { desc :=
        { display := { srcRect := ⟨0, 0, 10, 10⟩, dstRect := ⟨0, 0, 10, 10⟩ }
          format := ⟨1, 0, 10, 10⟩
          bindingModel } }

/-- Every source has a frame, and there is no canvas. -/
def answers : FrameAnswers where
  acquire _ := .ok { fbId := 50 }
  mapForRead _ := none
  modeBlob := .ok 5
  hdrBlob _ := .error .invalidArgument
  colorBlob _ := .error .invalidArgument
  createCanvas _ := none
  kernel _ := 0

end SmallScene

end DrmCxx.Scene
