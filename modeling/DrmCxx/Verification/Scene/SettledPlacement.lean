import DrmCxx.Verification.Scene.SceneRun

/-!
# The planes of a settled placement

When the placement loop of a build is done, each acquired layer is on a plane for one of two
reasons: the allocation has a plane for it that it did not lose, or the scene pinned it. The
allocation holds layers of the table only, the ones skipped in this frame among them.
-/

namespace DrmCxx.Scene

open Lib Modeset
open Planes (PlaneId Flags Heap)

/-- The action puts no layer at the address of the composition placeholder, a member of the
scene. -/
def SceneAction.Spares (placeholder : Planes.LayerId) : SceneAction → Prop
  | .addLayer _ twin => twin ≠ placeholder
  | .rebind _ _ mem => ∀ i, mem.twin i ≠ placeholder
  | _ => True

namespace SceneState

variable {s s' s'' : SceneState}

/-! ### The table and the output -/

/-- The layers and their output are the same, in whatever order. -/
structure SameTable (s s' : SceneState) : Prop where
  shape : s'.slots.map shape = s.slots.map shape
  layers : s'.output.layers.Perm s.output.layers
  placeholder : s'.output.compositionLayer = s.output.compositionLayer

theorem SameTable.refl (s : SceneState) : SameTable s s := ⟨rfl, .refl _, rfl⟩

theorem SameTable.trans (h : SameTable s s') (h' : SameTable s' s'') : SameTable s s'' :=
  ⟨h'.shape.trans h.shape, h'.layers.trans h.layers, h'.placeholder.trans h.placeholder⟩

theorem Held.sameTable (h : Held s s') : SameTable s s' :=
  ⟨by rw [h.kept.slots], by rw [h.output], by rw [h.output]⟩

theorem twins_of_shape (h : s'.slots.map shape = s.slots.map shape) : s'.twins = s.twins := by
  have htwins : ∀ s : SceneState, s.twins =
      ((s.slots.map shape).filter fun e => e.1 && e.2.1).map fun e => e.2.2 := by
    intro s
    rw [List.filter_map, List.map_map]
    rfl
  rw [htwins, htwins, h]

/-- The output holds layers of the table, and the placeholder is none of them. -/
structure Tabled (address : Planes.LayerId) (s : SceneState) : Prop where
  listed : ∀ l ∈ s.output.layers, l ∈ s.twins
  placeholder : s.output.compositionLayer = address
  spared : address ∉ s.twins

variable {address : Planes.LayerId}

theorem Tabled.congr (hs : s.Tabled address) (h : SameTable s s') : s'.Tabled address where
  listed l hl := by
    rw [twins_of_shape h.shape]
    exact hs.listed l (h.layers.subset hl)
  placeholder := h.placeholder.trans hs.placeholder
  spared := by
    rw [twins_of_shape h.shape]
    exact hs.spared

theorem mem_twins {l : Planes.LayerId} : l ∈ s.twins ↔
    ∃ (i : ℕ) (slot : SceneSlot), s.slots[i]? = some slot ∧ slot.live = true ∧
      slot.planesLayer = l := by
  rw [twins, liveSlots, List.mem_map]
  constructor
  · rintro ⟨slot, hslot, rfl⟩
    obtain ⟨hmem, hlive⟩ := List.mem_filter.mp hslot
    obtain ⟨i, hi⟩ := List.mem_iff_getElem?.mp hmem
    exact ⟨i, slot, hi, hlive, rfl⟩
  · rintro ⟨i, slot, hi, hlive, rfl⟩
    exact ⟨slot, List.mem_filter.mpr ⟨List.mem_of_getElem? hi, hlive⟩, rfl⟩

theorem tabled_addLayer (hs : s.Tabled address) (haccounted : s.Accounted) {new : NewLayer}
    {twin : Planes.LayerId} {hfree : twin ∉ s.twins} {hout : twin ∉ s.output.layers}
    (hspares : twin ≠ address) {added : SceneState × LayerHandle}
    (h : s.addLayer new twin hfree hout = .ok added) : added.1.Tabled address := by
  obtain ⟨filled, -, hfilled, htwin, hslots⟩ := exists_addedSlot h
  unfold addLayer at h
  split at h
  · cases h
  · -- the new layer takes a slot without a layer
    have hdead : ∀ slot, s.slots[s.freeIds.getLast?.getD s.slots.length]? = some slot →
        slot.live = false := by
      intro slot hslot
      cases hlast : s.freeIds.getLast? with
      | none =>
        rw [hlast, Option.getD_none, List.getElem?_eq_none le_rfl] at hslot
        cases hslot
      | some i =>
        obtain ⟨slot', hslot', hdead⟩ := (haccounted.free i).mp (List.mem_of_getLast? hlast)
        rw [hlast, Option.getD_some, hslot'] at hslot
        cases hslot
        rw [SceneSlot.live, hdead]
        rfl
    cases h
    refine ⟨fun l hl => ?_, hs.placeholder, fun hmem => ?_⟩
    · rw [mem_twins]
      rcases List.mem_append.mp hl with hold | hnew
      · obtain ⟨i, slot, hi, hlive, rfl⟩ := mem_twins.mp (hs.listed l hold)
        have hne : i ≠ s.freeIds.getLast?.getD s.slots.length := fun heq => by
          rw [hdead slot (heq ▸ hi)] at hlive
          cases hlive
        exact ⟨i, slot, by rw [hslots, getElem?_putAt haccounted.next_le, if_neg hne, hi], hlive,
          rfl⟩
      · rw [List.mem_singleton.mp hnew]
        exact ⟨_, filled, by rw [hslots, getElem?_putAt haccounted.next_le, if_pos rfl], hfilled,
          htwin⟩
    · obtain ⟨i, slot, hi, hlive, haddress⟩ := mem_twins.mp hmem
      rcases mem_of_mem_putAt (List.mem_of_getElem? hi) with hold | rfl
      · obtain ⟨j, hj⟩ := List.mem_iff_getElem?.mp hold
        exact hs.spared (mem_twins.mpr ⟨j, slot, hj, hlive, haddress⟩)
      · exact hspares haddress

theorem tabled_removeLayer (hs : s.Tabled address) (h : LayerHandle) :
    (s.removeLayer h).Tabled address := by
  unfold removeLayer
  split
  · exact hs
  · rename_i slot hslot
    obtain ⟨-, hget, halive, -⟩ := slotFor_eq_some hslot
    have hkeeps : ∀ (i : ℕ) (slot' : SceneSlot), slot'.live = true →
        ((s.slots.modify (h.id - 1) SceneSlot.cleared)[i]? = some slot' ↔
          i ≠ h.id - 1 ∧ s.slots[i]? = some slot') := by
      intro i slot' hlive'
      rw [List.getElem?_modify]
      by_cases heq : h.id - 1 = i
      · subst heq
        rw [hget]
        simp only [if_pos, Option.map_eq_map, Option.map_some, Option.some.injEq, ne_eq,
          not_true_eq_false, false_and, iff_false]
        rintro rfl
        cases hlive'
      · simp [heq, Ne.symm heq]
    refine ⟨fun l hl => ?_, hs.placeholder, fun hmem => ?_⟩
    · have hl : l ∈ s.output.layers.erase slot.planesLayer := hl
      obtain ⟨hne, hold⟩ := s.output.nodupLayers.mem_erase_iff.mp hl
      obtain ⟨i, slot', hi, hlive', rfl⟩ := mem_twins.mp (hs.listed l hold)
      refine mem_twins.mpr
        ⟨i, slot', (hkeeps i slot' hlive').mpr ⟨fun heq => hne ?_, hi⟩, hlive', rfl⟩
      rw [heq, hget] at hi
      cases hi
      rfl
    · obtain ⟨i, slot', hi, hlive', haddress⟩ := mem_twins.mp hmem
      exact hs.spared (mem_twins.mpr
        ⟨i, slot', ((hkeeps i slot' hlive').mp hi).2, hlive', haddress⟩)

theorem tabled_rebind {dev : SceneDevice} (hs : s.Tabled address) {target : SceneTarget}
    {mem : TwinAddresses} (hspares : ∀ i, mem.twin i ≠ address)
    {rebound : SceneState × List LayerHandle} (h : s.rebind dev target mem = .ok rebound) :
    rebound.1.Tabled address := by
  have hrebound := rebind_spec h
  have htwins : rebound.1.twins = mem.liveTwins s.slots := by
    rw [twins, liveSlots, hrebound.slots, mem.twins_retwin]
  refine ⟨fun l hl => ?_, hrebound.placeholder.trans hs.placeholder, fun hmem => ?_⟩
  · rw [htwins, ← hrebound.layers]
    exact hl
  · rw [htwins] at hmem
    obtain ⟨e, -, htwin⟩ := List.mem_map.mp hmem
    exact hspares e.2 htwin

/-! ### Through a build -/

section Build

variable (dev : SceneDevice)

theorem sameTable_prepared (s : SceneState) (q : FrameAnswers) :
    SameTable s (s.prepared dev q) :=
  ⟨map_shape_prepared dev s q, by rw [prepared_output], by rw [prepared_output]⟩

theorem sameTable_placeRound (r : Round) (request : AtomicRequest) (report : CommitReport)
    (s : SceneState) : SameTable s (s.placeRound dev r request report).scene := by
  have happly : SameTable s.dropStaleAllocation (s.dropStaleAllocation.afterApply dev r) :=
    ⟨rfl, Planes.Allocator.apply_layers_perm _ _ _, rfl⟩
  exact (s.held_dropStaleAllocation.sameTable.trans happly).trans
    (held_placeRound dev r request report s).sameTable

theorem sameTable_placeRounds (r : Round) (request : AtomicRequest) (report : CommitReport)
    (fuel : ℕ) (s : SceneState) :
    SameTable s (placeRounds dev r request report fuel s).scene := by
  obtain ⟨s', hs', heq⟩ := placeRounds_eq_round dev r request report (SameTable s)
    (fun s' w victim hs' hround => by
      have hw := sameTable_placeRound dev r request report s'
      rw [hround] at hw
      exact (hs'.trans hw).trans (w.scene.held_demote victim).sameTable) fuel (.refl s)
  rw [heq]
  exact hs'.trans (sameTable_placeRound dev r request report s')

theorem sameTable_buildFrameInto (s : SceneState) (q : FrameAnswers) (flags : Flags)
    (testOnly : Bool) : SameTable s (s.buildFrameInto dev q flags testOnly).scene := by
  have hprepared := sameTable_prepared dev s q
  cases hentry : s.entry dev q flags testOnly with
  | none =>
    obtain ⟨-, hsuspended⟩ | ⟨s', e, hheld, hfailed⟩ := entry_none hentry
    · rw [hsuspended]
      exact .refl s
    · rw [hfailed]
      exact hprepared.trans hheld.sameTable
  | some e =>
    obtain ⟨spec, hbuild⟩ := entry_spec hentry
    have hrounds := (hprepared.trans spec.held.sameTable).trans
      (sameTable_placeRounds dev e.round e.request e.report e.round.acquired.length e.scene)
    rw [hbuild, placeAndFinish]
    cases hended : placeRounds dev e.round e.request e.report e.round.acquired.length e.scene with
    | failed s₁ err =>
      rw [hended] at hrounds
      exact hrounds
    | placed w feasible =>
      rw [hended] at hrounds
      have hcomposed := hrounds.trans (w.still_composeUnassigned dev e.round.answers
        w.scene.verifyFlags e.round.acquired).held.sameTable
      unfold finishBuild
      dsimp only
      split <;> exact hcomposed.trans ⟨rfl, .refl _, rfl⟩

theorem sameTable_finalizeFrame (s : SceneState) (f : BuiltFrame) (kernel : Except Errc Unit) :
    SameTable s (s.finalizeFrame f kernel) := by
  unfold finalizeFrame
  split
  · exact ⟨rfl, .refl _, rfl⟩
  · split <;> exact ⟨rfl, .refl _, rfl⟩
  · split <;> exact ⟨rfl, .refl _, rfl⟩

theorem sameTable_doCommit (s : SceneState) (q : FrameAnswers) (flags : Flags) (testOnly : Bool)
    (kernel : Except Errc Unit) : SameTable s (s.doCommit dev q flags testOnly kernel) := by
  have hbuilt := sameTable_buildFrameInto dev s q flags testOnly
  unfold doCommit
  dsimp only
  split
  · exact hbuilt.trans (sameTable_finalizeFrame _ _ kernel)
  · exact hbuilt

end Build

/-! ### The run -/

theorem tabled_step (hs : s.Tabled address) (haccounted : s.Accounted) {e : SceneAction}
    (hspares : e.Spares address) : (s.step e).Tabled address := by
  cases e with
  | addLayer new twin =>
    rw [step]
    split
    · rename_i hfree
      cases hadd : s.addLayer new twin hfree.1 hfree.2 with
      | error e => exact hs
      | ok added => exact tabled_addLayer hs haccounted hspares hadd
    · exact hs
  | removeLayer h => exact tabled_removeLayer hs h
  | replaceSource h new =>
    rw [step, replaceSource]
    split
    · exact hs
    · split
      · exact hs
      · exact hs.congr ⟨map_modify (shape_exchangeSource new) _ _, .refl _, rfl⟩
  | setAttrs h attrs hints =>
    rw [step, setAttrs]
    split
    · exact hs
    · exact hs.congr
        ⟨map_modify (f := SceneSlot.withAttrs attrs) (fun _ => rfl) _ _, .refl _, rfl⟩
  | commit dev q flags testOnly kernel =>
    exact hs.congr (sameTable_doCommit dev s q flags testOnly kernel)
  | pause =>
    refine hs.congr ⟨?_, .refl _, rfl⟩
    show (s.slots.map SceneSlot.withoutPin).map shape = s.slots.map shape
    rw [List.map_map]
    rfl
  | resume dev a =>
    rw [step]
    cases hresume : s.resume dev a with
    | error e => exact hs
    | ok s' =>
      have hresumed := resume_spec hresume
      exact hs.congr ⟨congrArg _ hresumed.slots, .of_eq (congrArg _ hresumed.output),
        congrArg _ hresumed.output⟩
  | rebind dev target mem =>
    rw [step]
    cases hrebind : s.rebind dev target mem with
    | error e => exact hs
    | ok rebound => exact tabled_rebind hs hspares hrebind
  | elsewhere left reset => exact hs.congr ⟨rfl, .refl _, rfl⟩

theorem tabled_create {dev : SceneDevice} {config : SceneConfig}
    (h : create dev config address = .ok s) : s.Tabled address := by
  unfold create at h
  split at h
  · cases h
  · obtain ⟨properties, -, heq⟩ := exists_of_map_ok h
    cases heq
    exact ⟨fun l hl => absurd hl List.not_mem_nil, rfl, List.not_mem_nil⟩

theorem tabled_of_run {dev : SceneDevice} {config : SceneConfig}
    (h : create dev config address = .ok s) (es : List SceneAction)
    (hes : ∀ e ∈ es, e.Spares address) : (run step s es).Tabled address := by
  have hstep : ∀ (s : SceneState) (e : SceneAction), s.Accounted ∧ s.Tabled address →
      e.Spares address → (s.step e).Accounted ∧ (s.step e).Tabled address :=
    fun s e hs he => ⟨accounted_step hs.1 e, tabled_step hs.2 hs.1 he⟩
  exact (run_invariant hstep ⟨accounted_create h, tabled_create h⟩ (meets_of_forall hes _)).2

/-! ### Acquisition -/

/-- The layer's source has no frame to contribute. -/
def waits (q : FrameAnswers) (slot : SceneSlot) : Bool :=
  slot.live && slot.sceneLayer.any fun l =>
    match q.acquire l.id with
    | .error .resourceUnavailableTryAgain => true
    | _ => false

/-- The slots an acquisition skips, with their indices. -/
def waiting (q : FrameAnswers) (slots : List (SceneSlot × ℕ)) : List (SceneSlot × ℕ) :=
  slots.filter (waits q ·.1)

/-- Slots with the handles of their layers. -/
def withHandles (slots : List (SceneSlot × ℕ)) : List (SceneSlot × ℕ) :=
  slots.map fun e => (e.1, e.2 + 1)

def slotsAcquired (as : List AcquiredLayer) : List (SceneSlot × ℕ) :=
  as.map fun a => (a.slot, a.handle)

/-- Each live layer is acquired or skipped. -/
theorem acquireSlots_spec (q : FrameAnswers) (slots : List (SceneSlot × ℕ))
    (h : (acquireSlots q slots).2.2 = none) :
    (slotsAcquired (acquireSlots q slots).1 ++ withHandles (waiting q slots)).Perm
        (withHandles (slots.filter (·.1.live))) ∧
      (acquireSlots q slots).2.1 = (waiting q slots).length := by
  induction slots with
  | nil => exact ⟨.refl _, rfl⟩
  | cons e slots ih =>
    obtain ⟨slot, idx⟩ := e
    rw [acquireSlots] at h ⊢
    split at h
    · rename_i layer hlive hlayer
      cases hacquire : q.acquire layer.id with
      | ok buffer =>
        have hwaits : waits q slot = false := by simp [waits, hlive, hlayer, hacquire]
        rw [hacquire] at h
        obtain ⟨hperm, hcount⟩ := ih h
        simp only [waiting, List.filter_cons, hlive, hwaits]
        exact ⟨hperm.cons _, hcount⟩
      | error err =>
        rw [hacquire] at h
        cases err with
        | resourceUnavailableTryAgain =>
          have hwaits : waits q slot = true := by simp [waits, hlive, hlayer, hacquire]
          obtain ⟨hperm, hcount⟩ := ih h
          simp only [waiting, List.filter_cons, hlive, hwaits]
          exact ⟨List.perm_middle.trans (hperm.cons _), congrArg (· + 1) hcount⟩
        | _ => cases h
    · rename_i hdead
      have hlive : slot.live = false := by
        cases hl : slot.live with
        | false => rfl
        | true =>
          rw [SceneSlot.live, Bool.and_eq_true, Option.isSome_iff_exists] at hl
          obtain ⟨layer, hlayer⟩ := hl.2
          exact absurd hlayer (hdead layer (by rw [SceneSlot.live, hl.1, hlayer]; rfl))
      have hwaits : waits q slot = false := by simp [waits, hlive]
      obtain ⟨hperm, hcount⟩ := ih h
      simp only [waiting, List.filter_cons, hlive, hwaits]
      exact ⟨hperm, hcount⟩

/-! ### The settled placement -/

/-- What the tallies are taken from: the placement loop's outcome, before the canvas is composed. -/
def settled (dev : SceneDevice) (s : SceneState) (q : FrameAnswers) (flags : Flags)
    (testOnly : Bool) : Option (Round × Placing) :=
  (s.entry dev q flags testOnly).bind fun e =>
    match placeRounds dev e.round e.request e.report e.round.acquired.length e.scene with
    | .failed _ _ => none
    | .placed w _ => some (e.round, w)

/-- A layer left to the composition holds no plane and is not pinned. -/
def Bare (heap : Heap) (l : Planes.LayerId) : Prop :=
  (heap l).needsComposition = true → (heap l).assignedPlane = none ∧ (heap l).pinned = false

/-- A pinned layer has its plane. -/
def Upheld (heap : Heap) (l : Planes.LayerId) : Prop :=
  (heap l).pinned = true → (heap l).assignedPlane.isSome = true

/-- A layer of the allocation is on a plane unless it was left to the composition since; another one
is on a plane exactly if it is pinned. -/
structure Housed (b : Planes.Assignment) (heap : Heap) (l : Planes.LayerId) : Prop where
  bare : Bare heap l
  placed : b.hasLayer l = true →
    (heap l).assignedPlane.isSome = true ∨ (heap l).needsComposition = true
  aside : b.hasLayer l = false → (heap l).assignedPlane.isSome = (heap l).pinned

theorem Housed.upheld {b : Planes.Assignment} {heap : Heap} {l : Planes.LayerId}
    (h : Housed b heap l) : Upheld heap l := by
  intro hpinned
  cases hlayer : b.hasLayer l with
  | true =>
    refine (h.placed hlayer).resolve_right fun hneeds => ?_
    rw [(h.bare hneeds).2] at hpinned
    cases hpinned
  | false => rw [h.aside hlayer, hpinned]

/-- The three kinds of a layer on a plane and off it. -/
theorem Housed.onPlane {b : Planes.Assignment} {heap : Heap} {l : Planes.LayerId}
    (h : Housed b heap l) : (heap l).assignedPlane.isSome =
      (b.hasLayer l && !(heap l).needsComposition || !b.hasLayer l && (heap l).pinned) := by
  cases hlayer : b.hasLayer l with
  | false => rw [h.aside hlayer]; rfl
  | true =>
    cases hneeds : (heap l).needsComposition with
    | true => rw [(h.bare hneeds).1]; rfl
    | false =>
      rw [(h.placed hlayer).resolve_right (by rw [hneeds]; exact Bool.false_ne_true)]
      rfl

end SceneState

namespace Placing

open SceneState

variable {dev : SceneDevice} {w : Placing}

/-! ### Hard pins -/

theorem housed_update {b : Planes.Assignment} {heap : Heap} {l l' : Planes.LayerId}
    {placed : Planes.Layer} (h : Housed b heap l)
    (hplaced : l = l' → Housed b (Function.update heap l' placed) l) :
    Housed b (Function.update heap l' placed) l := by
  by_cases hl : l = l'
  · exact hplaced hl
  · have hsame : Function.update heap l' placed l = heap l := Function.update_of_ne hl _ _
    exact ⟨by rw [Bare, hsame]; exact h.bare, by rw [hsame]; exact h.placed,
      by rw [hsame]; exact h.aside⟩

theorem housed_armPinnedLayer {b : Planes.Assignment} {l : Planes.LayerId}
    (h : Housed b w.scene.heap l) (flags : Flags) (a : AcquiredLayer) :
    Housed b (w.armPinnedLayer dev flags a).scene.heap l := by
  unfold armPinnedLayer
  dsimp only [testRequest]
  split
  · rename_i p hpinned hpin
    have hplace : Housed b (Function.update w.scene.heap a.layer
        { w.scene.heap a.layer with assignedPlane := some p }) l := by
      refine housed_update h ?_
      rintro rfl
      -- a pinned layer is not left to the composition
      have hneeds : (w.scene.heap a.layer).needsComposition = false := by
        cases hneeds : (w.scene.heap a.layer).needsComposition with
        | false => rfl
        | true =>
          rw [(h.bare hneeds).2] at hpinned
          cases hpinned
      constructor <;> simp [Bare, hneeds, hpinned]
    split
    · exact hplace
    · split
      · exact hplace
      · exact hplace
      · refine (?_ : Housed b (Function.update w.scene.heap a.layer { w.scene.heap a.layer with
          pinned := false, assignedPlane := none, needsComposition := true }) l)
        refine housed_update h ?_
        rintro rfl
        constructor <;> simp [Bare]
  · exact h

theorem housed_armPinnedLayers {b : Planes.Assignment} {l : Planes.LayerId}
    (h : Housed b w.scene.heap l) (flags : Flags) (as : List AcquiredLayer) :
    Housed b (w.armPinnedLayers dev flags as).scene.heap l := by
  unfold armPinnedLayers
  induction as generalizing w with
  | nil => exact h
  | cons a as ih => exact ih (housed_armPinnedLayer h flags a)

/-- The report of a placement, but for the pins that failed. -/
def Tallies (r r' : CommitReport) : Prop :=
  ∃ pinsFailed, r' = { r with pinsFailed := pinsFailed }

theorem tallies_armPinnedLayer (dev : SceneDevice) (w : Placing) (flags : Flags)
    (a : AcquiredLayer) : Tallies w.report (w.armPinnedLayer dev flags a).report := by
  unfold armPinnedLayer
  dsimp only [testRequest]
  split
  · split
    · exact ⟨_, rfl⟩
    · split <;> exact ⟨_, rfl⟩
  · exact ⟨_, rfl⟩

theorem tallies_armPinnedLayers (dev : SceneDevice) (w : Placing) (flags : Flags)
    (as : List AcquiredLayer) : Tallies w.report (w.armPinnedLayers dev flags as).report := by
  unfold armPinnedLayers
  induction as generalizing w with
  | nil => exact ⟨_, rfl⟩
  | cons a as ih =>
    obtain ⟨n, hn⟩ := tallies_armPinnedLayer dev w flags a
    obtain ⟨m, hm⟩ := ih (w.armPinnedLayer dev flags a)
    exact ⟨m, by rw [List.foldl_cons, hm, hn]⟩

end Placing

namespace SceneState

variable {dev : SceneDevice} {s : SceneState}

/-- The reservation gives every pinned layer of the frame its plane. -/
theorem upheld_reservePin {l : Planes.LayerId} {acc : SceneState × List PlaneId × ℕ}
    {a : AcquiredLayer} (h : l = a.layer ∨ Upheld acc.1.heap l) :
    Upheld (reservePin dev acc a).1.heap l := by
  unfold reservePin
  dsimp only
  by_cases hl : l = a.layer
  · subst hl
    split
    · simp [Upheld]
    · split <;> simp [Upheld]
  · have hother : ∀ placed : Planes.Layer,
        Upheld (Function.update acc.1.heap a.layer placed) l := by
      intro placed
      rw [Upheld, Function.update_of_ne hl]
      exact h.resolve_left hl
    split
    · exact hother _
    · split
      · exact hother _
      · refine (?_ : Upheld (Function.update (Function.update acc.1.heap a.layer _) a.layer _) l)
        rw [Upheld, Function.update_of_ne hl]
        exact hother _

theorem upheld_reservePlanes (as : List AcquiredLayer) :
    ∀ a ∈ as, Upheld (s.reservePlanes dev as).1.heap a.layer := by
  have hfold : ∀ (as : List AcquiredLayer) (acc : SceneState × List PlaneId × ℕ)
      (l : Planes.LayerId), (∃ a ∈ as, l = a.layer) ∨ Upheld acc.1.heap l →
        Upheld (as.foldl (reservePin dev) acc).1.heap l := by
    intro as
    induction as with
    | nil =>
      rintro acc l (⟨a, ha, -⟩ | h)
      · cases ha
      · exact h
    | cons a as ih =>
      rintro acc l (⟨a', ha', hl⟩ | h)
      · rcases List.mem_cons.mp ha' with rfl | ha'
        · exact ih _ l (.inr (upheld_reservePin (.inl hl)))
        · exact ih _ l (.inl ⟨a', ha', hl⟩)
      · exact ih _ l (.inr (upheld_reservePin (.inr h)))
  exact fun a ha => hfold as _ a.layer (.inl ⟨a, ha, rfl⟩)

/-- The end of a turn arms the pins, if it can, and looks for a canvas plane. -/
theorem settle_cases {r : Round} {w w' : Placing} {feasible : Bool}
    (h : w.settle dev r = .placed w' feasible) :
    ∃ w₁, (w₁ = w ∨ w₁ = w.armPinnedLayers dev w.scene.verifyFlags r.acquired) ∧
      w'.scene.heap = w₁.scene.heap ∧ w'.report = w₁.report := by
  simp only [Placing.settle, RoundEnd.placed.injEq] at h
  obtain ⟨rfl, -⟩ := h
  refine ⟨_, ?_, (Placing.still_canvasPlaneFeasible dev _ r.answers w.scene.verifyFlags
    r.acquired).heap, rfl⟩
  split
  · exact .inr rfl
  · exact .inl rfl

/-- It keeps housed layers housed, and the tallies. -/
theorem settle_spec {r : Round} {w w' : Placing} {feasible : Bool}
    (h : w.settle dev r = .placed w' feasible) :
    (∀ b l, Housed b w.scene.heap l → Housed b w'.scene.heap l) ∧
      Placing.Tallies w.report w'.report := by
  obtain ⟨w₁, rfl | rfl, hheap, hreport⟩ := settle_cases h
  · rw [hheap, hreport]
    exact ⟨fun b l hl => hl, _, rfl⟩
  · rw [hheap, hreport]
    exact ⟨fun b l hl => Placing.housed_armPinnedLayers hl _ _,
      Placing.tallies_armPinnedLayers _ _ _ _⟩

/-- The streams among the acquired layers. -/
def streams (as : List AcquiredLayer) : ℕ := as.countP (·.slot.streamPinnedPlaneId.isSome)

/-- What a turn of the placement loop that places has counted. -/
structure RoundSpec (s : SceneState) (r : Round) (report : CommitReport) (w : Placing) : Prop where
  accounted : w.scene.Accounted
  kept : Kept s w.scene
  sameTable : SameTable s w.scene
  report : ∃ pinsFailed, w.report = { report with
    layersAssigned := w.scene.allocator.previousAllocation.size + streams r.acquired
    pinsFailed := pinsFailed }
  values : w.scene.allocator.previousAllocation.values ⊆ s.output.layers
  housed : ∀ l ∈ s.output.layers, l ≠ s.output.compositionLayer → Upheld s.heap l →
    Housed w.scene.allocator.previousAllocation w.scene.heap l

theorem housed_afterApply {r : Round} {n : ℕ} (hok : (s.applied dev r).result = .ok n)
    {l : Planes.LayerId} (hl : l ∈ s.output.layers) (hscene : l ≠ s.output.compositionLayer)
    (hupheld : Upheld s.heap l) : Housed (s.afterApply dev r).allocator.previousAllocation
      (s.afterApply dev r).heap l := by
  have hlayer : (s.allocatorFrame r).heap l = s.heap l := Function.update_of_ne hscene _ _
  have hassigned : ((s.afterApply dev r).heap l).assignedPlane.isSome =
      ((s.afterApply dev r).allocator.previousAllocation.hasLayer l ||
        ((s.allocatorFrame r).heap l).pinned &&
          ((s.allocatorFrame r).heap l).assignedPlane.isSome) :=
    Planes.Allocator.apply_assigned hok hl hscene
  have hpinned : ((s.afterApply dev r).heap l).pinned = ((s.allocatorFrame r).heap l).pinned :=
    Planes.Allocator.apply_pinned
  rw [hlayer] at hassigned hpinned
  constructor
  · intro hneeds
    obtain ⟨hnone, hfree⟩ := Planes.Allocator.apply_composited (f := s.allocatorFrame r) hl hneeds
    exact ⟨hnone, Planes.Allocator.apply_pinned.trans hfree⟩
  · intro hhas
    rw [hassigned, hhas, Bool.true_or]
    exact .inl rfl
  · intro hnot
    rw [hassigned, hnot, Bool.false_or, hpinned]
    cases hp : (s.heap l).pinned with
    | false => rfl
    | true => rw [hupheld hp]; rfl

theorem heap_dropStaleAllocation (s : SceneState) : s.dropStaleAllocation.heap = s.heap := by
  unfold dropStaleAllocation
  split <;> rfl

/-- A turn that places has applied an allocation and armed it before it settled. -/
theorem placeRound_placed {r : Round} {request : AtomicRequest} {report : CommitReport}
    {w : Placing} {feasible : Bool}
    (h : s.placeRound dev r request report = .placed w feasible) :
    ∃ (n : ℕ) (w₀ : Placing), (s.dropStaleAllocation.applied dev r).result = .ok n ∧
      w₀.scene.heap = (s.dropStaleAllocation.afterApply dev r).heap ∧
      w₀.report = { report with layersAssigned := n + streams r.acquired } ∧
      w₀.settle dev r = .placed w feasible := by
  unfold placeRound at h
  dsimp only at h
  cases happly : (s.dropStaleAllocation.applied dev r).result with
  | error e =>
    rw [happly] at h
    cases h
  | ok n =>
    have hstill := (s.dropStaleAllocation.afterApply dev r).still_armPasses dev r
    rw [happly] at h
    dsimp only at h
    generalize (s.dropStaleAllocation.afterApply dev r).armPasses dev r = armed at h hstill
    obtain ⟨s', writes⟩ := armed
    cases writes with
    | error e => cases h
    | ok writes => exact ⟨n, _, rfl, hstill.heap, rfl, h⟩

theorem placeRound_spec (hs : s.Accounted) {r : Round} {request : AtomicRequest}
    {report : CommitReport} {w : Placing} {feasible : Bool}
    (h : s.placeRound dev r request report = .placed w feasible) : RoundSpec s r report w := by
  have haccounted := accounted_placeRound dev hs r request report
  have hkept := kept_placeRound dev r request report s
  have hheld := held_placeRound dev r request report s
  have htable := sameTable_placeRound dev r request report s
  rw [h] at haccounted hkept hheld htable
  have hheld : Held _ w.scene := hheld
  have hout : s.dropStaleAllocation.output = s.output := s.held_dropStaleAllocation.output
  obtain ⟨n, w₀, happly, hheap, hbefore, hsettle⟩ := placeRound_placed h
  obtain ⟨hhoused, pinsFailed, hreport⟩ := settle_spec hsettle
  have hsize : n = w.scene.allocator.previousAllocation.size := by
    rw [hheld.allocation]
    exact Planes.Allocator.apply_size happly
  refine ⟨haccounted, hkept, htable, ⟨pinsFailed, by rw [hreport, hbefore, hsize]⟩, ?_,
    fun l hl hscene hupheld => hhoused _ l ?_⟩
  · rw [hheld.allocation, ← hout]
    exact Planes.Allocator.apply_values (f := s.dropStaleAllocation.allocatorFrame r) happly
  · rw [hheap, hheld.allocation]
    exact housed_afterApply happly (by rw [hout]; exact hl) (by rw [hout]; exact hscene)
      (by rw [heap_dropStaleAllocation]; exact hupheld)

/-- What a settled placement is the placement of. -/
structure SettledSpec (dev : SceneDevice) (s : SceneState) (q : FrameAnswers) (r : Round)
    (w : Placing) : Prop where
  answers : r.answers = q
  acquireAll : (s.prepared dev q).acquireAll q =
    (r.acquired, w.report.layersSkippedNoFrame, none)
  report : ∃ pinsFailed, w.report =
    { layersTotal := s.layerCount
      layersAssigned := w.scene.allocator.previousAllocation.size + streams r.acquired
      layersSkippedNoFrame := w.report.layersSkippedNoFrame
      pinsFailed := pinsFailed }
  onePlane : Planes.Assignment.OnePlane w.scene.allocator.previousAllocation
  values : w.scene.allocator.previousAllocation.values ⊆ s.twins
  housed : ∀ a ∈ r.acquired,
    Housed w.scene.allocator.previousAllocation w.scene.heap a.layer

variable {q : FrameAnswers} {flags : Flags} {testOnly : Bool}

theorem layerCount_prepared (dev : SceneDevice) (s : SceneState) (q : FrameAnswers) :
    (s.prepared dev q).layerCount = s.layerCount := by
  have hlength := congrArg List.length (map_shape_prepared dev s q)
  rw [List.length_map, List.length_map] at hlength
  rw [layerCount, layerCount, hlength, s.prepared_freeIds dev q]

/-- What an acquisition without an error acquired and skipped. -/
structure AcquiredAll (s : SceneState) (q : FrameAnswers) (as : List AcquiredLayer)
    (skipped : ℕ) : Prop where
  slots : (slotsAcquired as ++ withHandles (waiting q s.slots.zipIdx)).Perm
    (withHandles (s.slots.zipIdx.filter (·.1.live)))
  skipped : skipped = (waiting q s.slots.zipIdx).length

theorem acquiredAll {as : List AcquiredLayer} {skipped : ℕ}
    (h : s.acquireAll q = (as, skipped, none)) : AcquiredAll s q as skipped := by
  have hspec := acquireSlots_spec q s.slots.zipIdx (by rw [← acquireAll, h])
  rw [← acquireAll, h] at hspec
  exact ⟨hspec.1, hspec.2⟩

/-- An acquired layer is one of the table's. -/
theorem slot_of_acquired {as : List AcquiredLayer} {skipped : ℕ}
    (h : s.acquireAll q = (as, skipped, none)) {a : AcquiredLayer} (ha : a ∈ as) :
    a.slot ∈ s.slots ∧ a.slot.live = true := by
  have hmem : (a.slot, a.handle) ∈ withHandles (s.slots.zipIdx.filter (·.1.live)) :=
    (acquiredAll h).slots.subset (List.mem_append_left _ (List.mem_map_of_mem ha))
  obtain ⟨e, he, heq⟩ := List.mem_map.mp hmem
  obtain ⟨hzip, hlive⟩ := List.mem_filter.mp he
  have hslot : e.1 = a.slot := congrArg Prod.fst heq
  rw [← hslot]
  exact ⟨List.fst_mem_of_mem_zipIdx hzip, hlive⟩

/-- A build comes to the placement loop with its pinned layers on their planes. -/
theorem entry_upheld {e : Entry} (h : s.entry dev q flags testOnly = some e) :
    ∀ a ∈ e.round.acquired, Upheld e.scene.heap a.layer := by
  unfold entry at h
  split at h
  · cases h
  · split at h
    · cases h
      exact upheld_reservePlanes _
    · cases h

/-- A layer of the table is in the output, where the placeholder is not. -/
theorem Tabled.listed_twin {address : Planes.LayerId} (htabled : s.Tabled address)
    {s' : SceneState} (hsame : SameTable s s') (hs' : s'.Accounted) {l : Planes.LayerId}
    (htwin : l ∈ s.twins) : l ∈ s'.output.layers ∧ l ≠ s'.output.compositionLayer := by
  refine ⟨?_, fun heq => ?_⟩
  · rw [← twins_of_shape hsame.shape] at htwin
    obtain ⟨i, slot, hi, hlive, hslot⟩ := mem_twins.mp htwin
    rw [← hslot]
    exact hs'.listed slot (List.mem_of_getElem? hi) hlive
  · rw [heq, hsame.placeholder, htabled.placeholder] at htwin
    exact htabled.spared htwin

variable (dev) in
/-- Every turn of the placement loop starts with the pinned layers on their planes, and the last one
is the loop's. -/
theorem lastRound_upheld {address : Planes.LayerId} (hs : s.Accounted) (htabled : s.Tabled address)
    {r : Round} (request : AtomicRequest) (report : CommitReport) (fuel : ℕ)
    (hlayers : ∀ a ∈ r.acquired, a.layer ∈ s.twins)
    (hupheld : ∀ a ∈ r.acquired, Upheld s.heap a.layer) :
    ∃ s', s'.Accounted ∧ Kept s s' ∧ SameTable s s' ∧
      (∀ a ∈ r.acquired, a.layer ∈ s'.output.layers ∧ a.layer ≠ s'.output.compositionLayer ∧
        Upheld s'.heap a.layer) ∧
      placeRounds dev r request report fuel s = s'.placeRound dev r request report := by
  have hlisted : ∀ s', SameTable s s' → s'.Accounted → ∀ a ∈ r.acquired,
      a.layer ∈ s'.output.layers ∧ a.layer ≠ s'.output.compositionLayer :=
    fun s' hsame hs' a ha => htabled.listed_twin hsame hs' (hlayers a ha)
  obtain ⟨s', ⟨hs', hkept, hsame, hup⟩, heq⟩ := placeRounds_eq_round dev r request report
    (fun s' => s'.Accounted ∧ Kept s s' ∧ SameTable s s' ∧ ∀ a ∈ r.acquired, Upheld s'.heap a.layer)
    (fun s' w victim ⟨hs', hkept, hsame, hup⟩ hround => by
      have hspec := placeRound_spec hs' hround
      have hdemote := w.scene.held_demote victim
      refine ⟨hspec.accounted.held hdemote, (hkept.trans hspec.kept).trans hdemote.kept,
        (hsame.trans hspec.sameTable).trans hdemote.sameTable, fun a ha => ?_⟩
      obtain ⟨hl, hscene⟩ := hlisted s' hsame hs' a ha
      have hhoused := (hspec.housed a.layer hl hscene (hup a ha)).upheld
      refine (?_ : Upheld (Function.update w.scene.heap victim
        { w.scene.heap victim with transientComposited := true }) a.layer)
      by_cases hv : a.layer = victim
      · subst hv
        rw [Upheld, Function.update_self]
        exact hhoused
      · rw [Upheld, Function.update_of_ne hv]
        exact hhoused)
    fuel ⟨hs, .refl s, .refl s, hupheld⟩
  exact ⟨s', hs', hkept, hsame,
    fun a ha => ⟨(hlisted s' hsame hs' a ha).1, (hlisted s' hsame hs' a ha).2, hup a ha⟩, heq⟩

theorem settled_spec {address : Planes.LayerId} (hs : s.Accounted) (htabled : s.Tabled address)
    {r : Round} {w : Placing} (h : s.settled dev q flags testOnly = some (r, w)) :
    SettledSpec dev s q r w ∧ s.buildFrameInto dev q flags testOnly = finishBuild dev r w := by
  obtain ⟨e, hentry, h⟩ := Option.bind_eq_some_iff.mp h
  obtain ⟨spec, hbuild⟩ := entry_spec hentry
  have hsame := (sameTable_prepared dev s q).trans spec.held.sameTable
  have hacquired : ∀ a ∈ e.round.acquired, a.layer ∈ e.scene.twins := fun a ha => by
    obtain ⟨hslot, hlive⟩ := slot_of_acquired spec.acquireAll ha
    rw [twins_of_shape spec.held.sameTable.shape]
    exact List.mem_map_of_mem (List.mem_filter.mpr ⟨hslot, hlive⟩)
  obtain ⟨s', hs', hkept, hsame', hup, heq⟩ := lastRound_upheld dev
    ((accounted_prepared dev hs q).held spec.held) (htabled.congr hsame) e.request e.report
    e.round.acquired.length hacquired (entry_upheld hentry)
  rw [hbuild, placeAndFinish]
  rw [heq] at h ⊢
  cases hround : s'.placeRound dev e.round e.request e.report with
  | failed s e =>
    rw [hround] at h
    cases h
  | placed w' feasible =>
    rw [hround] at h
    cases h
    have hspec := placeRound_spec hs' hround
    obtain ⟨pinsFailed, hreport⟩ := hspec.report
    obtain ⟨pinsFailed', hbefore⟩ := spec.report
    have hskipped : w.report.layersSkippedNoFrame = e.report.layersSkippedNoFrame := by
      rw [hreport]
    refine ⟨⟨spec.answers, by rw [hskipped]; exact spec.acquireAll, ⟨pinsFailed, ?_⟩,
      hspec.accounted.onePlane, fun l hl => ?_, fun a ha => ?_⟩, rfl⟩
    · rw [hskipped, hreport, hbefore, spec.held.kept.layerCount, layerCount_prepared]
    · exact htabled.listed l ((hsame.trans hsame').layers.subset (hspec.values hl))
    · obtain ⟨hl, hscene, hupheld⟩ := hup a ha
      exact hspec.housed a.layer hl hscene hupheld

theorem exists_settled {f : BuiltFrame}
    (hf : (s.buildFrameInto dev q flags testOnly).result = .ok (some f)) :
    ∃ r w, s.settled dev q flags testOnly = some (r, w) := by
  cases hentry : s.entry dev q flags testOnly with
  | none =>
    obtain ⟨-, hsuspended⟩ | ⟨s', e, -, hfailed⟩ := entry_none hentry
    · rw [hsuspended] at hf
      cases hf
    · rw [hfailed] at hf
      cases hf
  | some e =>
    rw [(entry_spec hentry).2, placeAndFinish] at hf
    rw [settled, hentry, Option.bind_some]
    cases hrounds : placeRounds dev e.round e.request e.report e.round.acquired.length e.scene with
    | failed s e =>
      rw [hrounds] at hf
      cases hf
    | placed w feasible => exact ⟨e.round, w, rfl⟩

end SceneState

end DrmCxx.Scene
