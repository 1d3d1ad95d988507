import DrmCxx.Scene.SceneLifecycle
import DrmCxx.Verification.Planes.Trace
import DrmCxx.Verification.Scene.Kept
import DrmCxx.Verification.Scene.Lowering
import DrmCxx.Verification.Scene.Memory
import DrmCxx.Verification.Scene.Requests

/-!
# A rebound scene against a new one

`rebind` is to leave a scene that builds its next frame as a scene does that is created on the
target and given the same layers and settings. What a rebind keeps of the old output is read by no
first frame, but for the verdict that the GPU could not make a canvas for it; what it loses is the
`force_composited` flag of every layer.
-/

namespace DrmCxx.Scene

open Lib Modeset
open Planes (PlaneId CrtcId Heap Flags)

namespace SceneState

variable (dev : SceneDevice) (s : SceneState) (target : SceneTarget) (mem : TwinAddresses)

/-! ### The new scene -/

/-- The `planes::Layer`s `add_layer` makes for the live layers of a table. -/
def addedHeap (slots : List SceneSlot) : Heap := fun l =>
  match ((mem.retwin slots).filter (·.live)).find? fun slot => slot.planesLayer = l with
  | some slot => addedTwin slot.attrs
  | none => {}

/-- A scene just created, with the settings and the layers of `s`: each layer is under the handle it
has in `s`. The device goes on counting TESTs. -/
def populate (fresh : SceneState) : SceneState :=
  { (((fresh.setForceFullPropertyWrites s.forceFullWrites).setExternalReservedPlanes
      s.externalReservedPlanes).setPlanesClaimedElsewhere s.claimedElsewhere).withTable s.slots
        fresh.crtcId mem with
    requests := s.requests
    freeIds := s.freeIds
    heap := addedHeap mem s.slots
    tests := s.tests
    armings := s.armings }

/-- A new scene on the target with the layers of `s`. -/
def recreate : Except Errc SceneState :=
  (create dev { target with
      mixing := s.mixing, composition := s.composition, hasEgl := s.hasEgl }
    s.output.compositionLayer).map (s.populate mem)

/-! ### Equal to a fresh scene -/

/-- The layer a handle names. -/
def layerAt (h : LayerHandle) : Option (Option SceneLayer × LayerAttrs) :=
  (s.slotFor h).map fun slot => (slot.sceneLayer, slot.attrs)

/-- What a rebind of `s` to `r` owes, where `fresh` is a new scene for the same layers. -/
structure EqualsFresh (s r fresh : SceneState) : Prop where
  handles : ∀ h, r.layerAt h = s.layerAt h
  lowers : ∀ q, ∀ l ∈ r.twins, (r.lowered dev q).heap l = (fresh.lowered dev q).heap l
  modesets : ∀ q flags testOnly f, (r.buildFrameInto dev q flags testOnly).result = .ok (some f) →
    AllowsModeset f.effectiveFlags ∧ ∃ blob, r.modesetWrites blob <+: f.request
  builds : ∀ q flags testOnly, (r.buildFrameInto dev q flags testOnly).result =
    (fresh.buildFrameInto dev q flags testOnly).result
  targets : ∀ q cfg, (r.makeCompositionTarget q cfg).2 = (fresh.makeCompositionTarget q cfg).2

/-- No live layer is force-composited. -/
def NothingForced : Prop := ∀ slot ∈ s.liveSlots, ¬slot.attrs.desc.forceComposited

variable {dev s target mem} {r s' fresh : SceneState} {report : List LayerHandle}

/-! ### Handles -/

theorem getElem?_retwin (mem : TwinAddresses) (slots : List SceneSlot) (i : ℕ) :
    (mem.retwin slots)[i]? = (slots[i]?).map fun slot =>
      { slot with planesLayer := mem.twin i, streamPinnedPlaneId := none } := by
  rw [TwinAddresses.retwin, List.getElem?_map, List.getElem?_zipIdx]
  cases slots[i]? <;> simp

theorem layerAt_of_retwin (hslots : r.slots = mem.retwin s.slots) (h : LayerHandle) :
    r.layerAt h = s.layerAt h := by
  unfold layerAt slotFor
  rw [hslots, getElem?_retwin]
  split
  · rfl
  · cases s.slots[h.id - 1]? with
    | none => rfl
    | some slot =>
      simp only [Option.map_some, Option.filter_some]
      split <;> rfl

/-! ### Recreating, layer by layer -/

theorem retwin_append (slots : List SceneSlot) (slot : SceneSlot) :
    mem.retwin (slots ++ [slot]) = mem.retwin slots ++
      [{ slot with planesLayer := mem.twin slots.length, streamPinnedPlaneId := none }] := by
  simp [TwinAddresses.retwin, List.zipIdx_append]

theorem liveTwins_append (mem : TwinAddresses) (slots : List SceneSlot) {slot : SceneSlot}
    (h : slot.live) :
    mem.liveTwins (slots ++ [slot]) = mem.liveTwins slots ++ [mem.twin slots.length] := by
  simp [TwinAddresses.liveTwins, List.zipIdx_append, List.filter_append, h]

theorem twin_notMem_liveTwins (mem : TwinAddresses) (slots : List SceneSlot) :
    mem.twin slots.length ∉ mem.liveTwins slots := by
  intro h
  obtain ⟨⟨slot, i⟩, he, heq⟩ := List.mem_map.mp h
  have hi := (List.mem_zipIdx' (List.mem_filter.mp he).1).1
  have hieq : i = slots.length := mem.injective heq
  rw [hieq] at hi
  exact absurd hi (Nat.lt_irrefl _)

theorem addedHeap_append (mem : TwinAddresses) (slots : List SceneSlot) {slot : SceneSlot}
    (h : slot.live) :
    addedHeap mem (slots ++ [slot]) =
      Function.update (addedHeap mem slots) (mem.twin slots.length) (addedTwin slot.attrs) := by
  have hnew := twin_notMem_liveTwins mem slots
  rw [← mem.twins_retwin] at hnew
  funext l
  unfold addedHeap
  rw [retwin_append, List.filter_append, List.find?_append]
  by_cases hl : l = mem.twin slots.length
  · subst hl
    have hnone : ((mem.retwin slots).filter (·.live)).find?
        (fun x => x.planesLayer = mem.twin slots.length) = none := by
      rw [List.find?_eq_none]
      intro x hx heq
      exact hnew (List.mem_map.mpr ⟨x, hx, of_decide_eq_true heq⟩)
    rw [hnone, Function.update_self]
    have hlive : SceneSlot.live { slot with
      planesLayer := mem.twin slots.length, streamPinnedPlaneId := none } := h
    simp [hlive]
  · rw [Function.update_of_ne hl]
    have hother : (List.filter (·.live) [{ slot with
        planesLayer := mem.twin slots.length, streamPinnedPlaneId := none }]).find?
          (fun x : SceneSlot => x.planesLayer = l) = none := by
      rw [List.find?_eq_none]
      intro x hx heq
      rw [List.mem_singleton.mp (List.mem_filter.mp hx).1] at heq
      exact hl (of_decide_eq_true heq).symm
    rw [hother, Option.or_none]

/-- Recreating commutes with adding a layer. -/
theorem populate_addLayer {new : NewLayer} {twin : Planes.LayerId} {hf ho} {handle : LayerHandle}
    (hfree : s.freeIds = []) (hhints : fresh.hintsDirty = fun _ => false)
    (hdemoted : fresh.demoted = []) (hmixing : fresh.mixing = s.mixing)
    (h : s.addLayer new twin hf ho = .ok (s', handle)) :
    ∃ hf' ho', (s.populate mem fresh).addLayer new (mem.twin s.slots.length) hf' ho' =
      .ok (s'.populate mem fresh, handle) := by
  have htwins : mem.twin s.slots.length ∉ (s.populate mem fresh).twins := by
    have := twin_notMem_liveTwins mem s.slots
    rwa [← mem.twins_retwin] at this
  refine ⟨htwins, twin_notMem_liveTwins mem s.slots, ?_⟩
  unfold addLayer at h ⊢
  split at h
  · cases h
  · rename_i hgate
    rw [if_neg (by rw [← hmixing] at hgate; exact hgate)]
    cases h
    have hlen : (mem.retwin s.slots).length = s.slots.length := by simp [TwinAddresses.retwin]
    have hidx : s.freeIds.getLast?.getD s.slots.length = s.slots.length := by rw [hfree]; rfl
    have hidx' : (s.populate mem fresh).freeIds.getLast?.getD
        (s.populate mem fresh).slots.length = s.slots.length := by
      show s.freeIds.getLast?.getD (mem.retwin s.slots).length = _
      rw [hfree, hlen]
      rfl
    simp only [hidx, hidx']
    have htake : s.slots.take s.slots.length = s.slots := List.take_length
    have hdrop : s.slots.drop (s.slots.length + 1) = [] := List.drop_eq_nil_of_le (Nat.le_succ _)
    have hget : s.slots[s.slots.length]? = none := List.getElem?_eq_none le_rfl
    simp only [htake, hdrop, hget]
    have hslots' : (s.populate mem fresh).slots = mem.retwin s.slots := rfl
    have htake' : (mem.retwin s.slots).take s.slots.length = mem.retwin s.slots := by
      rw [← hlen, List.take_length]
    have hdrop' : (mem.retwin s.slots).drop (s.slots.length + 1) = [] :=
      List.drop_eq_nil_of_le (by rw [hlen]; exact Nat.le_succ _)
    have hget' : (mem.retwin s.slots)[s.slots.length]? = none :=
      List.getElem?_eq_none (by rw [hlen])
    simp only [hslots', htake', hdrop', hget']
    simp only [populate, withTable, retwin_append]
    have hhints' : Function.update fresh.hintsDirty new.sceneLayer.id false = fresh.hintsDirty := by
      rw [hhints]
      exact Function.update_eq_self _ _
    have hlive : SceneSlot.live ⟨⟨1, true, some new.sceneLayer⟩, new.attrs, twin, none⟩ := rfl
    have hheap := addedHeap_append mem s.slots hlive
    have hlayers := liveTwins_append mem s.slots hlive
    simp only [setPlanesClaimedElsewhere, setExternalReservedPlanes, setForceFullPropertyWrites,
      hhints', Option.map_none, Option.getD_none, Nat.zero_add, hheap, hlayers, hdemoted]

/-! ### The modeset -/

theorem lowered_modesetWrites (dev : SceneDevice) (s : SceneState) (q : FrameAnswers)
    (blob : BlobId) : (s.lowered dev q).modesetWrites blob = s.modesetWrites blob := by
  have hpins : ∀ s : SceneState,
      (s.ensureStreamLayerPins dev q).modesetWrites blob = s.modesetWrites blob := by
    intro s
    unfold ensureStreamLayerPins
    split <;> rfl
  exact hpins _

theorem beginModeset_of_first {s s' : SceneState} {q : FrameAnswers} {request : AtomicRequest}
    (hfirst : s.firstCommit) (h : s.beginModeset q = .ok (s', request)) :
    ∃ blob, request = s.modesetWrites blob := by
  unfold beginModeset at h
  rw [if_neg (by simp [hfirst])] at h
  cases hb : s.ensureModeBlob q with
  | error e =>
    rw [hb] at h
    cases h
  | ok blob =>
    rw [hb] at h
    cases h
    exact ⟨blob, rfl⟩

/-- A scene whose first commit is due carries the modeset. -/
theorem buildFrameInto_modesets (hfirst : r.firstCommit) {q : FrameAnswers} {flags : Flags}
    {testOnly : Bool} {f : BuiltFrame}
    (h : (r.buildFrameInto dev q flags testOnly).result = .ok (some f)) :
    AllowsModeset f.effectiveFlags ∧ ∃ blob, r.modesetWrites blob <+: f.request := by
  unfold buildFrameInto at h
  split at h
  · cases h
  · split at h
    · cases h
    · rename_i acquired skipped _
      dsimp only at h
      split at h
      · cases h
      · rename_i s' request hbegin
        have huntouched := untouched_lowered dev r q
        obtain ⟨blob, rfl⟩ := beginModeset_of_first (by rwa [huntouched.firstCommit]) hbegin
        have hafter := (huntouched.trans (untouched_beginModeset _ hbegin)).trans
          (untouched_reservePlanes dev s' acquired)
        obtain ⟨hextends, hflags⟩ := placeAndFinish_spec dev _ _ _ _ h
        refine ⟨hflags ?_, blob, by rwa [lowered_modesetWrites] at hextends⟩
        have hmodeset : (s'.reservePlanes dev acquired).1.modesetFlags = allowModeset :=
          if_pos (by rw [hafter.firstCommit]; exact hfirst)
        dsimp only
        rw [hmodeset]
        exact allowsModeset_or flags

/-! ### Lowering -/

theorem lowered_forceComposited (dev : SceneDevice) (s : SceneState) (q : FrameAnswers)
    (l : Planes.LayerId) :
    ((s.lowered dev q).heap l).forceComposited = (s.heap l).forceComposited := by
  have hpins : ∀ s : SceneState, (s.ensureStreamLayerPins dev q).heap = s.heap := by
    intro s
    unfold ensureStreamLayerPins
    split <;> rfl
  have hmark : ∀ s : SceneState, (s.markTransient.heap l).forceComposited =
      (s.heap l).forceComposited := by
    intro s
    unfold markTransient
    dsimp only
    split <;> rfl
  have hprepared : ((s.prepared dev q).heap l).forceComposited = (s.heap l).forceComposited := by
    rw [prepared, hmark, hpins]
  rw [lowered, lower, ← hprepared]
  by_cases hl : l ∈ ((s.prepared dev q).loweringFrame dev q).acquired.map Prod.fst
  · obtain ⟨a, ha, rfl⟩ := List.mem_map.mp hl
    have hinput := List.mem_map_of_mem (f := fun a : Planes.LayerId × UInt64 =>
      (⟨a.1, (s.prepared dev q).descOf a.1, a.2⟩ : LoweringInput)) ha
    exact (congrArg (·.forceComposited) (LoweringFrame.lowerAll_of_mem _ _ _ hinput)).trans
      (congrArg Placement.forceComposited (LoweringFrame.placementOf_lowerOne _ _ _ _))
  · exact congrArg (·.forceComposited) (LoweringFrame.lowerAll_of_not_mem _ _ _ hl)

/-! ### What a rebind keeps -/

/-- The memory a rebind keeps. -/
def keptMemory (s : SceneState) : Memory where
  hints := s.hintsDirty
  placeholder := s.placeholderDirty
  signaling := { s.signaling with
    hdrCache := .flush
    lastWrittenHdrBlobId := 0
    lastWrittenColorspaceValue := none }

/-- While the GPU was not found missing the rebound scene is the new one, but for its memory, the
flags of its `planes::Layer`s and a lost session. -/
theorem rebind_eq (hr : s.rebind dev target mem = .ok (r, report))
    (hn : s.recreate dev target mem = .ok fresh) (hgpu : s.gpuCompositionUnavailable = false) :
    r = { fresh with heap := fun _ => {}, suspended := s.suspended }.remembering s.keptMemory := by
  unfold rebind at hr
  unfold recreate create at hn
  split at hn
  · cases hn
  · dsimp only at hn
    cases hp : dev.objectProperties target.crtcId target.connectorId with
    | error e =>
      rw [hp] at hr
      cases hr
    | ok properties =>
      rw [hp] at hr hn
      cases hr
      cases hn
      cases s
      subst hgpu
      rfl

/-- What is known of the new scene. -/
structure Recreated (s fresh : SceneState) (mem : TwinAddresses) : Prop where
  slots : fresh.slots = mem.retwin s.slots
  heap : fresh.heap = addedHeap mem s.slots
  allocator : fresh.allocator = { forceFullWrites := s.forceFullWrites }
  signaling : fresh.signaling = {}
  firstCommit : fresh.firstCommit
  running : ¬fresh.suspended
  modeBlob : fresh.modeBlob = none
  composition : fresh.hasEgl = s.hasEgl ∧ fresh.composition = s.composition
  untried : fresh.gpuCompositionUnavailable = false

theorem recreate_spec (hn : s.recreate dev target mem = .ok fresh) : Recreated s fresh mem := by
  unfold recreate create at hn
  split at hn
  · cases hn
  · dsimp only at hn
    cases hp : dev.objectProperties target.crtcId target.connectorId with
    | error e =>
      rw [hp] at hn
      cases hn
    | ok properties =>
      rw [hp] at hn
      cases hn
      exact ⟨rfl, rfl, rfl, rfl, rfl, Bool.false_ne_true, rfl, ⟨rfl, rfl⟩, rfl⟩

/-! ### The new layers -/

theorem addedHeap_of_mem {slots : List SceneSlot} {slot : SceneSlot}
    (h : slot ∈ (mem.retwin slots).filter (·.live)) :
    addedHeap mem slots slot.planesLayer = addedTwin slot.attrs := by
  rw [addedHeap, find?_of_nodup_map (mem.nodup_retwin slots) h]

/-- Each live layer has a twin with its attributes. -/
theorem exists_retwin (mem : TwinAddresses) {slots : List SceneSlot} {slot : SceneSlot}
    (h : slot ∈ slots.filter (·.live)) :
    ∃ slot' ∈ (mem.retwin slots).filter (·.live), slot'.attrs = slot.attrs := by
  obtain ⟨hmem, hlive⟩ := List.mem_filter.mp h
  obtain ⟨i, hi⟩ := List.mem_iff_getElem?.mp hmem
  have hget := getElem?_retwin mem slots i
  rw [hi] at hget
  exact ⟨_, List.mem_filter.mpr ⟨List.mem_of_getElem? hget, hlive⟩, rfl⟩

theorem exists_of_retwin {slots : List SceneSlot} {slot' : SceneSlot}
    (h : slot' ∈ (mem.retwin slots).filter (·.live)) :
    ∃ slot ∈ slots.filter (·.live), slot'.attrs = slot.attrs := by
  obtain ⟨hmem, hlive⟩ := List.mem_filter.mp h
  obtain ⟨⟨slot, i⟩, he, rfl⟩ := List.mem_map.mp hmem
  exact ⟨slot, List.mem_filter.mpr ⟨(List.mem_zipIdx' he).2 ▸ List.getElem_mem _, hlive⟩, rfl⟩

/-- Without a force-composited layer the new layers are those of a rebind. -/
theorem addedHeap_of_nothingForced (mem : TwinAddresses) (h : s.NothingForced) :
    addedHeap mem s.slots = fun _ => {} := by
  funext l
  unfold addedHeap
  split
  · rename_i slot' hfind
    obtain ⟨slot, hslot, hattrs⟩ := exists_of_retwin (List.mem_of_find?_eq_some hfind)
    rw [addedTwin, hattrs, Bool.eq_false_iff.mpr (h slot hslot)]
  · rfl

/-! ### The comparison -/

/-- A frame for which the kernel makes no mode blob, and no source has a buffer. -/
def idleAnswers : FrameAnswers where
  acquire _ := .error .resourceUnavailableTryAgain
  mapForRead _ := none
  modeBlob := .error .invalidArgument
  hdrBlob _ := .error .invalidArgument
  colorBlob _ := .error .invalidArgument
  createCanvas _ := none
  kernel _ := 0

theorem equalsFresh_of (hr : s.rebind dev target mem = .ok (r, report))
    (hn : s.recreate dev target mem = .ok fresh) (hsession : ¬s.suspended)
    (hgpu : s.gpuCompositionUnavailable = false) (hforced : s.NothingForced) :
    EqualsFresh dev s r fresh := by
  have hfresh := recreate_spec hn
  have heq : r = fresh.remembering s.keptMemory := by
    rw [rebind_eq hr hn hgpu]
    congr 1
    rw [← addedHeap_of_nothingForced mem hforced, ← hfresh.heap,
      Bool.eq_false_iff.mpr hsession, ← Bool.eq_false_iff.mpr hfresh.running]
  have hagree : OutputState.Agree s.keptMemory.signaling fresh.signaling := by
    rw [hfresh.signaling]
    exact ⟨rfl, rfl, rfl⟩
  subst heq
  exact
    { handles := layerAt_of_retwin hfresh.slots
      lowers := fun q l _ => congrArg (fun s => s.heap l) (lowered_remembering dev fresh _ q)
      modesets := fun q flags testOnly f h => buildFrameInto_modesets
        (r := fresh.remembering s.keptMemory) hfresh.firstCommit h
      builds := fun q flags testOnly => buildFrameInto_result dev fresh q flags testOnly
        (by rw [hfresh.allocator]; exact Bool.false_ne_true) hfresh.firstCommit hagree
      targets := fun q cfg => by rw [Placing.makeCompositionTarget_remembering] }

theorem not_equalsFresh_of_forced (hr : s.rebind dev target mem = .ok (r, report))
    (hn : s.recreate dev target mem = .ok fresh) {slot : SceneSlot} (hlive : slot ∈ s.liveSlots)
    (hforced : slot.attrs.desc.forceComposited) : ¬EqualsFresh dev s r fresh := by
  intro h
  have hrebound := rebind_spec hr
  obtain ⟨slot', hmem, hattrs⟩ := exists_retwin mem hlive
  have htwin : slot'.planesLayer ∈ r.twins := by
    rw [twins, liveSlots, hrebound.slots]
    exact List.mem_map_of_mem (f := SceneSlot.planesLayer) hmem
  have hsame := congrArg (·.forceComposited) (h.lowers idleAnswers _ htwin)
  rw [lowered_forceComposited, lowered_forceComposited, (recreate_spec hn).heap,
    addedHeap_of_mem hmem, hrebound.heap, addedTwin, hattrs, hforced] at hsame
  exact Bool.false_ne_true hsame

/-- A scene that lost its session builds nothing until it is resumed. -/
theorem not_equalsFresh_of_suspended (hr : s.rebind dev target mem = .ok (r, report))
    (hn : s.recreate dev target mem = .ok fresh) (hsuspended : s.suspended) :
    ¬EqualsFresh dev s r fresh := by
  intro h
  have hfresh := recreate_spec hn
  have hnothing : (r.buildFrameInto dev idleAnswers 0 false).result = .ok none := by
    rw [buildFrameInto, if_pos (by rw [(rebind_spec hr).suspended]; exact hsuspended)]
  have hpins :
      ∀ s : SceneState, (s.ensureStreamLayerPins dev idleAnswers).modeBlob = s.modeBlob := by
    intro s
    unfold ensureStreamLayerPins
    split <;> rfl
  have hlowered : (fresh.lowered dev idleAnswers).modeBlob = none := (hpins _).trans hfresh.modeBlob
  have hmodeset : (fresh.lowered dev idleAnswers).beginModeset idleAnswers =
      .error .invalidArgument := by
    rw [beginModeset, ensureModeBlob, hlowered,
      (untouched_lowered dev fresh idleAnswers).firstCommit, hfresh.firstCommit]
    rfl
  have hfails : (fresh.buildFrameInto dev idleAnswers 0 false).result ≠ .ok none := by
    rw [buildFrameInto, if_neg hfresh.running]
    intro hnone
    split at hnone
    · cases hnone
    · dsimp only at hnone
      rw [hmodeset] at hnone
      cases hnone
  exact hfails ((h.builds idleAnswers 0 false).symm.trans hnothing)

/-- A GPU that can make a canvas for the new output, and a CPU that cannot. -/
def gpuAnswers : FrameAnswers := { idleAnswers with createGl := fun _ => some ⟨true, true⟩ }

/-- A scene that found the GPU missing on its old output does not try it on the new one. -/
theorem not_equalsFresh_of_gpu (hr : s.rebind dev target mem = .ok (r, report))
    (hn : s.recreate dev target mem = .ok fresh) (hgpu : s.gpuCompositionUnavailable = true) :
    ¬EqualsFresh dev s r fresh := by
  intro h
  have hfresh := recreate_spec hn
  have hstuck : ¬r.triesGpu = true := fun htries => by
    have hfree := (r.triesGpu_iff.mp htries).2
    rw [(rebind_spec hr).unavailable, hgpu] at hfree
    cases hfree
  have htries : fresh.triesGpu = true := by
    obtain ⟨hegl, hauto⟩ := s.gpuTried hgpu
    exact fresh.triesGpu_iff.mpr
      ⟨⟨hfresh.composition.1.trans hegl, hfresh.composition.2.trans hauto⟩, hfresh.untried⟩
  have htargets := h.targets gpuAnswers ⟨1, 1, 0⟩
  rw [makeCompositionTarget, makeCompositionTarget, dif_neg hstuck, dif_pos htries] at htargets
  cases htargets

/-- A rebound scene equals a fresh one exactly when it has its session, never found the GPU missing,
and no layer is force-composited. -/
theorem equalsFresh_iff (hr : s.rebind dev target mem = .ok (r, report))
    (hn : s.recreate dev target mem = .ok fresh) :
    EqualsFresh dev s r fresh ↔
      ¬s.suspended ∧ s.gpuCompositionUnavailable = false ∧ s.NothingForced := by
  constructor
  · intro h
    exact ⟨fun hsuspended => not_equalsFresh_of_suspended hr hn hsuspended h,
      Bool.eq_false_iff.mpr fun hgpu => not_equalsFresh_of_gpu hr hn hgpu h,
      fun slot hlive hforced => not_equalsFresh_of_forced hr hn hlive hforced h⟩
  · exact fun ⟨hsession, hgpu, hforced⟩ => equalsFresh_of hr hn hsession hgpu hforced

end SceneState

/-! ### A layer that moves to a second output -/

namespace TwoOutputs

/-- Two CRTCs, each with its connector, and a PRIMARY and an OVERLAY on the first. -/
def device : SceneDevice where
  planes := { Planes.Controller.device with crtcs := some [7, 8] }
  traits _ := {}
  objectProperties crtc connector := .ok { crtcId := crtc, connectorId := connector }
  test _ _ _ := none

def config : SceneConfig where
  crtcId := 7
  connectorId := 20
  mode := { hdisplay := 640, vdisplay := 480 }

def target : SceneTarget where
  crtcId := 8
  connectorId := 21
  mode := { hdisplay := 800, vdisplay := 600 }

def mem : TwinAddresses := ⟨id, Function.injective_id⟩

def newLayer (forceComposited : Bool) : NewLayer where
  sceneLayer := ⟨1, 1⟩
  attrs := { desc := { forceComposited } }

/-- The scene just created, with its composition placeholder at address 9. -/
def empty : SceneState where
  crtcId := 7
  connectorId := 20
  mode := config.mode
  properties := { crtcId := 7, connectorId := 20 }
  slots := []
  nodupTwins := List.nodup_nil
  output := ⟨7, [], 9, List.nodup_nil⟩
  heap _ := {}
  primaryZposHint := some 0

/-- The scene with one layer. -/
def oneLayer (forceComposited : Bool) : SceneState :=
  match empty.addLayer (newLayer forceComposited) 0 List.not_mem_nil List.not_mem_nil with
  | .ok (s, _) => s
  | .error _ => empty

end TwoOutputs

namespace SceneState

open TwoOutputs

/-- A force-composited layer is added, and the scene rebound: the new `planes::Layer` lost the
flag. -/
theorem not_equalsFresh :
    create device config 9 = .ok empty ∧
    (empty.addLayer (newLayer true) 0 List.not_mem_nil List.not_mem_nil).map Prod.fst =
      .ok (oneLayer true) ∧
    ∃ r report fresh, (oneLayer true).rebind device target mem = .ok (r, report) ∧
      (oneLayer true).recreate device target mem = .ok fresh ∧
      ¬EqualsFresh device (oneLayer true) r fresh :=
  ⟨rfl, rfl, _, _, _, rfl, rfl,
    not_equalsFresh_of_forced rfl rfl (List.mem_singleton.mpr rfl) rfl⟩

theorem equalsFresh_iff_twoOutputs :
    ∃ r report fresh, (oneLayer false).rebind device target mem = .ok (r, report) ∧
      (oneLayer false).recreate device target mem = .ok fresh ∧
      EqualsFresh device (oneLayer false) r fresh :=
  ⟨_, _, _, rfl, rfl, (equalsFresh_iff rfl rfl).mpr ⟨Bool.false_ne_true, rfl, fun slot hslot => by
    rw [List.mem_singleton.mp hslot]
    exact Bool.false_ne_true⟩⟩

end SceneState

end DrmCxx.Scene
