import DrmCxx.Lib.Run
import DrmCxx.Scene.SceneObjects
import Mathlib.Data.List.Nodup
import Mathlib.Data.List.Perm.Basic
import Mathlib.Tactic.Ring

/-!
# Every acquired buffer goes home

The scene's objects under any run of table edits, commits, tests and drains, with a record of
every acquisition and of every release. Each buffer is released once, to the source it came
from, while that source and its layer are alive.
-/

namespace DrmCxx.Scene

open List Lib

/-- What became of the request an acquisition was made for. -/
inductive Fate
  /-- Accepted, as the commit of this sequence number. -/
  | accepted (seq : ℕ)
  | dropped
  deriving DecidableEq, Repr

inductive ReleaseCause
  /-- The rotation of an accepted commit. -/
  | finalize (seq : ℕ)
  /-- A rejected or test-only request. -/
  | dropped
  | displaced
  | drain
  deriving DecidableEq, Repr

structure AcquiredRecord where
  buffer : BufferId
  layer : LayerId
  source : SourceId
  fate : Fate
  deriving DecidableEq, Repr

structure ReleasedRecord where
  buffer : BufferId
  source : Option SourceId
  sourceAlive : Bool
  layerAlive : Bool
  cause : ReleaseCause
  deriving DecidableEq, Repr

structure SceneTrace where
  scene : SceneObjects := {}
  acquired : List AcquiredRecord := []
  released : List ReleasedRecord := []
  /-- The next unused object identity. -/
  nextObject : ℕ := 0
  nextBuffer : BufferId := 0
  deriving DecidableEq, Repr

inductive SceneEvent
  | addLayer
  | replaceSource (h : LayerHandle)
  | removeLayer (h : LayerHandle)
  | releaseDisplaced (commitSeq : ℕ)
  /-- A real commit: which sources have a buffer, and the kernel's verdict. -/
  | commit (ready : SourceId → Bool) (outFence : Option SyncFence) (verdict : Except Errc Unit)
  | test (ready : SourceId → Bool) (verdict : Except Errc Unit)
  /-- The drain of a pause, a rebind or the teardown. -/
  | drain
  | resume

namespace SceneTrace

def recordOf (fate : Fate) (a : AcquisitionSlot × SourceId) : AcquiredRecord :=
  ⟨a.1.buffer, a.1.sceneLayer, a.2, fate⟩

/-- `release_all`, recorded with what is alive when it runs. -/
def releaseAll (s : SceneObjects) (cause : ReleaseCause) (as : List AcquisitionSlot) :
    List ReleasedRecord :=
  as.map fun a =>
    let target := s.releaseTarget a
    ⟨a.buffer, target, (target.map s.sourceAlive).getD false, (s.findLayer a.sceneLayer).isSome,
      cause⟩

/-- A request whose acquisitions are released before it returns. -/
def afterDropped (t : SceneTrace) (acqs : List (AcquisitionSlot × SourceId))
    (scene : SceneObjects) : SceneTrace :=
  { t with
    scene
    acquired := t.acquired ++ acqs.map (recordOf .dropped)
    released := t.released ++ releaseAll t.scene .dropped (acqs.map (·.1))
    nextBuffer := t.nextBuffer + acqs.length }

def afterAccepted (t : SceneTrace) (acqs : List (AcquisitionSlot × SourceId))
    (scene : SceneObjects) : SceneTrace :=
  { t with
    scene
    acquired := t.acquired ++ acqs.map (recordOf (.accepted scene.lastCommitSeq))
    released := t.released ++
      releaseAll t.scene (.finalize scene.lastCommitSeq) t.scene.inFlight.prevPrev
    nextBuffer := t.nextBuffer + acqs.length }

def step (wants : SourceId → Bool) (t : SceneTrace) : SceneEvent → SceneTrace
  | .addLayer =>
    { t with
      scene := (t.scene.addLayer ⟨t.nextObject, t.nextObject⟩).1
      nextObject := t.nextObject + 1 }
  | .replaceSource h =>
    { t with scene := t.scene.replaceSource h t.nextObject, nextObject := t.nextObject + 1 }
  | .removeLayer h => { t with scene := t.scene.removeLayer h }
  | .releaseDisplaced commitSeq =>
    if t.scene.releasesDisplaced commitSeq then
      { t with
        scene := { t.scene with inFlight := t.scene.inFlight.dropOldest }
        released := t.released ++ releaseAll t.scene .displaced t.scene.inFlight.prevPrev }
    else t
  | .commit ready outFence verdict =>
    if t.scene.suspended then t
    else
      let acqs := t.scene.acquireAll ready t.nextBuffer
      match verdict with
      | .ok () =>
        t.afterAccepted acqs (t.scene.finalizeAccepted wants outFence (acqs.map (·.1)))
      | .error e => t.afterDropped acqs (t.scene.finalizeRejected e)
  | .test ready verdict =>
    if t.scene.suspended then t
    else
      let acqs := t.scene.acquireAll ready t.nextBuffer
      match verdict with
      | .ok () => t.afterDropped acqs t.scene
      | .error e => t.afterDropped acqs (t.scene.finalizeRejected e)
  | .drain =>
    { t with
      scene := t.scene.drain
      released := t.released ++ releaseAll t.scene .drain t.scene.inFlight.drained }
  | .resume => { t with scene := { t.scene with suspended := false } }

/-! ### The contract -/

def inFlightBuffers (t : SceneTrace) : List BufferId :=
  t.scene.inFlight.drained.map (·.buffer)

/-- A release no earlier than its acquisition's fate allows. -/
def Timely : Fate → ReleaseCause → Prop
  | .accepted m, .finalize n => m + 2 ≤ n
  | .accepted _, .dropped => False
  | .accepted _, _ => True
  | .dropped, cause => cause = .dropped

/-- The release went to the source the buffer came from, with source and layer alive. -/
structure Home (rec : AcquiredRecord) (r : ReleasedRecord) : Prop where
  source : r.source = some rec.source
  sourceAlive : r.sourceAlive = true
  layerAlive : r.layerAlive = true
  timely : Timely rec.fate r.cause

structure Accounted (t : SceneTrace) : Prop where
  once : (t.released.map (·.buffer)).Nodup
  home : ∀ r ∈ t.released, ∃ rec ∈ t.acquired, rec.buffer = r.buffer ∧ Home rec r
  /-- Every buffer is in flight or released, and not both. -/
  accounted : ∀ rec ∈ t.acquired,
    rec.buffer ∈ t.released.map (·.buffer) ↔ rec.buffer ∉ t.inFlightBuffers
  /-- A dropped request's buffers are already back. -/
  dropped : ∀ rec ∈ t.acquired, rec.fate = .dropped → rec.buffer ∈ t.released.map (·.buffer)

/-! ### The invariant -/

/-- The acquisition's layer is among `layers` and its source comes with it, or the source was
replaced and is among `sources`. -/
structure Backed (layers : List SceneLayer) (sources : List SourceId) (a : AcquisitionSlot)
    (source : SourceId) : Prop where
  layer : ∃ l ∈ layers, l.id = a.sceneLayer ∧ (a.retiredSource = none → l.source = source)
  retired : ∀ s, a.retiredSource = some s → s = source ∧ s ∈ sources

theorem Backed.mono {layers layers' : List SceneLayer} {sources sources' : List SourceId}
    {a : AcquisitionSlot} {source : SourceId} (h : Backed layers sources a source)
    (hl : layers ⊆ layers') (hs : sources ⊆ sources') : Backed layers' sources' a source := by
  obtain ⟨⟨l, hmem, hl'⟩, hret⟩ := h
  refine ⟨⟨l, hl hmem, hl'⟩, fun s hsome => ?_⟩
  exact ⟨(hret s hsome).1, hs (hret s hsome).2⟩

/-- Where an acquisition of the last accepted commit finds its objects. -/
def prevLayers (s : SceneObjects) : List SceneLayer :=
  s.slotLayers ++ s.retiredLayers.pending

/-- Where an acquisition of the commit before it finds its objects. -/
def prevPrevLayers (s : SceneObjects) : List SceneLayer :=
  prevLayers s ++ s.retiredLayers.prev

/-- The recorded acquisitions of the commit `back` before the last are backed. -/
def InFlightOk (t : SceneTrace) (back : ℕ) (layers : List SceneLayer) (sources : List SourceId)
    (as : List AcquisitionSlot) : Prop :=
  ∀ a ∈ as, ∃ rec ∈ t.acquired, rec.buffer = a.buffer ∧ Backed layers sources a rec.source ∧
    ∃ m, rec.fate = .accepted m ∧ m + back = t.scene.lastCommitSeq

/-- Every layer object has one owner: one slot of the table, or a retire ring. -/
structure Owned (s : SceneObjects) : Prop where
  slot_unique : ∀ (i j g g' : ℕ) (alive alive' : Bool) (l l' : SceneLayer),
    s.slots[i]? = some ⟨g, alive, some l⟩ → s.slots[j]? = some ⟨g', alive', some l'⟩ →
    l.id = l'.id → i = j
  retired_unique : ∀ l ∈ s.retiredLayers.objects, ∀ l' ∈ s.retiredLayers.objects,
    l.id = l'.id → l = l'
  disjoint : ∀ l ∈ s.slotLayers, ∀ l' ∈ s.retiredLayers.objects, l.id ≠ l'.id

structure LifetimeInv (t : SceneTrace) : Prop where
  free_nodup : t.scene.freeIds.Nodup
  free_empty : ∀ i ∈ t.scene.freeIds, ∃ g, t.scene.slots[i]? = some ⟨g, false, none⟩
  owned : Owned t.scene
  layer_lt : ∀ l ∈ t.scene.layers, l.id < t.nextObject
  buffer_lt : ∀ rec ∈ t.acquired, rec.buffer < t.nextBuffer
  acquired_nodup : (t.acquired.map (·.buffer)).Nodup
  /-- Acquired buffers are the released ones and those in flight. -/
  balance : (t.acquired.map (·.buffer)).Perm (t.released.map (·.buffer) ++ t.inFlightBuffers)
  prev_ok : t.InFlightOk 0 (prevLayers t.scene) t.scene.retiredSources.pending
    t.scene.inFlight.prev
  prevPrev_ok : t.InFlightOk 1 (prevPrevLayers t.scene)
    (t.scene.retiredSources.pending ++ t.scene.retiredSources.prev) t.scene.inFlight.prevPrev
  home : ∀ r ∈ t.released, ∃ rec ∈ t.acquired, rec.buffer = r.buffer ∧ Home rec r
  dropped : ∀ rec ∈ t.acquired, rec.fate = .dropped → rec.buffer ∈ t.released.map (·.buffer)

theorem LifetimeInv.accounted {t : SceneTrace} (hinv : t.LifetimeInv) : t.Accounted := by
  have hnodup := hinv.balance.nodup_iff.mp hinv.acquired_nodup
  obtain ⟨hreleased, -, hdisjoint⟩ := List.nodup_append.mp hnodup
  refine ⟨hreleased, hinv.home, fun rec hrec => ⟨fun hmem hflight => ?_, fun hflight => ?_⟩,
    hinv.dropped⟩
  · exact hdisjoint _ hmem _ hflight rfl
  · have hmem := hinv.balance.mem_iff.mp (List.mem_map_of_mem hrec)
    exact (List.mem_append.mp hmem).resolve_right hflight

theorem mem_slotLayers {s : SceneObjects} {l : SceneLayer} :
    l ∈ s.slotLayers ↔
      ∃ (i : ℕ) (g : ℕ) (alive : Bool), s.slots[i]? = some ⟨g, alive, some l⟩ := by
  simp only [SceneObjects.slotLayers, List.mem_filterMap]
  constructor
  · rintro ⟨⟨g, alive, layer⟩, hmem, hlayer⟩
    obtain ⟨i, hi⟩ := List.mem_iff_getElem?.mp hmem
    exact ⟨i, g, alive, by rw [hi, show layer = some l from hlayer]⟩
  · rintro ⟨i, g, alive, hi⟩
    exact ⟨_, List.mem_of_getElem? hi, rfl⟩

theorem Owned.layer_unique {s : SceneObjects} (h : Owned s) {l l' : SceneLayer}
    (hl : l ∈ s.layers) (hl' : l' ∈ s.layers) (hid : l.id = l'.id) : l = l' := by
  rcases List.mem_append.mp hl with hl | hl <;> rcases List.mem_append.mp hl' with hl' | hl'
  · obtain ⟨i, g, alive, hi⟩ := mem_slotLayers.mp hl
    obtain ⟨j, g', alive', hj⟩ := mem_slotLayers.mp hl'
    obtain rfl := h.slot_unique i j g g' alive alive' l l' hi hj hid
    rw [hi] at hj
    cases hj
    rfl
  · exact absurd hid (h.disjoint l hl l' hl')
  · exact absurd hid.symm (h.disjoint l' hl' l hl)
  · exact h.retired_unique l hl l' hl' hid

/-! ### Releases find their objects -/

theorem findLayer_of_mem {t : SceneTrace} (hinv : t.LifetimeInv) {l : SceneLayer}
    (hl : l ∈ t.scene.layers) : t.scene.findLayer l.id = some l := by
  cases hfind : t.scene.findLayer l.id with
  | none =>
      have := List.find?_eq_none.mp hfind l hl
      simp at this
  | some l' =>
      have hid : l'.id = l.id := by simpa using List.find?_some hfind
      rw [hinv.owned.layer_unique (List.mem_of_find?_eq_some hfind) hl hid]

theorem prevPrevLayers_subset (s : SceneObjects) : prevPrevLayers s ⊆ s.layers := by
  intro l hl
  simp only [prevPrevLayers, prevLayers, SceneObjects.layers, RetireRing.objects,
    List.mem_append] at hl ⊢
  tauto

theorem prevLayers_subset (s : SceneObjects) : prevLayers s ⊆ prevPrevLayers s :=
  List.subset_append_left _ _

/-- Releasing a backed acquisition returns its buffer home. -/
theorem home_of_backed {t : SceneTrace} (hinv : t.LifetimeInv) {layers : List SceneLayer}
    {sources : List SourceId} (hlayers : layers ⊆ t.scene.layers)
    (hsources : sources ⊆ t.scene.retiredSources.objects) {a : AcquisitionSlot}
    {rec : AcquiredRecord} (hbacked : Backed layers sources a rec.source)
    {cause : ReleaseCause} (htimely : Timely rec.fate cause) :
    ∀ r ∈ releaseAll t.scene cause [a], r.buffer = a.buffer ∧ Home rec r := by
  intro r hr
  obtain rfl := List.mem_singleton.mp hr
  obtain ⟨l, hl, hid, hsource⟩ := hbacked.layer
  have hfind : t.scene.findLayer a.sceneLayer = some l :=
    hid ▸ findLayer_of_mem hinv (hlayers hl)
  refine ⟨rfl, ?_⟩
  cases hret : a.retiredSource with
  | none =>
      have htarget : t.scene.releaseTarget a = some rec.source := by
        simp [SceneObjects.releaseTarget, hret, hfind, hsource hret]
      have halive : t.scene.sourceAlive rec.source = true := by
        simp only [SceneObjects.sourceAlive, Bool.or_eq_true, decide_eq_true_eq]
        exact .inl (List.mem_map.mpr ⟨l, hlayers hl, hsource hret⟩)
      exact ⟨htarget, by simp [htarget, halive], by simp [hfind], htimely⟩
  | some s =>
      obtain ⟨rfl, hs⟩ := hbacked.retired s hret
      have htarget : t.scene.releaseTarget a = some rec.source := by
        simp [SceneObjects.releaseTarget, hret]
      have halive : t.scene.sourceAlive rec.source = true := by
        simp only [SceneObjects.sourceAlive, Bool.or_eq_true, decide_eq_true_eq]
        exact .inr (hsources hs)
      exact ⟨htarget, by simp [htarget, halive], by simp [hfind], htimely⟩

theorem map_buffer_releaseAll (s : SceneObjects) (cause : ReleaseCause)
    (as : List AcquisitionSlot) : (releaseAll s cause as).map (·.buffer) = as.map (·.buffer) := by
  simp [releaseAll]

theorem mem_releaseAll {s : SceneObjects} {cause : ReleaseCause} {as : List AcquisitionSlot}
    {r : ReleasedRecord} (hr : r ∈ releaseAll s cause as) :
    ∃ a ∈ as, r ∈ releaseAll s cause [a] := by
  obtain ⟨a, ha, rfl⟩ := List.mem_map.mp hr
  exact ⟨a, ha, List.mem_singleton.mpr rfl⟩

/-- Releasing a backed ring returns each of its buffers home. -/
theorem home_of_inFlightOk {t : SceneTrace} (hinv : t.LifetimeInv) {back : ℕ}
    {layers : List SceneLayer} {sources : List SourceId} (as : List AcquisitionSlot)
    (hok : t.InFlightOk back layers sources as) (hlayers : layers ⊆ t.scene.layers)
    (hsources : sources ⊆ t.scene.retiredSources.objects) (cause : ReleaseCause)
    (htimely : ∀ m, m + back = t.scene.lastCommitSeq → Timely (.accepted m) cause) :
    ∀ r ∈ releaseAll t.scene cause as, ∃ rec ∈ t.acquired, rec.buffer = r.buffer ∧ Home rec r := by
  intro r hr
  obtain ⟨a, ha, hr⟩ := mem_releaseAll hr
  obtain ⟨rec, hrec, hbuffer, hbacked, m, hfate, hseq⟩ := hok a ha
  have htime : Timely rec.fate cause := hfate ▸ htimely m hseq
  obtain ⟨hb, hhome⟩ := home_of_backed hinv hlayers hsources hbacked htime r hr
  exact ⟨rec, hrec, hbuffer.trans hb.symm, hhome⟩

/-! ### The handle table -/

theorem slotFor_eq_some {s : SceneObjects} {h : LayerHandle} {idx : ℕ}
    (hslot : s.slotFor h = some idx) :
    ∃ g layer, s.slots[idx]? = some ⟨g, true, layer⟩ := by
  unfold SceneObjects.slotFor at hslot
  split_ifs at hslot
  split at hslot
  · rename_i slot hget
    split_ifs at hslot with halive
    obtain rfl := Option.some.inj hslot
    refine ⟨slot.generation, slot.sceneLayer, hget.trans ?_⟩
    rw [← halive.1]
  · cases hslot

theorem lt_of_getElem? {α : Type*} {xs : List α} {i : ℕ} {x : α} (h : xs[i]? = some x) :
    i < xs.length :=
  (List.getElem?_eq_some_iff.mp h).1

/-- A slot other than `i` has the layer. -/
def InOtherSlot (s : SceneObjects) (i : ℕ) (l : SceneLayer) : Prop :=
  ∃ (j : ℕ) (g : ℕ) (alive : Bool), j ≠ i ∧ s.slots[j]? = some ⟨g, alive, some l⟩

/-- The table after slot `i` is overwritten. -/
theorem mem_slotLayers_set {s : SceneObjects} {i : ℕ} (hi : i < s.slots.length) (slot : Slot)
    {l : SceneLayer} :
    l ∈ SceneObjects.slotLayers { s with slots := s.slots.set i slot } ↔
      slot.sceneLayer = some l ∨ InOtherSlot s i l := by
  rw [mem_slotLayers]
  constructor
  · rintro ⟨j, g, alive, hj⟩
    by_cases hji : j = i
    · subst hji
      rw [List.getElem?_set_self hi] at hj
      exact .inl (by rw [Option.some.inj hj])
    · rw [List.getElem?_set_ne (fun h => hji h.symm)] at hj
      exact .inr ⟨j, g, alive, hji, hj⟩
  · rintro (hl | ⟨j, g, alive, hji, hj⟩)
    · refine ⟨i, slot.generation, slot.alive, ?_⟩
      rw [List.getElem?_set_self hi, ← hl]
    · exact ⟨j, g, alive, by rw [List.getElem?_set_ne (fun h => hji h.symm), hj]⟩

/-- The table as seen from slot `i`. -/
theorem mem_slotLayers_at {s : SceneObjects} {i : ℕ} {slot : Slot} (hget : s.slots[i]? = some slot)
    {l : SceneLayer} : l ∈ s.slotLayers ↔ slot.sceneLayer = some l ∨ InOtherSlot s i l := by
  obtain ⟨hi, rfl⟩ := List.getElem?_eq_some_iff.mp hget
  have hset := mem_slotLayers_set hi s.slots[i] (l := l)
  rwa [List.set_getElem_self] at hset

theorem mem_slotLayers_addLayer {t : SceneTrace} (hinv : t.LifetimeInv) (layer l : SceneLayer) :
    l ∈ (t.scene.addLayer layer).1.slotLayers ↔ l ∈ t.scene.slotLayers ∨ l = layer := by
  unfold SceneObjects.addLayer
  cases hlast : t.scene.freeIds.getLast? with
  | none =>
      simp only [SceneObjects.slotLayers, List.filterMap_append, List.mem_append]
      simp [eq_comm]
  | some idx =>
      obtain ⟨g, hfree⟩ := hinv.free_empty idx (List.mem_of_getLast? hlast)
      have hset := mem_slotLayers_set (lt_of_getElem? hfree)
        ⟨(t.scene.slots[idx]?.map (·.generation)).getD 0 + 1, true, some layer⟩ (l := l)
      refine hset.trans ?_
      rw [mem_slotLayers, or_comm]
      refine or_congr ⟨?_, ?_⟩ ⟨fun h => (Option.some.inj h).symm, fun h => congrArg some h.symm⟩
      · rintro ⟨j, g', alive, -, hj⟩
        exact ⟨j, g', alive, hj⟩
      · rintro ⟨j, g', alive, hj⟩
        refine ⟨j, g', alive, ?_, hj⟩
        rintro rfl
        rw [hfree] at hj
        cases hj

/-! ### Ownership under table edits -/

/-- What a slot of the table holds after a layer is added. -/
theorem getElem?_addLayer {t : SceneTrace} (hinv : t.LifetimeInv) (layer : SceneLayer) :
    ∃ k, ∀ (i : ℕ) (g : ℕ) (alive : Bool) (l : SceneLayer),
      (t.scene.addLayer layer).1.slots[i]? = some ⟨g, alive, some l⟩ →
        (i = k ∧ l = layer) ∨ t.scene.slots[i]? = some ⟨g, alive, some l⟩ := by
  unfold SceneObjects.addLayer
  cases hlast : t.scene.freeIds.getLast? with
  | none =>
      refine ⟨t.scene.slots.length, fun i g alive l hi => ?_⟩
      simp only [List.getElem?_append] at hi
      split_ifs at hi with hlt
      · exact .inr hi
      · have heq : i - t.scene.slots.length = 0 := by
          by_contra hne
          rw [List.getElem?_singleton, if_neg hne] at hi
          cases hi
        rw [heq] at hi
        cases hi
        exact .inl ⟨by omega, rfl⟩
  | some idx =>
      obtain ⟨g₀, hfree⟩ := hinv.free_empty idx (List.mem_of_getLast? hlast)
      refine ⟨idx, fun i g alive l hi => ?_⟩
      by_cases hidx : i = idx
      · subst hidx
        rw [List.getElem?_set_self (lt_of_getElem? hfree)] at hi
        cases hi
        exact .inl ⟨rfl, rfl⟩
      · rw [List.getElem?_set_ne (fun h => hidx h.symm)] at hi
        exact .inr hi

theorem retiredLayers_addLayer (s : SceneObjects) (layer : SceneLayer) :
    (s.addLayer layer).1.retiredLayers = s.retiredLayers := by
  unfold SceneObjects.addLayer
  split <;> rfl

theorem owned_addLayer {t : SceneTrace} (hinv : t.LifetimeInv) :
    Owned (t.scene.addLayer ⟨t.nextObject, t.nextObject⟩).1 := by
  have hmem := mem_slotLayers_addLayer hinv ⟨t.nextObject, t.nextObject⟩
  obtain ⟨k, hk⟩ := getElem?_addLayer hinv ⟨t.nextObject, t.nextObject⟩
  have hlt : ∀ l ∈ t.scene.slotLayers, l.id ≠ t.nextObject :=
    fun l hl => (hinv.layer_lt l (List.mem_append_left _ hl)).ne
  refine ⟨?_, ?_, ?_⟩
  · intro i j g g' alive alive' l l' hi hj hid
    rcases hk i g alive l hi with ⟨rfl, rfl⟩ | hi
    · rcases hk j g' alive' l' hj with ⟨rfl, -⟩ | hj
      · rfl
      · exact absurd hid.symm (hlt l' (mem_slotLayers.mpr ⟨j, g', alive', hj⟩))
    · rcases hk j g' alive' l' hj with ⟨rfl, rfl⟩ | hj
      · exact absurd hid (hlt l (mem_slotLayers.mpr ⟨i, g, alive, hi⟩))
      · exact hinv.owned.slot_unique i j g g' alive alive' l l' hi hj hid
  · rw [retiredLayers_addLayer]
    exact hinv.owned.retired_unique
  · rw [retiredLayers_addLayer]
    intro l hl l' hl'
    rcases (hmem l).mp hl with hl | rfl
    · exact hinv.owned.disjoint l hl l' hl'
    · exact (hinv.layer_lt l' (List.mem_append_right _ hl')).ne'

/-- Overwriting a slot by a layer of the same identity. -/
theorem owned_set {s : SceneObjects} (howned : Owned s) {idx g : ℕ} {alive : Bool}
    {layer : SceneLayer} (hget : s.slots[idx]? = some ⟨g, alive, some layer⟩)
    (layer' : SceneLayer) (hid : layer'.id = layer.id) :
    Owned { s with slots := s.slots.set idx ⟨g, alive, some layer'⟩ } := by
  have hlt := lt_of_getElem? hget
  have hmem : layer ∈ s.slotLayers := mem_slotLayers.mpr ⟨idx, g, alive, hget⟩
  -- every slot of the new table holds what it held, up to the layer's new body
  have hback : ∀ (i g' : ℕ) (alive' : Bool) (l : SceneLayer),
      (s.slots.set idx ⟨g, alive, some layer'⟩)[i]? = some ⟨g', alive', some l⟩ →
      ∃ l₀, s.slots[i]? = some ⟨g', alive', some l₀⟩ ∧ l₀.id = l.id := by
    intro i g' alive' l hi
    by_cases hidx : i = idx
    · subst hidx
      rw [List.getElem?_set_self hlt] at hi
      cases hi
      exact ⟨layer, hget, hid.symm⟩
    · rw [List.getElem?_set_ne (fun h => hidx h.symm)] at hi
      exact ⟨l, hi, rfl⟩
  refine ⟨?_, howned.retired_unique, ?_⟩
  · intro i j g' g'' alive' alive'' l l' hi hj hl
    obtain ⟨l₀, hi₀, hl₀⟩ := hback i g' alive' l hi
    obtain ⟨l₁, hj₁, hl₁⟩ := hback j g'' alive'' l' hj
    exact howned.slot_unique i j g' g'' alive' alive'' l₀ l₁ hi₀ hj₁
      (hl₀.trans (hl.trans hl₁.symm))
  · intro l hl l' hl'
    obtain ⟨i, g', alive', hi⟩ := mem_slotLayers.mp hl
    obtain ⟨l₀, hi₀, hl₀⟩ := hback i g' alive' l hi
    rw [← hl₀]
    exact howned.disjoint l₀ (mem_slotLayers.mpr ⟨i, g', alive', hi₀⟩) l' hl'

theorem owned_removeLayer {s : SceneObjects} (howned : Owned s) {idx g : ℕ} {alive : Bool}
    {layer : Option SceneLayer} (hget : s.slots[idx]? = some ⟨g, alive, layer⟩) :
    Owned { s with
      slots := s.slots.set idx ⟨g, false, none⟩
      retiredLayers := { s.retiredLayers with
        pending := s.retiredLayers.pending ++ layer.toList }
      freeIds := s.freeIds ++ [idx] } := by
  have hback : ∀ (i g' : ℕ) (alive' : Bool) (l : SceneLayer),
      (s.slots.set idx ⟨g, false, none⟩)[i]? = some ⟨g', alive', some l⟩ →
      i ≠ idx ∧ s.slots[i]? = some ⟨g', alive', some l⟩ := by
    intro i g' alive' l hi
    by_cases hidx : i = idx
    · subst hidx
      rw [List.getElem?_set_self (lt_of_getElem? hget)] at hi
      cases hi
    · rw [List.getElem?_set_ne (fun h => hidx h.symm)] at hi
      exact ⟨hidx, hi⟩
  have hobjects : ∀ l, l ∈ RetireRing.objects { s.retiredLayers with
        pending := s.retiredLayers.pending ++ layer.toList } ↔
      l ∈ layer.toList ∨ l ∈ s.retiredLayers.objects := by
    intro l
    simp only [RetireRing.objects, List.mem_append]
    tauto
  have hslot : ∀ l ∈ layer.toList, l ∈ s.slotLayers := by
    intro l hl
    obtain rfl := Option.mem_toList.mp hl
    exact mem_slotLayers.mpr ⟨idx, g, alive, hget⟩
  refine ⟨?_, ?_, ?_⟩
  · intro i j g' g'' alive' alive'' l l' hi hj hid
    exact howned.slot_unique i j g' g'' alive' alive'' l l' (hback i g' alive' l hi).2
      (hback j g'' alive'' l' hj).2 hid
  · intro l hl l' hl' hid
    rcases (hobjects l).mp hl with hl | hl <;> rcases (hobjects l').mp hl' with hl' | hl'
    · have hl := Option.mem_toList.mp hl
      have hl' := Option.mem_toList.mp hl'
      exact Option.some.inj (hl.symm.trans hl')
    · exact absurd hid (howned.disjoint l (hslot l hl) l' hl')
    · exact absurd hid.symm (howned.disjoint l' (hslot l' hl') l hl)
    · exact howned.retired_unique l hl l' hl' hid
  · intro l hl l' hl'
    obtain ⟨i, g', alive', hi⟩ := mem_slotLayers.mp hl
    obtain ⟨hne, hget'⟩ := hback i g' alive' l hi
    have hmem : l ∈ s.slotLayers := mem_slotLayers.mpr ⟨i, g', alive', hget'⟩
    rcases (hobjects l').mp hl' with hl' | hl'
    · obtain rfl := Option.mem_toList.mp hl'
      exact fun hid => hne (howned.slot_unique i idx g' g alive' alive l l' hget' hget hid)
    · exact howned.disjoint l hmem l' hl'

/-! ### Table edits keep the invariant -/

/-- Edits that keep every in-flight acquisition backed. -/
theorem lifetimeInv_of_scene {t : SceneTrace} (hinv : t.LifetimeInv) {scene : SceneObjects}
    {nextObject : ℕ} (hfree : scene.freeIds.Nodup)
    (hempty : ∀ i ∈ scene.freeIds, ∃ g, scene.slots[i]? = some ⟨g, false, none⟩)
    (howned : Owned scene)
    (hlt : ∀ l ∈ scene.layers, l.id < nextObject)
    (hflight : scene.inFlight.drained.map (·.buffer) = t.inFlightBuffers)
    (hprev : InFlightOk { t with scene } 0 (prevLayers scene) scene.retiredSources.pending
      scene.inFlight.prev)
    (hprevPrev : InFlightOk { t with scene } 1 (prevPrevLayers scene)
      (scene.retiredSources.pending ++ scene.retiredSources.prev) scene.inFlight.prevPrev) :
    LifetimeInv { t with scene, nextObject } where
  free_nodup := hfree
  free_empty := hempty
  owned := howned
  layer_lt := hlt
  buffer_lt := hinv.buffer_lt
  acquired_nodup := hinv.acquired_nodup
  balance := by
    have := hinv.balance
    rwa [← hflight] at this
  prev_ok := hprev
  prevPrev_ok := hprevPrev
  home := hinv.home
  dropped := hinv.dropped

theorem InFlightOk.mono {t : SceneTrace} {back : ℕ} {layers layers' : List SceneLayer}
    {sources sources' : List SourceId} {as : List AcquisitionSlot}
    (h : t.InFlightOk back layers sources as) (hl : layers ⊆ layers') (hs : sources ⊆ sources')
    {scene : SceneObjects} {nextObject : ℕ} (hseq : scene.lastCommitSeq = t.scene.lastCommitSeq) :
    InFlightOk { t with scene, nextObject } back layers' sources' as := by
  intro a ha
  obtain ⟨rec, hrec, hbuffer, hbacked, m, hfate, hm⟩ := h a ha
  exact ⟨rec, hrec, hbuffer, hbacked.mono hl hs, m, hfate, by rw [hseq]; exact hm⟩

theorem lifetimeInv_addLayer {t : SceneTrace} (hinv : t.LifetimeInv) :
    LifetimeInv { t with
      scene := (t.scene.addLayer ⟨t.nextObject, t.nextObject⟩).1
      nextObject := t.nextObject + 1 } := by
  set new : SceneLayer := ⟨t.nextObject, t.nextObject⟩
  have hmem := mem_slotLayers_addLayer hinv new
  have hother : ∀ s : SceneObjects, (s.addLayer new).1.inFlight = s.inFlight ∧
      (s.addLayer new).1.retiredLayers = s.retiredLayers ∧
      (s.addLayer new).1.retiredSources = s.retiredSources ∧
      (s.addLayer new).1.lastCommitSeq = s.lastCommitSeq := by
    intro s
    unfold SceneObjects.addLayer
    split <;> exact ⟨rfl, rfl, rfl, rfl⟩
  obtain ⟨hflight, hlayers, hsources, hseq⟩ := hother t.scene
  have hall : ∀ l, l ∈ (t.scene.addLayer new).1.layers ↔ l ∈ t.scene.layers ∨ l = new := by
    intro l
    simp only [SceneObjects.layers, List.mem_append, hmem, hlayers]
    tauto
  have hnew : ∀ l ∈ t.scene.layers, l.id ≠ new.id := fun l hl => (hinv.layer_lt l hl).ne
  have hgrow : prevLayers t.scene ⊆ prevLayers (t.scene.addLayer new).1 := by
    intro l hl
    simp only [prevLayers, List.mem_append, hmem, hlayers] at hl ⊢
    tauto
  have hgrow' : prevPrevLayers t.scene ⊆ prevPrevLayers (t.scene.addLayer new).1 := by
    intro l hl
    simp only [prevPrevLayers, List.mem_append, hlayers] at hl ⊢
    exact hl.imp_left (fun h => hgrow h)
  apply lifetimeInv_of_scene hinv
  · unfold SceneObjects.addLayer
    cases hlast : t.scene.freeIds.getLast? with
    | none => exact hinv.free_nodup
    | some idx => exact hinv.free_nodup.sublist (List.dropLast_sublist _)
  · unfold SceneObjects.addLayer
    cases hlast : t.scene.freeIds.getLast? with
    | none =>
        intro i hi
        have := List.getLast?_eq_none_iff.mp hlast
        simp [this] at hi
    | some idx =>
        intro i hi
        obtain ⟨g, hg⟩ := hinv.free_empty i (List.mem_of_mem_dropLast hi)
        refine ⟨g, ?_⟩
        -- the index taken from the back is not left in the free list
        have hne : idx ≠ i := by
          rintro rfl
          have hsplit := List.dropLast_append_getLast? idx hlast
          have := hsplit ▸ hinv.free_nodup
          exact (List.nodup_append.mp this).2.2 idx hi idx (by simp) rfl
        rw [List.getElem?_set_ne hne]
        exact hg
  · exact owned_addLayer hinv
  · intro l hl
    rcases (hall l).mp hl with hl | rfl
    · exact Nat.lt_succ_of_lt (hinv.layer_lt l hl)
    · exact Nat.lt_succ_self _
  · rw [hflight]
    rfl
  · rw [hflight, hsources]
    exact hinv.prev_ok.mono hgrow (List.Subset.refl _) hseq
  · rw [hflight, hsources]
    exact hinv.prevPrev_ok.mono hgrow' (List.Subset.refl _) hseq

/-- A slot being vacated is not in the free list. -/
theorem notMem_freeIds {t : SceneTrace} (hinv : t.LifetimeInv) {i g : ℕ}
    {layer : Option SceneLayer} (hi : t.scene.slots[i]? = some ⟨g, true, layer⟩) :
    i ∉ t.scene.freeIds := by
  intro hmem
  obtain ⟨g', hg'⟩ := hinv.free_empty i hmem
  rw [hi] at hg'
  cases hg'

theorem lifetimeInv_removeLayer {t : SceneTrace} (hinv : t.LifetimeInv) (h : LayerHandle) :
    LifetimeInv { t with scene := t.scene.removeLayer h } := by
  unfold SceneObjects.removeLayer
  cases hslot : t.scene.slotFor h with
  | none => exact hinv
  | some idx =>
      obtain ⟨g, layer, hget⟩ := slotFor_eq_some hslot
      simp only [hget]
      -- the layer moves from its slot to the retire ring
      have hmove : ∀ l, l ∈ SceneObjects.slotLayers
            { t.scene with slots := t.scene.slots.set idx ⟨g, false, none⟩ } ∨
          l ∈ layer.toList ↔ l ∈ t.scene.slotLayers := by
        intro l
        rw [mem_slotLayers_set (lt_of_getElem? hget), mem_slotLayers_at hget, Option.mem_toList]
        simp only [reduceCtorEq, false_or]
        exact or_comm
      have hlayers : ∀ l, l ∈ SceneObjects.layers { t.scene with
            slots := t.scene.slots.set idx ⟨g, false, none⟩
            retiredLayers := { t.scene.retiredLayers with
              pending := t.scene.retiredLayers.pending ++ layer.toList }
            freeIds := t.scene.freeIds ++ [idx] } ↔ l ∈ t.scene.layers := by
        intro l
        have := hmove l
        simp only [SceneObjects.layers, RetireRing.objects, List.mem_append,
          SceneObjects.slotLayers] at this ⊢
        tauto
      have hkeep : ∀ l ∈ prevLayers t.scene, l ∈ prevLayers { t.scene with
            slots := t.scene.slots.set idx ⟨g, false, none⟩
            retiredLayers := { t.scene.retiredLayers with
              pending := t.scene.retiredLayers.pending ++ layer.toList }
            freeIds := t.scene.freeIds ++ [idx] } := by
        intro l hl
        have := hmove l
        simp only [prevLayers, List.mem_append, SceneObjects.slotLayers] at this hl ⊢
        tauto
      apply lifetimeInv_of_scene hinv
      · refine List.nodup_append.mpr ⟨hinv.free_nodup, by simp, ?_⟩
        intro i hi j hj hij
        obtain rfl := List.mem_singleton.mp hj
        exact notMem_freeIds hinv hget (hij ▸ hi)
      · intro i hi
        rcases List.mem_append.mp hi with hi | hi
        · have hne : idx ≠ i := fun heq => notMem_freeIds hinv hget (heq ▸ hi)
          obtain ⟨g', hg'⟩ := hinv.free_empty i hi
          exact ⟨g', by rw [List.getElem?_set_ne hne]; exact hg'⟩
        · obtain rfl := List.mem_singleton.mp hi
          exact ⟨g, List.getElem?_set_self (lt_of_getElem? hget)⟩
      · exact owned_removeLayer hinv.owned hget
      · intro l hl
        exact hinv.layer_lt l ((hlayers l).mp hl)
      · rfl
      · exact hinv.prev_ok.mono hkeep (List.Subset.refl _) rfl
      · apply hinv.prevPrev_ok.mono ?_ (List.Subset.refl _) rfl
        intro l hl
        rcases List.mem_append.mp hl with hl | hl
        · exact List.mem_append_left _ (hkeep l hl)
        · exact List.mem_append_right _ hl

/-- Retargeting keeps a layer's in-flight buffers backed when its source is replaced. -/
theorem backed_retarget {layers layers' : List SceneLayer} {sources : List SourceId}
    {layer : SceneLayer} {newSource : SourceId}
    (hunique : ∀ l ∈ layers, l.id = layer.id → l = layer)
    (hkeep : ∀ l ∈ layers, l ≠ layer → l ∈ layers')
    (hnew : layer ∈ layers → { layer with source := newSource } ∈ layers')
    {sources' : List SourceId} (hsources : sources ⊆ sources') (hold : layer.source ∈ sources')
    {a : AcquisitionSlot} {source : SourceId} (h : Backed layers sources a source) :
    Backed layers' sources' (SceneObjects.retarget layer.id layer.source a) source := by
  obtain ⟨⟨l, hl, hid, hsource⟩, hret⟩ := h
  by_cases hlayer : l = layer
  · subst hlayer
    by_cases hnone : a.retiredSource = none
    · have hre : SceneObjects.retarget l.id l.source a =
          { a with retiredSource := some l.source } := by
        simp [SceneObjects.retarget, hid, hnone]
      rw [hre]
      refine ⟨⟨_, hnew hl, hid, by simp⟩, ?_⟩
      intro s hs
      obtain rfl := Option.some.inj hs
      exact ⟨hsource hnone, hold⟩
    · have hre : SceneObjects.retarget l.id l.source a = a := by
        simp [SceneObjects.retarget, hnone]
      rw [hre]
      exact ⟨⟨_, hnew hl, hid, fun h => absurd h hnone⟩,
        fun s hs => ⟨(hret s hs).1, hsources (hret s hs).2⟩⟩
  · have hne : a.sceneLayer ≠ layer.id := fun heq => hlayer (hunique l hl (hid.trans heq))
    have hre : SceneObjects.retarget layer.id layer.source a = a := by
      simp [SceneObjects.retarget, hne]
    rw [hre]
    exact ⟨⟨l, hkeep l hl hlayer, hid, hsource⟩,
      fun s hs => ⟨(hret s hs).1, hsources (hret s hs).2⟩⟩

theorem retarget_buffer (layer : LayerId) (old : SourceId) (a : AcquisitionSlot) :
    (SceneObjects.retarget layer old a).buffer = a.buffer := by
  unfold SceneObjects.retarget
  split_ifs <;> rfl

theorem inFlightOk_retarget {t : SceneTrace} {back : ℕ} {layers layers' : List SceneLayer}
    {sources sources' : List SourceId} {as : List AcquisitionSlot}
    (hok : t.InFlightOk back layers sources as) {layer : SceneLayer} (newSource : SourceId)
    (hunique : ∀ l ∈ layers, l.id = layer.id → l = layer)
    (hkeep : ∀ l ∈ layers, l ≠ layer → l ∈ layers')
    (hnew : layer ∈ layers → { layer with source := newSource } ∈ layers')
    (hsources : sources ⊆ sources') (hold : layer.source ∈ sources')
    {scene : SceneObjects} (hseq : scene.lastCommitSeq = t.scene.lastCommitSeq) :
    InFlightOk { t with scene } back layers' sources'
      (as.map (SceneObjects.retarget layer.id layer.source)) := by
  intro a ha
  obtain ⟨b, hb, rfl⟩ := List.mem_map.mp ha
  obtain ⟨rec, hrec, hbuffer, hbacked, m, hfate, hm⟩ := hok b hb
  refine ⟨rec, hrec, ?_, backed_retarget hunique hkeep hnew hsources hold hbacked, m, hfate, ?_⟩
  · rw [retarget_buffer]
    exact hbuffer
  · rw [hseq]
    exact hm

theorem lifetimeInv_replaceSource {t : SceneTrace} (hinv : t.LifetimeInv) (h : LayerHandle) :
    LifetimeInv { t with
      scene := t.scene.replaceSource h t.nextObject, nextObject := t.nextObject + 1 } := by
  unfold SceneObjects.replaceSource
  have hsucc : ∀ l ∈ t.scene.layers, l.id < t.nextObject + 1 :=
    fun l hl => Nat.lt_succ_of_lt (hinv.layer_lt l hl)
  have hsame : LifetimeInv { t with nextObject := t.nextObject + 1 } :=
    lifetimeInv_of_scene hinv hinv.free_nodup hinv.free_empty hinv.owned hsucc rfl
      hinv.prev_ok hinv.prevPrev_ok
  cases hslot : t.scene.slotFor h with
  | none => exact hsame
  | some idx =>
      obtain ⟨g, layer, hget⟩ := slotFor_eq_some hslot
      cases layer with
      | none =>
          simp only [hget]
          exact hsame
      | some layer =>
          simp only [hget]
          have hset : ∀ l, l ∈ SceneObjects.slotLayers { t.scene with
                slots := t.scene.slots.set idx
                  ⟨g, true, some { layer with source := t.nextObject }⟩ } ↔
              some { layer with source := t.nextObject } = some l ∨ InOtherSlot t.scene idx l :=
            fun l => mem_slotLayers_set (lt_of_getElem? hget) _
          have hmem' : layer ∈ t.scene.layers :=
            List.mem_append_left _ ((mem_slotLayers_at hget).mpr (.inl rfl))
          have hold : ∀ l, l ∈ SceneObjects.slotLayers { t.scene with
                slots := t.scene.slots.set idx
                  ⟨g, true, some { layer with source := t.nextObject }⟩ } →
              l = { layer with source := t.nextObject } ∨ l ∈ t.scene.slotLayers := by
            intro l hl
            rcases (hset l).mp hl with heq | hother
            · exact .inl (Option.some.inj heq).symm
            · exact .inr ((mem_slotLayers_at hget).mpr (.inr hother))
          have hkeep : ∀ rest, ∀ l ∈ t.scene.slotLayers ++ rest, l ≠ layer →
              l ∈ SceneObjects.slotLayers { t.scene with
                slots := t.scene.slots.set idx
                  ⟨g, true, some { layer with source := t.nextObject }⟩ } ++ rest := by
            intro rest l hl hne
            rcases List.mem_append.mp hl with hl | hl
            · have hother := ((mem_slotLayers_at hget).mp hl).resolve_left
                fun heq => hne (Option.some.inj heq).symm
              exact List.mem_append_left _ ((hset l).mpr (.inr hother))
            · exact List.mem_append_right _ hl
          apply lifetimeInv_of_scene hinv
          · exact hinv.free_nodup
          · intro i hi
            obtain ⟨g', hg'⟩ := hinv.free_empty i hi
            have hne : idx ≠ i := by
              rintro rfl
              exact notMem_freeIds hinv hget hi
            exact ⟨g', by rw [List.getElem?_set_ne hne]; exact hg'⟩
          · have howned := owned_set hinv.owned hget { layer with source := t.nextObject } rfl
            exact ⟨howned.slot_unique, howned.retired_unique, howned.disjoint⟩
          · intro l hl
            rcases List.mem_append.mp hl with hl | hl
            · rcases hold l hl with rfl | hl
              · exact hsucc layer hmem'
              · exact hsucc l (List.mem_append_left _ hl)
            · exact hsucc l (List.mem_append_right _ hl)
          · simp [InFlight.drained, inFlightBuffers, retarget_buffer, Function.comp_def]
          · exact inFlightOk_retarget hinv.prev_ok t.nextObject
              (fun l hl hid => hinv.owned.layer_unique
                (prevPrevLayers_subset _ (prevLayers_subset _ hl)) hmem' hid)
              (hkeep _) (fun _ => List.mem_append_left _ ((hset _).mpr (.inl rfl)))
              (List.subset_append_left _ _) (by simp) rfl
          · refine inFlightOk_retarget hinv.prevPrev_ok t.nextObject
              (fun l hl hid => hinv.owned.layer_unique (prevPrevLayers_subset _ hl) hmem' hid)
              ?_ (fun _ => ?_) ?_ (by simp [RetireRing.retire]) rfl
            · intro l hl hne
              rcases List.mem_append.mp hl with hl | hl
              · exact List.mem_append_left _ (hkeep _ l hl hne)
              · exact List.mem_append_right _ hl
            · exact List.mem_append_left _
                (List.mem_append_left _ ((hset _).mpr (.inl rfl)))
            · intro s hs
              rcases List.mem_append.mp hs with hs | hs
              · exact List.mem_append_left _ (List.mem_append_left _ hs)
              · exact List.mem_append_right _ hs

/-! ### Acquisition -/

/-- The acquisitions of one request: numbered from `next`, each for a live layer's source. -/
theorem acquireSlots_spec (ready : SourceId → Bool) (next : BufferId) (slots : List Slot) :
    (SceneObjects.acquireSlots ready next slots).map (·.1.buffer) =
        List.range' next (SceneObjects.acquireSlots ready next slots).length ∧
      ∀ p ∈ SceneObjects.acquireSlots ready next slots, p.1.retiredSource = none ∧
        ∃ l ∈ slots.filterMap (·.sceneLayer), l.id = p.1.sceneLayer ∧ l.source = p.2 := by
  induction slots generalizing next with
  | nil => simp [SceneObjects.acquireSlots]
  | cons slot slots ih =>
      have htail : ∀ next, ∀ p ∈ SceneObjects.acquireSlots ready next slots,
          p.1.retiredSource = none ∧ ∃ l ∈ (slot :: slots).filterMap (·.sceneLayer),
            l.id = p.1.sceneLayer ∧ l.source = p.2 := by
        intro next p hp
        obtain ⟨hret, l, hl, hid⟩ := (ih next).2 p hp
        refine ⟨hret, l, ?_, hid⟩
        rw [List.filterMap_cons]
        split
        · exact hl
        · exact List.mem_cons_of_mem _ hl
      unfold SceneObjects.acquireSlots
      split
      · rename_i layer halive hlayer
        split_ifs
        · refine ⟨?_, ?_⟩
          · rw [List.map_cons, (ih (next + 1)).1, List.length_cons, List.range'_succ]
          · intro p hp
            rcases List.mem_cons.mp hp with rfl | hp
            · exact ⟨rfl, layer, by simp [hlayer], rfl, rfl⟩
            · exact htail _ p hp
        · exact ⟨(ih next).1, htail next⟩
      · exact ⟨(ih next).1, htail next⟩

section Commit

variable {t : SceneTrace} (hinv : t.LifetimeInv) (ready : SourceId → Bool)

theorem acquired_buffers (fate : Fate) :
    ((t.scene.acquireAll ready t.nextBuffer).map (recordOf fate)).map (·.buffer) =
      List.range' t.nextBuffer (t.scene.acquireAll ready t.nextBuffer).length := by
  rw [List.map_map]
  exact (acquireSlots_spec ready t.nextBuffer t.scene.slots).1

/-- What a request acquires is for a layer of the table. -/
theorem backed_acquired {p : AcquisitionSlot × SourceId}
    (hp : p ∈ t.scene.acquireAll ready t.nextBuffer) : Backed t.scene.slotLayers [] p.1 p.2 := by
  obtain ⟨hret, l, hl, hid, hsource⟩ :=
    (acquireSlots_spec ready t.nextBuffer t.scene.slots).2 p hp
  exact ⟨⟨l, hl, hid, fun _ => hsource⟩, by simp [hret]⟩

include hinv in
/-- New buffers have new numbers. -/
theorem acquired_append (fate : Fate) :
    ((t.acquired ++ (t.scene.acquireAll ready t.nextBuffer).map (recordOf fate)).map
        (·.buffer)).Nodup ∧
      ∀ rec ∈ t.acquired ++ (t.scene.acquireAll ready t.nextBuffer).map (recordOf fate),
        rec.buffer < t.nextBuffer + (t.scene.acquireAll ready t.nextBuffer).length := by
  have hnew : ∀ b ∈ ((t.scene.acquireAll ready t.nextBuffer).map (recordOf fate)).map (·.buffer),
      t.nextBuffer ≤ b ∧ b < t.nextBuffer + (t.scene.acquireAll ready t.nextBuffer).length := by
    intro b hb
    rw [acquired_buffers] at hb
    exact List.mem_range'_1.mp hb
  constructor
  · rw [List.map_append]
    apply List.Nodup.append hinv.acquired_nodup
    · rw [acquired_buffers]
      exact List.nodup_range'
    · intro b hb hb'
      obtain ⟨rec, hrec, rfl⟩ := List.mem_map.mp hb
      exact absurd (hinv.buffer_lt rec hrec) (not_lt.mpr (hnew _ hb').1)
  · intro rec hrec
    rcases List.mem_append.mp hrec with hrec | hrec
    · exact lt_of_lt_of_le (hinv.buffer_lt rec hrec) (Nat.le_add_right _ _)
    · exact (hnew _ (List.mem_map_of_mem hrec)).2

include hinv in
/-- A rejected request, or a test: its own buffers are back before it returns. -/
theorem lifetimeInv_dropped {scene : SceneObjects} {suspended : Bool}
    (hscene : scene = { t.scene with suspended }) :
    (t.afterDropped (t.scene.acquireAll ready t.nextBuffer) scene).LifetimeInv := by
  set acqs := t.scene.acquireAll ready t.nextBuffer with hacqs
  obtain ⟨hnodup, hlt⟩ := acquired_append hinv ready .dropped
  have hlift : ∀ rec ∈ t.acquired,
      rec ∈ (t.afterDropped acqs scene).acquired := fun rec h => List.mem_append_left _ h
  have hbuffers : (releaseAll t.scene .dropped (acqs.map (·.1))).map (·.buffer) =
      (acqs.map (recordOf .dropped)).map (·.buffer) := by
    rw [map_buffer_releaseAll]
    simp [recordOf, Function.comp_def]
  have hok : ∀ {back : ℕ} {layers : List SceneLayer} {sources : List SourceId}
      {as : List AcquisitionSlot}, t.InFlightOk back layers sources as →
      (t.afterDropped acqs scene).InFlightOk back layers sources as := by
    intro back layers sources as h a ha
    obtain ⟨rec, hrec, hbuffer, hbacked, m, hfate, hm⟩ := h a ha
    refine ⟨rec, hlift rec hrec, hbuffer, hbacked, m, hfate, ?_⟩
    simpa [afterDropped, hscene] using hm
  have hown : (t.afterDropped acqs scene).scene = { t.scene with suspended } := hscene
  refine
    { free_nodup := by rw [hown]; exact hinv.free_nodup
      free_empty := by rw [hown]; exact hinv.free_empty
      owned := by
        rw [hown]
        exact ⟨hinv.owned.slot_unique, hinv.owned.retired_unique, hinv.owned.disjoint⟩
      layer_lt := by rw [hown]; exact hinv.layer_lt
      buffer_lt := hlt
      acquired_nodup := hnodup
      balance := ?_
      prev_ok := by rw [hown]; exact hok hinv.prev_ok
      prevPrev_ok := by rw [hown]; exact hok hinv.prevPrev_ok
      home := ?_
      dropped := ?_ }
  · have hflight : (t.afterDropped acqs scene).inFlightBuffers = t.inFlightBuffers := by
      simp [inFlightBuffers, hown]
    rw [hflight]
    simp only [afterDropped, List.map_append, hbuffers]
    rw [List.append_assoc]
    calc _ ~ (t.released.map (·.buffer) ++ t.inFlightBuffers) ++
          (acqs.map (recordOf .dropped)).map (·.buffer) := hinv.balance.append_right _
      _ ~ t.released.map (·.buffer) ++
          ((acqs.map (recordOf .dropped)).map (·.buffer) ++ t.inFlightBuffers) := by
        rw [List.append_assoc]
        exact perm_append_comm.append_left _
  · intro r hr
    rcases List.mem_append.mp hr with hr | hr
    · obtain ⟨rec, hrec, hbuffer, hhome⟩ := hinv.home r hr
      exact ⟨rec, hlift rec hrec, hbuffer, hhome⟩
    · obtain ⟨a, ha, hr⟩ := mem_releaseAll hr
      obtain ⟨p, hp, rfl⟩ := List.mem_map.mp ha
      have hbacked : Backed t.scene.layers [] p.1 (recordOf .dropped p).source :=
        (backed_acquired ready hp).mono (List.subset_append_left _ _) (List.nil_subset _)
      obtain ⟨hb, hhome⟩ := home_of_backed hinv (List.Subset.refl _) (List.nil_subset _) hbacked
        rfl r hr
      exact ⟨_, List.mem_append_right _ (List.mem_map_of_mem hp), hb.symm, hhome⟩
  · intro rec hrec hfate
    simp only [afterDropped, List.map_append, List.mem_append]
    rcases List.mem_append.mp hrec with hrec | hrec
    · exact .inl (hinv.dropped rec hrec hfate)
    · right
      rw [hbuffers]
      exact List.mem_map_of_mem hrec

theorem stamp_keeps (s : SceneObjects) (wants : SourceId → Bool) (outFence : Option SyncFence)
    (a : AcquisitionSlot) : (s.stamp wants outFence a).buffer = a.buffer ∧
      (s.stamp wants outFence a).sceneLayer = a.sceneLayer ∧
      (s.stamp wants outFence a).retiredSource = a.retiredSource := by
  unfold SceneObjects.stamp
  split
  · split_ifs <;> exact ⟨rfl, rfl, rfl⟩
  · exact ⟨rfl, rfl, rfl⟩

include hinv in
/-- The buffers of two commits ago are released for the new ones. -/
theorem balance_accepted (wants : SourceId → Bool) (outFence : Option SyncFence)
    (acqs : List (AcquisitionSlot × SourceId)) :
    let t' := t.afterAccepted acqs (t.scene.finalizeAccepted wants outFence (acqs.map (·.1)))
    (t'.acquired.map (·.buffer)).Perm (t'.released.map (·.buffer) ++ t'.inFlightBuffers) := by
  intro t'
  have hflight : t'.inFlightBuffers =
      t.scene.inFlight.prev.map (·.buffer) ++ acqs.map (·.1.buffer) := by
    simp only [t', inFlightBuffers, afterAccepted, InFlight.drained, List.map_append]
    simp [SceneObjects.finalizeAccepted, InFlight.rotate, stamp_keeps, Function.comp_def]
  have hnew : ∀ fate, (acqs.map (recordOf fate)).map (·.buffer) = acqs.map (·.1.buffer) := by
    simp [recordOf, Function.comp_def]
  have hbalance := hinv.balance
  rw [inFlightBuffers, InFlight.drained, List.map_append] at hbalance
  rw [hflight]
  simp only [t', afterAccepted, List.map_append, hnew, map_buffer_releaseAll]
  simpa [List.append_assoc] using hbalance.append_right (acqs.map (·.1.buffer))

include hinv in
/-- The acquisitions of the last commit are now of the one before, and stamped. -/
theorem prevPrev_ok_accepted (wants : SourceId → Bool) (outFence : Option SyncFence)
    (acqs : List (AcquisitionSlot × SourceId)) :
    let scene := t.scene.finalizeAccepted wants outFence (acqs.map (·.1))
    (t.afterAccepted acqs scene).InFlightOk 1 (prevPrevLayers scene)
      (scene.retiredSources.pending ++ scene.retiredSources.prev) scene.inFlight.prevPrev := by
  intro scene a ha
  obtain ⟨b, hb, rfl⟩ := List.mem_map.mp ha
  obtain ⟨hbuffer', hlayer', hretired'⟩ := stamp_keeps t.scene wants outFence b
  obtain ⟨rec, hrec, hbuffer, hbacked, m, hfate, hm⟩ := hinv.prev_ok b hb
  refine ⟨rec, List.mem_append_left _ hrec, hbuffer.trans hbuffer'.symm, ⟨?_, ?_⟩, m, hfate, ?_⟩
  · obtain ⟨l, hl, hid, hsource⟩ := hbacked.layer
    refine ⟨l, ?_, hid.trans hlayer'.symm, ?_⟩
    · simp only [prevLayers, List.mem_append] at hl
      simp only [prevPrevLayers, prevLayers, List.mem_append]
      rcases hl with hl | hl
      · exact .inl (.inl hl)
      · exact .inr hl
    · rw [hretired']
      exact hsource
  · rw [hretired']
    intro s hs
    exact ⟨(hbacked.retired s hs).1, (hbacked.retired s hs).2⟩
  · change m + 1 = t.scene.lastCommitSeq + 1
    omega

include hinv in
/-- An accepted commit: the buffers of two commits ago go home and the rings advance. -/
theorem lifetimeInv_accepted (wants : SourceId → Bool) (outFence : Option SyncFence) :
    (t.afterAccepted (t.scene.acquireAll ready t.nextBuffer)
      (t.scene.finalizeAccepted wants outFence
        ((t.scene.acquireAll ready t.nextBuffer).map (·.1)))).LifetimeInv := by
  set acqs := t.scene.acquireAll ready t.nextBuffer with hacqs
  set scene := t.scene.finalizeAccepted wants outFence (acqs.map (·.1)) with hscene
  have hseq : scene.lastCommitSeq = t.scene.lastCommitSeq + 1 := rfl
  obtain ⟨hnodup, hlt⟩ := acquired_append hinv ready (.accepted scene.lastCommitSeq)
  have hretired : scene.retiredLayers.objects ⊆ t.scene.retiredLayers.objects := by
    intro l hl
    simp only [hscene, SceneObjects.finalizeAccepted, RetireRing.advance, RetireRing.objects,
      List.mem_append, List.not_mem_nil, false_or] at hl ⊢
    tauto
  have hlayers : scene.layers ⊆ t.scene.layers := by
    intro l hl
    rcases List.mem_append.mp hl with hl | hl
    · exact List.mem_append_left _ hl
    · exact List.mem_append_right _ (hretired hl)
  refine
    { free_nodup := hinv.free_nodup
      free_empty := hinv.free_empty
      owned := ⟨hinv.owned.slot_unique,
        fun l hl l' hl' => hinv.owned.retired_unique l (hretired hl) l' (hretired hl'),
        fun l hl l' hl' => hinv.owned.disjoint l hl l' (hretired hl')⟩
      layer_lt := fun l hl => hinv.layer_lt l (hlayers hl)
      buffer_lt := hlt
      acquired_nodup := hnodup
      balance := balance_accepted hinv wants outFence acqs
      prev_ok := ?_
      prevPrev_ok := prevPrev_ok_accepted hinv wants outFence acqs
      home := ?_
      dropped := ?_ }
  · intro a ha
    obtain ⟨p, hp, rfl⟩ := List.mem_map.mp ha
    refine ⟨_, List.mem_append_right _ (List.mem_map_of_mem hp), rfl, ?_, scene.lastCommitSeq, rfl,
      rfl⟩
    exact (backed_acquired ready hp).mono (List.subset_append_left _ _) (List.nil_subset _)
  · intro r hr
    rcases List.mem_append.mp hr with hr | hr
    · obtain ⟨rec, hrec, hbuffer, hhome⟩ := hinv.home r hr
      exact ⟨rec, List.mem_append_left _ hrec, hbuffer, hhome⟩
    · have hhome := home_of_inFlightOk hinv _ hinv.prevPrev_ok (prevPrevLayers_subset _)
        (List.subset_append_left _ _) (.finalize scene.lastCommitSeq)
        (fun m hm => by simp only [Timely, hseq]; omega) r hr
      obtain ⟨rec, hrec, hbuffer, hhome⟩ := hhome
      exact ⟨rec, List.mem_append_left _ hrec, hbuffer, hhome⟩
  · intro rec hrec hfate
    simp only [afterAccepted, List.map_append, List.mem_append]
    rcases List.mem_append.mp hrec with hrec | hrec
    · exact .inl (hinv.dropped rec hrec hfate)
    · obtain ⟨p, -, rfl⟩ := List.mem_map.mp hrec
      cases hfate

include hinv in
/-- Early releases of the oldest acquisitions, or of all of them. -/
theorem lifetimeInv_released {inFlight : InFlight AcquisitionSlot}
    {oldest : List AcquisitionSlot} {cause : ReleaseCause}
    (hsplit : t.scene.inFlight.drained ~ oldest ++ inFlight.drained)
    (hprev : inFlight.prev ⊆ t.scene.inFlight.prev)
    (hprevPrev : inFlight.prevPrev ⊆ t.scene.inFlight.prevPrev)
    (htimely : ∀ m, Timely (.accepted m) cause) :
    LifetimeInv { t with
      scene := { t.scene with inFlight }
      released := t.released ++ releaseAll t.scene cause oldest } := by
  have hoked : ∀ a ∈ oldest, a ∈ t.scene.inFlight.drained :=
    fun a ha => hsplit.mem_iff.mpr (List.mem_append_left _ ha)
  refine
    { free_nodup := hinv.free_nodup
      free_empty := hinv.free_empty
      owned := ⟨hinv.owned.slot_unique, hinv.owned.retired_unique, hinv.owned.disjoint⟩
      layer_lt := hinv.layer_lt
      buffer_lt := hinv.buffer_lt
      acquired_nodup := hinv.acquired_nodup
      balance := ?_
      prev_ok := fun a ha => hinv.prev_ok a (hprev ha)
      prevPrev_ok := fun a ha => hinv.prevPrev_ok a (hprevPrev ha)
      home := ?_
      dropped := ?_ }
  · simp only [inFlightBuffers, List.map_append, map_buffer_releaseAll, List.append_assoc]
    have hmap := hsplit.map (·.buffer)
    rw [List.map_append] at hmap
    exact hinv.balance.trans (hmap.append_left _)
  · intro r hr
    rcases List.mem_append.mp hr with hr | hr
    · exact hinv.home r hr
    · obtain ⟨a, ha, hr⟩ := mem_releaseAll hr
      rcases List.mem_append.mp (hoked a ha) with hmem | hmem
      · exact home_of_inFlightOk hinv [a]
          (fun b hb => hinv.prevPrev_ok b (List.mem_singleton.mp hb ▸ hmem))
          (prevPrevLayers_subset _) (List.subset_append_left _ _) _ (fun m _ => htimely m) r hr
      · refine home_of_inFlightOk hinv [a]
          (fun b hb => hinv.prev_ok b (List.mem_singleton.mp hb ▸ hmem))
          (fun l hl => prevPrevLayers_subset _ (prevLayers_subset _ hl)) ?_ _
          (fun m _ => htimely m) r hr
        exact fun s hs => List.mem_append_left _ (List.mem_append_left _ hs)
  · intro rec hrec hfate
    rw [List.map_append]
    exact List.mem_append_left _ (hinv.dropped rec hrec hfate)

include hinv in
/-- A drain releases both rings, oldest first, and destroys what they kept alive. -/
theorem lifetimeInv_drain :
    LifetimeInv { t with
      scene := t.scene.drain
      released := t.released ++ releaseAll t.scene .drain t.scene.inFlight.drained } := by
  have hinv' : LifetimeInv { t with
      scene := { t.scene with inFlight := {} }
      released := t.released ++ releaseAll t.scene .drain t.scene.inFlight.drained } :=
    lifetimeInv_released hinv (by simp [InFlight.drained]) (List.nil_subset _)
      (List.nil_subset _) (fun _ => trivial)
  have hlayers : ∀ l ∈ t.scene.drain.layers, l ∈ t.scene.slotLayers := by
    intro l hl
    rcases List.mem_append.mp hl with hl | hl
    · exact hl
    · cases hl
  refine lifetimeInv_of_scene hinv' hinv.free_nodup hinv.free_empty
    ⟨hinv.owned.slot_unique, ?_, ?_⟩ ?_ rfl ?_ ?_
  · intro l hl
    cases hl
  · intro l _ l' hl'
    cases hl'
  · intro l hl
    exact hinv.layer_lt l (List.mem_append_left _ (hlayers l hl))
  · intro a ha
    cases ha
  · intro a ha
    cases ha

end Commit

/-! ### Runs -/

theorem lifetimeInv_init : LifetimeInv {} where
  free_nodup := List.nodup_nil
  free_empty := by simp
  owned := ⟨by simp, by simp [RetireRing.objects], by simp [SceneObjects.slotLayers]⟩
  layer_lt := by simp [SceneObjects.layers, SceneObjects.slotLayers, RetireRing.objects]
  buffer_lt := by simp
  acquired_nodup := List.nodup_nil
  balance := by simp [inFlightBuffers, InFlight.drained]
  prev_ok := by simp [InFlightOk]
  prevPrev_ok := by simp [InFlightOk]
  home := by simp
  dropped := by simp

theorem lifetimeInv_step (wants : SourceId → Bool) (t : SceneTrace) (e : SceneEvent)
    (hinv : t.LifetimeInv) : (t.step wants e).LifetimeInv := by
  cases e with
  | addLayer => exact lifetimeInv_addLayer hinv
  | replaceSource h => exact lifetimeInv_replaceSource hinv h
  | removeLayer h => exact lifetimeInv_removeLayer hinv h
  | releaseDisplaced commitSeq =>
      simp only [step]
      split_ifs
      · apply lifetimeInv_released hinv
        · exact List.Perm.refl _
        · exact List.Subset.refl _
        · exact List.nil_subset _
        · exact fun _ => trivial
      · exact hinv
  | commit ready outFence verdict =>
      simp only [step]
      split_ifs
      · exact hinv
      · split
        · exact lifetimeInv_accepted hinv ready wants outFence
        · exact lifetimeInv_dropped hinv ready rfl
  | test ready verdict =>
      simp only [step]
      split_ifs
      · exact hinv
      · split
        · exact lifetimeInv_dropped hinv ready rfl
        · exact lifetimeInv_dropped hinv ready rfl
  | drain => exact lifetimeInv_drain hinv
  | resume =>
      exact lifetimeInv_of_scene hinv hinv.free_nodup hinv.free_empty
        ⟨hinv.owned.slot_unique, hinv.owned.retired_unique, hinv.owned.disjoint⟩ hinv.layer_lt
        rfl hinv.prev_ok hinv.prevPrev_ok

theorem lifetimeInv_run (wants : SourceId → Bool) (es : List SceneEvent) :
    (run (step wants) {} es).LifetimeInv :=
  run_always (lifetimeInv_step wants) lifetimeInv_init es

/-- Every run accounts for its buffers, and once the scene is torn down each one is back. -/
theorem accounted_run (wants : SourceId → Bool) (es : List SceneEvent) :
    (run (step wants) {} es).Accounted ∧
      ∀ rec ∈ (run (step wants) {} (es ++ [.drain])).acquired,
        ((run (step wants) {} (es ++ [.drain])).released.map (·.buffer)).count rec.buffer = 1 := by
  refine ⟨(lifetimeInv_run wants es).accounted, fun rec hrec => ?_⟩
  have hacc := (lifetimeInv_run wants (es ++ [.drain])).accounted
  apply List.count_eq_one_of_mem hacc.once
  rw [hacc.accounted rec hrec]
  rw [run_append]
  exact List.not_mem_nil

end SceneTrace

end DrmCxx.Scene
