import DrmCxx.Lib.Binding
import DrmCxx.Verification.Scene.SceneRun

/-!
# Streams and their planes

A source that owns its binding is bound to a plane by the scene, which remembers the plane in the
layer's slot. The table of the pins is followed through the life of a scene, next to the calls the
scene makes on the sources: it is a ledger whose clients are the sources, each given to the scene
once, and whose resources are the planes. `replace_source` exchanges the source under a pin without
a call, so the ledger does not answer for the two sources.
-/

namespace DrmCxx.Scene

open Lib Modeset
open Planes (PlaneId Flags)

/-! ### The calls -/

namespace SceneSlot

/-- The source of the layer in the slot. -/
def shownSource (slot : SceneSlot) : Option SourceId :=
  if slot.live then slot.sceneLayer.map (·.source) else none

/-- The slot's line in the table of pins. -/
def pinEntry (slot : SceneSlot) : Option (SourceId × Option PlaneId) :=
  slot.shownSource.map (·, slot.streamPinnedPlaneId)

/-- `bind_to_plane`, of a slot without a pin that gets one. -/
def bindCall (slot : SceneSlot) (pin : Option PlaneId) : Option (SourceId × BindCall PlaneId) :=
  if slot.streamPinnedPlaneId.isSome then none
  else pin.bind fun p => slot.shownSource.map (·, .bind p)

/-- `unbind_from_plane`, of a slot with a pin. -/
def unbindCall (slot : SceneSlot) : Option (SourceId × BindCall PlaneId) :=
  slot.streamPinnedPlaneId.bind fun p => slot.shownSource.map (·, .unbind p)

/-- `on_session_paused`: the source tears its binding down itself. -/
def resetCall (slot : SceneSlot) : Option (SourceId × BindCall PlaneId) :=
  slot.shownSource.map (·, .reset)

end SceneSlot

namespace SceneState

/-- The table of pins. -/
def pinTable (s : SceneState) : List (SourceId × Option PlaneId) :=
  s.slots.filterMap SceneSlot.pinEntry

/-- The sources `ensure_stream_layer_pins` binds. -/
def bindCalls (dev : SceneDevice) (s : SceneState) (q : FrameAnswers) :
    List PlaneId → List SceneSlot → List (SourceId × BindCall PlaneId)
  | _, [] => []
  | taken, slot :: slots =>
    let pin := s.streamPinOf dev q taken slot
    (slot.bindCall pin).toList ++
      bindCalls dev s q
        (if slot.streamPinnedPlaneId.isNone then taken ++ pin.toList else taken) slots

/-- What a step calls on the sources. -/
def streamCalls (s : SceneState) : SceneAction → List (SourceId × BindCall PlaneId)
  | .removeLayer h => ((s.slotFor h).bind SceneSlot.unbindCall).toList
  | .commit dev q _ _ _ =>
    let s := { s with cachedCrtcIndex := s.resolveCrtcIndex dev }
    if s.suspended ∨ s.cachedCrtcIndex.isNone then []
    else
      s.bindCalls dev q
        (s.slots.filterMap fun slot => if slot.alive then slot.streamPinnedPlaneId else none)
        s.slots
  | .pause => s.slots.filterMap SceneSlot.resetCall
  | .rebind dev target mem =>
    match s.rebind dev target mem with
    | .ok _ => s.slots.filterMap SceneSlot.unbindCall
    | .error _ => []
  | _ => []

/-- The two sources of a `replace_source` under a pin. -/
def exchangedSources (s : SceneState) (h : LayerHandle) (new : SceneSlot.NewSource) :
    List SourceId :=
  match s.replaceSource h new, s.slotFor h with
  | .ok _, some slot =>
    if slot.streamPinnedPlaneId.isSome then new.source :: slot.shownSource.toList else []
  | _, _ => []

end SceneState

/-- A scene with the calls it made on the sources. -/
structure StreamTrace where
  scene : SceneState
  calls : List (SourceId × BindCall PlaneId) := []
  /-- Sources the scene was given: it owns them, and is given each once. -/
  given : List SourceId := []
  /-- Sources that came or went under a pin by `replace_source`. -/
  exchanged : List SourceId := []

namespace StreamTrace

def step (t : StreamTrace) : SceneAction → StreamTrace
  | .addLayer new twin =>
    if new.sceneLayer.source ∈ t.given then t
    else
      { t with
        scene := t.scene.step (.addLayer new twin)
        given := new.sceneLayer.source :: t.given }
  | .replaceSource h new =>
    if new.source ∈ t.given then t
    else
      { t with
        scene := t.scene.step (.replaceSource h new)
        given := new.source :: t.given
        exchanged := t.scene.exchangedSources h new ++ t.exchanged }
  | a => { t with scene := t.scene.step a, calls := t.calls ++ t.scene.streamCalls a }

/-- The calls the scene made on a source. -/
def callsOn (t : StreamTrace) (source : SourceId) : List (BindCall PlaneId) :=
  Ledger.callsOn t.calls source

end StreamTrace

/-- The pins of a scene are what the calls on the sources say, for every source but the exempt
ones. -/
structure PinsMatch (s : SceneState) (exempt : List SourceId)
    (callsOn : SourceId → List (BindCall PlaneId)) : Prop where
  /-- A slot holds a plane just when its source is bound to it. -/
  pinned : ∀ slot ∈ s.slots, ∀ source, slot.shownSource = some source → source ∉ exempt →
    ∀ p, slot.streamPinnedPlaneId = some p ↔ BoundTo (callsOn source) p
  /-- No two live layers are pinned to one plane. -/
  exclusive : ∀ (i j : ℕ) (a b : SceneSlot) (p : PlaneId), s.slots[i]? = some a →
    s.slots[j]? = some b → a.live = true → b.live = true → a.streamPinnedPlaneId = some p →
      b.streamPinnedPlaneId = some p → i = j
  /-- Every binding is undone once, before the next. -/
  paired : ∀ source ∉ exempt, Paired (callsOn source)
  /-- A source that left the scene is bound to no plane. -/
  left : ∀ source ∉ exempt, (∀ slot ∈ s.slots, slot.shownSource ≠ some source) →
    ∀ p, ¬ BoundTo (callsOn source) p

/-! ### The table of pins -/

namespace SceneSlot

variable {slot : SceneSlot}

theorem shownSource_eq_some {layer : SceneLayer} (hlive : slot.live = true)
    (h : slot.sceneLayer = some layer) : slot.shownSource = some layer.source := by
  rw [shownSource, if_pos hlive, h, Option.map_some]

theorem shownSource_of_dead (h : slot.live = false) : slot.shownSource = none := by
  rw [shownSource, if_neg (by rw [h]; exact Bool.false_ne_true)]

theorem exists_shownSource (h : slot.live = true) : ∃ source, slot.shownSource = some source := by
  obtain ⟨layer, hlayer⟩ := Option.isSome_iff_exists.mp (Bool.and_eq_true_iff.mp h).2
  exact ⟨layer.source, shownSource_eq_some h hlayer⟩

theorem pinEntry_eq_some {source : SourceId} (h : slot.shownSource = some source) :
    slot.pinEntry = some (source, slot.streamPinnedPlaneId) := by
  rw [pinEntry, h, Option.map_some]

end SceneSlot

theorem filterMap_middle {α β : Type*} (g : α → Option β) (xs ys : List α) (x : α) :
    ((xs ++ x :: ys).filterMap g).Perm ((g x).toList ++ (xs ++ ys).filterMap g) := by
  rw [List.filterMap_append, List.filterMap_cons, List.filterMap_append]
  cases g x with
  | none => exact .refl _
  | some y => exact List.perm_middle

/-- One slot's line of a table, next to the others. -/
theorem filterMap_modify {α β : Type*} (g : α → Option β) {xs : List α} {i : ℕ} {x : α}
    (h : xs[i]? = some x) (f : α → α) : ∃ rest : List β,
      (xs.filterMap g).Perm ((g x).toList ++ rest) ∧
        ((xs.modify i f).filterMap g).Perm ((g (f x)).toList ++ rest) := by
  obtain ⟨hi, rfl⟩ := List.getElem?_eq_some_iff.mp h
  refine ⟨(xs.take i ++ xs.drop (i + 1)).filterMap g, ?_, ?_⟩
  · refine .trans (.of_eq ?_) (filterMap_middle g _ _ _)
    rw [List.getElem_cons_drop, List.take_append_drop]
  · rw [List.modify_eq_take_cons_drop hi]
    exact filterMap_middle g _ _ _

namespace SceneState

variable {s : SceneState}

theorem filterMap_modify_of_eq {f : SceneSlot → SceneSlot}
    (hf : ∀ slot, (f slot).pinEntry = slot.pinEntry) (slots : List SceneSlot) (i : ℕ) :
    (slots.modify i f).filterMap SceneSlot.pinEntry = slots.filterMap SceneSlot.pinEntry := by
  have hmap := congrArg (List.filterMap id) (map_modify hf slots i)
  rwa [List.filterMap_map, List.filterMap_map] at hmap

theorem mem_pinTable {slot : SceneSlot} (hslot : slot ∈ s.slots) {source : SourceId}
    (h : slot.shownSource = some source) :
    (source, slot.streamPinnedPlaneId) ∈ s.pinTable :=
  List.mem_filterMap.mpr ⟨slot, hslot, SceneSlot.pinEntry_eq_some h⟩

theorem exists_slot_of_mem_pinTable {source : SourceId} (h : source ∈ s.pinTable.map Prod.fst) :
    ∃ slot ∈ s.slots, slot.shownSource = some source := by
  obtain ⟨e, he, rfl⟩ := List.mem_map.mp h
  obtain ⟨slot, hslot, hentry⟩ := List.mem_filterMap.mp he
  obtain ⟨source, hsource, rfl⟩ := Option.map_eq_some_iff.mp hentry
  exact ⟨slot, hslot, hsource⟩

theorem pinTable_addLayer (hs : s.Accounted) {new : NewLayer} {twin : Planes.LayerId}
    {hfree : twin ∉ s.twins} {hout : twin ∉ s.output.layers} {added : SceneState × LayerHandle}
    (h : s.addLayer new twin hfree hout = .ok added) :
    added.1.pinTable.Perm ((new.sceneLayer.source, none) :: s.pinTable) := by
  unfold addLayer at h
  split at h
  · cases h
  · cases h
    refine (filterMap_middle SceneSlot.pinEntry _ _ _).trans ?_
    refine .cons _ (.of_eq ?_)
    have hsplit := List.take_append_drop (s.freeIds.getLast?.getD s.slots.length) s.slots
    cases hlast : s.freeIds.getLast? with
    | none =>
      rw [Option.getD_none, List.take_length, List.drop_eq_nil_of_le (Nat.le_succ _),
        List.append_nil]
      rfl
    | some i =>
      obtain ⟨slot, hslot, hdead⟩ := (hs.free i).mp (List.mem_of_getLast? hlast)
      obtain ⟨hi, rfl⟩ := List.getElem?_eq_some_iff.mp hslot
      rw [hlast, Option.getD_some, ← List.cons_getElem_drop_succ (h := hi)] at hsplit
      rw [Option.getD_some, pinTable]
      conv_rhs => rw [← hsplit]
      have hnone : s.slots[i].pinEntry = none := by
        have hlive : s.slots[i].live = false := by rw [SceneSlot.live, hdead, Bool.false_and]
        rw [SceneSlot.pinEntry, SceneSlot.shownSource_of_dead hlive, Option.map_none]
      rw [List.filterMap_append, List.filterMap_append, List.filterMap_cons_none hnone]
      rfl

end SceneState

theorem pinsMatch_of_sound {s : SceneState} {calls : List (SourceId × BindCall PlaneId)}
    {exempt : List SourceId} (h : (⟨s.pinTable, calls, exempt⟩ : Ledger _ _).Sound) :
    PinsMatch s exempt (Ledger.callsOn calls) where
  pinned slot hslot source hsource hexempt p :=
    ((h.kept source _ (SceneState.mem_pinTable hslot hsource) hexempt).boundTo_iff p).symm
  exclusive i j a b p ha hb halive hblive hap hbp := by
    obtain ⟨source, hsource⟩ := SceneSlot.exists_shownSource halive
    obtain ⟨source', hsource'⟩ := SceneSlot.exists_shownSource hblive
    have hpairs := h.exclusive
    rw [SceneState.pinTable, List.filterMap_filterMap, List.Nodup, List.pairwise_filterMap,
      List.pairwise_iff_getElem] at hpairs
    have hpin : ∀ (slot : SceneSlot) source, slot.shownSource = some source →
        slot.streamPinnedPlaneId = some p → (slot.pinEntry.bind Prod.snd) = some p := by
      intro slot source hsource hpin
      rw [SceneSlot.pinEntry_eq_some hsource, Option.bind_some, hpin]
    obtain ⟨hi, rfl⟩ := List.getElem?_eq_some_iff.mp ha
    obtain ⟨hj, rfl⟩ := List.getElem?_eq_some_iff.mp hb
    rcases lt_trichotomy i j with hlt | heq | hgt
    · exact absurd rfl (hpairs i j hi hj hlt p (hpin _ _ hsource hap) p (hpin _ _ hsource' hbp))
    · exact heq
    · exact absurd rfl (hpairs j i hj hi hgt p (hpin _ _ hsource' hbp) p (hpin _ _ hsource hap))
  paired source hexempt := by
    by_cases hmem : source ∈ s.pinTable.map Prod.fst
    · obtain ⟨e, he, rfl⟩ := List.mem_map.mp hmem
      exact (h.kept e.1 e.2 he hexempt).paired
    · exact (h.left source hmem hexempt).paired
  left source hexempt hnot p hbound := by
    have hmem : source ∉ s.pinTable.map Prod.fst := fun hmem => by
      obtain ⟨slot, hslot, hsource⟩ := SceneState.exists_slot_of_mem_pinTable hmem
      exact hnot slot hslot hsource
    cases ((h.left source hmem hexempt).boundTo_iff p).mp hbound

/-! ### Rounds of calls -/

namespace SceneState

variable (dev : SceneDevice) (s : SceneState)

theorem streamPinOf_of_pinned (q : FrameAnswers) (taken : List PlaneId) {slot : SceneSlot}
    {p : PlaneId} (h : slot.streamPinnedPlaneId = some p) :
    s.streamPinOf dev q taken slot = some p := by
  unfold streamPinOf
  rw [h]
  split
  · rename_i hnone _
    cases hnone
  · rfl

/-- A slot without a pin that gets one has a source, and the plane was free. -/
theorem streamPinOf_of_unpinned (q : FrameAnswers) (taken : List PlaneId) {slot : SceneSlot}
    {p : PlaneId} (hnone : slot.streamPinnedPlaneId = none)
    (h : s.streamPinOf dev q taken slot = some p) :
    slot.live = true ∧ p ∉ taken := by
  unfold streamPinOf at h
  rw [hnone] at h
  split at h
  · rename_i hlive _ _
    refine ⟨hlive, fun hmem => ?_⟩
    split at h
    · have hpick := (Option.filter_eq_some_iff.mp h).1
      unfold pickStreamPlane at hpick
      obtain ⟨plane, hplane, rfl⟩ := Option.map_eq_some_iff.mp hpick
      have hfree : plane ∈ (s.crtcPlanes dev).filter fun p =>
          p.type ≠ .cursor && s.canvas.lastPlane ≠ some p.id && !taken.contains p.id &&
            (dev.traits p.id).formats.contains slot.attrs.desc.format.drmFourcc.toUInt32 := by
        rcases Option.or_eq_some_iff.mp hplane with hfind | ⟨-, hhead⟩
        · exact List.mem_of_find?_eq_some hfind
        · exact List.mem_of_mem_head? hhead
      have hnot := (List.mem_filter.mp hfree).2
      simp only [Bool.and_eq_true, Bool.not_eq_true', List.contains_iff_mem] at hnot
      simp [hmem] at hnot
    · cases h
  · cases h

theorem shownSource_pinned (slot : SceneSlot) (pin : Option PlaneId) :
    ({ slot with streamPinnedPlaneId := pin } : SceneSlot).shownSource = slot.shownSource := rfl

theorem round_pinStreams (q : FrameAnswers) (taken : List PlaneId) (slots : List SceneSlot) :
    Ledger.Round (slots.filterMap SceneSlot.pinEntry) (s.bindCalls dev q taken slots)
      ((s.pinStreams dev q taken slots).filterMap SceneSlot.pinEntry) := by
  induction slots generalizing taken with
  | nil => exact .nil
  | cons slot slots ih =>
    rw [bindCalls, pinStreams, List.filterMap_cons, List.filterMap_cons]
    have hrest := ih (if slot.streamPinnedPlaneId.isNone then
      taken ++ (s.streamPinOf dev q taken slot).toList else taken)
    cases hsource : slot.shownSource with
    | none =>
      simpa [SceneSlot.pinEntry, SceneSlot.bindCall, shownSource_pinned, hsource] using hrest
    | some source =>
      cases hpin : slot.streamPinnedPlaneId with
      | some p =>
        rw [hpin] at hrest
        simpa [SceneSlot.pinEntry, SceneSlot.bindCall, shownSource_pinned, hsource, hpin,
          streamPinOf_of_pinned dev s q taken hpin] using Ledger.Round.skip (source, some p) hrest
      | none =>
        rw [hpin] at hrest
        cases hgot : s.streamPinOf dev q taken slot with
        | none =>
          rw [hgot] at hrest
          simpa [SceneSlot.pinEntry, SceneSlot.bindCall, shownSource_pinned, hsource, hpin]
            using Ledger.Round.skip (source, none) hrest
        | some p =>
          rw [hgot] at hrest
          simpa [SceneSlot.pinEntry, SceneSlot.bindCall, shownSource_pinned, hsource, hpin]
            using Ledger.Round.call source (.bind p) hrest

/-- The pins of the live slots. -/
def livePins (slots : List SceneSlot) : List PlaneId :=
  (slots.filterMap SceneSlot.pinEntry).filterMap Prod.snd

theorem livePins_cons (slot : SceneSlot) (slots : List SceneSlot) :
    livePins (slot :: slots) =
      (slot.pinEntry.bind Prod.snd).toList ++ livePins slots := by
  rw [livePins, List.filterMap_cons, livePins]
  cases slot.pinEntry with
  | none => rfl
  | some e =>
    rw [List.filterMap_cons, Option.bind_some]
    cases e.2 <;> rfl

theorem pin_of_pinEntry {slot : SceneSlot} {p : PlaneId}
    (h : slot.pinEntry.bind Prod.snd = some p) :
    slot.live = true ∧ slot.streamPinnedPlaneId = some p := by
  obtain ⟨e, he, hp⟩ := Option.bind_eq_some_iff.mp h
  obtain ⟨source, hsource, rfl⟩ := Option.map_eq_some_iff.mp he
  refine ⟨?_, hp⟩
  cases hlive : slot.live with
  | true => rfl
  | false =>
    rw [SceneSlot.shownSource_of_dead hlive] at hsource
    cases hsource

/-- Binding gives no two slots one plane, and a new pin is none of those taken. -/
theorem nodup_livePins_pinStreams (q : FrameAnswers) (taken : List PlaneId)
    (slots : List SceneSlot) (hnodup : (livePins slots).Nodup) (htaken : livePins slots ⊆ taken) :
    (livePins (s.pinStreams dev q taken slots)).Nodup ∧
      ∀ p ∈ livePins (s.pinStreams dev q taken slots), p ∈ livePins slots ∨ p ∉ taken := by
  induction slots generalizing taken with
  | nil => exact ⟨List.nodup_nil, fun p hp => absurd hp List.not_mem_nil⟩
  | cons slot slots ih =>
    rw [livePins_cons] at hnodup htaken
    rw [pinStreams, livePins_cons, livePins_cons]
    obtain ⟨htakenHead, htakenRest⟩ := List.append_subset.mp htaken
    obtain ⟨-, hnodupRest, hdisjoint⟩ := List.nodup_append.mp hnodup
    cases hpin : slot.streamPinnedPlaneId with
    | some p =>
      obtain ⟨hrest, hnew⟩ := ih taken hnodupRest htakenRest
      have hsame : ({ slot with streamPinnedPlaneId := s.streamPinOf dev q taken slot } :
          SceneSlot) = slot := by
        rw [streamPinOf_of_pinned dev s q taken hpin, ← hpin]
      rw [hsame]
      refine ⟨List.nodup_append.mpr ⟨(List.nodup_append.mp hnodup).1, hrest, ?_⟩, ?_⟩
      · intro a ha b hb hab
        rcases hnew b hb with hold | hfresh
        · exact hdisjoint a ha b hold hab
        · exact hfresh (hab ▸ htakenHead ha)
      · intro a ha
        rcases List.mem_append.mp ha with ha | ha
        · exact .inl (List.mem_append_left _ ha)
        · exact (hnew a ha).imp (List.mem_append_right _) id
    | none =>
      obtain ⟨hrest, hnew⟩ := ih (taken ++ (s.streamPinOf dev q taken slot).toList) hnodupRest
        (List.Subset.trans htakenRest (List.subset_append_left _ _))
      have hhead : ∀ a ∈ (({ slot with streamPinnedPlaneId := s.streamPinOf dev q taken slot } :
          SceneSlot).pinEntry.bind Prod.snd).toList,
          s.streamPinOf dev q taken slot = some a ∧ a ∉ taken := by
        intro a ha
        have hgot := (pin_of_pinEntry (Option.mem_toList.mp ha)).2
        exact ⟨hgot, (streamPinOf_of_unpinned dev s q taken hpin hgot).2⟩
      refine ⟨List.nodup_append.mpr ⟨?_, hrest, ?_⟩, ?_⟩
      · cases Option.bind _ _ with
        | none => exact List.nodup_nil
        | some a => exact List.nodup_singleton a
      · intro a ha b hb hab
        obtain ⟨hgot, hfree⟩ := hhead a ha
        rcases hnew b hb with hold | hfresh
        · exact hfree (hab ▸ htakenRest hold)
        · refine hfresh (List.mem_append_right _ ?_)
          rw [hgot, hab]
          exact List.mem_singleton_self b
      · intro a ha
        rcases List.mem_append.mp ha with ha | ha
        · exact .inr (hhead a ha).2
        · exact (hnew a ha).imp (List.mem_append_right _)
            fun hfresh hmem => hfresh (List.mem_append_left _ hmem)

theorem round_withoutPin (slots : List SceneSlot) :
    Ledger.Round (slots.filterMap SceneSlot.pinEntry) (slots.filterMap SceneSlot.resetCall)
      ((slots.map SceneSlot.withoutPin).filterMap SceneSlot.pinEntry) := by
  rw [List.filterMap_map]
  refine Ledger.Round.filterMap fun slot _ => ?_
  have hsource : slot.withoutPin.shownSource = slot.shownSource := rfl
  rw [Function.comp_apply, SceneSlot.pinEntry, SceneSlot.resetCall, SceneSlot.pinEntry, hsource]
  cases slot.shownSource with
  | none => exact .nil
  | some source => exact .call source (.reset slot.streamPinnedPlaneId) .nil

theorem livePins_eq_nil {slots : List SceneSlot}
    (h : ∀ slot ∈ slots, slot.streamPinnedPlaneId = none) : livePins slots = [] := by
  induction slots with
  | nil => rfl
  | cons slot slots ih =>
    rw [livePins_cons, ih fun slot hslot => h slot (List.mem_cons_of_mem _ hslot)]
    cases hpin : slot.pinEntry.bind Prod.snd with
    | none => rfl
    | some p =>
      have := (pin_of_pinEntry hpin).2
      rw [h slot (List.mem_cons_self ..)] at this
      cases this

theorem livePins_withoutPin (slots : List SceneSlot) :
    livePins (slots.map SceneSlot.withoutPin) = [] :=
  livePins_eq_nil fun slot hslot => by
    obtain ⟨old, -, rfl⟩ := List.mem_map.mp hslot
    rfl

variable {s} in
/-- The planes taken before the first stream is bound are the pins there are. -/
theorem livePins_subset_taken : livePins s.slots ⊆
    s.slots.filterMap fun slot => if slot.alive then slot.streamPinnedPlaneId else none := by
  intro p hp
  rw [livePins, List.filterMap_filterMap] at hp
  obtain ⟨slot, hslot, hpin⟩ := List.mem_filterMap.mp hp
  obtain ⟨hlive, hpinned⟩ := pin_of_pinEntry hpin
  refine List.mem_filterMap.mpr ⟨slot, hslot, ?_⟩
  rw [if_pos (Bool.and_eq_true_iff.mp hlive).1, hpinned]

theorem round_unbind (slots : List SceneSlot) :
    Ledger.Round (slots.filterMap SceneSlot.pinEntry) (slots.filterMap SceneSlot.unbindCall)
      ((slots.map SceneSlot.withoutPin).filterMap SceneSlot.pinEntry) := by
  rw [List.filterMap_map]
  refine Ledger.Round.filterMap fun slot _ => ?_
  have hsource : slot.withoutPin.shownSource = slot.shownSource := rfl
  have hpinned : slot.withoutPin.streamPinnedPlaneId = none := rfl
  rw [Function.comp_apply, SceneSlot.pinEntry, SceneSlot.unbindCall, SceneSlot.pinEntry, hsource,
    hpinned]
  cases slot.shownSource with
  | none => cases slot.streamPinnedPlaneId <;> exact .nil
  | some source =>
    cases slot.streamPinnedPlaneId with
    | none => exact .skip (source, none) .nil
    | some p => exact .call source (.unbind p) .nil

theorem pinEntry_retwin (mem : TwinAddresses) (slots : List SceneSlot) :
    (mem.retwin slots).filterMap SceneSlot.pinEntry =
      (slots.map SceneSlot.withoutPin).filterMap SceneSlot.pinEntry := by
  have hfst : slots = slots.zipIdx.map Prod.fst := (List.zipIdx_map_fst ..).symm
  conv_rhs => rw [hfst]
  rw [TwinAddresses.retwin, List.map_map, List.filterMap_map, List.filterMap_map]
  rfl

/-! ### Frames -/

variable {dev}

theorem slots_prepared (q : FrameAnswers) : (s.prepared dev q).slots =
    let s := { s with cachedCrtcIndex := s.resolveCrtcIndex dev }
    if s.cachedCrtcIndex.isNone then s.slots
    else
      s.pinStreams dev q
        (s.slots.filterMap fun slot => if slot.alive then slot.streamPinnedPlaneId else none)
        s.slots := by
  unfold prepared ensureStreamLayerPins
  dsimp only
  split <;> rfl

theorem buildFrameInto_of_suspended (hs : s.suspended = true) (q : FrameAnswers) (flags : Flags)
    (testOnly : Bool) : s.buildFrameInto dev q flags testOnly = ⟨s, .ok none⟩ := by
  unfold buildFrameInto
  rw [if_pos hs]

/-- After it bound the streams a build leaves the table alone. -/
theorem slots_buildFrameInto (hs : s.suspended = false) (q : FrameAnswers) (flags : Flags)
    (testOnly : Bool) :
    (s.buildFrameInto dev q flags testOnly).scene.slots = (s.prepared dev q).slots := by
  cases hentry : s.entry dev q flags testOnly with
  | none =>
    obtain ⟨hsuspended, -⟩ | ⟨s', e, hheld, hfailed⟩ := entry_none hentry
    · rw [hs] at hsuspended
      cases hsuspended
    · rw [hfailed]
      exact hheld.kept.slots
  | some e =>
    obtain ⟨spec, hbuild⟩ := entry_spec hentry
    have hround : ∀ fuel, Kept e.scene
        (placeRounds dev e.round e.request e.report fuel e.scene).scene := by
      intro fuel
      obtain ⟨s', hkept, heq⟩ := placeRounds_eq_round dev e.round e.request e.report (Kept e.scene)
        (fun s' w victim hs' hended => by
          have hkept := kept_placeRound dev e.round e.request e.report s'
          rw [hended] at hkept
          exact (hs'.trans hkept).trans (w.scene.held_demote victim).kept)
        fuel (.refl e.scene)
      rw [heq]
      exact hkept.trans (kept_placeRound dev _ _ _ s')
    have hkept := hround e.round.acquired.length
    rw [hbuild, placeAndFinish, ← spec.held.kept.slots]
    cases hended : placeRounds dev e.round e.request e.report e.round.acquired.length e.scene with
    | failed s₁ err =>
      rw [hended] at hkept
      exact hkept.slots
    | placed w feasible =>
      rw [hended] at hkept
      have hcomposed := hkept.trans (w.still_composeUnassigned dev e.round.answers
        w.scene.verifyFlags e.round.acquired).held.kept
      unfold finishBuild
      dsimp only
      split <;> exact hcomposed.slots

theorem slots_finalizeFrame (f : BuiltFrame) (kernel : Except Errc Unit) :
    (s.finalizeFrame f kernel).slots = s.slots := by
  unfold finalizeFrame
  split
  · rfl
  · split <;> rfl
  · split <;> rfl

theorem slots_doCommit (q : FrameAnswers) (flags : Flags) (testOnly : Bool)
    (kernel : Except Errc Unit) : (s.doCommit dev q flags testOnly kernel).slots =
      if s.suspended then s.slots else (s.prepared dev q).slots := by
  have hbuild : (s.buildFrameInto dev q flags testOnly).scene.slots =
      if s.suspended then s.slots else (s.prepared dev q).slots := by
    cases hs : s.suspended with
    | true => rw [buildFrameInto_of_suspended s hs, if_pos rfl]
    | false => rw [slots_buildFrameInto s hs, if_neg Bool.false_ne_true]
  unfold doCommit
  dsimp only
  split
  · rw [slots_finalizeFrame, hbuild]
  · exact hbuild

end SceneState

/-! ### The run -/

namespace StreamTrace

def ledger (t : StreamTrace) : Ledger SourceId PlaneId := ⟨t.scene.pinTable, t.calls, t.exchanged⟩

/-- The ledger is sound, and every source in the scene was given to it. -/
structure InStep (t : StreamTrace) : Prop where
  accounted : t.scene.Accounted
  sound : t.ledger.Sound
  given : ∀ source ∈ t.scene.pinTable.map Prod.fst, source ∈ t.given

variable {t : StreamTrace}

/-- A step that leaves the table of pins alone and calls no source. -/
theorem InStep.still (ht : t.InStep) {s : SceneState} (hs : s.Accounted)
    (htable : s.pinTable = t.scene.pinTable) {given : List SourceId}
    (hgiven : t.given ⊆ given) :
    ({ t with scene := s, given } : StreamTrace).InStep where
  accounted := hs
  sound := ht.sound.perm (.of_eq htable)
  given source hsource := hgiven (ht.given source (htable ▸ hsource))

/-- A round of calls on the sources of the scene. -/
theorem InStep.round (ht : t.InStep) {s : SceneState} (hs : s.Accounted)
    {calls : List (SourceId × BindCall PlaneId)}
    (hround : Ledger.Round t.scene.pinTable calls s.pinTable)
    (hexclusive : (SceneState.livePins s.slots).Nodup) :
    ({ t with scene := s, calls := t.calls ++ calls } : StreamTrace).InStep where
  accounted := hs
  sound := ht.sound.round hround hexclusive
  given source hsource := ht.given source (hround.keys ▸ hsource)

theorem inStep_addLayer (ht : t.InStep) {new : NewLayer} {twin : Planes.LayerId}
    (hgiven : new.sceneLayer.source ∉ t.given) :
    ({ t with
        scene := t.scene.step (.addLayer new twin)
        given := new.sceneLayer.source :: t.given } : StreamTrace).InStep := by
  have hs := SceneState.accounted_step ht.accounted (.addLayer new twin)
  revert hs
  rw [SceneState.step]
  split
  · rename_i hfree
    cases hadd : t.scene.addLayer new twin hfree.1 hfree.2 with
    | error e => exact fun hs => ht.still hs rfl (List.subset_cons_self _ _)
    | ok added =>
      intro hs
      have hnew : new.sceneLayer.source ∉ t.scene.pinTable.map Prod.fst :=
        fun hmem => hgiven (ht.given _ hmem)
      have htable : added.1.pinTable.Perm ((new.sceneLayer.source, none) :: t.scene.pinTable) :=
        SceneState.pinTable_addLayer ht.accounted hadd
      refine ⟨hs, (ht.sound.join hnew).perm htable, fun source hsource => ?_⟩
      have hsource := (htable.map Prod.fst).mem_iff.mp hsource
      exact List.cons_subset_cons _ (fun a ha => ht.given a ha) hsource
  · exact fun hs => ht.still hs rfl (List.subset_cons_self _ _)

theorem inStep_removeLayer (ht : t.InStep) (h : LayerHandle) :
    ({ t with
        scene := t.scene.step (.removeLayer h)
        calls := t.calls ++ t.scene.streamCalls (.removeLayer h) } : StreamTrace).InStep := by
  have hs := SceneState.accounted_step ht.accounted (.removeLayer h)
  revert hs
  rw [SceneState.step, SceneState.removeLayer, SceneState.streamCalls]
  cases hslot : t.scene.slotFor h with
  | none =>
    intro hs
    rw [Option.bind_none, Option.toList_none, List.append_nil]
    exact ht.still hs rfl (List.Subset.refl _)
  | some slot =>
    intro hs
    obtain ⟨-, hget, halive, -⟩ := SceneState.slotFor_eq_some hslot
    have hlive : slot.live = true := by
      rw [SceneSlot.live, halive, ht.accounted.filled slot (List.mem_of_getElem? hget) halive]
      rfl
    obtain ⟨source, hsource⟩ := SceneSlot.exists_shownSource hlive
    obtain ⟨rest, hold, hnew⟩ := filterMap_modify SceneSlot.pinEntry hget SceneSlot.cleared
    rw [SceneSlot.pinEntry_eq_some hsource] at hold
    have hsound : Ledger.Sound ⟨(source, slot.streamPinnedPlaneId) :: rest, t.calls, t.exchanged⟩ :=
      ht.sound.perm hold.symm
    have hleft : ∀ {calls : List (SourceId × BindCall PlaneId)},
        Ledger.Sound ⟨(source, none) :: rest, calls, t.exchanged⟩ →
          Ledger.Sound ⟨(t.scene.modifySlot h SceneSlot.cleared SceneSlot.keeps_cleared).pinTable,
            calls, t.exchanged⟩ :=
      fun hcalled => (hcalled.leave rfl).perm hnew
    refine ⟨hs, ?_, fun a ha => ht.given a ?_⟩
    · cases hpin : slot.streamPinnedPlaneId with
      | none =>
        rw [hpin] at hsound
        rw [Option.bind_some, SceneSlot.unbindCall, hpin, Option.bind_none, Option.toList_none,
          List.append_nil]
        exact hleft hsound
      | some p =>
        rw [hpin] at hsound
        rw [Option.bind_some, SceneSlot.unbindCall, hpin, Option.bind_some, hsource]
        refine hleft (hsound.round (.call source (.unbind p) (Ledger.Round.refl rest)) ?_)
        have hexclusive := hsound.exclusive
        rw [List.filterMap_cons] at hexclusive
        exact (List.nodup_cons.mp hexclusive).2
    · exact (hold.map Prod.fst).mem_iff.mpr
        (List.mem_cons_of_mem _ ((hnew.map Prod.fst).mem_iff.mp ha))

theorem inStep_replaceSource (ht : t.InStep) {h : LayerHandle} {new : SceneSlot.NewSource}
    (hgiven : new.source ∉ t.given) :
    ({ t with
        scene := t.scene.step (.replaceSource h new)
        given := new.source :: t.given
        exchanged := t.scene.exchangedSources h new ++ t.exchanged } : StreamTrace).InStep := by
  have hs := SceneState.accounted_step ht.accounted (.replaceSource h new)
  revert hs
  rw [SceneState.step, SceneState.exchangedSources]
  cases hreplaced : t.scene.replaceSource h new with
  | error e =>
    exact fun hs => ht.still hs rfl (List.subset_cons_self _ _)
  | ok s' =>
    intro hs
    unfold SceneState.replaceSource at hreplaced
    split at hreplaced
    · cases hreplaced
    · split at hreplaced
      · cases hreplaced
      · rename_i slot hslot
        cases hreplaced
        obtain ⟨hslot, hlayer⟩ := Option.filter_eq_some_iff.mp hslot
        obtain ⟨-, hget, halive, -⟩ := SceneState.slotFor_eq_some hslot
        obtain ⟨layer, hlayer⟩ := Option.isSome_iff_exists.mp hlayer
        have hlive : slot.live = true := by rw [SceneSlot.live, halive, hlayer]; rfl
        have hsource := SceneSlot.shownSource_eq_some hlive hlayer
        obtain ⟨rest, hold, hnew⟩ :=
          filterMap_modify SceneSlot.pinEntry hget (SceneSlot.exchangeSource new)
        have hreplacement : (slot.exchangeSource new).pinEntry =
            some (new.source, slot.streamPinnedPlaneId) := by
          have hlayer' : (slot.exchangeSource new).sceneLayer =
              some { layer with source := new.source } := by
            rw [SceneSlot.exchangeSource, hlayer, Option.map_some]
          have hlive' : (slot.exchangeSource new).live = true := by
            rw [SceneSlot.live, hlayer']
            exact Bool.and_eq_true_iff.mpr ⟨halive, rfl⟩
          exact SceneSlot.pinEntry_eq_some (SceneSlot.shownSource_eq_some hlive' hlayer')
        rw [SceneSlot.pinEntry_eq_some hsource] at hold
        rw [hreplacement] at hnew
        have hfresh : new.source ∉
            ((layer.source, slot.streamPinnedPlaneId) :: rest).map Prod.fst :=
          fun hmem => hgiven (ht.given _ ((hold.map Prod.fst).mem_iff.mpr hmem))
        have hsound := ht.sound.perm hold.symm
        refine ⟨hs, ?_, fun a ha => ?_⟩
        · rw [hslot]
          dsimp only
          cases hpin : slot.streamPinnedPlaneId with
          | none =>
            rw [hpin] at hsound hnew hfresh
            exact (hsound.exchange rfl hfresh).perm hnew
          | some p =>
            rw [hpin] at hsound hnew hfresh
            rw [hsource]
            exact (hsound.takeOver rfl hfresh).perm hnew
        · rcases List.mem_cons.mp ((hnew.map Prod.fst).mem_iff.mp ha) with heq | hrest
          · exact List.mem_cons.mpr (.inl heq)
          · exact List.mem_cons_of_mem _ (ht.given a ((hold.map Prod.fst).mem_iff.mpr
              (List.mem_cons_of_mem _ hrest)))

theorem inStep_commit (ht : t.InStep) (dev : SceneDevice) (q : FrameAnswers) (flags : Flags)
    (testOnly : Bool) (kernel : Except Errc Unit) :
    ({ t with
        scene := t.scene.step (.commit dev q flags testOnly kernel)
        calls := t.calls ++ t.scene.streamCalls (.commit dev q flags testOnly kernel) } :
      StreamTrace).InStep := by
  have hs := SceneState.accounted_step ht.accounted (.commit dev q flags testOnly kernel)
  have hslots : (t.scene.step (.commit dev q flags testOnly kernel)).slots =
      if t.scene.suspended then t.scene.slots else (t.scene.prepared dev q).slots :=
    t.scene.slots_doCommit q flags testOnly kernel
  generalize t.scene.step (.commit dev q flags testOnly kernel) = s at hs hslots
  rw [SceneState.streamCalls]
  have hpins : (SceneState.livePins t.scene.slots).Nodup := ht.sound.exclusive
  dsimp only
  split at hslots
  · rename_i hsuspended
    rw [if_pos (.inl hsuspended), List.append_nil]
    exact ht.still hs (congrArg (List.filterMap SceneSlot.pinEntry) hslots) (List.Subset.refl _)
  · rename_i hsuspended
    rw [SceneState.slots_prepared] at hslots
    dsimp only at hslots
    split at hslots
    · rename_i hnone
      rw [if_pos (.inr hnone), List.append_nil]
      exact ht.still hs (congrArg (List.filterMap SceneSlot.pinEntry) hslots) (List.Subset.refl _)
    · rename_i hsome
      rw [if_neg (not_or.mpr ⟨hsuspended, hsome⟩)]
      refine ht.round hs ?_ ?_
      · rw [SceneState.pinTable, SceneState.pinTable, hslots]
        exact SceneState.round_pinStreams dev _ q _ _
      · rw [hslots]
        exact (SceneState.nodup_livePins_pinStreams dev _ q _ _ hpins
          SceneState.livePins_subset_taken).1

theorem inStep_pause (ht : t.InStep) :
    ({ t with
        scene := t.scene.step .pause
        calls := t.calls ++ t.scene.streamCalls .pause } : StreamTrace).InStep := by
  refine ht.round (SceneState.accounted_step ht.accounted .pause)
    (SceneState.round_withoutPin t.scene.slots) ?_
  show (SceneState.livePins (t.scene.slots.map SceneSlot.withoutPin)).Nodup
  rw [SceneState.livePins_withoutPin]
  exact List.nodup_nil

theorem inStep_rebind (ht : t.InStep) (dev : SceneDevice) (target : SceneTarget)
    (mem : TwinAddresses) :
    ({ t with
        scene := t.scene.step (.rebind dev target mem)
        calls := t.calls ++ t.scene.streamCalls (.rebind dev target mem) } :
      StreamTrace).InStep := by
  have hs := SceneState.accounted_step ht.accounted (.rebind dev target mem)
  revert hs
  rw [SceneState.step, SceneState.streamCalls]
  cases hrebind : t.scene.rebind dev target mem with
  | error e =>
    intro hs
    rw [List.append_nil]
    exact ht.still hs rfl (List.Subset.refl _)
  | ok rebound =>
    intro hs
    have htable : rebound.1.slots.filterMap SceneSlot.pinEntry =
        (t.scene.slots.map SceneSlot.withoutPin).filterMap SceneSlot.pinEntry := by
      rw [(SceneState.rebind_spec hrebind).slots]
      exact SceneState.pinEntry_retwin mem t.scene.slots
    refine ht.round hs ?_ ?_
    · show Ledger.Round _ _ (rebound.1.slots.filterMap SceneSlot.pinEntry)
      rw [htable]
      exact SceneState.round_unbind t.scene.slots
    · show (rebound.1.slots.filterMap SceneSlot.pinEntry |>.filterMap Prod.snd).Nodup
      rw [htable]
      show (SceneState.livePins (t.scene.slots.map SceneSlot.withoutPin)).Nodup
      rw [SceneState.livePins_withoutPin]
      exact List.nodup_nil

theorem inStep_step (ht : t.InStep) (a : SceneAction) : (t.step a).InStep := by
  have hs := SceneState.accounted_step ht.accounted a
  have hsilent : t.scene.streamCalls a = [] → (t.scene.step a).pinTable = t.scene.pinTable →
      ({ t with
          scene := t.scene.step a
          calls := t.calls ++ t.scene.streamCalls a } : StreamTrace).InStep := by
    intro hcalls htable
    rw [hcalls, List.append_nil]
    exact ht.still hs htable (List.Subset.refl _)
  cases a with
  | addLayer new twin =>
    rw [step]
    split
    · exact ht
    · rename_i hgiven
      exact inStep_addLayer ht hgiven
  | removeLayer h => exact inStep_removeLayer ht h
  | replaceSource h new =>
    rw [step]
    split
    · exact ht
    · rename_i hgiven
      exact inStep_replaceSource ht hgiven
  | setAttrs h attrs hints =>
    refine hsilent rfl ?_
    rw [SceneState.step, SceneState.setAttrs]
    split
    · rfl
    · exact SceneState.filterMap_modify_of_eq (f := SceneSlot.withAttrs attrs) (fun _ => rfl) _ _
  | commit dev q flags testOnly kernel => exact inStep_commit ht dev q flags testOnly kernel
  | pause => exact inStep_pause ht
  | resume dev a =>
    refine hsilent rfl ?_
    rw [SceneState.step]
    cases hresume : t.scene.resume dev a with
    | error e => rfl
    | ok s' =>
      exact congrArg (List.filterMap SceneSlot.pinEntry) (SceneState.resume_spec hresume).slots
  | rebind dev target mem => exact inStep_rebind ht dev target mem
  | elsewhere left reset => exact hsilent rfl rfl

theorem inStep_create {dev : SceneDevice} {config : SceneConfig} {placeholder : Planes.LayerId}
    {s : SceneState} (h : SceneState.create dev config placeholder = .ok s) :
    ({ scene := s } : StreamTrace).InStep := by
  have hslots : s.slots = [] := by
    unfold SceneState.create at h
    split at h
    · cases h
    · obtain ⟨properties, -, heq⟩ := exists_of_map_ok h
      cases heq
      rfl
  have htable : s.pinTable = [] := by rw [SceneState.pinTable, hslots, List.filterMap_nil]
  have hempty : (⟨[], [], []⟩ : Ledger SourceId PlaneId).Sound :=
    { nodup := List.nodup_nil
      exclusive := List.nodup_nil
      kept := fun _ _ hmem => absurd hmem List.not_mem_nil
      left := fun _ _ _ => .nil }
  exact
    { accounted := SceneState.accounted_create h
      sound := hempty.perm (.of_eq htable)
      given := fun source hsource => by
        rw [show ({ scene := s } : StreamTrace).scene.pinTable = [] from htable] at hsource
        cases hsource }

/-- Through the whole life of a scene its pins are what the calls on the sources say. -/
theorem pinsMatch_of_run {dev : SceneDevice} {config : SceneConfig} {placeholder : Planes.LayerId}
    {s : SceneState} (h : SceneState.create dev config placeholder = .ok s)
    (actions : List SceneAction) :
    let t := run step { scene := s } actions
    PinsMatch t.scene t.exchanged t.callsOn := by
  have hstep : ∀ t a, InStep t → (step t a).InStep := fun _ a ht => inStep_step ht a
  exact pinsMatch_of_sound (run_always hstep (inStep_create h) actions).sound

/-! ### A session pause -/

/-- A stream is bound to a plane, and the session pauses before its layer is removed. -/
def pausedRun : List SceneAction :=
  [.addLayer (SmallScene.newLayer ⟨1, 4⟩ .driverOwnsBinding) 1,
    .commit SmallScene.device SmallScene.answers 0 false (.ok ()), .pause, .removeLayer ⟨1, 1⟩]

theorem pinsMatch_pausedRun :
    let t := run step { scene := SmallScene.created } pausedRun
    PinsMatch t.scene t.exchanged t.callsOn :=
  pinsMatch_of_run
    (show SceneState.create SmallScene.device SmallScene.config 9 = .ok SmallScene.created from rfl)
    pausedRun

/-- A pause takes the pins away without unbinding the sources: the reset is theirs. -/
theorem not_pinsMatch_pausedRun :
    let t := run step { scene := SmallScene.created } pausedRun
    ¬PinsMatch t.scene [] fun source => (t.callsOn source).filter (· ≠ .reset) := by
  intro t h
  have hcalls : (t.callsOn 4).filter (· ≠ .reset) = [.bind 2] := by decide +kernel
  have hdead : ∀ slot ∈ t.scene.slots, slot.shownSource ≠ some 4 := by decide +kernel
  refine h.left 4 List.not_mem_nil hdead 2 ?_
  rw [hcalls]
  exact ⟨[], [], rfl, List.not_mem_nil, List.not_mem_nil⟩

end StreamTrace

end DrmCxx.Scene
