import DrmCxx.Lib.Run
import DrmCxx.Scene.SetLayers

/-!
# Routing the layers of a scene set

A scene set under any sequence of scenes and layers coming and going, with layers also added to
and removed from its scenes directly. What a set-level handle removes is compared with the layers
that were created when it was given out.
-/

namespace DrmCxx.Scene

open Lib (SlotMap Handle Meets meets_of_invariant)

namespace SetLayers

/-! ### Where the layers are -/

def sceneIdAt (scenes : List (Option MemberScene)) (i : SceneIndex) : Option SceneId :=
  (sceneAt scenes i).map (·.id)

def layerAt (scenes : List (Option MemberScene)) (i : SceneIndex) (h : Handle) : Option LayerId :=
  (sceneAt scenes i).bind (·.layers.find? h)

/-- The scene at the index gave the handle out. -/
def IssuedAt (scenes : List (Option MemberScene)) (i : SceneIndex) (h : Handle) : Prop :=
  ∃ scene, sceneAt scenes i = some scene ∧ scene.layers.Issued h

theorem sceneAt_lt {scenes : List (Option MemberScene)} {i : SceneIndex} {scene : MemberScene}
    (h : sceneAt scenes i = some scene) : i < scenes.length := by
  by_contra hlt
  simp [sceneAt, List.getElem?_eq_none (Nat.le_of_not_lt hlt)] at h

theorem sceneAt_set {scenes : List (Option MemberScene)} {i : SceneIndex}
    (hi : i < scenes.length) (x : Option MemberScene) (j : SceneIndex) :
    sceneAt (scenes.set i x) j = if j = i then x else sceneAt scenes j := by
  unfold sceneAt
  rw [List.getElem?_set]
  by_cases hj : i = j
  · subst hj
    simp [hi]
  · simp [hj, Ne.symm hj]

/-- What happens when the scene at an index is changed. -/
theorem layerAt_set {scenes : List (Option MemberScene)} {i : SceneIndex}
    (hi : i < scenes.length) (x : Option MemberScene) (j : SceneIndex) (h : Handle) :
    layerAt (scenes.set i x) j h =
      if j = i then x.bind (·.layers.find? h) else layerAt scenes j h := by
  unfold layerAt
  rw [sceneAt_set hi]
  split <;> rfl

theorem sceneIdAt_set {scenes : List (Option MemberScene)} {i : SceneIndex}
    (hi : i < scenes.length) (x : Option MemberScene) (j : SceneIndex) :
    sceneIdAt (scenes.set i x) j = if j = i then x.map (·.id) else sceneIdAt scenes j := by
  unfold sceneIdAt
  rw [sceneAt_set hi]
  split <;> rfl

/-- Removing pins: nothing but the pinned layers goes. -/
structure RemovedPins (scenes scenes' : List (Option MemberScene)) (pins : List PerScenePin) :
    Prop where
  ids : ∀ i, sceneIdAt scenes' i = sceneIdAt scenes i
  layers : ∀ i h, layerAt scenes' i h = if ⟨i, h⟩ ∈ pins then none else layerAt scenes i h
  issued : ∀ i h, IssuedAt scenes i h → IssuedAt scenes' i h

theorem removePin_spec (scenes : List (Option MemberScene)) (p : PerScenePin) :
    RemovedPins scenes (removePin scenes p) [p] := by
  unfold removePin
  cases hs : sceneAt scenes p.sceneIndex with
  | none =>
    dsimp only
    refine ⟨fun i => rfl, fun i h => ?_, fun i h hi => hi⟩
    by_cases hp : (⟨i, h⟩ : PerScenePin) = p
    · subst hp
      simp [layerAt, show sceneAt scenes i = none from hs]
    · simp [hp]
  | some scene =>
    have hlt := sceneAt_lt hs
    refine ⟨fun i => ?_, fun i h => ?_, fun i h hi => ?_⟩
    · simp only [sceneIdAt_set hlt]
      split
      · rename_i hi
        simp [sceneIdAt, hi, hs, MemberScene.removeLayer]
      · rfl
    · simp only [layerAt_set hlt, List.mem_singleton]
      by_cases hi : i = p.sceneIndex
      · subst hi
        simp only [if_true, MemberScene.removeLayer, Option.bind_some, SlotMap.find?_remove]
        by_cases hh : h = p.layerHandle
        · simp [hh]
        · have hne : (⟨p.sceneIndex, h⟩ : PerScenePin) ≠ p := fun he => hh (by rw [← he])
          simp [hh, hne, layerAt, hs]
      · have hne : (⟨i, h⟩ : PerScenePin) ≠ p := fun he => hi (by rw [← he])
        simp [hi, hne]
    · obtain ⟨scene', hs', hiss⟩ := hi
      by_cases hip : i = p.sceneIndex
      · subst hip
        obtain rfl : scene = scene' := Option.some.inj (hs.symm.trans hs')
        exact ⟨_, by rw [sceneAt_set hlt, if_pos rfl], SlotMap.issued_remove hiss _⟩
      · exact ⟨scene', by rw [sceneAt_set hlt, if_neg hip, hs'], hiss⟩

theorem removePins_spec (scenes : List (Option MemberScene)) (pins : List PerScenePin) :
    RemovedPins scenes (removePins scenes pins) pins := by
  induction pins generalizing scenes with
  | nil => exact ⟨fun i => rfl, fun i h => by simp [removePins], fun i h hi => hi⟩
  | cons p pins ih =>
    have hp := removePin_spec scenes p
    have hps := ih (removePin scenes p)
    refine ⟨fun i => (hps.ids i).trans (hp.ids i), fun i h => ?_, fun i h hi =>
      hps.issued i h (hp.issued i h hi)⟩
    rw [show removePins scenes (p :: pins) = removePins (removePin scenes p) pins from rfl,
      hps.layers, hp.layers]
    by_cases h1 : (⟨i, h⟩ : PerScenePin) ∈ pins
    · simp [h1]
    · simp [h1]

/-! ### Adding the targets -/

/-- The pins of new layers, numbered from `layer`: only they are new. -/
structure AddedPins (scenes scenes' : List (Option MemberScene)) (layer : LayerId)
    (pins : List PerScenePin) : Prop where
  ids : ∀ i, sceneIdAt scenes' i = sceneIdAt scenes i
  fresh : ∀ p ∈ pins, layerAt scenes p.sceneIndex p.layerHandle = none
  unissued : ∀ p ∈ pins, ¬ IssuedAt scenes p.sceneIndex p.layerHandle
  added : ∀ k p, pins[k]? = some p → layerAt scenes' p.sceneIndex p.layerHandle = some (layer + k)
  others : ∀ i h, (⟨i, h⟩ : PerScenePin) ∉ pins → layerAt scenes' i h = layerAt scenes i h
  issued : ∀ i h, IssuedAt scenes i h → IssuedAt scenes' i h
  pinned : ∀ p ∈ pins, IssuedAt scenes' p.sceneIndex p.layerHandle

theorem AddedPins.nil (scenes : List (Option MemberScene)) (layer : LayerId) :
    AddedPins scenes scenes layer [] :=
  ⟨fun i => rfl, by simp, by simp, by simp, fun i h _ => rfl, fun i h hi => hi, by simp⟩

theorem AddedPins.append {a b c : List (Option MemberScene)} {layer : LayerId}
    {ps qs : List PerScenePin} (hp : AddedPins a b layer ps)
    (hq : AddedPins b c (layer + ps.length) qs) : AddedPins a c layer (ps ++ qs) := by
  have hnot : ∀ p ∈ ps, p ∉ qs := by
    intro p hps hqs
    obtain ⟨k, hk⟩ := List.mem_iff_getElem?.mp hps
    have := hp.added k p hk
    rw [hq.fresh p hqs] at this
    cases this
  constructor
  case ids => exact fun i => (hq.ids i).trans (hp.ids i)
  case fresh =>
    intro p hmem
    rcases List.mem_append.mp hmem with h | h
    · exact hp.fresh p h
    · rw [← hp.others _ _ (fun hps => hnot _ hps h)]
      exact hq.fresh p h
  case unissued =>
    intro p hmem
    rcases List.mem_append.mp hmem with h | h
    · exact hp.unissued p h
    · exact fun hiss => hq.unissued p h (hp.issued _ _ hiss)
  case added =>
    intro k p hk
    rcases Nat.lt_or_ge k ps.length with hlt | hge
    · rw [List.getElem?_append_left hlt] at hk
      rw [hq.others _ _ (hnot p (List.mem_of_getElem? hk))]
      exact hp.added k p hk
    · rw [List.getElem?_append_right hge] at hk
      rw [hq.added _ p hk, Nat.add_assoc, Nat.add_sub_cancel' hge]
  case others =>
    intro i h hmem
    rw [List.mem_append, not_or] at hmem
    rw [hq.others i h hmem.2, hp.others i h hmem.1]
  case issued => exact fun i h hi => hq.issued i h (hp.issued i h hi)
  case pinned =>
    intro p hmem
    rcases List.mem_append.mp hmem with h | h
    · exact hq.issued _ _ (hp.pinned p h)
    · exact hq.pinned p h

/-- One layer added to the scene at an index. -/
theorem addLayer_spec {scenes : List (Option MemberScene)} {i : SceneIndex}
    {scene scene' : MemberScene} {model : BindingModel} {layer : LayerId} {h : Handle}
    (hs : sceneAt scenes i = some scene) (hw : scene.layers.Unwrapped)
    (hadd : scene.addLayer model layer = .ok (scene', h)) :
    AddedPins scenes (scenes.set i (some scene')) layer [⟨i, h⟩] := by
  unfold MemberScene.addLayer at hadd
  split at hadd
  · cases hadd
  cases hadd
  have hlt := sceneAt_lt hs
  constructor
  case ids =>
    intro j
    rw [sceneIdAt_set hlt]
    split
    · rename_i hj
      simp [sceneIdAt, hj, hs]
    · rfl
  case fresh => simp [layerAt, hs, SlotMap.find?_nextHandle]
  case unissued =>
    intro p hp hiss
    obtain rfl := List.mem_singleton.mp hp
    obtain ⟨scene'', hs'', hiss⟩ := hiss
    obtain rfl : scene = scene'' := Option.some.inj (hs.symm.trans hs'')
    exact SlotMap.nextHandle_ne_of_issued hiss hw rfl
  case added =>
    intro k p hk
    obtain ⟨rfl, rfl⟩ : k = 0 ∧ (⟨i, scene.layers.nextHandle⟩ : PerScenePin) = p := by
      cases k with
      | zero => simpa using hk
      | succ k => simp at hk
    simp [layerAt_set hlt, SlotMap.find?_insert]
  case others =>
    intro j h' hj
    rw [layerAt_set hlt]
    split
    · rename_i hji
      subst hji
      have hne : h' ≠ scene.layers.nextHandle := by
        rintro rfl
        simp at hj
      simp [layerAt, hs, SlotMap.find?_insert, hne]
    · rfl
  case issued =>
    intro j h' hj
    obtain ⟨scene'', hs'', hiss⟩ := hj
    by_cases hji : j = i
    · subst hji
      obtain rfl : scene = scene'' := Option.some.inj (hs.symm.trans hs'')
      exact ⟨_, by rw [sceneAt_set hlt, if_pos rfl], SlotMap.issued_insert hiss hw _⟩
    · exact ⟨scene'', by rw [sceneAt_set hlt, if_neg hji, hs''], hiss⟩
  case pinned =>
    intro p hp
    obtain rfl := List.mem_singleton.mp hp
    exact ⟨_, by rw [sceneAt_set hlt, if_pos rfl], SlotMap.issued_nextHandle _ _⟩

/-- The loop over the targets adds one layer each, or none at all. -/
theorem addTargets_spec (model : BindingModel) (ts : List SceneIndex) (hts : ts.Nodup)
    (layer : LayerId) (scenes : List (Option MemberScene)) (pins : List PerScenePin)
    (hw : ∀ t ∈ ts, ∀ scene, sceneAt scenes t = some scene → scene.layers.Unwrapped) :
    ∃ scenes₁ added, AddedPins scenes scenes₁ layer added ∧
      ((addTargets model layer scenes pins ts = (scenes₁, .ok (pins ++ added)) ∧
          added.map (·.sceneIndex) = ts) ∨
        ∃ scenes₂ e, addTargets model layer scenes pins ts = (scenes₂, .error e) ∧
          RemovedPins scenes₁ scenes₂ (pins ++ added)) := by
  induction ts generalizing layer scenes pins with
  | nil => exact ⟨scenes, [], .nil scenes layer, .inl ⟨by simp [addTargets], rfl⟩⟩
  | cons t ts ih =>
    obtain ⟨hnot, hnd⟩ := List.nodup_cons.mp hts
    unfold addTargets
    cases hs : sceneAt scenes t with
    | none =>
      exact ⟨scenes, [], .nil scenes layer, .inr ⟨_, _, rfl,
        by simpa using removePins_spec scenes pins⟩⟩
    | some scene =>
      dsimp only
      cases hadd : scene.addLayer model layer with
      | error e =>
        exact ⟨scenes, [], .nil scenes layer, .inr ⟨_, _, rfl,
          by simpa using removePins_spec scenes pins⟩⟩
      | ok r =>
        obtain ⟨scene', h⟩ := r
        have hone := addLayer_spec hs (hw t List.mem_cons_self scene hs) hadd
        have hlt := sceneAt_lt hs
        obtain ⟨scenes₁, added, hadded, hres⟩ := ih hnd (layer + 1)
          (scenes.set t (some scene')) (pins ++ [⟨t, h⟩]) (by
            intro t' ht' scene'' hs''
            rw [sceneAt_set hlt, if_neg (by rintro rfl; exact hnot ht')] at hs''
            exact hw t' (List.mem_cons_of_mem _ ht') scene'' hs'')
        refine ⟨scenes₁, ⟨t, h⟩ :: added, hone.append hadded, ?_⟩
        rcases hres with ⟨hres, hmap⟩ | ⟨scenes₂, e, hres, hrem⟩
        · exact .inl ⟨by simpa using hres, by simp [hmap]⟩
        · exact .inr ⟨scenes₂, e, hres, by simpa using hrem⟩

theorem validTargets_nodup {scenes : List (Option MemberScene)} {seen ts : List SceneIndex}
    (h : validTargets scenes seen ts) : ts.Nodup ∧ ∀ t ∈ ts, t ∉ seen := by
  induction ts generalizing seen with
  | nil => simp
  | cons t ts ih =>
    simp only [validTargets, Bool.and_eq_true, Bool.not_eq_true', List.contains_eq_mem,
      decide_eq_false_iff_not] at h
    obtain ⟨⟨-, hseen⟩, hrest⟩ := h
    obtain ⟨hnd, hts⟩ := ih hrest
    refine ⟨List.nodup_cons.mpr ⟨fun hmem => hts t hmem List.mem_cons_self, hnd⟩, ?_⟩
    intro t' ht'
    rcases List.mem_cons.mp ht' with rfl | ht'
    · exact hseen
    · exact fun hmem => hts t' ht' (List.mem_cons_of_mem _ hmem)

/-- The scenes keep their layers under their handles. -/
structure SameLayers (scenes scenes' : List (Option MemberScene)) : Prop where
  ids : ∀ i, sceneIdAt scenes' i = sceneIdAt scenes i
  layers : ∀ i h, layerAt scenes' i h = layerAt scenes i h
  issued : ∀ i h, IssuedAt scenes i h → IssuedAt scenes' i h

theorem addSetLayer_cases (s : SetLayers) (spec : SceneSetLayerSpec) (layer : LayerId)
    (hw : ∀ i ∈ spec.targets, ∀ scene, sceneAt s.scenes i = some scene →
      scene.layers.Unwrapped) :
    (∃ scenes e, s.addSetLayer spec layer = ({ s with scenes }, .error e) ∧
        SameLayers s.scenes scenes) ∨
      ∃ scenes pins, s.addSetLayer spec layer =
          ({ scenes, setSlots := (s.setSlots.insert pins).1 }, .ok s.setSlots.nextHandle) ∧
        AddedPins s.scenes scenes layer pins ∧ pins.map (·.sceneIndex) = spec.targets := by
  have hsame : SameLayers s.scenes s.scenes :=
    ⟨fun i => rfl, fun i h => rfl, fun i h hi => hi⟩
  unfold addSetLayer
  cases spec.source with
  | none => exact .inl ⟨_, _, rfl, hsame⟩
  | some model =>
    dsimp only
    split
    · exact .inl ⟨_, _, rfl, hsame⟩
    split
    · exact .inl ⟨_, _, rfl, hsame⟩
    rename_i hvalid
    have hnd := (validTargets_nodup (not_not.mp hvalid)).1
    obtain ⟨scenes₁, added, hadded, hres⟩ :=
      addTargets_spec model spec.targets hnd layer s.scenes [] hw
    rcases hres with ⟨hres, hmap⟩ | ⟨scenes₂, e, hres, hrem⟩
    · exact .inr ⟨scenes₁, added, by simp [hres], hadded, hmap⟩
    · refine .inl ⟨scenes₂, e, by simp [hres], fun i => ?_, fun i h => ?_, fun i h hi => ?_⟩
      · rw [hrem.ids, hadded.ids]
      · rw [hrem.layers, List.nil_append]
        split
        · rename_i hp
          exact (hadded.fresh _ hp).symm
        · rename_i hp
          exact hadded.others i h hp
      · exact hrem.issued i h (hadded.issued i h hi)

/-- Nothing is lost but layers, and new layers sit under handles that were not given out before. -/
structure Extends (scenes scenes' : List (Option MemberScene)) (lo hi : LayerId) : Prop where
  ids : ∀ i s, sceneIdAt scenes i = some s → sceneIdAt scenes' i = some s
  layers : ∀ i h u, layerAt scenes' i h = some u →
    layerAt scenes i h = some u ∨ lo ≤ u ∧ u < hi ∧ ¬ IssuedAt scenes i h
  issued : ∀ i h, IssuedAt scenes i h → IssuedAt scenes' i h

theorem SameLayers.extends {scenes scenes' : List (Option MemberScene)}
    (h : SameLayers scenes scenes') (lo hi : LayerId) : Extends scenes scenes' lo hi :=
  ⟨fun i _ hs => (h.ids i).trans hs, fun i h' _ hu => .inl ((h.layers i h').symm.trans hu),
    h.issued⟩

theorem RemovedPins.extends {scenes scenes' : List (Option MemberScene)}
    {pins : List PerScenePin} (h : RemovedPins scenes scenes' pins) (lo hi : LayerId) :
    Extends scenes scenes' lo hi := by
  refine ⟨fun i s hs => (h.ids i).trans hs, fun i h' u hu => ?_, h.issued⟩
  rw [h.layers] at hu
  split at hu
  · cases hu
  · exact .inl hu

theorem AddedPins.extends {scenes scenes' : List (Option MemberScene)} {layer : LayerId}
    {pins : List PerScenePin} (h : AddedPins scenes scenes' layer pins) :
    Extends scenes scenes' layer (layer + pins.length) := by
  refine ⟨fun i s hs => (h.ids i).trans hs, fun i h' u hu => ?_, h.issued⟩
  by_cases hp : (⟨i, h'⟩ : PerScenePin) ∈ pins
  · obtain ⟨k, hk⟩ := List.mem_iff_getElem?.mp hp
    have hlt := (List.getElem?_eq_some_iff.mp hk).1
    rw [h.added k _ hk] at hu
    cases hu
    exact .inr ⟨Nat.le_add_right _ _, Nat.add_lt_add_left hlt _, h.unissued _ hp⟩
  · exact .inl ((h.others i h' hp).symm.trans hu)

theorem sceneIdAt_of_layerAt {scenes : List (Option MemberScene)} {i : SceneIndex} {h : Handle}
    {u : LayerId} (hu : layerAt scenes i h = some u) : ∃ s, sceneIdAt scenes i = some s := by
  obtain ⟨scene, hs, -⟩ := Option.bind_eq_some_iff.mp hu
  exact ⟨scene.id, by simp [sceneIdAt, hs]⟩

end SetLayers

/-! ### Calls on a set, with the layers each handle was given out for -/

/-- A layer in the scene it was created in. -/
abbrev PlacedLayer := SceneId × LayerId

structure IssuedLayer where
  handle : Handle
  layers : List PlacedLayer
  deriving DecidableEq, Repr

structure SetLayersTrace where
  set : SetLayers := {}
  nextScene : SceneId := 0
  nextLayer : LayerId := 0
  issued : List IssuedLayer := []

inductive SetLayersEvent
  /-- A scene with the layers it already holds, and whether it may hold streams. -/
  | addScene (scene : Option (SlotMap Unit × Bool))
  | removeScene (index : SceneIndex)
  | addLayer (spec : SceneSetLayerSpec)
  | removeLayer (h : Handle)
  /-- `scene(index)->add_layer`. -/
  | addToScene (index : SceneIndex) (model : BindingModel)
  /-- `scene(index)->remove_layer`. -/
  | removeFromScene (index : SceneIndex) (h : Handle)

namespace SetLayersTrace

open SetLayers

/-- The layers made for the targets of a new set-level layer. -/
def createdLayers (t : SetLayersTrace) (spec : SceneSetLayerSpec) : List PlacedLayer :=
  spec.targets.zipIdx.filterMap fun (i, k) =>
    (sceneIdAt t.set.scenes i).map fun scene => (scene, t.nextLayer + k)

def newScene (t : SetLayersTrace) (table : SlotMap Unit) (streamUsable : Bool) : MemberScene :=
  { id := t.nextScene
    layers := table.mapContents fun i _ => t.nextLayer + i
    streamUsable }

def addedToScene (t : SetLayersTrace) (index : SceneIndex) (model : BindingModel) :
    List (Option MemberScene) :=
  match sceneAt t.set.scenes index with
  | none => t.set.scenes
  | some scene =>
    match scene.addLayer model t.nextLayer with
    | .error _ => t.set.scenes
    | .ok (scene, _) => t.set.scenes.set index (some scene)

def step (t : SetLayersTrace) : SetLayersEvent → SetLayersTrace
  | .addScene none => t
  | .addScene (some (table, streamUsable)) =>
    { t with
      set := (t.set.addScene (some (t.newScene table streamUsable))).1
      nextScene := t.nextScene + 1
      nextLayer := t.nextLayer + table.slots.length }
  | .removeScene index => { t with set := t.set.removeScene index }
  | .addLayer spec =>
    { t with
      set := (t.set.addSetLayer spec t.nextLayer).1
      nextLayer := t.nextLayer + spec.targets.length
      issued := match (t.set.addSetLayer spec t.nextLayer).2 with
        | .error _ => t.issued
        | .ok handle => t.issued ++ [⟨handle, t.createdLayers spec⟩] }
  | .removeLayer h => { t with set := t.set.removeSetLayer h }
  | .addToScene index model =>
    { t with
      set := { t.set with scenes := t.addedToScene index model }
      nextLayer := t.nextLayer + 1 }
  | .removeFromScene index h =>
    { t with set := { t.set with scenes := removePin t.set.scenes ⟨index, h⟩ } }

/-- The layer is in its scene, and the scene in the set. -/
def Live (t : SetLayersTrace) (layer : PlacedLayer) : Prop :=
  ∃ i h, sceneIdAt t.set.scenes i = some layer.1 ∧ layerAt t.set.scenes i h = some layer.2

/-- An added layer is exactly the layers it is made of, a failed one leaves every handle of every
scene as it was, and a handle removes exactly what is left of the layers it was given out for. -/
def Routed (t : SetLayersTrace) : SetLayersEvent → Prop
  | .addLayer spec =>
    match (t.set.addSetLayer spec t.nextLayer).2 with
    | .error _ => ∀ i h, layerAt (t.step (.addLayer spec)).set.scenes i h =
        layerAt t.set.scenes i h ∧
        sceneIdAt (t.step (.addLayer spec)).set.scenes i = sceneIdAt t.set.scenes i
    | .ok _ => ∀ layer, (t.step (.addLayer spec)).Live layer ↔
        t.Live layer ∨ layer ∈ t.createdLayers spec
  | .removeLayer h =>
    (∀ k ∈ t.issued, k.handle = h → ∀ layer,
        (t.step (.removeLayer h)).Live layer ↔ t.Live layer ∧ layer ∉ k.layers) ∧
      ((∀ k ∈ t.issued, k.handle ≠ h) → t.step (.removeLayer h) = t)
  | _ => True

/-- No generation counter of a slot in use comes round. -/
def NoWrap (t : SetLayersTrace) : SetLayersEvent → Prop
  | .addLayer spec => t.set.setSlots.Unwrapped ∧ ∀ i ∈ spec.targets, ∀ scene,
      sceneAt t.set.scenes i = some scene → scene.layers.Unwrapped
  | .addToScene index _ => ∀ scene, sceneAt t.set.scenes index = some scene →
      scene.layers.Unwrapped
  | _ => True

structure Inv (t : SetLayersTrace) : Prop where
  layer_lt : ∀ i h u, layerAt t.set.scenes i h = some u → u < t.nextLayer
  created_lt : ∀ k ∈ t.issued, ∀ layer ∈ k.layers, layer.2 < t.nextLayer
  handles : ∀ k ∈ t.issued, t.set.setSlots.Issued k.handle
  issued : ∀ h pins, t.set.setSlots.find? h = some pins → ∃ k ∈ t.issued, k.handle = h
  pinned : ∀ h pins, t.set.setSlots.find? h = some pins → ∀ p ∈ pins,
    IssuedAt t.set.scenes p.sceneIndex p.layerHandle
  /-- What a pin of a handle names was created for the handle. -/
  sound : ∀ k ∈ t.issued, ∀ pins, t.set.setSlots.find? k.handle = some pins → ∀ p ∈ pins,
    ∀ u, layerAt t.set.scenes p.sceneIndex p.layerHandle = some u →
      ∃ scene, sceneIdAt t.set.scenes p.sceneIndex = some scene ∧ (scene, u) ∈ k.layers
  /-- What was created for a handle and is still there is pinned. -/
  complete : ∀ k ∈ t.issued, ∀ layer ∈ k.layers, ∀ i h,
    sceneIdAt t.set.scenes i = some layer.1 → layerAt t.set.scenes i h = some layer.2 →
    ∃ pins, t.set.setSlots.find? k.handle = some pins ∧ ⟨i, h⟩ ∈ pins

/-! ### The invariant -/

/-- Scenes may gain layers of their own and lose any. -/
theorem Inv.extend {t : SetLayersTrace} (ht : t.Inv) {scenes : List (Option MemberScene)}
    {hi : LayerId} (hle : t.nextLayer ≤ hi)
    (h : Extends t.set.scenes scenes t.nextLayer hi) (nextScene : SceneId) :
    ({ t with set := { t.set with scenes }, nextScene, nextLayer := hi } : SetLayersTrace).Inv := by
  constructor
  case layer_lt =>
    intro i h' u hu
    rcases h.layers i h' u hu with hu | ⟨-, hu, -⟩
    · exact Nat.lt_of_lt_of_le (ht.layer_lt i h' u hu) hle
    · exact hu
  case created_lt =>
    exact fun k hk layer hl => Nat.lt_of_lt_of_le (ht.created_lt k hk layer hl) hle
  case handles => exact ht.handles
  case issued => exact ht.issued
  case pinned => exact fun h' pins hf p hp => h.issued _ _ (ht.pinned h' pins hf p hp)
  case sound =>
    intro k hk pins hf p hp u hu
    rcases h.layers _ _ u hu with hu | ⟨-, -, hnot⟩
    · obtain ⟨s, hs, hmem⟩ := ht.sound k hk pins hf p hp u hu
      exact ⟨s, h.ids _ s hs, hmem⟩
    · exact absurd (ht.pinned _ pins hf p hp) hnot
  case complete =>
    intro k hk layer hl i h' hs hu
    rcases h.layers i h' _ hu with hu | ⟨hlo, -, -⟩
    · obtain ⟨s, hs'⟩ := sceneIdAt_of_layerAt hu
      have hs'' := h.ids i s hs'
      obtain rfl : s = layer.1 := Option.some.inj (hs''.symm.trans hs)
      exact ht.complete k hk layer hl i h' hs' hu
    · exact absurd (ht.created_lt k hk layer hl) (Nat.not_lt.mpr hlo)

theorem inv_init : ({} : SetLayersTrace).Inv where
  layer_lt i h u hu := by simp [layerAt, sceneAt] at hu
  created_lt k hk := by cases hk
  handles k hk := by cases hk
  issued h pins hf := by simp at hf
  pinned h pins hf := by simp at hf
  sound k hk := by cases hk
  complete k hk := by cases hk

/-! ### Adding a set-level layer -/

theorem mem_createdLayers {t : SetLayersTrace} {spec : SceneSetLayerSpec} {layer : PlacedLayer} :
    layer ∈ t.createdLayers spec ↔ ∃ k i, spec.targets[k]? = some i ∧
      sceneIdAt t.set.scenes i = some layer.1 ∧ layer.2 = t.nextLayer + k := by
  obtain ⟨s, u⟩ := layer
  simp only [createdLayers, List.mem_filterMap, Prod.exists, List.mem_zipIdx_iff_getElem?,
    Option.map_eq_some_iff, Prod.mk.injEq]
  constructor
  · rintro ⟨i, k, hk, s', hs, rfl, rfl⟩
    exact ⟨k, i, hk, hs, rfl⟩
  · rintro ⟨k, i, hk, hs, rfl⟩
    exact ⟨i, k, hk, s, hs, rfl, rfl⟩

/-- What the new pins name is what was created. -/
theorem created_of_pin {t : SetLayersTrace} {spec : SceneSetLayerSpec}
    {scenes : List (Option MemberScene)} {pins : List PerScenePin}
    (h : AddedPins t.set.scenes scenes t.nextLayer pins)
    (hmap : pins.map (·.sceneIndex) = spec.targets) {p : PerScenePin} (hp : p ∈ pins)
    {u : LayerId} (hu : layerAt scenes p.sceneIndex p.layerHandle = some u) :
    ∃ s, sceneIdAt scenes p.sceneIndex = some s ∧ (s, u) ∈ t.createdLayers spec := by
  obtain ⟨k, hk⟩ := List.mem_iff_getElem?.mp hp
  obtain ⟨s, hs⟩ := sceneIdAt_of_layerAt hu
  rw [h.added k p hk] at hu
  cases hu
  refine ⟨s, hs, mem_createdLayers.mpr ⟨k, p.sceneIndex, ?_, (h.ids _).symm.trans hs, rfl⟩⟩
  rw [← hmap, List.getElem?_map, hk]
  rfl

/-- A created layer sits under the new pin of its target, and under no other handle. -/
theorem pin_of_created {t : SetLayersTrace} (ht : t.Inv) {spec : SceneSetLayerSpec}
    {scenes : List (Option MemberScene)} {pins : List PerScenePin}
    (h : AddedPins t.set.scenes scenes t.nextLayer pins) {layer : PlacedLayer}
    (hl : layer ∈ t.createdLayers spec) {i : SceneIndex} {h' : Handle}
    (hu : layerAt scenes i h' = some layer.2) : (⟨i, h'⟩ : PerScenePin) ∈ pins := by
  obtain ⟨k, j, -, -, hk⟩ := mem_createdLayers.mp hl
  by_contra hnot
  rw [h.others i h' hnot, hk] at hu
  exact absurd (ht.layer_lt i h' _ hu) (Nat.not_lt.mpr (Nat.le_add_right _ _))

theorem inv_addLayer {t : SetLayersTrace} (ht : t.Inv) {spec : SceneSetLayerSpec}
    (hw : t.NoWrap (.addLayer spec)) : (t.step (.addLayer spec)).Inv := by
  rcases addSetLayer_cases t.set spec t.nextLayer hw.2 with
    ⟨scenes, e, hres, hsame⟩ | ⟨scenes, pins, hres, hadded, hmap⟩
  · simp only [step, hres]
    exact ht.extend (Nat.le_add_right _ _) (hsame.extends _ _) t.nextScene
  have hlen : pins.length = spec.targets.length := by rw [← hmap, List.length_map]
  have hext := ht.extend (Nat.le_add_right _ _) hadded.extends t.nextScene
  rw [hlen] at hext
  have hne : ∀ k ∈ t.issued, k.handle ≠ t.set.setSlots.nextHandle := fun k hk he =>
    SlotMap.nextHandle_ne_of_issued (ht.handles k hk) hw.1 he.symm
  simp only [step, hres]
  constructor
  case layer_lt => exact hext.layer_lt
  case created_lt =>
    intro k hk layer hl
    rcases List.mem_append.mp hk with hk | hk
    · exact hext.created_lt k hk layer hl
    · obtain rfl := List.mem_singleton.mp hk
      obtain ⟨j, i, hj, -, hu⟩ := mem_createdLayers.mp hl
      have hlt := (List.getElem?_eq_some_iff.mp hj).1
      rw [hu]
      exact Nat.add_lt_add_left hlt _
  case handles =>
    intro k hk
    rcases List.mem_append.mp hk with hk | hk
    · exact SlotMap.issued_insert (ht.handles k hk) hw.1 _
    · obtain rfl := List.mem_singleton.mp hk
      exact SlotMap.issued_nextHandle _ _
  case issued =>
    intro h pins' hf
    rw [SlotMap.find?_insert] at hf
    split at hf
    · rename_i hh
      exact ⟨_, List.mem_append_right _ (List.mem_singleton_self _), hh.symm⟩
    · obtain ⟨k, hk, hkh⟩ := ht.issued h pins' hf
      exact ⟨k, List.mem_append_left _ hk, hkh⟩
  case pinned =>
    intro h pins' hf p hp
    rw [SlotMap.find?_insert] at hf
    split at hf
    · cases hf
      exact hadded.pinned p hp
    · exact hext.pinned h pins' hf p hp
  case sound =>
    intro k hk pins' hf p hp u hu
    rw [SlotMap.find?_insert] at hf
    rcases List.mem_append.mp hk with hk | hk
    · rw [if_neg (hne k hk)] at hf
      exact hext.sound k hk pins' hf p hp u hu
    · obtain rfl := List.mem_singleton.mp hk
      rw [if_pos rfl] at hf
      cases hf
      exact created_of_pin hadded hmap hp hu
  case complete =>
    intro k hk layer hl i h hs hu
    rw [SlotMap.find?_insert]
    rcases List.mem_append.mp hk with hk | hk
    · rw [if_neg (hne k hk)]
      exact hext.complete k hk layer hl i h hs hu
    · obtain rfl := List.mem_singleton.mp hk
      exact ⟨pins, if_pos rfl, pin_of_created ht hadded hl hu⟩

theorem routed_addLayer {t : SetLayersTrace} {spec : SceneSetLayerSpec}
    (hw : t.NoWrap (.addLayer spec)) : t.Routed (.addLayer spec) := by
  rcases addSetLayer_cases t.set spec t.nextLayer hw.2 with
    ⟨scenes, e, hres, hsame⟩ | ⟨scenes, pins, hres, hadded, hmap⟩
  · simp only [Routed, step, hres]
    exact fun i h => ⟨hsame.layers i h, hsame.ids i⟩
  · simp only [Routed, step, hres]
    intro layer
    constructor
    · rintro ⟨i, h, hs, hu⟩
      by_cases hp : (⟨i, h⟩ : PerScenePin) ∈ pins
      · obtain ⟨s, hs', hmem⟩ := created_of_pin hadded hmap hp hu
        obtain rfl : layer.1 = s := Option.some.inj (hs.symm.trans hs')
        exact .inr hmem
      · exact .inl ⟨i, h, (hadded.ids i).symm.trans hs, (hadded.others i h hp).symm.trans hu⟩
    · rintro (⟨i, h, hs, hu⟩ | hl)
      · have hp : (⟨i, h⟩ : PerScenePin) ∉ pins := by
          intro hp
          rw [hadded.fresh _ hp] at hu
          cases hu
        exact ⟨i, h, (hadded.ids i).trans hs, (hadded.others i h hp).trans hu⟩
      · obtain ⟨k, i, hk, hs, hu⟩ := mem_createdLayers.mp hl
        rw [← hmap, List.getElem?_map, Option.map_eq_some_iff] at hk
        obtain ⟨p, hp, rfl⟩ := hk
        refine ⟨p.sceneIndex, p.layerHandle, (hadded.ids _).trans hs, ?_⟩
        rw [hadded.added k p hp, hu]

/-! ### Removing one -/

theorem routed_removeLayer {t : SetLayersTrace} (ht : t.Inv) (h : Handle) :
    t.Routed (.removeLayer h) := by
  cases hf : t.set.setSlots.find? h with
  | none =>
    have hstep : t.step (.removeLayer h) = t := by simp [step, removeSetLayer, hf]
    simp only [Routed, hstep]
    refine ⟨fun k hk hkh layer => ?_, fun _ => trivial⟩
    rw [iff_self_and]
    rintro ⟨i, h', hs, hu⟩ hl
    obtain ⟨pins, hpins, -⟩ := ht.complete k hk layer hl i h' hs hu
    rw [hkh, hf] at hpins
    cases hpins
  | some pins =>
    have hrem := removePins_spec t.set.scenes pins
    simp only [Routed, step, removeSetLayer, hf]
    constructor
    · rintro k hk rfl layer
      constructor
      · rintro ⟨i, h', hs, hu⟩
        dsimp only at hs hu
        rw [hrem.layers] at hu
        rw [hrem.ids] at hs
        split at hu
        · cases hu
        · rename_i hp
          refine ⟨⟨i, h', hs, hu⟩, fun hl => ?_⟩
          obtain ⟨pins', hpins', hp'⟩ := ht.complete k hk layer hl i h' hs hu
          obtain rfl : pins = pins' := Option.some.inj (hf.symm.trans hpins')
          exact hp hp'
      · rintro ⟨⟨i, h', hs, hu⟩, hl⟩
        refine ⟨i, h', (hrem.ids i).trans hs, ?_⟩
        rw [hrem.layers, if_neg]
        · exact hu
        · intro hp
          obtain ⟨s, hs', hmem⟩ := ht.sound k hk pins hf _ hp _ hu
          obtain rfl : layer.1 = s := Option.some.inj (hs.symm.trans hs')
          exact hl hmem
    · intro hall
      obtain ⟨k, hk, hkh⟩ := ht.issued h pins hf
      exact absurd hkh (hall k hk)

theorem inv_removeLayer {t : SetLayersTrace} (ht : t.Inv) (h : Handle) :
    (t.step (.removeLayer h)).Inv := by
  cases hf : t.set.setSlots.find? h with
  | none =>
    have hstep : t.step (.removeLayer h) = t := by simp [step, removeSetLayer, hf]
    rwa [hstep]
  | some pins =>
    have hrem := removePins_spec t.set.scenes pins
    have hext := ht.extend (Nat.le_refl _) (hrem.extends t.nextLayer t.nextLayer) t.nextScene
    have hfind : ∀ h' pins', (t.set.setSlots.remove h).find? h' = some pins' →
        t.set.setSlots.find? h' = some pins' := by
      intro h' pins' hf'
      rw [SlotMap.find?_remove] at hf'
      split at hf'
      · cases hf'
      · exact hf'
    simp only [step, removeSetLayer, hf]
    constructor
    case layer_lt => exact hext.layer_lt
    case created_lt => exact ht.created_lt
    case handles => exact fun k hk => SlotMap.issued_remove (ht.handles k hk) h
    case issued => exact fun h' pins' hf' => ht.issued h' pins' (hfind h' pins' hf')
    case pinned => exact fun h' pins' hf' => hext.pinned h' pins' (hfind h' pins' hf')
    case sound => exact fun k hk pins' hf' => hext.sound k hk pins' (hfind _ pins' hf')
    case complete =>
      intro k hk layer hl i h' hs hu
      obtain ⟨pins', hf', hp'⟩ := hext.complete k hk layer hl i h' hs hu
      refine ⟨pins', ?_, hp'⟩
      rw [SlotMap.find?_remove, if_neg]
      · exact hf'
      · rintro rfl
        obtain rfl : pins = pins' := Option.some.inj (hf.symm.trans hf')
        dsimp only at hu
        rw [hrem.layers, if_pos hp'] at hu
        cases hu

/-! ### Scenes coming and going -/

theorem inv_addScene {t : SetLayersTrace} (ht : t.Inv) (scene : Option (SlotMap Unit × Bool)) :
    (t.step (.addScene scene)).Inv := by
  cases scene with
  | none => exact ht
  | some scene =>
    obtain ⟨table, streamUsable⟩ := scene
    -- the scene comes to an index that had none
    obtain ⟨j, scenes, hstep, hempty, hat⟩ : ∃ j scenes,
        (t.set.addScene (some (t.newScene table streamUsable))).1 = { t.set with scenes } ∧
        sceneAt t.set.scenes j = none ∧ ∀ i, sceneAt scenes i =
          if i = j then some (t.newScene table streamUsable) else sceneAt t.set.scenes i := by
      unfold addScene
      cases hf : t.set.scenes.findIdx? (·.isNone) with
      | some j =>
        obtain ⟨hlt, hnone, -⟩ := List.findIdx?_eq_some_iff_getElem.mp hf
        refine ⟨j, _, rfl, ?_, sceneAt_set hlt _⟩
        simpa [sceneAt, hlt] using hnone
      | none =>
        refine ⟨t.set.scenes.length, _, rfl, by simp [sceneAt], fun i => ?_⟩
        unfold sceneAt
        rcases Nat.lt_trichotomy i t.set.scenes.length with h | rfl | h
        · rw [List.getElem?_append_left h, if_neg (Nat.ne_of_lt h)]
        · simp
        · rw [if_neg (Nat.ne_of_gt h), List.getElem?_eq_none (Nat.le_of_lt h),
            List.getElem?_eq_none (by simpa using Nat.succ_le_of_lt h)]
    have hnone : ∀ i s, sceneAt t.set.scenes i = some s → i ≠ j := by
      rintro i s hs rfl
      rw [hempty] at hs
      cases hs
    simp only [step, hstep]
    refine ht.extend (Nat.le_add_right _ _) ⟨fun i s hs => ?_, fun i h u hu => ?_, ?_⟩ _
    · obtain ⟨scene, hscene, -⟩ := Option.map_eq_some_iff.mp hs
      rw [sceneIdAt, hat, if_neg (hnone i scene hscene)]
      exact hs
    · rw [layerAt, hat] at hu
      split at hu
      · rename_i hij
        subst hij
        rw [Option.bind_some, newScene, SlotMap.find?_mapContents, Option.map_eq_some_iff] at hu
        obtain ⟨_, hfound, rfl⟩ := hu
        obtain ⟨hid, s, hs, -⟩ := SlotMap.find?_eq_some.mp hfound
        have hlt := (List.getElem?_eq_some_iff.mp hs).1
        refine .inr ⟨Nat.le_add_right _ _, Nat.add_lt_add_left hlt _, fun hiss => ?_⟩
        obtain ⟨scene, hscene, -⟩ := hiss
        exact hnone i scene hscene rfl
      · exact .inl hu
    · rintro i h ⟨scene, hscene, hiss⟩
      exact ⟨scene, by rw [hat, if_neg (hnone i scene hscene), hscene], hiss⟩

theorem inv_removeScene {t : SetLayersTrace} (ht : t.Inv) (index : SceneIndex) :
    (t.step (.removeScene index)).Inv := by
  cases hs : sceneAt t.set.scenes index with
  | none =>
    have hstep : t.step (.removeScene index) = t := by simp [step, removeScene, hs]
    rwa [hstep]
  | some scene =>
    have hlt := sceneAt_lt hs
    have hlayer : ∀ i h u, layerAt (t.set.scenes.set index none) i h = some u →
        i ≠ index ∧ layerAt t.set.scenes i h = some u := by
      intro i h u hu
      rw [layerAt_set hlt] at hu
      split at hu
      · cases hu
      · rename_i hi
        exact ⟨hi, hu⟩
    have hfind : ∀ h pins', (t.set.setSlots.mapContents fun _ pins =>
        pins.filter fun p => p.sceneIndex ≠ index).find? h = some pins' →
        ∃ pins, t.set.setSlots.find? h = some pins ∧
          ∀ p ∈ pins', p ∈ pins ∧ p.sceneIndex ≠ index := by
      intro h pins' hf
      rw [SlotMap.find?_mapContents, Option.map_eq_some_iff] at hf
      obtain ⟨pins, hf, rfl⟩ := hf
      exact ⟨pins, hf, fun p hp => by simpa using List.mem_filter.mp hp⟩
    simp only [step, removeScene, hs]
    constructor
    case layer_lt => exact fun i h u hu => ht.layer_lt i h u (hlayer i h u hu).2
    case created_lt => exact ht.created_lt
    case handles => exact fun k hk => SlotMap.issued_mapContents (ht.handles k hk) _
    case issued =>
      intro h pins' hf
      obtain ⟨pins, hf, -⟩ := hfind h pins' hf
      exact ht.issued h pins hf
    case pinned =>
      intro h pins' hf p hp
      obtain ⟨pins, hf, hmem⟩ := hfind h pins' hf
      obtain ⟨hp, hne⟩ := hmem p hp
      obtain ⟨scene', hs', hiss⟩ := ht.pinned h pins hf p hp
      exact ⟨scene', by rw [sceneAt_set hlt, if_neg hne, hs'], hiss⟩
    case sound =>
      intro k hk pins' hf p hp u hu
      obtain ⟨pins, hf, hmem⟩ := hfind _ pins' hf
      obtain ⟨hne, hu⟩ := hlayer _ _ u hu
      obtain ⟨s, hs', hl⟩ := ht.sound k hk pins hf p (hmem p hp).1 u hu
      exact ⟨s, by rw [sceneIdAt_set hlt, if_neg hne, hs'], hl⟩
    case complete =>
      intro k hk layer hl i h hs' hu
      obtain ⟨hne, hu⟩ := hlayer i h _ hu
      dsimp only at hs'
      rw [sceneIdAt_set hlt, if_neg hne] at hs'
      obtain ⟨pins, hf, hp⟩ := ht.complete k hk layer hl i h hs' hu
      exact ⟨_, by rw [SlotMap.find?_mapContents, hf]; rfl,
        List.mem_filter.mpr ⟨hp, by simpa using hne⟩⟩

theorem inv_addToScene {t : SetLayersTrace} (ht : t.Inv) {index : SceneIndex} {model : BindingModel}
    (hw : t.NoWrap (.addToScene index model)) : (t.step (.addToScene index model)).Inv := by
  refine ht.extend (Nat.le_succ _) ?_ t.nextScene
  have hsame : Extends t.set.scenes t.set.scenes t.nextLayer (t.nextLayer + 1) :=
    SameLayers.extends ⟨fun i => rfl, fun i h => rfl, fun i h hi => hi⟩ _ _
  unfold addedToScene
  cases hs : sceneAt t.set.scenes index with
  | none => exact hsame
  | some scene =>
    dsimp only
    cases hadd : scene.addLayer model t.nextLayer with
    | error e => exact hsame
    | ok r => exact (addLayer_spec hs (hw scene hs) hadd).extends

theorem inv_step {t : SetLayersTrace} {e : SetLayersEvent} (ht : t.Inv) (hw : t.NoWrap e) :
    (t.step e).Inv := by
  cases e with
  | addScene scene => exact inv_addScene ht scene
  | removeScene index => exact inv_removeScene ht index
  | addLayer spec => exact inv_addLayer ht hw
  | removeLayer h => exact inv_removeLayer ht h
  | addToScene index model => exact inv_addToScene ht hw
  | removeFromScene index h =>
    exact ht.extend (Nat.le_refl _) ((removePin_spec _ ⟨index, h⟩).extends _ _) t.nextScene

theorem routed_step {t : SetLayersTrace} {e : SetLayersEvent} (ht : t.Inv) (hw : t.NoWrap e) :
    t.Routed e := by
  cases e with
  | addLayer spec => exact routed_addLayer hw
  | removeLayer h => exact routed_removeLayer ht h
  | addScene | removeScene | addToScene | removeFromScene => trivial

/-- While no generation counter comes round, every add and every removal is routed. -/
theorem routed_of_noWrap (es : List SetLayersEvent) (h : Meets step NoWrap {} es) :
    Meets step Routed {} es := by
  have hstep : ∀ (t : SetLayersTrace) e, t.Inv → t.NoWrap e → (t.step e).Inv :=
    fun t e ht hw => inv_step ht hw
  exact meets_of_invariant Inv hstep (fun t e ht hw => routed_step ht hw) inv_init h

/-- A mirrored layer outlives one of its scenes, whose index another scene then takes. -/
def mirroredLayer : List SetLayersEvent :=
  [.addScene (some (.empty, false)), .addScene (some (.empty, false)),
    .addLayer { source := some .sceneSubmitsFbId, targets := [0, 1] }, .removeScene 1,
    .addScene (some (.empty, true)), .removeLayer ⟨1, 1⟩]

theorem routed_of_noWrap_mirroredLayer : Meets step Routed {} mirroredLayer := by
  refine routed_of_noWrap mirroredLayer ⟨trivial, trivial, ⟨by decide, fun i hi scene hs => ?_⟩,
    trivial, trivial, trivial, trivial⟩
  simp only [List.mem_cons, List.not_mem_nil, or_false] at hi
  rcases hi with rfl | rfl <;> cases hs <;> decide

/-! After `2 ^ 32` uses of a slot its first handle is given out again. -/

section Wrapped

/-- A table whose only slot was used `n` times and is free. -/
def freedTable (α : Type) (n : ℕ) : SlotMap α :=
  ⟨[⟨n % Lib.generationModulus, none⟩], [0], List.nodup_singleton 0, fun i => by
    cases i <;> simp⟩

def usedTable (α : Type) : ℕ → SlotMap α
  | 0 => .empty
  | n + 1 => freedTable α (n + 1)

/-- The same table with the slot in use. -/
def occupiedTable {α : Type} (n : ℕ) (a : α) : SlotMap α :=
  ⟨[⟨n % Lib.generationModulus, some a⟩], [], List.nodup_nil, fun i => by
    cases i <;> simp⟩

def cycleHandle (n : ℕ) : Handle := ⟨1, n % Lib.generationModulus⟩

theorem insert_usedTable {α : Type} (n : ℕ) (a : α) :
    (usedTable α n).insert a = (occupiedTable (n + 1) a, cycleHandle (n + 1)) := by
  cases n with
  | zero => exact Prod.ext (SlotMap.ext rfl rfl) rfl
  | succ n =>
    have hgen : (((n + 1) % Lib.generationModulus) + 1) % Lib.generationModulus =
        (n + 1 + 1) % Lib.generationModulus := Nat.mod_add_mod _ _ _
    refine Prod.ext (SlotMap.ext ?_ rfl) ?_
    · exact congrArg (fun g => [(⟨g, some a⟩ : Lib.TableSlot α)]) hgen
    · exact congrArg (Handle.mk 1) hgen

theorem find?_occupiedTable {α : Type} (n : ℕ) (a : α) :
    (occupiedTable n a).find? (cycleHandle n) = some a := by
  simp [SlotMap.find?, occupiedTable, cycleHandle]

theorem remove_occupiedTable {α : Type} (n : ℕ) (a : α) :
    (occupiedTable n a).remove (cycleHandle n) = freedTable α n := by
  unfold SlotMap.remove
  rw [dif_pos (by rw [find?_occupiedTable]; rfl)]
  exact SlotMap.ext rfl rfl

theorem find?_usedTable {α : Type} (n : ℕ) (h : Handle) : (usedTable α n).find? h = none := by
  cases n with
  | zero => exact SlotMap.find?_empty h
  | succ n =>
    unfold SlotMap.find?
    split
    · rfl
    · simp only [usedTable, freedTable]
      cases h.id - 1 <;> simp

/-- One layer for the one scene. -/
def cycleSpec : SceneSetLayerSpec := { source := some .sceneSubmitsFbId, targets := [0] }

def cycleIssue (k : ℕ) : IssuedLayer := ⟨cycleHandle (k + 1), [(0, k)]⟩

/-- A set of one scene after `n` layers were added and removed. -/
def cycled (n : ℕ) : SetLayersTrace :=
  { set := { scenes := [some { id := 0, layers := usedTable LayerId n }]
             setSlots := usedTable _ n }
    nextScene := 1
    nextLayer := n
    issued := (List.range n).map cycleIssue }

def cycle (n : ℕ) : List SetLayersEvent := [.addLayer cycleSpec, .removeLayer (cycleHandle (n + 1))]

theorem addLayer_cycled (n : ℕ) :
    (cycled n).step (.addLayer cycleSpec) =
      { set := { scenes := [some { id := 0, layers := occupiedTable (n + 1) n }]
                 setSlots := occupiedTable (n + 1) [⟨0, cycleHandle (n + 1)⟩] }
        nextScene := 1
        nextLayer := n + 1
        issued := (List.range (n + 1)).map cycleIssue } := by
  have hadd : (cycled n).set.addSetLayer cycleSpec n =
      ({ scenes := [some { id := 0, layers := occupiedTable (n + 1) n }]
         setSlots := occupiedTable (n + 1) [⟨0, cycleHandle (n + 1)⟩] },
        .ok (cycleHandle (n + 1))) := by
    simp [addSetLayer, cycleSpec, cycled, validTargets, sceneAt, addTargets,
      MemberScene.addLayer, insert_usedTable, -SlotMap.insert_snd]
  have hissued : (List.range (n + 1)).map cycleIssue =
      (List.range n).map cycleIssue ++
        [⟨cycleHandle (n + 1), (cycled n).createdLayers cycleSpec⟩] := by
    rw [List.range_succ, List.map_append]
    rfl
  rw [step, show (cycled n).nextLayer = n from rfl, hadd, hissued]
  rfl

theorem removeLayer_cycled (n : ℕ) :
    ((cycled n).step (.addLayer cycleSpec)).step (.removeLayer (cycleHandle (n + 1))) =
      cycled (n + 1) := by
  rw [addLayer_cycled]
  simp only [step, removeSetLayer, find?_occupiedTable, remove_occupiedTable]
  simp only [removePins, List.foldl_cons, List.foldl_nil, removePin, sceneAt,
    List.getElem?_cons_zero, Option.join_some, MemberScene.removeLayer, remove_occupiedTable,
    List.set_cons_zero]
  rfl

theorem run_cycles (n : ℕ) :
    Lib.run step (cycled 0) ((List.range n).flatMap cycle) = cycled n := by
  induction n with
  | zero => rfl
  | succ n ih =>
    rw [List.range_succ, List.flatMap_append, Lib.run_append, ih]
    exact removeLayer_cycled n

/-- The first handle, given out again, removes a layer it was not given out for. -/
theorem misrouted_cycled {n : ℕ} (hn : 0 < n) (hwrap : cycleHandle 1 = cycleHandle (n + 1)) :
    ¬ Meets step Routed (cycled n) (cycle n) := by
  intro h
  have hrouted := h.2.1.1 (cycleIssue 0)
  rw [removeLayer_cycled, addLayer_cycled] at hrouted
  have hlive := (hrouted (List.mem_map_of_mem (List.mem_range.mpr (Nat.succ_pos n))) hwrap
    (0, n)).mpr ⟨⟨0, cycleHandle (n + 1), rfl, find?_occupiedTable (n + 1) n⟩, ?_⟩
  · obtain ⟨i, h', -, hu⟩ := hlive
    cases i with
    | zero =>
      rw [show layerAt (cycled (n + 1)).set.scenes 0 h' = (usedTable LayerId (n + 1)).find? h'
        from rfl, find?_usedTable] at hu
      cases hu
    | succ i => simp [cycled, layerAt, sceneAt] at hu
  · simp [cycleIssue, hn.ne']

/-- The events up to the second use of the first handle. -/
def wrappedRun (n : ℕ) : List SetLayersEvent :=
  .addScene (some (.empty, false)) :: ((List.range n).flatMap cycle ++ cycle n)

theorem misrouted_wrappedRun (n : ℕ) (hn : 0 < n) (hwrap : cycleHandle 1 = cycleHandle (n + 1)) :
    ¬ Meets step Routed {} (wrappedRun n) := by
  rw [wrappedRun, Lib.meets_cons, Lib.meets_append,
    show ({} : SetLayersTrace).step (.addScene (some (.empty, false))) = cycled 0 from rfl,
    run_cycles]
  exact fun h => misrouted_cycled hn hwrap h.2.2

theorem cycleHandle_wraps : cycleHandle 1 = cycleHandle (Lib.generationModulus + 1) :=
  congrArg (Handle.mk 1) (Nat.add_mod_left _ 1).symm

theorem misrouted_after_wrap : ¬ ∀ es : List SetLayersEvent, Meets step Routed {} es :=
  fun h => misrouted_wrappedRun Lib.generationModulus (Nat.two_pow_pos 32) cycleHandle_wraps
    (h (wrappedRun Lib.generationModulus))

end Wrapped

end SetLayersTrace

end DrmCxx.Scene
