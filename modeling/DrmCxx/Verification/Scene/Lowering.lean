import DrmCxx.Lib.Run
import DrmCxx.Scene.Lowering

/-!
# Lowering and the history of a layer

Lowering writes into a bag that outlives the frame, and writes some tags only when there is a
value for them. The bag is what a fresh layer would get exactly when nothing was left behind by a
description the layer had before.
-/

namespace DrmCxx.Scene

open Lib Planes

/-! ### What one lowering writes -/

/-- The value `lower_layer` writes to a property, if it writes one. -/
def loweredValue (desc : LayerDesc) (fbId : UInt64) (crtcId : CrtcId) (hint : Option UInt64)
    (hintOverrides : Bool) : PropTag → Option UInt64
  | .fbId => if desc.bindingModel = .driverOwnsBinding then none else some fbId
  | .fbModifier => some desc.format.modifier.toUInt64
  | .crtcId => some crtcId.toUInt64
  | .crtcX => some (.ofInt (planeSpans desc).1.dst)
  | .crtcY => some (.ofInt (planeSpans desc).2.dst)
  | .crtcW => some (planeSpans desc).1.dstLen.toUInt64
  | .crtcH => some (planeSpans desc).2.dstLen.toUInt64
  | .srcX => some (planeSpans desc).1.src.toUInt64
  | .srcY => some (planeSpans desc).2.src.toUInt64
  | .srcW => some (planeSpans desc).1.srcLen.toUInt64
  | .srcH => some (planeSpans desc).2.srcLen.toUInt64
  | .rotation => if desc.display.rotation ≠ 0 then some desc.display.rotation else none
  | .alpha => some desc.display.alpha.toUInt64
  | .zpos => loweredZpos desc.display.zpos hint hintOverrides
  | .pixelFormat => some desc.format.drmFourcc.toUInt64
  | .inFenceFd => none

theorem setPropertyIf_props (l : Planes.Layer) (t t' : PropTag) (v : Option UInt64) :
    (setPropertyIf l t v).props t' = if t' = t then v.or (l.props t) else l.props t' := by
  cases v with
  | none =>
    by_cases h : t' = t
    · subst h
      simp [setPropertyIf]
    · simp [setPropertyIf, h]
  | some v => rfl

theorem setProperty_props (l : Planes.Layer) (t t' : PropTag) (v : UInt64) :
    (l.setProperty t v).props t' = if t' = t then some v else l.props t' := rfl

theorem lowerLayer_props (desc : LayerDesc) (dst : Planes.Layer) (fbId : UInt64) (crtcId : CrtcId)
    (hint : Option UInt64) (hintOverrides : Bool) (t : PropTag) :
    (lowerLayer desc dst fbId crtcId hint hintOverrides).props t =
      (loweredValue desc fbId crtcId hint hintOverrides t).or (dst.props t) := by
  unfold lowerLayer
  cases t <;>
    simp [setProperty_props, setPropertyIf_props, loweredValue]

/-- What the allocator reads of a layer to place it. -/
structure Placement where
  props : Properties
  updateHz : ℕ
  contentType : ContentType
  appPriority : ℕ
  forceComposited : Bool
  transientComposited : Bool
  externallyBound : Bool
  pinned : Bool

def placementOf (l : Planes.Layer) : Placement where
  props := l.props
  updateHz := l.updateHz
  contentType := l.contentType
  appPriority := l.appPriority
  forceComposited := l.forceComposited
  transientComposited := l.transientComposited
  externallyBound := l.externallyBound
  pinned := l.pinned

@[simp] theorem setPropertyIf_forceComposited (l : Planes.Layer) (t : PropTag)
    (v : Option UInt64) : (setPropertyIf l t v).forceComposited = l.forceComposited := by
  cases v <;> rfl

@[simp] theorem setPropertyIf_transientComposited (l : Planes.Layer) (t : PropTag)
    (v : Option UInt64) : (setPropertyIf l t v).transientComposited = l.transientComposited := by
  cases v <;> rfl

@[simp] theorem setPropertyIf_externallyBound (l : Planes.Layer) (t : PropTag)
    (v : Option UInt64) : (setPropertyIf l t v).externallyBound = l.externallyBound := by
  cases v <;> rfl

@[simp] theorem setPropertyIf_updateHz (l : Planes.Layer) (t : PropTag) (v : Option UInt64) :
    (setPropertyIf l t v).updateHz = l.updateHz := by
  cases v <;> rfl

namespace LoweringFrame

/-- The properties one turn of the loop writes. -/
def writtenTo (f : LoweringFrame) (acqs : List LoweringInput) (a : LoweringInput) : Properties :=
  loweredValue a.desc a.fbId f.crtcId (f.hintFor acqs a.layer).1 (f.hintFor acqs a.layer).2

/-- All that one turn of the loop leaves in the bag. -/
theorem placementOf_lowerOne (f : LoweringFrame) (acqs : List LoweringInput) (a : LoweringInput)
    (dst : Planes.Layer) :
    placementOf (f.lowerOne acqs a dst) =
      { props := fun t => (f.writtenTo acqs a t).or (dst.props t)
        updateHz := if a.desc.updateHintHz ≠ 0 then a.desc.updateHintHz else dst.updateHz
        contentType := a.desc.contentType
        appPriority := a.desc.appPriority
        forceComposited := dst.forceComposited
        transientComposited := f.transient a.layer
        externallyBound := a.desc.bindingModel = .driverOwnsBinding
        pinned := f.pinned a.layer } := by
  have hprops : ∀ t, (f.lowerOne acqs a dst).props t =
      (f.writtenTo acqs a t).or (dst.props t) := fun t => lowerLayer_props _ _ _ _ _ _ t
  unfold placementOf
  rw [funext hprops]
  simp [lowerOne, lowerLayer, Planes.Layer.setProperty]

/-- What an earlier description left in a bag and this frame does not overwrite. -/
structure LeavesNothing (f : LoweringFrame) (acqs : List LoweringInput) (a : LoweringInput)
    (dst : Planes.Layer) : Prop where
  rotation : a.desc.display.rotation = 0 → dst.props .rotation = none
  zpos : a.desc.display.zpos = none → (f.hintFor acqs a.layer).1 = none →
    dst.props .zpos = none
  updateHint : a.desc.updateHintHz = 0 → dst.updateHz = 0
  binding : a.desc.bindingModel = .driverOwnsBinding → dst.props .fbId = none

theorem loweredZpos_eq_none {zpos : Option Int32} {hint : Option UInt64} {hintOverrides : Bool} :
    loweredZpos zpos hint hintOverrides = none ↔ zpos = none ∧ hint = none := by
  unfold loweredZpos
  cases hint with
  | none => simp
  | some z => cases zpos <;> cases hintOverrides <;> simp

/-- The tags a turn of the loop does not write. -/
theorem writtenTo_eq_none {f : LoweringFrame} {acqs : List LoweringInput} {a : LoweringInput}
    {t : PropTag} :
    f.writtenTo acqs a t = none ↔
      t = .fbId ∧ a.desc.bindingModel = .driverOwnsBinding ∨
        t = .rotation ∧ a.desc.display.rotation = 0 ∨
        t = .zpos ∧ a.desc.display.zpos = none ∧ (f.hintFor acqs a.layer).1 = none ∨
        t = .inFenceFd := by
  unfold writtenTo
  cases t <;> simp [loweredValue, loweredZpos_eq_none]

/-- A bag comes out as a fresh one does exactly when nothing is left in it. -/
theorem placementOf_lowerOne_eq_iff {f : LoweringFrame} {acqs : List LoweringInput}
    {a : LoweringInput} {dst fresh : Planes.Layer} (hfence : dst.props .inFenceFd = none)
    (hforce : dst.forceComposited = fresh.forceComposited) (hprops : fresh.props = fun _ => none)
    (hhz : fresh.updateHz = 0) :
    placementOf (f.lowerOne acqs a dst) = placementOf (f.lowerOne acqs a fresh) ↔
      f.LeavesNothing acqs a dst := by
  rw [placementOf_lowerOne, placementOf_lowerOne, hforce, hprops, hhz]
  simp only [Placement.mk.injEq, and_true]
  have htags : ((fun t => (f.writtenTo acqs a t).or (dst.props t)) =
      fun t => (f.writtenTo acqs a t).or none) ↔
        ∀ t, f.writtenTo acqs a t = none → dst.props t = none := by
    rw [funext_iff]
    refine forall_congr' fun t => ?_
    cases f.writtenTo acqs a t <;> simp
  have hrate : (if a.desc.updateHintHz ≠ 0 then a.desc.updateHintHz else dst.updateHz) =
      (if a.desc.updateHintHz ≠ 0 then a.desc.updateHintHz else 0) ↔
        (a.desc.updateHintHz = 0 → dst.updateHz = 0) := by
    by_cases h : a.desc.updateHintHz = 0 <;> simp [h]
  rw [htags, hrate]
  simp only [writtenTo_eq_none]
  constructor
  · rintro ⟨hnone, hupdate⟩
    exact
      { rotation := fun h => hnone _ (.inr (.inl ⟨rfl, h⟩))
        zpos := fun h hhint => hnone _ (.inr (.inr (.inl ⟨rfl, h, hhint⟩)))
        updateHint := hupdate
        binding := fun h => hnone _ (.inl ⟨rfl, h⟩) }
  · intro h
    refine ⟨fun t ht => ?_, h.updateHint⟩
    rcases ht with ⟨rfl, hbind⟩ | ⟨rfl, hrot⟩ | ⟨rfl, hzpos, hhint⟩ | rfl
    · exact h.binding hbind
    · exact h.rotation hrot
    · exact h.zpos hzpos hhint
    · exact hfence

/-! ### The loop -/

theorem foldl_update_of_not_mem (g : LoweringInput → Planes.Layer → Planes.Layer)
    {as : List LoweringInput} {l : Planes.LayerId} (hl : l ∉ as.map (·.layer)) (heap : Heap) :
    as.foldl (fun heap a => Function.update heap a.layer (g a (heap a.layer))) heap l =
      heap l := by
  induction as generalizing heap with
  | nil => rfl
  | cons a as ih =>
    simp only [List.map_cons, List.mem_cons, not_or] at hl
    rw [List.foldl_cons, ih hl.2, Function.update_of_ne hl.1]

/-- The loop gives every acquired layer its own turn. -/
theorem foldl_update_of_mem (g : LoweringInput → Planes.Layer → Planes.Layer)
    {as : List LoweringInput} (hnodup : (as.map (·.layer)).Nodup) {a : LoweringInput}
    (ha : a ∈ as) (heap : Heap) :
    as.foldl (fun heap a => Function.update heap a.layer (g a (heap a.layer))) heap a.layer =
      g a (heap a.layer) := by
  induction as generalizing heap with
  | nil => cases ha
  | cons b as ih =>
    rw [List.map_cons, List.nodup_cons] at hnodup
    rw [List.foldl_cons]
    rcases List.mem_cons.1 ha with rfl | hmem
    · rw [foldl_update_of_not_mem g hnodup.1, Function.update_self]
    · have hne : a.layer ≠ b.layer := fun h =>
        hnodup.1 (h ▸ List.mem_map_of_mem hmem)
      rw [ih hnodup.2 hmem, Function.update_of_ne hne]

theorem lowerAll_of_mem (f : LoweringFrame) (descs : Planes.LayerId → LayerDesc) (heap : Heap)
    {a : LoweringInput} (ha : a ∈ f.inputs descs) :
    f.lowerAll descs heap a.layer = f.lowerOne (f.inputs descs) a (heap a.layer) := by
  have hlayers : (f.inputs descs).map (·.layer) = f.acquired.map Prod.fst := by
    simp [inputs, Function.comp_def]
  exact foldl_update_of_mem (f.lowerOne (f.inputs descs)) (hlayers ▸ f.nodupAcquired) ha heap

theorem lowerAll_of_not_mem (f : LoweringFrame) (descs : Planes.LayerId → LayerDesc) (heap : Heap)
    {l : Planes.LayerId} (hl : l ∉ f.acquired.map Prod.fst) :
    f.lowerAll descs heap l = heap l :=
  foldl_update_of_not_mem _ (by simpa [inputs, Function.comp_def] using hl) heap

end LoweringFrame

/-! ### Histories of a scene's layers -/

/-- The layers' current descriptions and their bags. -/
structure LoweringScene where
  descs : Planes.LayerId → LayerDesc
  heap : Heap

/-- The bag `add_layer` makes. -/
def freshBag (desc : LayerDesc) : Planes.Layer where
  forceComposited := desc.forceComposited

inductive LoweringEvent
  | addLayer (l : Planes.LayerId) (desc : LayerDesc)
  /-- Any setters, or a replaced source. -/
  | edit (l : Planes.LayerId) (desc : LayerDesc)
  | build (f : LoweringFrame)

namespace LoweringScene

/-- Layers that were just added. -/
def added (descs : Planes.LayerId → LayerDesc) : LoweringScene where
  descs := descs
  heap := fun l => freshBag (descs l)

/-- No setter changes `force_composited`. -/
def step (s : LoweringScene) : LoweringEvent → LoweringScene
  | .addLayer l desc =>
    { descs := Function.update s.descs l desc
      heap := Function.update s.heap l (freshBag desc) }
  | .edit l desc =>
    { s with
      descs :=
        Function.update s.descs l { desc with forceComposited := (s.descs l).forceComposited } }
  | .build f => { s with heap := f.lowerAll s.descs s.heap }

/-- Every layer a build lowers carries what it would if it had just been added. -/
def LowersAsFresh (s : LoweringScene) : LoweringEvent → Prop
  | .addLayer _ _ => True
  | .edit _ _ => True
  | .build f => ∀ a ∈ f.inputs s.descs,
      placementOf (f.lowerAll s.descs s.heap a.layer) =
        placementOf (f.lowerAll s.descs (Function.update s.heap a.layer (freshBag a.desc)) a.layer)

/-- No build meets a bag that still carries what its layer's description no longer has. -/
def NothingLeft (s : LoweringScene) : LoweringEvent → Prop
  | .addLayer _ _ => True
  | .edit _ _ => True
  | .build f => ∀ a ∈ f.inputs s.descs, f.LeavesNothing (f.inputs s.descs) a (s.heap a.layer)

/-- What every reachable bag has: no fence, and the flag its layer was added with. -/
structure Kept (s : LoweringScene) : Prop where
  fence : ∀ l, (s.heap l).props .inFenceFd = none
  force : ∀ l, (s.heap l).forceComposited = (s.descs l).forceComposited

theorem kept_added (descs : Planes.LayerId → LayerDesc) : Kept (added descs) :=
  ⟨fun _ => rfl, fun _ => rfl⟩

theorem mem_inputs {f : LoweringFrame} {descs : Planes.LayerId → LayerDesc} {a : LoweringInput}
    (ha : a ∈ f.inputs descs) : a.desc = descs a.layer := by
  simp only [LoweringFrame.inputs, List.mem_map] at ha
  obtain ⟨p, _, rfl⟩ := ha
  rfl

theorem kept_build {s : LoweringScene} (h : Kept s) (f : LoweringFrame) :
    Kept (s.step (.build f)) := by
  have hbag : ∀ l, f.lowerAll s.descs s.heap l = s.heap l ∨
      ∃ a ∈ f.inputs s.descs, a.layer = l ∧
        f.lowerAll s.descs s.heap l = f.lowerOne (f.inputs s.descs) a (s.heap l) := by
    intro l
    by_cases hl : l ∈ f.acquired.map Prod.fst
    · obtain ⟨p, hp, rfl⟩ := List.mem_map.1 hl
      have ha : (⟨p.1, s.descs p.1, p.2⟩ : LoweringInput) ∈ f.inputs s.descs :=
        List.mem_map_of_mem hp
      exact .inr ⟨_, ha, rfl, f.lowerAll_of_mem s.descs s.heap ha⟩
    · exact .inl (f.lowerAll_of_not_mem s.descs s.heap hl)
  constructor
  · intro l
    change (f.lowerAll s.descs s.heap l).props .inFenceFd = none
    rcases hbag l with hsame | ⟨a, _, rfl, hturn⟩
    · rw [hsame, h.fence l]
    · have hprops := congrArg Placement.props
        (f.placementOf_lowerOne (f.inputs s.descs) a (s.heap a.layer))
      rw [hturn]
      refine (congrFun hprops .inFenceFd).trans ?_
      simp [LoweringFrame.writtenTo, loweredValue, h.fence a.layer]
  · intro l
    change (f.lowerAll s.descs s.heap l).forceComposited = (s.descs l).forceComposited
    rcases hbag l with hsame | ⟨a, _, rfl, hturn⟩
    · rw [hsame, h.force l]
    · rw [hturn, ← h.force a.layer]
      exact congrArg Placement.forceComposited
        (f.placementOf_lowerOne (f.inputs s.descs) a (s.heap a.layer))

theorem kept_step (s : LoweringScene) (e : LoweringEvent) (h : Kept s) : Kept (s.step e) := by
  cases e with
  | addLayer l desc =>
    refine ⟨fun l' => ?_, fun l' => ?_⟩ <;> by_cases hl : l' = l
    · subst hl
      simp [step, freshBag]
    · simpa [step, hl] using h.fence l'
    · subst hl
      simp [step, freshBag]
    · simpa [step, hl] using h.force l'
  | edit l desc =>
    refine ⟨h.fence, fun l' => ?_⟩
    by_cases hl : l' = l
    · subst hl
      simpa [step] using h.force l'
    · simpa [step, hl] using h.force l'
  | build f => exact kept_build h f

theorem lowersAsFresh_iff {s : LoweringScene} (h : Kept s) (e : LoweringEvent) :
    s.LowersAsFresh e ↔ s.NothingLeft e := by
  cases e with
  | addLayer l desc => exact Iff.rfl
  | edit l desc => exact Iff.rfl
  | build f =>
    refine forall₂_congr fun a ha => ?_
    rw [f.lowerAll_of_mem s.descs s.heap ha, f.lowerAll_of_mem s.descs _ ha, Function.update_self]
    have hforce : (s.heap a.layer).forceComposited = (freshBag a.desc).forceComposited := by
      rw [h.force a.layer, mem_inputs ha]
      rfl
    exact LoweringFrame.placementOf_lowerOne_eq_iff (h.fence a.layer) hforce rfl rfl

/-- Over every history, each build lowers as if its layers were new exactly when no build meets
a leftover. -/
theorem lowersAsFresh_iff_nothingLeft (descs : Planes.LayerId → LayerDesc)
    (es : List LoweringEvent) :
    Meets step LowersAsFresh (added descs) es ↔ Meets step NothingLeft (added descs) es :=
  meets_congr_of_invariant Kept kept_step (fun _ e h => lowersAsFresh_iff h e)
    (kept_added descs) es

/-- A frame that acquires layer 1 and steers nothing. -/
def soloFrame : LoweringFrame where
  crtcId := 10
  primaryZposHint := none
  registry := { planes := [], nodupIds := List.nodup_nil }
  crtcIndex := none
  acquired := [(1, 7)]
  transient := fun _ => false
  pinned := fun _ => false

/-- A layer rotated by 90 degrees, at zpos 3, updated at 60 Hz. -/
def rotatedDesc : LayerDesc where
  display := { rotation := 2, zpos := some 3 }
  updateHintHz := 60

/-- After its properties are reset, a layer's bag still carries them: the rotation, the zpos and
the update hint each on its own. -/
theorem not_lowersAsFresh :
    ¬ Meets step LowersAsFresh (added fun _ => rotatedDesc)
        [.build soloFrame, .edit 1 { rotatedDesc with display := { zpos := some 3 } },
          .build soloFrame] ∧
      ¬ Meets step LowersAsFresh (added fun _ => rotatedDesc)
        [.build soloFrame, .edit 1 { rotatedDesc with display := { rotation := 2 } },
          .build soloFrame] ∧
      ¬ Meets step LowersAsFresh (added fun _ => rotatedDesc)
        [.build soloFrame, .edit 1 { rotatedDesc with updateHintHz := 0 }, .build soloFrame] := by
  refine ⟨fun h => ?_, fun h => ?_, fun h => ?_⟩
  · have hrotation := congrArg (·.props .rotation) (h.2.2.1 _ (.head _))
    revert hrotation
    decide +kernel
  · have hzpos := congrArg (·.props .zpos) (h.2.2.1 _ (.head _))
    revert hzpos
    decide +kernel
  · have hrate := congrArg (·.updateHz) (h.2.2.1 _ (.head _))
    revert hrate
    decide +kernel

end LoweringScene

end DrmCxx.Scene
