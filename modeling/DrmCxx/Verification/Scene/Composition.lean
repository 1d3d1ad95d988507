import DrmCxx.Verification.Canvas.Flush
import DrmCxx.Verification.Scene.SettledPlacement

/-!
# What a composition leaves

A composition collects the layers left to it and hands them to the canvas. It gives up when there is
no canvas to paint, when the painted canvas cannot be flushed, or when no plane takes it; else it
paints nothing, or arms a canvas that holds the layers it drew.
-/

namespace DrmCxx.Scene

open Lib Modeset
open Planes (PlaneId PlaneCapabilities Flags)

namespace SceneState

/-! ### The canvas across an arming -/

/-- The canvas and its plane are the same. -/
structure SameCanvas (s s' : SceneState) : Prop where
  target : s'.canvas.target = s.canvas.target
  lastPlane : s'.canvas.lastPlane = s.canvas.lastPlane

theorem SameCanvas.refl (s : SceneState) : SameCanvas s s := ⟨rfl, rfl⟩

theorem SameCanvas.trans {s s' s'' : SceneState} (h : SameCanvas s s') (h' : SameCanvas s' s'') :
    SameCanvas s s'' := ⟨h'.target.trans h.target, h'.lastPlane.trans h.lastPlane⟩

/-- The planes of the canvas are not its verdicts, nor its arming counters. -/
theorem sameCanvas_armCanvas (dev : SceneDevice) (s : SceneState) (q : FrameAnswers)
    (t : CompositionTarget) (p : PlaneCapabilities) (zpos : Int32) :
    SameCanvas s (s.armCanvas dev q t p zpos).2.2 := ⟨rfl, rfl⟩

theorem sameCanvas_rejectTested (s : SceneState) (p : PlaneId) :
    SameCanvas s (({ s with tests := s.tests + 1 } : SceneState).rejectPlane p) := ⟨rfl, rfl⟩

theorem ensureCompositionCanvas_lastPlane (s : SceneState) (q : FrameAnswers)
    (p : PlaneCapabilities) :
    (s.ensureCompositionCanvas q p).canvas.lastPlane = s.canvas.lastPlane := by
  unfold ensureCompositionCanvas makeCompositionTarget
  dsimp only
  split
  · rfl
  · split
    · split <;> rfl
    · rfl

end SceneState

namespace Placing

open SceneState

variable (dev : SceneDevice) (w : Placing) (q : FrameAnswers) (as : List AcquiredLayer)
  (flags : Flags)

theorem sameCanvas_armCanvasLoop (t : CompositionTarget) (zpos : Int32)
    (ps : List PlaneCapabilities) (s : SceneState) :
    SameCanvas s (w.armCanvasLoop dev q flags t zpos ps s).2 := by
  induction ps generalizing s with
  | nil => exact .refl s
  | cons p ps ih =>
    have harm := sameCanvas_armCanvas dev s q t p zpos
    rw [armCanvasLoop]
    split
    · exact ih s
    · generalize s.armCanvas dev q t p zpos = armed at harm
      obtain ⟨writes, done, s'⟩ := armed
      dsimp only
      split
      · exact harm.trans (ih s')
      · split
        · exact harm
        · dsimp only [testRequest]
          split
          · exact harm.trans ⟨rfl, rfl⟩
          · exact harm.trans ⟨rfl, rfl⟩
          · exact SameCanvas.trans (harm.trans (sameCanvas_rejectTested s' p.id)) (ih _)

theorem sameCanvas_armCanvasTested (t : CompositionTarget) (zpos : Int32)
    (first : PlaneCapabilities) (candidates : List PlaneCapabilities) :
    SameCanvas w.scene (w.armCanvasTested dev q flags t zpos first candidates).2.2 := by
  have hloop := w.sameCanvas_armCanvasLoop dev q flags t zpos candidates w.scene
  unfold armCanvasTested
  dsimp only
  split
  · exact sameCanvas_armCanvas dev w.scene q t first zpos
  · generalize w.armCanvasLoop dev q flags t zpos candidates w.scene = looped at hloop
    obtain ⟨found, s⟩ := looped
    cases found with
    | some p => exact hloop
    | none => exact hloop.trans ⟨rfl, rfl⟩

/-! ### The blend loop -/

/-- What a canvas does not draw leaves its pixels alone. -/
theorem canvas_of_not_draws {t : CompositionTarget} {fbIds : Fin 2 → UInt64} {allocated : Bool}
    {backIndex : Fin 2} (ht : t.compositor = .canvas fbIds allocated backIndex) {b : LayerBlend}
    (h : t.draws b = false) (dst : Pixmap) :
    CompositeCanvas.blendInto dst t.width t.height b.src b.srcRect b.dstRect = dst := by
  refine CompositeCanvas.blendInto_of_not_draws (fun hdraws => ?_) dst
  rw [CompositionTarget.draws, ht, Bool.and_eq_false_iff] at h
  obtain h | h := h
  · rw [h] at hdraws
    cases hdraws.1
  · rw [h] at hdraws
    cases hdraws.2

/-- The target draws each layer the loop hands it. -/
def drawsAll : CompositionTarget → List AcquiredLayer → Bool
  | _, [] => true
  | t, a :: as =>
    match w.blendOf q t a with
    | none => drawsAll t as
    | some b => t.draws b && drawsAll (t.blend b) as

variable {w q}

theorem blendOf_handle {t : CompositionTarget} {a : AcquiredLayer} {b : LayerBlend}
    (h : w.blendOf q t a = some b) : b.handle = a.handle := by
  unfold blendOf at h
  dsimp only at h
  split at h
  · cases h
    rfl
  · obtain ⟨m, -, rfl⟩ := Option.map_eq_some_iff.mp h
    rfl

theorem blend_painted (t : CompositionTarget) (b : LayerBlend) :
    (t.blend b).painted = if t.draws b then t.painted ++ [b.handle] else t.painted := rfl

theorem blendLayers_sublist (t : CompositionTarget) (as : List AcquiredLayer) :
    (w.blendLayers q t as).2.Sublist as := by
  induction as generalizing t with
  | nil => exact .refl _
  | cons a as ih =>
    rw [blendLayers]
    split
    · exact (ih t).cons a
    · exact (ih _).cons_cons a

/-- The loop adds the layers that are drawn among the ones it hands over, all of them exactly if the
target draws each. -/
theorem blendLayers_painted (t : CompositionTarget) (as : List AcquiredLayer) :
    ∃ drawn, (w.blendLayers q t as).1.painted = t.painted ++ drawn ∧
      drawn.Sublist ((w.blendLayers q t as).2.map (·.handle)) ∧
        (drawn = (w.blendLayers q t as).2.map (·.handle) ↔ w.drawsAll q t as = true) := by
  induction as generalizing t with
  | nil => exact ⟨[], (List.append_nil _).symm, .refl _, fun _ => rfl, fun _ => rfl⟩
  | cons a as ih =>
    rw [blendLayers, drawsAll]
    cases hblend : w.blendOf q t a with
    | none => exact ih t
    | some b =>
      obtain ⟨drawn, hpainted, hsub, hall⟩ := ih (t.blend b)
      have hhandle := blendOf_handle hblend
      dsimp only
      rw [hpainted, blend_painted, List.map_cons]
      cases hdraws : t.draws b with
      | true =>
        refine ⟨b.handle :: drawn, by rw [if_pos rfl, List.append_assoc]; rfl,
          hhandle ▸ hsub.cons_cons _, ?_⟩
        rw [hhandle, List.cons.injEq, Bool.true_and, ← hall]
        exact and_iff_right rfl
      | false =>
        refine ⟨drawn, by rw [if_neg Bool.false_ne_true], hsub.cons _, ?_⟩
        rw [Bool.false_and]
        refine ⟨fun heq => ?_, fun h => by cases h⟩
        have hlength := hsub.length_le
        rw [heq, List.length_cons] at hlength
        omega

/-- Each layer handed over is on the canvas exactly if the target draws each. -/
theorem drawsAll_iff (t : CompositionTarget) {as : List AcquiredLayer}
    (has : (as.map (·.handle)).Nodup) (ht : t.painted = []) :
    (∀ a ∈ (w.blendLayers q t as).2, a.handle ∈ (w.blendLayers q t as).1.painted) ↔
      w.drawsAll q t as = true := by
  obtain ⟨drawn, hpainted, hsub, hall⟩ := blendLayers_painted (w := w) (q := q) t as
  rw [← hall, hpainted, ht, List.nil_append]
  constructor
  · intro hmem
    have hnodup : ((w.blendLayers q t as).2.map (·.handle)).Nodup :=
      has.sublist ((blendLayers_sublist t as).map _)
    refine hsub.eq_of_length_le (hnodup.subperm fun x hx => ?_).length_le
    obtain ⟨a, ha, rfl⟩ := List.mem_map.mp hx
    exact hmem a ha
  · rintro rfl a ha
    exact List.mem_map_of_mem ha

/-- A target that is handed nothing draws all of it. -/
theorem drawsAll_of_nil {t : CompositionTarget} {as : List AcquiredLayer}
    (h : (w.blendLayers q t as).2 = []) : w.drawsAll q t as = true := by
  obtain ⟨drawn, -, hsub, hall⟩ := blendLayers_painted (w := w) (q := q) t as
  rw [h] at hsub hall
  exact hall.mp (List.sublist_nil.mp hsub)

theorem flush_painted (t : CompositionTarget) (swapped : Option UInt64) :
    (t.flush swapped).1.painted = t.painted := by
  unfold CompositionTarget.flush
  split <;> rfl

/-! ### What is painted -/

variable (w q)

/-- The layers the canvas is to draw. -/
def collected : List AcquiredLayer :=
  as.filter fun a => (w.scene.heap a.layer).needsComposition && w.scene.drawable q a

/-- A canvas that can be armed, and the planes for it. -/
structure CanvasSite where
  placing : Placing
  target : CompositionTarget
  first : PlaneCapabilities
  rest : List PlaneCapabilities

/-- The canvas a composition comes to paint: none when the CRTC has no index, no plane can host it,
there is no canvas, or its buffers are gone. -/
def canvasSite : Option CanvasSite :=
  if w.scene.cachedCrtcIndex.isNone then none
  else
    match w.scene.canvasPlaneCandidates dev as with
    | [] => none
    | first :: rest =>
      let s := w.scene.ensureCompositionCanvas q first
      match s.canvas.target with
      | none => none
      | some t => if t.armable then some ⟨w.setScene s, t, first, rest⟩ else none

/-- The canvas after the blend loop, and the layers it was handed. -/
def CanvasSite.blended (c : CanvasSite) : CompositionTarget × List AcquiredLayer :=
  c.placing.blendLayers q (c.target.beginFrame q.beginsFrame) (paintOrder dev (w.collected q as))

/-- The painted canvas is flushed, and a plane takes it. -/
def CanvasSite.shown (c : CanvasSite) : Bool :=
  let flushed := (c.blended dev w q as).1.flush q.swapBuffers
  let kept := c.placing.keepTarget flushed.1
  flushed.2 && (kept.armCanvasTested dev q flags flushed.1 kept.scene.chooseCanvasZpos c.first
    (c.first :: c.rest)).1.isSome

/-- The composition has layers to draw and gives up. -/
def givesUp : Bool :=
  !(w.collected q as).isEmpty &&
    match w.canvasSite dev q as with
    | none => true
    | some c => !(c.blended dev w q as).2.isEmpty && !c.shown dev w q as flags

/-- The canvas draws each layer it is handed. -/
def drawsHanded : Bool :=
  match w.canvasSite dev q as with
  | none => true
  | some c => c.placing.drawsAll q (c.target.beginFrame q.beginsFrame)
      (paintOrder dev (w.collected q as))

variable {dev w q as}

structure GaveUp (w : Placing) (q : FrameAnswers) (as : List AcquiredLayer) (c : Composed) :
    Prop where
  armed : c.armed = none
  lastPlane : c.placing.scene.canvas.lastPlane = w.scene.canvas.lastPlane
  report : c.placing.report = w.report
  cached : c.cached ≠ [] ∧ c.cached ⊆ w.collected q as

structure Unpainted (dev : SceneDevice) (w : Placing) (q : FrameAnswers) (as : List AcquiredLayer)
    (c : Composed) : Prop where
  armed : c.armed = none
  lastPlane : c.placing.scene.canvas.lastPlane = none
  drawn : w.drawsHanded dev q as = true
  report : c.placing.report = w.report

structure Painted (dev : SceneDevice) (w : Placing) (q : FrameAnswers) (as : List AcquiredLayer)
    (c : Composed) (p : PlaneId) (t : CompositionTarget) : Prop where
  armed : c.armed = some p
  lastPlane : c.placing.scene.canvas.lastPlane = some p
  target : c.placing.scene.canvas.target = some t
  cached : (c.cached.map (·.handle)).Nodup ∧ c.cached ⊆ w.collected q as
  drawn : (∀ a ∈ c.cached, a.handle ∈ t.painted) ↔ w.drawsHanded dev q as = true
  report : c.placing.report = { w.report with
    layersComposited := w.report.layersComposited + c.cached.length
    compositionBuckets := w.report.compositionBuckets + 1 }

theorem paintOrder_perm (dev : SceneDevice) (as : List AcquiredLayer) :
    (paintOrder dev as).Perm as := dev.planes.stdSort.perm _ _

theorem blended_subset (c : CanvasSite) : (c.blended dev w q as).2 ⊆ w.collected q as :=
  fun _ ha => (paintOrder_perm dev _).subset ((blendLayers_sublist _ _).subset ha)

theorem paintOrder_nodup (has : (as.map (·.handle)).Nodup) :
    ((paintOrder dev (w.collected q as)).map (·.handle)).Nodup :=
  ((paintOrder_perm dev _).map _).nodup_iff.mpr (has.sublist (List.filter_sublist.map _))

/-- A painted canvas is armed, or the composition gives up. -/
theorem armPainted_cases {c : CanvasSite} (has : (as.map (·.handle)).Nodup)
    (hsite : w.canvasSite dev q as = some c) (hreport : c.placing.report = w.report)
    (hlast : c.placing.scene.canvas.lastPlane = w.scene.canvas.lastPlane)
    (hflush : ((c.blended dev w q as).1.flush q.swapBuffers).2 = true)
    (hne : (c.blended dev w q as).2 ≠ []) {t : CompositionTarget}
    (ht : t = ((c.blended dev w q as).1.flush q.swapBuffers).1) :
    let composed := (c.placing.keepTarget t).armPainted dev q flags t (c.blended dev w q as).2
      c.first (c.first :: c.rest)
    (c.shown dev w q as flags = false ∧ GaveUp w q as composed) ∨
      (c.shown dev w q as flags = true ∧ ∃ p t, Painted dev w q as composed p t) := by
  have hkept := sameCanvas_armCanvasTested dev (c.placing.keepTarget t) q flags t
    (c.placing.keepTarget t).scene.chooseCanvasZpos c.first (c.first :: c.rest)
  have hpainted : (c.blended dev w q as).1.painted = t.painted := by rw [ht, flush_painted]
  have hdrawn : (∀ a ∈ (c.blended dev w q as).2, a.handle ∈ t.painted) ↔
      w.drawsHanded dev q as = true := by
    rw [← hpainted, drawsHanded, hsite]
    exact drawsAll_iff _ (paintOrder_nodup has) rfl
  have hshown : c.shown dev w q as flags = ((c.placing.keepTarget t).armCanvasTested dev q flags t
      (c.placing.keepTarget t).scene.chooseCanvasZpos c.first (c.first :: c.rest)).1.isSome := by
    rw [CanvasSite.shown, hflush, Bool.true_and, ← ht]
  rw [hshown, armPainted]
  generalize (c.placing.keepTarget t).armCanvasTested dev q flags t _ _ _ = armed at hkept
  obtain ⟨plane, writes, s⟩ := armed
  cases plane with
  | none => exact .inl ⟨rfl, rfl, hkept.lastPlane.trans hlast, hreport, hne, blended_subset c⟩
  | some p =>
    refine .inr ⟨rfl, p.id, t, ⟨rfl, rfl, hkept.target, ⟨?_, blended_subset c⟩, hdrawn, ?_⟩⟩
    · exact (paintOrder_nodup has).sublist ((blendLayers_sublist _ _).map _)
    · refine Eq.trans ?_ (congrArg (fun r : CommitReport => { r with
        layersComposited := r.layersComposited + (c.blended dev w q as).2.length
        compositionBuckets := r.compositionBuckets + 1 }) hreport)
      rfl

/-- A composition on a canvas paints nothing, gives up, or arms what it painted. -/
theorem paintCanvas_cases {c : CanvasSite} (has : (as.map (·.handle)).Nodup)
    (hsite : w.canvasSite dev q as = some c) (hreport : c.placing.report = w.report)
    (hlast : c.placing.scene.canvas.lastPlane = w.scene.canvas.lastPlane)
    (hcollected : (w.collected q as).isEmpty = false) :
    let composed := c.placing.paintCanvas dev q flags (w.collected q as) c.target c.first
      (c.first :: c.rest)
    (w.givesUp dev q as flags = true ∧ GaveUp w q as composed) ∨
      (w.givesUp dev q as flags = false ∧ (Unpainted dev w q as composed ∨
        ∃ p t, Painted dev w q as composed p t)) := by
  have hblended : c.placing.blendLayers q (c.target.beginFrame q.beginsFrame)
      (paintOrder dev (w.collected q as)) = c.blended dev w q as := rfl
  have hgives : w.givesUp dev q as flags =
      (!(c.blended dev w q as).2.isEmpty && !c.shown dev w q as flags) := by
    rw [givesUp, hcollected, hsite]
    rfl
  rw [hgives, paintCanvas, hblended]
  dsimp only
  cases hblank : (c.blended dev w q as).2.isEmpty with
  | true =>
    refine .inr ⟨rfl, .inl ⟨rfl, rfl, ?_, hreport⟩⟩
    rw [drawsHanded, hsite]
    exact drawsAll_of_nil (List.isEmpty_iff.mp hblank)
  | false =>
    have hne : (c.blended dev w q as).2 ≠ [] := List.isEmpty_eq_false_iff.mp hblank
    rw [if_neg Bool.false_ne_true, Bool.not_false, Bool.true_and]
    cases hflush : ((c.blended dev w q as).1.flush q.swapBuffers).2 with
    | false =>
      have hshown : c.shown dev w q as flags = false := by
        rw [CanvasSite.shown, hflush, Bool.false_and]
      rw [hshown]
      exact .inl ⟨rfl, rfl, hlast, hreport, hne, blended_subset c⟩
    | true =>
      rw [Bool.not_true, if_neg Bool.false_ne_true]
      obtain ⟨hshown, hgave⟩ | ⟨hshown, hpainted⟩ :=
        armPainted_cases flags has hsite hreport hlast hflush hne rfl
      · rw [hshown]
        exact .inl ⟨rfl, hgave⟩
      · rw [hshown]
        exact .inr ⟨rfl, .inr hpainted⟩

variable (dev w q) in
/-- A composition gives up, finds nothing to paint, or arms what it painted. -/
theorem composeUnassigned_cases (has : (as.map (·.handle)).Nodup) :
    (w.givesUp dev q as flags = true ∧ GaveUp w q as (w.composeUnassigned dev q flags as)) ∨
      (w.givesUp dev q as flags = false ∧
        (Unpainted dev w q as (w.composeUnassigned dev q flags as) ∨
        ∃ p t, Painted dev w q as (w.composeUnassigned dev q flags as) p t)) := by
  have hcollected : as.filter (fun a => (w.scene.heap a.layer).needsComposition &&
      w.scene.drawable q a) = w.collected q as := rfl
  have hnone (hsite : w.canvasSite dev q as = none) :
      w.givesUp dev q as flags = !(w.collected q as).isEmpty := by
    rw [givesUp, hsite, Bool.and_true]
  unfold composeUnassigned
  dsimp only
  rw [hcollected]
  cases hempty : (w.collected q as).isEmpty with
  | true =>
    refine .inr ⟨by rw [givesUp, hempty]; rfl, .inl ⟨rfl, rfl, ?_, rfl⟩⟩
    rw [drawsHanded]
    split
    · rfl
    · rw [List.isEmpty_iff.mp hempty, (paintOrder_perm dev []).eq_nil]
      rfl
  | false =>
    have hne : w.collected q as ≠ [] := List.isEmpty_eq_false_iff.mp hempty
    rw [hempty, Bool.not_false] at hnone
    rw [if_neg Bool.false_ne_true]
    cases hcrtc : w.scene.cachedCrtcIndex.isNone with
    | true =>
      have hsite : w.canvasSite dev q as = none := by rw [canvasSite, hcrtc, if_pos rfl]
      exact .inl ⟨hnone hsite, rfl, rfl, rfl, hne, fun a ha => ha⟩
    | false =>
      rw [if_neg Bool.false_ne_true]
      cases hplanes : w.scene.canvasPlaneCandidates dev as with
      | nil =>
        have hsite : w.canvasSite dev q as = none := by
          rw [canvasSite, hcrtc, hplanes, if_neg Bool.false_ne_true]
        exact .inl ⟨hnone hsite, rfl, rfl, rfl, hne, fun a ha => ha⟩
      | cons first rest =>
        have hlast := ensureCompositionCanvas_lastPlane w.scene q first
        have hsite : w.canvasSite dev q as =
            match (w.scene.ensureCompositionCanvas q first).canvas.target with
            | none => none
            | some t => if t.armable then
                some ⟨w.setScene (w.scene.ensureCompositionCanvas q first), t, first, rest⟩
              else none := by
          rw [canvasSite, hcrtc, hplanes, if_neg Bool.false_ne_true]
        dsimp only [setScene] at hsite ⊢
        generalize w.scene.ensureCompositionCanvas q first = s' at hlast hsite
        cases htarget : s'.canvas.target with
        | none =>
          rw [htarget] at hsite
          exact .inl ⟨hnone hsite, rfl, hlast, rfl, hne, fun a ha => ha⟩
        | some t =>
          rw [htarget] at hsite
          dsimp only at hsite ⊢
          cases harmable : t.armable with
          | false =>
            rw [harmable, if_neg Bool.false_ne_true] at hsite
            exact .inl ⟨hnone hsite, rfl, hlast, rfl, hne, fun a ha => ha⟩
          | true =>
            rw [harmable, if_pos rfl] at hsite
            exact paintCanvas_cases flags has hsite rfl hlast hempty

end Placing

end DrmCxx.Scene
