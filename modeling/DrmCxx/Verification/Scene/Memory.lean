import DrmCxx.Scene.SceneBuild
import DrmCxx.Verification.Planes.DirtyFlags

/-!
# What a first frame does not read

A scene remembers which hints changed, what it wrote to its output, and whether its composition
placeholder is dirty. The placement passes read the first only to drop an allocation and the last
only to reuse one, and write none of the signalling: the passes commute with a change of that
memory. So scenes without a valid allocation that differ in nothing else place a frame alike.
-/

namespace DrmCxx.Scene

open Lib Modeset
open Planes (PlaneId PlaneCapabilities Flags)

/-! ### Signalling

The writers diff against what they wrote last: the colour space and the HDR blob decide what is
written, the refresh toggle and the transfer function only whether a modeset is asked for. -/

namespace OutputState

variable (o : OutputProperties) (r : OutputRequests) (f : SignalingFrame)

/-- Two memories of an output agree on what decides the writes. -/
structure Agree (sig sig' : OutputState) : Prop where
  hdrCache : sig.hdrCache = sig'.hdrCache
  hdrBlob : sig.lastWrittenHdrBlobId = sig'.lastWrittenHdrBlobId
  colorspace : sig.lastWrittenColorspaceValue = sig'.lastWrittenColorspaceValue

variable {sig sig' : OutputState}

theorem Agree.injectOutputColorspace (h : Agree sig sig') (desired : Option Colorspace) :
    Agree (sig.injectOutputColorspace o desired).state
        (sig'.injectOutputColorspace o desired).state ∧
      (sig.injectOutputColorspace o desired).writes =
        (sig'.injectOutputColorspace o desired).writes := by
  unfold OutputState.injectOutputColorspace
  cases desired.bind (colorspaceEntry o) with
  | none => exact ⟨h, rfl⟩
  | some value =>
    dsimp only
    rw [h.colorspace]
    split
    · exact ⟨h, rfl⟩
    · exact ⟨⟨h.hdrCache, h.hdrBlob, rfl⟩, rfl⟩

theorem injectHdrOutputMetadata_ok (h : Agree sig sig')
    (createBlob : HdrSourceMetadata → Except Errc BlobId) (effective : Option HdrSourceMetadata) :
    (∃ e, sig.injectHdrOutputMetadata o r createBlob effective = .error e ∧
      sig'.injectHdrOutputMetadata o r createBlob effective = .error e) ∨
    ∃ i i', sig.injectHdrOutputMetadata o r createBlob effective = .ok i ∧
      sig'.injectHdrOutputMetadata o r createBlob effective = .ok i' ∧
      i.writes = i'.writes := by
  unfold OutputState.injectHdrOutputMetadata
  rw [h.hdrCache, h.hdrBlob]
  split
  · exact .inr ⟨_, _, rfl, rfl, rfl⟩
  · cases sig'.hdrCache.set createBlob o.crtcId effective with
    | error e => exact .inl ⟨e, rfl, rfl⟩
    | ok c => exact .inr ⟨_, _, rfl, rfl, rfl⟩

theorem injectVrrEnabled_writes (sig sig' : OutputState) :
    (sig.injectVrrEnabled o r).writes = (sig'.injectVrrEnabled o r).writes := by
  unfold OutputState.injectVrrEnabled
  split <;> rfl

theorem injectOutputRegammaTf_writes (sig sig' : OutputState) :
    (sig.injectOutputRegammaTf o r).writes = (sig'.injectOutputRegammaTf o r).writes := by
  unfold OutputState.injectOutputRegammaTf
  split
  · rfl
  · cases o.regammaValue r.desiredRegammaTf <;> rfl

/-- Memories that agree write the same and fail alike. -/
theorem Agree.signal (h : Agree sig sig') :
    (sig.signal o r f).writes = (sig'.signal o r f).writes ∧
      (sig.signal o r f).error = (sig'.signal o r f).error := by
  have hcs := h.injectOutputColorspace o (deriveOutputSignaling f.layers o.caps).colorspace
  unfold OutputState.signal
  dsimp only
  obtain ⟨e, hl, hr⟩ | ⟨i, i', hl, hr, hw⟩ := injectHdrOutputMetadata_ok o r hcs.1 f.createBlob
    (effectiveHdr r (deriveOutputSignaling f.layers o.caps))
  · rw [hl, hr]
    exact ⟨hcs.2, rfl⟩
  · rw [hl, hr]
    dsimp only
    rw [hcs.2, hw, injectVrrEnabled_writes o r i.state i'.state,
      injectOutputRegammaTf_writes o r _ (i'.state.injectVrrEnabled o r).state]
    exact ⟨rfl, rfl⟩

end OutputState

/-! ### The memory of a scene -/

/-- What the passes do not decide on. -/
structure Memory where
  hints : LayerId → Bool
  placeholder : Bool
  signaling : OutputState

namespace SceneState

variable (dev : SceneDevice) (s : SceneState) (m : Memory)

/-- The scene with another memory. -/
def remembering (s : SceneState) (m : Memory) : SceneState :=
  { s with hintsDirty := m.hints, placeholderDirty := m.placeholder, signaling := m.signaling }

/-! ### Before the allocator -/

theorem pinStreams_remembering (q : FrameAnswers) :
    (s.remembering m).pinStreams dev q = s.pinStreams dev q := by
  funext taken slots
  induction slots generalizing taken with
  | nil => rfl
  | cons slot slots ih =>
    rw [pinStreams, pinStreams, ih]
    rfl

theorem ensureStreamLayerPins_remembering (q : FrameAnswers) :
    (s.remembering m).ensureStreamLayerPins dev q =
      (s.ensureStreamLayerPins dev q).remembering m := by
  cases hc : s.cachedCrtcIndex.isNone with
  | true => rw [ensureStreamLayerPins, ensureStreamLayerPins, if_pos hc, if_pos (by exact hc)]
  | false =>
    have hc' : ¬s.cachedCrtcIndex.isNone := Bool.eq_false_iff.mp hc
    simp only [ensureStreamLayerPins, pinStreams_remembering, if_neg hc']
    rw [if_neg (by exact hc')]
    rfl

theorem prepared_remembering (q : FrameAnswers) :
    (s.remembering m).prepared dev q = (s.prepared dev q).remembering m :=
  congrArg markTransient (ensureStreamLayerPins_remembering dev
    { s with cachedCrtcIndex := s.resolveCrtcIndex dev } m q)

theorem lowered_remembering (q : FrameAnswers) :
    (s.remembering m).lowered dev q = (s.lowered dev q).remembering m :=
  congrArg (lower dev · q) (prepared_remembering dev s m q)

theorem beginModeset_remembering (q : FrameAnswers) :
    (s.remembering m).beginModeset q =
      (s.beginModeset q).map fun r => (r.1.remembering m, r.2) := by
  cases hf : s.firstCommit with
  | false =>
    have hf' : !s.firstCommit := by rw [hf]; rfl
    rw [beginModeset, beginModeset, if_pos hf', if_pos (by exact hf')]
    rfl
  | true =>
    have hf' : ¬!s.firstCommit := by rw [hf]; exact Bool.false_ne_true
    rw [beginModeset, beginModeset, if_neg hf', if_neg (by exact hf')]
    have hblob : (s.remembering m).ensureModeBlob q = s.ensureModeBlob q := rfl
    rw [hblob]
    cases s.ensureModeBlob q <;> rfl

theorem reserveCanvas_remembering :
    (s.remembering m).reserveCanvas dev =
      ((s.reserveCanvas dev).1.remembering m, (s.reserveCanvas dev).2) := by
  have hpick : (s.remembering m).pickCanvasReservationIfNeeded dev =
      s.pickCanvasReservationIfNeeded dev := rfl
  rw [reserveCanvas, reserveCanvas, hpick]
  split <;> rfl

theorem reservePin_remembering (acc : SceneState × List PlaneId × ℕ) (a : AcquiredLayer) :
    reservePin dev (acc.1.remembering m, acc.2) a =
      ((reservePin dev acc a).1.remembering m, (reservePin dev acc a).2) := by
  obtain ⟨s, reserved, failed⟩ := acc
  rw [reservePin, reservePin]
  cases a.attrs.pinnedPlaneId with
  | none => rfl
  | some p =>
    dsimp only
    split
    · rename_i hc
      rw [if_pos (by exact hc)]
      rfl
    · rename_i hc
      rw [if_neg (by exact hc)]
      rfl

theorem reservePlanes_remembering (as : List AcquiredLayer) :
    (s.remembering m).reservePlanes dev as =
      ((s.reservePlanes dev as).1.remembering m, (s.reservePlanes dev as).2) := by
  have hfold : ∀ acc : SceneState × List PlaneId × ℕ,
      as.foldl (reservePin dev) (acc.1.remembering m, acc.2) =
        ((as.foldl (reservePin dev) acc).1.remembering m,
          (as.foldl (reservePin dev) acc).2) := by
    induction as with
    | nil => exact fun _ => rfl
    | cons a as ih =>
      intro acc
      rw [List.foldl_cons, List.foldl_cons, reservePin_remembering, ih]
  rw [reservePlanes, reservePlanes, reserveCanvas_remembering]
  exact hfold ((s.reserveCanvas dev).1, _, 0)

end SceneState

namespace Placing

variable (dev : SceneDevice) (w : Placing) (m : Memory)

def remembering : Placing := { w with scene := w.scene.remembering m }

/-! ### Pins -/

theorem armPinnedLayer_remembering (flags : Flags) (a : AcquiredLayer) :
    (w.remembering m).armPinnedLayer dev flags a =
      (w.armPinnedLayer dev flags a).remembering m := by
  have hheap : (w.remembering m).scene.heap = w.scene.heap := rfl
  unfold armPinnedLayer
  dsimp only
  rw [hheap]
  cases (w.scene.heap a.layer).pinned with
  | false => rfl
  | true =>
    cases a.attrs.pinnedPlaneId with
    | none => rfl
    | some p =>
      dsimp only
      split
      · rename_i hc
        rw [if_pos (by exact hc)]
        rfl
      · rename_i hc
        rw [if_neg (by exact hc)]
        generalize htest : w.scene.testRequest dev _ flags = r
        have htest' : (w.remembering m).scene.testRequest dev
            ((w.remembering m).write
              ((w.remembering m).scene.pinWrites dev (w.scene.heap a.layer) p)).request
            flags = (r.1, r.2.remembering m) := by rw [← htest]; rfl
        rw [htest']
        obtain ⟨verdict, s⟩ := r
        cases verdict with
        | none => rfl
        | some e => cases e <;> rfl

theorem armPinnedLayers_remembering (flags : Flags) (as : List AcquiredLayer) :
    (w.remembering m).armPinnedLayers dev flags as =
      (w.armPinnedLayers dev flags as).remembering m := by
  unfold armPinnedLayers
  induction as generalizing w with
  | nil => rfl
  | cons a as ih => rw [List.foldl_cons, List.foldl_cons, armPinnedLayer_remembering, ih]

/-! ### The canvas plane -/

theorem refreshVerdicts_remembering (s : SceneState) (as : List AcquiredLayer) :
    (s.remembering m).refreshVerdicts as =
      (s.refreshVerdicts as).remembering m := by
  unfold SceneState.refreshVerdicts
  split
  · rename_i hc
    rw [if_pos (by exact hc)]
  · rename_i hc
    rw [if_neg (by exact hc)]
    rfl

theorem makeCompositionTarget_remembering (s : SceneState) (q : FrameAnswers)
    (cfg : CompositeCanvasConfig) :
    (s.remembering m).makeCompositionTarget q cfg =
      ((s.makeCompositionTarget q cfg).1.remembering m, (s.makeCompositionTarget q cfg).2) := by
  have htries : (s.remembering m).triesGpu = s.triesGpu := rfl
  unfold SceneState.makeCompositionTarget
  dsimp only
  split
  · rename_i h
    rw [dif_pos (by exact h)]
    split <;> rfl
  · rename_i h
    rw [dif_neg (by exact h)]

theorem ensureCompositionCanvas_remembering (s : SceneState) (q : FrameAnswers)
    (p : PlaneCapabilities) :
    (s.remembering m).ensureCompositionCanvas q p =
      (s.ensureCompositionCanvas q p).remembering m := by
  have htarget : (s.remembering m).canvas = s.canvas := rfl
  have hmode : (s.remembering m).mode = s.mode := rfl
  unfold SceneState.ensureCompositionCanvas
  rw [htarget]
  cases s.canvas.target with
  | some t => rfl
  | none =>
    dsimp only
    rw [hmode, makeCompositionTarget_remembering]
    rfl

/-- The arming of a canvas sees nothing of what the allocator remembers. -/
theorem armCanvas_remembering (q : FrameAnswers) (t : CompositionTarget) (p : PlaneCapabilities)
    (zpos : Int32) (s : SceneState) :
    (s.remembering m).armCanvas dev q t p zpos =
      ((s.armCanvas dev q t p zpos).1, (s.armCanvas dev q t p zpos).2.1,
        (s.armCanvas dev q t p zpos).2.2.remembering m) := by
  have hwrites : (s.remembering m).armCompositionCanvas dev t p zpos =
      s.armCompositionCanvas dev t p zpos := rfl
  unfold SceneState.armCanvas
  rw [hwrites]
  generalize s.armCompositionCanvas dev t p zpos = writes
  rfl

theorem testRequest_remembering (req : AtomicRequest) (flags : Flags) (s : SceneState) :
    (s.remembering m).testRequest dev req flags =
      ((s.testRequest dev req flags).1, (s.testRequest dev req flags).2.remembering m) := rfl

theorem probeVerdict_remembering (q : FrameAnswers) (flags : Flags) (t : CompositionTarget)
    (zpos : Int32) (p : PlaneCapabilities) (s : SceneState) :
    (w.remembering m).probeVerdict dev q flags t zpos p (s.remembering m) =
      ((w.probeVerdict dev q flags t zpos p s).1,
        (w.probeVerdict dev q flags t zpos p s).2.remembering m) := by
  unfold probeVerdict
  rw [armCanvas_remembering]
  generalize s.armCanvas dev q t p zpos = armed
  obtain ⟨writes, done, s'⟩ := armed
  cases done <;> rfl

theorem probeCanvas_remembering (q : FrameAnswers) (flags : Flags) (t : CompositionTarget)
    (zpos : Int32) (ps : List PlaneCapabilities) (s : SceneState) :
    (w.remembering m).probeCanvas dev q flags t zpos ps (s.remembering m) =
      ((w.probeCanvas dev q flags t zpos ps s).1,
        (w.probeCanvas dev q flags t zpos ps s).2.remembering m) := by
  induction ps generalizing s with
  | nil => rfl
  | cons p ps ih =>
    have hcanvas : (s.remembering m).canvas = s.canvas := rfl
    rw [probeCanvas, probeCanvas, hcanvas]
    cases s.canvas.provenPlanes.contains p.id with
    | true => rfl
    | false =>
      cases s.canvas.rejectedPlanes.contains p.id with
      | true => exact ih s
      | false =>
        rw [probeVerdict_remembering]
        generalize w.probeVerdict dev q flags t zpos p s = r
        obtain ⟨verdict, s'⟩ := r
        cases verdict with
        | none => rfl
        | some e => cases e <;> first | rfl | exact ih (s'.rejectPlane p.id)

theorem canvasPlaneFeasible_remembering (q : FrameAnswers) (flags : Flags)
    (as : List AcquiredLayer) :
    (w.remembering m).canvasPlaneFeasible dev q flags as =
      ((w.canvasPlaneFeasible dev q flags as).1,
        (w.canvasPlaneFeasible dev q flags as).2.remembering m) := by
  have hrefresh : (w.remembering m).scene.refreshVerdicts as =
      (w.scene.refreshVerdicts as).remembering m :=
    refreshVerdicts_remembering m w.scene as
  unfold canvasPlaneFeasible
  dsimp only
  rw [hrefresh]
  generalize w.scene.refreshVerdicts as = s
  have hcandidates : (s.remembering m).canvasPlaneCandidates dev as =
      s.canvasPlaneCandidates dev as := rfl
  rw [hcandidates]
  split
  · rename_i hc
    rw [if_pos (by exact hc)]
  · rename_i hc
    rw [if_neg (by exact hc)]
    cases s.canvasPlaneCandidates dev as with
    | nil => rfl
    | cons first rest =>
      dsimp only
      rw [ensureCompositionCanvas_remembering]
      generalize s.ensureCompositionCanvas q first = s'
      have hcanvas : (s'.remembering m).canvas = s'.canvas := rfl
      rw [hcanvas]
      cases s'.canvas.target with
      | none => rfl
      | some t =>
        dsimp only
        split
        · rfl
        · exact probeCanvas_remembering dev w m q flags t _ _ s'

theorem armCanvasLoop_remembering (q : FrameAnswers) (flags : Flags) (t : CompositionTarget)
    (zpos : Int32) (ps : List PlaneCapabilities) (s : SceneState) :
    (w.remembering m).armCanvasLoop dev q flags t zpos ps (s.remembering m) =
      ((w.armCanvasLoop dev q flags t zpos ps s).1,
        (w.armCanvasLoop dev q flags t zpos ps s).2.remembering m) := by
  have hrequest : (w.remembering m).request = w.request := rfl
  induction ps generalizing s with
  | nil => rfl
  | cons p ps ih =>
    have hcanvas : (s.remembering m).canvas = s.canvas := rfl
    rw [armCanvasLoop, armCanvasLoop, hcanvas, armCanvas_remembering]
    cases s.canvas.rejectedPlanes.contains p.id with
    | true => exact ih s
    | false =>
      generalize s.armCanvas dev q t p zpos = armed
      obtain ⟨writes, done, s'⟩ := armed
      have hcanvas' : (s'.remembering m).canvas = s'.canvas := rfl
      cases done with
      | false => exact ih s'
      | true =>
        dsimp only
        rw [hcanvas']
        cases s'.canvas.provenPlanes.contains p.id with
        | true => rfl
        | false =>
          rw [testRequest_remembering, hrequest]
          generalize s'.testRequest dev (w.request ++ writes) flags = r
          obtain ⟨verdict, s'⟩ := r
          cases verdict with
          | none => rfl
          | some e => cases e <;> first | rfl | exact ih (s'.rejectPlane p.id)

theorem armFirst_remembering (q : FrameAnswers) (t : CompositionTarget) (zpos : Int32)
    (first : PlaneCapabilities) (s : SceneState) :
    armFirst dev q t zpos first (s.remembering m) =
      ((armFirst dev q t zpos first s).1, (armFirst dev q t zpos first s).2.1,
        (armFirst dev q t zpos first s).2.2.remembering m) := by
  unfold armFirst
  rw [armCanvas_remembering]

theorem armCanvasTested_remembering (q : FrameAnswers) (flags : Flags) (t : CompositionTarget)
    (zpos : Int32) (first : PlaneCapabilities) (candidates : List PlaneCapabilities) :
    (w.remembering m).armCanvasTested dev q flags t zpos first candidates =
      ((w.armCanvasTested dev q flags t zpos first candidates).1,
        (w.armCanvasTested dev q flags t zpos first candidates).2.1,
        (w.armCanvasTested dev q flags t zpos first candidates).2.2.remembering m) := by
  have hloop : (w.remembering m).armCanvasLoop dev q flags t zpos candidates
      (w.remembering m).scene =
        ((w.armCanvasLoop dev q flags t zpos candidates w.scene).1,
          (w.armCanvasLoop dev q flags t zpos candidates w.scene).2.remembering m) :=
    armCanvasLoop_remembering dev w m q flags t zpos candidates w.scene
  have htesting : (w.remembering m).scene.canvas.testing = w.scene.canvas.testing := rfl
  unfold armCanvasTested
  dsimp only
  rw [hloop, htesting]
  cases w.scene.canvas.testing with
  | false => exact armFirst_remembering dev m q t zpos first w.scene
  | true =>
    generalize w.armCanvasLoop dev q flags t zpos candidates w.scene = r
    obtain ⟨found, s⟩ := r
    cases found with
    | some armed => rfl
    | none => exact armFirst_remembering dev m q t zpos first s.stopTesting

/-! ### Composing -/

def Composed.remembering (c : Composed) (m : Memory) : Composed :=
  { c with placing := c.placing.remembering m }

theorem blendLayers_remembering (q : FrameAnswers) (t : CompositionTarget)
    (as : List AcquiredLayer) :
    (w.remembering m).blendLayers q t as = w.blendLayers q t as := by
  induction as generalizing t with
  | nil => rfl
  | cons a as ih =>
    have hblend : (w.remembering m).blendOf q t a = w.blendOf q t a := rfl
    rw [blendLayers, blendLayers, hblend]
    cases w.blendOf q t a with
    | none => exact ih t
    | some b =>
      dsimp only
      rw [ih]

theorem armPainted_remembering (q : FrameAnswers) (flags : Flags) (t : CompositionTarget)
    (handed : List AcquiredLayer) (first : PlaneCapabilities)
    (candidates : List PlaneCapabilities) :
    (w.remembering m).armPainted dev q flags t handed first candidates =
      (w.armPainted dev q flags t handed first candidates).remembering m := by
  have hzpos : (w.remembering m).scene.chooseCanvasZpos = w.scene.chooseCanvasZpos := rfl
  unfold armPainted
  rw [hzpos, armCanvasTested_remembering]
  generalize w.armCanvasTested dev q flags t w.scene.chooseCanvasZpos first candidates = armed
  obtain ⟨p, writes, s⟩ := armed
  cases p <;> rfl

theorem paintCanvas_remembering (q : FrameAnswers) (flags : Flags) (collected : List AcquiredLayer)
    (t : CompositionTarget) (first : PlaneCapabilities) (candidates : List PlaneCapabilities) :
    (w.remembering m).paintCanvas dev q flags collected t first candidates =
      (w.paintCanvas dev q flags collected t first candidates).remembering m := by
  have hkeep : ∀ t, (w.remembering m).keepTarget t = (w.keepTarget t).remembering m :=
    fun _ => rfl
  unfold paintCanvas
  dsimp only
  rw [blendLayers_remembering]
  split
  · rfl
  · split
    · rfl
    · rw [hkeep, armPainted_remembering]

theorem composeUnassigned_remembering (q : FrameAnswers) (flags : Flags)
    (as : List AcquiredLayer) :
    (w.remembering m).composeUnassigned dev q flags as =
      (w.composeUnassigned dev q flags as).remembering m := by
  have hcandidates : (w.remembering m).scene.canvasPlaneCandidates dev as =
      w.scene.canvasPlaneCandidates dev as := rfl
  have hindex : (w.remembering m).scene.cachedCrtcIndex = w.scene.cachedCrtcIndex := rfl
  have hcollected : (as.filter fun a =>
      ((w.remembering m).scene.heap a.layer).needsComposition &&
        (w.remembering m).scene.drawable q a) =
      as.filter fun a => (w.scene.heap a.layer).needsComposition && w.scene.drawable q a := rfl
  unfold composeUnassigned
  dsimp only
  rw [hcandidates, hindex, hcollected]
  generalize (as.filter fun a =>
    (w.scene.heap a.layer).needsComposition && w.scene.drawable q a) = collected
  cases collected.isEmpty with
  | true => rfl
  | false =>
    cases w.scene.cachedCrtcIndex.isNone with
    | true => rfl
    | false =>
      rw [if_neg Bool.false_ne_true, if_neg Bool.false_ne_true, if_neg Bool.false_ne_true,
        if_neg Bool.false_ne_true]
      cases w.scene.canvasPlaneCandidates dev as with
      | nil => rfl
      | cons first rest =>
        dsimp only
        have hcanvas : (w.remembering m).setScene
            ((w.remembering m).scene.ensureCompositionCanvas q first) =
              (w.setScene (w.scene.ensureCompositionCanvas q first)).remembering m :=
          congrArg (fun s => ({ w with scene := s } : Placing))
            (ensureCompositionCanvas_remembering m w.scene q first)
        rw [hcanvas]
        generalize w.setScene (w.scene.ensureCompositionCanvas q first) = w'
        have htarget : (w'.remembering m).scene.canvas = w'.scene.canvas := rfl
        rw [htarget]
        cases w'.scene.canvas.target with
        | none => rfl
        | some t =>
          dsimp only
          cases t.armable with
          | false => rfl
          | true => exact paintCanvas_remembering dev w' m q flags _ t first _

end Placing

namespace SceneState

variable (dev : SceneDevice) (s : SceneState) (m m' : Memory)

/-! ### The placement loop -/

theorem dropStaleAllocation_of_invalid (h : ¬s.allocator.previousAllocationValid) :
    s.dropStaleAllocation = s := by
  have hsame : s.allocator.invalidateAllocation = s.allocator := by
    have hf := (Bool.eq_false_iff.mpr h).symm
    rw [Planes.Allocator.invalidateAllocation, hf]
  rw [dropStaleAllocation, hsame]
  exact ite_self s

theorem applied_remembering (r : Round) (h : ¬s.allocator.previousAllocationValid) :
    (s.remembering m).applied dev r = s.applied dev r := by
  let f := s.allocatorFrame r
  let flags : Planes.LayerId → Bool := fun l => (f.heap l).dirty
  let flags' := Function.update flags f.output.compositionLayer m.placeholder
  have hheap : ((s.remembering m).allocatorFrame r).heap = f.heap.withDirty flags' := by
    funext l
    by_cases hl : l = s.output.compositionLayer
    · subst hl
      simp [allocatorFrame, remembering, Planes.Heap.withDirty, f, flags']
    · simp [allocatorFrame, remembering, Planes.Heap.withDirty, f, flags, flags', hl]
  have hframe : (s.remembering m).allocatorFrame r =
    { f with heap := f.heap.withDirty flags' } := by
    rw [← hheap]
    rfl
  have hdevice : (s.remembering m).allocatorDevice dev r.answers =
      s.allocatorDevice dev r.answers := rfl
  have halloc : (s.remembering m).allocator = s.allocator := rfl
  unfold applied
  rw [hframe, hdevice, halloc]
  exact Planes.Allocator.apply_withDirty _ flags' flags _ f h
    fun l _ hcomp => Function.update_of_ne (Ne.symm hcomp) _ _

/-- The memory a turn leaves: `apply` cleaned the placeholder, or did not. -/
def Memory.placed (m : Memory) (s : SceneState) : Memory :=
  { m with placeholder := s.placeholderDirty }

theorem afterApply_remembering (r : Round) (h : ¬s.allocator.previousAllocationValid) :
    (s.remembering m).afterApply dev r =
      (s.afterApply dev r).remembering (Memory.placed m (s.afterApply dev r)) := by
  simp only [afterApply, applied_remembering dev s m r h]
  rfl

def RoundEnd.remembering : RoundEnd → Memory → RoundEnd
  | .failed s e, m => .failed (s.remembering m) e
  | .placed w feasible, m => .placed (w.remembering m) feasible

theorem settle_remembering (r : Round) (w : Placing) :
    (w.remembering m).settle dev r = (w.settle dev r).remembering m := by
  have hpins : (if (w.remembering m).scene.cachedCrtcIndex.isSome then
      (w.remembering m).armPinnedLayers dev (w.remembering m).scene.verifyFlags
        r.acquired
      else w.remembering m) =
        (if w.scene.cachedCrtcIndex.isSome then
          w.armPinnedLayers dev w.scene.verifyFlags r.acquired
        else w).remembering m := by
    rw [Placing.armPinnedLayers_remembering]
    exact (apply_ite (Placing.remembering · m) _ _ _).symm
  unfold Placing.settle
  dsimp only
  rw [hpins, Placing.canvasPlaneFeasible_remembering]
  rfl

/-- Without a valid allocation a turn does not depend on the memory. -/
theorem placeRound_remembering (r : Round) (request : AtomicRequest) (report : CommitReport)
    (h : ¬s.allocator.previousAllocationValid) :
    (s.remembering m).placeRound dev r request report =
      (s.placeRound dev r request report).remembering (Memory.placed m (s.afterApply dev r)) := by
  unfold placeRound
  rw [dropStaleAllocation_of_invalid s h, dropStaleAllocation_of_invalid (s.remembering m) h]
  dsimp only
  rw [applied_remembering dev s m r h, afterApply_remembering dev s m r h]
  generalize s.afterApply dev r = s'
  generalize Memory.placed m s' = m'
  cases (s.applied dev r).result with
  | error e => rfl
  | ok placed =>
    have harm : (s'.remembering m').armPasses dev r =
        ((s'.armPasses dev r).1.remembering m', (s'.armPasses dev r).2) := rfl
    dsimp only
    rw [harm]
    obtain ⟨s', writes⟩ := s'.armPasses dev r
    cases writes with
    | error e => rfl
    | ok writes => exact settle_remembering dev m' r ⟨s', _, _⟩

theorem placeRounds_remembering (r : Round) (request : AtomicRequest) (report : CommitReport)
    (fuel : ℕ) (h : ¬s.allocator.previousAllocationValid) :
    ∃ m', m'.signaling = m.signaling ∧
      placeRounds dev r request report fuel (s.remembering m) =
        (placeRounds dev r request report fuel s).remembering m' := by
  induction fuel generalizing s m with
  | zero =>
    refine ⟨Memory.placed m (s.afterApply dev r), rfl, ?_⟩
    unfold placeRounds
    rw [placeRound_remembering dev s m r _ _ h]
    cases s.placeRound dev r request report with
    | failed s e => rfl
    | placed w feasible => cases feasible <;> rfl
  | succ fuel ih =>
    unfold placeRounds
    rw [placeRound_remembering dev s m r _ _ h]
    have hm' : (Memory.placed m (s.afterApply dev r)).signaling = m.signaling := rfl
    generalize Memory.placed m (s.afterApply dev r) = m' at hm'
    cases s.placeRound dev r request report with
    | failed s e => exact ⟨m', hm', rfl⟩
    | placed w feasible =>
      cases feasible with
      | true => exact ⟨m', hm', rfl⟩
      | false =>
        have hpick : (w.remembering m').scene.pickDemotion r.answers r.acquired =
            w.scene.pickDemotion r.answers r.acquired := rfl
        dsimp only [RoundEnd.remembering]
        rw [hpick]
        cases w.scene.pickDemotion r.answers r.acquired with
        | none => exact ⟨m', hm', rfl⟩
        | some victim =>
          -- the demotion dropped the allocation this turn left
          obtain ⟨m'', hm'', hrest⟩ := ih (w.scene.demote victim.layer) m' Bool.false_ne_true
          exact ⟨m'', hm''.trans hm', hrest⟩

/-! ### The build -/

variable {m m'}

/-- A frame that carries `ALLOW_MODESET` anyway comes out alike. -/
theorem finishBuild_result (r : Round) (w : Placing) (h :
    OutputState.Agree m.signaling m'.signaling)
    (hflags : r.flags ||| allowModeset = r.flags) :
    (finishBuild dev r (w.remembering m)).result =
      (finishBuild dev r (w.remembering m')).result := by
  have hcompose : ∀ m, (w.remembering m).composeUnassigned dev r.answers
      (w.remembering m).scene.verifyFlags r.acquired =
        (w.composeUnassigned dev r.answers w.scene.verifyFlags r.acquired).remembering m :=
    fun m => Placing.composeUnassigned_remembering dev w m _ _ _
  unfold finishBuild
  dsimp only
  rw [hcompose, hcompose]
  generalize w.composeUnassigned dev r.answers w.scene.verifyFlags r.acquired = c
  have hsignal := h.signal c.placing.scene.properties c.placing.scene.requests
    ⟨r.acquired.map (·.attrs.contentColor), r.answers.hdrBlob⟩
  have hread : ∀ m, (c.remembering m).placing.scene.signaling.signal
      (c.remembering m).placing.scene.properties (c.remembering m).placing.scene.requests
      ⟨r.acquired.map (·.attrs.contentColor), r.answers.hdrBlob⟩ =
        m.signaling.signal c.placing.scene.properties c.placing.scene.requests
          ⟨r.acquired.map (·.attrs.contentColor), r.answers.hdrBlob⟩ := fun _ => rfl
  rw [hread, hread]
  generalize m.signaling.signal c.placing.scene.properties c.placing.scene.requests _ = x at hsignal
  generalize m'.signaling.signal c.placing.scene.properties c.placing.scene.requests _ = x'
    at hsignal
  rw [hsignal.1, hsignal.2, hflags, ite_self, ite_self]
  cases x'.error <;> rfl

theorem placeAndFinish_result (r : Round) (request : AtomicRequest) (report : CommitReport)
    (hinvalid : ¬s.allocator.previousAllocationValid)
    (h : OutputState.Agree m.signaling s.signaling)
    (hflags : r.flags ||| allowModeset = r.flags) :
    ((s.remembering m).placeAndFinish dev r request report).result =
      (s.placeAndFinish dev r request report).result := by
  let own : Memory := ⟨s.hintsDirty, s.placeholderDirty, s.signaling⟩
  obtain ⟨m₁, hm₁, hrounds⟩ :=
    placeRounds_remembering dev s m r request report r.acquired.length hinvalid
  obtain ⟨m₂, hm₂, hself⟩ :=
    placeRounds_remembering dev s own r request report r.acquired.length hinvalid
  have hs : s.remembering own = s := rfl
  rw [hs] at hself
  have hagree : OutputState.Agree m₁.signaling m₂.signaling := by
    rw [hm₁, hm₂]
    exact h
  unfold placeAndFinish
  rw [hrounds, hself]
  cases placeRounds dev r request report r.acquired.length s with
  | failed s e => rfl
  | placed w feasible => exact finishBuild_result dev r w hagree hflags

/-- What a scene has when its build starts is what it has when the allocator runs. -/
structure Untouched (s s' : SceneState) : Prop where
  allocator : s'.allocator = s.allocator
  firstCommit : s'.firstCommit = s.firstCommit
  signaling : s'.signaling = s.signaling

theorem Untouched.trans {s s' s'' : SceneState} (h : Untouched s s') (h' : Untouched s' s'') :
    Untouched s s'' :=
  ⟨h'.allocator.trans h.allocator, h'.firstCommit.trans h.firstCommit,
    h'.signaling.trans h.signaling⟩

theorem untouched_lowered (q : FrameAnswers) : Untouched s (s.lowered dev q) := by
  have hpins : ∀ s : SceneState, Untouched s (s.ensureStreamLayerPins dev q) := by
    intro s
    unfold ensureStreamLayerPins
    split <;> exact ⟨rfl, rfl, rfl⟩
  exact ⟨(hpins _).allocator, (hpins _).firstCommit, (hpins _).signaling⟩

theorem untouched_beginModeset {q : FrameAnswers} {s' : SceneState} {request : AtomicRequest}
    (h : s.beginModeset q = .ok (s', request)) : Untouched s s' := by
  unfold beginModeset at h
  split at h
  · cases h
    exact ⟨rfl, rfl, rfl⟩
  · cases hb : s.ensureModeBlob q with
    | error e =>
      rw [hb] at h
      cases h
    | ok blob =>
      rw [hb] at h
      cases h
      exact ⟨rfl, rfl, rfl⟩

theorem untouched_reservePlanes (as : List AcquiredLayer) :
    Untouched s (s.reservePlanes dev as).1 := by
  have hcanvas : Untouched s (s.reserveCanvas dev).1 := by
    unfold reserveCanvas
    split <;> exact ⟨rfl, rfl, rfl⟩
  have hpin : ∀ (acc : SceneState × List PlaneId × ℕ) (a : AcquiredLayer),
      Untouched acc.1 (reservePin dev acc a).1 := by
    intro acc a
    unfold reservePin
    dsimp only
    split
    · exact ⟨rfl, rfl, rfl⟩
    · split <;> exact ⟨rfl, rfl, rfl⟩
  have hfold : ∀ acc : SceneState × List PlaneId × ℕ,
      Untouched acc.1 (as.foldl (reservePin dev) acc).1 := by
    induction as with
    | nil => exact fun _ => ⟨rfl, rfl, rfl⟩
    | cons a as ih => exact fun acc => (hpin acc a).trans (ih _)
  exact hcanvas.trans (hfold ((s.reserveCanvas dev).1, _, 0))

/-- A first frame does not depend on the memory. -/
theorem buildFrameInto_result (q : FrameAnswers) (callerFlags : Flags) (testOnly : Bool)
    (hinvalid : ¬s.allocator.previousAllocationValid) (hfirst : s.firstCommit)
    (h : OutputState.Agree m.signaling s.signaling) :
    ((s.remembering m).buildFrameInto dev q callerFlags testOnly).result =
      (s.buildFrameInto dev q callerFlags testOnly).result := by
  unfold buildFrameInto
  rw [prepared_remembering, lowered_remembering]
  have hsuspended : (s.remembering m).suspended = s.suspended := rfl
  rw [hsuspended]
  cases s.suspended with
  | true => rfl
  | false =>
    rw [if_neg Bool.false_ne_true, if_neg Bool.false_ne_true]
    have hacquire : ((s.prepared dev q).remembering m).acquireAll q =
        (s.prepared dev q).acquireAll q := rfl
    rw [hacquire]
    obtain ⟨acquired, skipped, error⟩ := (s.prepared dev q).acquireAll q
    cases error with
    | some e => rfl
    | none =>
      dsimp only
      rw [beginModeset_remembering]
      cases hbegin : (s.lowered dev q).beginModeset q with
      | error e => rfl
      | ok begun =>
        obtain ⟨s', request⟩ := begun
        have huntouched := ((untouched_lowered dev s q).trans
          (untouched_beginModeset _ hbegin)).trans (untouched_reservePlanes dev s' acquired)
        dsimp only [Except.map]
        rw [reservePlanes_remembering]
        generalize s'.reservePlanes dev acquired = r at huntouched
        obtain ⟨s', reserved, pinsFailed⟩ := r
        have hflags : callerFlags ||| s'.modesetFlags ||| allowModeset =
            callerFlags ||| s'.modesetFlags := by
          have hmodeset : s'.modesetFlags = allowModeset :=
            if_pos (by rw [huntouched.firstCommit]; exact hfirst)
          rw [hmodeset, Nat.or_assoc, Nat.or_self]
        exact placeAndFinish_result dev s' _ request _ (by rwa [huntouched.allocator])
          (by rwa [huntouched.signaling]) hflags

end SceneState

end DrmCxx.Scene
