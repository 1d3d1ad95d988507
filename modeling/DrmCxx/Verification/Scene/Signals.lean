import DrmCxx.Verification.Planes.Apply
import DrmCxx.Verification.Scene.Kept
import DrmCxx.Verification.Scene.Requests

/-!
# The signals of an output in a request

The colour space, the HDR metadata, the refresh toggle and the transfer function of an output are
written by its signalling alone: the planes' writes and the modeset leave them out, and no pass of a
build before signalling changes what the scene remembers of them.
-/

namespace DrmCxx

open Lib Modeset

namespace Modeset

/-- The properties a scene signals its output with. -/
def PropName.signals : PropName → Bool
  | .output .colorspace | .output .hdrOutputMetadata | .output .vrrEnabled
  | .output .amdCrtcRegammaTf => true
  | _ => false

/-- The request leaves the signals of every output alone. -/
def Silent (req : AtomicRequest) : Prop := ∀ w ∈ req, w.1.2.signals = false

@[simp] theorem silent_nil : Silent [] := fun _ hw => nomatch hw

@[simp] theorem silent_cons (w : PropKey × UInt64) (req : AtomicRequest) :
    Silent (w :: req) ↔ w.1.2.signals = false ∧ Silent req :=
  List.forall_mem_cons

@[simp] theorem silent_append (req req' : AtomicRequest) :
    Silent (req ++ req') ↔ Silent req ∧ Silent req' :=
  List.forall_mem_append

theorem silent_flatten {reqs : List AtomicRequest} (h : ∀ req ∈ reqs, Silent req) :
    Silent reqs.flatten := by
  intro w hw
  obtain ⟨req, hreq, hw⟩ := List.mem_flatten.mp hw
  exact h req hreq w hw

theorem silent_flatMap {α : Type*} {f : α → AtomicRequest} (h : ∀ a, Silent (f a)) (l : List α) :
    Silent (l.flatMap f) :=
  silent_flatten fun req hreq => by
    obtain ⟨a, -, rfl⟩ := List.mem_map.mp hreq
    exact h a

theorem silent_filterMap {α : Type*} {f : α → Option (PropKey × UInt64)}
    (h : ∀ a w, f a = some w → w.1.2.signals = false) (l : List α) : Silent (l.filterMap f) := by
  intro w hw
  obtain ⟨a, -, ha⟩ := List.mem_filterMap.mp hw
  exact h a w ha

theorem silent_map {α : Type*} {f : α → PropKey × UInt64} (h : ∀ a, (f a).1.2.signals = false)
    (l : List α) : Silent (l.map f) := by
  intro w hw
  obtain ⟨a, -, rfl⟩ := List.mem_map.mp hw
  exact h a

/-- A silent request changes no signal. -/
theorem Silent.commit_eq {req : AtomicRequest} (h : Silent req) (k : Kernel) {key : PropKey}
    (hkey : key.2.signals = true) : k.commit req key = k key := by
  refine applyWrites_of_not_mem fun w hw hwkey => ?_
  rw [← hwkey, h w hw] at hkey
  cases hkey

end Modeset

/-! ### The allocator -/

namespace Planes

namespace Device

variable (d : Device)

theorem silent_applyLayerToPlane (l : Layer) (p : PlaneId) (zpos : Option UInt64) :
    Silent (d.applyLayerToPlane l p zpos) := by
  refine silent_filterMap (fun t w hw => ?_) _
  obtain ⟨v, -, hv⟩ := Option.bind_eq_some_iff.mp hw
  split at hv
  · cases hv
    rfl
  · cases hv

theorem silent_layerWrites (snapshot : Option Properties) (l : Layer) (p : PlaneId)
    (zpos : Option UInt64) : Silent (d.layerWrites snapshot l p zpos) := by
  refine silent_filterMap (fun t w hw => ?_) _
  obtain ⟨v, -, hv⟩ := Option.bind_eq_some_iff.mp hw
  split at hv
  · split at hv
    · cases hv
      rfl
    · cases hv
  · cases hv

theorem silent_resetWrites (p : PlaneId) : Silent (d.resetWrites p) :=
  silent_map (fun _ => rfl) _

theorem silent_disableWrites (p : PlaneId) : Silent (d.disableWrites p) := by
  refine silent_filterMap (fun t w hw => ?_) _
  split at hw
  · cases hw
    rfl
  · cases hw

end Device

namespace Allocator

variable (d : Device) (a : Allocator) (f : Frame)

theorem silent_applyLayerToPlaneReal (heap : Heap) (l : LayerId) (p : PlaneId) (testOnly : Bool)
    (zpos : Option UInt64) : Silent (a.applyLayerToPlaneReal d heap l p testOnly zpos).2 := by
  have hreset : ∀ b : Bool, Silent (if b then d.resetWrites p else []) := by
    intro b
    cases b
    · exact silent_nil
    · exact d.silent_resetWrites p
  have hwrites := (silent_append _ _).mpr
    ⟨hreset (a.diffBase p l).isNone, d.silent_layerWrites (a.diffBase p l) (heap l) p zpos⟩
  unfold applyLayerToPlaneReal
  dsimp only
  split <;> exact hwrites

theorem silent_applyAssignment (heap : Heap) (stack : ZposStack) (testOnly : Bool)
    (es : List (PlaneId × LayerId)) : Silent (applyAssignment d heap stack testOnly a es).2 := by
  induction es generalizing a with
  | nil => exact silent_nil
  | cons e es ih =>
    exact (silent_append _ _).mpr ⟨a.silent_applyLayerToPlaneReal d heap _ _ testOnly _, ih _⟩

theorem silent_disablePlane (testOnly : Bool) (p : PlaneId) :
    Silent (a.disablePlane d testOnly p).2 := by
  unfold disablePlane
  split
  · exact silent_nil
  · dsimp only
    split <;> exact d.silent_disableWrites p

theorem silent_disablePlanes (testOnly : Bool) (ps : List PlaneId) :
    Silent (disablePlanes d testOnly a ps).2 := by
  induction ps generalizing a with
  | nil => exact silent_nil
  | cons p ps ih => exact (silent_append _ _).mpr ⟨a.silent_disablePlane d testOnly p, ih _⟩

theorem silent_armPrevious (heap : Heap) : Silent (a.armPrevious d f heap).2.2 :=
  (silent_append _ _).mpr ⟨silent_disablePlanes d a f.testOnly _,
    silent_applyAssignment d _ heap _ f.testOnly _⟩

theorem silent_parkWrites (heap : Heap) (parked : Option (LayerId × PlaneId)) :
    Silent (parkWrites d heap parked) := by
  cases parked with
  | none => exact silent_nil
  | some e => exact d.silent_applyLayerToPlane _ _ _

theorem silent_armBest (heap : Heap) (best : Assignment) (layers : List LayerId) :
    Silent (a.armBest d f heap best layers).request := by
  have hdisables : ∀ (b : Bool) (a : Allocator) (ps : List PlaneId),
      Silent (if b then disablePlanes d f.testOnly a ps else (a, [])).2 := by
    intro b a ps
    cases b
    · exact silent_nil
    · exact silent_disablePlanes d a f.testOnly ps
  exact (silent_append _ _).mpr ⟨(silent_append _ _).mpr
    ⟨silent_applyAssignment d a heap _ f.testOnly _, silent_parkWrites d _ _⟩, hdisables _ _ _⟩

/-- `apply` writes planes. -/
theorem silent_apply : Silent (a.apply d f).request := by
  by_cases h : Replayed d a f
  · obtain ⟨a₁, -, -, -, -, hreq, -⟩ := apply_of_replayed h
    rw [hreq]
    exact a₁.silent_armPrevious d f _
  · obtain ⟨-, ⟨-, diag, heq⟩ | ⟨-, diag, heq, -⟩⟩ := apply_of_not_replayed h
    · rw [heq]
      exact silent_nil
    · rw [heq]
      change Silent (searched d a f).request
      rw [searched_eq]
      exact silent_armBest d _ f _ _ _

end Allocator

end Planes

namespace Scene

open Planes (PlaneId PlaneCapabilities PropTag Flags)

/-! ### The passes of the scene -/

namespace SceneState

variable (dev : SceneDevice) (s : SceneState)

theorem silent_writeSticky (testOnly : Bool) (p : PlaneId) (prop : PlaneProp)
    (get : PlaneStickyProps → Option UInt64)
    (put : PlaneStickyProps → Option UInt64 → PlaneStickyProps) (value : Option UInt64)
    {w : StickyWrites} (hw : Silent w.2) :
    Silent (writeSticky dev testOnly p prop get put value w).2 := by
  unfold writeSticky
  split
  · exact hw
  · split
    · exact hw
    · exact (silent_append _ _).mpr ⟨hw, (silent_cons _ _).mpr ⟨rfl, silent_nil⟩⟩

theorem silent_armBlendDefault (testOnly : Bool) (a : AcquiredLayer) {w : StickyWrites}
    (hw : Silent w.2) : Silent (s.armBlendDefault dev testOnly w a).2 := by
  unfold armBlendDefault
  split
  · exact hw
  · split
    · exact hw
    · exact silent_writeSticky dev _ _ _ _ _ _ hw

theorem silent_armColorProps (testOnly : Bool) (a : AcquiredLayer) {w : StickyWrites}
    (hw : Silent w.2) : Silent (s.armColorProps dev testOnly w a).2 := by
  unfold armColorProps
  split
  · exact hw
  · split
    · exact hw
    · exact silent_writeSticky dev _ _ _ _ _ _ (silent_writeSticky dev _ _ _ _ _ _ hw)

theorem silent_armStickyProps (testOnly : Bool) (as : List AcquiredLayer) :
    Silent (s.armStickyProps dev testOnly as).2 := by
  have hfold : ∀ (pass : StickyWrites → AcquiredLayer → StickyWrites),
      (∀ w a, Silent w.2 → Silent (pass w a).2) →
      ∀ (as : List AcquiredLayer) (w : StickyWrites), Silent w.2 → Silent (as.foldl pass w).2 := by
    intro pass hpass as
    induction as with
    | nil => exact fun w hw => hw
    | cons a as ih => exact fun w hw => ih _ (hpass w a hw)
  exact hfold _ (fun w a => s.silent_armColorProps dev testOnly a) _ _
    (hfold _ (fun w a => s.silent_armBlendDefault dev testOnly a) _ _ silent_nil)

theorem silent_armAcquireFence (a : AcquiredLayer) : Silent (s.armAcquireFence dev a) := by
  unfold armAcquireFence
  split
  · split <;> simp [PropName.signals]
  · exact silent_nil

theorem silent_armDamageClips (q : FrameAnswers) (a : AcquiredLayer) :
    Silent (s.armDamageClips dev q a) := by
  unfold armDamageClips
  split
  · exact silent_nil
  · split
    · exact silent_nil
    · dsimp only
      split
      · exact silent_nil
      · split
        · split <;> simp [PropName.signals]
        · exact silent_nil

theorem silent_writePiece (q : FrameAnswers) (p : PlaneId) (piece : AmdPiece) {req : AtomicRequest}
    (h : writePiece dev q p piece = .ok req) : Silent req := by
  cases piece with
  | tf prop f inverse =>
    rw [writePiece] at h
    split at h
    · cases h
      exact silent_nil
    · cases h
      exact silent_map (fun _ => rfl) _
  | value prop v =>
    cases h
    split <;> simp [PropName.signals]
  | blob prop content =>
    rw [writePiece] at h
    split at h
    · cases h
      exact silent_nil
    · obtain ⟨blob, -, rfl⟩ := exists_of_map_ok h
      exact (silent_cons _ _).mpr ⟨rfl, silent_nil⟩

/-- A pass over a list is silent if each of its turns is. -/
theorem silent_mapM {α : Type*} {f : α → Except Errc AtomicRequest}
    (hf : ∀ a req, f a = .ok req → Silent req) {l : List α} {req : AtomicRequest}
    (h : (l.mapM f).map List.flatten = .ok req) : Silent req := by
  have hall : ∀ (l : List α) reqs, l.mapM f = .ok reqs → ∀ r ∈ reqs, Silent r := by
    intro l
    induction l with
    | nil =>
      intro reqs h
      cases h
      exact fun _ hr => nomatch hr
    | cons a l ih =>
      intro reqs h
      rw [List.mapM_cons] at h
      cases ha : f a with
      | error e =>
        rw [ha] at h
        cases h
      | ok r =>
        cases hl : l.mapM f with
        | error e =>
          rw [ha, hl] at h
          cases h
        | ok rs =>
          rw [ha, hl] at h
          cases h
          exact List.forall_mem_cons.mpr ⟨hf a r ha, ih rs hl⟩
  obtain ⟨reqs, hl, rfl⟩ := exists_of_map_ok h
  exact silent_flatten (hall l reqs hl)

theorem silent_armAmdPlaneColor (q : FrameAnswers) (as : List AcquiredLayer) {req : AtomicRequest}
    (h : s.armAmdPlaneColor dev q as = .ok req) : Silent req := by
  refine silent_mapM (fun a req ha => ?_) h
  unfold armAmdLayer at ha
  split at ha
  · cases ha
    exact silent_nil
  · exact silent_mapM (fun piece req => silent_writePiece dev q _ piece) ha

theorem silent_pinWrites (l : Planes.Layer) (p : PlaneId) : Silent (s.pinWrites dev l p) := by
  refine silent_filterMap (fun t w hw => ?_) _
  obtain ⟨v, -, hv⟩ := Option.bind_eq_some_iff.mp hw
  split at hv
  · cases hv
    rfl
  · cases hv

theorem silent_canvasWrite (p : PlaneId) (t : PropTag) (v : UInt64) :
    Silent (canvasWrite dev p t v) := by
  unfold canvasWrite
  split <;> simp [PropName.signals]

theorem silent_armCompositionCanvas (t : CompositionTarget) (p : PlaneCapabilities)
    (zpos : Int32) : Silent (s.armCompositionCanvas dev t p zpos) := by
  have hreset : ∀ props : List ℕ,
      Silent (props.map fun prop => ((p.id, .driverPrivate prop), 0)) :=
    silent_map fun _ => rfl
  unfold armCompositionCanvas
  simp only [silent_append, silent_canvasWrite, hreset, true_and, and_true]
  refine ⟨⟨?_, ?_⟩, ?_⟩
  · split
    · split <;> simp [PropName.signals]
    · exact silent_nil
  · split
    · exact silent_canvasWrite dev _ _ _
    · exact silent_nil
  · split
    · exact silent_nil
    · exact silent_canvasWrite dev _ _ _

theorem silent_modesetWrites (blob : BlobId) : Silent (s.modesetWrites blob) := by
  simp [modesetWrites, PropName.signals]

theorem silent_leaveCanvasPlane (as : List AcquiredLayer) (armed : Option PlaneId) :
    Silent (s.leaveCanvasPlane dev as armed) := by
  unfold leaveCanvasPlane
  split
  · exact silent_nil
  · split
    · exact silent_nil
    · exact dev.planes.silent_disableWrites _

theorem silent_beginModeset {q : FrameAnswers} {s' : SceneState} {request : AtomicRequest}
    (h : s.beginModeset q = .ok (s', request)) : Silent request := by
  unfold beginModeset at h
  split at h
  · cases h
    exact silent_nil
  · obtain ⟨blob, -, hb⟩ := exists_of_map_ok h
    cases hb
    exact s.silent_modesetWrites blob

end SceneState

namespace Placing

variable (dev : SceneDevice) {w : Placing}

theorem silent_armPinnedLayer (h : Silent w.request) (flags : Flags) (a : AcquiredLayer) :
    Silent (w.armPinnedLayer dev flags a).request := by
  have hwrites := fun l p => (silent_append _ _).mpr ⟨h, w.scene.silent_pinWrites dev l p⟩
  unfold armPinnedLayer
  dsimp only [SceneState.testRequest]
  split
  · split
    · exact hwrites _ _
    · split
      · exact hwrites _ _
      · exact hwrites _ _
      · exact (silent_append _ _).mpr ⟨h, dev.planes.silent_disableWrites _⟩
  · exact h

theorem silent_armPinnedLayers (h : Silent w.request) (flags : Flags) (as : List AcquiredLayer) :
    Silent (w.armPinnedLayers dev flags as).request := by
  unfold armPinnedLayers
  induction as generalizing w with
  | nil => exact h
  | cons a as ih => exact ih (silent_armPinnedLayer dev h flags a)

theorem silent_paintCanvas (h : Silent w.request) (q : FrameAnswers) (flags : Flags)
    (collected : List AcquiredLayer) (t : CompositionTarget) (first : PlaneCapabilities)
    (candidates : List PlaneCapabilities) :
    Silent (w.paintCanvas dev q flags collected t first candidates).placing.request := by
  unfold paintCanvas
  dsimp only
  split
  · exact h
  · split
    · exact h
    · obtain ⟨writes, ⟨s, t, p, zpos, harms⟩, hrequest⟩ :=
        armPainted_request dev (w.keepTarget _) q flags _ _ first candidates
      have hcanvas := SceneState.silent_armCompositionCanvas dev s t p zpos
      rw [hrequest]
      exact (silent_append _ _).mpr ⟨h, fun write hwrite => hcanvas write (harms.subset hwrite)⟩

theorem silent_composeUnassigned (h : Silent w.request) (q : FrameAnswers) (flags : Flags)
    (as : List AcquiredLayer) :
    Silent (w.composeUnassigned dev q flags as).placing.request := by
  unfold composeUnassigned
  dsimp only
  split
  · exact h
  · split
    · exact h
    · split
      · exact h
      · split
        · exact h
        · split
          · exact h
          · exact silent_paintCanvas dev (by exact h) q flags _ _ _ _

end Placing

namespace SceneState

variable (dev : SceneDevice) {s : SceneState}

/-- A turn of the placement loop that places leaves a silent request. -/
def RoundEnd.Silent : RoundEnd → Prop
  | .failed _ _ => True
  | .placed w _ => Modeset.Silent w.request

theorem silent_settle (r : Round) {w : Placing} (h : Silent w.request) :
    (w.settle dev r).Silent := by
  have hpins : ∀ b : Bool, Silent
      (if b then w.armPinnedLayers dev w.scene.verifyFlags r.acquired else w).request := by
    intro b
    cases b
    · exact h
    · exact Placing.silent_armPinnedLayers dev h _ _
  exact hpins _

theorem silent_armPasses (s : SceneState) {r : Round} {writes : AtomicRequest}
    (h : (s.armPasses dev r).2 = .ok writes) : Silent writes := by
  obtain ⟨amd, hamd, rfl⟩ := exists_of_map_ok h
  simp only [silent_append]
  exact ⟨⟨⟨s.silent_armStickyProps dev _ _,
    silent_flatMap (fun a => silent_armAcquireFence dev _ a) _⟩,
    silent_flatMap (fun a => silent_armDamageClips dev _ _ a) _⟩,
    silent_armAmdPlaneColor dev _ _ _ hamd⟩

theorem silent_placeRound (r : Round) {request : AtomicRequest} (report : CommitReport)
    (s : SceneState) (hrequest : Silent request) :
    (s.placeRound dev r request report).Silent := by
  unfold placeRound
  dsimp only
  generalize s.dropStaleAllocation = s'
  have hplanes : Silent (s'.applied dev r).request := Planes.Allocator.silent_apply _ _ _
  cases (s'.applied dev r).result with
  | error e => trivial
  | ok placed =>
    generalize s'.afterApply dev r = s''
    have hwrites : ∀ writes, (s''.armPasses dev r).2 = .ok writes → Silent writes :=
      fun _ h => silent_armPasses dev s'' h
    dsimp only
    generalize s''.armPasses dev r = armed at hwrites
    obtain ⟨s₃, writes⟩ := armed
    cases writes with
    | error e => trivial
    | ok writes =>
      refine silent_settle dev r ?_
      simp only [silent_append]
      exact ⟨⟨hrequest, hplanes⟩, hwrites writes rfl⟩

theorem silent_placeRounds (r : Round) {request : AtomicRequest} (report : CommitReport)
    (hrequest : Silent request) (fuel : ℕ) (s : SceneState) :
    (placeRounds dev r request report fuel s).Silent := by
  induction fuel generalizing s with
  | zero =>
    have hround := silent_placeRound dev r report s hrequest
    unfold placeRounds
    generalize s.placeRound dev r request report = e at hround
    cases e with
    | failed s e => trivial
    | placed w feasible => cases feasible <;> exact hround
  | succ fuel ih =>
    have hround := silent_placeRound dev r report s hrequest
    unfold placeRounds
    generalize s.placeRound dev r request report = e at hround
    cases e with
    | failed s e => trivial
    | placed w feasible =>
      cases feasible with
      | true => exact hround
      | false =>
        dsimp only
        split
        · exact ih _
        · exact hround

/-! ### The build -/

/-- The colours a frame declares, in acquisition order. -/
def frameColors (s : SceneState) (q : FrameAnswers) : List ContentColor :=
  ((s.prepared dev q).acquireAll q).1.map (·.attrs.contentColor)

/-- The signalling of a frame. -/
def signaled (s : SceneState) (q : FrameAnswers) : OutputState.Signaled :=
  s.signaling.signal s.properties s.requests ⟨s.frameColors dev q, q.hdrBlob⟩

/-- What a build leaves of the output: its signalling is what the frame asked for, and it is all
the request says of the output. -/
structure SignalsFrame (s : SceneState) (q : FrameAnswers) (b : SceneBuild) : Prop where
  requests : b.scene.requests = s.requests
  properties : b.scene.properties = s.properties
  built : ∀ f, b.result = .ok (some f) →
    b.scene.signaling = (s.signaled dev q).state ∧ (s.signaled dev q).error = none ∧
      (∃ req, f.request = req ++ (s.signaled dev q).writes ∧ Silent req) ∧
      ((s.signaled dev q).needsModeset → AllowsModeset f.effectiveFlags)
  failed : (∀ f, b.result ≠ .ok (some f)) →
    b.scene.signaling = s.signaling ∨
      (s.signaled dev q).error.isSome ∧ b.scene.signaling = (s.signaled dev q).state

/-- A build that ends before it signals. -/
theorem signalsFrame_of_kept {q : FrameAnswers} {b : SceneBuild}
    (hs : Kept (s.prepared dev q) b.scene) (h : ∀ f, b.result ≠ .ok (some f)) :
    SignalsFrame dev s q b where
  requests := hs.requests.trans (s.prepared_requests dev q)
  properties := hs.properties.trans (s.prepared_properties dev q)
  built := fun f hf => absurd hf (h f)
  failed := fun _ => .inl (hs.signaling.trans (s.prepared_signaling dev q))

theorem signalsFrame_finishBuild {q : FrameAnswers} {r : Round} {w : Placing}
    (hanswers : r.answers = q)
    (hacquired : r.acquired = ((s.prepared dev q).acquireAll q).1)
    (hkept : Kept (s.prepared dev q) w.scene) (h : Silent w.request) :
    SignalsFrame dev s q (finishBuild dev r w) := by
  have hcomposed := hkept.trans
    (w.still_composeUnassigned dev r.answers w.scene.verifyFlags r.acquired).held.kept
  have hsilent := Placing.silent_composeUnassigned dev h r.answers w.scene.verifyFlags r.acquired
  unfold finishBuild
  dsimp only
  generalize w.composeUnassigned dev r.answers w.scene.verifyFlags r.acquired = c
    at hcomposed hsilent
  have hrequests := hcomposed.requests.trans (s.prepared_requests dev q)
  have hproperties := hcomposed.properties.trans (s.prepared_properties dev q)
  have hsignaled : c.placing.scene.signaling.signal c.placing.scene.properties
      c.placing.scene.requests ⟨r.acquired.map (·.attrs.contentColor), r.answers.hdrBlob⟩ =
        s.signaled dev q := by
    rw [hcomposed.signaling.trans (s.prepared_signaling dev q), hproperties, hrequests, hacquired,
      hanswers]
    rfl
  rw [hsignaled]
  cases herr : (s.signaled dev q).error with
  | some e =>
    exact
      { requests := hrequests
        properties := hproperties
        built := fun f hf => by cases hf
        failed := fun _ => .inr ⟨by rw [herr]; rfl, rfl⟩ }
  | none =>
    refine ⟨hrequests, hproperties, fun f hf => ?_, fun hf => absurd rfl (hf _)⟩
    cases hf
    refine ⟨rfl, herr, ⟨_, rfl, (silent_append _ _).mpr
      ⟨hsilent, silent_leaveCanvasPlane dev _ _ _⟩⟩, fun hneeds => ?_⟩
    rw [if_pos hneeds]
    exact AllowsModeset.stripAsync dev _ (allowsModeset_or _)

/-- `build_frame_into` signals the output as the frame asks. -/
theorem signalsFrame_buildFrameInto (s : SceneState) (q : FrameAnswers) (callerFlags : Flags)
    (testOnly : Bool) : SignalsFrame dev s q (s.buildFrameInto dev q callerFlags testOnly) := by
  cases hentry : s.entry dev q callerFlags testOnly with
  | none =>
    obtain ⟨-, hsuspended⟩ | ⟨s', e, hheld, hfailed⟩ := entry_none hentry
    · rw [hsuspended]
      exact
        { requests := rfl
          properties := rfl
          built := fun f hf => by cases hf
          failed := fun _ => .inl rfl }
    · rw [hfailed]
      exact signalsFrame_of_kept dev hheld.kept fun f hf => by cases hf
  | some e =>
    obtain ⟨spec, hbuild⟩ := entry_spec hentry
    obtain ⟨s', hbegin⟩ := spec.begun
    have hrounds := spec.held.kept.trans (kept_placeRounds dev e.round e.request e.report
      e.round.acquired.length e.scene)
    have hsilent := silent_placeRounds dev e.round e.report (silent_beginModeset _ hbegin)
      e.round.acquired.length e.scene
    rw [hbuild, placeAndFinish]
    generalize placeRounds dev e.round e.request e.report _ e.scene = ended at hrounds hsilent
    cases ended with
    | failed s' e => exact signalsFrame_of_kept dev hrounds fun f hf => by cases hf
    | placed w feasible =>
      exact signalsFrame_finishBuild dev spec.answers (by rw [spec.acquireAll]) hrounds hsilent

end SceneState

end Scene

end DrmCxx
