import DrmCxx.Scene.SceneEdits

/-!
# What the passes of a build leave alone

Once its streams have their planes, a build changes the layers it lowers and places, the allocator,
the canvas and its verdicts, and nothing its caller or the kernel told the scene. Between two calls
of the allocator its allocation and the order of the layers stay, and a pass that looks for a canvas
plane leaves the layers alone as well. A resume and a rebind keep the table of layers and forget the
allocation.
-/

namespace DrmCxx.Scene

open Lib Modeset
open Planes (PlaneId CrtcId PlaneCapabilities Flags)

/-- The part of a scene that is not the work of a build's passes. -/
structure KeptPart where
  crtcId : CrtcId
  connectorId : ObjectId
  mode : DisplayMode
  properties : OutputProperties
  slots : List SceneSlot
  freeIds : List ℕ
  hintsDirty : LayerId → Bool
  primaryZposHint : Option UInt64
  cachedCrtcIndex : Option ℕ
  mixing : StreamMixingMode
  mixingProbeRan : Bool
  firstCommit : Bool
  suspended : Bool
  forceFullWrites : Bool
  externalReservedPlanes : List PlaneId
  claimedElsewhere : List PlaneId
  committedPlane : Option PlaneId
  requests : OutputRequests
  signaling : OutputState
  composition : Composition
  hasEgl : Bool
  placeholder : Planes.LayerId

/-- With what only the allocator changes. -/
structure HeldPart extends KeptPart where
  output : Planes.Output
  allocation : Planes.Assignment

/-- With the layers. -/
structure StillPart extends HeldPart where
  heap : Planes.Heap

namespace SceneState

def stillPart (s : SceneState) : StillPart where
  crtcId := s.crtcId
  connectorId := s.connectorId
  mode := s.mode
  properties := s.properties
  slots := s.slots
  freeIds := s.freeIds
  hintsDirty := s.hintsDirty
  primaryZposHint := s.primaryZposHint
  cachedCrtcIndex := s.cachedCrtcIndex
  mixing := s.mixing
  mixingProbeRan := s.mixingProbeRan
  firstCommit := s.firstCommit
  suspended := s.suspended
  forceFullWrites := s.forceFullWrites
  externalReservedPlanes := s.externalReservedPlanes
  claimedElsewhere := s.claimedElsewhere
  committedPlane := s.canvas.committedPlane
  requests := s.requests
  signaling := s.signaling
  composition := s.composition
  hasEgl := s.hasEgl
  placeholder := s.output.compositionLayer
  output := s.output
  allocation := s.allocator.previousAllocation
  heap := s.heap

/-- `s'` differs from `s` in the canvas, its verdicts and the TESTs, at most. -/
def Still (s s' : SceneState) : Prop := s'.stillPart = s.stillPart

/-- `s'` differs from `s` in what the passes between two calls of the allocator change, at most. -/
def Held (s s' : SceneState) : Prop := s'.stillPart.toHeldPart = s.stillPart.toHeldPart

/-- `s'` differs from `s` in what passes change, at most. -/
def Kept (s s' : SceneState) : Prop := s'.stillPart.toKeptPart = s.stillPart.toKeptPart

variable {s s' s'' : SceneState}

namespace Still

theorem refl (s : SceneState) : Still s s := rfl

theorem trans (h : Still s s') (h' : Still s' s'') : Still s s'' := Eq.trans h' h

theorem held (h : Still s s') : Held s s' := congrArg StillPart.toHeldPart h

theorem heap (h : Still s s') : s'.heap = s.heap := congrArg StillPart.heap h

end Still

namespace Held

theorem refl (s : SceneState) : Held s s := rfl

theorem trans (h : Held s s') (h' : Held s' s'') : Held s s'' := Eq.trans h' h

theorem kept (h : Held s s') : Kept s s' := congrArg HeldPart.toKeptPart h

theorem output (h : Held s s') : s'.output = s.output := congrArg HeldPart.output h

theorem allocation (h : Held s s') :
    s'.allocator.previousAllocation = s.allocator.previousAllocation :=
  congrArg HeldPart.allocation h

end Held

namespace Kept

theorem refl (s : SceneState) : Kept s s := rfl

theorem trans (h : Kept s s') (h' : Kept s' s'') : Kept s s'' := Eq.trans h' h

theorem slots (h : Kept s s') : s'.slots = s.slots := congrArg KeptPart.slots h

theorem freeIds (h : Kept s s') : s'.freeIds = s.freeIds := congrArg KeptPart.freeIds h

theorem properties (h : Kept s s') : s'.properties = s.properties :=
  congrArg KeptPart.properties h

theorem requests (h : Kept s s') : s'.requests = s.requests := congrArg KeptPart.requests h

theorem signaling (h : Kept s s') : s'.signaling = s.signaling := congrArg KeptPart.signaling h

theorem cachedCrtcIndex (h : Kept s s') : s'.cachedCrtcIndex = s.cachedCrtcIndex :=
  congrArg KeptPart.cachedCrtcIndex h

theorem placeholder (h : Kept s s') : s'.output.compositionLayer = s.output.compositionLayer :=
  congrArg KeptPart.placeholder h

theorem liveSlots (h : Kept s s') : s'.liveSlots = s.liveSlots := by
  rw [SceneState.liveSlots, h.slots, SceneState.liveSlots]

theorem layerCount (h : Kept s s') : s'.layerCount = s.layerCount := by
  rw [SceneState.layerCount, h.slots, h.freeIds, SceneState.layerCount]

end Kept

variable (dev : SceneDevice) (s : SceneState)

/-! ### Before the allocator -/

theorem prepared_signaling (q : FrameAnswers) :
    (s.prepared dev q).signaling = s.signaling := by
  unfold prepared ensureStreamLayerPins
  split <;> rfl

theorem prepared_requests (q : FrameAnswers) : (s.prepared dev q).requests = s.requests := by
  unfold prepared ensureStreamLayerPins
  split <;> rfl

theorem prepared_properties (q : FrameAnswers) :
    (s.prepared dev q).properties = s.properties := by
  unfold prepared ensureStreamLayerPins
  split <;> rfl

theorem prepared_freeIds (q : FrameAnswers) : (s.prepared dev q).freeIds = s.freeIds := by
  unfold prepared ensureStreamLayerPins
  split <;> rfl

theorem held_lower (q : FrameAnswers) : Held (s.prepared dev q) (s.lowered dev q) := rfl

theorem held_beginModeset {q : FrameAnswers} {s' : SceneState} {request : AtomicRequest}
    (h : s.beginModeset q = .ok (s', request)) : Held s s' := by
  unfold beginModeset at h
  split at h
  · cases h
    exact .refl s
  · cases hb : s.ensureModeBlob q with
    | error e =>
      rw [hb] at h
      cases h
    | ok blob =>
      rw [hb] at h
      cases h
      rfl

theorem held_reserveCanvas : Held s (s.reserveCanvas dev).1 := by
  unfold reserveCanvas
  split <;> rfl

theorem held_reservePin (acc : SceneState × List PlaneId × ℕ) (a : AcquiredLayer) :
    Held acc.1 (reservePin dev acc a).1 := by
  unfold reservePin
  dsimp only
  split
  · rfl
  · split <;> rfl

theorem held_reservePlanes (as : List AcquiredLayer) : Held s (s.reservePlanes dev as).1 := by
  have hfold : ∀ acc : SceneState × List PlaneId × ℕ,
      Held acc.1 (as.foldl (reservePin dev) acc).1 := by
    induction as with
    | nil => exact fun acc => .refl acc.1
    | cons a as ih => exact fun acc => (held_reservePin dev acc a).trans (ih _)
  exact (s.held_reserveCanvas dev).trans (hfold ((s.reserveCanvas dev).1, _, 0))

/-! ### The allocator -/

theorem held_dropStaleAllocation : Held s s.dropStaleAllocation := by
  unfold dropStaleAllocation
  split <;> rfl

theorem kept_afterApply (r : Round) : Kept s (s.afterApply dev r) := rfl

theorem still_armPasses (r : Round) : Still s (s.armPasses dev r).1 := rfl

theorem held_demote (victim : Planes.LayerId) : Held s (s.demote victim) := rfl

/-! ### The canvas -/

theorem still_refreshVerdicts (as : List AcquiredLayer) : Still s (s.refreshVerdicts as) := by
  unfold refreshVerdicts
  split <;> rfl

theorem still_makeCompositionTarget (q : FrameAnswers) (cfg : CompositeCanvasConfig) :
    Still s (s.makeCompositionTarget q cfg).1 := by
  unfold makeCompositionTarget
  dsimp only
  split
  · split <;> rfl
  · rfl

theorem still_ensureCompositionCanvas (q : FrameAnswers) (p : PlaneCapabilities) :
    Still s (s.ensureCompositionCanvas q p) := by
  unfold ensureCompositionCanvas
  split
  · rfl
  · exact Still.trans (s.still_makeCompositionTarget q _) rfl

theorem still_armCanvas (q : FrameAnswers) (t : CompositionTarget) (p : PlaneCapabilities)
    (zpos : Int32) : Still s (s.armCanvas dev q t p zpos).2.2 := rfl

theorem still_rejectPlane (p : PlaneId) : Still s (s.rejectPlane p) := rfl

theorem still_stopTesting : Still s s.stopTesting := rfl

/-- A TEST of the canvas that failed. -/
theorem still_rejectTested (p : PlaneId) :
    Still s (({ s with tests := s.tests + 1 } : SceneState).rejectPlane p) := rfl

end SceneState

namespace Placing

open SceneState

variable (dev : SceneDevice) (w : Placing)

theorem held_armPinnedLayer (flags : Flags) (a : AcquiredLayer) :
    Held w.scene (w.armPinnedLayer dev flags a).scene := by
  unfold armPinnedLayer
  dsimp only [testRequest]
  split
  · split
    · rfl
    · split <;> rfl
  · rfl

theorem held_armPinnedLayers (flags : Flags) (as : List AcquiredLayer) :
    Held w.scene (w.armPinnedLayers dev flags as).scene := by
  unfold armPinnedLayers
  induction as generalizing w with
  | nil => exact .refl w.scene
  | cons a as ih => exact (w.held_armPinnedLayer dev flags a).trans (ih _)

theorem still_probeVerdict (q : FrameAnswers) (flags : Flags) (t : CompositionTarget) (zpos : Int32)
    (p : PlaneCapabilities) (s : SceneState) :
    Still s (w.probeVerdict dev q flags t zpos p s).2 := by
  have harm := still_armCanvas dev s q t p zpos
  unfold probeVerdict
  generalize s.armCanvas dev q t p zpos = armed at harm
  obtain ⟨writes, done, s'⟩ := armed
  cases done <;> exact harm.trans rfl

theorem still_probeCanvas (q : FrameAnswers) (flags : Flags) (t : CompositionTarget) (zpos : Int32)
    (ps : List PlaneCapabilities) (s : SceneState) :
    Still s (w.probeCanvas dev q flags t zpos ps s).2 := by
  induction ps generalizing s with
  | nil => exact .refl s
  | cons p ps ih =>
    have hprobe := w.still_probeVerdict dev q flags t zpos p s
    rw [probeCanvas]
    split
    · exact .refl s
    · split
      · exact ih s
      · generalize w.probeVerdict dev q flags t zpos p s = probed at hprobe
        obtain ⟨verdict, s'⟩ := probed
        dsimp only
        split
        · exact hprobe.trans rfl
        · exact hprobe
        · exact (hprobe.trans (s'.still_rejectPlane p.id)).trans (ih _)

theorem still_canvasPlaneFeasible (q : FrameAnswers) (flags : Flags) (as : List AcquiredLayer) :
    Still w.scene (w.canvasPlaneFeasible dev q flags as).2 := by
  have hrefresh := w.scene.still_refreshVerdicts as
  unfold canvasPlaneFeasible
  dsimp only
  split
  · exact hrefresh
  · split
    · exact hrefresh
    · rename_i first rest hcandidates
      have hcanvas := hrefresh.trans (still_ensureCompositionCanvas _ q first)
      split
      · exact hcanvas
      · split
        · exact hcanvas
        · exact hcanvas.trans (w.still_probeCanvas dev q flags _ _ _ _)

theorem still_armCanvasLoop (q : FrameAnswers) (flags : Flags) (t : CompositionTarget)
    (zpos : Int32) (ps : List PlaneCapabilities) (s : SceneState) :
    Still s (w.armCanvasLoop dev q flags t zpos ps s).2 := by
  induction ps generalizing s with
  | nil => exact .refl s
  | cons p ps ih =>
    have harm := still_armCanvas dev s q t p zpos
    rw [armCanvasLoop]
    split
    · exact ih s
    · generalize s.armCanvas dev q t p zpos = armed at harm
      obtain ⟨writes, done, s'⟩ := armed
      dsimp only
      split
      · exact harm.trans (ih s')
      · split
        · exact harm
        · dsimp only [testRequest]
          split
          · exact harm.trans rfl
          · exact harm.trans rfl
          · exact (harm.trans (s'.still_rejectTested p.id)).trans (ih _)

theorem still_armFirst (q : FrameAnswers) (t : CompositionTarget) (zpos : Int32)
    (first : PlaneCapabilities) (s : SceneState) : Still s (armFirst dev q t zpos first s).2.2 :=
  s.still_armCanvas dev q t first zpos

theorem still_armCanvasTested (q : FrameAnswers) (flags : Flags) (t : CompositionTarget)
    (zpos : Int32) (first : PlaneCapabilities) (candidates : List PlaneCapabilities) :
    Still w.scene (w.armCanvasTested dev q flags t zpos first candidates).2.2 := by
  have hloop := w.still_armCanvasLoop dev q flags t zpos candidates w.scene
  unfold armCanvasTested
  dsimp only
  split
  · exact still_armFirst dev q t zpos first w.scene
  · generalize w.armCanvasLoop dev q flags t zpos candidates w.scene = r at hloop
    obtain ⟨found, s⟩ := r
    cases found with
    | some p => exact hloop
    | none => exact hloop.trans (s.still_stopTesting.trans (still_armFirst dev q t zpos first _))

theorem still_armPainted (q : FrameAnswers) (flags : Flags) (t : CompositionTarget)
    (handed : List AcquiredLayer) (first : PlaneCapabilities)
    (candidates : List PlaneCapabilities) :
    Still w.scene (w.armPainted dev q flags t handed first candidates).placing.scene := by
  have harmed := w.still_armCanvasTested dev q flags t w.scene.chooseCanvasZpos first candidates
  unfold armPainted
  generalize w.armCanvasTested dev q flags t w.scene.chooseCanvasZpos first candidates = armed
    at harmed
  obtain ⟨p, writes, s⟩ := armed
  cases p <;> exact harmed

theorem still_paintCanvas (q : FrameAnswers) (flags : Flags) (collected : List AcquiredLayer)
    (t : CompositionTarget) (first : PlaneCapabilities) (candidates : List PlaneCapabilities) :
    Still w.scene (w.paintCanvas dev q flags collected t first candidates).placing.scene := by
  unfold paintCanvas
  dsimp only
  split
  · rfl
  · split
    · rfl
    · have hkept (t : CompositionTarget) : Still w.scene (w.keepTarget t).scene := rfl
      exact (hkept _).trans (still_armPainted dev _ q flags _ _ _ _)

theorem still_composeUnassigned (q : FrameAnswers) (flags : Flags) (as : List AcquiredLayer) :
    Still w.scene (w.composeUnassigned dev q flags as).placing.scene := by
  unfold composeUnassigned
  dsimp only
  split
  · rfl
  · split
    · rfl
    · split
      · rfl
      · rename_i first rest hcandidates
        have hcanvas := still_ensureCompositionCanvas w.scene q first
        split
        · exact hcanvas
        · split
          · exact hcanvas
          · exact Still.trans hcanvas (still_paintCanvas dev (w.setScene _) q flags _ _ first _)

end Placing

namespace SceneState

variable (dev : SceneDevice)

/-! ### The placement loop -/

/-- The scene a turn of the placement loop ends with. -/
def RoundEnd.scene : RoundEnd → SceneState
  | .failed s _ => s
  | .placed w _ => w.scene

theorem held_settle (r : Round) (w : Placing) : Held w.scene (w.settle dev r).scene := by
  have hpins : ∀ b : Bool, Held w.scene
      (if b then w.armPinnedLayers dev w.scene.verifyFlags r.acquired else w).scene := by
    intro b
    cases b
    · exact .refl _
    · exact w.held_armPinnedLayers dev _ _
  exact (hpins _).trans (Placing.still_canvasPlaneFeasible dev _ _ _ _).held

variable (r : Round) (request : AtomicRequest) (report : CommitReport)

/-- After the allocator a turn changes neither its allocation nor the layers' order. -/
theorem held_placeRound (s : SceneState) :
    Held (s.dropStaleAllocation.afterApply dev r) (s.placeRound dev r request report).scene := by
  unfold placeRound
  dsimp only
  cases (s.dropStaleAllocation.applied dev r).result with
  | error e => exact .refl _
  | ok placed =>
    have harm := ((s.dropStaleAllocation.afterApply dev r).still_armPasses dev r).held
    dsimp only
    generalize (s.dropStaleAllocation.afterApply dev r).armPasses dev r = armed at harm
    obtain ⟨s', writes⟩ := armed
    cases writes with
    | error e => exact harm
    | ok writes => exact Held.trans harm (held_settle dev r ⟨s', _, _⟩)

theorem kept_placeRound (s : SceneState) : Kept s (s.placeRound dev r request report).scene :=
  (s.held_dropStaleAllocation.kept.trans (kept_afterApply dev _ r)).trans
    (held_placeRound dev r request report s).kept

/-- The loop ends with a turn, from a state that the turns before it reached. -/
theorem placeRounds_eq_round (Inv : SceneState → Prop)
    (hstep : ∀ s w victim, Inv s → s.placeRound dev r request report = .placed w false →
      Inv (w.scene.demote victim)) (fuel : ℕ) {s : SceneState} (hs : Inv s) :
    ∃ s', Inv s' ∧
      placeRounds dev r request report fuel s = s'.placeRound dev r request report := by
  induction fuel generalizing s with
  | zero =>
    refine ⟨s, hs, ?_⟩
    unfold placeRounds
    cases s.placeRound dev r request report with
    | failed s e => rfl
    | placed w feasible => cases feasible <;> rfl
  | succ fuel ih =>
    unfold placeRounds
    cases hround : s.placeRound dev r request report with
    | failed s' e => exact ⟨s, hs, hround.symm⟩
    | placed w feasible =>
      cases feasible with
      | true => exact ⟨s, hs, hround.symm⟩
      | false =>
        dsimp only
        split
        · exact ih (hstep s w _ hs hround)
        · exact ⟨s, hs, hround.symm⟩

theorem kept_placeRounds (fuel : ℕ) (s : SceneState) :
    Kept s (placeRounds dev r request report fuel s).scene := by
  obtain ⟨s', hs', heq⟩ := placeRounds_eq_round dev r request report (Kept s)
    (fun s' w victim hs' hround => by
      have hw : Kept s' w.scene := by
        have h := kept_placeRound dev r request report s'
        rwa [hround] at h
      exact (Kept.trans hs' hw).trans (w.scene.held_demote victim).kept) fuel (Kept.refl s)
  rw [heq]
  exact hs'.trans (kept_placeRound dev r request report s')

/-! ### The build -/

/-- What a build brings to the placement loop. -/
structure Entry where
  scene : SceneState
  round : Round
  request : AtomicRequest
  report : CommitReport

/-- A build that acquires its layers and begins its modeset comes to the placement loop. -/
def entry (s : SceneState) (q : FrameAnswers) (flags : Flags) (testOnly : Bool) : Option Entry :=
  if s.suspended then none
  else
    match (s.prepared dev q).acquireAll q, (s.lowered dev q).beginModeset q with
    | (acquired, skipped, none), .ok (begun, request) =>
      let (begun, reserved, pinsFailed) := begun.reservePlanes dev acquired
      some
        { scene := begun
          round :=
            { answers := q, acquired, reserved, flags := flags ||| begun.modesetFlags, testOnly }
          request
          report :=
            { layersTotal := begun.layerCount, layersSkippedNoFrame := skipped, pinsFailed } }
    | _, _ => none

variable {dev} {s : SceneState} {q : FrameAnswers} {flags : Flags} {testOnly : Bool}

structure EntrySpec (dev : SceneDevice) (s : SceneState) (q : FrameAnswers) (testOnly : Bool)
    (e : Entry) : Prop where
  held : Held (s.prepared dev q) e.scene
  acquireAll : (s.prepared dev q).acquireAll q =
    (e.round.acquired, e.report.layersSkippedNoFrame, none)
  answers : e.round.answers = q
  testOnly : e.round.testOnly = testOnly
  begun : ∃ s', (s.lowered dev q).beginModeset q = .ok (s', e.request)
  report : ∃ pinsFailed, e.report =
    { layersTotal := e.scene.layerCount
      layersSkippedNoFrame := e.report.layersSkippedNoFrame
      pinsFailed := pinsFailed }

theorem entry_spec {e : Entry} (h : s.entry dev q flags testOnly = some e) :
    EntrySpec dev s q testOnly e ∧
      s.buildFrameInto dev q flags testOnly =
        e.scene.placeAndFinish dev e.round e.request e.report := by
  unfold entry at h
  unfold buildFrameInto
  split at h
  · cases h
  · rename_i hsuspended
    rw [if_neg hsuspended]
    split at h
    · rename_i acquired skipped begun request hacquire hbegin
      cases h
      rw [hacquire]
      dsimp only
      rw [hbegin]
      refine ⟨⟨?_, hacquire, rfl, rfl, ⟨_, hbegin⟩, _, rfl⟩, rfl⟩
      exact ((s.held_lower dev q).trans (held_beginModeset _ hbegin)).trans
        (begun.held_reservePlanes dev acquired)
    · cases h

/-- A build that does not come to the placement loop fails, unless the scene is suspended. -/
theorem entry_none (h : s.entry dev q flags testOnly = none) :
    (s.suspended = true ∧ s.buildFrameInto dev q flags testOnly = ⟨s, .ok none⟩) ∨
      ∃ s' e, Held (s.prepared dev q) s' ∧
        s.buildFrameInto dev q flags testOnly = ⟨s', .error e⟩ := by
  unfold entry at h
  unfold buildFrameInto
  split at h
  · rename_i hsuspended
    rw [if_pos hsuspended]
    exact .inl ⟨hsuspended, rfl⟩
  · rename_i hsuspended
    rw [if_neg hsuspended]
    split at h
    · cases h
    · rename_i hno
      right
      cases hacquire : (s.prepared dev q).acquireAll q with
      | mk acquired rest =>
        obtain ⟨skipped, error⟩ := rest
        cases error with
        | some e => exact ⟨_, e, .refl _, rfl⟩
        | none =>
          dsimp only
          cases hbegin : (s.lowered dev q).beginModeset q with
          | error e => exact ⟨_, e, s.held_lower dev q, rfl⟩
          | ok begun => exact absurd hbegin (hno acquired skipped begun.1 begun.2 hacquire)

/-! ### A resume and a rebind -/

/-- What a resume leaves as it was, and the allocation it forgets. -/
structure Resumed (s s' : SceneState) : Prop where
  slots : s'.slots = s.slots
  freeIds : s'.freeIds = s.freeIds
  output : s'.output = s.output
  allocation : s'.allocator.previousAllocation = Lib.Table.empty

theorem resume_spec {a : ResumeAnswers} (h : s.resume dev a = .ok s') : Resumed s s' := by
  unfold resume at h
  obtain ⟨-, -, h⟩ := exists_of_bind_ok h
  obtain ⟨properties, -, h⟩ := exists_of_bind_ok h
  obtain ⟨-, -, h⟩ := exists_of_bind_ok h
  cases h
  exact ⟨rfl, rfl, rfl, rfl⟩

/-- What a rebind leaves as it was, and the layers it makes anew. -/
structure Rebound (s r : SceneState) (mem : TwinAddresses) : Prop where
  slots : r.slots = mem.retwin s.slots
  freeIds : r.freeIds = s.freeIds
  layers : r.output.layers = mem.liveTwins s.slots
  placeholder : r.output.compositionLayer = s.output.compositionLayer
  heap : r.heap = fun _ => {}
  allocation : r.allocator.previousAllocation = Lib.Table.empty
  suspended : r.suspended = s.suspended
  unavailable : r.gpuCompositionUnavailable = s.gpuCompositionUnavailable

theorem rebind_spec {target : SceneTarget} {mem : TwinAddresses} {r : SceneState}
    {report : List LayerHandle} (h : s.rebind dev target mem = .ok (r, report)) :
    Rebound s r mem := by
  unfold rebind at h
  obtain ⟨properties, -, h⟩ := exists_of_map_ok h
  cases h
  exact ⟨rfl, rfl, rfl, rfl, rfl, rfl, rfl, rfl⟩

end SceneState

end DrmCxx.Scene
