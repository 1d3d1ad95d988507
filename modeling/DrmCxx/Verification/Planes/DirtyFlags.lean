import DrmCxx.Verification.Planes.Apply

/-!
# The dirty flags of the layers

Dirty flags decide whether a frame may be answered from the allocation of the frame before. A search
does not read them: an allocator without a valid allocation answers every frame as if all flags were
the same, and leaves the layers of the output clean.
-/

namespace DrmCxx.Planes

open DrmCxx.Lib DrmCxx.Modeset

/-- The heap with other dirty flags. -/
def Heap.withDirty (h : Heap) (dirty : LayerId → Bool) : Heap := fun l =>
  { h l with dirty := dirty l }

namespace SearchContext

variable (c : SearchContext) (dirty : LayerId → Bool)

def withDirty : SearchContext := { c with heap := c.heap.withDirty dirty }

/-! ### The search -/

theorem stackedZpos_withDirty (a : Assignment) :
    c.device.stackedZpos c.crtcIndex c.output (c.heap.withDirty dirty) a =
      c.device.stackedZpos c.crtcIndex c.output c.heap a := by
  unfold Device.stackedZpos
  rfl

theorem testRequest_withDirty (decoration : AtomicRequest) (a : Assignment) :
    (c.withDirty dirty).testRequest decoration a = c.testRequest decoration a := by
  unfold testRequest
  simp only [withDirty, stackedZpos_withDirty]
  rfl

theorem tryTestCommit_withDirty (s : SearchState) (a : Assignment) :
    (c.withDirty dirty).tryTestCommit s a = c.tryTestCommit s a := by
  unfold tryTestCommit
  simp only [testRequest_withDirty]
  rfl

theorem eraseWithChildren_withDirty (among : List (PlaneId × LayerId)) (p : PlaneId)
    (a : Assignment) :
    (c.withDirty dirty).eraseWithChildren among p a = c.eraseWithChildren among p a := rfl

theorem outOfTests_withDirty (s : SearchState) :
    (c.withDirty dirty).outOfTests s = c.outOfTests s := rfl

theorem dropOne_withDirty (among es : List (PlaneId × LayerId)) (a : Assignment)
    (s : SearchState) :
    (c.withDirty dirty).dropOne among es a s = c.dropOne among es a s := by
  induction es generalizing a s with
  | nil => rfl
  | cons e es ih =>
    simp only [dropOne, ih, tryTestCommit_withDirty, eraseWithChildren_withDirty,
      outOfTests_withDirty]

theorem placeGreedy_withDirty (layers : List LayerId) (planes : List PlaneCapabilities)
    (s : SearchState) :
    (c.withDirty dirty).placeGreedy layers planes s = c.placeGreedy layers planes s := by
  simp only [placeGreedy, tryTestCommit_withDirty, dropOne_withDirty]
  rfl

theorem placeGroup_withDirty (layers : List LayerId) (planes : List PlaneCapabilities)
    (s : SearchState) :
    (c.withDirty dirty).placeGroup layers planes s = c.placeGroup layers planes s := by
  simp only [placeGroup, tryTestCommit_withDirty, placeGreedy_withDirty]
  rfl

theorem placeGroups_withDirty (groups : List (List LayerId)) (planes : List PlaneCapabilities)
    (best : Assignment) (s : SearchState) :
    (c.withDirty dirty).placeGroups groups planes best s = c.placeGroups groups planes best s := by
  induction groups generalizing planes best s with
  | nil => rfl
  | cons group groups ih => simp only [placeGroups, ih, placeGroup_withDirty]

theorem partialFallback_withDirty (planes : List PlaneCapabilities) (fuel : ℕ)
    (layers : List LayerId) (s : SearchState) :
    (c.withDirty dirty).partialFallback planes fuel layers s =
      c.partialFallback planes fuel layers s := by
  induction fuel generalizing layers s with
  | zero => rfl
  | succ fuel ih =>
    have hpick : (c.withDirty dirty).pickMostConstrained layers planes =
        c.pickMostConstrained layers planes := rfl
    simp only [partialFallback, ih, placeGroup_withDirty, outOfTests_withDirty, hpick]

theorem aroundRunLoop_withDirty (layers : List LayerId) (planes : List PlaneCapabilities)
    (ws : List ℕ) (s : SearchState) :
    (c.withDirty dirty).aroundRunLoop layers planes ws s = c.aroundRunLoop layers planes ws s := by
  induction ws generalizing s with
  | nil => rfl
  | cons w ws ih =>
    have hrun : (c.withDirty dirty).bestRun layers w = c.bestRun layers w := rfl
    have hbounds : ∀ a, (c.withDirty dirty).output.canvasBounds (c.withDirty dirty).heap a =
        c.output.canvasBounds c.heap a := fun _ => rfl
    simp only [aroundRunLoop, ih, placeGroup_withDirty, outOfTests_withDirty, hrun, hbounds]

theorem resolveCanvasBounds_withDirty (fuel : ℕ) (a : Assignment) :
    (c.withDirty dirty).resolveCanvasBounds fuel a = c.resolveCanvasBounds fuel a := by
  induction fuel generalizing a with
  | zero => rfl
  | succ fuel ih =>
    have hvictim : (c.withDirty dirty).caughtVictim a = c.caughtVictim a := rfl
    have hbounds : (c.withDirty dirty).output.canvasBounds (c.withDirty dirty).heap a =
        c.output.canvasBounds c.heap a := rfl
    have hcaps : (c.withDirty dirty).device = c.device := rfl
    simp only [resolveCanvasBounds, ih, hvictim, hbounds, hcaps]

theorem settleCanvas_withDirty (best : Assignment) (s : SearchState) :
    (c.withDirty dirty).settleCanvas best s = c.settleCanvas best s := by
  have haround : (c.withDirty dirty).placeAroundRun best.size
    (c.withDirty dirty).availablePlanes s =
      c.placeAroundRun best.size c.availablePlanes s := aroundRunLoop_withDirty c dirty _ _ _ s
  have hbounds : (c.withDirty dirty).output.canvasBounds (c.withDirty dirty).heap best =
      c.output.canvasBounds c.heap best := rfl
  simp only [settleCanvas, haround, hbounds, resolveCanvasBounds_withDirty, outOfTests_withDirty,
    tryTestCommit_withDirty]

theorem placeOnZposCrtc_withDirty (s : SearchState) :
    (c.withDirty dirty).placeOnZposCrtc s = c.placeOnZposCrtc s := by
  simp only [placeOnZposCrtc, placeGroups_withDirty, partialFallback_withDirty]
  rfl

theorem planeOrderLoop_withDirty (layers : List LayerId) (byId : List PlaneCapabilities)
    (o : OrderProblem) (fuel maxPlaced : ℕ) (s : SearchState) :
    (c.withDirty dirty).planeOrderLoop layers byId o fuel maxPlaced s =
      c.planeOrderLoop layers byId o fuel maxPlaced s := by
  induction fuel generalizing maxPlaced s with
  | zero => rfl
  | succ fuel ih => simp only [planeOrderLoop, ih, tryTestCommit_withDirty, outOfTests_withDirty]

/-- The search does not read the flags. -/
theorem searchAssignment_withDirty (s : SearchState) :
    (c.withDirty dirty).searchAssignment s = c.searchAssignment s := by
  have horder : (c.withDirty dirty).placeInPlaneOrder (c.withDirty dirty).sceneLayers
      (c.withDirty dirty).availablePlanes true s =
        c.placeInPlaneOrder c.sceneLayers c.availablePlanes true s := by
    unfold placeInPlaneOrder
    simp only [planeOrderLoop_withDirty]
    rfl
  simp only [searchAssignment, horder, placeOnZposCrtc_withDirty, settleCanvas_withDirty]
  rfl

end SearchContext

/-! ### Arming -/

section Arming

variable (d : Device) (o : Output) (h : Heap) (dirty dirty' : LayerId → Bool)

theorem update_withDirty (l : LayerId) (x : Layer) :
    Function.update (h.withDirty dirty) l { x with dirty := dirty l } =
      Heap.withDirty (Function.update h l x) dirty := by
  funext l'
  by_cases hl : l' = l
  · subst hl
    simp [Heap.withDirty]
  · simp [Heap.withDirty, hl]

theorem assignPlanes_withDirty (es : List (PlaneId × LayerId)) :
    assignPlanes (h.withDirty dirty) es = (assignPlanes h es).withDirty dirty := by
  induction es generalizing h with
  | nil => rfl
  | cons e es ih =>
    rw [assignPlanes, assignPlanes, ← ih, ← update_withDirty]
    rfl

theorem markUnassigned_withDirty :
    o.markUnassigned (h.withDirty dirty) = (o.markUnassigned h).withDirty dirty := by
  funext l
  by_cases hl : l ∈ o.layers ∧ (h l).assignedPlane = none ∧ o.isCompositionLayer l = false ∧
      (h l).externallyBound = false ∧ (h l).pinned = false
  · simp [Output.markUnassigned, Heap.withDirty, hl]
  · rw [Heap.withDirty, Output.markUnassigned, Output.markUnassigned, if_neg hl,
      if_neg (by exact hl)]
    rfl

theorem parkHeap_withDirty (parked : Option (LayerId × PlaneId)) :
    Allocator.parkHeap (h.withDirty dirty) parked =
      (Allocator.parkHeap h parked).withDirty dirty := by
  cases parked with
  | none => rfl
  | some e => exact update_withDirty h dirty e.1 { h e.1 with assignedPlane := some e.2 }

/-- Cleaning the output's layers forgets their flags. -/
theorem markClean_withDirty
    (hoff : ∀ l, l ∉ o.layers → o.compositionLayer ≠ l → dirty l = dirty' l) :
    o.markClean (h.withDirty dirty) = o.markClean (h.withDirty dirty') := by
  funext l
  by_cases hl : l ∈ o.layers ∨ o.compositionLayer = l
  · simp [Output.markClean, Heap.withDirty, hl]
  · obtain ⟨hmem, hcomp⟩ := not_or.mp hl
    simp [Output.markClean, Heap.withDirty, hl, hoff l hmem hcomp]

namespace Allocator

variable (a : Allocator) (f : Frame)

theorem applyAssignment_withDirty (stack : ZposStack) (testOnly : Bool)
    (es : List (PlaneId × LayerId)) :
    applyAssignment d (h.withDirty dirty) stack testOnly a es =
      applyAssignment d h stack testOnly a es := by
  induction es generalizing a with
  | nil => rfl
  | cons e es ih =>
    have hone : a.applyLayerToPlaneReal d (h.withDirty dirty) e.2 e.1 testOnly (stack.zposIn e.1) =
        a.applyLayerToPlaneReal d h e.2 e.1 testOnly (stack.zposIn e.1) := rfl
    simp only [applyAssignment, ih, hone]

theorem armBest_withDirty (best : Assignment) (layers : List LayerId)
    (hoff : ∀ l, l ∉ f.output.layers → f.output.compositionLayer ≠ l → dirty l = dirty' l) :
    a.armBest d f (h.withDirty dirty) best layers =
      a.armBest d f (h.withDirty dirty') best layers := by
  have hstack : ∀ δ, d.stackedZpos (d.crtcIndex f.output.crtcId) f.output (h.withDirty δ) best =
      d.stackedZpos (d.crtcIndex f.output.crtcId) f.output h best := fun _ => rfl
  have hcomposited : ∀ (g : Heap) δ, f.output.anyComposited (g.withDirty δ) =
      f.output.anyComposited g := fun _ _ => rfl
  have hparked : ∀ (g : Heap) δ, parkedComposition d f best (g.withDirty δ) =
      parkedComposition d f best g := fun _ _ => rfl
  have hwrites : ∀ (g : Heap) δ parked, parkWrites d (g.withDirty δ) parked =
      parkWrites d g parked := by
    intro g δ parked
    cases parked <;> rfl
  simp only [armBest, applyAssignment_withDirty, assignPlanes_withDirty, markUnassigned_withDirty,
    parkHeap_withDirty, hstack, hcomposited, hparked, hwrites,
    markClean_withDirty f.output _ dirty dirty' hoff]

theorem fullSearch_withDirty
    (hoff : ∀ l, l ∉ f.output.layers → f.output.compositionLayer ≠ l → dirty l = dirty' l) :
    a.fullSearch d f (h.withDirty dirty) = a.fullSearch d f (h.withDirty dirty') := by
  have hlayers : ∀ δ, sortLayersByZpos d (h.withDirty δ) f.output.layers =
      sortLayersByZpos d h f.output.layers := fun _ => rfl
  have hsearch : ∀ δ layers s, (a.context d f (h.withDirty δ) layers).searchAssignment s =
      (a.context d f h layers).searchAssignment s := fun δ layers s =>
    SearchContext.searchAssignment_withDirty (a.context d f h layers) δ s
  unfold fullSearch
  dsimp only
  rw [hlayers, hlayers, hsearch, hsearch]
  exact armBest_withDirty d h dirty dirty' _ f _ _ hoff

/-! ### The frame -/

theorem answerFrame_of_invalid (force : Bool) (heap : Heap) (hinvalid :
    ¬a.previousAllocationValid) :
    a.answerFrame d f force heap = a.fullSearch d f heap := by
  have hnone : a.cachedAnswer d f force heap = ⟨a, .error .resourceUnavailableTryAgain⟩ := by
    simp [cachedAnswer, attempt, Attempt.answers, hinvalid]
  rw [answerFrame, hnone, if_neg (by simp [Attempt.answers])]

theorem resetHeap_withDirty :
    { f with heap := f.heap.withDirty dirty }.resetHeap = f.resetHeap.withDirty dirty := by
  funext l
  by_cases hl : l ∈ f.output.layers
  · simp only [Frame.resetHeap, Heap.withDirty, if_pos hl]
    rfl
  · simp only [Frame.resetHeap, Heap.withDirty, if_neg hl]

/-- Without a valid allocation the flags of the output's layers do not matter. -/
theorem apply_withDirty (hinvalid : ¬a.previousAllocationValid)
    (hoff : ∀ l, l ∉ f.output.layers → f.output.compositionLayer ≠ l → dirty l = dirty' l) :
    a.apply d { f with heap := f.heap.withDirty dirty } =
      a.apply d { f with heap := f.heap.withDirty dirty' } := by
  have hbegin : ¬(a.beginFrame d f).previousAllocationValid := by
    rwa [beginFrame_previousAllocationValid]
  have hanswer : ∀ δ force, (a.beginFrame d f).answerFrame d { f with heap := f.heap.withDirty δ }
      force { f with heap := f.heap.withDirty δ }.resetHeap =
        (a.beginFrame d f).fullSearch d f (f.resetHeap.withDirty δ) := by
    intro δ force
    rw [answerFrame_of_invalid _ _ _ _ _ hbegin, resetHeap_withDirty]
    rfl
  have hstart : ∀ δ, a.beginFrame d { f with heap := f.heap.withDirty δ } = a.beginFrame d f :=
    fun _ => rfl
  unfold apply
  rw [hstart, hstart, hanswer, hanswer, fullSearch_withDirty d f.resetHeap dirty dirty' _ f hoff]

end Allocator

end Arming

end DrmCxx.Planes
