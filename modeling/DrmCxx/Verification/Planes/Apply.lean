import DrmCxx.Planes.Allocator.Apply
import DrmCxx.Verification.Planes.Search

/-!
# What one `apply()` can do

The paths that replay the previous allocation change nothing before they answer but the search
state and the pruned entries; an answer arms either that allocation or the one a search found.
-/

namespace DrmCxx.Planes

open DrmCxx.Lib DrmCxx.Modeset

/-! ### Layers during a frame -/

section Heap

variable {f : Frame} {heap : Heap} {l : LayerId}

@[simp] theorem resetHeap_props : (f.resetHeap l).props = (f.heap l).props := by
  unfold Frame.resetHeap
  split <;> rfl

@[simp] theorem resetHeap_externallyBound :
    (f.resetHeap l).externallyBound = (f.heap l).externallyBound := by
  unfold Frame.resetHeap
  split <;> rfl

@[simp] theorem resetHeap_pinned : (f.resetHeap l).pinned = (f.heap l).pinned := by
  unfold Frame.resetHeap
  split <;> rfl

@[simp] theorem resetHeap_forceComposited :
    (f.resetHeap l).forceComposited = (f.heap l).forceComposited := by
  unfold Frame.resetHeap
  split <;> rfl

@[simp] theorem resetHeap_transientComposited :
    (f.resetHeap l).transientComposited = (f.heap l).transientComposited := by
  unfold Frame.resetHeap
  split <;> rfl

theorem resetHeap_fresh (hl : l ∈ f.output.layers) (hp : (f.heap l).pinned = false) :
    (f.resetHeap l).assignedPlane = none ∧ (f.resetHeap l).needsComposition = false := by
  simp [Frame.resetHeap, hl, hp]

/-- Giving out planes changes the placement of a layer and nothing else. -/
theorem assignPlanes_eq (es : List (PlaneId × LayerId)) (heap : Heap) (l : LayerId) :
    assignPlanes heap es l =
      { heap l with
        assignedPlane := (assignPlanes heap es l).assignedPlane
        needsComposition := (assignPlanes heap es l).needsComposition } := by
  induction es generalizing heap with
  | nil => rfl
  | cons e es ih =>
    rw [assignPlanes, ih]
    by_cases h : l = e.2
    · subst h
      simp
    · rw [Function.update_of_ne h]

theorem assignPlanes_of_mem (heap : Heap) {es : List (PlaneId × LayerId)}
    (h : l ∈ es.map Prod.snd) :
    (assignPlanes heap es l).assignedPlane.isSome = true ∧
      (assignPlanes heap es l).needsComposition = false := by
  suffices ∀ heap : Heap, l ∈ es.map Prod.snd ∨
      ((heap l).assignedPlane.isSome = true ∧ (heap l).needsComposition = false) →
      (assignPlanes heap es l).assignedPlane.isSome = true ∧
        (assignPlanes heap es l).needsComposition = false from this heap (.inl h)
  clear h
  induction es with
  | nil =>
    intro heap h
    exact h.resolve_left (by simp)
  | cons e es ih =>
    intro heap h
    rw [assignPlanes]
    apply ih
    by_cases hl : l = e.2
    · right
      subst hl
      simp
    · rw [Function.update_of_ne hl]
      rcases h with h | h
      · exact .inl ((List.mem_cons.mp h).resolve_left hl)
      · exact .inr h

theorem assignPlanes_of_not_mem {es : List (PlaneId × LayerId)} (h : l ∉ es.map Prod.snd) :
    assignPlanes heap es l = heap l := by
  induction es generalizing heap with
  | nil => rfl
  | cons e es ih =>
    rw [List.map_cons, List.mem_cons, not_or] at h
    rw [assignPlanes, ih h.2, Function.update_of_ne h.1]

@[simp] theorem markClean_assignedPlane (o : Output) :
    (o.markClean heap l).assignedPlane = (heap l).assignedPlane := by
  unfold Output.markClean
  split <;> rfl

@[simp] theorem markClean_needsComposition (o : Output) :
    (o.markClean heap l).needsComposition = (heap l).needsComposition := by
  unfold Output.markClean
  split <;> rfl

@[simp] theorem markUnassigned_assignedPlane (o : Output) :
    (o.markUnassigned heap l).assignedPlane = (heap l).assignedPlane := by
  unfold Output.markUnassigned
  split <;> rfl

/-- After an assignment each scene layer is either on a plane or left to the composition. -/
theorem placed_xor_composited (es : List (PlaneId × LayerId)) (hl : l ∈ f.output.layers)
    (hs : f.isScene l = true) :
    (f.output.markUnassigned (assignPlanes f.resetHeap es) l).needsComposition =
      !(f.output.markUnassigned (assignPlanes f.resetHeap es) l).assignedPlane.isSome := by
  simp only [Frame.isScene, Bool.and_eq_true, Bool.not_eq_true'] at hs
  obtain ⟨⟨hc, he⟩, hp⟩ := hs
  have hext : (assignPlanes f.resetHeap es l).externallyBound = false := by
    rw [assignPlanes_eq]
    simpa using he
  have hpin : (assignPlanes f.resetHeap es l).pinned = false := by
    rw [assignPlanes_eq]
    simpa using hp
  by_cases hm : l ∈ es.map Prod.snd
  · obtain ⟨hsome, hneeds⟩ := assignPlanes_of_mem f.resetHeap hm
    have hne : (assignPlanes f.resetHeap es l).assignedPlane ≠ none :=
      Option.isSome_iff_ne_none.mp hsome
    simp [Output.markUnassigned, hne, hsome, hneeds]
  · have hnone : (assignPlanes f.resetHeap es l).assignedPlane = none := by
      rw [assignPlanes_of_not_mem hm]
      exact (resetHeap_fresh hl hp).1
    simp [Output.markUnassigned, hl, hc, hext, hpin, hnone]

theorem hasLayer_iff {b : Assignment} : b.hasLayer l = true ↔ l ∈ b.entries.map Prod.snd := by
  simp [Assignment.hasLayer]

/-- A scene layer is left to the composition exactly when the assignment has no plane for it. -/
theorem placed_needsComposition (b : Assignment) (hl : l ∈ f.output.layers)
    (hs : f.isScene l = true) :
    (f.output.markUnassigned (assignPlanes f.resetHeap b.entries) l).needsComposition =
      !b.hasLayer l := by
  rw [placed_xor_composited _ hl hs, markUnassigned_assignedPlane]
  simp only [Frame.isScene, Bool.and_eq_true, Bool.not_eq_true'] at hs
  by_cases hm : l ∈ b.entries.map Prod.snd
  · rw [(assignPlanes_of_mem f.resetHeap hm).1, hasLayer_iff.mpr hm]
  · rw [assignPlanes_of_not_mem hm, (resetHeap_fresh hl hs.2).1,
      Bool.eq_false_iff.mpr fun h => hm (hasLayer_iff.mp h)]
    rfl

theorem assignPlanes_resetHeap_needsComposition (es : List (PlaneId × LayerId))
    (hl : l ∈ f.output.layers) : (assignPlanes f.resetHeap es l).needsComposition = false := by
  by_cases hm : l ∈ es.map Prod.snd
  · exact (assignPlanes_of_mem f.resetHeap hm).2
  · rw [assignPlanes_of_not_mem hm, Frame.resetHeap, if_pos hl]

end Heap

namespace Allocator

variable {d : Device} {a a' : Allocator} {f : Frame} {heap : Heap}

/-! ### Attempts at the previous allocation -/

/-- `a'` is `a` but for the search state and, if an attempt came that far, the pruned entries. -/
def Attempted (f : Frame) (a a' : Allocator) : Prop :=
  ∃ prev s, a' = { a with previousAllocation := prev, search := s } ∧
    (prev = a.previousAllocation ∨ prev = (a.prunePrevious f).previousAllocation)

theorem Attempted.refl (f : Frame) (a : Allocator) : Attempted f a a :=
  ⟨_, _, rfl, .inl rfl⟩

theorem prunePrevious_idem (f : Frame) (a : Allocator) :
    ((a.prunePrevious f).prunePrevious f).previousAllocation =
      (a.prunePrevious f).previousAllocation := by
  simp [prunePrevious, Table.filter, List.filter_filter]

theorem Attempted.prune_eq (h : Attempted f a a') :
    (a'.prunePrevious f).previousAllocation = (a.prunePrevious f).previousAllocation := by
  obtain ⟨prev, s, rfl, hprev⟩ := h
  rcases hprev with rfl | rfl
  · rfl
  · exact prunePrevious_idem f a

theorem Attempted.trans {a'' : Allocator} (h : Attempted f a a') (h' : Attempted f a' a'') :
    Attempted f a a'' := by
  have hp := h.prune_eq
  obtain ⟨prev, s, rfl, hprev⟩ := h
  obtain ⟨prev', s', rfl, hprev'⟩ := h'
  rcases hprev' with hprev' | hprev'
  · exact ⟨prev', s', rfl, hprev' ▸ hprev⟩
  · exact ⟨prev', s', rfl, .inr (hprev'.trans hp)⟩

/-- What an attempt that places the frame has done: it armed the pruned allocation `a₁` holds. -/
structure Replays (d : Device) (a : Allocator) (f : Frame) (heap : Heap) (t : Attempt)
    (a₁ : Allocator) : Prop where
  attempted : Attempted f a a₁
  pruned : a₁.previousAllocation = (a.prunePrevious f).previousAllocation
  unreserved : ∀ e ∈ a₁.previousAllocation.entries, e.1 ∉ f.reserved
  warm : a₁.warmStartOk d f heap = true
  answer : t.answer = .ok (a₁.armPrevious d f heap).2
  /-- Up to the flag the FB-only path raises. -/
  allocator : ∃ diag, t.allocator = (a₁.armPrevious d f heap).1.setDiagnostics diag

theorem attempt_cases (d : Device) (a : Allocator) (f : Frame) (heap : Heap)
    (wanted skipTest : Bool) :
    ((∃ e, (a.attempt d f heap wanted skipTest).answer = .error e) ∧
        Attempted f a (a.attempt d f heap wanted skipTest).allocator) ∨
      (wanted = true ∧ ∃ a₁, Replays d a f heap (a.attempt d f heap wanted skipTest) a₁) := by
  unfold attempt
  split
  · unfold applyPreviousAllocation
    split
    · exact .inl ⟨⟨_, rfl⟩, .refl f a⟩
    · rename_i hw hres
      have hpruned : ∀ s, Attempted f a ((a.prunePrevious f).setSearch s) :=
        fun s => ⟨_, s, rfl, .inr rfl⟩
      dsimp only
      split
      · exact .inl ⟨⟨_, rfl⟩, hpruned _⟩
      · rename_i hwarm
        generalize (if skipTest = true then _ else _ : Option Errc × SearchState) = tested
        split
        · exact .inl ⟨⟨_, rfl⟩, hpruned _⟩
        · exact .inl ⟨⟨_, rfl⟩, hpruned _⟩
        · refine .inr ⟨hw, (a.prunePrevious f).setSearch tested.2, hpruned _, rfl, ?_, ?_, rfl,
            ⟨_, rfl⟩⟩
          · intro e he hm
            have he := (Table.mem_filter.mp he).1
            apply hres
            rw [List.any_eq_true]
            exact ⟨e, he, by simpa using hm⟩
          · rw [Bool.not_eq_true'] at hwarm
            exact Bool.eq_true_of_not_eq_false hwarm
  · exact .inl ⟨⟨_, rfl⟩, .refl f a⟩

theorem Replays.of_attempted {t : Attempt} {a₁ : Allocator} (h : Replays d a' f heap t a₁)
    (ha : Attempted f a a') : Replays d a f heap t a₁ where
  attempted := ha.trans h.attempted
  pruned := h.pruned.trans ha.prune_eq
  unreserved := h.unreserved
  warm := h.warm
  answer := h.answer
  allocator := h.allocator

theorem answers_of_ok {t : Attempt} {x : Heap × AtomicRequest} (h : t.answer = .ok x) :
    t.answers = true := by
  simp [Attempt.answers, h]

theorem Replays.markFbDelta {t : Attempt} {a₁ : Allocator} (h : Replays d a f heap t a₁) :
    Replays d a f heap (markFbDelta t) a₁ := by
  obtain ⟨diag, hdiag⟩ := h.allocator
  have ht : (Allocator.markFbDelta t).answer = t.answer := by
    unfold Allocator.markFbDelta
    split <;> rfl
  have ha : ∃ diag, (Allocator.markFbDelta t).allocator =
      (a₁.armPrevious d f heap).1.setDiagnostics diag := by
    simp only [Allocator.markFbDelta, h.answer, hdiag]
    exact ⟨_, rfl⟩
  exact { h with answer := ht.trans h.answer, allocator := ha }

theorem markFbDelta_of_error {t : Attempt} {e : Errc} (h : t.answer = .error e) :
    markFbDelta t = t := by
  simp [Allocator.markFbDelta, h]

/-- The cached paths fail and leave the frame to a search, or one of them replays the pruned
allocation. -/
theorem cachedAnswer_cases (d : Device) (a : Allocator) (f : Frame) (force : Bool) (heap : Heap) :
    ((∃ e, (a.cachedAnswer d f force heap).answer = .error e) ∧
        Attempted f a (a.cachedAnswer d f force heap).allocator) ∨
      ((a.previousAllocationValid && !force) = true ∧
        ∃ a₁, Replays d a f heap (a.cachedAnswer d f force heap) a₁) := by
  unfold cachedAnswer
  generalize (a.previousAllocationValid && !force) = cached
  dsimp only
  have h₁ := attempt_cases d a f heap (!f.testOnly && cached && a.isFbOnlyFrame f) true
  generalize a.attempt d f heap _ true = fbOnly at h₁ ⊢
  rcases h₁ with ⟨⟨e, he⟩, ha₁⟩ | ⟨hw, a₁, hr⟩
  · have h₂ := attempt_cases d fbOnly.allocator f heap
      (!f.output.anyLayerDirty f.heap && cached) false
    generalize fbOnly.allocator.attempt d f heap _ false = clean at h₂ ⊢
    split
    · rw [markFbDelta_of_error he]
      exact .inl ⟨⟨e, he⟩, ha₁⟩
    · rcases h₂ with ⟨⟨e', he'⟩, ha₂⟩ | ⟨hw, a₁, hr⟩
      · split
        · exact .inl ⟨⟨e', he'⟩, ha₁.trans ha₂⟩
        · rcases attempt_cases d clean.allocator f heap cached false with ⟨he'', ha₃⟩ | ⟨hw, a₁, hr⟩
          · exact .inl ⟨he'', (ha₁.trans ha₂).trans ha₃⟩
          · exact .inr ⟨hw, a₁, hr.of_attempted (ha₁.trans ha₂)⟩
      · rw [if_pos (answers_of_ok hr.answer)]
        rw [Bool.and_eq_true] at hw
        exact .inr ⟨hw.2, a₁, hr.of_attempted ha₁⟩
  · rw [if_pos (answers_of_ok hr.answer)]
    simp only [Bool.and_eq_true] at hw
    exact .inr ⟨hw.1.2, a₁, hr.markFbDelta⟩

/-! ### Writing leaves the rest of the allocator alone -/

/-- `a'` is `a` after some writes: only what records writes may differ. -/
def Written (a a' : Allocator) : Prop :=
  ∃ lastCommitted foreignLit diag, a' =
    { a with lastCommitted := lastCommitted, foreignLit := foreignLit, diagnostics := diag } ∧
      diag.fbDeltaFastPath = a.diagnostics.fbDeltaFastPath

theorem Written.refl (a : Allocator) : Written a a := ⟨_, _, _, rfl, rfl⟩

theorem Written.trans {a'' : Allocator} (h : Written a a') (h' : Written a' a'') :
    Written a a'' := by
  obtain ⟨_, _, _, rfl, hdiag⟩ := h
  obtain ⟨lc, fl, diag, rfl, hdiag'⟩ := h'
  exact ⟨lc, fl, diag, rfl, hdiag'.trans hdiag⟩

theorem applyLayerToPlaneReal_written (heap : Heap) (l : LayerId) (p : PlaneId) (testOnly : Bool)
    (zpos : Option UInt64) : Written a (a.applyLayerToPlaneReal d heap l p testOnly zpos).1 := by
  unfold applyLayerToPlaneReal
  dsimp only
  split <;> exact ⟨_, _, _, rfl, rfl⟩

theorem applyAssignment_written (heap : Heap) (stack : ZposStack) (testOnly : Bool)
    (es : List (PlaneId × LayerId)) :
    Written a (applyAssignment d heap stack testOnly a es).1 := by
  induction es generalizing a with
  | nil => exact .refl a
  | cons e es ih => exact (applyLayerToPlaneReal_written _ _ _ _ _).trans ih

theorem disablePlane_written (testOnly : Bool) (p : PlaneId) :
    Written a (a.disablePlane d testOnly p).1 := by
  unfold disablePlane
  split
  · exact .refl a
  · dsimp only
    split <;> exact ⟨_, _, _, rfl, rfl⟩

theorem disablePlanes_written (testOnly : Bool) (ps : List PlaneId) :
    Written a (disablePlanes d testOnly a ps).1 := by
  induction ps generalizing a with
  | nil => exact .refl a
  | cons p ps ih => exact (disablePlane_written _ _).trans ih

theorem Written.previousAllocation_eq (h : Written a a') :
    a'.previousAllocation = a.previousAllocation := by
  obtain ⟨_, _, _, rfl, -⟩ := h
  rfl

/-- The disables and the writes of the previous allocation, in turn. -/
theorem armed_written (d : Device) (a : Allocator) (f : Frame) (heap : Heap) :
    Written a (applyAssignment d heap
      (d.stackedZpos (d.crtcIndex f.output.crtcId) f.output heap a.previousAllocation) f.testOnly
      (disablePlanes d f.testOnly a (d.unusedPlanes (d.crtcIndex f.output.crtcId) f.reserved
        a.previousAllocation.contains)).1
      a.previousAllocation.entries).1 :=
  (disablePlanes_written _ _).trans (applyAssignment_written _ _ _ _)

theorem armPrevious_previousAllocation (d : Device) (a : Allocator) (f : Frame) (heap : Heap) :
    (a.armPrevious d f heap).1.previousAllocation = a.previousAllocation := by
  have h := (armed_written d a f heap).previousAllocation_eq
  unfold armPrevious
  dsimp only
  split <;> exact h

/-! ### The frame -/

theorem beginFrame_previousAllocation (d : Device) (a : Allocator) (f : Frame) :
    (a.beginFrame d f).previousAllocation = a.previousAllocation := by
  unfold beginFrame
  dsimp only
  split <;> rfl

theorem beginFrame_previousAllocationValid (d : Device) (a : Allocator) (f : Frame) :
    (a.beginFrame d f).previousAllocationValid = a.previousAllocationValid := by
  unfold beginFrame
  dsimp only
  split <;> rfl

theorem beginFrame_prune (d : Device) (a : Allocator) (f : Frame) :
    ((a.beginFrame d f).prunePrevious f).previousAllocation =
      (a.prunePrevious f).previousAllocation := by
  simp only [prunePrevious, beginFrame_previousAllocation]

/-- The cached paths' answer to this frame. -/
def cacheAnswer (d : Device) (a : Allocator) (f : Frame) : Attempt :=
  (a.beginFrame d f).cachedAnswer d f (a.forceSearch f) f.resetHeap

/-- A cached path replays the previous allocation. -/
def Replayed (d : Device) (a : Allocator) (f : Frame) : Prop :=
  ∃ x, (cacheAnswer d a f).answer = .ok x

instance (d : Device) (a : Allocator) (f : Frame) : Decidable (Replayed d a f) :=
  match h : (cacheAnswer d a f).answer with
  | .ok x => .isTrue ⟨x, h⟩
  | .error _ => .isFalse fun ⟨_, hx⟩ => by rw [h] at hx; cases hx

/-- The search that answers when no cached path does. -/
def searched (d : Device) (a : Allocator) (f : Frame) : Applied :=
  (cacheAnswer d a f).allocator.fullSearch d f f.resetHeap

/-- The layers that search walks. -/
def searchContext (d : Device) (a : Allocator) (f : Frame) : SearchContext :=
  (cacheAnswer d a f).allocator.context d f f.resetHeap
    (sortLayersByZpos d f.resetHeap f.output.layers)

/-- What it finds. -/
def searchResult (d : Device) (a : Allocator) (f : Frame) : Assignment × SearchState :=
  (searchContext d a f).searchAssignment (cacheAnswer d a f).allocator.search

theorem searchContext_layers (d : Device) (a : Allocator) (f : Frame) :
    (searchContext d a f).layers.Perm f.output.layers := d.stdSort.perm _ _

theorem searchContext_sceneLayers (d : Device) (a : Allocator) (f : Frame) :
    (searchContext d a f).sceneLayers.Perm f.sceneLayers := by
  have hscene : (searchContext d a f).sceneLayers = (searchContext d a f).layers.filter fun l =>
      !f.output.isCompositionLayer l && !(f.resetHeap l).externallyBound &&
        !(f.resetHeap l).pinned := rfl
  simp only [hscene, resetHeap_pinned, resetHeap_externallyBound]
  exact (searchContext_layers d a f).filter _

theorem searched_eq (d : Device) (a : Allocator) (f : Frame) :
    searched d a f = ((cacheAnswer d a f).allocator.setSearch (searchResult d a f).2).armBest d f
      f.resetHeap (searchResult d a f).1 (sortLayersByZpos d f.resetHeap f.output.layers) := rfl

theorem searched_previousAllocation (d : Device) (a : Allocator) (f : Frame) :
    (searched d a f).allocator.previousAllocation = (searchResult d a f).1 := rfl

theorem apply_of_replayed (h : Replayed d a f) :
    ∃ a₁, Replays d (a.beginFrame d f) f f.resetHeap (cacheAnswer d a f) a₁ ∧
      (a.apply d f).result = .ok a₁.previousAllocation.size ∧
      (a.apply d f).armed = a₁.previousAllocation.entries ∧
      (a.apply d f).heap = (a₁.armPrevious d f f.resetHeap).2.1 ∧
      (a.apply d f).request = (a₁.armPrevious d f f.resetHeap).2.2 ∧
      (a.apply d f).layers = f.output.layers ∧
      ∃ diag, (a.apply d f).allocator = (a₁.armPrevious d f f.resetHeap).1.setDiagnostics diag := by
  obtain ⟨x, hx⟩ := h
  rcases cachedAnswer_cases d (a.beginFrame d f) f (a.forceSearch f) f.resetHeap with
    ⟨⟨e, he⟩, -⟩ | ⟨-, a₁, hr⟩
  · rw [cacheAnswer, he] at hx
    cases hx
  · refine ⟨a₁, hr, ?_⟩
    obtain ⟨diag, hdiag⟩ := hr.allocator
    have hprev : (a₁.armPrevious d f f.resetHeap).1.previousAllocation = a₁.previousAllocation :=
      armPrevious_previousAllocation d a₁ f f.resetHeap
    simp only [apply, answerFrame, if_pos (answers_of_ok hr.answer), Attempt.applied, hr.answer,
      hdiag]
    exact ⟨by rw [← hprev]; rfl, by rw [← hprev]; rfl, trivial, trivial, trivial, _, rfl⟩

/-- No cached path placed the frame: the master is lost, or a search answers. -/
theorem apply_of_not_replayed (h : ¬ Replayed d a f) :
    Attempted f (a.beginFrame d f) (cacheAnswer d a f).allocator ∧
      (((cacheAnswer d a f).answers = true ∧ ∃ diag, a.apply d f = ⟨.error .permissionDenied,
          (cacheAnswer d a f).allocator.setDiagnostics diag, f.resetHeap, f.output.layers, [],
            []⟩) ∨
        ((cacheAnswer d a f).answers = false ∧ ∃ diag, a.apply d f = { searched d a f with
            allocator := (searched d a f).allocator.setDiagnostics diag } ∧
          diag.fbDeltaFastPath = (searched d a f).allocator.diagnostics.fbDeltaFastPath)) := by
  rcases cachedAnswer_cases d (a.beginFrame d f) f (a.forceSearch f) f.resetHeap with
    ⟨⟨e, he⟩, ha⟩ | ⟨-, a₁, hr⟩
  · refine ⟨ha, ?_⟩
    by_cases hperm : e = .permissionDenied
    · subst hperm
      left
      refine ⟨by simp [cacheAnswer, Attempt.answers, he], ?_⟩
      simp only [apply, answerFrame, Attempt.answers, he, decide_true, if_true, Attempt.applied]
      exact ⟨_, rfl⟩
    · right
      have hno : ((a.beginFrame d f).cachedAnswer d f (a.forceSearch f) f.resetHeap).answers =
          false := by
        simp [Attempt.answers, he, hperm]
      refine ⟨hno, ?_⟩
      simp only [apply, answerFrame, if_neg (ne_true_of_eq_false hno)]
      exact ⟨_, rfl, rfl⟩
  · exact absurd ⟨_, hr.answer⟩ h

/-! ### The search that answers -/

/-- The composition layer a search parks, with its plane. -/
def searchParks (d : Device) (a : Allocator) (f : Frame) : Option (LayerId × PlaneId) :=
  let best := (searched d a f).allocator.previousAllocation
  parkedComposition d f best (f.output.markUnassigned (assignPlanes f.resetHeap best.entries))

theorem searched_armed (d : Device) (a : Allocator) (f : Frame) :
    (searched d a f).armed = (searched d a f).allocator.previousAllocation.entries ++
      (searchParks d a f).toList.map Prod.swap := rfl

theorem parkHeap_of_ne {heap : Heap} {parked : Option (LayerId × PlaneId)} {l : LayerId}
    (h : ∀ e, parked = some e → e.1 ≠ l) : parkHeap heap parked l = heap l := by
  cases parked with
  | none => rfl
  | some e => exact Function.update_of_ne (h e rfl).symm _ _

theorem parkHeap_needsComposition (heap : Heap) (parked : Option (LayerId × PlaneId))
    (l : LayerId) : (parkHeap heap parked l).needsComposition = (heap l).needsComposition := by
  cases parked with
  | none => rfl
  | some e =>
    obtain ⟨l', p⟩ := e
    simp only [parkHeap]
    by_cases h : l = l'
    · rw [h, Function.update_self]
    · rw [Function.update_of_ne h]

/-- Only the composition layer is ever parked. -/
theorem compositionLayer_of_parks {e : LayerId × PlaneId} (h : searchParks d a f = some e) :
    f.output.compositionLayer = e.1 := by
  simp only [searchParks, parkedComposition] at h
  split at h
  · obtain ⟨p, -, rfl⟩ := Option.map_eq_some_iff.mp h
    rfl
  · cases h

theorem isScene_iff {l : LayerId} : f.isScene l = true ↔
    f.output.isCompositionLayer l = false ∧ (f.heap l).externallyBound = false ∧
      (f.heap l).pinned = false := by
  simp [Frame.isScene, and_assoc]

theorem searched_placedOrComposited {l : LayerId} (hl : l ∈ f.output.layers)
    (hs : f.isScene l = true) :
    ((searched d a f).heap l).needsComposition =
      !((searched d a f).heap l).assignedPlane.isSome := by
  have hx := placed_xor_composited (searched d a f).allocator.previousAllocation.entries hl hs
  have hpark : ∀ e, searchParks d a f = some e → e.1 ≠ l := by
    intro e he hel
    have hc := (isScene_iff.mp hs).1
    simp [Output.isCompositionLayer, compositionLayer_of_parks he, hel] at hc
  have hheap : (searched d a f).heap = f.output.markClean (parkHeap (f.output.markUnassigned
      (assignPlanes f.resetHeap (searched d a f).allocator.previousAllocation.entries))
      (searchParks d a f)) := rfl
  rw [hheap, markClean_needsComposition, markClean_assignedPlane, parkHeap_of_ne hpark]
  exact hx

end Allocator

end DrmCxx.Planes
