import DrmCxx.Verification.Planes.Reuse

/-!
# A layer gets its first buffer

A layer without a usable format is composited by every search, and is not new afterwards. Whether
the frame that gives it a buffer searches again depends on the cached paths alone: they replay the
previous allocation when nothing else in the frame stops them.
-/

namespace DrmCxx.Planes

open DrmCxx.Lib DrmCxx.Modeset

namespace Allocator

variable {d : Device} {a : Allocator} {f : Frame} {heap : Heap}

/-! ### One attempt -/

/-- No plane of the remembered allocation is reserved, and what is left of it passes the global
rules. -/
def replayable (d : Device) (a : Allocator) (f : Frame) (heap : Heap) : Bool :=
  !(a.previousAllocation.entries.any fun e => f.reserved.contains e.1) &&
    (a.prunePrevious f).warmStartOk d f heap

/-- The TEST of the remembered allocation. -/
def replayTest (d : Device) (a : Allocator) (f : Frame) (heap : Heap) (s : SearchState) :
    Option Errc × SearchState :=
  (a.context d f heap f.output.layers).tryTestCommit s (a.prunePrevious f).previousAllocation

theorem replayable_iff : a.replayable d f heap = true ↔
    (a.previousAllocation.entries.any fun e => f.reserved.contains e.1) = false ∧
      (a.prunePrevious f).warmStartOk d f heap = true := by
  rw [replayable, Bool.and_eq_true, Bool.not_eq_true']

/-- Pruning twice is pruning once. -/
theorem prunePrevious_prunePrevious (f : Frame) (a : Allocator) (s : SearchState) :
    (((a.prunePrevious f).setSearch s).prunePrevious f) = (a.prunePrevious f).setSearch s := by
  simp [prunePrevious, setSearch, Table.filter, List.filter_filter]

theorem replayable_pruned (s : SearchState)
    (h : (a.previousAllocation.entries.any fun e => f.reserved.contains e.1) = false) :
    ((a.prunePrevious f).setSearch s).replayable d f heap = a.replayable d f heap := by
  have hfree : (((a.prunePrevious f).setSearch s).previousAllocation.entries.any fun e =>
      f.reserved.contains e.1) = false := by
    rw [List.any_eq_false] at h ⊢
    exact fun e he => h e (Table.mem_filter.mp he).1
  rw [replayable, replayable, hfree, h, prunePrevious_prunePrevious]
  rfl

theorem replayTest_pruned (s s' : SearchState) :
    ((a.prunePrevious f).setSearch s).replayTest d f heap s' = a.replayTest d f heap s' := by
  rw [replayTest, replayTest, prunePrevious_prunePrevious]
  rfl

/-- What cannot be replayed is not, and will not be by the next attempt. -/
theorem attempt_refused (h : a.replayable d f heap = false) (wanted skipTest : Bool) :
    ∃ a', a.attempt d f heap wanted skipTest = ⟨a', .error .resourceUnavailableTryAgain⟩ ∧
      a'.replayable d f heap = false := by
  unfold attempt
  split
  · unfold applyPreviousAllocation
    split
    · exact ⟨a, rfl, h⟩
    · rename_i hfree
      have hfree := Bool.eq_false_of_not_eq_true hfree
      have hwarm : (a.prunePrevious f).warmStartOk d f heap = false := by
        rwa [replayable, hfree, Bool.not_false, Bool.true_and] at h
      simp only [hwarm, Bool.not_false, if_true]
      exact ⟨_, rfl, (replayable_pruned a.search hfree).trans h⟩
  · exact ⟨a, rfl, h⟩

theorem attempt_skipTest (h : a.replayable d f heap = true) :
    ∃ x, (a.attempt d f heap true true).answer = .ok x := by
  obtain ⟨hfree, hwarm⟩ := replayable_iff.mp h
  rw [attempt, if_pos rfl, applyPreviousAllocation, if_neg (ne_true_of_eq_false hfree)]
  simp only [hwarm, Bool.not_true, Bool.false_eq_true, if_false, if_true]
  exact ⟨_, rfl⟩

theorem attempt_passes (h : a.replayable d f heap = true)
    (htest : (a.replayTest d f heap a.search).1 = none) :
    ∃ x, (a.attempt d f heap true false).answer = .ok x := by
  obtain ⟨hfree, hwarm⟩ := replayable_iff.mp h
  have htest : (((a.prunePrevious f).context d f heap f.output.layers).tryTestCommit a.search
      (a.prunePrevious f).previousAllocation).1 = none := htest
  rw [attempt, if_pos rfl, applyPreviousAllocation, if_neg (ne_true_of_eq_false hfree)]
  simp only [hwarm, Bool.not_true, Bool.false_eq_true, if_false]
  rw [show (a.prunePrevious f).search = a.search from rfl, htest]
  exact ⟨_, rfl⟩

/-- A refused TEST leaves the pruned allocation and what the TEST was counted as. -/
theorem attempt_fails (h : a.replayable d f heap = true) {e : Errc}
    (htest : (a.replayTest d f heap a.search).1 = some e) :
    a.attempt d f heap true false =
      ⟨(a.prunePrevious f).setSearch (a.replayTest d f heap a.search).2, .error
        (if e = .permissionDenied then .permissionDenied else .resourceUnavailableTryAgain)⟩ := by
  obtain ⟨hfree, hwarm⟩ := replayable_iff.mp h
  have htest' : (((a.prunePrevious f).context d f heap f.output.layers).tryTestCommit a.search
      (a.prunePrevious f).previousAllocation).1 = some e := htest
  rw [attempt, if_pos rfl, applyPreviousAllocation, if_neg (ne_true_of_eq_false hfree)]
  simp only [hwarm, Bool.not_true, Bool.false_eq_true, if_false]
  rw [show (a.prunePrevious f).search = a.search from rfl, htest']
  cases e <;> rfl

/-! ### The cached paths -/

/-- Only content changed, a TEST of the remembered allocation passes, or, in a clean frame, the
second TEST does. -/
def replayPasses (d : Device) (a : Allocator) (f : Frame) (heap : Heap) : Bool :=
  let test := a.replayTest d f heap a.search
  (!f.testOnly && a.isFbOnlyFrame f) || test.1 = none ||
    (!f.output.anyLayerDirty f.heap && test.1 ≠ some .permissionDenied &&
      (a.replayTest d f heap test.2).1 = none)

theorem attempt_unwanted (skipTest : Bool) :
    a.attempt d f heap false skipTest = ⟨a, .error .resourceUnavailableTryAgain⟩ := rfl

theorem cachedAnswer_refused (force : Bool)
    (h : (a.previousAllocationValid && !force && a.replayable d f heap) = false) :
    (a.cachedAnswer d f force heap).answer = .error .resourceUnavailableTryAgain := by
  unfold cachedAnswer
  dsimp only
  cases hcached : a.previousAllocationValid && !force with
  | false =>
    simp only [Bool.and_false, Bool.false_and, attempt_unwanted, Attempt.answers]
    rfl
  | true =>
    rw [hcached, Bool.true_and] at h
    obtain ⟨a₁, h₁, hno₁⟩ := attempt_refused h (!f.testOnly && true && a.isFbOnlyFrame f) true
    obtain ⟨a₂, h₂, hno₂⟩ := attempt_refused hno₁ (!f.output.anyLayerDirty f.heap && true) false
    obtain ⟨a₃, h₃, -⟩ := attempt_refused hno₂ true false
    simp only [h₁, h₂, h₃, Attempt.answers, reduceCtorEq, decide_false, Bool.false_eq_true,
      if_false]

/-- With a remembered allocation to replay, the TESTs decide. -/
theorem cachedAnswer_replayable (force : Bool)
    (hcached : (a.previousAllocationValid && !force) = true)
    (h : a.replayable d f heap = true) :
    (∃ x, (a.cachedAnswer d f force heap).answer = .ok x) ↔ a.replayPasses d f heap = true := by
  unfold cachedAnswer replayPasses
  dsimp only
  rw [hcached, Bool.and_true, Bool.and_true]
  cases hfb : !f.testOnly && a.isFbOnlyFrame f with
  | true =>
    obtain ⟨x, hx⟩ := attempt_skipTest h
    rw [if_pos (answers_of_ok hx)]
    simp [markFbDelta, hx]
  | false =>
    simp only [attempt_unwanted, Attempt.answers, reduceCtorEq, decide_false, Bool.false_eq_true,
      if_false, Bool.false_or]
    cases htest : (a.replayTest d f heap a.search).1 with
    | none =>
      obtain ⟨x, hx⟩ := attempt_passes h htest
      cases f.output.anyLayerDirty f.heap <;> simp [attempt_unwanted, hx]
    | some e =>
      have hfails := attempt_fails h htest
      cases hdirty : f.output.anyLayerDirty f.heap with
      | true => simp [attempt_unwanted, hfails]
      | false =>
        by_cases hperm : e = .permissionDenied
        · simp [hfails, hperm]
        · have hagain : ((a.prunePrevious f).setSearch
              (a.replayTest d f heap a.search).2).replayable d f heap = true :=
            (replayable_pruned _ (replayable_iff.mp h).1).trans h
          cases hsecond : (a.replayTest d f heap (a.replayTest d f heap a.search).2).1 with
          | none =>
            obtain ⟨x, hx⟩ := attempt_passes hagain ((congrArg Prod.fst
              (replayTest_pruned _ _)).trans hsecond)
            simp [hfails, hperm, hx]
          | some e' =>
            have hfails' := attempt_fails hagain ((congrArg Prod.fst
              (replayTest_pruned _ _)).trans hsecond)
            simp [hfails, hperm, hfails']

/-! ### The frame -/

/-- A cached path accepts the remembered allocation, and no new layer and no removal keeps the
frame from it. -/
def settled (d : Device) (a : Allocator) (f : Frame) : Bool :=
  a.previousAllocationValid && !a.forceSearch f &&
    (a.beginFrame d f).replayable d f f.resetHeap && (a.beginFrame d f).replayPasses d f f.resetHeap

theorem replayed_iff (d : Device) (a : Allocator) (f : Frame) :
    Replayed d a f ↔ a.settled d f = true := by
  unfold Replayed cacheAnswer settled
  rw [← beginFrame_previousAllocationValid d a f, Bool.and_eq_true]
  cases hcached : (a.beginFrame d f).previousAllocationValid && !a.forceSearch f &&
      (a.beginFrame d f).replayable d f f.resetHeap with
  | false =>
    rw [cachedAnswer_refused (a.forceSearch f) hcached]
    simp
  | true =>
    rw [Bool.and_eq_true] at hcached
    rw [cachedAnswer_replayable (a.forceSearch f) hcached.1 hcached.2]
    simp

theorem Attempted.subset {a' : Allocator} (h : Attempted f a a') :
    a'.previousAllocation.entries ⊆ a.previousAllocation.entries := by
  obtain ⟨prev, s, rfl, rfl | rfl⟩ := h
  · exact List.Subset.refl _
  · exact fun e he => (Table.mem_filter.mp he).1

/-- A frame leaves the allocator what it remembered, or what its search found. -/
theorem mem_apply_previousAllocation {e : PlaneId × LayerId}
    (he : e ∈ (a.apply d f).allocator.previousAllocation.entries) :
    e ∈ a.previousAllocation.entries ∨
      (cacheAnswer d a f).answers = false ∧ e ∈ (searchResult d a f).1.entries := by
  by_cases h : Replayed d a f
  · obtain ⟨a₁, hr, -, -, -, -, -, diag, happ⟩ := apply_of_replayed h
    rw [happ, setDiagnostics, armPrevious_previousAllocation, hr.pruned, beginFrame_prune] at he
    exact .inl (Table.mem_filter.mp he).1
  · obtain ⟨hatt, ⟨-, diag, happ⟩ | ⟨hans, diag, happ, -⟩⟩ := apply_of_not_replayed h
    · rw [happ] at he
      have hold := hatt.subset he
      rw [beginFrame_previousAllocation] at hold
      exact .inl hold
    · rw [happ] at he
      exact .inr ⟨hans, he⟩

/-- A frame that is answered is answered by a search that has the layer to place. -/
def Considers (d : Device) (a : Allocator) (f : Frame) (l : LayerId) : Prop :=
  ∀ n, (a.apply d f).result = .ok n →
    (cacheAnswer d a f).answers = false ∧ l ∈ (searchContext d a f).sceneLayers

theorem considers_iff {l : LayerId} (hl : l ∈ f.sceneLayers) :
    Considers d a f l ↔ a.settled d f = false := by
  rw [← Bool.not_eq_true, ← replayed_iff]
  constructor
  · rintro h ⟨x, hx⟩
    obtain ⟨_, -, hresult, -⟩ := apply_of_replayed ⟨x, hx⟩
    have hno := (h _ hresult).1
    rw [answers_of_ok hx] at hno
    cases hno
  · intro h n hn
    obtain ⟨-, ⟨-, diag, happ⟩ | ⟨hans, -⟩⟩ := apply_of_not_replayed h
    · rw [happ] at hn
      cases hn
    · exact ⟨hans, (searchContext_sceneLayers d a f).mem_iff.mpr hl⟩

end Allocator

/-! ### Layers no search could place -/

/-- Some plane of the CRTC takes the layer's format. -/
def usableFormat (d : Device) (crtcIndex : ℕ) (l : Layer) : Bool :=
  match l.format with
  | none => false
  | some fourcc =>
    (d.registry.forCrtc crtcIndex).any fun p => layerFitsPlane p.formatTable fourcc l.modifier

/-- An allocator, and the layers its searches have seen with a usable format. -/
structure Offers where
  allocator : Allocator := {}
  offered : LayerId → Bool := fun _ => false

namespace Offers

open Allocator

variable {d : Device} {s : Offers}

def step (d : Device) (s : Offers) (e : AllocatorEvent) : Offers where
  allocator := s.allocator.step d e
  offered l := match e with
    | .apply f => s.offered l || (!(cacheAnswer d s.allocator f).answers &&
        f.output.layers.contains l && usableFormat d (d.crtcIndex f.output.crtcId) (f.heap l))
    | .forgetLayer gone => s.offered l && l ≠ gone
    | _ => s.offered l

/-- Only layers a search could place are remembered. -/
def Remembers (s : Offers) : Prop :=
  ∀ e ∈ s.allocator.previousAllocation.entries, s.offered e.2 = true

theorem usableFormat_of_compatible {p : PlaneCapabilities} {l : Layer} {crtcIndex : ℕ}
    (hp : p ∈ d.registry.forCrtc crtcIndex)
    (h : planeStaticallyCompatible p l crtcIndex = true) : usableFormat d crtcIndex l = true := by
  unfold planeStaticallyCompatible at h
  unfold usableFormat
  cases hformat : l.format with
  | none => simp [hformat] at h
  | some fourcc =>
    simp only [hformat, Bool.and_eq_true] at h
    exact List.any_eq_true.mpr ⟨p, hp, h.2.1.1.1⟩

theorem usableFormat_resetHeap (f : Frame) (crtcIndex : ℕ) (l : LayerId) :
    usableFormat d crtcIndex (f.resetHeap l) = usableFormat d crtcIndex (f.heap l) := by
  simp only [usableFormat, Layer.format, Layer.modifier, resetHeap_props]

/-- What a search places has a usable format. -/
theorem usableFormat_of_searchResult {a : Allocator} {f : Frame} {e : PlaneId × LayerId}
    (he : e ∈ (searchResult d a f).1.entries) : e.2 ∈ f.output.layers ∧
      usableFormat d (d.crtcIndex f.output.crtcId) (f.heap e.2) = true := by
  obtain ⟨hl, p, hp, -, hfits⟩ := SearchContext.searchAssignment_placed _ _ e.1 e.2 he
  refine ⟨(searchContext_layers d a f).mem_iff.mp (List.mem_of_mem_filter hl), ?_⟩
  rw [← usableFormat_resetHeap]
  exact usableFormat_of_compatible (List.mem_of_mem_filter hp) hfits

theorem remembers_step (e : AllocatorEvent) (h : s.Remembers) : (s.step d e).Remembers := by
  intro x hx
  cases e with
  | apply f =>
    dsimp only [step]
    rw [Bool.or_eq_true]
    rcases mem_apply_previousAllocation hx with hold | ⟨hans, hnew⟩
    · exact .inl (h x hold)
    · obtain ⟨hl, husable⟩ := usableFormat_of_searchResult hnew
      exact .inr (by simp [hans, hl, husable])
  | forgetLayer gone =>
    obtain ⟨hold, hstays⟩ := Table.mem_filter.mp hx
    simpa [step, h x hold] using hstays
  | invalidateAllocation => exact h x hx
  | setMaxTestCommits max => exact h x hx
  | setForceFullPropertyWrites force => exact h x hx

/-! ### The first buffer -/

/-- A layer no search has seen with a usable format fits a free plane, and the kernel accepts it
there beside what is remembered. -/
structure Arrives (d : Device) (s : Offers) (f : Frame) (l : LayerId) : Prop where
  scene : l ∈ f.sceneLayers
  starved : s.offered l = false
  placeable : ∃ p ∈ d.registry.forCrtc (d.crtcIndex f.output.crtcId), p.id ∉ f.reserved ∧
    (s.allocator.prunePrevious f).previousAllocation.contains p.id = false ∧
    planeStaticallyCompatible p (f.heap l) (d.crtcIndex f.output.crtcId) = true ∧
    (((s.allocator.beginFrame d f).context d f f.resetHeap f.output.layers).tryTestCommit
      (s.allocator.beginFrame d f).search
      ((s.allocator.prunePrevious f).previousAllocation.insertOrAssign p.id l)).1 = none

/-- `P` holds of every layer that arrives in a run, in the state its frame is applied to. -/
def AtArrivals (d : Device) (P : Allocator → Frame → LayerId → Prop) (s : Offers) :
    AllocatorEvent → Prop
  | .apply f => ∀ l, Arrives d s f l → P s.allocator f l
  | _ => True

/-- A replayed frame leaves a layer no search could place to the composition. -/
theorem composited_of_settled {f : Frame} {l : LayerId} (h : s.Remembers) (hl : l ∈ f.sceneLayers)
    (hstarved : s.offered l = false) (hsettled : s.allocator.settled d f = true) :
    ((s.allocator.apply d f).heap l).needsComposition = true := by
  obtain ⟨hl, hscene⟩ := List.mem_filter.mp hl
  obtain ⟨a₁, hr, -, -, hheap, -⟩ := apply_of_replayed ((replayed_iff d s.allocator f).mpr hsettled)
  have harm : (a₁.armPrevious d f f.resetHeap).2.1 = f.output.markClean
      (f.output.markUnassigned (assignPlanes f.resetHeap a₁.previousAllocation.entries)) := rfl
  have hfree : a₁.previousAllocation.hasLayer l = false := by
    rw [hr.pruned, beginFrame_prune, Assignment.hasLayer, List.any_eq_false]
    intro e he hel
    have hoffered := h e (Table.mem_filter.mp he).1
    rw [of_decide_eq_true hel, hstarved] at hoffered
    cases hoffered
  rw [hheap, harm, markClean_needsComposition, placed_needsComposition _ hl hscene, hfree]
  rfl

/-- The arrivals of a run are all considered exactly when no cached path answers their frames. One
that is not considered stays in the composition. -/
theorem considers_of_meets (d : Device) (es : List AllocatorEvent) :
    (Meets (step d) (AtArrivals d (Considers d)) {} es ↔
      Meets (step d) (AtArrivals d fun a f _ => a.settled d f = false) {} es) ∧
    Meets (step d) (AtArrivals d fun a f l =>
      Considers d a f l ∨ ((a.apply d f).heap l).needsComposition = true) {} es := by
  have hstart : Remembers {} := fun _ h => nomatch h
  have hstep : ∀ s e, Remembers s → True → (step d s e).Remembers :=
    fun _ e h _ => remembers_step e h
  refine ⟨meets_congr (meets_of_invariant Remembers hstep ?_ hstart (meets_true _ _ es)),
    meets_of_invariant Remembers hstep ?_ hstart (meets_true _ _ es)⟩
  · intro s e _ _
    cases e with
    | apply f =>
      exact forall_congr' fun l => forall_congr' fun ha => considers_iff ha.scene
    | _ => exact Iff.rfl
  · intro s e h _
    cases e with
    | apply f =>
      intro l ha
      rw [considers_iff ha.scene]
      cases hsettled : s.allocator.settled d f with
      | false => exact .inl rfl
      | true => exact .inr (composited_of_settled h ha.scene ha.starved hsettled)
    | _ => trivial

end Offers

/-! ### Two layers, one buffer -/

namespace Controller

/-- Layer 0 at the bottom with a buffer, and layer 1 above it without one. -/
def late : Frame := { sideBySide 0 with heap := fun l => if l = 0 then layer 0 0 11 else {} }

/-- Layer 1 without a buffer, alone on the screen. -/
def lateAlone : Frame := { late with output := output [1] (List.nodup_singleton 1) }

/-- Layer 1 gets its buffer in the heap the frame before left. -/
def buffered (f : Frame) : Frame :=
  { f with heap := fun l =>
      let left := (Allocator.apply device {} f).heap l
      if l = 1 then { left with props := (layer 100 1 12).props, dirty := true } else left }

/-- Alone on the screen, the layer gets its search: nothing is remembered. -/
theorem considers_of_meets_alone :
    Meets (Offers.step device) (Offers.AtArrivals device (Allocator.Considers device)) {}
        [.apply lateAlone, .apply (buffered lateAlone)] ∧
      Offers.Arrives device (Offers.step device {} (.apply lateAlone)) (buffered lateAlone) 1 := by
  have hsearched : Allocator.settled device {} lateAlone = false := rfl
  have hagain : Allocator.settled device (Offers.step device {} (.apply lateAlone)).allocator
      (buffered lateAlone) = false := by
    decide +kernel
  constructor
  · exact (Offers.considers_of_meets device _).1.mpr
      ⟨fun _ _ => hsearched, fun _ _ => hagain, trivial⟩
  · exact ⟨by decide +kernel, by decide +kernel, device.registry.planes[1], by decide +kernel,
      by decide +kernel, by decide +kernel, by decide +kernel, by decide +kernel⟩

/-- Beside a layer that is replayed it stays in the composition, with the OVERLAY free. -/
theorem not_considers :
    ¬ Meets (Offers.step device) (Offers.AtArrivals device (Allocator.Considers device)) {}
      [.apply late, .apply (buffered late)] := by
  rintro ⟨-, h, -⟩
  have harrives : Offers.Arrives device (Offers.step device {} (.apply late)) (buffered late) 1 :=
    ⟨by decide +kernel, by decide +kernel, device.registry.planes[1], by decide +kernel,
      by decide +kernel, by decide +kernel, by decide +kernel, by decide +kernel⟩
  have hsearch := (h 1 harrives 1 (by decide +kernel)).1
  revert hsearch
  decide +kernel

end Controller

end DrmCxx.Planes
