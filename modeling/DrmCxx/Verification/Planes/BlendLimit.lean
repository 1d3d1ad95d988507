import DrmCxx.Verification.Planes.OnePlane
import DrmCxx.Verification.Planes.Reuse

/-!
# The blend limit

A search keeps to the budget, so the planes it arms fit the CRTC's blend limit beside the held ones
and the canvas. The paths that replay the previous allocation do not look at the limit, and on a
CRTC that stacks its planes by id nothing does.
-/

namespace DrmCxx.Planes

open DrmCxx.Lib DrmCxx.Modeset

namespace SearchContext

open Assignment

variable {c : SearchContext} {layers : List LayerId} {a : Assignment}

/-! ### The budget -/

/-- What is left to place fits the budget. -/
theorem capToBlendLimit_length (h : layers.Nodup) {limit : ℕ}
    (hlimit : c.device.registry.blendLimit c.crtcIndex = some limit)
    (hz : c.device.stacksByPlaneId c.crtcIndex = false) :
    (c.capToBlendLimit layers).1.length ≤ c.blendBudget layers limit := by
  unfold capToBlendLimit
  rw [hlimit]
  dsimp only
  split
  · rename_i hfits
    simpa [hz] using hfits
  · have hperm := (List.perm_insertionSort
      (fun a b => keepPriority (c.heap a) ≥ keepPriority (c.heap b)) layers)
    have hkept : (layers.filter fun l =>
        !((c.byKeepPriority layers).drop (c.blendBudget layers limit)).contains l) ⊆
          (c.byKeepPriority layers).take (c.blendBudget layers limit) := by
      intro l hl
      obtain ⟨hl, hno⟩ := List.mem_filter.mp hl
      have hsorted : l ∈ c.byKeepPriority layers := mem_byKeepPriority.mpr hl
      rw [← List.take_append_drop (c.blendBudget layers limit) (c.byKeepPriority layers),
        List.mem_append] at hsorted
      exact hsorted.resolve_right fun hdrop => by simp [hdrop] at hno
    have hlen := ((h.filter _).subperm hkept).length_le
    rw [List.length_take] at hlen
    exact hlen.trans (min_le_left _ _)

theorem searchAssignment_values (s : SearchState) :
    (c.searchAssignment s).1.values ⊆ c.placeable := by
  intro l hl
  obtain ⟨p, hp⟩ := Table.mem_values.mp hl
  obtain ⟨hl, q, -, -, hfits⟩ := searchAssignment_placed c s p l hp
  obtain ⟨hl, hfree⟩ := List.mem_filter.mp hl
  have htransient : (c.heap l).transientComposited = false := by
    simp only [compatible, planeStaticallyCompatible, Bool.and_eq_true, Bool.not_eq_true',
      Bool.or_eq_false_iff] at hfits
    exact hfits.1.1.2
  refine List.mem_filter.mpr ⟨hl, ?_⟩
  rw [Bool.and_eq_true] at hfree
  simp [hfree, htransient]

/-- On a CRTC that takes zpos, a search keeps to the budget. -/
theorem searchAssignment_size (h : c.layers.Nodup) {limit : ℕ}
    (hlimit : c.device.registry.blendLimit c.crtcIndex = some limit)
    (hz : c.device.stacksByPlaneId c.crtcIndex = false) (s : SearchState) :
    (c.searchAssignment s).1.size ≤ c.blendBudget c.placeable limit := by
  have hone := placeOnZposCrtc_onePlane h s
  unfold searchAssignment
  rw [if_neg (ne_true_of_eq_false hz)]
  calc (c.settleCanvas (c.placeOnZposCrtc s).1 (c.placeOnZposCrtc s).2).1.size
      ≤ (c.placeOnZposCrtc s).1.size := (settleCanvas_onePlane h hone _).2
    _ ≤ (c.capToBlendLimit c.placeable).1.length :=
      hone.size_le (placeOnZposCrtc_capped s).values_subset
    _ ≤ c.blendBudget c.placeable limit := capToBlendLimit_length (nodup_placeable h) hlimit hz

/-! ### Beside the held planes and the canvas -/

/-- The layers that hold planes the search does not give out. -/
def held (c : SearchContext) : ℕ :=
  (c.layers.filter (!c.output.isCompositionLayer ·)).countP fun l =>
    (c.heap l).pinned || (c.heap l).externallyBound

/-- A layer the search may place asks to be composited. -/
def compositesAnyway (c : SearchContext) : Bool :=
  c.sceneLayers.any fun l => (c.heap l).forceComposited || (c.heap l).transientComposited

/-- A layer the search may place has no plane. -/
def leavesOut (c : SearchContext) (a : Assignment) : Bool := c.sceneLayers.any (!a.hasLayer ·)

theorem blendBudget_eq (layers : List LayerId) (limit : ℕ) : c.blendBudget layers limit =
    if (c.compositesAnyway || decide (c.held + layers.length > limit)) &&
        decide (limit - c.held > 0) then limit - c.held - 1
    else limit - c.held := by
  have hany : c.compositesAnyway = (c.layers.filter (!c.output.isCompositionLayer ·)).any fun l =>
      !((c.heap l).pinned || (c.heap l).externallyBound) &&
        ((c.heap l).forceComposited || (c.heap l).transientComposited) := by
    rw [compositesAnyway, sceneLayers, List.any_filter, List.any_filter]
    congr 1
    funext l
    cases (c.heap l).pinned <;> cases (c.heap l).externallyBound <;>
      cases c.output.isCompositionLayer l <;> rfl
  rw [hany]
  rfl

/-- Room for every layer and the canvas is room for what a search finds. -/
theorem size_of_room (hone : OnePlane a) (hsub : a.values ⊆ c.placeable) {limit : ℕ}
    (hroom : c.held + c.placeable.length + c.compositesAnyway.toNat ≤ limit) :
    c.held + a.size + (c.leavesOut a).toNat ≤ limit := by
  cases hleft : c.leavesOut a with
  | false =>
    have hsize := hone.size_le hsub
    rw [Bool.toNat_false]
    omega
  | true =>
    obtain ⟨l, hl, hfree⟩ := List.any_eq_true.mp hleft
    rw [Bool.toNat_true]
    cases hany : c.compositesAnyway with
    | true =>
      have hsize := hone.size_le hsub
      rw [hany, Bool.toNat_true] at hroom
      omega
    | false =>
      rw [hany, Bool.toNat_false] at hroom
      have hwilling := List.any_eq_false.mp hany l hl
      obtain ⟨hl, hscene⟩ := List.mem_filter.mp hl
      have hplaceable : l ∈ c.placeable := by
        refine List.mem_filter.mpr ⟨hl, ?_⟩
        simp only [Bool.and_eq_true, Bool.or_eq_true, not_or, Bool.not_eq_true,
          Bool.not_eq_true'] at hscene hwilling ⊢
        exact ⟨⟨hscene.1.2, hwilling.2⟩, hscene.2⟩
      have hsize := hone.size_lt hsub hplaceable fun hl => by
        obtain ⟨p, hp⟩ := Table.mem_values.mp hl
        have hlayer : a.hasLayer l = true := List.any_eq_true.mpr ⟨(p, l), hp, by simp⟩
        simp [hlayer] at hfree
      omega

/-- A search on a CRTC that takes zpos leaves room for the held planes and the canvas. -/
theorem searchAssignment_within (h : c.layers.Nodup) {limit : ℕ}
    (hlimit : c.device.registry.blendLimit c.crtcIndex = some limit)
    (hz : c.device.stacksByPlaneId c.crtcIndex = false) (hheld : c.held < limit)
    (s : SearchState) : c.held + (c.searchAssignment s).1.size +
      (c.leavesOut (c.searchAssignment s).1).toNat ≤ limit := by
  have hsize := searchAssignment_size h hlimit hz s
  rw [blendBudget_eq] at hsize
  split at hsize
  · have hcanvas := Bool.toNat_le (c.leavesOut (c.searchAssignment s).1)
    omega
  · rename_i hroom
    refine size_of_room (searchAssignment_onePlane h s) (searchAssignment_values s) ?_
    simp only [Bool.and_eq_true, Bool.or_eq_true, decide_eq_true_eq, not_and] at hroom
    cases hany : c.compositesAnyway with
    | true => exact absurd (by omega) (hroom (.inl hany))
    | false =>
      by_cases hover : c.held + c.placeable.length > limit
      · exact absurd (by omega) (hroom (.inr hover))
      · rw [Bool.toNat_false]
        omega

end SearchContext

/-! ### Frames -/

namespace Frame

variable (f : Frame)

/-- The planes held by pinned and externally bound layers. -/
def held : ℕ :=
  (f.output.layers.filter (!f.output.isCompositionLayer ·)).countP fun l =>
    (f.heap l).pinned || (f.heap l).externallyBound

def placeable : List LayerId :=
  f.output.layers.filter fun l =>
    !(f.heap l).externallyBound && !(f.heap l).transientComposited && !(f.heap l).pinned

/-- A layer the allocator decides about asks to be composited. -/
def compositesAnyway : Bool :=
  f.sceneLayers.any fun l => (f.heap l).forceComposited || (f.heap l).transientComposited

/-- A layer the allocator decides about has no plane. -/
def leavesOut (b : Assignment) : Bool := f.sceneLayers.any (!b.hasLayer ·)

end Frame

section Heap

variable {f : Frame}

theorem anyComposited_placed (b : Assignment) :
    f.output.anyComposited (f.output.markUnassigned (assignPlanes f.resetHeap b.entries)) =
      f.leavesOut b := by
  rw [Output.anyComposited, Frame.leavesOut, Frame.sceneLayers, List.any_filter, Bool.eq_iff_iff,
    List.any_eq_true, List.any_eq_true]
  refine exists_congr fun l => and_congr_right fun hl => ?_
  cases hs : f.isScene l with
  | true => rw [placed_needsComposition b hl hs, Bool.true_and]
  | false =>
    have hold := assignPlanes_resetHeap_needsComposition b.entries hl
    rw [Output.markUnassigned, if_neg, hold, Bool.false_and]
    rintro ⟨-, -, hcomposition, hbound, hpinned⟩
    rw [assignPlanes_eq] at hbound hpinned
    simp_all [Frame.isScene]

theorem anyComposited_markClean (heap : Heap) :
    f.output.anyComposited (f.output.markClean heap) = f.output.anyComposited heap := by
  simp [Output.anyComposited]

end Heap

namespace Allocator

variable {d : Device} {a : Allocator} {f : Frame}

/-- The held planes, the planes the frame arms and the canvas fit the CRTC's blend limit, if the
held planes leave room at all. -/
def WithinLimit (d : Device) (a : Allocator) (f : Frame) : Prop :=
  ∀ limit n, d.registry.blendLimit (d.crtcIndex f.output.crtcId) = some limit → f.held < limit →
    (a.apply d f).result = .ok n →
    f.held + n + (f.output.anyComposited (a.apply d f).heap).toNat ≤ limit

/-- What is known before the frame: the allocation a cached path replays fits, and a search that
stacks planes by id, and is not capped, has room for everything it may place. -/
def Fits (d : Device) (a : Allocator) (f : Frame) : Prop :=
  ∀ limit, d.registry.blendLimit (d.crtcIndex f.output.crtcId) = some limit → f.held < limit →
    if Replayed d a f then
      f.held + (a.prunePrevious f).previousAllocation.size +
        (f.leavesOut (a.prunePrevious f).previousAllocation).toNat ≤ limit
    else d.stacksByPlaneId (d.crtcIndex f.output.crtcId) = true →
      f.held + f.placeable.length + f.compositesAnyway.toNat ≤ limit

/-! ### The search of a frame -/

theorem searchContext_held (d : Device) (a : Allocator) (f : Frame) :
    (searchContext d a f).held = f.held := by
  have hheld : (searchContext d a f).held = ((searchContext d a f).layers.filter
      (!f.output.isCompositionLayer ·)).countP fun l =>
        (f.resetHeap l).pinned || (f.resetHeap l).externallyBound := rfl
  simp only [hheld, resetHeap_pinned, resetHeap_externallyBound]
  exact ((searchContext_layers d a f).filter _).countP_eq _

theorem searchContext_placeable (d : Device) (a : Allocator) (f : Frame) :
    (searchContext d a f).placeable.length = f.placeable.length := by
  have hplaceable : (searchContext d a f).placeable = (searchContext d a f).layers.filter fun l =>
      !(f.resetHeap l).externallyBound && !(f.resetHeap l).transientComposited &&
        !(f.resetHeap l).pinned := rfl
  simp only [hplaceable, resetHeap_pinned, resetHeap_externallyBound,
    resetHeap_transientComposited]
  exact ((searchContext_layers d a f).filter _).length_eq

theorem searchContext_compositesAnyway (d : Device) (a : Allocator) (f : Frame) :
    (searchContext d a f).compositesAnyway = f.compositesAnyway := by
  have hany : (searchContext d a f).compositesAnyway = (searchContext d a f).sceneLayers.any
      fun l => (f.resetHeap l).forceComposited || (f.resetHeap l).transientComposited := rfl
  simp only [hany, resetHeap_forceComposited, resetHeap_transientComposited]
  exact (searchContext_sceneLayers d a f).any_eq

theorem searchContext_leavesOut (d : Device) (a : Allocator) (f : Frame) (b : Assignment) :
    (searchContext d a f).leavesOut b = f.leavesOut b :=
  (searchContext_sceneLayers d a f).any_eq

theorem nodup_searchContext_layers (d : Device) (a : Allocator) (f : Frame) :
    (searchContext d a f).layers.Nodup :=
  (searchContext_layers d a f).nodup_iff.mpr f.output.nodupLayers

/-! ### The frame -/

theorem anyComposited_armPrevious (d : Device) (a : Allocator) (f : Frame) :
    f.output.anyComposited (a.armPrevious d f f.resetHeap).2.1 =
      f.leavesOut a.previousAllocation := by
  have hheap : (a.armPrevious d f f.resetHeap).2.1 = f.output.markClean
      (f.output.markUnassigned (assignPlanes f.resetHeap a.previousAllocation.entries)) := rfl
  rw [hheap, anyComposited_markClean, anyComposited_placed]

theorem anyComposited_searched (d : Device) (a : Allocator) (f : Frame) :
    f.output.anyComposited (searched d a f).heap = f.leavesOut (searchResult d a f).1 := by
  have hheap : (searched d a f).heap = f.output.markClean (parkHeap (f.output.markUnassigned
      (assignPlanes f.resetHeap (searchResult d a f).1.entries)) (searchParks d a f)) := rfl
  rw [hheap, anyComposited_markClean, ← anyComposited_placed]
  simp only [Output.anyComposited, parkHeap_needsComposition]

/-- A replayed frame is within the limit when the allocation it replays fits. -/
theorem withinLimit_of_replayed (h : Replayed d a f) : WithinLimit d a f ↔ Fits d a f := by
  obtain ⟨a₁, hr, hresult, -, hheap, -⟩ := apply_of_replayed h
  have hprev := hr.pruned.trans (beginFrame_prune d a f)
  unfold WithinLimit Fits
  simp only [if_pos h]
  rw [hheap, anyComposited_armPrevious, hresult, hprev]
  exact ⟨fun hlimit limit hl hheld => hlimit limit _ hl hheld rfl,
    fun hfits limit n hl hheld hn => by cases hn; exact hfits limit hl hheld⟩

/-- A search is within the limit when it is capped, or has room for everything it may place. -/
theorem withinLimit_of_searched (h : ¬ Replayed d a f) (hfits : Fits d a f) :
    WithinLimit d a f := by
  intro limit n hlimit hheld hn
  have hroom := hfits limit hlimit hheld
  rw [if_neg h] at hroom
  obtain ⟨-, ⟨-, diag, happ⟩ | ⟨-, diag, happ, -⟩⟩ := apply_of_not_replayed h
  · rw [happ] at hn
    cases hn
  · rw [happ] at hn ⊢
    obtain rfl : (searchResult d a f).1.size = n := Except.ok.inj hn
    rw [anyComposited_searched]
    have hnodup := nodup_searchContext_layers d a f
    rw [← searchContext_held d a f, ← searchContext_placeable d a f,
      ← searchContext_compositesAnyway d a f] at hroom
    rw [← searchContext_held d a f] at hheld ⊢
    rw [← searchContext_leavesOut d a f]
    cases hz : d.stacksByPlaneId (d.crtcIndex f.output.crtcId) with
    | false =>
      exact SearchContext.searchAssignment_within hnodup hlimit hz hheld
        (cacheAnswer d a f).allocator.search
    | true =>
      exact SearchContext.size_of_room (SearchContext.searchAssignment_onePlane hnodup _)
        (SearchContext.searchAssignment_values _) (hroom hz)

theorem withinLimit_of_fits (h : Fits d a f) : WithinLimit d a f := by
  by_cases hr : Replayed d a f
  · exact (withinLimit_of_replayed hr).mpr h
  · exact withinLimit_of_searched hr h

/-- Where planes take a zpos, nothing else can break the limit. -/
theorem fits_of_withinLimit (hz : ∀ crtcIndex, d.stacksByPlaneId crtcIndex = false)
    (h : WithinLimit d a f) : Fits d a f := by
  by_cases hr : Replayed d a f
  · exact (withinLimit_of_replayed hr).mp h
  · intro limit hlimit hheld
    rw [if_neg hr, hz]
    exact fun hno => by cases hno

/-- A run whose frames fit keeps to the blend limit, from any state of the allocator; where planes
take a zpos, only such a run does. -/
theorem withinLimit_of_meets (d : Device) (a : Allocator) (es : List AllocatorEvent) :
    (Meets (step d) (AtFrames (Fits d)) a es → Meets (step d) (AtFrames (WithinLimit d)) a es) ∧
      ((∀ crtcIndex, d.stacksByPlaneId crtcIndex = false) →
        Meets (step d) (AtFrames (WithinLimit d)) a es →
        Meets (step d) (AtFrames (Fits d)) a es) := by
  refine ⟨meets_atFrames_imp fun a f => withinLimit_of_fits, fun hz => ?_⟩
  exact meets_atFrames_imp fun a f => fits_of_withinLimit hz

end Allocator

/-! ### A limit of two -/

namespace Controller

/-- The controller with a second OVERLAY, and a blender of two stages. -/
def blender : Device :=
  { device with
    registry := {
      planes := device.registry.planes ++ [
        { id := 3, possibleCrtcs := 1, type := .overlay, formatTable := [(1, 0)]
          zposMin := some 1, zposMax := some 5 }]
      nodupIds := by decide
      blendLimits := [(0, 2)] } }

/-- Two layers side by side. -/
def pair : Frame := sideBySide 0

/-- Layer 2 comes up on a plane of its own. -/
def pairAndPinned : Frame where
  output := output [0, 1, 2] nodup_triple
  heap l := if l = 2 then { layer 200 2 13 with pinned := true, assignedPlane := some 3 }
    else pair.heap l
  reserved := [3]

/-- The two layers are searched, then replayed. -/
theorem withinLimit_of_meets_pair :
    Meets (Allocator.step blender) (Allocator.AtFrames (Allocator.Fits blender)) {}
        [.apply pair, .apply pair] ∧
      Meets (Allocator.step blender) (Allocator.AtFrames (Allocator.WithinLimit blender)) {}
        [.apply pair, .apply pair] := by
  have hz : blender.stacksByPlaneId (blender.crtcIndex 7) = false := by decide +kernel
  have hsearch : Allocator.Fits blender {} pair := by
    intro limit _ _
    rw [if_neg (by decide +kernel)]
    exact fun hno => absurd (hz ▸ hno) Bool.false_ne_true
  have hreplay : Allocator.Fits blender (Allocator.apply blender {} pair).allocator pair := by
    intro limit hlimit _
    obtain rfl : 2 = limit := Option.some.inj hlimit
    rw [if_pos (by decide +kernel)]
    decide +kernel
  exact ⟨⟨hsearch, hreplay, trivial⟩,
    (Allocator.withinLimit_of_meets blender {} _).1 ⟨hsearch, hreplay, trivial⟩⟩

/-- The two searched planes are replayed beside the third. -/
theorem not_withinLimit :
    ¬ Meets (Allocator.step blender) (Allocator.AtFrames (Allocator.WithinLimit blender)) {}
      [.apply pair, .apply pairAndPinned] := by
  rintro ⟨-, h, -⟩
  have hover := h 2 2 (by decide +kernel) (by decide +kernel) (by decide +kernel)
  revert hover
  decide +kernel

end Controller

end DrmCxx.Planes
