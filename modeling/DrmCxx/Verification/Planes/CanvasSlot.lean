import DrmCxx.Verification.Planes.CanvasBounds
import DrmCxx.Verification.Planes.Trace
import DrmCxx.Verification.Planes.ZposNumbering

/-!
# The zpos of the canvas

When a frame's stack has a slot for the canvas, the zpos written keep the order the layers ask for,
and the slot lies between the placed layers that have to cover composited ones and those that have
to stay under them.
-/

namespace DrmCxx.Planes

open DrmCxx.Lib

/-! ### The canvas as a stack entry -/

namespace Device

variable {d : Device}

/-- No plane's zpos range reaches the top of the 64-bit values. -/
def RangesEndBelowTop (d : Device) : Prop :=
  ∀ p ∈ d.registry.planes, ∀ z ∈ p.zposMax, z.toNat < 2 ^ 64 - 1

/-- The plane is known and has a zpos range. -/
def HasZposRange (d : Device) (p : PlaneId) : Prop :=
  ∃ caps lo hi, d.registry.capsOf p = some caps ∧ caps.zposMin = some lo ∧ caps.zposMax = some hi

/-- A range has both ends or neither, and stops below the top. -/
def SoundRange (p : PlaneCapabilities) : Prop :=
  p.zposMin.isSome = p.zposMax.isSome ∧ ∀ z ∈ p.zposMax, z.toNat < 2 ^ 64 - 1

theorem canvasSlot_soundRange (hmax : d.RangesEndBelowTop) (crtcIndex : ℕ) :
    SoundRange (d.canvasSlot crtcIndex) := by
  unfold canvasSlot
  refine List.foldlRecOn (motive := SoundRange) _ _ ⟨rfl, by simp⟩ ?_
  intro slot h p hp
  split
  · rename_i lo hi hlo hhi
    split
    · exact h
    · refine ⟨rfl, ?_⟩
      rintro z ⟨⟩
      have hend := hmax p (List.mem_of_mem_filter hp) hi hhi
      rcases (CanvasBounds.max_getD slot.zposMax hi).1 with hor | hor
      · rw [hor]
        exact hend
      · exact h.2 _ hor
  · exact h

end Device

namespace Output

/-- The layers a frame's stack numbers, with their planes: the assigned ones, then the pinned ones
that hold planes of their own. -/
def stackedLayers (o : Output) (heap : Heap) (a : Assignment) : List (PlaneId × LayerId) :=
  a.entries ++ o.layers.filterMap fun l => (pinnedPlane heap a l).map fun p => (p, l)

end Output

namespace Device

variable {d : Device} {o : Output} {heap : Heap} {a : Assignment} {crtcIndex : ℕ}

/-! ### The stack with the canvas in it -/

def entryOf (d : Device) (heap : Heap) (e : PlaneId × LayerId) : StackEntry :=
  { plane := d.registry.capsOf e.1, requested := (heap e.2).zpos }

/-- The canvas comes last, just under the lowest placed layer that has to cover it. -/
def withCanvas (d : Device) (crtcIndex : ℕ) (o : Output) (heap : Heap) (a : Assignment) :
    List StackEntry :=
  (o.stackedLayers heap a).map (d.entryOf heap) ++
    [{ plane := some (d.canvasSlot crtcIndex), requested := (o.canvasBounds heap a).above,
       belowTies := true }]

theorem stackEntries_eq (d : Device) (o : Output) (heap : Heap) (a : Assignment) :
    d.stackEntries o heap a =
      (o.stackedLayers heap a).map fun e => (e.1, d.entryOf heap e) := by
  simp only [stackEntries, Output.stackedLayers, List.map_append, List.map_filterMap,
    Option.map_map]
  rfl

theorem getElem?_withCanvas {i : ℕ} {e : PlaneId × LayerId}
    (h : (o.stackedLayers heap a)[i]? = some e) :
    (d.withCanvas crtcIndex o heap a)[i]? = some (d.entryOf heap e) := by
  have hi : i < (o.stackedLayers heap a).length := (List.getElem?_eq_some_iff.mp h).1
  rw [withCanvas, List.getElem?_append_left (by simpa using hi), List.getElem?_map, h]
  rfl

theorem getElem?_withCanvas_last :
    (d.withCanvas crtcIndex o heap a)[(o.stackedLayers heap a).length]? =
      some { plane := some (d.canvasSlot crtcIndex), requested := (o.canvasBounds heap a).above,
             belowTies := true } := by
  simp [withCanvas]

/-- A reported canvas zpos comes from a stack that was numbered with the canvas in it. -/
theorem stackedZpos_of_canvas {z : UInt64}
    (h : (d.stackedZpos crtcIndex o heap a).canvas = some z) :
    (d.canvasSlot crtcIndex).zposMin.isSome = true ∧
      (o.canvasBounds heap a).above.isSome = true ∧
      (o.canvasBounds heap a).feasible = true ∧
      (stackZpos (d.withCanvas crtcIndex o heap a)).1 = true ∧
      ((stackZpos (d.withCanvas crtcIndex o heap a)).2[(o.stackedLayers heap a).length]?).bind
        (·.written) = some z ∧
      (d.stackedZpos crtcIndex o heap a).written =
        (((o.stackedLayers heap a).map Prod.fst).zip
          (stackZpos (d.withCanvas crtcIndex o heap a)).2).filterMap
            fun (p, e) => e.written.map fun w => (p, w) := by
  have hplain : (d.stackEntries o heap a).map Prod.snd =
      (o.stackedLayers heap a).map (d.entryOf heap) := by
    rw [stackEntries_eq, List.map_map]
    rfl
  have hids : (d.stackEntries o heap a).map Prod.fst =
      (o.stackedLayers heap a).map Prod.fst := by
    rw [stackEntries_eq, List.map_map]
    rfl
  have hlen : (d.stackEntries o heap a).length = (o.stackedLayers heap a).length := by
    rw [stackEntries_eq, List.length_map]
  unfold stackedZpos at h ⊢
  simp only [hplain, hids, hlen] at h ⊢
  cases hslot : (d.canvasSlot crtcIndex).zposMin.isSome &&
      (o.canvasBounds heap a).above.isSome && (o.canvasBounds heap a).feasible with
  | false => simp [hslot] at h
  | true =>
    simp only [Bool.and_eq_true] at hslot
    simp only [hslot, Bool.and_self, Bool.true_and, if_true] at h ⊢
    rw [← withCanvas] at h ⊢
    cases hfirst : (stackZpos (d.withCanvas crtcIndex o heap a)).1 with
    | false => simp [hfirst] at h
    | true =>
      simp only [hfirst, Bool.not_true, Bool.not_false, Bool.and_self, if_true,
        Bool.false_eq_true, if_false] at h ⊢
      refine ⟨trivial, trivial, trivial, trivial, h, ?_⟩
      rw [List.map_filterMap]
      simp only [Option.map_map]
      rfl

theorem rangesEndBelowTop_withCanvas (hmax : d.RangesEndBelowTop) :
    Planes.RangesEndBelowTop (d.withCanvas crtcIndex o heap a) := by
  intro e he p hp z hz
  rcases List.mem_append.mp he with he | he
  · obtain ⟨e, -, rfl⟩ := List.mem_map.mp he
    exact hmax p (PlaneRegistry.capsOf_eq_some.mp hp).1 z hz
  · obtain rfl := List.mem_singleton.mp he
    cases hp
    exact (canvasSlot_soundRange hmax crtcIndex).2 z hz

/-- A layer with a zpos on a plane with a range takes part in the numbering. -/
theorem rankable_of_range (crtcIndex : ℕ) {i : ℕ} {p : PlaneId} {l : LayerId} {x : UInt64}
    (h : (o.stackedLayers heap a)[i]? = some (p, l)) (hrange : d.HasZposRange p)
    (hx : (heap l).zpos = some x) :
    ∃ r ∈ rankables (d.withCanvas crtcIndex o heap a),
      r.index = i ∧ r.requested = x ∧ r.afterTies = true := by
  obtain ⟨caps, lo, hi, hcaps, hlo, hhi⟩ := hrange
  refine ⟨⟨i, x, true, caps.id, lo, hi, lo = hi⟩,
    mem_rankables.mpr ⟨_, getElem?_withCanvas h, ?_⟩, rfl, rfl, rfl⟩
  simp [StackEntry.rankable, entryOf, hcaps, hx, hlo, hhi]

theorem rankable_canvas (hmax : d.RangesEndBelowTop) {above : UInt64}
    (hslot : (d.canvasSlot crtcIndex).zposMin.isSome = true)
    (habove : (o.canvasBounds heap a).above = some above) :
    ∃ r ∈ rankables (d.withCanvas crtcIndex o heap a),
      r.index = (o.stackedLayers heap a).length ∧ r.requested = above ∧ r.afterTies = false := by
  obtain ⟨lo, hlo⟩ := Option.isSome_iff_exists.mp hslot
  rw [(canvasSlot_soundRange hmax crtcIndex).1] at hslot
  obtain ⟨hi, hhi⟩ := Option.isSome_iff_exists.mp hslot
  refine ⟨⟨_, above, false, (d.canvasSlot crtcIndex).id, lo, hi, lo = hi⟩,
    mem_rankables.mpr ⟨_, getElem?_withCanvas_last, ?_⟩, rfl, rfl, rfl⟩
  simp [StackEntry.rankable, habove, hlo, hhi]

/-! ### The canvas in the written stack -/

/-- What is written where, by position in the stack: on the planes `on` the values keep the order
the layers ask for, and the canvas lies between the placed layers that overlap a composited one
from above and from below. -/
structure CanvasSound (o : Output) (heap : Heap) (a : Assignment) (s : ZposStack)
    (on : PlaneId → Prop) (canvas : UInt64) (w : ℕ → Option UInt64) : Prop where
  written : s.written = (o.stackedLayers heap a).zipIdx.filterMap
    fun e => (w e.2).map fun v => (e.1.1, v)
  ordered : ∀ i j p q l m, (o.stackedLayers heap a)[i]? = some (p, l) →
    (o.stackedLayers heap a)[j]? = some (q, m) → on p → on q →
    ∀ x ∈ (heap l).zpos, ∀ y ∈ (heap m).zpos, x < y → ∃ u ∈ w i, ∃ v ∈ w j, u < v
  around : ∀ i p l, (o.stackedLayers heap a)[i]? = some (p, l) → on p →
    l ∈ o.placedLayers heap a → ∀ c ∈ o.compositedLayers heap a,
    layersIntersect (heap l) (heap c) = true → ∀ x ∈ (heap l).zpos, ∀ y ∈ (heap c).zpos,
      (y < x → ∃ u ∈ w i, canvas < u) ∧ (x < y → ∃ u ∈ w i, u < canvas)

/-- The canvas slot a frame reports is sound. -/
def ReportsSound (d : Device) (crtcIndex : ℕ) (o : Output) (heap : Heap) (a : Assignment)
    (on : PlaneId → Prop) : Prop :=
  ∀ canvas ∈ (d.stackedZpos crtcIndex o heap a).canvas,
    ∃ w, CanvasSound o heap a (d.stackedZpos crtcIndex o heap a) on canvas w

/-- The zpos written to the entry at position `i` of the stack, for the numbering `w`. -/
def writtenAt (es : List StackEntry) (w : ℕ → UInt64) (i : ℕ) : Option UInt64 :=
  es[i]?.bind fun e => if (e.rankable i).isSome then some (w i) else e.requested

theorem writtenAt_of_mem {es : List StackEntry} {w : ℕ → UInt64} {r : Rankable}
    (h : r ∈ rankables es) : writtenAt es w r.index = some (w r.index) := by
  obtain ⟨e, he, hr⟩ := mem_rankables.mp h
  simp [writtenAt, he, hr]

theorem zip_numbered (w : ℕ → UInt64) :
    ((o.stackedLayers heap a).map Prod.fst).zip
        ((d.withCanvas crtcIndex o heap a).zipIdx.map fun (e, i) =>
          { e with written := if (e.rankable i).isSome then some (w i) else e.requested }) =
      (o.stackedLayers heap a).zipIdx.map fun (e, i) =>
        (e.1, { d.entryOf heap e with
          written := writtenAt (d.withCanvas crtcIndex o heap a) w i }) := by
  refine List.ext_getElem ?_ fun i hi hi' => ?_
  · simp [withCanvas]
  · have hlt : i < (o.stackedLayers heap a).length := by simpa using hi'
    have he : (d.withCanvas crtcIndex o heap a)[i]? =
        some (d.entryOf heap (o.stackedLayers heap a)[i]) :=
      getElem?_withCanvas (List.getElem?_eq_getElem hlt)
    obtain ⟨hlt', hget⟩ := List.getElem?_eq_some_iff.mp he
    simp [writtenAt, he, hget]

/-- On the planes with a zpos range, a reported canvas slot is sound whatever overlaps. -/
theorem stackedZpos_canvas_sound (d : Device) (crtcIndex : ℕ) (o : Output) (heap : Heap)
    (a : Assignment) (hmax : d.RangesEndBelowTop) :
    d.ReportsSound crtcIndex o heap a d.HasZposRange := by
  intro canvas h
  obtain ⟨hslot, habove, hfeasible, hfits, hcanvas, hwritten⟩ := stackedZpos_of_canvas h
  obtain ⟨above, habove⟩ := Option.isSome_iff_exists.mp habove
  obtain ⟨w, hw, -, hout⟩ := (stackZpos_numbers_iff (d.withCanvas crtcIndex o heap a)
    (rangesEndBelowTop_withCanvas hmax)).2.1 hfits
  have hbounds := Output.canvasBounds_bound o heap a
  obtain ⟨c, hc, hci, hcr, hct⟩ := rankable_canvas hmax hslot habove
  have hcw : w c.index = canvas := by
    have hwc := writtenAt_of_mem (w := w) hc
    rw [hout, ← hci, List.getElem?_map] at hcanvas
    unfold writtenAt at hwc
    cases he : (d.withCanvas crtcIndex o heap a)[c.index]? with
    | none => simp [he] at hwc
    | some e =>
      simp only [List.getElem?_zipIdx, he, Option.map_some, Option.bind_some, Nat.zero_add]
        at hwc hcanvas
      exact Option.some.inj (hwc.symm.trans hcanvas)
  refine ⟨writtenAt (d.withCanvas crtcIndex o heap a) w, ?_, ?_, ?_⟩
  · rw [hwritten, hout, zip_numbered, List.filterMap_map]
    rfl
  · intro i j p q l m hi hj hp hq x hx y hy hlt
    obtain ⟨r, hr, rfl, hrx, -⟩ := rankable_of_range crtcIndex hi hp hx
    obtain ⟨s, hs, rfl, hsy, -⟩ := rankable_of_range crtcIndex hj hq hy
    refine ⟨_, writtenAt_of_mem hr, _, writtenAt_of_mem hs, hw.rises r hr s hs (.inl ?_)⟩
    rw [hrx, hsy]
    exact UInt64.lt_iff_toNat_lt.mp hlt
  · intro i p l hi hp hl other hother hint x hx y hy
    obtain ⟨r, hr, rfl, hrx, hrt⟩ := rankable_of_range crtcIndex hi hp hx
    have hmem : (x, y) ∈ o.overlaps heap a :=
      Output.mem_overlaps.mpr ⟨l, hl, other, hother, hx, hy, hint⟩
    refine ⟨fun hyx => ⟨_, writtenAt_of_mem hr, ?_⟩, fun hxy => ⟨_, writtenAt_of_mem hr, ?_⟩⟩
    · -- the canvas asks for the lowest such zpos, and goes below ties
      obtain ⟨v, hv, hle⟩ := hbounds.above_le _ hmem hyx
      rw [habove] at hv
      cases hv
      rw [← hcw]
      refine hw.rises c hc r hr ?_
      rcases Nat.lt_or_eq_of_le (UInt64.le_iff_toNat_le.mp hle) with hlt | heq
      · exact .inl (by rwa [hcr, hrx])
      · exact .inr ⟨by rw [hcr, hrx]; exact UInt64.toNat_inj.mp heq, .inl ⟨hct, hrt⟩⟩
    · obtain ⟨v, hv, hle⟩ := hbounds.le_below _ hmem hxy
      simp only [CanvasBounds.feasible, habove, Option.mem_def.mp hv,
        decide_eq_true_eq] at hfeasible
      rw [← hcw]
      refine hw.rises r hr c hc (.inl ?_)
      rw [hcr, hrx]
      exact Nat.lt_of_le_of_lt (UInt64.le_iff_toNat_le.mp hle) (UInt64.lt_iff_toNat_lt.mp hfeasible)

end Device

/-! ### A canvas between two layers -/

namespace Controller

/-- The controller with a cursor plane that has no zpos. -/
def withCursor : Device :=
  { device with
    registry := {
      planes := device.registry.planes ++ [{ id := 3, possibleCrtcs := 1, type := .cursor }]
      nodupIds := by decide } }

/-- The controller with its PRIMARY fixed at the top of the 64-bit values. -/
def topSlot : Device :=
  { device with
    registry := {
      planes := [
        { id := 1, possibleCrtcs := 1, type := .primary, zposMin := some (-1),
          zposMax := some (-1) },
        { id := 2, possibleCrtcs := 1, type := .overlay, zposMin := some 1, zposMax := some 5 }]
      nodupIds := by decide } }

/-- Layer 2 composites between layers 0 and 1, which both overlap it. -/
def sandwich (l : LayerId) : Layer :=
  if l = 0 then layer 0 5 11 else if l = 1 then layer 5 1 12 else layer 2 3 13

/-- Layer 0 on plane 2, layer 1 on `p`. -/
def around (p : PlaneId) (h : p ≠ 2) : Assignment :=
  ⟨[(2, 0), (p, 1)], by simpa using h.symm⟩

theorem reportsSound_sandwich :
    (device.stackedZpos 0 (output [0, 1, 2]) sandwich (around 1 (by decide))).canvas = some 1 ∧
      device.ReportsSound 0 (output [0, 1, 2]) sandwich (around 1 (by decide))
        device.HasZposRange :=
  ⟨by decide +kernel, Device.stackedZpos_canvas_sound device 0 (output [0, 1, 2]) sandwich
    (around 1 (by decide)) (by simp [Device.RangesEndBelowTop, device])⟩

/-- What is written to the second of two planes is read off the list. -/
theorem written_at_one {stacked : List (PlaneId × LayerId)} {w : ℕ → Option UInt64}
    {written : List (PlaneId × UInt64)} {p q : PlaneId} {l m : LayerId} {u v : UInt64}
    (h : written = stacked.zipIdx.filterMap fun e => (w e.2).map fun v => (e.1.1, v))
    (hs : stacked = [(p, l), (q, m)]) (hw : written = [(p, u), (q, v)]) : w 1 = some v := by
  subst hs hw
  cases h0 : w 0 <;> cases h1 : w 1 <;> simp_all

/-- A plane without a zpos range keeps the requested value, which may lie anywhere; and a range that
reaches the top of the 64-bit values makes the next one wrap. -/
theorem not_reportsSound :
    ¬ withCursor.ReportsSound 0 (output [0, 1, 2]) sandwich (around 3 (by decide))
        (fun _ => True) ∧
      ¬ topSlot.ReportsSound 0 (output [0, 1, 2]) sandwich (around 1 (by decide))
        topSlot.HasZposRange := by
  constructor
  · intro h
    obtain ⟨w, hwritten, -, haround⟩ := h 1 (by decide +kernel)
    obtain ⟨u, hu, hlt⟩ := (haround 1 3 1 (by decide +kernel) trivial (by decide +kernel) 2
      (by decide +kernel) (by decide +kernel) 1 rfl 3 rfl).2 (by decide)
    have hone : w 1 = some 1 := written_at_one (p := 2) (q := 3) (l := 0) (m := 1) (u := 2)
      hwritten (by decide +kernel) (by decide +kernel)
    rw [hone] at hu
    cases hu
    exact absurd hlt (by decide)
  · intro h
    obtain ⟨w, hwritten, -, haround⟩ := h 1 (by decide +kernel)
    obtain ⟨u, hu, hlt⟩ := (haround 1 1 1 (by decide +kernel) ⟨_, _, _, rfl, rfl, rfl⟩
      (by decide +kernel) 2 (by decide +kernel) (by decide +kernel) 1 rfl 3 rfl).2 (by decide)
    have htop : w 1 = some (-1) := written_at_one (p := 2) (q := 1) (l := 0) (m := 1) (u := 2)
      hwritten (by decide +kernel) (by decide +kernel)
    rw [htop] at hu
    cases hu
    exact absurd hlt (by decide)

end Controller

end DrmCxx.Planes
