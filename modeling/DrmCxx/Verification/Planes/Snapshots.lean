import DrmCxx.Verification.Planes.Apply

/-!
# Snapshots and the writes they save

What a real `apply()` writes on each plane, and what it remembers of it: a plane it arms gets the
writes of its layer and a fresh snapshot, a plane it turns off loses its snapshot, and no other
snapshot moves.
-/

namespace DrmCxx.Planes

open DrmCxx.Lib DrmCxx.Modeset

/-! ### The writes of one plane -/

theorem plane_of_mem_layerWrites {d : Device} {base : Option Properties} {l : Layer} {p : PlaneId}
    {zpos : Option UInt64} {w : PropKey × UInt64} (h : w ∈ d.layerWrites base l p zpos) :
    w.1.1 = p := by
  obtain ⟨t, -, h⟩ := List.mem_filterMap.mp h
  obtain ⟨v, -, h⟩ := Option.bind_eq_some_iff.mp h
  split at h
  · split at h
    · cases h
      rfl
    · cases h
  · cases h

theorem plane_of_mem_resetWrites {d : Device} {p : PlaneId} {w : PropKey × UInt64}
    (h : w ∈ d.resetWrites p) : w.1.1 = p := by
  obtain ⟨prop, -, rfl⟩ := List.mem_map.mp h
  rfl

theorem plane_of_mem_disableWrites {d : Device} {p : PlaneId} {w : PropKey × UInt64}
    (h : w ∈ d.disableWrites p) : w.1.1 = p := by
  obtain ⟨t, -, h⟩ := List.mem_filterMap.mp h
  split at h
  · cases h
    rfl
  · cases h

theorem plane_of_mem_applyLayerToPlane {d : Device} {l : Layer} {p : PlaneId}
    {zpos : Option UInt64} {w : PropKey × UInt64} (h : w ∈ d.applyLayerToPlane l p zpos) :
    w.1.1 = p := by
  obtain ⟨t, -, h⟩ := List.mem_filterMap.mp h
  obtain ⟨v, -, h⟩ := Option.bind_eq_some_iff.mp h
  split at h
  · cases h
    rfl
  · cases h

theorem mem_unusedPlanes {d : Device} {crtcIndex : ℕ} {reserved : List PlaneId}
    {keep : PlaneId → Bool} {p : PlaneId} (h : p ∈ d.unusedPlanes crtcIndex reserved keep) :
    keep p = false ∧ p ∉ reserved := by
  obtain ⟨q, hq, rfl⟩ := List.mem_map.mp h
  have hq := (List.mem_filter.mp hq).2
  simp only [Bool.and_eq_true, Bool.not_eq_true'] at hq
  exact ⟨hq.1.2, by simpa using hq.2⟩

namespace Allocator

variable {d : Device} {a a' : Allocator} {heap : Heap} {stack : ZposStack}

/-- The writes that put a layer on a plane, given the snapshots of `a`. -/
def entryWrites (d : Device) (a : Allocator) (heap : Heap) (stack : ZposStack)
    (e : PlaneId × LayerId) : AtomicRequest :=
  (if (a.diffBase e.1 e.2).isNone then d.resetWrites e.1 else []) ++
    d.layerWrites (a.diffBase e.1 e.2) (heap e.2) e.1 (stack.zposIn e.1)

def snapshotOf (heap : Heap) (stack : ZposStack) (e : PlaneId × LayerId) : LastCommitted :=
  ⟨some e.2, Device.stackedValue (stack.zposIn e.1) (heap e.2), propertyHash (heap e.2).props⟩

theorem plane_of_mem_entryWrites {e : PlaneId × LayerId} {w : PropKey × UInt64}
    (h : w ∈ entryWrites d a heap stack e) : w.1.1 = e.1 := by
  rcases List.mem_append.mp h with h | h
  · split at h
    · exact plane_of_mem_resetWrites h
    · cases h
  · exact plane_of_mem_layerWrites h

theorem entryWrites_congr {e : PlaneId × LayerId}
    (hl : a'.lastCommitted.find? e.1 = a.lastCommitted.find? e.1)
    (hf : a'.forceFullWrites = a.forceFullWrites) :
    entryWrites d a' heap stack e = entryWrites d a heap stack e := by
  unfold entryWrites diffBase
  rw [hl, hf]

/-! ### An assignment -/

theorem applyAssignment_cons_fst (e : PlaneId × LayerId) (es : List (PlaneId × LayerId)) :
    (applyAssignment d heap stack false a (e :: es)).1 = (applyAssignment d heap stack false
      (a.applyLayerToPlaneReal d heap e.2 e.1 false (stack.zposIn e.1)).1 es).1 := rfl

theorem applyAssignment_cons_snd (e : PlaneId × LayerId) (es : List (PlaneId × LayerId)) :
    (applyAssignment d heap stack false a (e :: es)).2 = entryWrites d a heap stack e ++
      (applyAssignment d heap stack false
        (a.applyLayerToPlaneReal d heap e.2 e.1 false (stack.zposIn e.1)).1 es).2 := rfl

theorem applyAssignment_find?_of_not_mem {es : List (PlaneId × LayerId)} {p : PlaneId}
    (h : p ∉ es.map Prod.fst) :
    (applyAssignment d heap stack false a es).1.lastCommitted.find? p =
      a.lastCommitted.find? p := by
  induction es generalizing a with
  | nil => rfl
  | cons e es ih =>
    rw [List.map_cons, List.mem_cons, not_or] at h
    rw [applyAssignment_cons_fst, ih h.2]
    simp [applyLayerToPlaneReal, h.1, setDiagnostics]

theorem applyAssignment_find? {es : List (PlaneId × LayerId)} (hnd : (es.map Prod.fst).Nodup)
    {e : PlaneId × LayerId} (he : e ∈ es) :
    (applyAssignment d heap stack false a es).1.lastCommitted.find? e.1 =
      some (snapshotOf heap stack e) := by
  induction es generalizing a with
  | nil => cases he
  | cons x xs ih =>
    rw [List.map_cons, List.nodup_cons] at hnd
    rcases List.mem_cons.mp he with rfl | he
    · rw [applyAssignment_cons_fst, applyAssignment_find?_of_not_mem hnd.1]
      simp [applyLayerToPlaneReal, snapshotOf]
    · exact ih hnd.2 he

theorem mem_applyAssignment {es : List (PlaneId × LayerId)} (hnd : (es.map Prod.fst).Nodup)
    {w : PropKey × UInt64} :
    w ∈ (applyAssignment d heap stack false a es).2 ↔
      ∃ e ∈ es, w ∈ entryWrites d a heap stack e := by
  induction es generalizing a with
  | nil => simp [applyAssignment]
  | cons x xs ih =>
    rw [List.map_cons, List.nodup_cons] at hnd
    have hcongr : ∀ e ∈ xs, entryWrites d
        (a.applyLayerToPlaneReal d heap x.2 x.1 false (stack.zposIn x.1)).1 heap stack e =
          entryWrites d a heap stack e := by
      intro e he
      have hne : e.1 ≠ x.1 := fun h => hnd.1 (h ▸ List.mem_map.mpr ⟨e, he, rfl⟩)
      exact entryWrites_congr (by simp [applyLayerToPlaneReal, hne, setDiagnostics]) rfl
    rw [applyAssignment_cons_snd, List.mem_append, ih hnd.2]
    constructor
    · rintro (h | ⟨e, he, h⟩)
      · exact ⟨x, List.mem_cons_self, h⟩
      · exact ⟨e, List.mem_cons_of_mem _ he, hcongr e he ▸ h⟩
    · rintro ⟨e, he, h⟩
      rcases List.mem_cons.mp he with rfl | he
      · exact .inl h
      · exact .inr ⟨e, he, hcongr e he ▸ h⟩

/-! ### The disable pass -/

theorem disablePlane_of_off {testOnly : Bool} {p : PlaneId}
    (h : (!a.forceFullWrites && a.alreadyOff p) = true) :
    a.disablePlane d testOnly p = (a, []) := by
  rw [disablePlane, if_pos h]

theorem disablePlane_of_on (testOnly : Bool) {p : PlaneId}
    (h : ¬ (!a.forceFullWrites && a.alreadyOff p) = true) :
    (a.disablePlane d testOnly p).2 = d.disableWrites p ∧
      (a.disablePlane d testOnly p).1.lastCommitted =
        if testOnly then a.lastCommitted else a.lastCommitted.erase p := by
  rw [disablePlane, if_neg h]
  cases testOnly <;> exact ⟨rfl, rfl⟩

theorem disablePlanes_cons_snd (testOnly : Bool) (p : PlaneId) (ps : List PlaneId) :
    (disablePlanes d testOnly a (p :: ps)).2 = (a.disablePlane d testOnly p).2 ++
      (disablePlanes d testOnly (a.disablePlane d testOnly p).1 ps).2 := rfl

theorem disablePlanes_cons_fst (testOnly : Bool) (p : PlaneId) (ps : List PlaneId) :
    (disablePlanes d testOnly a (p :: ps)).1 =
      (disablePlanes d testOnly (a.disablePlane d testOnly p).1 ps).1 := rfl

theorem disablePlanes_ite (testOnly b : Bool) (ps : List PlaneId) :
    (if b = true then disablePlanes d testOnly a ps else (a, [])) =
      disablePlanes d testOnly a (if b then ps else []) := by
  cases b <;> rfl

theorem plane_of_mem_disablePlanes {testOnly : Bool} {ps : List PlaneId} {w : PropKey × UInt64}
    (h : w ∈ (disablePlanes d testOnly a ps).2) : w.1.1 ∈ ps := by
  induction ps generalizing a with
  | nil => cases h
  | cons p ps ih =>
    rw [disablePlanes_cons_snd] at h
    rcases List.mem_append.mp h with h | h
    · by_cases hoff : (!a.forceFullWrites && a.alreadyOff p) = true
      · rw [disablePlane_of_off hoff] at h
        cases h
      · rw [(disablePlane_of_on testOnly hoff).1] at h
        rw [plane_of_mem_disableWrites h]
        exact List.mem_cons_self
    · exact List.mem_cons_of_mem _ (ih h)

/-- A snapshot the pass leaves was there before, and its plane was not turned off. -/
theorem disablePlanes_find? {ps : List PlaneId} {q : PlaneId} {s : LastCommitted}
    (h : (disablePlanes d false a ps).1.lastCommitted.find? q = some s) :
    a.lastCommitted.find? q = some s ∧ ∀ w ∈ (disablePlanes d false a ps).2, w.1.1 ≠ q := by
  induction ps generalizing a with
  | nil => exact ⟨h, fun _ hw => by cases hw⟩
  | cons p ps ih =>
    have hps := h
    rw [disablePlanes_cons_fst] at hps
    obtain ⟨hfind, hrest⟩ := ih hps
    rw [disablePlanes_cons_snd]
    by_cases hoff : (!a.forceFullWrites && a.alreadyOff p) = true
    · rw [disablePlane_of_off hoff] at hfind hrest ⊢
      exact ⟨hfind, hrest⟩
    · obtain ⟨hreq, hlast⟩ := disablePlane_of_on (d := d) false hoff
      rw [hlast, if_neg Bool.false_ne_true, Table.find?_erase] at hfind
      split at hfind
      · cases hfind
      · rename_i hne
        refine ⟨hfind, ?_⟩
        intro w hw hwq
        rcases List.mem_append.mp hw with hw | hw
        · rw [hreq] at hw
          exact hne (hwq.symm.trans (plane_of_mem_disableWrites hw))
        · exact hrest w hw hwq

theorem disablePlanes_find?_of_not_mem {testOnly : Bool} {ps : List PlaneId} {q : PlaneId}
    (h : q ∉ ps) :
    (disablePlanes d testOnly a ps).1.lastCommitted.find? q = a.lastCommitted.find? q := by
  induction ps generalizing a with
  | nil => rfl
  | cons p ps ih =>
    rw [List.mem_cons, not_or] at h
    rw [disablePlanes_cons_fst, ih h.2]
    by_cases hoff : (!a.forceFullWrites && a.alreadyOff p) = true
    · rw [disablePlane_of_off hoff]
    · rw [(disablePlane_of_on testOnly hoff).2]
      split
      · rfl
      · rw [Table.find?_erase, if_neg h.1]

/-! ### A whole placement -/

/-- What arming an assignment, with the composition layer parked or not, does to the request and
the snapshots. -/
structure ArmSpec (d : Device) (a a' : Allocator) (heap : Heap) (stack : ZposStack)
    (assignment : Assignment) (parked : Option (LayerId × PlaneId)) (reserved : List PlaneId)
    (req : AtomicRequest) : Prop where
  snapshot : ∀ e ∈ assignment.entries,
    a'.lastCommitted.find? e.1 = some (snapshotOf heap stack e)
  kept : ∀ q s, assignment.contains q = false → a'.lastCommitted.find? q = some s →
    a.lastCommitted.find? q = some s ∧ ∀ w ∈ req, w.1.1 = q → ∃ l, parked = some (l, q)
  writes : ∀ e ∈ assignment.entries, ∀ w : PropKey × UInt64, w.1.1 = e.1 →
    (w ∈ req ↔ w ∈ entryWrites d a heap stack e)
  parkedFree : ∀ l p, parked = some (l, p) → assignment.contains p = false
  parkWrites : ∀ l p, parked = some (l, p) → ∀ w : PropKey × UInt64, w.1.1 = p →
    (w ∈ req ↔ w ∈ d.applyLayerToPlane (heap l) p none)
  unreserved : ∀ e ∈ assignment.entries, e.1 ∉ reserved

section

variable {assignment : Assignment} {parked : Option (LayerId × PlaneId)}
  {reserved : List PlaneId} {req : AtomicRequest}

theorem ArmSpec.congr {b : Allocator} (h : ArmSpec d b a' heap stack assignment parked reserved req)
    (hl : b.lastCommitted = a.lastCommitted) (hf : b.forceFullWrites = a.forceFullWrites) :
    ArmSpec d a a' heap stack assignment parked reserved req where
  snapshot := h.snapshot
  kept q s hq hs := by
    rw [← hl]
    exact h.kept q s hq hs
  writes e he w hw := by
    rw [← entryWrites_congr (congrArg (·.find? e.1) hl) hf]
    exact h.writes e he w hw
  parkedFree := h.parkedFree
  parkWrites := h.parkWrites
  unreserved := h.unreserved

/-- The diagnostics of the call are stored last. -/
theorem ArmSpec.setDiagnostics
    (h : ArmSpec d a a' heap stack assignment parked reserved req) (diag : Diagnostics) :
    ArmSpec d a (a'.setDiagnostics diag) heap stack assignment parked reserved req :=
  { h with }

theorem not_mem_keys {p : PlaneId} (h : assignment.contains p = false) :
    p ∉ assignment.entries.map Prod.fst := by
  intro hm
  obtain ⟨e, he, rfl⟩ := List.mem_map.mp hm
  exact Table.contains_eq_false.mp h e.2 he

theorem contains_of_mem {e : PlaneId × LayerId} (h : e ∈ assignment.entries) :
    assignment.contains e.1 = true :=
  Table.contains_eq_true.mpr ⟨e.2, h⟩

/-- The writes of an assignment on one of its planes are those of its entry. -/
theorem mem_applyAssignment_of_plane {e : PlaneId × LayerId} (he : e ∈ assignment.entries)
    {w : PropKey × UInt64} (hw : w.1.1 = e.1) :
    w ∈ (applyAssignment d heap stack false a assignment.entries).2 ↔
      w ∈ entryWrites d a heap stack e := by
  rw [mem_applyAssignment assignment.nodupKeys]
  constructor
  · rintro ⟨e', he', h⟩
    have hp : e'.1 = e.1 := (plane_of_mem_entryWrites h).symm.trans hw
    have hl : e'.2 = e.2 := Table.eq_of_mem (k := e.1) (hp ▸ he') he
    rwa [Prod.ext hp hl] at h
  · exact fun h => ⟨e, he, h⟩

theorem Written.forceFullWrites_eq (h : Written a a') : a'.forceFullWrites = a.forceFullWrites := by
  obtain ⟨_, _, _, rfl, -⟩ := h
  rfl

/-- Disables first, then the assignment. -/
theorem armSpec_disable_apply (crtcIndex : ℕ) (hres : ∀ e ∈ assignment.entries, e.1 ∉ reserved)
    (hreq : req = (disablePlanes d false a
        (d.unusedPlanes crtcIndex reserved assignment.contains)).2 ++
      (applyAssignment d heap stack false (disablePlanes d false a
        (d.unusedPlanes crtcIndex reserved assignment.contains)).1 assignment.entries).2)
    (ha' : a'.lastCommitted = (applyAssignment d heap stack false (disablePlanes d false a
        (d.unusedPlanes crtcIndex reserved assignment.contains)).1
          assignment.entries).1.lastCommitted) :
    ArmSpec d a a' heap stack assignment none reserved req := by
  have hunused : ∀ e ∈ assignment.entries,
      e.1 ∉ d.unusedPlanes crtcIndex reserved assignment.contains := by
    intro e he hm
    have hfree := (mem_unusedPlanes hm).1
    rw [contains_of_mem he] at hfree
    cases hfree
  refine ⟨?_, ?_, ?_, ?_, ?_, hres⟩
  · intro e he
    rw [ha']
    exact applyAssignment_find? assignment.nodupKeys he
  · intro q s hq hs
    rw [ha', applyAssignment_find?_of_not_mem (not_mem_keys hq)] at hs
    obtain ⟨hbefore, hno⟩ := disablePlanes_find? hs
    refine ⟨hbefore, ?_⟩
    intro w hw hwq
    rw [hreq] at hw
    rcases List.mem_append.mp hw with hw | hw
    · exact absurd hwq (hno w hw)
    · obtain ⟨e, he, hw⟩ := (mem_applyAssignment assignment.nodupKeys).mp hw
      have : e.1 = q := (plane_of_mem_entryWrites hw).symm.trans hwq
      rw [← this, contains_of_mem he] at hq
      cases hq
  · intro e he w hw
    rw [hreq, List.mem_append, mem_applyAssignment_of_plane he hw,
      entryWrites_congr (disablePlanes_find?_of_not_mem (hunused e he))
        (disablePlanes_written _ _).forceFullWrites_eq]
    refine or_iff_right ?_
    intro hdis
    exact hunused e he (hw ▸ plane_of_mem_disablePlanes hdis)
  · intro l p h
    cases h
  · intro l p h
    cases h

/-- The assignment first, then the composition layer, then the disables, if any. -/
theorem armSpec_apply_disable {ps : List PlaneId} (hres : ∀ e ∈ assignment.entries, e.1 ∉ reserved)
    (hpark : ∀ l p, parked = some (l, p) → assignment.contains p = false)
    (hps : ∀ p ∈ ps, assignment.contains p = false ∧ ∀ l, parked ≠ some (l, p))
    (hreq : req = (applyAssignment d heap stack false a assignment.entries).2 ++
      parkWrites d heap parked ++
      (disablePlanes d false (applyAssignment d heap stack false a assignment.entries).1 ps).2)
    (ha' : a'.lastCommitted = (disablePlanes d false
      (applyAssignment d heap stack false a assignment.entries).1 ps).1.lastCommitted) :
    ArmSpec d a a' heap stack assignment parked reserved req := by
  have hkept : ∀ e ∈ assignment.entries, e.1 ∉ ps := by
    intro e he hm
    have hfree := (hps _ hm).1
    rw [contains_of_mem he] at hfree
    cases hfree
  have hparkPlane : ∀ w ∈ parkWrites d heap parked, ∃ l, parked = some (l, w.1.1) := by
    intro w hw
    cases parked with
    | none => cases hw
    | some x =>
      have : w.1.1 = x.2 := plane_of_mem_applyLayerToPlane hw
      exact ⟨x.1, by rw [this]⟩
  refine ⟨?_, ?_, ?_, hpark, ?_, hres⟩
  · intro e he
    rw [ha', disablePlanes_find?_of_not_mem (hkept e he)]
    exact applyAssignment_find? assignment.nodupKeys he
  · intro q s hq hs
    rw [ha'] at hs
    obtain ⟨hbefore, hno⟩ := disablePlanes_find? hs
    rw [applyAssignment_find?_of_not_mem (not_mem_keys hq)] at hbefore
    refine ⟨hbefore, ?_⟩
    intro w hw hwq
    rw [hreq] at hw
    rcases List.mem_append.mp hw with hw | hw
    · rcases List.mem_append.mp hw with hw | hw
      · obtain ⟨e, he, hw⟩ := (mem_applyAssignment assignment.nodupKeys).mp hw
        have : e.1 = q := (plane_of_mem_entryWrites hw).symm.trans hwq
        rw [← this, contains_of_mem he] at hq
        cases hq
      · exact hwq ▸ hparkPlane w hw
    · exact absurd hwq (hno w hw)
  · intro e he w hw
    rw [hreq, List.mem_append, List.mem_append, mem_applyAssignment_of_plane he hw]
    constructor
    · rintro ((h | h) | h)
      · exact h
      · obtain ⟨l, hl⟩ := hparkPlane w h
        have hfree := hpark l _ hl
        rw [hw, contains_of_mem he] at hfree
        cases hfree
      · exact absurd (hw ▸ plane_of_mem_disablePlanes h) (hkept e he)
    · exact fun h => .inl (.inl h)
  · intro l p hlp w hw
    subst hlp
    rw [hreq, List.mem_append, List.mem_append]
    constructor
    · rintro ((h | h) | h)
      · obtain ⟨e, he, h⟩ := (mem_applyAssignment assignment.nodupKeys).mp h
        have hp : e.1 = p := (plane_of_mem_entryWrites h).symm.trans hw
        have hfree := hpark l p rfl
        rw [← hp, contains_of_mem he] at hfree
        cases hfree
      · exact h
      · exact absurd rfl ((hps p (hw ▸ plane_of_mem_disablePlanes h)).2 l)
    · exact fun h => .inl (.inr h)

end

/-! ### A frame -/

variable {f : Frame}

theorem assignPlanes_props (es : List (PlaneId × LayerId)) (heap : Heap) (l : LayerId) :
    (assignPlanes heap es l).props = (heap l).props := by
  rw [assignPlanes_eq]

theorem markUnassigned_props (o : Output) (heap : Heap) (l : LayerId) :
    (o.markUnassigned heap l).props = (heap l).props := by
  unfold Output.markUnassigned
  split <;> rfl

theorem applyLayerToPlane_congr {l l' : Layer} (h : l'.props = l.props) (p : PlaneId)
    (zpos : Option UInt64) : d.applyLayerToPlane l' p zpos = d.applyLayerToPlane l p zpos := by
  simp only [Device.applyLayerToPlane, Device.stackedValue, h]

/-- The stack a frame writes with an assignment. -/
def frameStack (d : Device) (f : Frame) (assignment : Assignment) : ZposStack :=
  d.stackedZpos (d.crtcIndex f.output.crtcId) f.output f.resetHeap assignment

theorem armPrevious_spec (hreal : f.testOnly = false)
    (hres : ∀ e ∈ a.previousAllocation.entries, e.1 ∉ f.reserved) :
    ArmSpec d a (a.armPrevious d f f.resetHeap).1 f.resetHeap
      (frameStack d f a.previousAllocation) a.previousAllocation none f.reserved
      (a.armPrevious d f f.resetHeap).2.2 := by
  apply armSpec_disable_apply (d.crtcIndex f.output.crtcId) hres
  · simp only [armPrevious, hreal, frameStack]
  · simp only [armPrevious, hreal, frameStack]
    split <;> rfl

theorem parkedComposition_free {best : Assignment} {l : LayerId} {p : PlaneId}
    (h : parkedComposition d f best heap = some (l, p)) : best.contains p = false := by
  unfold parkedComposition at h
  split at h
  · obtain ⟨q, hq, h⟩ := Option.map_eq_some_iff.mp h
    cases h
    obtain ⟨caps, hcaps, rfl⟩ := Option.map_eq_some_iff.mp hq
    have := List.find?_some hcaps
    simp only [Bool.and_eq_true, Bool.not_eq_true'] at this
    exact this.2
  · cases h

theorem armBest_spec (hreal : f.testOnly = false) (best : Assignment) (layers : List LayerId)
    (hres : ∀ e ∈ best.entries, e.1 ∉ f.reserved) :
    ∃ parked, ArmSpec d a (a.armBest d f f.resetHeap best layers).allocator f.resetHeap
        (frameStack d f best) best parked f.reserved
        (a.armBest d f f.resetHeap best layers).request ∧
      (a.armBest d f f.resetHeap best layers).armed =
        best.entries ++ parked.toList.map Prod.swap := by
  set heap := f.output.markUnassigned (assignPlanes f.resetHeap best.entries) with hheap
  set parked := parkedComposition d f best heap with hparked
  refine ⟨parked, ?_, rfl⟩
  have hpark : parkWrites d heap parked = parkWrites d f.resetHeap parked := by
    cases parked with
    | none => rfl
    | some x =>
      apply applyLayerToPlane_congr
      rw [hheap, markUnassigned_props, assignPlanes_props]
  set keep : PlaneId → Bool := fun p => best.contains p || parked.any fun e => e.2 = p with hkeep
  have hunused : ∀ p ∈ d.unusedPlanes (d.crtcIndex f.output.crtcId) f.reserved keep,
      best.contains p = false ∧ ∀ l, parked ≠ some (l, p) := by
    intro p hp
    have hfree := (mem_unusedPlanes hp).1
    rw [hkeep, Bool.or_eq_false_iff] at hfree
    refine ⟨hfree.1, ?_⟩
    intro l hl
    rw [hl] at hfree
    simp at hfree
  have hps : ∀ b : Bool, ∀ p ∈ (if b then d.unusedPlanes (d.crtcIndex f.output.crtcId) f.reserved
      keep else []), best.contains p = false ∧ ∀ l, parked ≠ some (l, p) := by
    intro b p hp
    cases b with
    | true => exact hunused p hp
    | false => cases hp
  apply armSpec_apply_disable hres (fun l p => parkedComposition_free) (hps _)
  · rw [← hpark]
    simp only [armBest, hreal, disablePlanes_ite]
    rfl
  · simp only [armBest, hreal, disablePlanes_ite]
    rfl

theorem beginFrame_lastCommitted (d : Device) (a : Allocator) (f : Frame) :
    (a.beginFrame d f).lastCommitted = a.lastCommitted ∧
      (a.beginFrame d f).forceFullWrites = a.forceFullWrites := by
  unfold beginFrame
  dsimp only
  split <;> exact ⟨rfl, rfl⟩

theorem Attempted.lastCommitted (h : Attempted f a a') :
    a'.lastCommitted = a.lastCommitted ∧ a'.forceFullWrites = a.forceFullWrites := by
  obtain ⟨_, _, rfl, -⟩ := h
  exact ⟨rfl, rfl⟩

theorem searched_unreserved {e : PlaneId × LayerId}
    (he : e ∈ (searched d a f).allocator.previousAllocation.entries) : e.1 ∉ f.reserved := by
  obtain ⟨-, q, hq, hid, -⟩ := SearchContext.searchAssignment_placed _ _ e.1 e.2 he
  have hq := (List.mem_filter.mp hq).2
  rw [← hid]
  simpa [context] using hq

/-- A real `apply()` loses the master and writes nothing, or arms the assignment it remembers. -/
theorem apply_spec (d : Device) (a : Allocator) (f : Frame) (hreal : f.testOnly = false) :
    ((a.apply d f).armed = [] ∧ (a.apply d f).request = [] ∧
        (a.apply d f).allocator.lastCommitted = a.lastCommitted) ∨
      ∃ parked, ArmSpec d a (a.apply d f).allocator f.resetHeap
          (frameStack d f (a.apply d f).allocator.previousAllocation)
          (a.apply d f).allocator.previousAllocation parked f.reserved (a.apply d f).request ∧
        (a.apply d f).armed = (a.apply d f).allocator.previousAllocation.entries ++
          parked.toList.map Prod.swap := by
  obtain ⟨hbegin, hforce⟩ := beginFrame_lastCommitted d a f
  by_cases hr : Replayed d a f
  · obtain ⟨a₁, hreplay, -, harmed, -, hreq, -, diag, halloc⟩ := apply_of_replayed hr
    obtain ⟨hlast, hfull⟩ := hreplay.attempted.lastCommitted
    have hprev : (a.apply d f).allocator.previousAllocation = a₁.previousAllocation := by
      rw [halloc]
      exact armPrevious_previousAllocation d a₁ f f.resetHeap
    right
    refine ⟨none, ?_, ?_⟩
    · have hspec := (armPrevious_spec (d := d) hreal hreplay.unreserved).congr
        (hlast.trans hbegin) (hfull.trans hforce)
      rw [hprev, hreq, halloc]
      exact { hspec with }
    · rw [harmed, hprev]
      simp
  · obtain ⟨hatt, ⟨-, diag, happ⟩ | ⟨-, diag, happ, -⟩⟩ := apply_of_not_replayed hr
    · left
      rw [happ]
      exact ⟨rfl, rfl, hatt.lastCommitted.1.trans hbegin⟩
    · right
      obtain ⟨parked, hspec, harmed⟩ := armBest_spec (d := d)
        (a := (cacheAnswer d a f).allocator.setSearch (searchResult d a f).2) hreal
        (searchResult d a f).1 (sortLayersByZpos d f.resetHeap f.output.layers)
        (fun _ => searched_unreserved (a := a))
      refine ⟨parked, ?_, ?_⟩
      · have hprev : ((searched d a f).allocator.setDiagnostics diag).previousAllocation =
            (searchResult d a f).1 := searched_previousAllocation d a f
        have hspec := hspec.congr (hatt.lastCommitted.1.trans hbegin)
          (hatt.lastCommitted.2.trans hforce)
        rw [happ]
        dsimp only
        rw [hprev]
        exact hspec.setDiagnostics diag
      · rw [happ]
        exact harmed

end Allocator

end DrmCxx.Planes
