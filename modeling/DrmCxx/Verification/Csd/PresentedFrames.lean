import DrmCxx.Csd.ProbePresenter
import DrmCxx.Verification.Csd.PlanePresenter

/-!
# Frames of a probed presenter

A presenter that was probed for has an overlay for every decoration. Over any run of frames, some
refused and some not committed, its planes show the decorations of the last committed frame, stacked
in order, and nothing else of the device is touched.
-/

namespace DrmCxx.Csd

open Lib
open Core (ObjectId PropertyId PropertyStore ListedProperty PropertyInfo)
open Planes (PlaneId PlaneCapabilities PlaneRegistry)
open PlanePresenter

/-! ### Runs of frames -/

/-- A frame: the decorations, the caller's own writes before and after the presenter's, and what
becomes of the request. -/
structure PresentedFrame where
  refs : List OverlayRef
  before : List OverlayWrite := []
  after : List OverlayWrite := []
  addError : Option (ℕ × Errc) := none
  accepted : Bool := true

namespace PresentedFrame

variable (slots : List OverlaySlot) (k : Properties) (f : PresentedFrame)

/-- The request is committed, and the kernel takes it. -/
def committed : Bool := (apply slots f.refs f.before f.addError).2 = .ok () ∧ f.accepted

/-- A request that `apply` fails on is discarded. -/
def commit : Properties :=
  if f.committed slots then
    applyWrites k ((apply slots f.refs f.before f.addError).1 ++ f.after)
  else k

/-- The caller's own writes, without the presenter's. -/
def commitOwn : Properties :=
  if f.committed slots then applyWrites k (f.before ++ f.after) else k

/-- The decorations that are on the screen. -/
def shown (refs : Option (List OverlayRef)) : Option (List OverlayRef) :=
  if f.committed slots then some f.refs else refs

/-- The caller leaves the presenter's planes alone. -/
def Apart : Prop := ∀ w ∈ f.before ++ f.after, w.1.1 ∉ slots.map (·.planeId)

end PresentedFrame

/-- The decorations of the last frame that was committed. -/
def lastShown (slots : List OverlaySlot) (frames : List PresentedFrame) :
    Option (List OverlayRef) :=
  frames.foldl (fun refs f => f.shown slots refs) none

section Runs

variable {slots : List OverlaySlot} {k : Properties} {f : PresentedFrame}
  {frames : List PresentedFrame}

/-- A request without an error has room for the decorations and all their writes. -/
theorem apply_of_ok (h : (apply slots f.refs f.before f.addError).2 = .ok ()) :
    f.refs.length ≤ slots.length ∧
      (apply slots f.refs f.before f.addError).1 = f.before ++ writesFor slots f.refs := by
  by_cases hlen : slots.length < f.refs.length
  · simp [apply, computeWrites, hlen] at h
  · have hwrites : computeWrites slots f.refs = .ok (writesFor slots f.refs) := if_neg hlen
    refine ⟨Nat.le_of_not_lt hlen, ?_⟩
    unfold apply at h ⊢
    rw [hwrites] at h ⊢
    cases hadd : f.addError with
    | none => rfl
    | some failed =>
      rw [hadd] at h
      dsimp only at h ⊢
      split_ifs at h ⊢
      rfl

/-- The planes show the decorations, if there were any. -/
def Showing (slots : List OverlaySlot) (k : Properties) (refs : Option (List OverlayRef)) : Prop :=
  ∀ rs, refs = some rs → rs.length ≤ slots.length ∧
    ∀ (j : ℕ) slot, slots[j]? = some slot → Shows k slot rs[j]?

theorem Showing.commit (hplanes : (slots.map (·.planeId)).Nodup)
    (hdistinct : ∀ slot ∈ slots, Distinct slot) (hown : f.Apart slots)
    {refs : Option (List OverlayRef)} (h : Showing slots k refs) :
    Showing slots (f.commit slots k) (f.shown slots refs) := by
  unfold PresentedFrame.commit PresentedFrame.shown
  split_ifs with hc
  · rintro rs ⟨⟩
    obtain ⟨hok, -⟩ := of_decide_eq_true hc
    obtain ⟨hlen, hreq⟩ := apply_of_ok hok
    refine ⟨hlen, fun j slot hj => ?_⟩
    rw [hreq]
    exact shows_applyWrites hplanes hdistinct (fun w hw => hown w (List.mem_append_left _ hw))
      (fun w hw => hown w (List.mem_append_right _ hw)) k f.refs hj
  · exact h

/-- A property of the presenter's: one that a slot has. -/
def OfSlots (slots : List OverlaySlot) (key : ObjectId × PropertyId) : Prop :=
  ∃ slot ∈ slots, ∃ p, slot.prop p ≠ 0 ∧ key = (slot.planeId, slot.prop p)

/-- A frame does to every other property what the caller's own writes do. -/
theorem commit_eq_commitOwn (hdistinct : ∀ slot ∈ slots, Distinct slot)
    {key : ObjectId × PropertyId} (hkey : ¬ OfSlots slots key) {k k' : Properties}
    (h : k key = k' key) :
    f.commit slots k key = f.commitOwn slots k' key := by
  unfold PresentedFrame.commit PresentedFrame.commitOwn
  split_ifs with hc
  · obtain ⟨hok, -⟩ := of_decide_eq_true hc
    rw [(apply_of_ok hok).2]
    refine applyWrites_congr h ?_
    have hnone : (writesFor slots f.refs).filter (fun w => decide (w.1 = key)) = [] := by
      refine List.filter_eq_nil_iff.mpr fun w hw => ?_
      obtain ⟨j, slot, hj, hw⟩ := mem_writesFor.mp hw
      obtain ⟨v, hv, rfl⟩ := List.mem_map.mp hw
      have hslot := List.mem_of_getElem? hj
      rw [decide_eq_true_eq]
      rintro rfl
      exact hkey ⟨slot, hslot, v.1, prop_ne_zero (hdistinct slot hslot) hv, rfl⟩
    rw [List.filter_append, List.filter_append, hnone, List.append_nil, List.filter_append]
  · exact h

theorem showing_run (hplanes : (slots.map (·.planeId)).Nodup)
    (hdistinct : ∀ slot ∈ slots, Distinct slot) (hown : ∀ f ∈ frames, f.Apart slots)
    {refs : Option (List OverlayRef)} (h : Showing slots k refs) :
    Showing slots (run (fun k f => f.commit slots k) k frames)
      (frames.foldl (fun refs f => f.shown slots refs) refs) := by
  induction frames generalizing k refs with
  | nil => exact h
  | cons f frames ih =>
    rw [List.forall_mem_cons] at hown
    exact ih hown.2 (h.commit hplanes hdistinct hown.1)

theorem run_commit_eq (hdistinct : ∀ slot ∈ slots, Distinct slot) {key : ObjectId × PropertyId}
    (hkey : ¬ OfSlots slots key) {k' : Properties} (h : k key = k' key) :
    run (fun k f => f.commit slots k) k frames key =
      run (fun k f => f.commitOwn slots k) k' frames key := by
  induction frames generalizing k k' with
  | nil => exact h
  | cons f frames ih => exact ih (commit_eq_commitOwn hdistinct hkey h)

/-! ### Stacking -/

/-- The slot has a zpos and shows a surface. -/
def Stacks (slot : OverlaySlot) (ref : Option OverlayRef) : Prop :=
  slot.prop .zpos ≠ 0 ∧ ∃ s x y, ref = some ⟨some s, x, y⟩

theorem zpos_of_shows {slot : OverlaySlot} {ref : Option OverlayRef} (h : Shows k slot ref)
    (hs : Stacks slot ref) : k (slot.planeId, slot.prop .zpos) = slot.zposValue := by
  obtain ⟨hz, s, x, y, rfl⟩ := hs
  refine h (.zpos, slot.zposValue) (List.mem_append_right _ (List.mem_filter.mpr ⟨?_, ?_⟩))
  · simp
  · simpa using hz

theorem toNat_place {base : UInt64} {i : ℕ} (h : base.toNat + i < 2 ^ 64) :
    (base + .ofNat i).toNat = base.toNat + i := by
  rw [UInt64.toNat_add, UInt64.toNat_ofNat']
  omega

/-- Slots in order have their places in order. -/
theorem zposValue_lt {registry : PlaneRegistry}
    {listing : PlaneId → Except Errc (List ListedProperty)} {crtcId : UInt32} {baseZpos : UInt64}
    {reserved : List PlaneId} (hslots : Slots registry listing crtcId baseZpos 0 reserved slots)
    (hroom : baseZpos.toNat + slots.length ≤ 2 ^ 64) {i j : ℕ} (hij : i < j)
    {lower upper : OverlaySlot} (hi : slots[i]? = some lower) (hj : slots[j]? = some upper)
    (hzi : lower.prop .zpos ≠ 0) (hzj : upper.prop .zpos ≠ 0) :
    lower.zposValue < upper.zposValue := by
  have hlt : j < slots.length := (List.getElem?_eq_some_iff.mp hj).1
  obtain ⟨_, _, -, -, hlower⟩ := hslots.made i lower hi
  obtain ⟨_, _, -, -, hupper⟩ := hslots.made j upper hj
  rw [hlower.zpos hzi, hupper.zpos hzj,
    UInt64.lt_iff_toNat_lt, Nat.zero_add, Nat.zero_add, toNat_place (by omega),
    toNat_place (by omega)]
  omega

end Runs

/-! ### Probing -/

/-- The planes are the lowest the decorations may have; the slots have the ids of the planes'
listed properties and are for the CRTC; each plane shows its decoration of the last committed frame,
and every other property of the device is as the caller's own writes leave it. -/
structure PlanesShow (registry : PlaneRegistry)
    (listing : PlaneId → Except Errc (List ListedProperty)) (cfg : ProbeConfig)
    (slots : List OverlaySlot) (k : Properties) (frames : List PresentedFrame) : Prop where
  overlays : OverlayReservation.PicksLowest ((OverlayReservation.create registry).Eligible registry
    cfg.crtcIndex Scene.drmFormatArgb8888 cfg.planeBaseZpos) cfg.desiredDecorations
    (slots.map (·.planeId))
  room : ∀ refs, (∃ ws, computeWrites slots refs = .ok ws) ↔ refs.length ≤ cfg.desiredDecorations
  made : ∀ (j : ℕ) slot, slots[j]? = some slot → ∃ caps ps,
    registry.capsOf slot.planeId = some caps ∧ listing slot.planeId = .ok ps ∧
      Made slot.planeId cfg.crtcId caps (ps.filterMap (·.info)) cfg.planeBaseZpos j slot
  shows : ∀ refs, lastShown slots frames = some refs → ∀ (j : ℕ) slot, slots[j]? = some slot →
    Shows (run (fun k f => f.commit slots k) k frames) slot refs[j]?
  apart : ∀ key, ¬ OfSlots slots key →
    run (fun k f => f.commit slots k) k frames key =
      run (fun k f => f.commitOwn slots k) k frames key
  stacked : cfg.planeBaseZpos.toNat + cfg.desiredDecorations ≤ 2 ^ 64 →
    ∀ refs, lastShown slots frames = some refs → ∀ (i j : ℕ) lower upper, i < j →
      slots[i]? = some lower → slots[j]? = some upper → Stacks lower refs[i]? →
      Stacks upper refs[j]? →
      run (fun k f => f.commit slots k) k frames (lower.planeId, lower.prop .zpos) <
        run (fun k f => f.commit slots k) k frames (upper.planeId, upper.prop .zpos)

section Probe

variable {registry : PlaneRegistry} {traits : PlaneId → OverlayTraits}
  {listing : PlaneId → Except Errc (List ListedProperty)} {canvas : Except Errc Unit}
  {cfg : ProbeConfig} {slots : List OverlaySlot} {reservation : OverlayReservation}

/-- Without overlays no plane presenter is chosen. -/
theorem choosePresenterTier_zero (desired : ℕ) (hasCanvasPlane : Bool) :
    choosePresenterTier 0 desired hasCanvasPlane ≠ some .plane := by
  have hshort : ¬ (0 < desired ∧ desired ≤ 0) := by omega
  rw [choosePresenterTier, if_neg hshort]
  split_ifs <;> simp

/-- A plane presenter comes with the lowest planes there are, one for each decoration. -/
theorem probe_plane (hok : probePresenter registry traits listing canvas cfg =
    .ok (.plane slots reservation)) :
    ∃ reserved, PlanePresenter.create registry traits listing cfg.crtcId reserved
        cfg.planeBaseZpos = .ok slots ∧
      OverlayReservation.PicksLowest ((OverlayReservation.create registry).Eligible registry
        cfg.crtcIndex Scene.drmFormatArgb8888 cfg.planeBaseZpos) cfg.desiredDecorations
        reserved := by
  unfold probePresenter at hok
  split_ifs at hok with hbad
  have hdesired : cfg.desiredDecorations ≠ 0 := fun h => hbad (.inr h)
  have hlowest := ((OverlayReservation.answers_iff (OverlayReservation.kept_create registry)
    (.reserve cfg.crtcIndex Scene.drmFormatArgb8888 cfg.desiredDecorations
      cfg.planeBaseZpos)).mpr fun hzero => absurd hzero hdesired).2.2
  cases hres : (OverlayReservation.create registry).reserve cfg.crtcIndex Scene.drmFormatArgb8888
      cfg.desiredDecorations cfg.planeBaseZpos with
  | mk kept answer =>
    simp only [hres] at hok hlowest
    generalize htier : choosePresenterTier _ _ _ = tier at hok
    cases tier with
    | none => cases hok
    | some tier =>
      cases tier with
      | plane =>
        obtain ⟨slots', hcreate, hslots⟩ := exists_of_map_ok hok
        cases hslots
        cases answer with
        | error e => exact absurd htier (choosePresenterTier_zero _ _)
        | ok ids => exact ⟨ids, hcreate, (hlowest ids rfl).1⟩
      | composite =>
        obtain ⟨c, -, hc⟩ := exists_of_map_ok hok
        cases hc
      | fb =>
        obtain ⟨c, -, hc⟩ := exists_of_map_ok hok
        cases hc

/-- The lowest planes are different planes. -/
theorem nodup_of_picksLowest {r : OverlayReservation} {crtcIndex count : ℕ} {format : UInt32}
    {minZpos : UInt64} {ids : List PlaneId}
    (h : OverlayReservation.PicksLowest (r.Eligible registry crtcIndex format minZpos) count ids) :
    ids.Nodup ∧ ids.length = count := by
  obtain ⟨chosen, rfl, hlen, hlower, hall, -⟩ := h
  refine ⟨List.pairwise_map.mpr (hlower.imp_of_mem fun {p q} hp hq hpq heq => ?_),
    by rw [List.length_map, hlen]⟩
  have hsame : p = q := PlaneRegistry.eq_of_id_eq
    (PlaneRegistry.mem_forCrtc.mp (hall p hp).ofCrtc).1
    (PlaneRegistry.mem_forCrtc.mp (hall q hq).ofCrtc).1 heq
  subst hsame
  rcases hpq with hlt | ⟨-, hlt⟩
  · exact absurd hlt (UInt64.lt_irrefl _)
  · exact absurd hlt (Nat.lt_irrefl _)

theorem nodup_31_32 : ([31, 32] : List PlaneId).Nodup := by decide

/-- Two overlays of one CRTC, the second with a zpos that can be written. -/
def twoPlanes : PlaneRegistry where
  planes :=
    [{ id := 31, possibleCrtcs := 1, formatTable := [(Scene.drmFormatArgb8888, 0)]
       zposMin := some 1, zposMax := some 1 },
      { id := 32, possibleCrtcs := 1, formatTable := [(Scene.drmFormatArgb8888, 0)]
        zposMin := some 1, zposMax := some 9 }]
  nodupIds := nodup_31_32

/-- The properties of either plane. -/
def planeListing (_ : PlaneId) : Except Errc (List ListedProperty) :=
  .ok [⟨1, 0, some ("FB_ID", 0)⟩, ⟨2, 0, some ("CRTC_ID", 0)⟩, ⟨3, 0, some ("CRTC_X", 0)⟩,
    ⟨4, 0, some ("CRTC_Y", 0)⟩, ⟨5, 0, some ("CRTC_W", 0)⟩, ⟨6, 0, some ("CRTC_H", 0)⟩,
    ⟨7, 0, some ("SRC_X", 0)⟩, ⟨8, 0, some ("SRC_Y", 0)⟩, ⟨9, 0, some ("SRC_W", 0)⟩,
    ⟨10, 0, some ("SRC_H", 0)⟩, ⟨11, 0, some ("zpos", 0)⟩]

theorem identified_planeListing (id : PlaneId) (ps : List ListedProperty)
    (h : planeListing id = .ok ps) : Identified ps := by
  cases h
  exact ⟨by decide, by decide⟩

/-- Two decorations, and then one: the second plane is off again. -/
def twoFrames : List PresentedFrame :=
  [{ refs := [⟨some ⟨90, 64, 32⟩, -4, 0⟩, ⟨some ⟨91, 64, 32⟩, 8, 8⟩] },
    { refs := [⟨some ⟨90, 64, 32⟩, 0, 0⟩], before := [((50, 1), 1)] }]

end Probe

end DrmCxx.Csd
