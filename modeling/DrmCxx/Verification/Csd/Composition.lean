import DrmCxx.Lib.Run
import DrmCxx.Verification.Csd.Painting

/-!
# The armed buffer shows every decoration

Only the damage of this frame and of the last is painted again. Where decorations whose slots look
unchanged are unchanged, and what a failed call cleared is painted again, the rest of the shadow
still shows what the frame composes to, and so does the buffer it is copied to.
-/

namespace DrmCxx.Csd

open Lib Scene Scene.CompositeCanvas

variable {size : CanvasSize}

/-! ### Slots that look unchanged -/

theorem covers_of_unchanged {p c : DamageSlot} (h : slotChanged p c = false) (x y : ℕ) :
    p.Covers x y ↔ c.Covers x y := by
  unfold DamageSlot.Covers
  cases hc : c.armed <;> simp_all [slotChanged]

/-- Decorations that agree on a pixel make the same pixel of what is under them. -/
theorem blendedOver_congr {x y : ℕ} {base refs : List SurfaceRef}
    (h : List.Forall₂
      (fun a b : SurfaceRef => ∀ under, a.over x y under = b.over x y under) base refs)
    (under : UInt32) : blendedOver base x y under = blendedOver refs x y under := by
  induction h generalizing under with
  | nil => rfl
  | cons hab _ ih =>
    simp only [blendedOver, List.foldl_cons, hab] at ih ⊢
    exact ih _

/-- Outside the damage, a frame composes to what the one before it did. -/
theorem composition_of_undamaged {base refs : List SurfaceRef} {x y : ℕ} (hx : x < size.width)
    (hy : y < size.height) (hbase : ∀ ref ∈ base, ref.slot.Fits)
    (hrefs : ∀ ref ∈ refs, ref.slot.Fits)
    (hout : ¬ (computeDamage size (base.map (·.slot)) (refs.map (·.slot))).Has x y)
    (hsame : ∀ ab ∈ base.zip refs, slotChanged ab.1.slot ab.2.slot = false →
      ab.2.slot.Covers x y → ab.1.pixelAt x y = ab.2.pixelAt x y)
    (background : Option (ℕ → UInt32)) :
    composition size background base x y = composition size background refs x y := by
  have hlength : base.length = refs.length := by
    by_contra hne
    exact hout (computeDamage_whole (.inl (by simpa using hne)) hx hy)
  refine blendedOver_congr (List.forall₂_iff_zip.mpr ⟨hlength, fun {a b} hab under => ?_⟩) _
  have hslots : (a.slot, b.slot) ∈ (base.map (·.slot)).zip (refs.map (·.slot)) := by
    rw [List.zip_map]
    exact List.mem_map_of_mem hab
  cases hchanged : slotChanged a.slot b.slot with
  | true =>
    have hnot : ¬ (a.slot.Covers x y ∨ b.slot.Covers x y) := fun hcovers =>
      hout (computeDamage_has (List.forall_mem_map.mpr hbase) (List.forall_mem_map.mpr hrefs) hslots
        hchanged hx hy hcovers)
    rw [SurfaceRef.over_of_not_covers (hnot <| .inl ·),
      SurfaceRef.over_of_not_covers (hnot <| .inr ·)]
  | false =>
    unfold SurfaceRef.over
    by_cases hcovers : b.slot.Covers x y
    · rw [if_pos hcovers, if_pos ((covers_of_unchanged hchanged x y).mpr hcovers),
        hsame (a, b) hab hchanged hcovers]
    · rw [if_neg hcovers, if_neg fun ha => hcovers ((covers_of_unchanged hchanged x y).mp ha)]

/-! ### Runs of `apply` -/

/-- One call of `apply`: the decorations as they are then, and an error of `add_property`. -/
structure PresenterCall where
  refs : List SurfaceRef
  addError : Option Errc := none

structure PresenterTrace where
  presenter : CompositePresenter
  /-- The decorations of the last call that painted all it had to. -/
  base : List SurfaceRef := []
  /-- The regions that the calls that failed since then cleared. -/
  stale : List DamageRect := []

namespace PresenterTrace

def region (size : CanvasSize) (t : PresenterTrace) (e : PresenterCall) : DamageRect :=
  t.presenter.region size e.refs

def step (size : CanvasSize) (t : PresenterTrace) (e : PresenterCall) : PresenterTrace :=
  let presenter := (t.presenter.apply size e.refs e.addError).1
  match (t.presenter.paintRegion size (t.region size e) e.refs).2 with
  | some _ => { t with presenter, stale := t.region size e :: t.stale }
  | none => { presenter, base := e.refs, stale := [] }

/-- The region has the pixels of the stale regions. -/
def Repaints (size : CanvasSize) (region : DamageRect) (stale : List DamageRect) : Prop :=
  ∀ r ∈ stale, ∀ x < size.width, ∀ y < size.height, r.Has x y → region.Has x y

/-- Outside the region, decorations whose slots look unchanged are unchanged. -/
def Told (size : CanvasSize) (region : DamageRect) (base refs : List SurfaceRef) : Prop :=
  ∀ ab ∈ base.zip refs, slotChanged ab.1.slot ab.2.slot = false → ∀ x < size.width,
    ∀ y < size.height, ¬ region.Has x y → ab.2.slot.Covers x y → ab.1.pixelAt x y = ab.2.pixelAt x y

instance (size : CanvasSize) (region : DamageRect) (stale : List DamageRect) :
    Decidable (Repaints size region stale) := inferInstanceAs (Decidable (∀ _ ∈ _, _))

instance (size : CanvasSize) (region : DamageRect) (base refs : List SurfaceRef) :
    Decidable (Told size region base refs) := inferInstanceAs (Decidable (∀ _ ∈ _, _))

/-- The edges of all decorations are 32-bit values. A call that can map all decorations it paints
paints again what failed calls cleared, and where equal slots hide a difference. -/
structure Kept (size : CanvasSize) (t : PresenterTrace) (e : PresenterCall) : Prop where
  fits : ∀ ref ∈ e.refs, ref.slot.Fits
  repaints : MapsAll (t.region size e) e.refs → Repaints size (t.region size e) t.stale
  told : MapsAll (t.region size e) e.refs → Told size (t.region size e) t.base e.refs

instance (size : CanvasSize) (t : PresenterTrace) (e : PresenterCall) : Decidable (t.Kept size e) :=
  decidable_of_iff (_ ∧ _ ∧ _) ⟨fun ⟨hfits, hrepaints, htold⟩ => ⟨hfits, hrepaints, htold⟩,
    fun ⟨hfits, hrepaints, htold⟩ => ⟨hfits, hrepaints, htold⟩⟩

/-- A call that succeeds arms a buffer of the canvas that shows the backdrop with all decorations
of the call blended over it. -/
def Sound (size : CanvasSize) (init : CompositePresenter) (t : PresenterTrace) (e : PresenterCall) :
    Prop :=
  ∀ writes, (t.presenter.apply size e.refs e.addError).2 = .ok writes →
    ∃ i buf, writes = computeCanvasWrites init.slot (init.fbIds i) size ∧
      (t.step size e).presenter.canvas.buffers i = some buf ∧
      ∀ x < size.width, ∀ y < size.height, buf x y =
        convertPixel init.canvas.outputFourcc (composition size init.background e.refs x y)

/-- What `create` fixed. -/
structure SameConfig (init p : CompositePresenter) : Prop where
  slot : p.slot = init.slot
  fbIds : p.fbIds = init.fbIds
  background : p.background = init.background
  outputFourcc : p.canvas.outputFourcc = init.canvas.outputFourcc

structure Inv (size : CanvasSize) (init : CompositePresenter) (t : PresenterTrace) : Prop where
  config : SameConfig init t.presenter
  canvas : CanvasKept size t.presenter.canvas
  prevSlots : t.presenter.prevSlots = t.base.map (·.slot)
  prevDamage : t.presenter.prevDamage.Inside size
  fits : ∀ ref ∈ t.base, ref.slot.Fits
  shown : t.base ≠ [] → ∀ x < size.width, ∀ y < size.height, (∀ r ∈ t.stale, ¬ r.Has x y) →
    t.presenter.canvas.shadowPixels x y = composition size init.background t.base x y

theorem Inv.region_spec {init : CompositePresenter} {t : PresenterTrace} (h : t.Inv size init)
    (e : PresenterCall) : (t.region size e).Inside size ∧
      ∀ x y, (t.presenter.damage size e.refs).Has x y → (t.region size e).Has x y := by
  obtain ⟨hinside, hhas⟩ := unionRect_spec (computeDamage_inside t.presenter.prevSlots
    (e.refs.map (·.slot))) h.prevDamage
  exact ⟨hinside, fun x y hdamage => hhas x y (.inl hdamage)⟩

/-- Once all is painted, the whole shadow shows the call's decorations. -/
theorem Inv.painted {init : CompositePresenter} {t : PresenterTrace} (h : t.Inv size init)
    {e : PresenterCall} (hkept : t.Kept size e)
    (hnone : (t.presenter.paintRegion size (t.region size e) e.refs).2 = none) :
    ∀ x < size.width, ∀ y < size.height,
      (t.presenter.paintRegion size (t.region size e) e.refs).1.shadowPixels x y =
        composition size init.background e.refs x y := by
  obtain ⟨hregion, hdamage⟩ := h.region_spec e
  obtain ⟨-, -, hmapped, hframe, hdrawn⟩ := paintRegion_spec h.canvas hregion hkept.fits
  have hmaps := hmapped.mp hnone
  intro x hx y hy
  by_cases hin : (t.region size e).Has x y
  · rw [hdrawn hnone x hx y hy hin, h.config.background]
  · have hout : ¬ (computeDamage size (t.base.map (·.slot)) (e.refs.map (·.slot))).Has x y :=
      fun hhas => hin (hdamage x y (by rwa [CompositePresenter.damage, h.prevSlots]))
    have hbase : t.base ≠ [] := fun hnil =>
      hout (computeDamage_whole (.inr (by rw [hnil]; rfl)) hx hy)
    have hfresh : ∀ r ∈ t.stale, ¬ r.Has x y := fun r hr hhas =>
      hin (hkept.repaints hmaps r hr x hx y hy hhas)
    rw [hframe x hx y hy hin, h.shown hbase x hx y hy hfresh]
    exact composition_of_undamaged hx hy h.fits hkept.fits hout
      (fun ab hab hsame hcovers => hkept.told hmaps ab hab hsame x hx y hy hin hcovers) _

theorem step_failed {t : PresenterTrace} {e : PresenterCall} {err : Errc}
    (hq : (t.presenter.paintRegion size (t.region size e) e.refs).2 = some err) :
    (t.presenter.apply size e.refs e.addError).2 = .error err ∧ t.step size e =
      { presenter := { t.presenter with
          canvas := (t.presenter.paintRegion size (t.region size e) e.refs).1 }
        base := t.base
        stale := t.region size e :: t.stale } := by
  unfold region at hq ⊢
  unfold step CompositePresenter.apply region
  generalize t.presenter.paintRegion size (t.presenter.region size e.refs) e.refs = q at hq ⊢
  obtain ⟨canvas, error⟩ := q
  cases hq
  exact ⟨rfl, rfl⟩

theorem step_painted {t : PresenterTrace} {e : PresenterCall}
    (hq : (t.presenter.paintRegion size (t.region size e) e.refs).2 = none) :
    let canvas := (t.presenter.paintRegion size (t.region size e) e.refs).1.flush size
    (∀ writes, (t.presenter.apply size e.refs e.addError).2 = .ok writes →
      writes = computeCanvasWrites t.presenter.slot (t.presenter.fbIds canvas.backIndex) size) ∧
    t.step size e =
      { presenter := { t.presenter with
          canvas
          prevSlots := e.refs.map (·.slot)
          prevDamage := t.presenter.damage size e.refs }
        base := e.refs } := by
  unfold region at hq ⊢
  unfold step CompositePresenter.apply region
  generalize t.presenter.paintRegion size (t.presenter.region size e.refs) e.refs = q at hq ⊢
  obtain ⟨canvas, error⟩ := q
  cases hq
  cases e.addError with
  | none => exact ⟨fun writes h => (Except.ok.inj h).symm, rfl⟩
  | some err => exact ⟨nofun, rfl⟩

theorem Inv.step {init : CompositePresenter} {t : PresenterTrace} (h : t.Inv size init)
    {e : PresenterCall} (hkept : t.Kept size e) : (t.step size e).Inv size init := by
  obtain ⟨hregion, -⟩ := h.region_spec e
  obtain ⟨hcanvas, hfourcc, -, hframe, -⟩ := paintRegion_spec h.canvas hregion hkept.fits
  have hfourcc' := hfourcc.trans h.config.outputFourcc
  cases hq : (t.presenter.paintRegion size (t.region size e) e.refs).2 with
  | some err =>
    rw [(step_failed hq).2]
    refine ⟨⟨h.config.slot, h.config.fbIds, h.config.background, hfourcc'⟩, hcanvas, h.prevSlots,
      h.prevDamage, h.fits, fun hbase x hx y hy hfresh => ?_⟩
    obtain ⟨hout, hfresh⟩ := List.forall_mem_cons.mp hfresh
    exact (hframe x hx y hy hout).trans (h.shown hbase x hx y hy hfresh)
  | none =>
    rw [(step_painted hq).2]
    obtain ⟨hflushed, hsame, hshadow, -⟩ := hcanvas.flush
    refine ⟨⟨h.config.slot, h.config.fbIds, h.config.background, hsame.outputFourcc.trans hfourcc'⟩,
      hflushed, rfl, computeDamage_inside _ _, hkept.fits, fun _ x hx y hy _ => ?_⟩
    exact (congrFun (congrFun hshadow x) y).trans (h.painted hkept hq x hx y hy)

theorem Inv.sound {init : CompositePresenter} {t : PresenterTrace} (h : t.Inv size init)
    {e : PresenterCall} (hkept : t.Kept size e) : t.Sound size init e := by
  intro writes hok
  obtain ⟨hregion, -⟩ := h.region_spec e
  obtain ⟨hcanvas, hfourcc, -⟩ := paintRegion_spec h.canvas hregion hkept.fits
  cases hq : (t.presenter.paintRegion size (t.region size e) e.refs).2 with
  | some err =>
    rw [(step_failed hq).1] at hok
    cases hok
  | none =>
    obtain ⟨hwrites, hstep⟩ := step_painted hq
    obtain ⟨-, hsame, -, buf, hbuf, hpixels⟩ := hcanvas.flush
    refine ⟨(t.presenter.paintRegion size (t.region size e) e.refs).1.backIndex, buf, ?_, ?_,
      fun x hx y hy => ?_⟩
    · rw [hwrites writes hok, hsame.backIndex, h.config.slot, h.config.fbIds]
    · rw [hstep]
      exact hbuf
    · rw [hpixels x hx y hy, hfourcc, h.config.outputFourcc, h.painted hkept hq x hx y hy]

theorem inv_created (slot : PlaneSlot) (outputFourcc : UInt32) (fbIds : Fin 2 → UInt32)
    (background : Option (ℕ → UInt32)) :
    Inv size (.created slot outputFourcc fbIds background)
      { presenter := .created slot outputFourcc fbIds background } :=
  ⟨⟨rfl, rfl, rfl, rfl⟩, canvasKept_created outputFourcc, rfl, DamageRect.inside_default size,
    fun _ hmem => absurd hmem List.not_mem_nil, fun hne => absurd rfl hne⟩

/-- One pixel. -/
def tile (color : UInt32) : Surface where
  width := 1
  height := 1
  stride := 4
  contentGeneration := 1
  pixels := { word := fun _ => color, size := 4 }
  stride_ok := le_refl _
  size_ok := le_refl _
  aligned := rfl

/-- A presenter over a black backdrop. -/
def overBlack : CompositePresenter :=
  .created ⟨30, 40, 1, 2, 3, 4, 5, 6, 7, 8, 9, 10⟩ drmFormatArgb8888
    (fun i => if i = 0 then 50 else 51)
    (some fun _ => 0xFF000000)

def redAt (x : Int32) (mapError : Option Errc := none) : SurfaceRef :=
  ⟨some (tile 0xFFFF0000), x, 0, mapError⟩

def blueAt (x : Int32) : SurfaceRef := ⟨some (tile 0xFF0000FF), x, 0, none⟩

/-- A buffer whose first pixel is wrong. -/
theorem not_sound_of_pixel {init : CompositePresenter} {t : PresenterTrace} {e : PresenterCall}
    (writes : List PropertyWrite)
    (hok : (t.presenter.apply size e.refs e.addError).2 = .ok writes)
    (hpixel : ∀ i, writes = computeCanvasWrites init.slot (init.fbIds i) size →
      ((t.step size e).presenter.canvas.buffers i).map (· 0 0) ≠
        some (convertPixel init.canvas.outputFourcc
          (composition size init.background e.refs 0 0))) : ¬ t.Sound size init e := by
  intro h
  obtain ⟨i, buf, hwrites, hbuf, hshown⟩ := h writes hok
  refine hpixel i hwrites ?_
  rw [hbuf, Option.map_some, hshown 0 size.width_pos 0 size.height_pos]

end PresenterTrace

end DrmCxx.Csd
