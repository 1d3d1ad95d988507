import DrmCxx.Csd.FramebufferPresenter
import DrmCxx.Verification.Canvas.ConvertRow
import DrmCxx.Verification.Csd.Composition

/-!
# The framebuffer shows every decoration

A call of the framebuffer presenter composes the damage anew and converts its lines, or changes
nothing at all. Over a run, the memory of the framebuffer holds the last frame in the format of its
pixels, and what lies between the lines and behind them stays as it was mapped.
-/

namespace DrmCxx.Csd

open Lib Lib.ByteView Lib.Neon Lib.Sweep Scene Scene.CompositeCanvas

variable {size : CanvasSize} {damage : DamageRect}

/-! ### Composing the shadow -/

theorem blendItem_ref {ref : SurfaceRef} {s : Surface} (hs : ref.surface = some s)
    (hfits : ref.slot.Fits) (hdamage : damage.Inside size)
    (hne :
      (intersectRect ref.x.toInt ref.y.toInt s.width.toNat s.height.toNat damage).empty = false)
    (shadow : Pixmap) (x y : ℕ) :
    blendItem size damage shadow
        { pixels := s.pixels, stride := s.stride, width := s.width, height := s.height, x := ref.x
          y := ref.y, fourcc := drmFormatArgb8888 } x y =
      if damage.Has x y then ref.over x y (shadow x y) else shadow x y := by
  unfold blendItem
  dsimp only
  rw [if_neg (by simp [hne])]
  exact blendInto_ref hs hfits hdamage rfl hne shadow x y

/-- Either every decoration that overlaps the damage is mapped, and laid over the shadow there, or
one cannot be. -/
theorem mapItems_spec (hdamage : damage.Inside size) {refs : List SurfaceRef}
    (hfits : ∀ ref ∈ refs, ref.slot.Fits) :
    ((∃ items, FramebufferPresenter.mapItems damage refs = .ok items) ↔ MapsAll damage refs) ∧
      ∀ items, FramebufferPresenter.mapItems damage refs = .ok items → ∀ (shadow : Pixmap) x y,
        items.foldl (blendItem size damage) shadow x y =
          if damage.Has x y then blendedOver refs x y (shadow x y) else shadow x y := by
  induction refs with
  | nil =>
    refine ⟨iff_of_true ⟨[], rfl⟩ fun _ hmem => absurd hmem List.not_mem_nil, ?_⟩
    rintro _ ⟨⟩ shadow x y
    exact (ite_self _).symm
  | cons ref refs ih =>
    obtain ⟨hfit, hrefs⟩ := List.forall_mem_cons.mp hfits
    obtain ⟨hmapped, hdrawn⟩ := ih hrefs
    -- a decoration without pixels in the damage is passed over
    have hskip (hmeets : ¬ ref.Meets damage) :
        ((∃ items, FramebufferPresenter.mapItems damage refs = .ok items) ↔
          MapsAll damage (ref :: refs)) ∧
        ∀ items, FramebufferPresenter.mapItems damage refs = .ok items → ∀ (shadow : Pixmap) x y,
          items.foldl (blendItem size damage) shadow x y =
            if damage.Has x y then blendedOver (ref :: refs) x y (shadow x y) else shadow x y := by
      refine ⟨?_, fun items hitems shadow x y => ?_⟩
      · rw [hmapped, mapsAll_cons]
        exact (and_iff_right fun h => absurd h hmeets).symm
      · rw [hdrawn items hitems]
        by_cases hin : damage.Has x y
        · rw [if_pos hin, if_pos hin, blendedOver, blendedOver, List.foldl_cons,
            SurfaceRef.over_of_not_covers (ref.not_covers_of_not_meets hfit hdamage hmeets hin)]
        · rw [if_neg hin, if_neg hin]
    rw [FramebufferPresenter.mapItems]
    cases hs : ref.surface with
    | none => exact hskip (by simp [SurfaceRef.Meets, hs])
    | some s =>
      dsimp only
      cases hempty : (intersectRect ref.x.toInt ref.y.toInt s.width.toNat s.height.toNat
          damage).empty with
      | true => exact hskip (by simp [SurfaceRef.meets_iff hs, hempty])
      | false =>
        have hmeets : ref.Meets damage := (SurfaceRef.meets_iff hs).mpr hempty
        rw [if_neg Bool.false_ne_true]
        cases hmap : ref.mapError with
        | some e =>
          refine ⟨iff_of_false ?_ fun hall => ?_, ?_⟩
          · rintro ⟨_, ⟨⟩⟩
          · simpa [hmap] using hall ref List.mem_cons_self hmeets
          · rintro _ ⟨⟩
        | none =>
          refine ⟨?_, fun items hitems shadow x y => ?_⟩
          · rw [mapsAll_cons, ← hmapped]
            refine Iff.trans ⟨?_, ?_⟩ (and_iff_right fun _ => hmap).symm
            · rintro ⟨_, hitems⟩
              obtain ⟨items, hitems, -⟩ := exists_of_map_ok hitems
              exact ⟨items, hitems⟩
            · rintro ⟨items, hitems⟩
              exact ⟨_, congrArg (Except.map _) hitems⟩
          · obtain ⟨items', hitems', rfl⟩ := exists_of_map_ok hitems
            rw [List.foldl_cons, hdrawn items' hitems', blendItem_ref hs hfit hdamage hempty]
            by_cases hin : damage.Has x y
            · rw [if_pos hin, if_pos hin, if_pos hin]
              rfl
            · rw [if_neg hin, if_neg hin, if_neg hin]

/-! ### Converting lines -/

/-- A line of the shadow lies at the front of its line of the framebuffer. -/
theorem convertLine_eq {stride fourcc : UInt32}
    (hline : size.width * pixelSize fourcc ≤ stride.toNat) (neon : Bool) (shadow : Pixmap)
    (fb : ByteView.Bytes) (row i : ℕ) :
    convertLine neon size stride fourcc shadow fb row i =
      if i / stride.toNat = row ∧ i % stride.toNat < size.width * pixelSize fourcc then
        convertedByte fourcc (fun x => shadow x row) (i % stride.toNat)
      else fb i := by
  have hpos : 0 < size.width * pixelSize fourcc :=
    Nat.mul_pos size.width_pos (pixelSize_pos fourcc)
  have hrewrites := fromPointer_rewrites (row * stride.toNat)
    (fun dst => convertRowInto neon dst (fun x => shadow x row) size.width fourcc) fb
    (convertRowInto_rewrites neon _ (fun x => shadow x row) size.width_lt.le fourcc)
  rw [convertLine, hrewrites i]
  have hdivmod := Nat.div_add_mod' i stride.toNat
  by_cases hin : i / stride.toNat = row ∧ i % stride.toNat < size.width * pixelSize fourcc
  · obtain ⟨rfl, hcol⟩ := hin
    rw [if_pos (by omega), if_pos ⟨rfl, hcol⟩]
    dsimp only
    rw [Nat.sub_eq_of_eq_add' hdivmod.symm]
  · rw [if_neg hin, if_neg]
    rintro ⟨hlo, hhi⟩
    obtain ⟨j, rfl⟩ := Nat.exists_eq_add_of_le hlo
    have hj : j < stride.toNat := by omega
    refine hin ⟨?_, ?_⟩
    · rw [Nat.mul_comm, Nat.mul_add_div (by omega), Nat.div_eq_of_lt hj, Nat.add_zero]
    · rw [Nat.mul_comm, Nat.mul_add_mod, Nat.mod_eq_of_lt hj]
      omega

theorem foldl_convertLine_eq {stride fourcc : UInt32}
    (hline : size.width * pixelSize fourcc ≤ stride.toNat) (neon : Bool) (shadow : Pixmap)
    (rows : List ℕ) (fb : ByteView.Bytes) (i : ℕ) :
    rows.foldl (convertLine neon size stride fourcc shadow) fb i =
      if i / stride.toNat ∈ rows ∧ i % stride.toNat < size.width * pixelSize fourcc then
        convertedByte fourcc (fun x => shadow x (i / stride.toNat)) (i % stride.toNat)
      else fb i := by
  induction rows generalizing fb with
  | nil => simp
  | cons row rows ih =>
    rw [List.foldl_cons, ih, convertLine_eq hline]
    by_cases hcol : i % stride.toNat < size.width * pixelSize fourcc
    · by_cases hrows : i / stride.toNat ∈ rows
      · rw [if_pos ⟨hrows, hcol⟩, if_pos ⟨List.mem_cons_of_mem _ hrows, hcol⟩]
      · by_cases hrow : i / stride.toNat = row
        · rw [if_neg fun h => hrows h.1, if_pos ⟨hrow, hcol⟩, hrow,
            if_pos ⟨List.mem_cons_self, hcol⟩]
        · rw [if_neg fun h => hrows h.1, if_neg fun h => hrow h.1,
            if_neg fun h => (List.mem_cons.mp h.1).elim hrow hrows]
    · rw [if_neg fun h => hcol h.2, if_neg fun h => hcol h.2, if_neg fun h => hcol h.2]

/-- The rectangle has pixels in the line. -/
def DamageRect.HasLine (r : DamageRect) (y : ℕ) : Prop :=
  r.empty = false ∧ r.y ≤ y ∧ (y : ℤ) < r.y + r.h

instance (r : DamageRect) (y : ℕ) : Decidable (r.HasLine y) :=
  inferInstanceAs (Decidable (_ ∧ _ ∧ _))

theorem DamageRect.Has.line {r : DamageRect} {x y : ℕ} (h : r.Has x y) : r.HasLine y := by
  obtain ⟨hx, hx', hy, hy'⟩ := h
  refine ⟨?_, hy, hy'⟩
  simp only [DamageRect.empty, Bool.or_eq_false_iff, decide_eq_false_iff_not]
  omega

theorem convertLines_eq {stride fourcc : UInt32}
    (hline : size.width * pixelSize fourcc ≤ stride.toNat) (hdamage : damage.Inside size)
    (hne : damage.empty = false) (neon : Bool) (shadow : Pixmap) (fb : ByteView.Bytes) (i : ℕ) :
    convertLines neon size stride fourcc damage shadow fb i =
      if damage.HasLine (i / stride.toNat) ∧ i % stride.toNat < size.width * pixelSize fourcc then
        convertedByte fourcc (fun x => shadow x (i / stride.toNat)) (i % stride.toNat)
      else fb i := by
  have hheight := size.height_lt
  have hy := hdamage.y
  have hh := hdamage.h
  have hstart : u32 damage.y = damage.y.toNat := u32_of_fits hy (by omega)
  have hend : u32 (damage.y + damage.h) = (damage.y + damage.h).toNat :=
    u32_of_fits (by omega) (by omega)
  unfold convertLines
  rw [foldl_convertLine_eq hline, hstart, hend]
  refine if_congr (and_congr_left' ?_) rfl rfl
  rw [List.mem_range'_1, DamageRect.HasLine]
  simp only [hne, true_and]
  omega

/-! ### One call -/

/-- What a call that succeeds leaves. -/
structure Blitted (p p' : FramebufferPresenter) (refs : List SurfaceRef) : Prop where
  size : p'.size = p.size
  stride : p'.stride = p.stride
  fourcc : p'.fourcc = p.fourcc
  prevSlots : p'.prevSlots = refs.map (·.slot)
  shadow : ∀ x y, p'.shadow x y =
    if (p.damage refs).Has x y then composition p.size none refs x y else p.shadow x y
  fb : ∀ i, p'.fb i =
    if (p.damage refs).HasLine (i / p.stride.toNat) ∧
        i % p.stride.toNat < p.size.width * pixelSize p.fourcc then
      convertedByte p.fourcc (fun x => p'.shadow x (i / p.stride.toNat)) (i % p.stride.toNat)
    else p.fb i

theorem composeIntoFramebuffer_blitted {p : FramebufferPresenter} {refs : List SurfaceRef}
    (hline : p.size.width * pixelSize p.fourcc ≤ p.stride.toNat)
    (hfits : ∀ ref ∈ refs, ref.slot.Fits) {items : List FbBlitItem} (neon : Bool)
    (hitems : (p.damage refs).empty = false →
      FramebufferPresenter.mapItems (p.damage refs) refs = .ok items) :
    let composed := composeIntoFramebuffer neon p.size p.fb p.stride p.fourcc p.shadow items
      (p.damage refs)
    Blitted p { p with shadow := composed.1, fb := composed.2, prevSlots := refs.map (·.slot) }
      refs := by
  have hdamage : (p.damage refs).Inside p.size := computeDamage_inside _ _
  dsimp only
  unfold composeIntoFramebuffer
  cases hempty : (p.damage refs).empty with
  | true =>
    rw [if_pos rfl]
    refine ⟨rfl, rfl, rfl, rfl, fun x y => ?_, fun i => ?_⟩
    · exact (if_neg (DamageRect.not_has_of_empty hempty x y)).symm
    · refine (if_neg fun h => ?_).symm
      cases hempty.symm.trans h.1.1
  | false =>
    rw [if_neg Bool.false_ne_true]
    refine ⟨rfl, rfl, rfl, rfl, fun x y => ?_, fun i => ?_⟩
    · dsimp only
      rw [composeShadow, (mapItems_spec hdamage hfits).2 items (hitems hempty),
        clearInto_eq _ hdamage]
      by_cases hin : (p.damage refs).Has x y
      · rw [if_pos hin, if_pos hin, if_pos hin]
        rfl
      · rw [if_neg hin, if_neg hin, if_neg hin]
    · exact convertLines_eq hline hdamage hempty neon _ p.fb i

/-- A call succeeds if it can map what it has to paint; else it changes nothing. -/
theorem FramebufferPresenter.apply_spec {p : FramebufferPresenter} {refs : List SurfaceRef}
    (hline : p.size.width * pixelSize p.fourcc ≤ p.stride.toNat)
    (hfits : ∀ ref ∈ refs, ref.slot.Fits) (neon : Bool) :
    ((p.apply neon refs).2 = .ok () ∧ MapsAll (p.damage refs) refs ∧
        Blitted p (p.apply neon refs).1 refs) ∨
      (∃ e, (p.apply neon refs).2 = .error e) ∧ ¬ MapsAll (p.damage refs) refs ∧
        (p.apply neon refs).1 = p := by
  have hdamage : (p.damage refs).Inside p.size := computeDamage_inside _ _
  obtain ⟨hmapped, -⟩ := mapItems_spec hdamage hfits
  unfold FramebufferPresenter.apply
  dsimp only
  cases hempty : (p.damage refs).empty with
  | true =>
    refine .inl ⟨rfl, fun ref href hmeets => ?_, ?_⟩
    · exact absurd hmeets (ref.not_meets_of_empty (hfits ref href) hdamage hempty)
    · exact composeIntoFramebuffer_blitted hline hfits neon fun h => absurd (hempty ▸ h) (by decide)
  | false =>
    rw [if_neg Bool.false_ne_true]
    cases hitems : FramebufferPresenter.mapItems (p.damage refs) refs with
    | error e =>
      refine .inr ⟨⟨e, rfl⟩, fun hall => ?_, rfl⟩
      obtain ⟨items, hok⟩ := hmapped.mpr hall
      rw [hitems] at hok
      cases hok
    | ok items =>
      exact .inl ⟨rfl, hmapped.mp ⟨items, hitems⟩,
        composeIntoFramebuffer_blitted hline hfits neon fun _ => hitems⟩

/-! ### Runs of `apply` -/

/-- A presenter, with the decorations of its last call that succeeded. -/
structure FbTrace where
  presenter : FramebufferPresenter
  base : Option (List SurfaceRef) := none

namespace FbTrace

def step (neon : Bool) (t : FbTrace) (refs : List SurfaceRef) : FbTrace :=
  let applied := t.presenter.apply neon refs
  ⟨applied.1, if applied.2.isOk then some refs else t.base⟩

/-- The edges of all decorations are 32-bit values, and outside of the damage decorations whose
slots look unchanged are unchanged. -/
structure Kept (t : FbTrace) (refs : List SurfaceRef) : Prop where
  fits : ∀ ref ∈ refs, ref.slot.Fits
  told : PresenterTrace.Told t.presenter.size (t.presenter.damage refs) (t.base.getD []) refs

instance (t : FbTrace) (refs : List SurfaceRef) : Decidable (t.Kept refs) :=
  decidable_of_iff (_ ∧ _) ⟨fun ⟨hfits, htold⟩ => ⟨hfits, htold⟩,
    fun ⟨hfits, htold⟩ => ⟨hfits, htold⟩⟩

/-- The byte belongs to a pixel of a line. -/
def Visible (init : FramebufferPresenter) (i : ℕ) : Prop :=
  i / init.stride.toNat < init.size.height ∧
    i % init.stride.toNat < init.size.width * pixelSize init.fourcc

/-- A call that succeeds leaves the decorations blended in list order in the framebuffer, pixel by
pixel in its format; one that fails, because a damaged decoration cannot be mapped, leaves all as it
was. No call touches a byte of the memory that belongs to no pixel. -/
structure Sound (neon : Bool) (init : FramebufferPresenter) (t : FbTrace) (refs : List SurfaceRef) :
    Prop where
  failed : ∀ e, (t.presenter.apply neon refs).2 = .error e → (t.step neon refs) = t ∧
    ∃ ref ∈ refs, ref.Meets (t.presenter.damage refs) ∧ ref.mapError.isSome
  shown : (t.presenter.apply neon refs).2 = .ok () →
    ∀ x < init.size.width, ∀ y < init.size.height, ∀ c < pixelSize init.fourcc,
      (t.step neon refs).presenter.fb
          (y * init.stride.toNat + (x * pixelSize init.fourcc + c)) =
        byte (convertPixel init.fourcc (composition init.size none refs x y)) (Fin.ofNat 4 c)
  rest : ∀ i, ¬ Visible init i → (t.step neon refs).presenter.fb i = init.fb i

structure Inv (init : FramebufferPresenter) (t : FbTrace) : Prop where
  size : t.presenter.size = init.size
  stride : t.presenter.stride = init.stride
  fourcc : t.presenter.fourcc = init.fourcc
  prevSlots : t.presenter.prevSlots = (t.base.getD []).map (·.slot)
  fits : ∀ ref ∈ t.base.getD [], ref.slot.Fits
  shadow : ∀ refs ∈ t.base, ∀ x < init.size.width, ∀ y < init.size.height,
    t.presenter.shadow x y = composition init.size none refs x y
  lines : t.base.isSome → ∀ i, Visible init i → t.presenter.fb i =
    convertedByte init.fourcc (fun x => t.presenter.shadow x (i / init.stride.toNat))
      (i % init.stride.toNat)
  rest : ∀ i, ¬ Visible init i → t.presenter.fb i = init.fb i

variable {neon : Bool} {init : FramebufferPresenter} {t : FbTrace} {refs : List SurfaceRef}

/-- Once something was shown, what the damage leaves out is shown already. -/
theorem Inv.shows (h : t.Inv init) (hkept : t.Kept refs) {p : FramebufferPresenter}
    (hblit : Blitted t.presenter p refs) :
    ∀ x < init.size.width, ∀ y < init.size.height,
      p.shadow x y = composition init.size none refs x y := by
  intro x hx y hy
  obtain ⟨hfits, htold⟩ := hkept
  rw [hblit.shadow, h.size]
  by_cases hin : (t.presenter.damage refs).Has x y
  · rw [if_pos hin]
  · rw [if_neg hin]
    have hout : ¬ (computeDamage init.size ((t.base.getD []).map (·.slot))
        (refs.map (·.slot))).Has x y := by
      rwa [← h.size, ← h.prevSlots]
    obtain ⟨base, hbase⟩ : ∃ base, t.base = some base := by
      refine Option.ne_none_iff_exists'.mp fun hnone => hout ?_
      exact computeDamage_whole (.inr (by rw [hnone]; rfl)) hx hy
    rw [h.shadow base hbase x hx y hy]
    rw [hbase, Option.getD_some] at hout htold
    refine composition_of_undamaged hx hy (by simpa [hbase] using h.fits) hfits hout ?_ none
    intro ab hab hsame hcovers
    exact htold ab hab hsame x (h.size ▸ hx) y (h.size ▸ hy) hin hcovers

/-- The lines the damage leaves out are converted already. -/
theorem Inv.converted (h : t.Inv init) {p : FramebufferPresenter}
    (hblit : Blitted t.presenter p refs) {i : ℕ} (hi : Visible init i) :
    p.fb i = convertedByte init.fourcc (fun x => p.shadow x (i / init.stride.toNat))
      (i % init.stride.toNat) := by
  obtain ⟨hrow, hcol⟩ := hi
  rw [hblit.fb, h.stride, h.size, h.fourcc]
  by_cases hline : (t.presenter.damage refs).HasLine (i / init.stride.toNat)
  · rw [if_pos ⟨hline, hcol⟩]
  · have hsome : t.base.isSome := by
      refine Option.isSome_iff_ne_none.mpr fun hnone => hline ?_
      have hprev : t.presenter.prevSlots = [] := by rw [h.prevSlots, hnone]; rfl
      exact (computeDamage_whole (.inr hprev) t.presenter.size.width_pos
        (by rw [h.size]; exact hrow)).line
    have hsame : (fun x => p.shadow x (i / init.stride.toNat)) =
        fun x => t.presenter.shadow x (i / init.stride.toNat) := by
      funext x
      rw [hblit.shadow, if_neg fun hhas => hline hhas.line]
    rw [if_neg fun hin => hline hin.1, hsame, h.lines hsome i ⟨hrow, hcol⟩]

/-- The presenter after a call that succeeds. -/
theorem Inv.blitted (h : t.Inv init) (hkept : t.Kept refs) {p : FramebufferPresenter}
    (hblit : Blitted t.presenter p refs) : Inv init ⟨p, some refs⟩ where
  size := hblit.size.trans h.size
  stride := hblit.stride.trans h.stride
  fourcc := hblit.fourcc.trans h.fourcc
  prevSlots := hblit.prevSlots
  fits := hkept.fits
  shadow := by
    rintro _ ⟨⟩
    exact h.shows hkept hblit
  lines := fun _ _ hi => h.converted hblit hi
  rest := by
    intro i hi
    dsimp only
    rw [hblit.fb, h.stride, h.size, h.fourcc, if_neg, h.rest i hi]
    rintro ⟨⟨-, hy, hy'⟩, hcol⟩
    have hinside : (t.presenter.damage refs).Inside t.presenter.size := computeDamage_inside _ _
    have hheight := hinside.h
    rw [h.size] at hheight
    exact hi ⟨by omega, hcol⟩

/-- Where the bytes of a pixel lie. -/
theorem visible_pixel (hline : init.size.width * pixelSize init.fourcc ≤ init.stride.toNat)
    {x y c : ℕ} (hx : x < init.size.width) (hy : y < init.size.height)
    (hc : c < pixelSize init.fourcc) :
    let i := y * init.stride.toNat + (x * pixelSize init.fourcc + c)
    Visible init i ∧ i / init.stride.toNat = y ∧
      i % init.stride.toNat = x * pixelSize init.fourcc + c := by
  have hcol := pixel_byte_lt hx hc
  have hlt := hcol.trans_le hline
  have hdiv :
      (y * init.stride.toNat + (x * pixelSize init.fourcc + c)) / init.stride.toNat = y := by
    rw [Nat.mul_comm y, Nat.mul_add_div (by omega), Nat.div_eq_of_lt hlt, Nat.add_zero]
  have hmod : (y * init.stride.toNat + (x * pixelSize init.fourcc + c)) % init.stride.toNat =
      x * pixelSize init.fourcc + c := by
    rw [Nat.mul_comm y, Nat.mul_add_mod, Nat.mod_eq_of_lt hlt]
  exact ⟨⟨hdiv.trans_lt hy, hmod.trans_lt hcol⟩, hdiv, hmod⟩

theorem Inv.pixel (h : t.Inv init)
    (hline : init.size.width * pixelSize init.fourcc ≤ init.stride.toNat)
    (hbase : t.base = some refs)
    {x y c : ℕ} (hx : x < init.size.width) (hy : y < init.size.height)
    (hc : c < pixelSize init.fourcc) :
    t.presenter.fb (y * init.stride.toNat + (x * pixelSize init.fourcc + c)) =
      byte (convertPixel init.fourcc (composition init.size none refs x y)) (Fin.ofNat 4 c) := by
  obtain ⟨hvisible, hrow, hcol⟩ := visible_pixel hline hx hy hc
  rw [h.lines (by rw [hbase]; rfl) _ hvisible, hrow, hcol, convertedByte_pixel _ x hc,
    h.shadow refs hbase x hx y hy]

/-- What one call does to a trace. -/
theorem Inv.step_cases (h : t.Inv init)
    (hline : init.size.width * pixelSize init.fourcc ≤ init.stride.toNat) (hkept : t.Kept refs) :
    ((t.presenter.apply neon refs).2 = .ok () ∧ (t.step neon refs).base = some refs ∧
        (t.step neon refs).Inv init) ∨
      (∃ e, (t.presenter.apply neon refs).2 = .error e) ∧ t.step neon refs = t ∧
        ¬ MapsAll (t.presenter.damage refs) refs := by
  have hline' : t.presenter.size.width * pixelSize t.presenter.fourcc ≤
      t.presenter.stride.toNat := by
    rw [h.size, h.stride, h.fourcc]
    exact hline
  unfold step
  rcases FramebufferPresenter.apply_spec hline' hkept.fits neon with
    ⟨hok, -, hblit⟩ | ⟨⟨e, herror⟩, hunmapped, hsame⟩
  · refine .inl ⟨hok, ?_⟩
    dsimp only
    rw [hok]
    exact ⟨rfl, h.blitted hkept hblit⟩
  · refine .inr ⟨⟨e, herror⟩, ?_, hunmapped⟩
    dsimp only
    rw [herror, hsame]
    rfl

theorem Inv.step (h : t.Inv init)
    (hline : init.size.width * pixelSize init.fourcc ≤ init.stride.toNat) (hkept : t.Kept refs) :
    (t.step neon refs).Inv init := by
  rcases h.step_cases hline hkept with ⟨-, -, hinv⟩ | ⟨-, hsame, -⟩
  · exact hinv
  · rw [hsame]
    exact h

theorem Inv.sound (h : t.Inv init)
    (hline : init.size.width * pixelSize init.fourcc ≤ init.stride.toNat) (hkept : t.Kept refs) :
    t.Sound neon init refs := by
  rcases h.step_cases hline hkept with ⟨hok, hbase, hinv⟩ | ⟨⟨e, herror⟩, hsame, hunmapped⟩
  · refine ⟨fun e herror => ?_, fun _ x hx y hy c hc => hinv.pixel hline hbase hx hy hc, hinv.rest⟩
    rw [hok] at herror
    cases herror
  · refine ⟨fun _ _ => ⟨hsame, ?_⟩, fun hok => ?_, ?_⟩
    · simpa [MapsAll, Option.isSome_iff_ne_none] using hunmapped
    · rw [herror] at hok
      cases hok
    · rw [hsame]
      exact h.rest

end FbTrace

/-! ### Presenters that were opened -/

/-- The format's pixels are as large as the framebuffer's. -/
theorem pixelSize_of_fbFourccFor {bpp redOffset blueOffset transpLength fourcc : UInt32}
    (h : fbFourccFor bpp redOffset blueOffset transpLength = some fourcc) :
    bpp.toNat = 8 * pixelSize fourcc := by
  unfold fbFourccFor at h
  split at h
  · rename_i hbpp
    subst hbpp
    have hfour : ∀ f ∈ [drmFormatArgb8888, drmFormatXrgb8888, drmFormatAbgr8888, drmFormatXbgr8888],
        pixelSize f = 4 := by
      simp only [List.forall_mem_cons]
      exact ⟨rfl, rfl, rfl, rfl, List.forall_mem_nil _⟩
    rw [hfour fourcc]
    · rfl
    · dsimp only at h
      split at h <;> split at h <;> cases h <;> decide
  · split at h
    · rename_i hbpp
      subst hbpp
      have htwo : ∀ f ∈ [drmFormatRgb565, drmFormatBgr565], pixelSize f = 2 := by
        simp only [List.forall_mem_cons]
        exact ⟨rfl, rfl, List.forall_mem_nil _⟩
      rw [htwo fourcc]
      · rfl
      · split at h <;> cases h <;> decide
    · cases h

namespace FramebufferPresenter

theorem create_spec {opened : Option Errc} {info : Option FbScreeninfo}
    {mapped : Option ByteView.Bytes}
    {p : FramebufferPresenter} (h : create opened info mapped = .ok p) :
    p.size.width * pixelSize p.fourcc ≤ p.stride.toNat ∧ p.prevSlots = [] := by
  unfold create at h
  cases opened with
  | some errno => cases h
  | none =>
    cases info with
    | none => cases h
    | some info =>
      dsimp only at h
      cases hfourcc : fbFourccFor info.bitsPerPixel info.redOffset info.blueOffset
          info.transpLength with
      | none =>
        rw [hfourcc] at h
        cases h
      | some fourcc =>
        rw [hfourcc] at h
        cases mapped with
        | none => cases h
        | some fb =>
          cases h
          refine ⟨?_, rfl⟩
          have hline := info.line_ok
          rw [pixelSize_of_fbFourccFor hfourcc, Nat.mul_left_comm] at hline
          exact Nat.le_of_mul_le_mul_left hline (by decide)

end FramebufferPresenter

/-- A 16-bit framebuffer whose lines are padded. -/
def paddedFb : FbScreeninfo where
  size := smallCanvas
  bitsPerPixel := 16
  redOffset := 11
  blueOffset := 0
  transpLength := 0
  lineLength := 16
  line_ok := by decide

def paddedPresenter : FramebufferPresenter where
  size := smallCanvas
  fb := fun _ => 7
  stride := 16
  fourcc := drmFormatRgb565

theorem create_padded :
    FramebufferPresenter.create none (some paddedFb) (some fun _ => 7) = .ok paddedPresenter := by
  have hfourcc : fbFourccFor 16 11 0 0 = some drmFormatRgb565 := by decide
  rw [FramebufferPresenter.create]
  simp only [paddedFb, hfourcc]
  rfl

end DrmCxx.Csd
