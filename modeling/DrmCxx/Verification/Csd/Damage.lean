import DrmCxx.Csd.Damage
import DrmCxx.Verification.Canvas.Clipping

/-!
# Damage covers what changed

While no edge leaves 32 bits, the damage of a frame has every pixel of the canvas that a changed
slot covered or covers.
-/

namespace DrmCxx.Csd

open Scene

/-! ### Rectangles on the canvas -/

namespace DamageRect

structure Inside (size : CanvasSize) (r : DamageRect) : Prop where
  x : 0 ≤ r.x
  y : 0 ≤ r.y
  w : r.x + r.w ≤ size.width
  h : r.y + r.h ≤ size.height

theorem inside_default (size : CanvasSize) : Inside size {} :=
  ⟨le_refl _, le_refl _, Int.natCast_nonneg _, Int.natCast_nonneg _⟩

theorem not_has_of_empty {r : DamageRect} (hr : r.empty = true) (x y : ℕ) : ¬ r.Has x y := by
  simp only [empty, Bool.or_eq_true, decide_eq_true_eq] at hr
  unfold Has
  omega

end DamageRect

/-- The edges of the rectangle are 32-bit values. -/
structure EdgesFit (x y : ℤ) (w h : ℕ) : Prop where
  x : -2 ^ 31 ≤ x ∧ x + w < 2 ^ 31
  y : -2 ^ 31 ≤ y ∧ y + h < 2 ^ 31
  w : w < 2 ^ 31
  h : h < 2 ^ 31

instance (x y : ℤ) (w h : ℕ) : Decidable (EdgesFit x y w h) :=
  decidable_of_iff (_ ∧ _ ∧ _ ∧ _) ⟨fun ⟨hx, hy, hw, hh⟩ => ⟨hx, hy, hw, hh⟩,
    fun ⟨hx, hy, hw, hh⟩ => ⟨hx, hy, hw, hh⟩⟩

theorem farEdge_of_fits {pos : ℤ} {extent : ℕ} (hlo : -2 ^ 31 ≤ pos) (hhi : pos + extent < 2 ^ 31)
    (hextent : extent < 2 ^ 31) : farEdge pos extent = pos + extent := by
  rw [farEdge, i32_of_fits (z := extent) (by omega) (by omega), i32_of_fits (by omega) hhi]

section

variable {size : CanvasSize}

theorem DamageRect.Inside.edgesFit {r : DamageRect} (h : r.Inside size) :
    EdgesFit r.x r.y r.w r.h := by
  obtain ⟨hx, hy, hw, hh⟩ := h
  have hwidth := size.width_lt
  have hheight := size.height_lt
  exact ⟨by omega, by omega, by omega, by omega⟩

/-- Corners from the origin on make a rectangle that ends where they do. -/
theorem rectBetween_has {x0 y0 x1 y1 : ℤ} (hx0 : 0 ≤ x0) (hy0 : 0 ≤ y0) (hx1 : x1 < 2 ^ 31)
    (hy1 : y1 < 2 ^ 31) (x y : ℕ) :
    (rectBetween x0 y0 x1 y1).Has x y ↔ x0 ≤ x ∧ (x : ℤ) < x1 ∧ y0 ≤ y ∧ (y : ℤ) < y1 := by
  unfold rectBetween DamageRect.Has
  split
  · dsimp only
    omega
  · rw [i32_of_fits (z := x1 - x0) (by omega) (by omega), u32_of_fits (by omega) (by omega),
      i32_of_fits (z := y1 - y0) (by omega) (by omega), u32_of_fits (by omega) (by omega)]
    dsimp only
    omega

/-- Corners on the canvas make a rectangle on the canvas. -/
theorem rectBetween_spec {x0 y0 x1 y1 : ℤ} (hx0 : 0 ≤ x0) (hy0 : 0 ≤ y0)
    (hx1 : x1 ≤ size.width) (hy1 : y1 ≤ size.height) :
    (rectBetween x0 y0 x1 y1).Inside size ∧ ∀ x y : ℕ, (rectBetween x0 y0 x1 y1).Has x y ↔
      x0 ≤ x ∧ (x : ℤ) < x1 ∧ y0 ≤ y ∧ (y : ℤ) < y1 := by
  have hwidth := size.width_lt
  have hheight := size.height_lt
  refine ⟨?_, rectBetween_has hx0 hy0 (by omega) (by omega)⟩
  unfold rectBetween
  split
  · exact DamageRect.inside_default size
  · rw [i32_of_fits (z := x1 - x0) (by omega) (by omega), u32_of_fits (by omega) (by omega),
      i32_of_fits (z := y1 - y0) (by omega) (by omega), u32_of_fits (by omega) (by omega)]
    refine ⟨hx0, hy0, ?_, ?_⟩
    · dsimp only
      omega
    · dsimp only
      omega

/-- The intersection with a rectangle on the canvas. -/
theorem intersectRect_spec {x y : ℤ} {w h : ℕ} (hfits : EdgesFit x y w h) {r : DamageRect}
    (hr : r.Inside size) :
    (intersectRect x y w h r).Inside size ∧ ∀ px py : ℕ, (intersectRect x y w h r).Has px py ↔
      (x ≤ px ∧ (px : ℤ) < x + w ∧ y ≤ py ∧ (py : ℤ) < y + h) ∧ r.Has px py := by
  have hrfits := hr.edgesFit
  have hin := hr
  obtain ⟨hrx, hry, hrw, hrh⟩ := hin
  have hspec := rectBetween_spec (by omega : 0 ≤ max x r.x)
    (by omega : 0 ≤ max y r.y) (by omega : min (x + w) (r.x + r.w) ≤ size.width)
    (by omega : min (y + h) (r.y + r.h) ≤ size.height)
  unfold intersectRect
  rw [farEdge_of_fits hfits.x.1 hfits.x.2 hfits.w, farEdge_of_fits hfits.y.1 hfits.y.2 hfits.h,
    farEdge_of_fits hrfits.x.1 hrfits.x.2 hrfits.w, farEdge_of_fits hrfits.y.1 hrfits.y.2 hrfits.h]
  refine ⟨hspec.1, fun px py => (hspec.2 px py).trans ?_⟩
  unfold DamageRect.Has
  omega

theorem unionRect_spec {a b : DamageRect} (ha : a.Inside size) (hb : b.Inside size) :
    (unionRect a b).Inside size ∧
      ∀ x y, a.Has x y ∨ b.Has x y → (unionRect a b).Has x y := by
  unfold unionRect
  split
  · rename_i hempty
    exact ⟨hb, fun x y h => h.resolve_left (DamageRect.not_has_of_empty hempty x y)⟩
  split
  · rename_i hempty
    exact ⟨ha, fun x y h => h.resolve_right (DamageRect.not_has_of_empty hempty x y)⟩
  have hafits := ha.edgesFit
  have hbfits := hb.edgesFit
  obtain ⟨hax, hay, haw, hah⟩ := ha
  obtain ⟨hbx, hby, hbw, hbh⟩ := hb
  have hwidth := size.width_lt
  have hheight := size.height_lt
  dsimp only
  rw [farEdge_of_fits hafits.x.1 hafits.x.2 hafits.w,
    farEdge_of_fits hafits.y.1 hafits.y.2 hafits.h,
    farEdge_of_fits hbfits.x.1 hbfits.x.2 hbfits.w, farEdge_of_fits hbfits.y.1 hbfits.y.2 hbfits.h]
  have hw : u32 (i32 (max (a.x + a.w) (b.x + b.w) - min a.x b.x)) =
      (max (a.x + a.w) (b.x + b.w) - min a.x b.x).toNat := by
    rw [i32_of_fits (by omega) (by omega), u32_of_fits (by omega) (by omega)]
  have hh : u32 (i32 (max (a.y + a.h) (b.y + b.h) - min a.y b.y)) =
      (max (a.y + a.h) (b.y + b.h) - min a.y b.y).toNat := by
    rw [i32_of_fits (by omega) (by omega), u32_of_fits (by omega) (by omega)]
  rw [hw, hh]
  refine ⟨⟨?_, ?_, ?_, ?_⟩, fun x y h => ?_⟩
  iterate 4
    · dsimp only
      omega
  · unfold DamageRect.Has at h ⊢
    dsimp only
    omega

/-! ### The diff of the slots -/

/-- The slot shows something at the pixel. -/
def DamageSlot.Covers (s : DamageSlot) (x y : ℕ) : Prop :=
  s.armed ∧ s.x.toInt ≤ x ∧ (x : ℤ) < s.x.toInt + s.w.toNat ∧
    s.y.toInt ≤ y ∧ (y : ℤ) < s.y.toInt + s.h.toNat

/-- An armed slot's edges are 32-bit values. -/
def DamageSlot.Fits (s : DamageSlot) : Prop :=
  s.armed → EdgesFit s.x.toInt s.y.toInt s.w.toNat s.h.toNat

instance (s : DamageSlot) : Decidable s.Fits := inferInstanceAs (Decidable (_ → _))

def Bounded (b : Option Bounds) (x y : ℕ) : Prop :=
  ∃ b' ∈ b, b'.x0 ≤ x ∧ (x : ℤ) < b'.x1 ∧ b'.y0 ≤ y ∧ (y : ℤ) < b'.y1

theorem bounded_addTo {s : DamageSlot} (hs : s.Fits) {b : Option Bounds} {x y : ℕ}
    (h : Bounded b x y ∨ s.Covers x y) : Bounded (s.addTo b) x y := by
  unfold DamageSlot.addTo
  cases harmed : s.armed with
  | false =>
    refine h.resolve_right fun hcovers => ?_
    simp [DamageSlot.Covers, harmed] at hcovers
  | true =>
    have hfits := hs harmed
    rw [if_pos rfl, addRect, farEdge_of_fits hfits.x.1 hfits.x.2 hfits.w,
      farEdge_of_fits hfits.y.1 hfits.y.2 hfits.h]
    split
    · refine h.resolve_right fun hcovers => ?_
      unfold DamageSlot.Covers at hcovers
      omega
    · cases b with
      | none =>
        obtain ⟨-, hcovers⟩ := h.resolve_left fun ⟨_, hb, _⟩ => by cases hb
        exact ⟨_, rfl, hcovers⟩
      | some b =>
        refine ⟨_, rfl, ?_⟩
        dsimp only
        rcases h with ⟨_, ⟨⟩, hb⟩ | ⟨-, hcovers⟩ <;> omega

/-- Every pixel of a changed slot is in the bounding box. -/
theorem bounded_changedBounds {prev cur : List DamageSlot} (hprev : ∀ s ∈ prev, s.Fits)
    (hcur : ∀ s ∈ cur, s.Fits) {p c : DamageSlot} (hpc : (p, c) ∈ prev.zip cur)
    (hchanged : slotChanged p c = true) {x y : ℕ} (h : p.Covers x y ∨ c.Covers x y) :
    Bounded (changedBounds prev cur) x y := by
  have hfits : ∀ qd ∈ prev.zip cur, qd.1.Fits ∧ qd.2.Fits := fun qd hqd =>
    ⟨hprev _ (List.of_mem_zip hqd).1, hcur _ (List.of_mem_zip hqd).2⟩
  unfold changedBounds
  generalize prev.zip cur = pairs at hpc hfits
  -- the box only grows, so what is in it stays
  have hkeep : ∀ (l : List (DamageSlot × DamageSlot)) (b : Option Bounds),
      (∀ qd ∈ l, qd.1.Fits ∧ qd.2.Fits) → Bounded b x y ∨ (p, c) ∈ l →
      Bounded (l.foldl (fun b qd => if slotChanged qd.1 qd.2 then qd.2.addTo (qd.1.addTo b) else b)
        b) x y := by
    intro l
    induction l with
    | nil => exact fun b _ hb => hb.resolve_right (List.not_mem_nil)
    | cons qd l ih =>
      intro b hl hb
      obtain ⟨hq, hd⟩ := hl qd List.mem_cons_self
      refine ih _ (fun qd hqd => hl qd (List.mem_cons_of_mem _ hqd)) ?_
      rcases hb with hb | hb
      · refine .inl ?_
        dsimp only
        split
        · exact bounded_addTo hd (.inl (bounded_addTo hq (.inl hb)))
        · exact hb
      · rcases List.mem_cons.mp hb with rfl | hb
        · dsimp only
          rw [if_pos hchanged]
          refine .inl ?_
          rcases h with h | h
          · exact bounded_addTo hd (.inl (bounded_addTo hq (.inr h)))
          · exact bounded_addTo hd (.inr h)
        · exact .inr hb
  exact hkeep pairs none hfits (.inr hpc)

/-- The bounding box, clamped to the canvas. -/
theorem clamp_spec (size : CanvasSize) (b : Bounds) :
    let r := rectBetween (max 0 b.x0) (max 0 b.y0) (min (i32 size.width) b.x1)
      (min (i32 size.height) b.y1)
    r.Inside size ∧ ∀ x < size.width, ∀ y < size.height, Bounded (some b) x y → r.Has x y := by
  have hwidth := size.width_lt
  have hheight := size.height_lt
  rw [i32_of_fits (z := size.width) (by omega) (by omega),
    i32_of_fits (z := size.height) (by omega) (by omega)]
  have hspec := rectBetween_spec (le_max_left 0 b.x0) (le_max_left 0 b.y0)
    (min_le_left (size.width : ℤ) b.x1) (min_le_left (size.height : ℤ) b.y1)
  refine ⟨hspec.1, fun x hx y hy hb => (hspec.2 x y).mpr ?_⟩
  obtain ⟨_, ⟨⟩, hb⟩ := hb
  omega

theorem computeDamage_inside (prev cur : List DamageSlot) :
    (computeDamage size prev cur).Inside size := by
  unfold computeDamage computeDamageOf
  split
  · exact ⟨le_refl _, le_refl _, by simp, by simp⟩
  · split
    · exact DamageRect.inside_default size
    · exact (clamp_spec size _).1

/-- Frames of different lengths, and the first one, damage the whole canvas. -/
theorem computeDamage_whole {prev cur : List DamageSlot}
    (h : prev.length ≠ cur.length ∨ prev = []) {x y : ℕ} (hx : x < size.width)
    (hy : y < size.height) : (computeDamage size prev cur).Has x y := by
  unfold computeDamage computeDamageOf
  rw [if_pos h]
  unfold DamageRect.Has
  dsimp only
  omega

/-- The damage has the pixels a changed slot covered and those it covers. -/
theorem computeDamage_has {prev cur : List DamageSlot} (hprev : ∀ s ∈ prev, s.Fits)
    (hcur : ∀ s ∈ cur, s.Fits) {p c : DamageSlot} (hpc : (p, c) ∈ prev.zip cur)
    (hchanged : slotChanged p c = true) {x y : ℕ} (hx : x < size.width) (hy : y < size.height)
    (h : p.Covers x y ∨ c.Covers x y) : (computeDamage size prev cur).Has x y := by
  by_cases hwhole : prev.length ≠ cur.length ∨ prev = []
  · exact computeDamage_whole hwhole hx hy
  obtain ⟨b, hb, hbounds⟩ := bounded_changedBounds hprev hcur hpc hchanged h
  unfold computeDamage computeDamageOf
  rw [if_neg hwhole, Option.mem_def.mp hb]
  exact (clamp_spec size b).2 x hx y hy ⟨b, rfl, hbounds⟩

end

end DrmCxx.Csd
