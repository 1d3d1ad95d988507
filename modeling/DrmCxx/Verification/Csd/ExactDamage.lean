import DrmCxx.Verification.Csd.Damage
import Mathlib.Data.UInt

/-!
# The damage in exact arithmetic

The damage of a frame against the bounding box of what changed, for slots anywhere and of any size.
The far edges are 32-bit values; the box comes out right as long as an edge that wraps is not the
one that is missed.
-/

namespace DrmCxx.Csd

open Scene

/-! ### What changed, in exact arithmetic -/

/-- The pixels an armed slot covers. -/
def DamageSlot.footprint (s : DamageSlot) : List Bounds :=
  if s.armed ∧ s.w ≠ 0 ∧ s.h ≠ 0 then
    [⟨s.x.toInt, s.y.toInt, s.x.toInt + s.w.toNat, s.y.toInt + s.h.toNat⟩]
  else []

/-- Where the slots that differ between the two lists were, and where they are. -/
def changedFootprints (prev cur : List DamageSlot) : List Bounds :=
  (prev.zip cur).flatMap fun pc => if pc.1 = pc.2 then [] else pc.1.footprint ++ pc.2.footprint

/-- The pixel is in the bounding box of the footprints. -/
def InHull (footprints : List Bounds) (x y : ℕ) : Prop :=
  (∃ f ∈ footprints, f.x0 ≤ x) ∧ (∃ f ∈ footprints, (x : ℤ) < f.x1) ∧
    (∃ f ∈ footprints, f.y0 ≤ y) ∧ ∃ f ∈ footprints, (y : ℤ) < f.y1

/-- The rectangle is what a repaint of the canvas needs. -/
structure CoversChange (canvasW canvasH : ℕ) (prev cur : List DamageSlot) (r : DamageRect) :
    Prop where
  inside : 0 ≤ r.x ∧ 0 ≤ r.y ∧ r.x + r.w ≤ canvasW ∧ r.y + r.h ≤ canvasH
  whole : prev.length ≠ cur.length ∨ prev = [] → r = ⟨0, 0, canvasW, canvasH⟩
  covers : ∀ pc ∈ prev.zip cur, pc.1 ≠ pc.2 → ∀ x < canvasW, ∀ y < canvasH,
    pc.1.Covers x y ∨ pc.2.Covers x y → r.Has x y
  clip : prev.length = cur.length → prev ≠ [] → ∀ x y,
    r.Has x y ↔ x < canvasW ∧ y < canvasH ∧ InHull (changedFootprints prev cur) x y
  empty : prev.length = cur.length → prev ≠ [] →
    (r.empty = true ↔
      ¬ ∃ x < canvasW, ∃ y < canvasH, InHull (changedFootprints prev cur) x y)

/-- No far edge leaves 32 bits, or one that stays reaches the end of the canvas anyway. -/
def EdgeReaches (extent : ℕ) (edges : List ℤ) : Prop :=
  (∀ e ∈ edges, e < 2 ^ 31) ∨ ∃ e ∈ edges, (extent : ℤ) ≤ i32 e

/-- The far edges are safe on both axes, or there is nothing to paint. -/
def EdgesReach (canvasW canvasH : ℕ) (prev cur : List DamageSlot) : Prop :=
  let footprints := changedFootprints prev cur
  prev.length ≠ cur.length ∨ prev = [] ∨
    EdgeReaches canvasW (footprints.map (·.x1)) ∧ EdgeReaches canvasH (footprints.map (·.y1)) ∨
    ¬ ∃ x < canvasW, ∃ y < canvasH, InHull footprints x y

/-! ### The box that is grown -/

/-- The box of the footprints, with far edges in 32 bits. -/
structure HullOf (footprints : List Bounds) (b : Bounds) : Prop where
  left : ∀ z, b.x0 ≤ z ↔ ∃ f ∈ footprints, f.x0 ≤ z
  right : ∀ z, z < b.x1 ↔ ∃ f ∈ footprints, z < i32 f.x1
  top : ∀ z, b.y0 ≤ z ↔ ∃ f ∈ footprints, f.y0 ≤ z
  bottom : ∀ z, z < b.y1 ↔ ∃ f ∈ footprints, z < i32 f.y1

def Hulls (footprints : List Bounds) : Option Bounds → Prop
  | none => footprints = []
  | some b => HullOf footprints b

theorem farEdge_eq (pos : ℤ) (extent : ℕ) : farEdge pos extent = i32 (pos + extent) := by
  unfold farEdge i32
  rw [Int.add_bmod_bmod]

theorem hulls_addTo {footprints : List Bounds} {b : Option Bounds} (h : Hulls footprints b)
    (s : DamageSlot) : Hulls (footprints ++ s.footprint) (s.addTo b) := by
  have hw : s.w ≠ 0 ↔ s.w.toNat ≠ 0 := UInt32.toNat_inj.symm.not
  have hh : s.h ≠ 0 ↔ s.h.toNat ≠ 0 := UInt32.toNat_inj.symm.not
  unfold DamageSlot.addTo DamageSlot.footprint addRect
  by_cases harmed : s.armed = true
  · rw [if_pos harmed]
    by_cases hempty : s.w.toNat = 0 ∨ s.h.toNat = 0
    · rw [if_pos hempty, if_neg (by rw [hw, hh]; tauto), List.append_nil]
      exact h
    · rw [if_neg hempty, if_pos (by rw [hw, hh]; tauto)]
      dsimp only
      rw [farEdge_eq, farEdge_eq]
      cases b with
      | none =>
        obtain rfl : footprints = [] := h
        constructor <;> intro z <;> simp
      | some b =>
        obtain ⟨hleft, hright, htop, hbottom⟩ := h
        constructor <;> intro z <;>
          simp only [min_le_iff, lt_max_iff, hleft, hright, htop, hbottom, List.mem_append,
            List.mem_singleton, or_and_right, exists_or, exists_eq_left]
  · rw [if_neg harmed, if_neg (fun h => harmed h.1), List.append_nil]
    exact h

theorem ne_of_slotChanged {p c : DamageSlot} (h : slotChanged p c = true) : p ≠ c := by
  rintro rfl
  simp [slotChanged] at h

/-- A difference the diff does not call a change is between slots that show nothing. -/
theorem footprint_of_not_changed {p c : DamageSlot} (h : slotChanged p c = false) (hne : p ≠ c) :
    p.footprint = [] ∧ c.footprint = [] := by
  obtain ⟨parmed, px, py, pw, ph, pgen⟩ := p
  obtain ⟨carmed, cx, cy, cw, ch, cgen⟩ := c
  simp only [slotChanged, Bool.or_eq_false_iff, Bool.and_eq_false_iff, bne_eq_false_iff_eq] at h
  obtain ⟨rfl, hoff | hsame⟩ := h
  · simp [DamageSlot.footprint, hoff]
  · obtain ⟨⟨⟨⟨rfl, rfl⟩, rfl⟩, rfl⟩, rfl⟩ := hsame
    exact absurd rfl hne

theorem hulls_changedBounds (prev cur : List DamageSlot) :
    Hulls (changedFootprints prev cur) (changedBounds prev cur) := by
  unfold changedFootprints changedBounds
  -- the box of the pairs walked so far, by induction on those left
  have hfold : ∀ (l : List (DamageSlot × DamageSlot)) (footprints : List Bounds)
      (b : Option Bounds), Hulls footprints b →
      Hulls (footprints ++ l.flatMap fun pc =>
          if pc.1 = pc.2 then [] else pc.1.footprint ++ pc.2.footprint)
        (l.foldl (fun b pc => if slotChanged pc.1 pc.2 then pc.2.addTo (pc.1.addTo b) else b)
          b) := by
    intro l
    induction l with
    | nil => simp
    | cons pc l ih =>
      intro footprints b hb
      rw [List.flatMap_cons, List.foldl_cons, ← List.append_assoc]
      apply ih
      by_cases hchanged : slotChanged pc.1 pc.2 = true
      · rw [if_pos hchanged, if_neg (ne_of_slotChanged hchanged), ← List.append_assoc]
        exact hulls_addTo (hulls_addTo hb pc.1) pc.2
      · rw [if_neg hchanged]
        by_cases heq : pc.1 = pc.2
        · rw [if_pos heq, List.append_nil]
          exact hb
        · obtain ⟨hp, hc⟩ := footprint_of_not_changed (Bool.eq_false_of_not_eq_true hchanged) heq
          rw [if_neg heq, hp, hc, List.append_nil, List.append_nil]
          exact hb
  exact hfold _ [] none rfl

/-! ### Edges that wrap -/

/-- A far edge is at most one wrap past 32 bits. -/
theorem mem_changedFootprints {prev cur : List DamageSlot} {f : Bounds}
    (hf : f ∈ changedFootprints prev cur) :
    (-2 ^ 31 ≤ f.x0 ∧ f.x0 < f.x1 ∧ f.x1 < 3 * 2 ^ 31) ∧
      -2 ^ 31 ≤ f.y0 ∧ f.y0 < f.y1 ∧ f.y1 < 3 * 2 ^ 31 := by
  have hslot : ∀ s : DamageSlot, f ∈ s.footprint →
      (-2 ^ 31 ≤ f.x0 ∧ f.x0 < f.x1 ∧ f.x1 < 3 * 2 ^ 31) ∧
        -2 ^ 31 ≤ f.y0 ∧ f.y0 < f.y1 ∧ f.y1 < 3 * 2 ^ 31 := by
    intro s hs
    unfold DamageSlot.footprint at hs
    split at hs
    · rename_i h
      obtain rfl := List.mem_singleton.mp hs
      obtain ⟨-, hw, hh⟩ := h
      have hw : s.w.toNat ≠ 0 := fun h0 => hw (UInt32.toNat_inj.mp h0)
      have hh : s.h.toNat ≠ 0 := fun h0 => hh (UInt32.toNat_inj.mp h0)
      have hwlt := s.w.toNat_lt
      have hhlt := s.h.toNat_lt
      have hxlo := s.x.le_toInt
      have hxhi := s.x.toInt_lt
      have hylo := s.y.le_toInt
      have hyhi := s.y.toInt_lt
      dsimp only
      omega
    · cases hs
  obtain ⟨pc, -, hpc⟩ := List.mem_flatMap.mp hf
  split at hpc
  · cases hpc
  · rcases List.mem_append.mp hpc with h | h
    · exact hslot _ h
    · exact hslot _ h

theorem i32_edge {e : ℤ} (hlo : -2 ^ 31 ≤ e) (hhi : e < 3 * 2 ^ 31) :
    i32 e = if e < 2 ^ 31 then e else e - 2 ^ 32 := by
  unfold i32
  rw [Int.bmod_def]
  split <;> split <;> omega

section Axis

variable {edges : List ℤ} {extent : ℕ}

/-- The edge in 32 bits bounds the visible part exactly when one of them reaches far enough. -/
theorem edgeReaches_iff (hextent : extent < 2 ^ 31)
    (hedges : ∀ e ∈ edges, -2 ^ 31 ≤ e ∧ e < 3 * 2 ^ 31) :
    EdgeReaches extent edges ↔
      ∀ z : ℤ, z < extent → ((∃ e ∈ edges, z < i32 e) ↔ ∃ e ∈ edges, z < e) := by
  constructor
  · rintro (hfits | ⟨e, he, hreach⟩) z hz
    · refine exists_congr fun e => and_congr_right fun he => ?_
      rw [i32_edge (hedges e he).1 (hedges e he).2, if_pos (hfits e he)]
    · refine iff_of_true ⟨e, he, by omega⟩ ⟨e, he, ?_⟩
      rw [i32_edge (hedges e he).1 (hedges e he).2] at hreach
      split at hreach <;> omega
  · intro h
    by_contra hno
    unfold EdgeReaches at hno
    push Not at hno
    obtain ⟨⟨e, he, hwraps⟩, hshort⟩ := hno
    obtain ⟨e', he', hlt⟩ := (h (extent - 1) (by omega)).mpr ⟨e, he, by omega⟩
    have := hshort e' he'
    omega

theorem lt_of_lt_i32 (hedges : ∀ e ∈ edges, -2 ^ 31 ≤ e ∧ e < 3 * 2 ^ 31) {z : ℤ}
    (h : ∃ e ∈ edges, z < i32 e) : ∃ e ∈ edges, z < e := by
  obtain ⟨e, he, hz⟩ := h
  refine ⟨e, he, ?_⟩
  rw [i32_edge (hedges e he).1 (hedges e he).2] at hz
  split at hz <;> omega

end Axis

/-! ### The damage -/

section

variable {canvasW canvasH : ℕ} {prev cur : List DamageSlot}

/-- What is in the damage of two frames of one length. -/
theorem computeDamageOf_has (hw : canvasW < 2 ^ 31) (hh : canvasH < 2 ^ 31)
    (hlen : prev.length = cur.length) (hne : prev ≠ []) (x y : ℕ) :
    (computeDamageOf canvasW canvasH prev cur).Has x y ↔
      x < canvasW ∧ y < canvasH ∧ (∃ f ∈ changedFootprints prev cur, f.x0 ≤ x) ∧
        (∃ f ∈ changedFootprints prev cur, (x : ℤ) < i32 f.x1) ∧
        (∃ f ∈ changedFootprints prev cur, f.y0 ≤ y) ∧
        ∃ f ∈ changedFootprints prev cur, (y : ℤ) < i32 f.y1 := by
  have hhull := hulls_changedBounds prev cur
  unfold computeDamageOf
  rw [if_neg (by tauto)]
  cases hb : changedBounds prev cur with
  | none =>
    rw [hb] at hhull
    have hnil : changedFootprints prev cur = [] := hhull
    simp only [hnil, List.not_mem_nil, false_and, exists_false, and_false, iff_false]
    exact DamageRect.not_has_of_empty rfl x y
  | some b =>
    rw [hb] at hhull
    obtain ⟨hleft, hright, htop, hbottom⟩ := hhull
    dsimp only
    rw [i32_of_fits (z := canvasW) (by omega) (by omega),
      i32_of_fits (z := canvasH) (by omega) (by omega),
      rectBetween_has (le_max_left _ _) (le_max_left _ _) (by omega) (by omega),
      ← hleft, ← hright, ← htop, ← hbottom]
    omega

variable (prev cur) in
theorem inside_computeDamageOf (hw : canvasW < 2 ^ 31) (hh : canvasH < 2 ^ 31) :
    let r := computeDamageOf canvasW canvasH prev cur
    0 ≤ r.x ∧ 0 ≤ r.y ∧ r.x + r.w ≤ canvasW ∧ r.y + r.h ≤ canvasH := by
  unfold computeDamageOf
  dsimp only
  split
  · simp
  · split
    · simp
    · rw [i32_of_fits (z := canvasW) (by omega) (by omega),
        i32_of_fits (z := canvasH) (by omega) (by omega)]
      unfold rectBetween
      split
      · simp
      · rename_i b _ hcorners
        rw [i32_of_fits (by omega) (by omega), u32_of_fits (by omega) (by omega),
          i32_of_fits (by omega) (by omega), u32_of_fits (by omega) (by omega)]
        dsimp only
        omega

theorem empty_iff {r : DamageRect} (hx : 0 ≤ r.x) (hy : 0 ≤ r.y) :
    r.empty = true ↔ ¬ ∃ x y, r.Has x y := by
  constructor
  · rintro hr ⟨x, y, hxy⟩
    exact DamageRect.not_has_of_empty hr x y hxy
  · intro hno
    by_contra hr
    simp only [DamageRect.empty, Bool.or_eq_true, decide_eq_true_eq, not_or] at hr
    refine hno ⟨r.x.toNat, r.y.toNat, ?_⟩
    unfold DamageRect.Has
    omega

/-- A slot that differs has its pixels in the bounding box. -/
theorem inHull_of_covers {pc : DamageSlot × DamageSlot} (hpc : pc ∈ prev.zip cur)
    (hne : pc.1 ≠ pc.2) {x y : ℕ} (h : pc.1.Covers x y ∨ pc.2.Covers x y) :
    InHull (changedFootprints prev cur) x y := by
  have hslot : ∀ s : DamageSlot, s.Covers x y →
      ∃ f ∈ s.footprint, f.x0 ≤ x ∧ (x : ℤ) < f.x1 ∧ f.y0 ≤ y ∧ (y : ℤ) < f.y1 := by
    rintro s ⟨harmed, hx0, hx1, hy0, hy1⟩
    refine ⟨⟨s.x.toInt, s.y.toInt, s.x.toInt + s.w.toNat, s.y.toInt + s.h.toNat⟩, ?_,
      hx0, hx1, hy0, hy1⟩
    have hw : s.w ≠ 0 := by
      intro hw
      rw [hw, UInt32.toNat_zero] at hx1
      omega
    have hh : s.h ≠ 0 := by
      intro hh
      rw [hh, UInt32.toNat_zero] at hy1
      omega
    unfold DamageSlot.footprint
    rw [if_pos ⟨harmed, hw, hh⟩]
    exact List.mem_singleton_self _
  obtain ⟨f, hf, hx0, hx1, hy0, hy1⟩ : ∃ f ∈ pc.1.footprint ++ pc.2.footprint,
      f.x0 ≤ x ∧ (x : ℤ) < f.x1 ∧ f.y0 ≤ y ∧ (y : ℤ) < f.y1 := by
    rcases h with h | h
    · obtain ⟨f, hf, hin⟩ := hslot _ h
      exact ⟨f, List.mem_append_left _ hf, hin⟩
    · obtain ⟨f, hf, hin⟩ := hslot _ h
      exact ⟨f, List.mem_append_right _ hf, hin⟩
  have hmem : f ∈ changedFootprints prev cur := by
    refine List.mem_flatMap.mpr ⟨pc, hpc, ?_⟩
    rwa [if_neg hne]
  exact ⟨⟨f, hmem, hx0⟩, ⟨f, hmem, hx1⟩, ⟨f, hmem, hy0⟩, ⟨f, hmem, hy1⟩⟩

/-- The rectangle is exact as soon as its pixels are those of the clipped bounding box. -/
theorem coversChange_of_has (hw : canvasW < 2 ^ 31) (hh : canvasH < 2 ^ 31)
    (h : prev.length = cur.length → prev ≠ [] → ∀ x y,
      (computeDamageOf canvasW canvasH prev cur).Has x y ↔
        x < canvasW ∧ y < canvasH ∧ InHull (changedFootprints prev cur) x y) :
    CoversChange canvasW canvasH prev cur (computeDamageOf canvasW canvasH prev cur) := by
  have hin := inside_computeDamageOf prev cur hw hh
  have hwhole : prev.length ≠ cur.length ∨ prev = [] →
      computeDamageOf canvasW canvasH prev cur = ⟨0, 0, canvasW, canvasH⟩ := fun hd => if_pos hd
  refine ⟨hin, hwhole, ?_, h, ?_⟩
  · intro pc hpc hne x hx y hy hcovers
    by_cases hd : prev.length ≠ cur.length ∨ prev = []
    · rw [hwhole hd]
      unfold DamageRect.Has
      dsimp only
      omega
    · push Not at hd
      exact (h hd.1 hd.2 x y).mpr ⟨hx, hy, inHull_of_covers hpc hne hcovers⟩
  · intro hlen hne
    rw [empty_iff hin.1 hin.2.1]
    refine not_congr ⟨?_, ?_⟩
    · rintro ⟨x, y, hxy⟩
      obtain ⟨hx, hy, hhull⟩ := (h hlen hne x y).mp hxy
      exact ⟨x, hx, y, hy, hhull⟩
    · rintro ⟨x, hx, y, hy, hhull⟩
      exact ⟨x, y, (h hlen hne x y).mpr ⟨hx, hy, hhull⟩⟩

theorem edges_bounds (prev cur : List DamageSlot) :
    (∀ e ∈ (changedFootprints prev cur).map (·.x1), -2 ^ 31 ≤ e ∧ e < 3 * 2 ^ 31) ∧
      ∀ e ∈ (changedFootprints prev cur).map (·.y1), -2 ^ 31 ≤ e ∧ e < 3 * 2 ^ 31 := by
  constructor
  · intro e he
    obtain ⟨f, hf, rfl⟩ := List.mem_map.mp he
    have := (mem_changedFootprints hf).1
    omega
  · intro e he
    obtain ⟨f, hf, rfl⟩ := List.mem_map.mp he
    have := (mem_changedFootprints hf).2
    omega

/-- The damage is the clipped bounding box of what changed exactly when no far edge that wraps is
missed. -/
theorem computeDamage_exact_iff (hw : canvasW < 2 ^ 31) (hh : canvasH < 2 ^ 31)
    (prev cur : List DamageSlot) :
    CoversChange canvasW canvasH prev cur (computeDamageOf canvasW canvasH prev cur) ↔
      EdgesReach canvasW canvasH prev cur := by
  obtain ⟨hxs, hys⟩ := edges_bounds prev cur
  have hxreach := edgeReaches_iff hw hxs
  have hyreach := edgeReaches_iff hh hys
  have hxle := fun z => lt_of_lt_i32 (z := z) hxs
  have hyle := fun z => lt_of_lt_i32 (z := z) hys
  simp only [List.mem_map, exists_exists_and_eq_and] at hxreach hyreach hxle hyle
  constructor
  · intro h
    by_cases hd : prev.length ≠ cur.length ∨ prev = []
    · exact hd.elim .inl fun hnil => .inr (.inl hnil)
    push Not at hd
    refine .inr (.inr ?_)
    rw [or_iff_not_imp_right, not_not]
    rintro ⟨px, hpx, py, hpy, ⟨hx0, ⟨fx, hfx, hpfx⟩, hy0, ⟨fy, hfy, hpfy⟩⟩⟩
    have hhas : ∀ x < canvasW, ∀ y < canvasH, InHull (changedFootprints prev cur) x y →
        (∃ f ∈ changedFootprints prev cur, (x : ℤ) < i32 f.x1) ∧
          ∃ f ∈ changedFootprints prev cur, (y : ℤ) < i32 f.y1 := by
      intro x hx y hy hhull
      obtain ⟨-, -, -, hright, -, hbottom⟩ := (computeDamageOf_has hw hh hd.1 hd.2 x y).mp
        ((h.clip hd.1 hd.2 x y).mpr ⟨hx, hy, hhull⟩)
      exact ⟨hright, hbottom⟩
    refine ⟨hxreach.mpr fun z hz => ⟨hxle z, ?_⟩, hyreach.mpr fun z hz => ⟨hyle z, ?_⟩⟩
    · -- the pixel of the hull, moved right as far as the edge asks for
      rintro ⟨f, hf, hzf⟩
      obtain ⟨x, hxlt, hpxx, hzx, hin⟩ : ∃ x : ℕ, x < canvasW ∧ px ≤ x ∧ z ≤ x ∧
          ∃ g ∈ changedFootprints prev cur, (x : ℤ) < g.x1 := by
        rcases le_total z px with hle | hle
        · exact ⟨px, hpx, le_refl _, hle, fx, hfx, hpfx⟩
        · exact ⟨z.toNat, by omega, by omega, by omega, f, hf, by omega⟩
      obtain ⟨g₀, hg₀, hleft⟩ := hx0
      obtain ⟨⟨g, hg, hlt⟩, -⟩ := hhas x hxlt py hpy
        ⟨⟨g₀, hg₀, by omega⟩, hin, hy0, ⟨fy, hfy, hpfy⟩⟩
      exact ⟨g, hg, by omega⟩
    · rintro ⟨f, hf, hzf⟩
      obtain ⟨y, hylt, hpyy, hzy, hin⟩ : ∃ y : ℕ, y < canvasH ∧ py ≤ y ∧ z ≤ y ∧
          ∃ g ∈ changedFootprints prev cur, (y : ℤ) < g.y1 := by
        rcases le_total z py with hle | hle
        · exact ⟨py, hpy, le_refl _, hle, fy, hfy, hpfy⟩
        · exact ⟨z.toNat, by omega, by omega, by omega, f, hf, by omega⟩
      obtain ⟨g₀, hg₀, htop⟩ := hy0
      obtain ⟨-, ⟨g, hg, hlt⟩⟩ := hhas px hpx y hylt
        ⟨hx0, ⟨fx, hfx, hpfx⟩, ⟨g₀, hg₀, by omega⟩, hin⟩
      exact ⟨g, hg, by omega⟩
  · intro h
    refine coversChange_of_has hw hh fun hlen hne x y => ?_
    rw [computeDamageOf_has hw hh hlen hne]
    refine and_congr_right fun hx => and_congr_right fun hy => ?_
    rcases h with hlen' | rfl | ⟨hreachx, hreachy⟩ | hempty
    · exact absurd hlen hlen'
    · exact absurd rfl hne
    · unfold InHull
      rw [hxreach.mp hreachx x (by omega), hyreach.mp hreachy y (by omega)]
    · refine iff_of_false ?_ fun hhull => hempty ⟨x, hx, y, hy, hhull⟩
      rintro ⟨hx0, hx1, hy0, hy1⟩
      exact hempty ⟨x, hx, y, hy, hx0, hxle x hx1, hy0, hyle y hy1⟩

/-- A decoration of ordinary size that moves has edges that fit. -/
theorem computeDamage_exact_moved :
    CoversChange 100 100 [⟨true, -5, 10, 20, 20, 1⟩] [⟨true, 90, 10, 20, 20, 1⟩]
      (computeDamageOf 100 100 [⟨true, -5, 10, 20, 20, 1⟩] [⟨true, 90, 10, 20, 20, 1⟩]) :=
  (computeDamage_exact_iff (by decide) (by decide) _ _).mpr
    (.inr (.inr (.inl ⟨.inl (by decide), .inl (by decide)⟩)))

/-- A decoration that opens 2^31 pixels wide: its right edge wraps, and nothing is damaged. -/
theorem not_coversChange_wide :
    ¬ CoversChange 100 100 [⟨false, 0, 0, 0, 0, 0⟩] [⟨true, 0, 0, 2 ^ 31, 10, 1⟩]
      (computeDamageOf 100 100 [⟨false, 0, 0, 0, 0, 0⟩] [⟨true, 0, 0, 2 ^ 31, 10, 1⟩]) := by
  intro h
  have hhas := h.covers (⟨false, 0, 0, 0, 0, 0⟩, ⟨true, 0, 0, 2 ^ 31, 10, 1⟩)
    (by decide) (by decide) 0 (by decide) 0 (by decide) (.inr ⟨rfl, by decide⟩)
  revert hhas
  decide

end

end DrmCxx.Csd
