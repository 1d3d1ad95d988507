import DrmCxx.Lib.Best
import DrmCxx.Verification.Planes.Search

/-!
# The bounds of the canvas slot

One canvas stands for every composited layer. The bounds are the lowest placed layer that has to
cover it and the highest that has to stay under it; moving caught layers into the composition ends
with bounds that leave a slot, unless a pinned layer is caught.
-/

namespace DrmCxx.Planes

open DrmCxx.Lib

/-! ### What the bounds are -/

namespace CanvasBounds

/-- The bounds that pairs of a placed and a composited zpos set: the lowest placed one above its
composited one, and the highest below. -/
structure Bound (b : CanvasBounds) (cs : List (UInt64 × UInt64)) : Prop where
  above_mem : ∀ v ∈ b.above, ∃ x ∈ cs, x.2 < x.1 ∧ x.1 = v
  below_mem : ∀ v ∈ b.below, ∃ x ∈ cs, x.1 < x.2 ∧ x.1 = v
  above_le : ∀ x ∈ cs, x.2 < x.1 → ∃ v ∈ b.above, v ≤ x.1
  le_below : ∀ x ∈ cs, x.1 < x.2 → ∃ v ∈ b.below, x.1 ≤ v

theorem bound_nil : Bound {} [] := by
  refine ⟨?_, ?_, ?_, ?_⟩ <;> simp

variable {b : CanvasBounds} {cs : List (UInt64 × UInt64)} {zp zc : UInt64}

/-- The new lower bound of the pair added, and what it says about the old one. -/
theorem min_getD (o : Option UInt64) (z : UInt64) :
    (min (o.getD z) z = z ∨ o = some (min (o.getD z) z)) ∧ min (o.getD z) z ≤ z ∧
      ∀ v ∈ o, min (o.getD z) z ≤ v := by
  have hmin : ∀ x y : UInt64, min x y = if x ≤ y then x else y := fun _ _ => rfl
  cases o with
  | none => simp [hmin]
  | some v =>
    rw [hmin, Option.getD_some]
    split
    · rename_i h
      exact ⟨.inr rfl, h, by simp⟩
    · rename_i h
      exact ⟨.inl rfl, UInt64.le_refl z, by simpa using UInt64.le_of_lt (UInt64.not_le.mp h)⟩

theorem max_getD (o : Option UInt64) (z : UInt64) :
    (max (o.getD z) z = z ∨ o = some (max (o.getD z) z)) ∧ z ≤ max (o.getD z) z ∧
      ∀ v ∈ o, v ≤ max (o.getD z) z := by
  have hmax : ∀ x y : UInt64, max x y = if x ≤ y then y else x := fun _ _ => rfl
  cases o with
  | none => simp [hmax]
  | some v =>
    rw [hmax, Option.getD_some]
    split
    · rename_i h
      exact ⟨.inl rfl, UInt64.le_refl z, by simpa using h⟩
    · rename_i h
      exact ⟨.inr rfl, UInt64.le_of_lt (UInt64.not_le.mp h), by simp⟩

/-- A pair that does not bound from above leaves that half as it was; `above_concat` is the other
case. -/
theorem Bound.above_keep (h : Bound b cs) (hno : ¬ zc < zp) :
    (∀ v ∈ b.above, ∃ x ∈ cs ++ [(zp, zc)], x.2 < x.1 ∧ x.1 = v) ∧
      ∀ x ∈ cs ++ [(zp, zc)], x.2 < x.1 → ∃ v ∈ b.above, v ≤ x.1 := by
  refine ⟨fun v hv => ?_, List.forall_mem_append.mpr ⟨h.above_le, ?_⟩⟩
  · obtain ⟨x, hx, hxv⟩ := h.above_mem v hv
    exact ⟨x, List.mem_append_left _ hx, hxv⟩
  · exact List.forall_mem_singleton.mpr fun hlt => absurd hlt hno

theorem Bound.below_keep (h : Bound b cs) (hno : ¬ zp < zc) :
    (∀ v ∈ b.below, ∃ x ∈ cs ++ [(zp, zc)], x.1 < x.2 ∧ x.1 = v) ∧
      ∀ x ∈ cs ++ [(zp, zc)], x.1 < x.2 → ∃ v ∈ b.below, x.1 ≤ v := by
  refine ⟨fun v hv => ?_, List.forall_mem_append.mpr ⟨h.le_below, ?_⟩⟩
  · obtain ⟨x, hx, hxv⟩ := h.below_mem v hv
    exact ⟨x, List.mem_append_left _ hx, hxv⟩
  · exact List.forall_mem_singleton.mpr fun hlt => absurd hlt hno

theorem Bound.above_concat (h : Bound b cs) (hlt : zc < zp) :
    (∃ x ∈ cs ++ [(zp, zc)], x.2 < x.1 ∧ x.1 = min (b.above.getD zp) zp) ∧
      ∀ x ∈ cs ++ [(zp, zc)], x.2 < x.1 → min (b.above.getD zp) zp ≤ x.1 := by
  obtain ⟨hor, hz, hold⟩ := min_getD b.above zp
  refine ⟨?_, List.forall_mem_append.mpr ⟨fun x hx hxlt => ?_, ?_⟩⟩
  · rcases hor with hor | hor
    · exact ⟨(zp, zc), List.mem_concat_self, hlt, hor.symm⟩
    · obtain ⟨x, hx, hxv⟩ := h.above_mem _ hor
      exact ⟨x, List.mem_append_left _ hx, hxv⟩
  · obtain ⟨v, hv, hle⟩ := h.above_le x hx hxlt
    exact UInt64.le_trans (hold v hv) hle
  · exact List.forall_mem_singleton.mpr fun _ => hz

theorem Bound.below_concat (h : Bound b cs) (hlt : zp < zc) :
    (∃ x ∈ cs ++ [(zp, zc)], x.1 < x.2 ∧ x.1 = max (b.below.getD zp) zp) ∧
      ∀ x ∈ cs ++ [(zp, zc)], x.1 < x.2 → x.1 ≤ max (b.below.getD zp) zp := by
  obtain ⟨hor, hz, hold⟩ := max_getD b.below zp
  refine ⟨?_, List.forall_mem_append.mpr ⟨fun x hx hxlt => ?_, ?_⟩⟩
  · rcases hor with hor | hor
    · exact ⟨(zp, zc), List.mem_concat_self, hlt, hor.symm⟩
    · obtain ⟨x, hx, hxv⟩ := h.below_mem _ hor
      exact ⟨x, List.mem_append_left _ hx, hxv⟩
  · obtain ⟨v, hv, hle⟩ := h.le_below x hx hxlt
    exact UInt64.le_trans hle (hold v hv)
  · exact List.forall_mem_singleton.mpr fun _ => hz

theorem Bound.concat (h : Bound b cs) (zp zc : UInt64) :
    Bound (b.add zp zc) (cs ++ [(zp, zc)]) := by
  unfold add
  split_ifs with heq hlt
  · have hno : ¬ zc < zp ∧ ¬ zp < zc := by
      subst heq
      exact ⟨UInt64.lt_irrefl _, UInt64.lt_irrefl _⟩
    obtain ⟨habove, hle⟩ := h.above_keep hno.1
    obtain ⟨hbelow, hge⟩ := h.below_keep hno.2
    exact ⟨habove, hbelow, hle, hge⟩
  · obtain ⟨habove, hle⟩ := h.above_concat hlt
    obtain ⟨hbelow, hge⟩ := h.below_keep fun hgt =>
      UInt64.lt_irrefl _ (UInt64.lt_trans hlt hgt)
    exact ⟨by rintro v ⟨⟩; exact habove, hbelow, fun x hx hxlt => ⟨_, rfl, hle x hx hxlt⟩, hge⟩
  · have hgt : zp < zc := by
      rw [← UInt64.toNat_inj] at heq
      rw [UInt64.lt_iff_toNat_lt] at hlt ⊢
      omega
    obtain ⟨habove, hle⟩ := h.above_keep hlt
    obtain ⟨hbelow, hge⟩ := h.below_concat hgt
    exact ⟨habove, by rintro v ⟨⟩; exact hbelow, hle, fun x hx hxlt => ⟨_, rfl, hge x hx hxlt⟩⟩

theorem Bound.foldl (h : Bound b cs) (cs' : List (UInt64 × UInt64)) :
    Bound (cs'.foldl (fun b x => b.add x.1 x.2) b) (cs ++ cs') := by
  induction cs' generalizing b cs with
  | nil => simpa using h
  | cons x cs' ih => simpa using ih (h.concat x.1 x.2)

end CanvasBounds

namespace Output

variable {o : Output} {heap : Heap} {a : Assignment}

/-- The zpos of a placed layer and of a composited one that it overlaps. -/
def overlap (heap : Heap) (placed composited : LayerId) : Option (UInt64 × UInt64) :=
  (heap placed).zpos.bind fun zp => (heap composited).zpos.bind fun zc =>
    if layersIntersect (heap placed) (heap composited) then some (zp, zc) else none

def overlaps (o : Output) (heap : Heap) (a : Assignment) : List (UInt64 × UInt64) :=
  (o.placedLayers heap a).flatMap fun placed =>
    (o.compositedLayers heap a).filterMap (overlap heap placed)

theorem mem_overlaps {x : UInt64 × UInt64} :
    x ∈ o.overlaps heap a ↔ ∃ placed ∈ o.placedLayers heap a,
      ∃ composited ∈ o.compositedLayers heap a, (heap placed).zpos = some x.1 ∧
        (heap composited).zpos = some x.2 ∧
        layersIntersect (heap placed) (heap composited) = true := by
  simp only [overlaps, List.mem_flatMap, List.mem_filterMap, overlap, Option.bind_eq_some_iff,
    Option.ite_none_right_eq_some, Option.some.injEq]
  constructor
  · rintro ⟨p, hp, c, hc, zp, hzp, zc, hzc, hi, rfl⟩
    exact ⟨p, hp, c, hc, hzp, hzc, hi⟩
  · rintro ⟨p, hp, c, hc, hzp, hzc, hi⟩
    exact ⟨p, hp, c, hc, x.1, hzp, x.2, hzc, hi, rfl⟩

theorem canvasBounds_eq (o : Output) (heap : Heap) (a : Assignment) :
    o.canvasBounds heap a = (o.overlaps heap a).foldl (fun b x => b.add x.1 x.2) {} := by
  unfold canvasBounds overlaps
  rw [List.foldl_flatMap]
  congr 1
  funext bounds placed
  rw [List.foldl_filterMap]
  unfold overlap
  cases (heap placed).zpos with
  | none =>
    dsimp only [Option.bind_none]
    induction o.compositedLayers heap a generalizing bounds with
    | nil => rfl
    | cons c cs ih => exact ih bounds
  | some zp =>
    dsimp only [Option.bind_some]
    congr 1
    funext bounds composited
    cases (heap composited).zpos with
    | none => rfl
    | some zc =>
      dsimp only [Option.bind_some]
      split <;> rfl

theorem canvasBounds_bound (o : Output) (heap : Heap) (a : Assignment) :
    (o.canvasBounds heap a).Bound (o.overlaps heap a) := by
  rw [canvasBounds_eq]
  exact CanvasBounds.bound_nil.foldl _

/-! ### A slot for the canvas -/

/-- Some slot lies below every placed layer that has to cover a composited one it overlaps, and
above every placed layer that has to stay under one. -/
def AdmitsSlot (o : Output) (heap : Heap) (a : Assignment) : Prop :=
  ∃ slot : UInt64, ∀ l ∈ o.placedLayers heap a, ∀ c ∈ o.compositedLayers heap a,
    layersIntersect (heap l) (heap c) = true → ∀ zl ∈ (heap l).zpos, ∀ zc ∈ (heap c).zpos,
      (zc < zl → slot ≤ zl) ∧ (zl < zc → zl < slot)

theorem admitsSlot_iff : o.AdmitsSlot heap a ↔
    ∃ slot : UInt64, ∀ x ∈ o.overlaps heap a, (x.2 < x.1 → slot ≤ x.1) ∧
      (x.1 < x.2 → x.1 < slot) := by
  refine exists_congr fun slot => ?_
  constructor
  · intro h x hx
    obtain ⟨l, hl, c, hc, hzl, hzc, hi⟩ := mem_overlaps.mp hx
    exact h l hl c hc hi x.1 hzl x.2 hzc
  · intro h l hl c hc hi zl hzl zc hzc
    exact h (zl, zc) (mem_overlaps.mpr ⟨l, hl, c, hc, hzl, hzc, hi⟩)

/-- A layer of zpos `zl` lies above all composited layers it overlaps, or below all of them. -/
def OneSide (o : Output) (heap : Heap) (a : Assignment) (l : LayerId) (zl : UInt64) : Prop :=
  (∀ c ∈ o.compositedLayers heap a, layersIntersect (heap l) (heap c) = true →
    ∀ zc ∈ (heap c).zpos, zc ≤ zl) ∨
  ∀ c ∈ o.compositedLayers heap a, layersIntersect (heap l) (heap c) = true →
    ∀ zc ∈ (heap c).zpos, zl ≤ zc

theorem AdmitsSlot.one_side (h : o.AdmitsSlot heap a) {l : LayerId}
    (hl : l ∈ o.placedLayers heap a) {zl : UInt64} (hz : (heap l).zpos = some zl) :
    o.OneSide heap a l zl := by
  obtain ⟨slot, h⟩ := h
  by_cases hlt : zl < slot
  · right
    intro c hc hi zc hzc
    refine UInt64.not_lt.mp fun hlow => ?_
    exact absurd ((h l hl c hc hi zl hz zc hzc).1 hlow) (UInt64.not_le.mpr hlt)
  · left
    intro c hc hi zc hzc
    exact UInt64.not_lt.mp fun hhigh => hlt ((h l hl c hc hi zl hz zc hzc).2 hhigh)

theorem admitsSlot_of_feasible (h : (o.canvasBounds heap a).feasible = true) :
    o.AdmitsSlot heap a := by
  rw [admitsSlot_iff]
  have hb := canvasBounds_bound o heap a
  have hsucc : ∀ x y : UInt64, x < y → (x + 1).toNat = x.toNat + 1 := by
    intro x y hxy
    have := UInt64.lt_iff_toNat_lt.mp hxy
    have := y.toNat_lt
    rw [UInt64.toNat_add]
    exact Nat.mod_eq_of_lt (by simpa using by omega)
  cases habove : (o.canvasBounds heap a).above with
  | some above =>
    refine ⟨above, fun x hx => ⟨fun hlt => ?_, fun hlt => ?_⟩⟩
    · obtain ⟨v, hv, hle⟩ := hb.above_le x hx hlt
      rw [habove] at hv
      cases hv
      exact hle
    · obtain ⟨v, hv, hle⟩ := hb.le_below x hx hlt
      simp only [CanvasBounds.feasible, habove, Option.mem_def.mp hv] at h
      rw [UInt64.le_iff_toNat_le] at hle
      have hva := UInt64.lt_iff_toNat_lt.mp (of_decide_eq_true h)
      exact UInt64.lt_iff_toNat_lt.mpr (by omega)
  | none =>
    have hno : ∀ x ∈ o.overlaps heap a, ¬ x.2 < x.1 := by
      intro x hx hlt
      obtain ⟨v, hv, -⟩ := hb.above_le x hx hlt
      rw [habove] at hv
      cases hv
    cases hbelow : (o.canvasBounds heap a).below with
    | none =>
      refine ⟨0, fun x hx => ⟨fun hlt => absurd hlt (hno x hx), fun hlt => ?_⟩⟩
      obtain ⟨v, hv, -⟩ := hb.le_below x hx hlt
      rw [hbelow] at hv
      cases hv
    | some below =>
      obtain ⟨y, -, hylt, hy⟩ := hb.below_mem below hbelow
      refine ⟨below + 1, fun x hx => ⟨fun hlt => absurd hlt (hno x hx), fun hlt => ?_⟩⟩
      obtain ⟨v, hv, hle⟩ := hb.le_below x hx hlt
      rw [hbelow] at hv
      cases hv
      rw [UInt64.le_iff_toNat_le] at hle
      rw [UInt64.lt_iff_toNat_lt, hsucc below y.2 (hy ▸ hylt)]
      omega

end Output

/-! ### Moving caught layers into the composition -/

namespace SearchContext

variable {c : SearchContext} {a : Assignment} {below above : UInt64}

/-- A pinned layer overlaps a composited one between the bounds, with composited layers both under
and over it. -/
def PinnedCaught (c : SearchContext) (a : Assignment) : Prop :=
  ∃ below above, (c.output.canvasBounds c.heap a).below = some below ∧
    (c.output.canvasBounds c.heap a).above = some above ∧
    ∃ l ∈ c.output.layers, (c.heap l).pinned = true ∧ c.isCaught a below above l = true ∧
      ∃ bottom ∈ c.output.compositedLayers c.heap a, ∃ top ∈ c.output.compositedLayers c.heap a,
        ∃ zu ∈ (c.heap bottom).zpos, ∃ z ∈ (c.heap l).zpos, ∃ zo ∈ (c.heap top).zpos,
          zu < z ∧ z < zo

theorem caughtVictim_eq (a : Assignment) (below above : UInt64) :
    c.caughtVictim a below above = bestOf
      (fun e b => keepPriority (c.heap e.2) < keepPriority (c.heap b.2))
      (a.entries.filter fun e => c.isCaught a below above e.2) := by
  unfold caughtVictim bestOf
  congr 1
  funext best e
  cases best <;> simp [keepBetter]

theorem caughtVictim_eq_none : c.caughtVictim a below above = none ↔
    ∀ e ∈ a.entries, c.isCaught a below above e.2 = false := by
  rw [caughtVictim_eq, bestOf_eq_none, List.filter_eq_nil_iff]
  simp

theorem mem_of_caughtVictim {e : PlaneId × LayerId} (h : c.caughtVictim a below above = some e) :
    e ∈ a.entries := by
  rw [caughtVictim_eq] at h
  exact List.mem_of_mem_filter (mem_of_bestOf h)

theorem size_demote_lt {e : PlaneId × LayerId} (he : e ∈ a.entries)
    (p : PlaneId × LayerId → Bool) : ((a.erase e.1).filter p).size < a.size := by
  have hsub : ((a.erase e.1).filter p).entries.Sublist a.entries :=
    List.filter_sublist.trans List.filter_sublist
  refine Nat.lt_of_le_of_ne hsub.length_le fun heq => ?_
  rw [← hsub.eq_of_length heq] at he
  exact (Table.mem_erase.mp (Table.mem_filter.mp he).1).1 rfl

/-- Infeasible bounds without a victim come from pinned layers: the lowest layer that has to cover
the canvas overlaps a composited one, so it would be caught if it were assigned. -/
theorem pinnedCaught_of_no_victim
    (hbelow : (c.output.canvasBounds c.heap a).below = some below)
    (habove : (c.output.canvasBounds c.heap a).above = some above)
    (hinfeasible : ¬ (c.output.canvasBounds c.heap a).feasible = true)
    (hv : c.caughtVictim a below above = none) : c.PinnedCaught a := by
  have hb := Output.canvasBounds_bound c.output c.heap a
  have hle : above ≤ below := by
    simp only [CanvasBounds.feasible, hbelow, habove, decide_eq_true_eq] at hinfeasible
    exact UInt64.not_lt.mp hinfeasible
  obtain ⟨x, hx, hxlt, rfl⟩ := hb.above_mem above habove
  obtain ⟨y, hy, hylt, rfl⟩ := hb.below_mem below hbelow
  obtain ⟨l, hl, bottom, hbottom, hzl, hzu, hi⟩ := Output.mem_overlaps.mp hx
  obtain ⟨-, -, top, htop, -, hzo, -⟩ := Output.mem_overlaps.mp hy
  have hcaught : c.isCaught a y.1 x.1 l = true := by
    have hne : x.2 ≠ x.1 := fun heq => UInt64.lt_irrefl _ (heq ▸ hxlt)
    simp only [isCaught, hzl, Bool.and_eq_true, decide_eq_true_eq, List.any_eq_true]
    exact ⟨⟨UInt64.le_refl _, hle⟩, bottom, hbottom, by simp [hzu, hne], hi⟩
  have hpinned : l ∈ c.output.layers ∧ (c.heap l).pinned = true := by
    rcases List.mem_append.mp hl with hl | hl
    · obtain ⟨p, hp⟩ := Table.mem_values.mp hl
      have hfree := caughtVictim_eq_none.mp hv (p, l) hp
      rw [hcaught] at hfree
      cases hfree
    · obtain ⟨hl, hp⟩ := List.mem_filter.mp hl
      rw [Bool.and_eq_true] at hp
      refine ⟨hl, ?_⟩
      by_contra hno
      simp [Output.pinnedPlane, hno] at hp
  refine ⟨y.1, x.1, hbelow, habove, l, hpinned.1, hpinned.2, hcaught, bottom, hbottom, top, htop,
    x.2, hzu, x.1, hzl, y.2, hzo, hxlt, ?_⟩
  rw [UInt64.le_iff_toNat_le] at hle
  rw [UInt64.lt_iff_toNat_lt] at hylt ⊢
  omega

/-- More rounds than placed layers change nothing. -/
theorem resolveCanvasBounds_fuel {fuel fuel' : ℕ} (h : a.size < fuel) (h' : a.size < fuel') :
    c.resolveCanvasBounds fuel a = c.resolveCanvasBounds fuel' a := by
  induction fuel generalizing fuel' a with
  | zero => omega
  | succ fuel ih =>
    obtain ⟨fuel', rfl⟩ : ∃ k, fuel' = k + 1 := ⟨fuel' - 1, by omega⟩
    rw [resolveCanvasBounds, resolveCanvasBounds]
    split
    · split
      · rfl
      · cases hv : c.caughtVictim a _ _ with
        | none => rfl
        | some e =>
          have hlt := size_demote_lt (mem_of_caughtVictim hv) fun e' =>
            !(c.device.registry.capsOf e'.1).any fun caps => caps.multirectParent = some e.1
          exact ih (by omega) (by omega)
    · rfl

theorem resolveCanvasBounds_spec {fuel : ℕ} (h : a.size < fuel) :
    ((c.resolveCanvasBounds fuel a).1 = true →
      (c.output.canvasBounds c.heap (c.resolveCanvasBounds fuel a).2).feasible = true) ∧
    ((c.resolveCanvasBounds fuel a).1 = false →
      c.PinnedCaught (c.resolveCanvasBounds fuel a).2) := by
  induction fuel generalizing a with
  | zero => omega
  | succ fuel ih =>
    rw [resolveCanvasBounds]
    split
    · rename_i below above hbelow habove
      split
      · rename_i hfeasible
        exact ⟨fun _ => hfeasible, by simp⟩
      · rename_i hinfeasible
        cases hv : c.caughtVictim a below above with
        | none =>
          exact ⟨by simp, fun _ => pinnedCaught_of_no_victim hbelow habove hinfeasible hv⟩
        | some e =>
          have hlt := size_demote_lt (mem_of_caughtVictim hv) fun e' =>
            !(c.device.registry.capsOf e'.1).any fun caps => caps.multirectParent = some e.1
          exact ih (by omega)
    · rename_i hno
      refine ⟨fun _ => ?_, by simp⟩
      unfold CanvasBounds.feasible
      split
      · rename_i below above hbelow habove
        exact absurd habove (hno below above hbelow)
      · rfl

/-- `resolve_canvas_bounds` ends after at most one round per placed layer. When it succeeds a slot
is left for the canvas, with every placed layer on one side of what it overlaps; it gives up only
when a pinned layer is caught. -/
theorem resolveCanvasBounds_settles (c : SearchContext) (a : Assignment) :
    (∀ fuel > a.size, c.resolveCanvasBounds fuel a = c.resolveCanvasBounds (a.size + 1) a) ∧
    ((c.resolveCanvasBounds (a.size + 1) a).1 = true →
      c.output.AdmitsSlot c.heap (c.resolveCanvasBounds (a.size + 1) a).2 ∧
      ∀ l ∈ c.output.placedLayers c.heap (c.resolveCanvasBounds (a.size + 1) a).2,
        ∀ zl ∈ (c.heap l).zpos,
          c.output.OneSide c.heap (c.resolveCanvasBounds (a.size + 1) a).2 l zl) ∧
    ((c.resolveCanvasBounds (a.size + 1) a).1 = false →
      c.PinnedCaught (c.resolveCanvasBounds (a.size + 1) a).2) := by
  obtain ⟨htrue, hfalse⟩ := resolveCanvasBounds_spec (c := c) (Nat.lt_succ_self a.size)
  refine ⟨fun fuel hfuel => resolveCanvasBounds_fuel hfuel (Nat.lt_succ_self _),
    fun h => ?_, hfalse⟩
  have hslot := Output.admitsSlot_of_feasible (htrue h)
  exact ⟨hslot, fun l hl zl hzl => hslot.one_side hl hzl⟩

end SearchContext

end DrmCxx.Planes
