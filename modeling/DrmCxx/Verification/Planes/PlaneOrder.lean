import DrmCxx.Lib.Best
import DrmCxx.Verification.Planes.Search

/-!
# Plane order

On a CRTC whose planes stack by id, the layers below the composited run take rising planes, the
canvas lies above them, and the layers above the run take rising planes above the canvas.
-/

namespace DrmCxx.Planes

open DrmCxx.Lib

namespace SearchContext

variable {fits : ℕ → ℕ → Bool} {n m : ℕ}

/-! ### Earliest and latest planes -/

theorem preOf_succ {i k : ℕ} (h : preOf fits m (i + 1) = some k) :
    ∃ start j, preOf fits m i = some start ∧ k = j + 1 ∧ start ≤ j ∧ j < m := by
  obtain ⟨start, hstart, h⟩ := Option.bind_eq_some_iff.mp h
  obtain ⟨j, hj, rfl⟩ := Option.map_eq_some_iff.mp h
  have hle := List.find?_some hj
  rw [Bool.and_eq_true, decide_eq_true_eq] at hle
  exact ⟨start, j, hstart, rfl, hle.1, List.mem_range.mp (List.mem_of_find?_eq_some hj)⟩

/-- Lower layers end at or below where higher ones start. -/
theorem preOf_mono {i a lo : ℕ} (hia : i ≤ a) (h : preOf fits m a = some lo) :
    ∃ start ≤ lo, preOf fits m i = some start := by
  induction a generalizing lo with
  | zero =>
    obtain rfl : i = 0 := Nat.le_zero.mp hia
    exact ⟨lo, le_refl lo, h⟩
  | succ a ih =>
    rcases Nat.lt_or_eq_of_le hia with hlt | rfl
    · obtain ⟨start, j, hstart, rfl, hle, -⟩ := preOf_succ h
      obtain ⟨s, hs, hi⟩ := ih (Nat.le_of_lt_succ hlt) hstart
      exact ⟨s, by omega, hi⟩
    · exact ⟨lo, le_refl lo, h⟩

theorem sufOf_succ {k q : ℕ} (h : sufOf fits n m (k + 1) = some q) :
    ∃ stop, sufOf fits n m k = some stop ∧ q < stop := by
  obtain ⟨stop, hstop, h⟩ := Option.bind_eq_some_iff.mp h
  exact ⟨stop, hstop, List.mem_range.mp (List.mem_reverse.mp (List.mem_of_find?_eq_some h))⟩

/-- The last `k` layers stay at or above where the last `k'` begin, for `k ≤ k'`. -/
theorem sufOf_mono {k k' hi : ℕ} (hk : k ≤ k') (h : sufOf fits n m k' = some hi) :
    ∃ q, hi ≤ q ∧ q ≤ m ∧ sufOf fits n m k = some q := by
  induction k' generalizing k hi with
  | zero =>
    obtain rfl : k = 0 := Nat.le_zero.mp hk
    have : hi = m := (Option.some.inj h).symm
    exact ⟨hi, le_refl hi, by omega, h⟩
  | succ k' ih =>
    obtain ⟨stop, hstop, hlt⟩ := sufOf_succ h
    rcases Nat.lt_or_eq_of_le hk with hk | rfl
    · obtain ⟨q, hq, hm, hs⟩ := ih (Nat.le_of_lt_succ hk) hstop
      exact ⟨q, by omega, hm, hs⟩
    · obtain ⟨q, hq, hm, hs⟩ := ih (le_refl k') hstop
      rw [hstop] at hs
      cases hs
      exact ⟨hi, le_refl hi, by omega, h⟩

namespace OrderProblem

variable {o : OrderProblem} {choice : Choice}

/-- A run whose layers fit around it, with room for its canvas. -/
structure Valid (o : OrderProblem) (choice : Choice) (lo hi : ℕ) : Prop where
  le : choice.a ≤ choice.b
  bounded : choice.b ≤ o.n
  pre : o.pre choice.a = some lo
  suf : o.suf choice.b = some hi
  gap : lo ≤ hi
  canvas : choice.a < choice.b → o.withCanvas = true →
    ∃ j, choice.canvas = some j ∧ lo ≤ j ∧ j < hi

theorem choiceAt_valid {a b : ℕ} (hab : a ≤ b) (hb : b ≤ o.n) (h : o.choiceAt a b = some choice) :
    ∃ lo hi, o.Valid choice lo hi := by
  unfold choiceAt at h
  split at h
  · rename_i lo hi hlo hhi
    refine ⟨lo, hi, ?_⟩
    split at h
    · cases h
    · split at h
      · rename_i hne
        split at h
        · rename_i hle
          cases h
          subst hne
          exact ⟨le_refl _, hb, hlo, hhi, hle, fun hlt => absurd hlt (lt_irrefl _)⟩
        · cases h
      · split at h
        · obtain ⟨j, hj, rfl⟩ := Option.map_eq_some_iff.mp h
          have hmem := List.mem_range.mp (List.mem_reverse.mp (List.mem_of_find?_eq_some hj))
          have hle := List.find?_some hj
          rw [Bool.and_eq_true, decide_eq_true_eq] at hle
          exact ⟨hab, hb, hlo, hhi, by omega, fun _ _ => ⟨j, rfl, hle.1, hmem⟩⟩
        · rename_i hno
          split at h
          · rename_i hle
            cases h
            exact ⟨hab, hb, hlo, hhi, hle, fun _ hyes => absurd hyes hno⟩
          · cases h
  · cases h

theorem mem_choices : choice ∈ o.choices ↔
    ∃ a b, a ≤ b ∧ b ≤ o.n ∧ o.choiceAt a b = some choice := by
  simp only [choices, List.mem_flatMap, List.mem_filterMap, List.mem_filter, List.mem_range,
    decide_eq_true_eq]
  constructor
  · rintro ⟨a, -, b, ⟨hb, hab⟩, h⟩
    exact ⟨a, b, hab, Nat.le_of_lt_succ hb, h⟩
  · rintro ⟨a, b, hab, hb, h⟩
    exact ⟨a, by omega, b, ⟨by omega, hab⟩, h⟩

theorem choose_eq (o : OrderProblem) (maxPlaced : ℕ) :
    o.choose maxPlaced =
      bestOf o.better (o.choices.filter fun c => o.placed c ≤ maxPlaced) := by
  have hkeep : o.keepBest = keepBetter o.better := by
    funext best c
    cases best <;> rfl
  rw [choose, hkeep, bestOf]

theorem choose_valid {maxPlaced : ℕ} (h : o.choose maxPlaced = some choice) :
    ∃ lo hi, o.Valid choice lo hi := by
  rw [choose_eq] at h
  obtain ⟨a, b, hab, hb, hchoice⟩ := mem_choices.mp (List.mem_of_mem_filter (mem_of_bestOf h))
  exact choiceAt_valid hab hb hchoice

/-- The plane index of layer `i`, outside the run. -/
def slot (o : OrderProblem) (choice : Choice) (i : ℕ) : Option ℕ :=
  if i < choice.a then (o.pre (i + 1)).map (· - 1)
  else if i < choice.b then none
  else o.suf i

variable {lo hi i j : ℕ}

theorem Valid.slot_below (h : o.Valid choice lo hi) (hi' : i < choice.a) :
    ∃ k start, o.slot choice i = some k ∧ o.pre i = some start ∧ start ≤ k ∧ k < lo ∧ k < o.m ∧
      o.pre (i + 1) = some (k + 1) := by
  obtain ⟨top, htop, hpre⟩ := preOf_mono hi' h.pre
  obtain ⟨start, k, hstart, rfl, hle, hm⟩ := preOf_succ hpre
  exact ⟨k, start, by rw [slot, if_pos hi', OrderProblem.pre, hpre]; rfl, hstart, hle, by omega, hm,
    hpre⟩

theorem Valid.slot_above (h : o.Valid choice lo hi) (hb : choice.b ≤ i) (hn : i < o.n) :
    ∃ k stop, o.slot choice i = some k ∧ o.suf (i + 1) = some stop ∧ k < stop ∧ hi ≤ k ∧
      stop ≤ o.m := by
  have hle : o.n - i ≤ o.n - choice.b := by omega
  obtain ⟨k, hk, -, hs⟩ := sufOf_mono hle h.suf
  obtain ⟨r, hr⟩ : ∃ r, o.n - i = r + 1 := ⟨o.n - i - 1, by omega⟩
  have hs' := hs
  rw [hr] at hs'
  obtain ⟨stop, hstop, hlt⟩ := sufOf_succ hs'
  obtain ⟨q, -, hm, hq⟩ := sufOf_mono (le_refl r) hstop
  have hstop' : o.suf (i + 1) = some stop := by
    rw [OrderProblem.suf, show o.n - (i + 1) = r by omega]
    exact hstop
  refine ⟨k, stop, ?_, hstop', hlt, hk, ?_⟩
  · rw [slot, if_neg (by have := h.le; omega), if_neg (by omega)]
    exact hs
  · rw [hstop] at hq
    cases hq
    exact hm

theorem Valid.hi_le (h : o.Valid choice lo hi) : hi ≤ o.m := by
  have hsuf : sufOf o.fits o.n o.m (o.n - choice.b) = some hi := h.suf
  obtain ⟨top, -, hm, hs⟩ := sufOf_mono (le_refl _) hsuf
  rw [hsuf] at hs
  cases hs
  exact hm

/-- Placed layers rise with their index. -/
theorem Valid.slot_lt (h : o.Valid choice lo hi) {p q : ℕ} (hij : i < j) (hj : j < o.n)
    (hp : o.slot choice i = some p) (hq : o.slot choice j = some q) : p < q := by
  have hab := h.le
  have hgap := h.gap
  by_cases hia : i < choice.a
  · obtain ⟨k, start, hk, -, -, hlt, -, hpre⟩ := h.slot_below hia
    rw [hp] at hk
    cases hk
    by_cases hja : j < choice.a
    · obtain ⟨k', start', hk', hstart', hle', -, -, -⟩ := h.slot_below hja
      rw [hq] at hk'
      cases hk'
      obtain ⟨s, hs, hsi⟩ := preOf_mono (Nat.succ_le_of_lt hij) hstart'
      rw [show preOf o.fits o.m (i + 1) = some (p + 1) from hpre] at hsi
      cases hsi
      omega
    · by_cases hjb : j < choice.b
      · rw [slot, if_neg hja, if_pos hjb] at hq
        cases hq
      · obtain ⟨k', stop, hk', -, -, hge, -⟩ := h.slot_above (Nat.le_of_not_lt hjb) hj
        rw [hq] at hk'
        cases hk'
        omega
  · by_cases hib : i < choice.b
    · rw [slot, if_neg hia, if_pos hib] at hp
      cases hp
    · obtain ⟨k, stop, hk, hstop, hlt, -, -⟩ := h.slot_above (Nat.le_of_not_lt hib) (hij.trans hj)
      rw [hp] at hk
      cases hk
      have hjs : o.suf j = some q := by
        rw [slot, if_neg (by omega), if_neg (by omega)] at hq
        exact hq
      have hle : o.n - j ≤ o.n - (i + 1) := by omega
      obtain ⟨q', hq', -, hs⟩ := sufOf_mono hle hstop
      rw [show sufOf o.fits o.n o.m (o.n - j) = some q from hjs] at hs
      cases hs
      omega

theorem Valid.slot_bounded (h : o.Valid choice lo hi) {p : ℕ} (hn : i < o.n)
    (hp : o.slot choice i = some p) : p < o.m := by
  by_cases hia : i < choice.a
  · obtain ⟨k, -, hk, -, -, -, hm, -⟩ := h.slot_below hia
    rw [hp] at hk
    cases hk
    exact hm
  · by_cases hib : i < choice.b
    · rw [slot, if_neg hia, if_pos hib] at hp
      cases hp
    · obtain ⟨k, stop, hk, -, hlt, -, hm⟩ := h.slot_above (Nat.le_of_not_lt hib) hn
      rw [hp] at hk
      cases hk
      omega

theorem Valid.slot_isSome (h : o.Valid choice lo hi) (hn : i < o.n)
    (hrun : i < choice.a ∨ choice.b ≤ i) : ∃ p, o.slot choice i = some p := by
  rcases hrun with hrun | hrun
  · obtain ⟨k, -, hk, -⟩ := h.slot_below hrun
    exact ⟨k, hk⟩
  · obtain ⟨k, -, hk, -⟩ := h.slot_above hrun hn
    exact ⟨k, hk⟩

end OrderProblem

/-! ### The assignment of a choice -/

section Entries

variable {layers : List LayerId} {byId : List PlaneCapabilities} {o : OrderProblem}
  {choice : Choice} {lo hi : ℕ}

/-- The layers outside the run, each with its plane index, in stacking order. -/
def slots (o : OrderProblem) (choice : Choice) : List (ℕ × Option ℕ) :=
  (List.range choice.a).map (fun i => (i, (o.pre (i + 1)).map (· - 1))) ++
    ((List.range o.n).drop choice.b).map fun i => (i, o.suf i)

/-- The entry `placeAt` adds for a slot. -/
def entryAt (layers : List LayerId) (byId : List PlaneCapabilities) (slot : ℕ × Option ℕ) :
    Option (PlaneId × LayerId) :=
  (layers[slot.1]?).bind fun l => (slot.2.bind (byId[·]?)).map fun p => (p.id, l)

theorem foldl_placeAt (ss : List (ℕ × Option ℕ)) (a : Assignment) :
    ss.foldl (placeAt layers byId) a =
      (ss.filterMap (entryAt layers byId)).foldl (fun t e => t.insertOrAssign e.1 e.2) a := by
  induction ss generalizing a with
  | nil => rfl
  | cons x xs ih =>
    rw [List.foldl_cons, ih, List.filterMap_cons]
    cases hl : layers[x.1]? with
    | none => simp [placeAt, entryAt, hl]
    | some l =>
      cases hp : x.2.bind (byId[·]?) with
      | none => simp [placeAt, entryAt, hl, hp]
      | some p => simp [placeAt, entryAt, hl, hp]

theorem mem_slots (h : o.Valid choice lo hi) {i : ℕ} {j : Option ℕ} :
    (i, j) ∈ slots o choice ↔
      i < o.n ∧ (i < choice.a ∨ choice.b ≤ i) ∧ o.slot choice i = j := by
  have hab := h.le
  have hb := h.bounded
  have hdrop : ∀ x, x ∈ (List.range o.n).drop choice.b ↔ choice.b ≤ x ∧ x < o.n := by
    intro x
    rw [List.range_eq_range', List.drop_range', List.mem_range'_1]
    omega
  simp only [slots, List.mem_append, List.mem_map, Prod.mk.injEq, hdrop, List.mem_range,
    OrderProblem.slot]
  constructor
  · rintro (⟨x, hx, rfl, hj⟩ | ⟨x, hx, rfl, hj⟩)
    · exact ⟨by omega, .inl hx, by rw [if_pos hx, hj]⟩
    · exact ⟨hx.2, .inr hx.1, by rw [if_neg (by omega), if_neg (by omega), hj]⟩
  · rintro ⟨hn, hrun | hrun, hj⟩
    · exact .inl ⟨i, hrun, rfl, by rwa [if_pos hrun] at hj⟩
    · rw [if_neg (by omega), if_neg (by omega)] at hj
      exact .inr ⟨i, ⟨hrun, hn⟩, rfl, hj⟩

theorem slots_sorted (h : o.Valid choice lo hi) :
    (slots o choice).Pairwise fun x y => x.1 < y.1 := by
  have hab := h.le
  rw [slots, List.pairwise_append]
  refine ⟨?_, ?_, ?_⟩
  · exact List.pairwise_map.mpr List.pairwise_lt_range
  · exact List.pairwise_map.mpr (List.pairwise_lt_range.sublist (List.drop_sublist _ _))
  · intro x hx y hy
    obtain ⟨i, hi', rfl⟩ := List.mem_map.mp hx
    obtain ⟨j, hj, rfl⟩ := List.mem_map.mp hy
    rw [List.range_eq_range', List.drop_range', List.mem_range'_1] at hj
    have := List.mem_range.mp hi'
    dsimp only
    omega

/-- The planes of the entries rise with the slots. -/
theorem entries_sorted (h : o.Valid choice lo hi)
    (hid : byId.Pairwise fun p q => p.id < q.id) :
    ((slots o choice).filterMap (entryAt layers byId)).Pairwise fun x y => x.1 < y.1 := by
  rw [List.pairwise_filterMap]
  refine (slots_sorted h).imp_of_mem ?_
  intro x y hx hy hlt e he e' he'
  obtain ⟨l, -, he⟩ := Option.bind_eq_some_iff.mp he
  obtain ⟨p, hp, rfl⟩ := Option.map_eq_some_iff.mp he
  obtain ⟨j, hj, hp⟩ := Option.bind_eq_some_iff.mp hp
  obtain ⟨l', -, he'⟩ := Option.bind_eq_some_iff.mp he'
  obtain ⟨p', hp', rfl⟩ := Option.map_eq_some_iff.mp he'
  obtain ⟨j', hj', hp'⟩ := Option.bind_eq_some_iff.mp hp'
  obtain ⟨hn, -, hslot⟩ := (mem_slots h).mp hx
  obtain ⟨hn', -, hslot'⟩ := (mem_slots h).mp hy
  have hjj : j < j' := h.slot_lt hlt hn' (hslot.trans hj) (hslot'.trans hj')
  obtain ⟨hb, rfl⟩ := List.getElem?_eq_some_iff.mp hp
  obtain ⟨hb', rfl⟩ := List.getElem?_eq_some_iff.mp hp'
  exact List.pairwise_iff_getElem.mp hid j j' hb hb' hjj

theorem entries_assignmentOf (h : o.Valid choice lo hi)
    (hid : byId.Pairwise fun p q => p.id < q.id) :
    (assignmentOf layers byId o choice).entries =
      (slots o choice).filterMap (entryAt layers byId) := by
  have hkeys : ((slots o choice).filterMap (entryAt layers byId)).map Prod.fst |>.Nodup :=
    List.pairwise_map.mpr ((entries_sorted h hid).imp ne_of_lt)
  rw [assignmentOf, show (List.range choice.a).map _ ++ _ = slots o choice from rfl, foldl_placeAt]
  exact Table.entries_foldl_insertOrAssign hkeys

/-- Exactly the layers outside the run are placed, each at its slot. -/
theorem mem_assignmentOf (h : o.Valid choice lo hi) (hn : o.n = layers.length)
    (hid : byId.Pairwise fun p q => p.id < q.id) {p : PlaneId} {l : LayerId} :
    (p, l) ∈ (assignmentOf layers byId o choice).entries ↔
      ∃ i k q, layers[i]? = some l ∧ o.slot choice i = some k ∧ byId[k]? = some q ∧ q.id = p := by
  rw [entries_assignmentOf h hid, List.mem_filterMap]
  constructor
  · rintro ⟨⟨i, j⟩, hmem, he⟩
    obtain ⟨l', hl, he⟩ := Option.bind_eq_some_iff.mp he
    obtain ⟨q, hq, he⟩ := Option.map_eq_some_iff.mp he
    obtain ⟨k, hk, hq⟩ := Option.bind_eq_some_iff.mp hq
    cases he
    exact ⟨i, k, q, hl, ((mem_slots h).mp hmem).2.2.trans hk, hq, rfl⟩
  · rintro ⟨i, k, q, hl, hk, hq, rfl⟩
    have hi' : i < o.n := hn ▸ (List.getElem?_eq_some_iff.mp hl).1
    refine ⟨(i, some k), (mem_slots h).mpr ⟨hi', ?_, hk⟩, by simp [entryAt, hl, hq]⟩
    by_contra hrun
    rw [OrderProblem.slot, if_neg (by omega), if_pos (by omega)] at hk
    cases hk

end Entries

/-! ### Seats -/

/-- The plane a layer is seen on, its own or the canvas. -/
def seat (a : Assignment) (canvas : Option PlaneId) (l : LayerId) : Option PlaneId × Bool :=
  ((a.entries.find? fun e => e.2 = l).map fun e => (some e.1, false)).getD (canvas, true)

/-- The first seat is on a lower plane, or both are on the canvas. -/
def Below (x y : Option PlaneId × Bool) : Prop :=
  ∃ p q, x.1 = some p ∧ y.1 = some q ∧ (p < q ∨ (p = q ∧ x.2 = true ∧ y.2 = true))

section Seats

variable {c : SearchContext} {s : SearchState} {layers : List LayerId}
  {byId : List PlaneCapabilities} {o : OrderProblem} {choice : Choice} {lo hi : ℕ}

theorem getElem?_inj {i j : ℕ} {l : LayerId} (hnd : layers.Nodup) (hi' : layers[i]? = some l)
    (hj : layers[j]? = some l) : i = j := by
  obtain ⟨hil, hil'⟩ := List.getElem?_eq_some_iff.mp hi'
  obtain ⟨hjl, hjl'⟩ := List.getElem?_eq_some_iff.mp hj
  exact (List.Nodup.getElem_inj_iff hnd).mp (hil'.trans hjl'.symm)

theorem seat_of_slot (h : o.Valid choice lo hi) (hn : o.n = layers.length) (hm : o.m = byId.length)
    (hid : byId.Pairwise fun p q => p.id < q.id) (hnd : layers.Nodup) {canvas : Option PlaneId}
    {i k : ℕ} {l : LayerId} (hl : layers[i]? = some l) (hk : o.slot choice i = some k) :
    ∃ q, byId[k]? = some q ∧
      seat (assignmentOf layers byId o choice) canvas l = (some q.id, false) := by
  have hil : i < o.n := hn ▸ (List.getElem?_eq_some_iff.mp hl).1
  have hkm : k < byId.length := hm ▸ h.slot_bounded hil hk
  have hq : byId[k]? = some byId[k] := List.getElem?_eq_getElem hkm
  refine ⟨_, hq, ?_⟩
  have hmem := (mem_assignmentOf h hn hid).mpr ⟨i, k, _, hl, hk, hq, rfl⟩
  unfold seat
  cases hf : (assignmentOf layers byId o choice).entries.find? fun e => e.2 = l with
  | none => exact absurd (List.find?_eq_none.mp hf _ hmem) (by simp)
  | some e =>
    have hel : e.2 = l := by simpa using List.find?_some hf
    obtain ⟨i', k', q, hl', hk', hq', hqe⟩ :=
      (mem_assignmentOf (p := e.1) (l := e.2) h hn hid).mp (List.mem_of_find?_eq_some hf)
    rw [hel] at hl'
    obtain rfl := getElem?_inj hnd hl hl'
    rw [hk] at hk'
    cases hk'
    rw [hq] at hq'
    cases hq'
    simp [hqe]

theorem seat_of_run (h : o.Valid choice lo hi) (hn : o.n = layers.length)
    (hid : byId.Pairwise fun p q => p.id < q.id) (hnd : layers.Nodup) {canvas : Option PlaneId}
    {i : ℕ} {l : LayerId} (hl : layers[i]? = some l) (hrun : choice.a ≤ i ∧ i < choice.b) :
    seat (assignmentOf layers byId o choice) canvas l = (canvas, true) := by
  unfold seat
  cases hf : (assignmentOf layers byId o choice).entries.find? fun e => e.2 = l with
  | none => rfl
  | some e =>
    have hel : e.2 = l := by simpa using List.find?_some hf
    obtain ⟨i', k', -, hl', hk', -⟩ :=
      (mem_assignmentOf (p := e.1) (l := e.2) h hn hid).mp (List.mem_of_find?_eq_some hf)
    rw [hel] at hl'
    obtain rfl := getElem?_inj hnd hl hl'
    rw [OrderProblem.slot, if_neg (by omega), if_pos hrun.2] at hk'
    cases hk'

/-- A valid choice seats the layers in their order. -/
theorem below_of_valid (h : o.Valid choice lo hi) (hn : o.n = layers.length)
    (hm : o.m = byId.length) (hw : o.withCanvas = true)
    (hid : byId.Pairwise fun p q => p.id < q.id) (hnd : layers.Nodup) {i j : ℕ} {l l' : LayerId}
    (hij : i < j) (hl : layers[i]? = some l) (hl' : layers[j]? = some l') :
    Below (seat (assignmentOf layers byId o choice) (canvasOf byId (some choice)) l)
      (seat (assignmentOf layers byId o choice) (canvasOf byId (some choice)) l') := by
  have hil : i < o.n := hn ▸ (List.getElem?_eq_some_iff.mp hl).1
  have hjl : j < o.n := hn ▸ (List.getElem?_eq_some_iff.mp hl').1
  have hlt : ∀ {k k' : ℕ} {q q' : PlaneCapabilities}, byId[k]? = some q → byId[k']? = some q' →
      k < k' → q.id < q'.id := by
    intro k k' q q' hq hq' hkk
    obtain ⟨hb, rfl⟩ := List.getElem?_eq_some_iff.mp hq
    obtain ⟨hb', rfl⟩ := List.getElem?_eq_some_iff.mp hq'
    exact List.pairwise_iff_getElem.mp hid k k' hb hb' hkk
  -- the canvas of a run that is not empty
  have hcanvas : choice.a < choice.b → ∃ t q, lo ≤ t ∧ t < hi ∧ byId[t]? = some q ∧
      canvasOf byId (some choice) = some q.id := by
    intro hab
    obtain ⟨t, ht, hlo, hhi⟩ := h.canvas hab hw
    have hhm := h.hi_le
    have hq := List.getElem?_eq_getElem (l := byId) (i := t) (by omega)
    exact ⟨t, _, hlo, hhi, hq, by simp [canvasOf, ht, hq]⟩
  by_cases hir : i < choice.a ∨ choice.b ≤ i
  · obtain ⟨k, hk⟩ := h.slot_isSome hil hir
    obtain ⟨q, hq, hseat⟩ := seat_of_slot h hn hm hid hnd hl hk
    by_cases hjr : j < choice.a ∨ choice.b ≤ j
    · obtain ⟨k', hk'⟩ := h.slot_isSome hjl hjr
      obtain ⟨q', hq', hseat'⟩ := seat_of_slot h hn hm hid hnd hl' hk'
      exact ⟨q.id, q'.id, by rw [hseat], by rw [hseat'],
        .inl (hlt hq hq' (h.slot_lt hij hjl hk hk'))⟩
    · obtain ⟨t, q', hlo, -, hq', hc⟩ := hcanvas (by omega)
      obtain ⟨k', -, hk', -, -, hklo, -⟩ := h.slot_below (i := i) (by omega)
      rw [hk] at hk'
      cases hk'
      rw [seat_of_run h hn hid hnd hl' (by omega), hseat]
      exact ⟨q.id, q'.id, rfl, hc, .inl (hlt hq hq' (by omega))⟩
  · obtain ⟨t, q, -, hhi, hq, hc⟩ := hcanvas (by omega)
    rw [seat_of_run h hn hid hnd hl (by omega)]
    by_cases hjr : j < choice.a ∨ choice.b ≤ j
    · obtain ⟨k', -, hk', -, -, hge, -⟩ := h.slot_above (i := j) (by omega) hjl
      obtain ⟨q', hq', hseat'⟩ := seat_of_slot h hn hm hid hnd hl' hk'
      rw [hseat']
      exact ⟨q.id, q'.id, hc, rfl, .inl (hlt hq hq' (by omega))⟩
    · rw [seat_of_run h hn hid hnd hl' (by omega)]
      exact ⟨q.id, q.id, hc, hc, .inr ⟨rfl, rfl, rfl⟩⟩

/-- A placed layer is seen on its own plane, wherever the canvas is. -/
theorem seat_of_hasLayer {a : Assignment} {l : LayerId} (h : a.hasLayer l = true)
    (canvas canvas' : Option PlaneId) : seat a canvas l = seat a canvas' l := by
  unfold seat
  cases hf : a.entries.find? fun e => e.2 = l with
  | some e => rfl
  | none =>
    obtain ⟨e, he, hel⟩ := List.any_eq_true.mp h
    exact absurd hel (List.find?_eq_none.mp hf e he)

end Seats

/-! ### The search -/

section Search

variable {c : SearchContext} {s : SearchState}

theorem tryTestCommit_canvasPlane (a : Assignment) :
    (c.tryTestCommit s a).2.canvasPlane = s.canvasPlane := by
  unfold tryTestCommit
  split
  · rfl
  · dsimp only
    split <;> rfl

/-- A plane-order search ends with nothing, or with a valid choice and its canvas. -/
theorem planeOrderLoop_cases (layers : List LayerId) (byId : List PlaneCapabilities)
    (o : OrderProblem) (fuel maxPlaced : ℕ) :
    (c.planeOrderLoop layers byId o fuel maxPlaced s).1.isEmpty = true ∨
      ∃ choice lo hi, o.Valid choice lo hi ∧
        (c.planeOrderLoop layers byId o fuel maxPlaced s).1 = assignmentOf layers byId o choice ∧
        (c.planeOrderLoop layers byId o fuel maxPlaced s).2.canvasPlane =
          canvasOf byId (some choice) := by
  induction fuel generalizing maxPlaced s with
  | zero => exact .inl rfl
  | succ fuel ih =>
    rw [planeOrderLoop]
    split
    · exact .inl rfl
    · rename_i choice hchoice
      obtain ⟨lo, hi, hv⟩ := OrderProblem.choose_valid hchoice
      dsimp only
      split
      · rename_i hempty
        exact .inl hempty
      · split
        · exact .inr ⟨choice, lo, hi, hv, rfl, tryTestCommit_canvasPlane _⟩
        · split
          · exact .inl rfl
          · exact ih _

/-- Planes with different ids are sorted strictly. -/
theorem planesById_pairwise {planes : List PlaneCapabilities}
    (h : (planes.map PlaneCapabilities.id).Nodup) :
    (c.planesById planes).Pairwise fun p q => p.id < q.id := by
  have hsort := c.device.stdSort.sorted (fun p q : PlaneCapabilities => p.id < q.id)
    (fun p q h => decide_eq_false (Nat.lt_asymm (of_decide_eq_true h)))
    (fun p q r h h' => decide_eq_false (Nat.not_lt.mpr (Nat.le_trans
      (Nat.not_lt.mp (of_decide_eq_false h')) (Nat.not_lt.mp (of_decide_eq_false h)))))
    (planes.filter fun p => p.multirectParent.isNone && p.type ≠ .cursor)
  have hids : ((c.planesById planes).map PlaneCapabilities.id).Nodup := by
    have hperm : (c.planesById planes).Perm
        (planes.filter fun p => p.multirectParent.isNone && p.type ≠ .cursor) :=
      c.device.stdSort.perm _ _
    rw [(hperm.map _).nodup_iff]
    exact h.sublist (List.filter_sublist.map _)
  refine ((List.pairwise_map.mp hids).and hsort).imp ?_
  intro p q hpq
  exact Nat.lt_of_le_of_ne (Nat.not_lt.mp (of_decide_eq_false hpq.2)) hpq.1

theorem planesById_sorted {planes : List PlaneCapabilities}
    (h : planes.Sublist c.device.registry.planes) :
    (c.planesById planes).Pairwise fun p q => p.id < q.id :=
  planesById_pairwise (c.device.registry.nodupIds.sublist (h.map _))

theorem availablePlanes_sublist : c.availablePlanes.Sublist c.device.registry.planes :=
  List.filter_sublist.trans List.filter_sublist

/-- Where planes stack by id, a search that places anything seats every layer in zpos order. -/
theorem searchAssignment_below (hz : c.device.stacksByPlaneId c.crtcIndex = true)
    (hsorted : c.layers.Pairwise fun l l' =>
      ¬ (c.heap l').zpos.getD 0 < (c.heap l).zpos.getD 0)
    (hnd : c.layers.Nodup) (hne : (c.searchAssignment s).1.isEmpty = false) {l l' : LayerId}
    (hl : l ∈ c.sceneLayers) (hl' : l' ∈ c.sceneLayers)
    (hlt : (c.heap l).zpos.getD 0 < (c.heap l').zpos.getD 0) :
    Below (seat (c.searchAssignment s).1 (c.searchAssignment s).2.canvasPlane l)
      (seat (c.searchAssignment s).1 (c.searchAssignment s).2.canvasPlane l') := by
  have hsearch : c.searchAssignment s = c.planeOrderLoop c.sceneLayers
      (c.planesById c.availablePlanes)
      (c.orderProblem s c.sceneLayers (c.planesById c.availablePlanes) true)
      (c.sceneLayers.length + 1) c.sceneLayers.length s := by
    have hsome : c.sceneLayers.isEmpty = false := by
      cases h : c.sceneLayers with
      | nil => rw [h] at hl; cases hl
      | cons x xs => rfl
    simp [searchAssignment, hz, placeInPlaneOrder, hsome]
  rcases planeOrderLoop_cases (c := c) (s := s) c.sceneLayers (c.planesById c.availablePlanes)
      (c.orderProblem s c.sceneLayers (c.planesById c.availablePlanes) true)
      (c.sceneLayers.length + 1) c.sceneLayers.length with hempty | ⟨choice, lo, hi, hv, ha, hc⟩
  · rw [hsearch, hempty] at hne
    cases hne
  · rw [hsearch, ha, hc]
    have hnd' : c.sceneLayers.Nodup := hnd.sublist List.filter_sublist
    have hsorted' := hsorted.sublist (List.filter_sublist : c.sceneLayers.Sublist c.layers)
    obtain ⟨i, hi', rfl⟩ := List.getElem_of_mem hl
    obtain ⟨j, hj', rfl⟩ := List.getElem_of_mem hl'
    have hij : i < j := by
      rcases Nat.lt_trichotomy i j with h | rfl | h
      · exact h
      · exact absurd hlt (UInt64.lt_irrefl _)
      · exact absurd hlt (List.pairwise_iff_getElem.mp hsorted' j i hj' hi' h)
    exact below_of_valid hv rfl rfl rfl (planesById_sorted availablePlanes_sublist) hnd' hij
      (List.getElem?_eq_getElem hi') (List.getElem?_eq_getElem hj')

/-- There every plane it places on is a plain one: not virtual, and without a zpos. -/
theorem searchAssignment_plain (hz : c.device.stacksByPlaneId c.crtcIndex = true)
    {e : PlaneId × LayerId} (he : e ∈ (c.searchAssignment s).1.entries) :
    ∃ q, c.device.registry.capsOf e.1 = some q ∧ q.multirectParent = none ∧ q.zposMin = none := by
  have hplaced : c.Placed c.sceneLayers (c.planesById c.availablePlanes)
      (c.searchAssignment s).1 := by
    unfold searchAssignment placeInPlaneOrder
    rw [if_pos hz]
    split
    · exact placed_empty
    · exact planeOrderLoop_placed _ _ _ _ _
  obtain ⟨-, q, hq, hid, -⟩ := hplaced e.1 e.2 he
  obtain ⟨hq, hplain⟩ := List.mem_filter.mp ((c.device.stdSort.perm _ _).mem_iff.mp hq)
  have hcrtc := List.mem_of_mem_filter hq
  simp only [Bool.and_eq_true, Option.isNone_iff_eq_none, decide_eq_true_eq] at hplain
  refine ⟨q, PlaneRegistry.capsOf_eq_some.mpr ⟨availablePlanes_sublist.mem hq, hid⟩, hplain.1, ?_⟩
  simp only [Device.stacksByPlaneId, Bool.and_eq_true, Bool.not_eq_true', List.any_eq_false] at hz
  have := hz.2 q hcrtc
  simpa [hplain.2] using this

end Search

end SearchContext

end DrmCxx.Planes
