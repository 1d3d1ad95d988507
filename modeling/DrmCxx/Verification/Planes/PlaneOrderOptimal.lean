import DrmCxx.Verification.Planes.PlaneOrder
import DrmCxx.Verification.Planes.Trace

/-!
# The best plane-order placement

Among the placements that keep the planes in stacking order, hold every forced layer in one
composited run and leave a canvas plane inside the gap, the search picks one that places the most
layers and, among those, composites the least keep priority.
-/

namespace DrmCxx.Planes

open DrmCxx.Lib

namespace SearchContext

/-! ### First and last fits -/

theorem firstFit_le {fits : ℕ → ℕ → Bool} {m i start j : ℕ} (hj : j < m) (hstart : start ≤ j)
    (hfits : fits i j = true) : ∃ k, firstFit fits m i start = some k ∧ k ≤ j := by
  unfold firstFit
  cases hfind : (List.range m).find? fun j => start ≤ j && fits i j with
  | none =>
    have := List.find?_eq_none.mp hfind j (List.mem_range.mpr hj)
    simp [hstart, hfits] at this
  | some k =>
    refine ⟨k, rfl, Nat.le_of_not_lt fun hlt => ?_⟩
    have := (List.find?_range_eq_some.mp hfind).2.2 j hlt
    simp [hstart, hfits] at this

/-- Searching down from the top finds the last. -/
theorem find?_reverse_range {p : ℕ → Bool} {stop j : ℕ} (hj : j < stop) (hp : p j = true) :
    ∃ k, (List.range stop).reverse.find? p = some k ∧ j ≤ k := by
  induction stop with
  | zero => exact absurd hj (Nat.not_lt_zero j)
  | succ stop ih =>
    rw [List.range_succ, List.reverse_append, List.reverse_singleton, List.singleton_append,
      List.find?_cons]
    split
    · exact ⟨stop, rfl, Nat.le_of_lt_succ hj⟩
    · rename_i hno
      refine ih (Nat.lt_of_le_of_ne (Nat.le_of_lt_succ hj) ?_)
      rintro rfl
      simp [hp] at hno

namespace OrderProblem

variable {o : OrderProblem}

/-! ### Placements -/

/-- A placement by index: the composited run `[a, b)`, the planes of the other layers, the
canvas. -/
structure Placement where
  a : ℕ
  b : ℕ
  plane : ℕ → ℕ
  canvas : Option ℕ

/-- The layer is outside the run. -/
def Placement.Holds (p : Placement) (i : ℕ) : Prop := i < p.a ∨ p.b ≤ i

/-- What is asked of a placement. -/
structure Admissible (o : OrderProblem) (p : Placement) : Prop where
  le : p.a ≤ p.b
  bounded : p.b ≤ o.n
  forced : ∀ i < o.n, o.forced i = true → p.a ≤ i ∧ i < p.b
  fits : ∀ i < o.n, p.Holds i → p.plane i < o.m ∧ o.fits i (p.plane i) = true
  rises : ∀ i j, i < j → j < o.n → p.Holds i → p.Holds j → p.plane i < p.plane j
  canvas : p.a < p.b → o.withCanvas = true → ∃ c ∈ p.canvas, c < o.m ∧ o.hostsCanvas c = true ∧
    (∀ i < p.a, p.plane i < c) ∧ ∀ i, p.b ≤ i → i < o.n → c < p.plane i

/-- The layers placed. -/
def Placement.placed (o : OrderProblem) (p : Placement) : ℕ := o.n - (p.b - p.a)

/-- The keep priority composited. -/
def Placement.cost (o : OrderProblem) (p : Placement) : ℤ := o.runCost p.a p.b

namespace Admissible

variable {p : Placement}

/-- Placing earliest-first uses no plane past those of another placement. -/
theorem pre_le (h : o.Admissible p) {i : ℕ} (hi : i ≤ p.a) :
    ∃ start, o.pre i = some start ∧ ∀ c, (∀ k < i, p.plane k < c) → start ≤ c := by
  induction i with
  | zero => exact ⟨0, rfl, fun c _ => Nat.zero_le c⟩
  | succ i ih =>
    obtain ⟨start, hstart, hle⟩ := ih (Nat.le_of_succ_le hi)
    have hn : i < o.n := Nat.lt_of_lt_of_le hi (h.le.trans h.bounded)
    obtain ⟨hm, hfits⟩ := h.fits i hn (.inl hi)
    have hbelow : start ≤ p.plane i := hle _ fun k hk =>
      h.rises k i hk hn (.inl (hk.trans hi)) (.inl hi)
    obtain ⟨j, hj, hjle⟩ := firstFit_le hm hbelow hfits
    refine ⟨j + 1, ?_, fun c hc => ?_⟩
    · unfold OrderProblem.pre at hstart ⊢
      rw [preOf, hstart, Option.bind_some, hj, Option.map_some]
    · have := hc i (Nat.lt_succ_self i)
      omega

/-- Placing latest-first uses no plane before those of another placement. -/
theorem le_suf (h : o.Admissible p) {k : ℕ} (hk : k ≤ o.n - p.b) :
    ∃ stop, sufOf o.fits o.n o.m k = some stop ∧
      ∀ c ≤ o.m, (∀ i, o.n - k ≤ i → i < o.n → c ≤ p.plane i) → c ≤ stop := by
  induction k with
  | zero => exact ⟨o.m, rfl, fun c hc _ => hc⟩
  | succ k ih =>
    obtain ⟨stop, hstop, hle⟩ := ih (Nat.le_of_succ_le hk)
    have hn : o.n - (k + 1) < o.n := by omega
    have hholds : p.Holds (o.n - (k + 1)) := .inr (by omega)
    obtain ⟨hm, hfits⟩ := h.fits _ hn hholds
    have habove : p.plane (o.n - (k + 1)) + 1 ≤ stop := hle _ hm fun i hi hin =>
      h.rises _ i (by omega) hin hholds (.inr (by omega))
    obtain ⟨j, hj, hjge⟩ := find?_reverse_range habove hfits
    refine ⟨j, ?_, fun c _ hc => ?_⟩
    · rw [sufOf, hstop, Option.bind_some]
      exact hj
    · exact (hc _ (Nat.le_refl _) hn).trans hjge

/-- Whatever can be placed around a run, the code finds room for. -/
theorem choiceAt_isSome (h : o.Admissible p) :
    ∃ choice, o.choiceAt p.a p.b = some choice ∧ choice.a = p.a ∧ choice.b = p.b := by
  have hbn := h.bounded
  have hab := h.le
  obtain ⟨lo, hlo, hlole⟩ := h.pre_le (Nat.le_refl p.a)
  obtain ⟨hi, hhi, hlehi⟩ := h.le_suf (Nat.le_refl (o.n - p.b))
  have hback : o.n - (o.n - p.b) = p.b := by omega
  rw [hback] at hlehi
  have hforced : o.coversForced p.a p.b = true := by
    refine List.all_eq_true.mpr fun i hi' => ?_
    cases hf : o.forced i with
    | false => rfl
    | true =>
      have := h.forced i (List.mem_range.mp hi') hf
      simp [this]
  have hlom : lo ≤ o.m := hlole _ fun k hk => (h.fits k (by omega) (.inl hk)).1
  have hgap : lo ≤ hi := hlehi lo hlom fun i hbi hin => hlole _ fun k hk =>
    h.rises k i (by omega) hin (.inl hk) (.inr hbi)
  unfold choiceAt
  rw [hlo, show o.suf p.b = some hi from hhi]
  simp only [hforced, Bool.not_true, Bool.false_eq_true, if_false]
  by_cases hrun : p.a = p.b
  · rw [if_pos hrun, if_pos hgap]
    exact ⟨_, rfl, rfl, rfl⟩
  · rw [if_neg hrun]
    by_cases hcanvas : o.withCanvas = true
    · obtain ⟨c, -, hcm, hhost, hbelow, habove⟩ := h.canvas (by omega) hcanvas
      have hclo : lo ≤ c := hlole c hbelow
      have hchi : c < hi := hlehi (c + 1) hcm habove
      obtain ⟨j, hj, -⟩ := find?_reverse_range (p := fun j => lo ≤ j && o.hostsCanvas j) hchi
        (by simp [hclo, hhost])
      rw [if_pos hcanvas, hj]
      exact ⟨_, rfl, rfl, rfl⟩
    · rw [if_neg hcanvas, if_pos hgap]
      exact ⟨_, rfl, rfl, rfl⟩

end Admissible

/-! ### The choice -/

theorem preOf_fits {fits : ℕ → ℕ → Bool} {m i k : ℕ} (h : preOf fits m (i + 1) = some (k + 1)) :
    fits i k = true := by
  obtain ⟨start, -, h⟩ := Option.bind_eq_some_iff.mp h
  obtain ⟨j, hj, hjk⟩ := Option.map_eq_some_iff.mp h
  obtain rfl : j = k := Nat.succ.inj hjk
  have hfound := List.find?_some hj
  rw [Bool.and_eq_true] at hfound
  exact hfound.2

theorem sufOf_fits {fits : ℕ → ℕ → Bool} {n m k q : ℕ} (h : sufOf fits n m (k + 1) = some q) :
    fits (n - (k + 1)) q = true := by
  obtain ⟨stop, -, h⟩ := Option.bind_eq_some_iff.mp h
  exact List.find?_some h

/-- The placement a choice stands for. -/
def placementOf (o : OrderProblem) (choice : Choice) : Placement where
  a := choice.a
  b := choice.b
  plane i := (o.slot choice i).getD 0
  canvas := choice.canvas

variable {choice : Choice}

/-- Besides fitting, a choice covers the forced layers and takes a canvas host. -/
theorem choiceAt_covers {a b : ℕ} (h : o.choiceAt a b = some choice) :
    choice.a = a ∧ choice.b = b ∧ o.coversForced a b = true ∧
      ∀ j ∈ choice.canvas, o.hostsCanvas j = true := by
  unfold choiceAt at h
  split at h
  · split at h
    · cases h
    · rename_i hcovers
      have hcovers : o.coversForced a b = true := by simpa using hcovers
      split at h
      · split at h
        · cases h
          exact ⟨rfl, rfl, hcovers, by simp⟩
        · cases h
      · split at h
        · obtain ⟨j, hj, rfl⟩ := Option.map_eq_some_iff.mp h
          have hfound := List.find?_some hj
          rw [Bool.and_eq_true] at hfound
          exact ⟨rfl, rfl, hcovers, by simpa using hfound.2⟩
        · split at h
          · cases h
            exact ⟨rfl, rfl, hcovers, by simp⟩
          · cases h
  · cases h

theorem admissible_of_choiceAt {a b : ℕ} (hab : a ≤ b) (hb : b ≤ o.n)
    (h : o.choiceAt a b = some choice) : o.Admissible (o.placementOf choice) := by
  obtain ⟨lo, hi, hv⟩ := choiceAt_valid hab hb h
  obtain ⟨rfl, rfl, hcovers, hhosts⟩ := choiceAt_covers h
  have hslot {i : ℕ} (hi : i < o.n) (hrun : i < choice.a ∨ choice.b ≤ i) :
      o.slot choice i = some ((o.placementOf choice).plane i) := by
    obtain ⟨k, hk⟩ := hv.slot_isSome hi hrun
    simp [placementOf, hk]
  refine ⟨hab, hb, fun i hi hf => ?_, fun i hi hrun => ⟨hv.slot_bounded hi (hslot hi hrun), ?_⟩,
    fun i j hij hj hri hrj => hv.slot_lt hij hj (hslot (hij.trans hj) hri) (hslot hj hrj), ?_⟩
  · have hrun : choice.a ≤ i ∧ i < choice.b := by
      simpa [hf] using List.all_eq_true.mp hcovers i (List.mem_range.mpr hi)
    exact hrun
  · have hk := hslot hi hrun
    rcases hrun with hrun | hrun
    · obtain ⟨k, -, hk', -, -, -, -, hpre⟩ := hv.slot_below hrun
      rw [hk] at hk'
      cases hk'
      exact preOf_fits hpre
    · have hge : ¬ i < choice.b := Nat.not_lt.mpr hrun
      have hsuf : sufOf o.fits o.n o.m (o.n - i) = some ((o.placementOf choice).plane i) := by
        rw [slot, if_neg (by omega), if_neg hge] at hk
        exact hk
      obtain ⟨r, hr⟩ : ∃ r, o.n - i = r + 1 := ⟨o.n - i - 1, by omega⟩
      rw [hr] at hsuf
      have hfits := sufOf_fits hsuf
      rwa [show o.n - (r + 1) = i by omega] at hfits
  · intro hrun hw
    obtain ⟨t, ht, hlo, hhi⟩ := hv.canvas hrun hw
    have him := hv.hi_le
    refine ⟨t, ht, by omega, hhosts t ht, fun i hia => ?_, fun i hbi hin => ?_⟩
    · have hin : i < o.n := Nat.lt_of_lt_of_le hia (hab.trans hb)
      obtain ⟨k, -, hk, -, -, hlt, -, -⟩ := hv.slot_below hia
      rw [Option.some.inj ((hslot hin (.inl hia)).symm.trans hk)]
      omega
    · obtain ⟨k, -, hk, -, -, hge, -⟩ := hv.slot_above hbi hin
      rw [Option.some.inj ((hslot hin (.inr hbi)).symm.trans hk)]
      omega

/-- The choices by layers placed, then by keep priority composited. -/
theorem better_eq_false {x y : Choice} : o.better x y = false ↔
    o.placed x < o.placed y ∨
      o.placed x = o.placed y ∧ o.runCost y.a y.b ≤ o.runCost x.a x.b := by
  simp only [better, Bool.or_eq_false_iff, Bool.and_eq_false_iff, decide_eq_false_iff_not]
  omega

theorem better_eq_true {x y : Choice} : o.better x y = true ↔
    o.placed y < o.placed x ∨
      o.placed x = o.placed y ∧ o.runCost x.a x.b < o.runCost y.a y.b := by
  simp only [better, Bool.or_eq_true, Bool.and_eq_true, decide_eq_true_eq, gt_iff_lt]

/-- A placement no other one of at most `maxPlaced` layers improves on. -/
structure Best (o : OrderProblem) (maxPlaced : ℕ) (p : Placement) : Prop where
  admissible : o.Admissible p
  within : p.placed o ≤ maxPlaced
  most : ∀ q, o.Admissible q → q.placed o ≤ maxPlaced → q.placed o ≤ p.placed o
  cheapest : ∀ q, o.Admissible q → q.placed o = p.placed o → p.cost o ≤ q.cost o

theorem choose_none {maxPlaced : ℕ} (h : o.choose maxPlaced = none) (p : Placement)
    (hp : o.Admissible p) : ¬ p.placed o ≤ maxPlaced := by
  intro hplaced
  obtain ⟨choice, hchoice, ha, hb⟩ := hp.choiceAt_isSome
  have hempty := bestOf_eq_none.mp ((choose_eq o maxPlaced).symm.trans h)
  have hmem : choice ∈ o.choices.filter fun c => o.placed c ≤ maxPlaced := by
    refine List.mem_filter.mpr ⟨mem_choices.mpr ⟨_, _, hp.le, hp.bounded, hchoice⟩, ?_⟩
    simpa [placed, ha, hb, Placement.placed] using hplaced
  rw [hempty] at hmem
  cases hmem

theorem choose_best {maxPlaced : ℕ} (h : o.choose maxPlaced = some choice) :
    o.Best maxPlaced (o.placementOf choice) := by
  rw [choose_eq] at h
  obtain ⟨hmem, hwithin⟩ := List.mem_filter.mp (mem_of_bestOf h)
  obtain ⟨a, b, hab, hb, hchoice⟩ := mem_choices.mp hmem
  have hwithin : o.placed choice ≤ maxPlaced := by simpa using hwithin
  have hirrefl : ∀ x, o.better x x = false := fun x => better_eq_false.mpr (.inr ⟨rfl, le_refl _⟩)
  have htrans : ∀ x y z, o.better x y = false → o.better y z = false → o.better x z = false := by
    intro x y z hxy hyz
    rw [better_eq_false] at *
    omega
  have hasymm : ∀ x y, o.better x y = true → o.better y x = false := by
    intro x y hxy
    rw [better_eq_true] at hxy
    rw [better_eq_false]
    omega
  have hbest : ∀ q, o.Admissible q → q.placed o ≤ maxPlaced → q.placed o < o.placed choice ∨
      q.placed o = o.placed choice ∧ o.runCost choice.a choice.b ≤ q.cost o := by
    intro q hq hplaced
    obtain ⟨other, hother, ha, hb⟩ := hq.choiceAt_isSome
    have hin : other ∈ o.choices.filter fun c => o.placed c ≤ maxPlaced := by
      refine List.mem_filter.mpr ⟨mem_choices.mpr ⟨_, _, hq.le, hq.bounded, hother⟩, ?_⟩
      simpa [placed, ha, hb, Placement.placed] using hplaced
    have hworse := not_better_of_bestOf hirrefl htrans hasymm h other hin
    rw [better_eq_false, ha, hb] at hworse
    simpa [placed, ha, hb, Placement.placed, Placement.cost] using hworse
  refine ⟨admissible_of_choiceAt hab hb hchoice, hwithin, fun q hq hplaced => ?_,
    fun q hq hplaced => ?_⟩
  · rcases hbest q hq hplaced with hlt | ⟨heq, -⟩
    · exact hlt.le
    · exact heq.le
  · rcases hbest q hq (hplaced.le.trans hwithin) with hlt | ⟨-, hle⟩
    · exact absurd (hplaced ▸ hlt) (lt_irrefl _)
    · exact hle

end OrderProblem

/-! ### The search -/

open OrderProblem

variable {c : SearchContext} {s : SearchState} {layers : List LayerId}
  {planes byId : List PlaneCapabilities} {o : OrderProblem} {choice : Choice}

/-- The bounds on the layers placed that the loop comes to: the one it starts from, one less than
the last placement a TEST refused, and none once the TESTs are spent. -/
inductive Reaches (c : SearchContext) (layers : List LayerId) (byId : List PlaneCapabilities)
    (o : OrderProblem) : ℕ → SearchState → ℕ → Prop
  | here (maxPlaced s) : Reaches c layers byId o maxPlaced s maxPlaced
  | refused {maxPlaced s choice verdict s' k} (hchoice : o.choose maxPlaced = some choice)
      (htest : c.tryTestCommit { s with canvasPlane := canvasOf byId (some choice) }
        (assignmentOf layers byId o choice) = (some verdict, s'))
      (hrest : Reaches c layers byId o (o.placed choice - 1) s' k) :
      Reaches c layers byId o maxPlaced s k
  | spent {maxPlaced s choice verdict s'} (hchoice : o.choose maxPlaced = some choice)
      (htest : c.tryTestCommit { s with canvasPlane := canvasOf byId (some choice) }
        (assignmentOf layers byId o choice) = (some verdict, s'))
      (hspent : c.outOfTests s' = true) : Reaches c layers byId o maxPlaced s 0

/-- The search answers with the placement: its layers on their planes, its canvas recorded. -/
structure Returns (layers : List LayerId) (byId : List PlaneCapabilities)
    (r : Assignment × SearchState) (p : Placement) : Prop where
  entries : ∀ id l, (id, l) ∈ r.1.entries ↔ ∃ i q, layers[i]? = some l ∧ p.Holds i ∧
    byId[p.plane i]? = some q ∧ q.id = id
  canvas : r.2.canvasPlane = (p.canvas.bind (byId[·]?)).map (·.id)

/-- The answer for a bound: the best placement within it, or nothing when there is none. -/
def Settles (layers : List LayerId) (byId : List PlaneCapabilities) (o : OrderProblem) (k : ℕ)
    (r : Assignment × SearchState) : Prop :=
  (∃ p, o.Best k p ∧ Returns layers byId r p) ∨
    (∀ p, o.Admissible p → ¬ p.placed o ≤ k) ∧ r.1.isEmpty = true

theorem size_assignmentOf {lo hi : ℕ} (h : o.Valid choice lo hi) (hn : o.n = layers.length)
    (hm : o.m = byId.length) (hid : byId.Pairwise fun p q => p.id < q.id) :
    (assignmentOf layers byId o choice).size = o.placed choice := by
  have hab := h.le
  have hb := h.bounded
  have hall : ∀ e ∈ slots o choice, (entryAt layers byId e).isSome = true := by
    rintro ⟨i, j⟩ he
    obtain ⟨hi', hrun, hslot⟩ := (mem_slots h).mp he
    obtain ⟨k, hk⟩ := h.slot_isSome hi' hrun
    have hil : i < layers.length := hn ▸ hi'
    have hkm : k < byId.length := hm ▸ h.slot_bounded hi' hk
    have hl : layers[i]? = some layers[i] := List.getElem?_eq_getElem hil
    have hp : byId[k]? = some byId[k] := List.getElem?_eq_getElem hkm
    simp [entryAt, hl, ← hslot, hk, hp]
  rw [Table.size, entries_assignmentOf h hid, List.filterMap_length_eq_length.mpr hall, slots,
    List.length_append, List.length_map, List.length_map, List.length_drop, List.length_range,
    List.length_range, placed]
  omega

theorem returns_assignmentOf {lo hi : ℕ} (h : o.Valid choice lo hi) (hn : o.n = layers.length)
    (hid : byId.Pairwise fun p q => p.id < q.id) {s' : SearchState}
    (hs' : s'.canvasPlane = canvasOf byId (some choice)) :
    Returns layers byId (assignmentOf layers byId o choice, s') (o.placementOf choice) := by
  refine ⟨fun id l => (mem_assignmentOf h hn hid).trans ?_, hs'⟩
  constructor
  · rintro ⟨i, k, q, hl, hk, hq, hid⟩
    have hi' : i < o.n := hn ▸ (List.getElem?_eq_some_iff.mp hl).1
    refine ⟨i, q, hl, ?_, by simpa [placementOf, hk] using hq, hid⟩
    by_contra hrun
    obtain ⟨ha, hb⟩ := not_or.mp hrun
    have ha : ¬ i < choice.a := ha
    have hb : ¬ choice.b ≤ i := hb
    rw [slot, if_neg ha, if_pos (by omega)] at hk
    cases hk
  · rintro ⟨i, q, hl, hrun, hq, hid⟩
    have hi' : i < o.n := hn ▸ (List.getElem?_eq_some_iff.mp hl).1
    obtain ⟨k, hk⟩ := h.slot_isSome hi' hrun
    exact ⟨i, k, q, hl, hk, by simpa [placementOf, hk] using hq, hid⟩

/-- A choice the search would answer with settles its bound. -/
theorem settles_choice {maxPlaced : ℕ} (hchoice : o.choose maxPlaced = some choice)
    (hn : o.n = layers.length) (hid : byId.Pairwise fun p q => p.id < q.id) {s' : SearchState}
    (hs' : s'.canvasPlane = canvasOf byId (some choice)) :
    Settles layers byId o maxPlaced (assignmentOf layers byId o choice, s') := by
  obtain ⟨lo, hi, hv⟩ := choose_valid hchoice
  exact .inl ⟨_, choose_best hchoice, returns_assignmentOf hv hn hid hs'⟩

theorem settles_none {maxPlaced : ℕ} (hchoice : o.choose maxPlaced = none) (s' : SearchState) :
    Settles layers byId o maxPlaced (Table.empty, s') :=
  .inr ⟨choose_none hchoice, rfl⟩

/-- The placement of no layer at all. -/
theorem assignmentOf_choose_zero (hchoice : o.choose 0 = some choice) (hn : o.n = layers.length)
    (hm : o.m = byId.length) (hid : byId.Pairwise fun p q => p.id < q.id) :
    assignmentOf layers byId o choice = Table.empty := by
  obtain ⟨lo, hi, hv⟩ := choose_valid hchoice
  have hsize := size_assignmentOf hv hn hm hid
  have hzero : o.placed choice ≤ 0 := (choose_best hchoice).within
  have hnil : (assignmentOf layers byId o choice).entries = [] :=
    List.length_eq_zero_iff.mp (hsize.trans (Nat.le_zero.mp hzero))
  generalize assignmentOf layers byId o choice = a at hnil
  cases a
  cases hnil
  rfl

/-- A placement the search drops leaves fewer layers to place. -/
theorem size_sub_lt {maxPlaced : ℕ} (hchoice : o.choose maxPlaced = some choice)
    (hn : o.n = layers.length) (hm : o.m = byId.length)
    (hid : byId.Pairwise fun p q => p.id < q.id)
    (hempty : ¬ (assignmentOf layers byId o choice).isEmpty = true) :
    (assignmentOf layers byId o choice).size - 1 < maxPlaced := by
  obtain ⟨lo, hi, hv⟩ := choose_valid hchoice
  have hsize := size_assignmentOf hv hn hm hid
  have hwithin : o.placed choice ≤ maxPlaced := (choose_best hchoice).within
  have hpos : (assignmentOf layers byId o choice).size ≠ 0 := by
    intro h
    rw [Table.isEmpty_eq_true] at hempty
    exact hempty (List.length_eq_zero_iff.mp h)
  omega

theorem planeOrderLoop_settles (hn : o.n = layers.length) (hm : o.m = byId.length)
    (hid : byId.Pairwise fun p q => p.id < q.id) {fuel maxPlaced : ℕ} (hfuel : maxPlaced < fuel) :
    ∃ k, Reaches c layers byId o maxPlaced s k ∧
      Settles layers byId o k (c.planeOrderLoop layers byId o fuel maxPlaced s) := by
  induction fuel generalizing maxPlaced s with
  | zero => exact absurd hfuel (Nat.not_lt_zero _)
  | succ fuel ih =>
    rw [planeOrderLoop]
    cases hchoice : o.choose maxPlaced with
    | none => exact ⟨maxPlaced, .here _ _, settles_none hchoice s⟩
    | some choice =>
      obtain ⟨lo, hi, hv⟩ := choose_valid hchoice
      have hsize := size_assignmentOf hv hn hm hid
      have hwithin : o.placed choice ≤ maxPlaced := (choose_best hchoice).within
      dsimp only
      by_cases hempty : (assignmentOf layers byId o choice).isEmpty = true
      · rw [if_pos hempty]
        exact ⟨maxPlaced, .here _ _, settles_choice hchoice hn hid rfl⟩
      rw [if_neg hempty]
      have hcanvas := tryTestCommit_canvasPlane (c := c)
        (s := { s with canvasPlane := canvasOf byId (some choice) })
        (assignmentOf layers byId o choice)
      cases htest : c.tryTestCommit { s with canvasPlane := canvasOf byId (some choice) }
        (assignmentOf layers byId o choice) with
      | mk verdict s' =>
        rw [htest] at hcanvas
        cases verdict with
        | none => exact ⟨maxPlaced, .here _ _, settles_choice hchoice hn hid hcanvas⟩
        | some e =>
          simp only [Option.isNone_some, Bool.false_eq_true, if_false]
          by_cases hspent : c.outOfTests s' = true
          · rw [if_pos hspent]
            refine ⟨0, .spent hchoice htest hspent, ?_⟩
            cases hzero : o.choose 0 with
            | none => exact settles_none hzero _
            | some all =>
              rw [← assignmentOf_choose_zero hzero hn hm hid]
              exact settles_choice hzero hn hid rfl
          · rw [if_neg hspent]
            have hshrinks := size_sub_lt hchoice hn hm hid hempty
            obtain ⟨k, hk, hsettles⟩ := ih (s := s') (Nat.lt_of_lt_of_le hshrinks (by omega))
            exact ⟨k, .refused hchoice htest (hsize ▸ hk), hsettles⟩

/-- Enough fuel makes no difference: the loop ends. -/
theorem planeOrderLoop_fuel (hn : o.n = layers.length) (hm : o.m = byId.length)
    (hid : byId.Pairwise fun p q => p.id < q.id) {fuel fuel' maxPlaced : ℕ}
    (hfuel : maxPlaced < fuel) (hfuel' : maxPlaced < fuel') :
    c.planeOrderLoop layers byId o fuel maxPlaced s =
      c.planeOrderLoop layers byId o fuel' maxPlaced s := by
  induction fuel generalizing fuel' maxPlaced s with
  | zero => exact absurd hfuel (Nat.not_lt_zero _)
  | succ fuel ih =>
    obtain ⟨fuel', rfl⟩ := Nat.exists_eq_add_one_of_ne_zero (Nat.ne_zero_of_lt hfuel')
    rw [planeOrderLoop, planeOrderLoop]
    cases hchoice : o.choose maxPlaced with
    | none => rfl
    | some choice =>
      dsimp only
      split
      · rfl
      · rename_i hempty
        split
        · rfl
        · split
          · rfl
          · have hshrinks := size_sub_lt hchoice hn hm hid hempty
            exact ih (by omega) (by omega)

/-- The search on its own inputs: sorted planes, an end whatever the fuel, the best choice for every
bound on the layers placed, and the answer for a bound its TESTs led to. -/
structure PlacesBest (c : SearchContext) (s : SearchState) (layers : List LayerId)
    (planes : List PlaneCapabilities) (withCanvas : Bool) (o : OrderProblem) : Prop where
  sorted : (c.planesById planes).Pairwise fun p q => p.id < q.id
  ends : layers ≠ [] → ∀ fuel, layers.length < fuel →
    c.planeOrderLoop layers (c.planesById planes) o fuel layers.length s =
      c.placeInPlaneOrder layers planes withCanvas s
  chooses : ∀ maxPlaced, (∀ choice ∈ o.choose maxPlaced, o.Best maxPlaced (o.placementOf choice)) ∧
    (o.choose maxPlaced = none → ∀ p, o.Admissible p → ¬ p.placed o ≤ maxPlaced)
  answers : layers = [] ∧ c.placeInPlaneOrder layers planes withCanvas s = (Table.empty, s) ∨
    ∃ k, Reaches c layers (c.planesById planes) o layers.length s k ∧
      Settles layers (c.planesById planes) o k (c.placeInPlaneOrder layers planes withCanvas s)

/-- The search places the most layers its TESTs allow, around the cheapest run that has to be
composited. -/
theorem placeInPlaneOrder_placesBest (c : SearchContext) (s : SearchState) (layers : List LayerId)
    (planes : List PlaneCapabilities) (withCanvas : Bool)
    (hids : (planes.map PlaneCapabilities.id).Nodup) :
    PlacesBest c s layers planes withCanvas
      (c.orderProblem s layers (c.planesById planes) withCanvas) := by
  have hid := planesById_pairwise (c := c) hids
  refine ⟨hid, fun hne fuel hfuel => ?_, fun k => ⟨fun _ => choose_best, choose_none⟩, ?_⟩
  · rw [placeInPlaneOrder, if_neg (by simpa using hne)]
    exact planeOrderLoop_fuel rfl rfl hid hfuel (Nat.lt_succ_self _)
  · cases layers with
    | nil => exact .inl ⟨rfl, rfl⟩
    | cons l ls =>
      refine .inr ?_
      rw [placeInPlaneOrder, if_neg (by simp)]
      exact planeOrderLoop_settles rfl rfl hid (Nat.lt_succ_self _)

end SearchContext

/-! ### Two planes that stack by id -/

namespace Controller

/-- The controller without zpos, whose planes host a canvas when `hosts` says so. -/
def byIdSearch (hosts forced : Bool) : SearchContext where
  device :=
    { device with
      registry := {
        planes := [
          { id := 1, possibleCrtcs := 1, type := .primary, formatTable := [(1, 0)] },
          { id := 2, possibleCrtcs := 1, type := .overlay, formatTable := [(1, 0)] }]
        nodupIds := by decide }
      canvasHost := some fun _ => hosts }
  crtcIndex := 0
  output := output [0, 1] nodup_pair
  layers := [0, 1]
  heap l := if l = 0 then { layer 0 0 11 with forceComposited := forced } else layer 5 3 12
  flags := 0
  reserved := []
  previous := none
  maxTestCommits := 16

/-- Both layers are placed, in order. -/
theorem placesBest_pair :
    ((byIdSearch true false).placeInPlaneOrder [0, 1]
        (byIdSearch true false).device.registry.planes true {}).1.entries = [(1, 0), (2, 1)] ∧
      SearchContext.PlacesBest (byIdSearch true false) {} [0, 1]
        (byIdSearch true false).device.registry.planes true
        ((byIdSearch true false).orderProblem {} [0, 1]
          ((byIdSearch true false).planesById (byIdSearch true false).device.registry.planes)
          true) :=
  ⟨by decide +kernel, SearchContext.placeInPlaneOrder_placesBest (byIdSearch true false) {} [0, 1]
    (byIdSearch true false).device.registry.planes true (by decide)⟩

/-- With a forced layer and no plane to host the canvas, the answer is no such placement. -/
theorem not_places_around_canvas :
    ¬ ∃ k p, ((byIdSearch false true).orderProblem {} [0, 1]
          ((byIdSearch false true).planesById (byIdSearch false true).device.registry.planes)
          true).Best k p ∧
        SearchContext.Returns [0, 1]
          ((byIdSearch false true).planesById (byIdSearch false true).device.registry.planes)
          ((byIdSearch false true).placeInPlaneOrder [0, 1]
            (byIdSearch false true).device.registry.planes true {}) p := by
  rintro ⟨k, p, hbest, -⟩
  obtain ⟨ha, hb⟩ := hbest.admissible.forced 0 (by decide) rfl
  obtain ⟨c, -, -, hhost, -⟩ := hbest.admissible.canvas (by omega) rfl
  -- the device lets no plane host the canvas
  simp only [SearchContext.orderProblem] at hhost
  split at hhost
  · simp [byIdSearch] at hhost
  · cases hhost

end Controller

end DrmCxx.Planes
