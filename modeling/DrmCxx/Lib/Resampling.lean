import Mathlib.Data.Int.GCD
import Mathlib.Tactic.IntervalCases
import Mathlib.Tactic.LinearCombination
import Mathlib.Tactic.Linarith
import Mathlib.Tactic.Positivity
import Mathlib.Tactic.Ring

/-!
# Nearest-neighbour indices

A row of `s` cells spread over `d` positions: position `k` shows the cell `k * s / d`. When do the
positions that are left of a row show the same cells, if the cells are spread over these alone; and
when do all positions show the cell under their centre?
-/

namespace DrmCxx.Lib

/-! ### Rows cut off -/

/-- A row of positions that show `span` cells: `before` of them are cut off in front and `after`
behind. -/
structure Cut where
  before : ℕ
  kept : ℕ
  after : ℕ
  span : ℕ
  deriving DecidableEq, Repr

namespace Cut

/-- The length of the whole row. -/
def whole (q : Cut) : ℕ := q.before + q.kept + q.after

/-- What is kept shows the same cells, spread over it alone or over the whole row. -/
def Same (q : Cut) : Prop :=
  ∀ k < q.kept, k * q.span / q.kept = (k + q.before) * q.span / q.whole

/-- So many cells that each position kept shows another one, and the last is not kept. -/
def OneEach (q : Cut) : Prop :=
  2 ≤ q.kept ∧ q.span = q.kept + 1 ∧ q.before * q.span < q.whole ∧
    (q.kept - 1) * (q.whole - q.span) ≤ q.before * q.span

/-- Two cells whose border stays where it is. -/
def Halved (q : Cut) : Prop :=
  2 ≤ q.kept ∧ q.span = 2 ∧ (q.whole + 1) / 2 = (q.kept + 1) / 2 + q.before

/-- Cells of equal width that lose at most one position at either end of the row. -/
def Trimmed (q : Cut) : Prop :=
  3 ≤ q.span ∧ q.span ≤ q.kept ∧ q.before ≤ 1 ∧ q.after ≤ 1 ∧ q.span ∣ q.kept + q.after

/-- The cut moves no cell. -/
def Harmless (q : Cut) : Prop :=
  q.kept = 0 ∨ q.span ≤ 1 ∨ (q.before = 0 ∧ q.after = 0) ∨
    (q.kept = 1 ∧ q.before * q.span < q.whole) ∨ q.OneEach ∨ q.Halved ∨ q.Trimmed

instance (q : Cut) : Decidable q.OneEach := inferInstanceAs (Decidable (_ ∧ _ ∧ _ ∧ _))

instance (q : Cut) : Decidable q.Halved := inferInstanceAs (Decidable (_ ∧ _ ∧ _))

instance (q : Cut) : Decidable q.Trimmed := inferInstanceAs (Decidable (_ ∧ _ ∧ _ ∧ _ ∧ _))

instance (q : Cut) : Decidable q.Harmless := inferInstanceAs (Decidable (_ ∨ _ ∨ _ ∨ _ ∨ _ ∨ _ ∨ _))

variable {q : Cut}

theorem same_iff_bounds (hkept : 0 < q.kept) :
    q.Same ↔ ∀ k < q.kept,
      k * q.span / q.kept * q.whole ≤ (k + q.before) * q.span ∧
        (k + q.before) * q.span < (k * q.span / q.kept + 1) * q.whole := by
  have hwhole : 0 < q.whole := by
    unfold whole
    omega
  refine forall_congr' fun k => imp_congr_right fun _ => ?_
  rw [eq_comm, Nat.div_eq_iff hwhole, Nat.add_mul (_ / _), Nat.one_mul]
  omega

/-! What follows from the first positions and the last. -/

theorem Same.first (h : q.Same) (hkept : 0 < q.kept) : q.before * q.span < q.whole := by
  have h₀ := ((same_iff_bounds hkept).mp h 0 hkept).2
  rwa [Nat.zero_mul, Nat.zero_div, Nat.zero_add, Nat.zero_add, Nat.one_mul] at h₀

/-- Wherever a position shows at least the cell `j`, it does so in the whole row. -/
theorem Same.reaches (h : q.Same) {k j : ℕ} (hk : k < q.kept) (hj : j * q.kept ≤ k * q.span) :
    j * q.whole ≤ (k + q.before) * q.span := by
  have hle : j ≤ k * q.span / q.kept := (Nat.le_div_iff_mul_le (by omega)).mpr hj
  exact (Nat.mul_le_mul_right _ hle).trans ((same_iff_bounds (by omega)).mp h k hk).1

/-- Wherever a position shows less than the cell `j`, it does so in the whole row. -/
theorem Same.falls (h : q.Same) {k j : ℕ} (hk : k < q.kept) (hj : k * q.span < j * q.kept) :
    (k + q.before) * q.span < j * q.whole := by
  have hlt : k * q.span / q.kept + 1 ≤ j := (Nat.div_lt_iff_lt_mul (by omega)).mpr hj
  exact ((same_iff_bounds (by omega)).mp h k hk).2.trans_le (Nat.mul_le_mul_right _ hlt)

/-! More cells than positions. -/

/-- With nothing cut off in front, the last position allows one more cell than there are. -/
theorem Same.span_le_of_before_eq_zero (h : q.Same) (hkept : 2 ≤ q.kept) (hbefore : q.before = 0)
    (hafter : 0 < q.after) : q.span ≤ q.kept + 1 := by
  obtain ⟨n, hn⟩ := Nat.exists_eq_add_of_le' hkept
  obtain ⟨f, hf⟩ : ∃ f, f = (n + 1) * q.span / q.kept := ⟨_, rfl⟩
  have hreach := h.reaches (k := n + 1) (j := f) (by omega) (hf ▸ Nat.div_mul_le_self ..)
  have hfloor : (n + 1) * q.span < f * q.kept + q.kept := hf ▸ Nat.lt_div_mul_add (by omega)
  have hwhole : n + 3 ≤ q.whole := by
    unfold whole
    omega
  rw [hbefore, Nat.add_zero] at hreach
  have hless : f * (n + 3) ≤ (n + 1) * q.span := (Nat.mul_le_mul_left f hwhole).trans hreach
  rw [hn] at hfloor ⊢
  have hmul : (n + 1) * q.span ≤ (n + 1) * (n + 2 + 1) := by nlinarith
  exact Nat.le_of_mul_le_mul_left hmul (Nat.succ_pos n)

/-- With some cut off in front, the second position allows less than two cells for each. -/
theorem Same.span_lt_of_before (h : q.Same) (hkept : 2 ≤ q.kept) (hbefore : 0 < q.before) :
    q.span < 2 * q.kept := by
  by_contra hspan
  have hreach := h.reaches (k := 1) (j := 2) (by omega) (by omega)
  have hfirst := h.first (by omega)
  have hle : q.span ≤ q.before * q.span := Nat.le_mul_of_pos_left _ hbefore
  rw [Nat.add_mul] at hreach
  omega

/-- The last position then allows only one cell more than positions. -/
theorem Same.span_le_of_before (h : q.Same) (hkept : 2 ≤ q.kept) (hbefore : 0 < q.before) :
    q.span ≤ q.kept + 1 := by
  by_contra hspan
  have htwice := h.span_lt_of_before hkept hbefore
  have hfirst := h.first (by omega)
  have hle : q.span ≤ q.before * q.span := Nat.le_mul_of_pos_left _ hbefore
  obtain ⟨n, hn⟩ := Nat.exists_eq_add_of_le' hkept
  obtain ⟨m, hm⟩ : ∃ m, q.span = m + 3 := ⟨q.span - 3, by omega⟩
  have hreach := h.reaches (k := n + 1) (j := m + 1) (by omega) (by rw [hn, hm]; nlinarith)
  rw [hm] at hfirst hle hreach
  have hwhole : m + 4 ≤ q.whole := by omega
  nlinarith

theorem Same.span_le (h : q.Same) (hkept : 2 ≤ q.kept) (hcut : 0 < q.before + q.after) :
    q.span ≤ q.kept + 1 := by
  rcases Nat.eq_zero_or_pos q.before with hbefore | hbefore
  · exact h.span_le_of_before_eq_zero hkept hbefore (by omega)
  · exact h.span_le_of_before hkept hbefore

theorem Same.oneEach (h : q.Same) (hkept : 2 ≤ q.kept) (hspan : q.span = q.kept + 1)
    (hcut : 0 < q.before + q.after) : q.OneEach := by
  refine ⟨hkept, hspan, h.first (by omega), ?_⟩
  have hreach := h.reaches (k := q.kept - 1) (j := q.kept - 1) (by omega)
    (Nat.mul_le_mul_left _ (by omega))
  have hwhole : q.span ≤ q.whole := by
    unfold whole
    omega
  rw [Nat.add_mul] at hreach
  rw [Nat.mul_sub]
  omega

theorem OneEach.same (h : q.OneEach) : q.Same := by
  obtain ⟨hkept, hspan, hfirst, hlast⟩ := h
  refine (same_iff_bounds (by omega)).mpr fun k hk => ?_
  have hindex : k * q.span / q.kept = k := by
    rw [hspan, Nat.mul_add, Nat.mul_one, Nat.add_comm, Nat.add_mul_div_right _ _ (by omega),
      Nat.div_eq_of_lt hk, Nat.zero_add]
  rw [hindex, Nat.add_mul, Nat.add_mul, Nat.one_mul]
  have hle : k ≤ q.kept - 1 := by omega
  rcases Nat.lt_or_ge q.whole q.span with hshort | hlong
  · -- nothing is cut off
    have hwhole : q.whole = q.kept ∧ q.before = 0 := by
      unfold whole at hshort ⊢
      omega
    rw [hwhole.1, hwhole.2, hspan, Nat.mul_add]
    omega
  · obtain ⟨x, hx⟩ := Nat.exists_eq_add_of_le hlong
    rw [hx, Nat.add_sub_cancel_left] at hlast
    have hk' : k * x ≤ (q.kept - 1) * x := Nat.mul_le_mul_right _ hle
    rw [hx, Nat.mul_add]
    omega

/-! Two cells. -/

theorem same_iff_halved (hkept : 2 ≤ q.kept) (hspan : q.span = 2) : q.Same ↔ q.Halved := by
  have hwhole : q.before + q.kept ≤ q.whole := by
    unfold whole
    omega
  constructor
  · intro h
    have hlow := h.falls (k := (q.kept + 1) / 2 - 1) (j := 1) (by omega) (by rw [hspan]; omega)
    have hhigh := h.reaches (k := (q.kept + 1) / 2) (j := 1) (by omega) (by rw [hspan]; omega)
    rw [hspan] at hlow hhigh
    exact ⟨hkept, hspan, by omega⟩
  · rintro ⟨-, -, hborder⟩ k hk
    rw [hspan]
    by_cases hlow : k < (q.kept + 1) / 2
    · rw [Nat.div_eq_of_lt (by omega), Nat.div_eq_of_lt (by omega)]
    · rw [Nat.div_eq_of_lt_le (k := 1) (by omega) (by omega),
        Nat.div_eq_of_lt_le (k := 1) (by omega) (by omega)]

/-! At least as many positions as cells. -/

/-- How the two ends of the row pull at the first and the last border between cells. -/
theorem Same.ends (h : q.Same) (hspan : 2 ≤ q.span) (hle : q.span ≤ q.kept) :
    (q.kept % q.span = 0 → q.before * (q.span - 1) < q.span + q.after) ∧
      (0 < q.kept % q.span → q.before * (q.span - 1) < q.kept % q.span + q.after) ∧
      (q.span - 1) * q.after ≤ q.kept % q.span + q.before ∧
      q.kept % q.span + q.before < q.span + (q.span - 1) * q.after := by
  obtain ⟨n, hn⟩ := Nat.exists_eq_add_of_le' (Nat.le_of_succ_le hspan)
  have hdiv := Nat.div_add_mod q.kept q.span
  have hmod : q.kept % q.span < q.span := Nat.mod_lt _ (by omega)
  generalize q.kept % q.span = t at *
  generalize hf : q.kept / q.span = f at *
  have hfpos : 0 < f := hf ▸ Nat.div_pos hle (by omega)
  have hflt : f + 1 ≤ q.kept := by nlinarith
  obtain ⟨m, hm⟩ := Nat.exists_eq_add_of_le hflt
  have hwhole : q.whole = q.before + q.kept + q.after := rfl
  have hfront : 0 < t → (f + q.before) * q.span < 1 * q.whole := fun ht =>
    h.falls hflt (by rw [Nat.one_mul]; nlinarith)
  have hfront₀ : t = 0 → (f - 1 + q.before) * q.span < 1 * q.whole := fun ht =>
    h.falls (by omega) (by
      obtain ⟨g, rfl⟩ := Nat.exists_eq_add_of_le' hfpos
      rw [Nat.add_sub_cancel]
      nlinarith)
  have hback : n * q.whole ≤ (m + 1 + q.before) * q.span :=
    h.reaches (by omega) (by rw [hn] at hdiv ⊢; nlinarith)
  have hback' : (m + q.before) * q.span < n * q.whole :=
    h.falls (by omega) (by rw [hn] at hdiv hmod ⊢; nlinarith)
  rw [hwhole] at hfront hfront₀ hback hback'
  rw [hn, Nat.add_sub_cancel] at *
  refine ⟨fun ht => ?_, fun ht => ?_, ?_, ?_⟩
  · have := hfront₀ ht
    obtain ⟨g, rfl⟩ := Nat.exists_eq_add_of_le' hfpos
    rw [Nat.add_sub_cancel] at this
    nlinarith
  · have := hfront ht
    nlinarith
  · nlinarith
  · nlinarith

theorem Same.trimmed (h : q.Same) (hspan : 3 ≤ q.span) (hle : q.span ≤ q.kept)
    (hcut : 0 < q.before + q.after) : q.Trimmed := by
  obtain ⟨hflush, hloose, hback, hback'⟩ := h.ends (by omega) hle
  have hdiv := Nat.div_add_mod q.kept q.span
  have hmod : q.kept % q.span < q.span := Nat.mod_lt _ (by omega)
  obtain ⟨n, hn⟩ := Nat.exists_eq_add_of_le' (show 1 ≤ q.span by omega)
  refine ⟨hspan, hle, ?_⟩
  generalize ht : q.kept % q.span = t at *
  rcases Nat.eq_zero_or_pos t with rfl | hpos
  · have hflush := hflush rfl
    rw [hn, Nat.add_sub_cancel] at hflush hback
    have hafter : q.after = 0 := by
      by_contra hne
      nlinarith [Nat.pos_of_ne_zero hne]
    rw [hafter] at hflush ⊢
    exact ⟨by nlinarith, by omega, Nat.dvd_of_mod_eq_zero ht⟩
  · have hloose := hloose hpos
    rw [hn, Nat.add_sub_cancel] at hloose hback hback'
    have hfew : q.before + q.after ≤ 3 := by nlinarith
    obtain ⟨hbefore, hafter, hrest⟩ : q.before ≤ 1 ∧ q.after = 1 ∧ t = n := by
      generalize q.before = c at *
      generalize q.after = r at *
      have hc : c ≤ 3 := by omega
      have hr : r ≤ 3 := by omega
      interval_cases c <;> interval_cases r <;> omega
    refine ⟨hbefore, hafter.le, ⟨q.kept / q.span + 1, ?_⟩⟩
    rw [Nat.mul_add, hafter]
    omega

theorem Trimmed.same (h : q.Trimmed) : q.Same := by
  obtain ⟨hspan, hle, hbefore, hafter, m, hm⟩ := h
  intro k hk
  have hwhole : q.whole = q.before + q.span * m := by
    unfold whole
    omega
  have hmpos : 0 < m := Nat.pos_of_ne_zero (by rintro rfl; omega)
  -- `k` is the position `i` of the cell `j`
  have hplace := Nat.div_add_mod k m
  have hi : k % m < m := Nat.mod_lt _ hmpos
  have hj : k / m < q.span := Nat.div_lt_of_lt_mul (by rw [Nat.mul_comm]; omega)
  generalize k / m = j at *
  generalize k % m = i at *
  have hcells : i * q.span + q.span ≤ q.span * m := by nlinarith
  have hlast : i * q.span + q.after * (j + 1) < q.span * m := by
    have hcases : q.after = 0 ∨ q.after = 1 := by omega
    rcases hcases with hzero | hone
    · rw [hzero, Nat.zero_mul]
      omega
    rw [hone, Nat.one_mul]
    rcases Nat.lt_or_ge (j + 1) q.span with hinner | houter
    · omega
    · have hi' : i + 1 < m := by nlinarith
      nlinarith
  have hkept : q.span * m = q.kept + q.after := hm.symm
  have hfew : q.before * j ≤ q.before * q.span := Nat.mul_le_mul_left _ hj.le
  rw [Nat.div_eq_of_lt_le (k := j) (by nlinarith) (by nlinarith), hwhole,
    Nat.div_eq_of_lt_le (k := j) (by nlinarith) (by nlinarith)]

/-! ### The cuts that move no cell -/

theorem same_of_uncut (hbefore : q.before = 0) (hafter : q.after = 0) : q.Same := by
  intro k _
  have hwhole : q.whole = q.kept := by
    unfold whole
    omega
  rw [hwhole, hbefore, Nat.add_zero]

theorem same_of_span_le_one (hspan : q.span ≤ 1) : q.Same := by
  intro k hk
  have hcells : ∀ i, i < q.whole → i * q.span / q.whole = 0 := fun i hi =>
    Nat.div_eq_of_lt ((Nat.mul_le_mul_left i hspan).trans_lt (by omega))
  rw [hcells (k + q.before) (by unfold whole; omega)]
  exact Nat.div_eq_of_lt ((Nat.mul_le_mul_left k hspan).trans_lt (by omega))

theorem same_iff_of_one (hkept : q.kept = 1) : q.Same ↔ q.before * q.span < q.whole := by
  constructor
  · exact fun h => h.first (by omega)
  · intro hfirst k hk
    obtain rfl : k = 0 := by omega
    rw [Nat.zero_mul, Nat.zero_div, Nat.zero_add, Nat.div_eq_of_lt hfirst]

theorem same_iff_harmless : q.Same ↔ q.Harmless := by
  constructor
  · intro h
    unfold Harmless
    rcases Nat.eq_zero_or_pos q.kept with hnone | hpos
    · exact .inl hnone
    rcases Nat.lt_or_ge 1 q.span with hspan | hspan
    swap
    · exact .inr (.inl hspan)
    rcases Nat.eq_zero_or_pos (q.before + q.after) with hwhole | hcut
    · exact .inr (.inr (.inl (by omega)))
    refine .inr (.inr (.inr ?_))
    rcases Nat.lt_or_ge 1 q.kept with hmany | hone
    swap
    · exact .inl ⟨by omega, h.first hpos⟩
    refine .inr ?_
    rcases Nat.lt_or_ge q.kept q.span with hmore | hle
    · exact .inl (h.oneEach hmany (Nat.le_antisymm (h.span_le hmany hcut) hmore) hcut)
    rcases Nat.lt_or_ge 2 q.span with hthree | htwo
    · exact .inr (.inr (h.trimmed hthree hle hcut))
    · exact .inr (.inl ((same_iff_halved hmany (Nat.le_antisymm htwo hspan)).mp h))
  · rintro (hnone | hspan | ⟨hbefore, hafter⟩ | ⟨hone, hfirst⟩ | heach | hhalved | htrimmed)
    · exact fun k hk => absurd hk (by omega)
    · exact same_of_span_le_one hspan
    · exact same_of_uncut hbefore hafter
    · exact (same_iff_of_one hone).mpr hfirst
    · exact heach.same
    · exact (same_iff_halved hhalved.1 hhalved.2.1).mpr hhalved
    · exact htrimmed.same

end Cut

/-! ### Cells under a point of each position -/

/-- Some multiple of `s` leaves the remainder `d - gcd s d`. -/
theorem exists_mul_eq_add_sub_gcd {s d : ℕ} (hd : 0 < d) :
    ∃ k < d, ∃ q, k * s = d * q + (d - Nat.gcd s d) := by
  have hgcd : Nat.gcd s d ≤ d := Nat.gcd_le_right s hd
  have hbezout := Nat.gcd_eq_gcd_ab s d
  have hpos : (0 : ℤ) < d := by exact_mod_cast hd
  set k := (-Nat.gcdA s d) % d with hk
  have hk0 : 0 ≤ k := Int.emod_nonneg _ hpos.ne'
  have hklt : k < d := Int.emod_lt_of_pos _ hpos
  have hdvd : (d : ℤ) ∣ k * s - (d - Nat.gcd s d : ℕ) := by
    have hmod : (d : ℤ) ∣ -Nat.gcdA s d - k := Int.dvd_self_sub_emod
    obtain ⟨c, hc⟩ := hmod
    refine ⟨Nat.gcdB s d - 1 - c * s, ?_⟩
    push_cast [hgcd]
    rw [hbezout]
    linear_combination (-(s : ℤ)) * hc
  obtain ⟨q, hq⟩ := hdvd
  have hq0 : 0 ≤ q := by
    by_contra hneg
    have hle : (d : ℤ) * q ≤ -d := by nlinarith
    have hks : 0 ≤ k * s := mul_nonneg hk0 (by positivity)
    have hg0 : 0 < Nat.gcd s d := Nat.gcd_pos_of_pos_right s hd
    omega
  refine ⟨k.toNat, by omega, q.toNat, ?_⟩
  zify
  rw [Int.toNat_of_nonneg hk0, Int.toNat_of_nonneg hq0]
  linarith

/-- A multiple of `s` leaves a remainder of at most `d - gcd s d`. -/
theorem mul_mod_add_gcd_le {s d : ℕ} (hd : 0 < d) (k : ℕ) : k * s % d + Nat.gcd s d ≤ d := by
  have hdvd : Nat.gcd s d ∣ k * s % d :=
    (Nat.dvd_mod_iff (Nat.gcd_dvd_right s d)).mpr (Dvd.dvd.mul_left (Nat.gcd_dvd_left s d) k)
  obtain ⟨a, ha⟩ := hdvd
  obtain ⟨b, hb⟩ := Nat.gcd_dvd_right s d
  have hlt := Nat.mod_lt (k * s) hd
  have hab : a < b := by
    by_contra hle
    have : Nat.gcd s d * b ≤ Nat.gcd s d * a := Nat.mul_le_mul_left _ (Nat.le_of_not_lt hle)
    omega
  calc k * s % d + Nat.gcd s d = Nat.gcd s d * (a + 1) := by rw [ha, Nat.mul_succ]
    _ ≤ Nat.gcd s d * b := Nat.mul_le_mul_left _ hab
    _ = d := hb.symm

/-- Moved by the part `b / n` of a position's step, all positions show the same cells, exactly if
the move leaves no cell. -/
theorem floor_shift_iff {s d n : ℕ} (hd : 0 < d) (hn : 0 < n) (b : ℤ) :
    (∀ k < d, ((k * s / d : ℕ) : ℤ) = ((k * s * n : ℕ) + b) / (d * n : ℕ)) ↔
      0 ≤ b ∧ b < (Nat.gcd s d * n : ℕ) := by
  have hdn : (0 : ℤ) < (d * n : ℕ) := by exact_mod_cast Nat.mul_pos hd hn
  have hsplit (k : ℕ) : ((k * s * n : ℕ) : ℤ) + b =
      (k * s % d * n : ℕ) + b + (k * s / d : ℕ) * (d * n : ℕ) := by
    have := Nat.div_add_mod (k * s) d
    push_cast
    zify at this
    linear_combination (-(n : ℤ)) * this
  have hstep (k : ℕ) : ((k * s / d : ℕ) : ℤ) = ((k * s * n : ℕ) + b) / (d * n : ℕ) ↔
      0 ≤ (k * s % d * n : ℕ) + b ∧ (k * s % d * n : ℕ) + b < (d * n : ℕ) := by
    rw [eq_comm, Int.ediv_eq_iff_of_pos hdn, hsplit]
    omega
  simp only [hstep]
  constructor
  · intro h
    obtain ⟨k, hk, q, hq⟩ := exists_mul_eq_add_sub_gcd (s := s) hd
    have hgpos : 0 < Nat.gcd s d := Nat.gcd_pos_of_pos_right s hd
    have hgle : Nat.gcd s d ≤ d := Nat.gcd_le_right s hd
    have hmod : k * s % d = d - Nat.gcd s d := by
      rw [hq, Nat.mul_add_mod, Nat.mod_eq_of_lt (by omega)]
    have hfirst := (h 0 hd).1
    have hlast := (h k hk).2
    rw [Nat.zero_mul, Nat.zero_mod, Nat.zero_mul] at hfirst
    rw [hmod, Nat.sub_mul] at hlast
    have hle : Nat.gcd s d * n ≤ d * n := Nat.mul_le_mul_right n hgle
    exact ⟨by omega, by omega⟩
  · rintro ⟨hlow, hhigh⟩ k -
    have hle : k * s % d * n + Nat.gcd s d * n ≤ d * n := by
      rw [← Nat.add_mul]
      exact Nat.mul_le_mul_right n (mul_mod_add_gcd_le hd k)
    exact ⟨by omega, by omega⟩

/-- Between two values of an affine function that are not negative there is none that is. -/
theorem affine_nonneg {a b : ℤ} {m j : ℕ} (hfirst : 0 ≤ b) (hlast : 0 ≤ a * m + b) (hj : j ≤ m) :
    0 ≤ a * j + b := by
  rcases le_total 0 a with ha | ha
  · have : 0 ≤ a * j := mul_nonneg ha (Int.natCast_nonneg j)
    omega
  · have : a * m ≤ a * j := mul_le_mul_of_nonpos_left (by exact_mod_cast hj) ha
    omega

/-- Cells of `m` positions each: all positions show the right cell exactly if the first and the
last cell begin and end at the right positions. -/
theorem floor_affine_iff {s m : ℕ} (hs : 0 < s) (hm : 0 < m) {a n : ℤ} (ha : 0 ≤ a) (hn : 0 < n)
    (b : ℤ) :
    (∀ k < s * m, ((k / m : ℕ) : ℤ) = (a * k + b) / n) ↔
      (0 ≤ b ∧ (s - 1) * n ≤ a * ((s - 1) * m) + b) ∧
        a * (m - 1) + b < n ∧ a * (s * m - 1) + b < s * n := by
  have hstep (k : ℕ) : ((k / m : ℕ) : ℤ) = (a * k + b) / n ↔
      ((k / m : ℕ) : ℤ) * n ≤ a * k + b ∧ a * k + b < ((k / m : ℕ) : ℤ) * n + n := by
    rw [eq_comm, Int.ediv_eq_iff_of_pos hn]
  simp only [hstep]
  obtain ⟨c, rfl⟩ := Nat.exists_eq_add_of_le' hs
  obtain ⟨l, rfl⟩ := Nat.exists_eq_add_of_le' hm
  constructor
  · intro h
    have h₀ := (h 0 (by positivity)).1
    have h₁ := (h (c * (l + 1)) (by nlinarith)).1
    have h₂ := (h l (by nlinarith)).2
    have h₃ := (h (c * (l + 1) + l) (by nlinarith)).2
    rw [Nat.zero_div] at h₀
    rw [Nat.mul_div_cancel _ (Nat.succ_pos l)] at h₁
    rw [Nat.div_eq_of_lt (Nat.lt_succ_self l)] at h₂
    rw [Nat.mul_comm c, Nat.mul_add_div (Nat.succ_pos l), Nat.div_eq_of_lt (Nat.lt_succ_self l)]
      at h₃
    push_cast at *
    refine ⟨⟨by linarith, by linarith⟩, by linarith, ?_⟩
    nlinarith
  · rintro ⟨⟨h₀, h₁⟩, h₂, h₃⟩ k hk
    have hplace := Nat.div_add_mod k (l + 1)
    have hi : k % (l + 1) < l + 1 := Nat.mod_lt _ (Nat.succ_pos l)
    have hj : k / (l + 1) ≤ c := Nat.lt_succ_iff.mp (Nat.div_lt_of_lt_mul (by linarith))
    generalize k / (l + 1) = j at *
    generalize k % (l + 1) = i at *
    push_cast at *
    have hlow := affine_nonneg (a := a * (l + 1) - n) (b := b) (m := c) h₀ (by linarith) hj
    have hhigh := affine_nonneg (a := n - a * (l + 1)) (b := n - 1 - (a * l + b)) (m := c)
      (by linarith) (by linarith) hj
    have hk' : (k : ℤ) = (l + 1) * j + i := by exact_mod_cast hplace.symm
    have hi₀ : 0 ≤ a * i := mul_nonneg ha (Int.natCast_nonneg i)
    have hi₁ : a * i ≤ a * l :=
      mul_le_mul_of_nonneg_left (by exact_mod_cast Nat.lt_succ_iff.mp hi) ha
    rw [hk']
    exact ⟨by linarith, by linarith⟩

end DrmCxx.Lib
