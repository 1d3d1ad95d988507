import Mathlib.Data.List.Basic
import Mathlib.Data.List.Pairwise
import Mathlib.Order.Basic
import Mathlib.Order.Lattice

/-!
# Searching sorted lists

The halving search in a list whose front satisfies a predicate and whose rest does not, and the
removal of adjacent duplicates.
-/

namespace DrmCxx.Lib

variable {α : Type*}

/-! ### Adjacent duplicates -/

section Unique

variable [DecidableEq α]

/-- Of every run of equal elements the last is kept. -/
def unique : List α → List α
  | [] => []
  | [a] => [a]
  | a :: b :: l => if a = b then unique (b :: l) else a :: unique (b :: l)

theorem mem_unique {a : α} {l : List α} : a ∈ unique l ↔ a ∈ l := by
  fun_induction unique l with
  | case1 => rfl
  | case2 => rfl
  | case3 l b ih => simp [ih]
  | case4 x b l h ih => simp [ih]

/-- A sorted list has no duplicates left. -/
theorem pairwise_unique {r : α → α → Prop} [Std.Antisymm r] {l : List α} (hl : l.Pairwise r) :
    (unique l).Pairwise fun a b => r a b ∧ a ≠ b := by
  fun_induction unique l with
  | case1 => exact .nil
  | case2 => exact List.pairwise_singleton ..
  | case3 l b ih => exact ih hl.of_cons
  | case4 a b l hab ih =>
    obtain ⟨ha, hl⟩ := List.pairwise_cons.mp hl
    refine List.pairwise_cons.mpr ⟨fun x hx => ⟨ha x (mem_unique.mp hx), ?_⟩, ih hl⟩
    rintro rfl
    -- what equals `a` after `b` would tie `b` with `a`
    rcases List.mem_cons.mp (mem_unique.mp hx) with h | h
    · exact hab h
    · exact hab (antisymm (ha b List.mem_cons_self) (List.rel_of_pairwise_cons hl h))

end Unique

/-! ### The halving search -/

/-- `first` and `len` bound the part that is still searched. -/
def lowerBoundFrom (p : α → Bool) (l : List α) : ℕ → ℕ → ℕ → ℕ
  | 0, first, _ => first
  | fuel + 1, first, len =>
    if len = 0 then first
    else match l[first + len / 2]? with
      | none => first
      | some x =>
        if p x then lowerBoundFrom p l fuel (first + len / 2 + 1) (len - len / 2 - 1)
        else lowerBoundFrom p l fuel first (len / 2)

/-- The place of the first element that does not satisfy `p`. -/
def lowerBound (p : α → Bool) (l : List α) : ℕ := lowerBoundFrom p l l.length 0 l.length

/-- Whether an element is found at its lower bound. -/
def binarySearch (lt : α → α → Bool) (a : α) (l : List α) : Bool :=
  match l[lowerBound (fun x => lt x a) l]? with
  | none => false
  | some x => !lt a x

/-- What satisfies `p` comes first. -/
def Partitioned (p : α → Bool) (l : List α) : Prop := l.Pairwise fun a b => p b → p a

theorem Partitioned.iff_lt {p : α → Bool} {l : List α} (hl : Partitioned p l) {i : ℕ} {x : α}
    (hx : l[i]? = some x) : p x = true ↔ i < (l.takeWhile p).length := by
  induction l generalizing i with
  | nil => simp at hx
  | cons a l ih =>
    obtain ⟨ha, hl⟩ := List.pairwise_cons.mp hl
    cases i with
    | zero =>
      obtain rfl : a = x := by simpa using hx
      cases hp : p a <;> simp [hp]
    | succ i =>
      rw [List.getElem?_cons_succ] at hx
      cases hp : p a with
      | true => simp [hp, ih hl hx]
      | false =>
        have : p x = false := by
          rw [← Bool.not_eq_true]
          exact fun h => by simp [ha x (List.mem_of_getElem? hx) h] at hp
        simp [hp, this]

theorem lowerBoundFrom_eq {p : α → Bool} {l : List α} (hl : Partitioned p l) {fuel first len : ℕ}
    (hfuel : len ≤ fuel) (hlen : first + len ≤ l.length)
    (hfirst : first ≤ (l.takeWhile p).length) (hlast : (l.takeWhile p).length ≤ first + len) :
    lowerBoundFrom p l fuel first len = (l.takeWhile p).length := by
  induction fuel generalizing first len with
  | zero => rw [lowerBoundFrom]; omega
  | succ fuel ih =>
    rw [lowerBoundFrom]
    split_ifs with h0
    · omega
    · have hmid : first + len / 2 < l.length := by omega
      have hx := List.getElem?_eq_getElem hmid
      rw [hx]
      have hiff := hl.iff_lt hx
      dsimp only
      split_ifs with hp
      · have := hiff.mp hp
        exact ih (by omega) (by omega) (by omega) (by omega)
      · have := mt hiff.mpr hp
        exact ih (by omega) (by omega) (by omega) (by omega)

theorem lowerBound_eq {p : α → Bool} {l : List α} (hl : Partitioned p l) :
    lowerBound p l = (l.takeWhile p).length :=
  lowerBoundFrom_eq hl (Nat.le_refl _) (by omega) (Nat.zero_le _)
    (by simpa using (List.takeWhile_sublist p).length_le)

/-- The element at the lower bound is the first that does not satisfy `p`. -/
theorem getElem?_lowerBound {p : α → Bool} {l : List α} (hl : Partitioned p l) :
    l[lowerBound p l]? = (l.dropWhile p).head? := by
  rw [lowerBound_eq hl]
  conv_lhs => rw [← List.takeWhile_append_dropWhile (p := p) (l := l)]
  rw [List.getElem?_append_right (by simp), List.takeWhile_append_dropWhile, Nat.sub_self,
    List.head?_eq_getElem?]

theorem partitioned_of_sorted {κ : Type*} [LinearOrder κ] {key : α → κ} {l : List α}
    (hl : l.Pairwise fun a b => key a < key b) (k : κ) :
    Partitioned (fun x => decide (key x < k)) l :=
  hl.imp fun {a b} hab hb => by
    simp only [decide_eq_true_eq] at hb ⊢
    exact hab.trans hb

/-- In a list sorted by distinct keys, the search finds the element of a key. -/
theorem getElem?_lowerBound_eq_some {κ : Type*} [LinearOrder κ] {key : α → κ} {l : List α}
    (hl : l.Pairwise fun a b => key a < key b) {x : α} :
    l[lowerBound (fun y => key y < key x) l]? = some x ↔ x ∈ l := by
  rw [getElem?_lowerBound (partitioned_of_sorted hl _)]
  constructor
  · intro h
    exact (List.dropWhile_sublist _).mem (List.mem_of_head? h)
  · intro hx
    induction l with
    | nil => cases hx
    | cons a l ih =>
      obtain ⟨ha, hl⟩ := List.pairwise_cons.mp hl
      by_cases hlt : key a < key x
      · have hx' : x ∈ l := (List.mem_cons.mp hx).resolve_left fun h => absurd hlt (h ▸ lt_irrefl _)
        rw [List.dropWhile_cons, if_pos (by simpa using hlt), ih hl hx']
      · rw [List.dropWhile_cons, if_neg (by simpa using hlt), List.head?_cons]
        rcases List.mem_cons.mp hx with rfl | hx
        · rfl
        · exact absurd (ha x hx) hlt

/-- Whether an element is there, by the order of injective keys. -/
theorem binarySearch_iff_mem {κ : Type*} [LinearOrder κ] {key : α → κ}
    (hkey : Function.Injective key) {lt : α → α → Bool}
    (hlt : ∀ a b, lt a b = decide (key a < key b)) {l : List α}
    (hl : l.Pairwise fun a b => key a < key b) {a : α} : binarySearch lt a l = true ↔ a ∈ l := by
  rw [← getElem?_lowerBound_eq_some hl, binarySearch]
  simp only [hlt]
  cases hx : l[lowerBound (fun y => decide (key y < key a)) l]? with
  | none => simp
  | some x =>
    -- at its lower bound the element is not below the one sought
    have hnlt : ¬ key x < key a := by
      have hnot := List.head?_dropWhile_not (fun y => decide (key y < key a)) l
      rw [← getElem?_lowerBound (partitioned_of_sorted hl _), hx] at hnot
      simpa using hnot
    simp only [Bool.not_eq_true', decide_eq_false_iff_not, Option.some.injEq]
    exact ⟨fun h => hkey (le_antisymm (not_lt.mp h) (not_lt.mp hnlt)), fun h => h ▸ lt_irrefl _⟩

end DrmCxx.Lib
