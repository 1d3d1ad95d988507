import DrmCxx.Csd.BoxBlur
import DrmCxx.Lib.Checked
import DrmCxx.Lib.SlidingWindow
import Mathlib.Data.List.GetD
import Mathlib.Order.Lattice.Nat

/-!
# The box blur is a windowed mean

The running sum and count are those of the window at every position, so that a pass writes the mean
of the bytes around each position, as far as they lie in its line. Three passes keep between the
bounds of the mask.
-/

namespace DrmCxx.Csd.BoxBlur

open Lib (window grownWindow windowMean)

/-! ### Writes -/

/-- `dst'` is `dst`, but for the places in `cells`, which hold their values. -/
structure Writes (value : ℕ → UInt8) (cells : Set ℕ) (dst dst' : List UInt8) : Prop where
  length : dst'.length = dst.length
  inside : ∀ p ∈ cells, dst'[p]? = some (value p)
  outside : ∀ p ∉ cells, dst'[p]? = dst[p]?

namespace Writes

variable {value : ℕ → UInt8} {cells cells' : Set ℕ} {dst dst' dst'' : List UInt8}

theorem refl : Writes value ∅ dst dst := ⟨rfl, nofun, fun _ _ => rfl⟩

theorem trans (h : Writes value cells dst dst') (h' : Writes value cells' dst' dst'') :
    Writes value (cells ∪ cells') dst dst'' where
  length := h'.length.trans h.length
  inside p hp := by
    by_cases hlater : p ∈ cells'
    · exact h'.inside p hlater
    · rw [h'.outside p hlater]
      exact h.inside p (hp.resolve_right hlater)
  outside p hp := by
    rw [h'.outside p fun h => hp (.inr h), h.outside p fun h => hp (.inl h)]

theorem of_store (value : ℕ → UInt8) {i : ℕ} (hi : i < dst.length) :
    ∃ dst', store dst i (value i) = some dst' ∧ Writes value {i} dst dst' := by
  refine ⟨dst.set i (value i), if_pos hi, List.length_set, ?_, fun p hp => ?_⟩
  · rintro p rfl
    exact List.getElem?_set_self hi
  · exact List.getElem?_set_ne (Ne.symm hp)

end Writes

/-! ### The window -/

theorem checkedInt_of_le {n : ℤ} (h₀ : 0 ≤ n) (h₁ : n ≤ intMax) : checkedInt n = some n :=
  if_pos ⟨le_trans (by decide) h₀, h₁⟩

theorem ofInt_natCast (n : ℕ) : UInt8.ofInt n = UInt8.ofNat n := by
  have hmod : ((n : ℤ) % 2 ^ 8).toNat = n % 2 ^ 8 := by omega
  rw [UInt8.ofInt, hmod, ← UInt8.toNat_inj, UInt8.toNat_ofNat', UInt8.toNat_ofNat', Nat.mod_mod]

namespace Window

/-- The window has the sum and the count of the bytes at `s`. -/
structure Holds (w : Window) (f : ℕ → ℕ) (s : Finset ℕ) : Prop where
  sum : w.sum = (∑ i ∈ s, f i : ℕ)
  count : w.count = s.card

/-- The sum and the count of the bytes at `s` fit. -/
def Fits (f : ℕ → ℕ) (s : Finset ℕ) : Prop := (∑ i ∈ s, f i : ℕ) ≤ intMax ∧ s.card ≤ intMax

variable {w : Window} {f : ℕ → ℕ} {s : Finset ℕ} {i : ℕ} {v : UInt8}

theorem add_spec (h : w.Holds f s) (hi : i ∉ s) (hv : v.toNat = f i) (hfits : Fits f (insert i s)) :
    ∃ w', w.add v = some w' ∧ w'.Holds f (insert i s) := by
  have hsum : w.sum + v.toNat = (∑ j ∈ insert i s, f j : ℕ) := by
    rw [Finset.sum_insert hi, h.sum, hv, Int.natCast_add, add_comm]
  have hcount : w.count + 1 = (insert i s).card := by
    rw [Finset.card_insert_of_notMem hi, h.count, Int.natCast_add, Int.natCast_one]
  refine ⟨⟨_, _⟩, ?_, ⟨hsum, hcount⟩⟩
  rw [add, checkedInt_of_le (by omega) (hsum ▸ hfits.1),
    checkedInt_of_le (by omega) (hcount ▸ hfits.2)]
  rfl

theorem drop_spec (h : w.Holds f (insert i s)) (hi : i ∉ s) (hv : v.toNat = f i)
    (hfits : Fits f s) : ∃ w', w.drop v = some w' ∧ w'.Holds f s := by
  have hsum : w.sum - v.toNat = (∑ j ∈ s, f j : ℕ) := by
    rw [h.sum, Finset.sum_insert hi, hv, Int.natCast_add, add_sub_cancel_left]
  have hcount : w.count - 1 = s.card := by
    rw [h.count, Finset.card_insert_of_notMem hi, Int.natCast_add, Int.natCast_one,
      add_sub_cancel_right]
  refine ⟨⟨_, _⟩, ?_, ⟨hsum, hcount⟩⟩
  rw [drop, checkedInt_of_le (by omega) (hsum ▸ hfits.1),
    checkedInt_of_le (by omega) (hcount ▸ hfits.2)]
  rfl

theorem mean_spec (h : w.Holds f s) (hs : s.Nonempty) :
    w.mean = some (UInt8.ofNat ((∑ i ∈ s, f i) / s.card)) := by
  have hcard := hs.card_pos
  rw [mean, if_neg (by rw [h.count]; omega), h.sum, h.count, ← Int.ofNat_tdiv, ofInt_natCast]

end Window

/-! ### A line -/

/-- The byte at a place. -/
def byteAt (buf : List UInt8) (p : ℕ) : ℕ := (buf.getD p 0).toNat

theorem byteAt_le (buf : List UInt8) (p : ℕ) : byteAt buf p ≤ 255 :=
  Nat.le_of_lt_succ (buf.getD p 0).toNat_lt

theorem exists_byteAt {buf : List UInt8} {p : ℕ} (hp : p < buf.length) :
    ∃ v, buf[p]? = some v ∧ v.toNat = byteAt buf p := by
  refine ⟨buf[p], List.getElem?_eq_getElem hp, ?_⟩
  rw [byteAt, List.getD_eq_getElem _ _ hp]

/-- The line lies in the buffer, and neither a window's sum nor an index leaves `int`. -/
structure Line (src : List UInt8) (addr : ℕ → ℕ) (len radius : ℕ) : Prop where
  inside : ∀ i < len, addr i < src.length
  sum : (2 * radius + 1) * 255 ≤ intMax
  reach : len + radius ≤ intMax

/-- What a pass writes at a position. -/
def lineMean (src : List UInt8) (addr : ℕ → ℕ) (len radius x : ℕ) : UInt8 :=
  UInt8.ofNat (windowMean (fun i => byteAt src (addr i)) radius len x)

section Lines

variable {src : List UInt8} {addr : ℕ → ℕ} {len radius x : ℕ} {w : Window}

/-- A window and one byte more fit. -/
theorem Line.fits (h : Line src addr len radius) {s : Finset ℕ} (hs : s.card ≤ 2 * radius + 2) :
    Window.Fits (fun i => byteAt src (addr i)) s := by
  have hsum := Finset.sum_le_card_nsmul s (fun i => byteAt src (addr i)) 255
    fun i _ => byteAt_le src (addr i)
  rw [Nat.nsmul_eq_mul] at hsum
  have hmax := h.sum
  unfold intMax at hmax
  refine ⟨(Int.ofNat_le.mpr hsum).trans ?_, ?_⟩ <;> unfold intMax <;> omega

theorem prime_spec (h : Line src addr len radius) :
    ∃ w, Window.prime src addr len radius = some w ∧
      w.Holds (fun i => byteAt src (addr i)) (window radius len 0) := by
  rw [Lib.window_zero]
  refine Lib.foldlM_range
    (fun n (w : Window) => w.Holds (fun i => byteAt src (addr i)) (Finset.range n))
    (fun x hx w hw => ?_) ⟨rfl, rfl⟩
  obtain ⟨v, hread, hv⟩ := exists_byteAt (h.inside x (by omega))
  rw [hread, Option.bind_some, Finset.range_add_one]
  refine Window.add_spec hw Finset.notMem_range_self hv (h.fits ?_)
  rw [← Finset.range_add_one, Finset.card_range]
  omega

theorem enter_spec (h : Line src addr len radius)
    (hw : w.Holds (fun i => byteAt src (addr i)) (window radius len x)) :
    ∃ w', w.enter src addr len (x + radius + 1 : ℕ) = some w' ∧
      w'.Holds (fun i => byteAt src (addr i)) (grownWindow radius len x) := by
  rw [Window.enter]
  split_ifs with hin
  · rw [Int.ofNat_lt] at hin
    obtain ⟨v, hread, hv⟩ := exists_byteAt (h.inside _ hin)
    rw [Int.toNat_natCast, hread, Option.bind_some, Lib.grownWindow_of_lt hin]
    refine Window.add_spec hw Lib.notMem_window_add hv (h.fits ?_)
    rw [← Lib.grownWindow_of_lt hin]
    exact Lib.card_grownWindow_le
  · rw [Lib.grownWindow_of_le (by omega)]
    exact ⟨w, rfl, hw⟩

theorem leave_spec (h : Line src addr len radius) (hx : x < len)
    (hw : w.Holds (fun i => byteAt src (addr i)) (grownWindow radius len x)) :
    ∃ w', w.leave src addr (x - radius) = some w' ∧
      w'.Holds (fun i => byteAt src (addr i)) (window radius len (x + 1)) := by
  rw [Window.leave]
  split_ifs with hin
  · have hle : radius ≤ x := by omega
    have hnat : (x - radius : ℤ).toNat = x - radius := by omega
    obtain ⟨v, hread, hv⟩ := exists_byteAt (h.inside (x - radius) (by omega))
    rw [hnat, hread, Option.bind_some]
    rw [Lib.grownWindow_eq_insert hle hx] at hw
    refine Window.drop_spec hw (Lib.notMem_window_sub hle) hv (h.fits ?_)
    exact (Finset.card_le_card Lib.window_succ_subset).trans Lib.card_grownWindow_le
  · rw [← Lib.grownWindow_eq_window (by omega)]
    exact ⟨w, rfl, hw⟩

theorem slide_spec (h : Line src addr len radius) (hx : x < len)
    (hw : w.Holds (fun i => byteAt src (addr i)) (window radius len x)) :
    ∃ w', w.slide src addr len radius x = some w' ∧
      w'.Holds (fun i => byteAt src (addr i)) (window radius len (x + 1)) := by
  have hreach := h.reach
  obtain ⟨w₁, henter, hw₁⟩ := enter_spec h hw
  obtain ⟨w₂, hleave, hw₂⟩ := leave_spec h hx hw₁
  refine ⟨w₂, ?_, hw₂⟩
  have hadd : checkedInt (x + radius + 1) = some ((x + radius + 1 : ℕ) : ℤ) :=
    checkedInt_of_le (by omega) (by omega)
  have hdrop : checkedInt (x - radius) = some (x - radius : ℤ) := by
    unfold intMax at hreach
    exact if_pos ⟨by unfold intMax; omega, by unfold intMax; omega⟩
  simp only [Window.slide, hadd, hdrop, henter, hleave, Option.bind_eq_bind, Option.bind_some]

/-- At a position, the mean is written and the window slides on. -/
theorem blurAt_spec (h : Line src addr len radius) (hx : x < len) {value : ℕ → UInt8}
    {dst : List UInt8} (hdst : addr x < dst.length)
    (hvalue : value (addr x) = lineMean src addr len radius x)
    (hw : w.Holds (fun i => byteAt src (addr i)) (window radius len x)) :
    ∃ s, blurAt src addr len radius (dst, w) x = some s ∧ Writes value {addr x} dst s.1 ∧
      s.2.Holds (fun i => byteAt src (addr i)) (window radius len (x + 1)) := by
  obtain ⟨w', hslide, hw'⟩ := slide_spec h hx hw
  obtain ⟨dst', hstore, hwrites⟩ := Writes.of_store value hdst
  refine ⟨(dst', w'), ?_, hwrites, hw'⟩
  have hmean : w.mean = some (value (addr x)) := by
    rw [Window.mean_spec hw (Lib.window_nonempty hx), hvalue]
    rfl
  simp only [blurAt, hmean, hstore, hslide, Option.bind_eq_bind, Option.bind_some]

theorem blurLine_spec (h : Line src addr len radius) {value : ℕ → UInt8} {dst : List UInt8}
    (hdst : ∀ x < len, addr x < dst.length)
    (hvalue : ∀ x < len, value (addr x) = lineMean src addr len radius x) :
    ∃ out, blurLine src addr len radius dst = some out ∧
      Writes value (⋃ x < len, {addr x}) dst out := by
  obtain ⟨w, hprime, hw⟩ := prime_spec h
  obtain ⟨s, hloop, hwrites, -⟩ := Lib.foldlM_range (f := blurAt src addr len radius)
    (fun n s => Writes value (⋃ x < n, {addr x}) dst s.1 ∧
      s.2.Holds (fun i => byteAt src (addr i)) (window radius len n))
    (fun x hx s hs => by
      obtain ⟨s', hat, hwrites, hw'⟩ :=
        blurAt_spec h hx (hs.1.length ▸ hdst x hx) (hvalue x hx) hs.2
      exact ⟨s', hat, Set.biUnion_lt_succ _ x ▸ hs.1.trans hwrites, hw'⟩)
    (b := (dst, w)) ⟨by simpa using Writes.refl, hw⟩
  refine ⟨s.1, ?_, hwrites⟩
  simp only [blurLine, hprime, hloop, Option.bind_eq_bind, Option.bind_some]

end Lines

/-! ### A pass -/

/-- A radius of at least 1 whose windows' sums fit an `int`. -/
structure Radius (r : ℕ) : Prop where
  pos : 1 ≤ r
  sum : (2 * r + 1) * 255 ≤ intMax

/-- The lines of a pass, one after another. -/
theorem blurLines_spec {src : List UInt8} (addr : ℕ → ℕ → ℕ) {n len radius : ℕ}
    (h : ∀ l < n, Line src (addr l) len radius) {value : ℕ → UInt8} {dst : List UInt8}
    (hdst : ∀ l < n, ∀ x < len, addr l x < dst.length)
    (hvalue : ∀ l < n, ∀ x < len, value (addr l x) = lineMean src (addr l) len radius x) :
    ∃ out, (List.range n).foldlM (fun dst l => blurLine src (addr l) len radius dst) dst =
        some out ∧
      Writes value (⋃ l < n, ⋃ x < len, {addr l x}) dst out :=
  Lib.foldlM_range (fun n d => Writes value (⋃ l < n, ⋃ x < len, {addr l x}) dst d)
    (fun l hl d hd => by
      obtain ⟨d', hline, hwrites⟩ := blurLine_spec (h l hl)
        (fun x hx => hd.length ▸ hdst l hl x hx) (hvalue l hl)
      exact ⟨d', hline, Set.biUnion_lt_succ _ l ▸ hd.trans hwrites⟩)
    (by simpa using Writes.refl)

section Area

variable {w h r x y : ℕ}

theorem place_lt (hx : x < w) (hy : y < h) : y * w + x < w * h := by
  calc y * w + x < (y + 1) * w := by
        rw [Nat.add_mul, Nat.one_mul]
        exact Nat.add_lt_add_left hx _
    _ ≤ h * w := Nat.mul_le_mul_right w hy
    _ = w * h := Nat.mul_comm h w

theorem place_div (hx : x < w) : (y * w + x) / w = y := by
  rw [Nat.mul_comm, Nat.mul_add_div (Nat.zero_lt_of_lt hx), Nat.div_eq_of_lt hx, Nat.add_zero]

theorem place_mod (hx : x < w) : (y * w + x) % w = x := by
  rw [Nat.mul_comm, Nat.mul_add_mod, Nat.mod_eq_of_lt hx]

theorem exists_place {p : ℕ} (hp : p < w * h) : ∃ y < h, ∃ x < w, p = y * w + x := by
  have hw : 0 < w := Nat.pos_of_mul_pos_right (Nat.zero_lt_of_lt hp)
  refine ⟨p / w, Nat.div_lt_of_lt_mul hp, p % w, Nat.mod_lt p hw, ?_⟩
  rw [Nat.mul_comm, Nat.div_add_mod]

theorem rows_eq_area : (⋃ y < h, ⋃ x < w, {y * w + x} : Set ℕ) = {p | p < w * h} := by
  ext p
  simp only [Set.mem_iUnion, Set.mem_singleton_iff, exists_prop, Set.mem_ofPred_eq]
  refine ⟨?_, exists_place⟩
  rintro ⟨y, hy, x, hx, rfl⟩
  exact place_lt hx hy

theorem columns_eq_area : (⋃ x < w, ⋃ y < h, {y * w + x} : Set ℕ) = {p | p < w * h} := by
  ext p
  simp only [Set.mem_iUnion, Set.mem_singleton_iff, exists_prop, Set.mem_ofPred_eq]
  constructor
  · rintro ⟨x, hx, y, hy, rfl⟩
    exact place_lt hx hy
  · intro hp
    obtain ⟨y, hy, x, hx, rfl⟩ := exists_place hp
    exact ⟨x, hx, y, hy, rfl⟩

/-- The means along the rows, by place. -/
def rowMean (src : List UInt8) (w r p : ℕ) : UInt8 :=
  lineMean src (fun x => p / w * w + x) w r (p % w)

/-- The means along the columns, by place. -/
def columnMean (src : List UInt8) (w h r p : ℕ) : UInt8 :=
  lineMean src (fun y => y * w + p % w) h r (p / w)

theorem boxBlurH_spec (src dst : List UInt8) (hr : Radius r) (hreach : w + r ≤ intMax)
    (hsrc : w * h ≤ src.length) (hdst : w * h ≤ dst.length) :
    ∃ out, boxBlurH src dst w h r = some out ∧
      Writes (rowMean src w r) {p | p < w * h} dst out := by
  have hpos := hr.pos
  rw [boxBlurH, if_neg (by omega), Int.toNat_natCast, Int.toNat_natCast, Int.toNat_natCast,
    ← rows_eq_area]
  refine blurLines_spec (fun y x => y * w + x) (fun y hy => ⟨fun x hx => ?_, hr.sum, hreach⟩)
    (fun y hy x hx => ?_) (fun y hy x hx => ?_)
  · exact (place_lt hx hy).trans_le hsrc
  · exact (place_lt hx hy).trans_le hdst
  · rw [rowMean, place_div hx, place_mod hx]

theorem boxBlurV_spec (src dst : List UInt8) (hr : Radius r) (hreach : h + r ≤ intMax)
    (hsrc : w * h ≤ src.length) (hdst : w * h ≤ dst.length) :
    ∃ out, boxBlurV src dst w h r = some out ∧
      Writes (columnMean src w h r) {p | p < w * h} dst out := by
  have hpos := hr.pos
  rw [boxBlurV, if_neg (by omega), Int.toNat_natCast, Int.toNat_natCast, Int.toNat_natCast,
    ← columns_eq_area]
  refine blurLines_spec (fun x y => y * w + x) (fun x hx => ⟨fun y hy => ?_, hr.sum, hreach⟩)
    (fun x hx y hy => ?_) (fun x hx y hy => ?_)
  · exact (place_lt hx hy).trans_le hsrc
  · exact (place_lt hx hy).trans_le hdst
  · rw [columnMean, place_div hx, place_mod hx]

/-! ### Bounds -/

theorem toNat_lineMean (src : List UInt8) (addr : ℕ → ℕ) (len radius x : ℕ) :
    (lineMean src addr len radius x).toNat =
      windowMean (fun i => byteAt src (addr i)) radius len x :=
  UInt8.toNat_ofNat_of_lt
    (Nat.lt_succ_of_le (Lib.windowMean_le fun i _ => byteAt_le src (addr i)))

/-- The first `n` bytes lie between the bounds. -/
def Between (lo hi n : ℕ) (buf : List UInt8) : Prop :=
  ∀ p < n, lo ≤ byteAt buf p ∧ byteAt buf p ≤ hi

theorem lineMean_between {src : List UInt8} {addr : ℕ → ℕ} {len radius lo hi n : ℕ} (hx : x < len)
    (hinside : ∀ i < len, addr i < n) (h : Between lo hi n src) :
    lo ≤ (lineMean src addr len radius x).toNat ∧ (lineMean src addr len radius x).toNat ≤ hi := by
  rw [toNat_lineMean]
  exact ⟨Lib.le_windowMean hx fun i hi => (h _ (hinside i hi)).1,
    Lib.windowMean_le fun i hi => (h _ (hinside i hi)).2⟩

theorem Writes.between {value : ℕ → UInt8} {cells : Set ℕ} {dst out : List UInt8} {lo hi n : ℕ}
    (hwrites : Writes value cells dst out)
    (hvalue : ∀ p ∈ cells, lo ≤ (value p).toNat ∧ (value p).toNat ≤ hi)
    (hdst : ∀ p < n, p ∉ cells → lo ≤ byteAt dst p ∧ byteAt dst p ≤ hi) : Between lo hi n out := by
  intro p hp
  by_cases hcell : p ∈ cells
  · have hbyte : byteAt out p = (value p).toNat := by
      rw [byteAt, List.getD_eq_getElem?_getD, hwrites.inside p hcell, Option.getD_some]
    rw [hbyte]
    exact hvalue p hcell
  · have hbyte : byteAt out p = byteAt dst p := by
      rw [byteAt, List.getD_eq_getElem?_getD, hwrites.outside p hcell,
        ← List.getD_eq_getElem?_getD, byteAt]
    rw [hbyte]
    exact hdst p hp hcell

theorem rowMean_between {src : List UInt8} {lo hi : ℕ} (hsrc : Between lo hi (w * h) src) {p : ℕ}
    (hp : p < w * h) : lo ≤ (rowMean src w r p).toNat ∧ (rowMean src w r p).toNat ≤ hi := by
  obtain ⟨y, hy, x, hx, rfl⟩ := exists_place hp
  rw [rowMean, place_div hx, place_mod hx]
  exact lineMean_between hx (fun i hi => place_lt hi hy) hsrc

theorem columnMean_between {src : List UInt8} {lo hi : ℕ} (hsrc : Between lo hi (w * h) src)
    {p : ℕ} (hp : p < w * h) :
    lo ≤ (columnMean src w h r p).toNat ∧ (columnMean src w h r p).toNat ≤ hi := by
  obtain ⟨y, hy, x, hx, rfl⟩ := exists_place hp
  rw [columnMean, place_div hx, place_mod hx]
  exact lineMean_between hy (fun i hi => place_lt hx hi) hsrc

end Area

theorem between_iff {lo hi : ℕ} {buf : List UInt8} :
    Between lo hi buf.length buf ↔ ∀ v ∈ buf, lo ≤ v.toNat ∧ v.toNat ≤ hi := by
  constructor
  · intro h v hv
    obtain ⟨p, hp, rfl⟩ := List.getElem_of_mem hv
    have := h p hp
    rwa [byteAt, List.getD_eq_getElem _ _ hp] at this
  · intro h p hp
    rw [byteAt, List.getD_eq_getElem _ _ hp]
    exact h _ (List.getElem_mem hp)

/-! ### Three passes -/

/-- The buffer after some passes: no bounds of it are left. -/
structure Blurred (buf : List UInt8) (b : List UInt8 × List UInt8) : Prop where
  blurred : b.1.length = buf.length
  scratch : b.2.length = buf.length
  between : ∀ lo hi, Between lo hi buf.length buf → Between lo hi buf.length b.1

section Passes

variable {w h r : ℕ}

theorem pass_spec (hr : Radius r) (hwide : w + r ≤ intMax) (htall : h + r ≤ intMax)
    {buf : List UInt8} (hlen : w * h ≤ buf.length) {b : List UInt8 × List UInt8}
    (hb : Blurred buf b) : ∃ b', pass w h r b = some b' ∧ Blurred buf b' := by
  obtain ⟨scratch, hrows, hscratch⟩ := boxBlurH_spec b.1 b.2 hr hwide
    (hb.blurred ▸ hlen) (hb.scratch ▸ hlen)
  have hscratchLen := hscratch.length.trans hb.scratch
  obtain ⟨out, hcolumns, hout⟩ := boxBlurV_spec scratch b.1 hr htall
    (hscratchLen ▸ hlen) (hb.blurred ▸ hlen)
  refine ⟨(out, scratch), ?_, hout.length.trans hb.blurred, hscratchLen, fun lo hi hbuf => ?_⟩
  · simp only [pass, hrows, hcolumns, Option.bind_eq_bind, Option.bind_some]
  · have hfirst := hb.between lo hi hbuf
    have hmiddle : Between lo hi (w * h) scratch :=
      hscratch.between
        (fun p hp => rowMean_between (fun q hq => hfirst q (hq.trans_le hlen)) hp)
        (fun p hp hcell => absurd hp hcell)
    exact hout.between (fun p hp => columnMean_between hmiddle hp) fun p hp _ => hfirst p hp

/-- The passes that `blur3` makes. -/
theorem blur3_eq {buf : List UInt8} {total : ℤ} (hr : Radius r) (hpos : 0 < total) (hw : w ≠ 0)
    (hh : h ≠ 0) (htotal : max 1 ((total + 2) / 3) = r) :
    blur3 buf w h total = ((List.range 3).foldlM (fun b _ => pass w h r b)
      (buf, List.replicate buf.length 0)).map Prod.fst := by
  have hmax := hr.sum
  unfold intMax at hmax
  have hfits : checkedInt (total + 2) = some (total + 2) :=
    checkedInt_of_le (by omega) (by unfold intMax; omega)
  have hdiv : (total + 2).tdiv 3 = (total + 2) / 3 := Int.tdiv_eq_ediv_of_nonneg (by omega)
  rw [blur3, if_neg (by omega)]
  simp only [hfits, hdiv, htotal, Option.bind_eq_bind, Option.bind_some]
  exact Option.map_eq_bind.symm

/-- `blur3` loses no bound, neither of the values' lowest nor of their highest. -/
theorem blur3_spec (hr : Radius r) (hwide : w + r ≤ intMax) (htall : h + r ≤ intMax)
    {buf : List UInt8} (hlen : w * h ≤ buf.length) {total : ℤ}
    (htotal : 0 < total → max 1 ((total + 2) / 3) = r) :
    ∃ out, blur3 buf w h total = some out ∧ out.length = buf.length ∧
      ∀ lo hi, Between lo hi buf.length buf → Between lo hi buf.length out := by
  by_cases hnone : total ≤ 0 ∨ (w : ℤ) = 0 ∨ (h : ℤ) = 0
  · exact ⟨buf, if_pos hnone, rfl, fun _ _ hbuf => hbuf⟩
  · obtain ⟨b, hloop, hb⟩ := Lib.foldlM_range (n := 3) (f := fun b _ => pass w h r b)
      (fun _ b => Blurred buf b)
      (fun _ _ b hb => pass_spec hr hwide htall hlen hb)
      (b := (buf, List.replicate buf.length 0)) ⟨rfl, List.length_replicate, fun _ _ hbuf => hbuf⟩
    refine ⟨b.1, ?_, hb.blurred, hb.between⟩
    rw [blur3_eq hr (by omega) (by omega) (by omega) (htotal (by omega)), hloop]
    rfl

end Passes

/-! ### The windowed mean -/

section Windowed

variable {w h r : ℕ}

theorem boxBlurH_windowMean (hr : Radius r) (hwide : w + r ≤ intMax) {src dst : List UInt8}
    (hsrc : w * h ≤ src.length) (hdst : w * h ≤ dst.length) :
    ∃ out, boxBlurH src dst w h r = some out ∧ out.length = dst.length ∧ ∀ y < h, ∀ x < w,
      byteAt out (y * w + x) = windowMean (fun i => byteAt src (y * w + i)) r w x := by
  obtain ⟨out, hout, hwrites⟩ := boxBlurH_spec src dst hr hwide hsrc hdst
  refine ⟨out, hout, hwrites.length, fun y hy x hx => ?_⟩
  rw [byteAt, List.getD_eq_getElem?_getD, hwrites.inside _ (place_lt hx hy), Option.getD_some,
    rowMean, place_div hx, place_mod hx, toNat_lineMean]

theorem boxBlurV_windowMean (hr : Radius r) (htall : h + r ≤ intMax) {src dst : List UInt8}
    (hsrc : w * h ≤ src.length) (hdst : w * h ≤ dst.length) :
    ∃ out, boxBlurV src dst w h r = some out ∧ out.length = dst.length ∧ ∀ y < h, ∀ x < w,
      byteAt out (y * w + x) = windowMean (fun i => byteAt src (i * w + x)) r h y := by
  obtain ⟨out, hout, hwrites⟩ := boxBlurV_spec src dst hr htall hsrc hdst
  refine ⟨out, hout, hwrites.length, fun y hy x hx => ?_⟩
  rw [byteAt, List.getD_eq_getElem?_getD, hwrites.inside _ (place_lt hx hy), Option.getD_some,
    columnMean, place_div hx, place_mod hx, toNat_lineMean]

theorem blur3_bounds (hr : Radius r) (hwide : w + r ≤ intMax) (htall : h + r ≤ intMax)
    {buf : List UInt8} (hlen : w * h ≤ buf.length) {total : ℤ}
    (htotal : 0 < total → max 1 ((total + 2) / 3) = r) :
    ∃ out, blur3 buf w h total = some out ∧ (∀ c, (∀ v ∈ buf, v = c) → out = buf) ∧
      ∀ m, (∀ v ∈ buf, v ≤ m) → ∀ v ∈ out, v ≤ m := by
  obtain ⟨out, hout, houtLen, hbounds⟩ := blur3_spec hr hwide htall hlen htotal
  refine ⟨out, hout, fun c hc => ?_, fun m hm v hv => ?_⟩
  · have hbetween := hbounds c.toNat c.toNat
      (between_iff.mpr fun v hv => ⟨(hc v hv).symm ▸ le_rfl, (hc v hv) ▸ le_rfl⟩)
    rw [← houtLen, between_iff] at hbetween
    rw [List.eq_replicate_of_mem hc, ← houtLen]
    exact List.eq_replicate_of_mem fun v hv =>
      UInt8.toNat_inj.mp (Nat.le_antisymm (hbetween v hv).2 (hbetween v hv).1)
  · have hbetween := hbounds 0 m.toNat
      (between_iff.mpr fun u hu => ⟨Nat.zero_le _, UInt8.le_iff_toNat_le.mp (hm u hu)⟩)
    rw [← houtLen, between_iff] at hbetween
    exact UInt8.le_iff_toNat_le.mpr (hbetween v hv).2

/-- The blur along an axis is the windowed mean, as long as the indices of the window after the last
position fit. -/
theorem boxBlur_eq_windowMean (hr : Radius r) :
    (w + r ≤ intMax → ∀ src dst : List UInt8, w * h ≤ src.length → w * h ≤ dst.length →
      ∃ out, boxBlurH src dst w h r = some out ∧ out.length = dst.length ∧ ∀ y < h, ∀ x < w,
        byteAt out (y * w + x) = windowMean (fun i => byteAt src (y * w + i)) r w x) ∧
    (h + r ≤ intMax → ∀ src dst : List UInt8, w * h ≤ src.length → w * h ≤ dst.length →
      ∃ out, boxBlurV src dst w h r = some out ∧ out.length = dst.length ∧ ∀ y < h, ∀ x < w,
        byteAt out (y * w + x) = windowMean (fun i => byteAt src (i * w + x)) r h y) ∧
    (w + r ≤ intMax → h + r ≤ intMax → ∀ (buf : List UInt8) (total : ℤ), w * h ≤ buf.length →
      (0 < total → max 1 ((total + 2) / 3) = r) →
      ∃ out, blur3 buf w h total = some out ∧ (∀ c, (∀ v ∈ buf, v = c) → out = buf) ∧
        ∀ m, (∀ v ∈ buf, v ≤ m) → ∀ v ∈ out, v ≤ m) :=
  ⟨fun hwide _ _ hsrc hdst => boxBlurH_windowMean hr hwide hsrc hdst,
    fun htall _ _ hsrc hdst => boxBlurV_windowMean hr htall hsrc hdst,
    fun hwide htall _ _ hlen htotal => blur3_bounds hr hwide htall hlen htotal⟩

end Windowed

theorem boxBlur_eq_windowMean_pair :
    ∃ out, boxBlurH [10, 20] [0, 0] (2 : ℕ) (1 : ℕ) (1 : ℕ) = some out ∧ out.length = 2 ∧
      ∀ y < 1, ∀ x < 2,
        byteAt out (y * 2 + x) = windowMean (fun i => byteAt [10, 20] (y * 2 + i)) 1 2 x :=
  (boxBlur_eq_windowMean (w := 2) (h := 1) (r := 1) ⟨by decide, by decide⟩).1 (by decide)
    [10, 20] [0, 0] (by decide) (by decide)

/-! ### Lines too long -/

section Overflow

variable {src dst : List UInt8} {w h r : ℕ}

/-- At the last position of a line, the index of the byte that would enter does not fit. -/
theorem blurLine_eq_none {addr : ℕ → ℕ} {len radius : ℕ} (hlen : 0 < len)
    (hreach : intMax < len + radius) : blurLine src addr len radius dst = none := by
  obtain ⟨n, rfl⟩ := Nat.exists_eq_add_of_lt hlen
  rw [Nat.zero_add] at hreach ⊢
  have hadd : checkedInt (n + radius + 1) = none := by
    refine if_neg ?_
    omega
  have hlast : ∀ s, blurAt src addr (n + 1) radius s n = none := by
    intro s
    simp only [blurAt, Window.slide, hadd, Option.bind_eq_bind, Option.bind_none,
      Option.bind_fun_none]
  simp only [blurLine, Lib.foldlM_range_eq_none hlast, Option.bind_eq_bind, Option.bind_none,
    Option.bind_fun_none]

theorem boxBlurH_eq_none (hr : 1 ≤ r) (hw : 0 < w) (hh : 0 < h) (hwide : intMax < w + r) :
    boxBlurH src dst w h r = none := by
  obtain ⟨n, rfl⟩ := Nat.exists_eq_add_of_lt hh
  rw [boxBlurH, if_neg (by omega), Int.toNat_natCast, Int.toNat_natCast, Int.toNat_natCast,
    Nat.zero_add]
  exact Lib.foldlM_range_eq_none (fun _ => blurLine_eq_none hw hwide) dst

/-- A row as long as an `int` counts is too long for any window. -/
theorem not_windowMean_longestRow :
    Radius 1 ∧ (List.replicate 2147483647 (0 : UInt8)).length = 2147483647 * 1 ∧
      ¬ ∃ out, boxBlurH (List.replicate 2147483647 0) (List.replicate 2147483647 0)
        (2147483647 : ℕ) (1 : ℕ) (1 : ℕ) = some out := by
  refine ⟨⟨by decide, by decide⟩, List.length_replicate, ?_⟩
  rintro ⟨out, hout⟩
  rw [boxBlurH_eq_none (by decide) (by decide) (by decide) (by decide)] at hout
  exact absurd hout nofun

end Overflow

end DrmCxx.Csd.BoxBlur
