import DrmCxx.Fmt.FormatMod
import DrmCxx.Lib.Checked
import Mathlib.Data.List.Perm.Subperm
import Mathlib.Data.List.TakeWhile
import Mathlib.Data.Nat.Bitwise

/-!
# What a format table holds

The decoded table against the pairs that the blob lists. An index beyond 32 bits wraps around and
adds a pair the blob does not list. The table is exact if every such pair is listed elsewhere, and
if no group starts beyond 32 bits.
-/

namespace DrmCxx.Fmt

/-! ### The order of the pairs -/

namespace FormatMod

def rank (p : FormatMod) : ℕ := p.fourcc.toNat * 2 ^ 64 + p.modifier.toNat

theorem rank_injective : Function.Injective rank := by
  rintro ⟨f, m⟩ ⟨f', m'⟩ h
  simp only [rank] at h
  have hm := m.toNat_lt
  have hm' := m'.toNat_lt
  rw [mk.injEq, ← UInt32.toNat_inj, ← UInt64.toNat_inj]
  omega

theorem lt_iff_rank {a b : FormatMod} : a.lt b = true ↔ a.rank < b.rank := by
  have ha := a.modifier.toNat_lt
  have hb := b.modifier.toNat_lt
  simp only [lt, rank]
  split_ifs with h
  · rw [decide_eq_true_eq, UInt32.lt_iff_toNat_lt]
    rw [ne_eq, ← UInt32.toNat_inj] at h
    omega
  · rw [decide_eq_true_eq, UInt64.lt_iff_toNat_lt]
    rw [ne_eq, ← UInt32.toNat_inj, Decidable.not_not] at h
    omega

/-- In the order of the table, the fourccs do not go down. -/
theorem fourcc_le_of_lt {a b : FormatMod} (h : a.lt b = true) : a.fourcc ≤ b.fourcc := by
  rw [lt_iff_rank] at h
  have ha := a.modifier.toNat_lt
  have hb := b.modifier.toNat_lt
  simp only [rank] at h
  rw [UInt32.le_iff_toNat_le]
  omega

theorem modifier_lt_of_lt {a b : FormatMod} (h : a.lt b = true) (hf : a.fourcc = b.fourcc) :
    a.modifier < b.modifier := by
  rw [lt, if_neg (by simpa using hf)] at h
  simpa using h

end FormatMod

/-- Sorted, and without duplicates. -/
def Sorted (l : List FormatMod) : Prop := l.Pairwise fun a b => a.lt b = true

theorem Sorted.eq_of_mem_iff {l l' : List FormatMod} (hl : Sorted l) (hl' : Sorted l')
    (h : ∀ p, p ∈ l ↔ p ∈ l') : l = l' := by
  have hr (l : List FormatMod) (hl : Sorted l) : l.Pairwise fun a b => a.rank < b.rank :=
    hl.imp FormatMod.lt_iff_rank.mp
  have hmap : l.map FormatMod.rank = l'.map FormatMod.rank := by
    refine List.Pairwise.eq_of_mem_iff (r := (· < ·)) ?_ ?_ fun n => ?_
    · exact List.pairwise_map.mpr (hr l hl)
    · exact List.pairwise_map.mpr (hr l' hl')
    · simp [h]
  exact (List.map_injective_iff.mpr FormatMod.rank_injective) hmap

/-- The pairs are sorted and their duplicates dropped. -/
theorem sorted_unique_insertionSort (pairs : List FormatMod) :
    Sorted (Lib.unique (pairs.insertionSort fun a b => !b.lt a)) := by
  have hle (a b : FormatMod) : (!b.lt a) = true ↔ a.rank ≤ b.rank := by
    rw [Bool.not_eq_true', ← Bool.not_eq_true, FormatMod.lt_iff_rank, Nat.not_lt]
  have : Std.Total fun a b : FormatMod => (!b.lt a) = true :=
    ⟨fun a b => by simpa only [hle] using Nat.le_total _ _⟩
  have : IsTrans FormatMod fun a b => (!b.lt a) = true :=
    ⟨fun a b c => by simpa only [hle] using Nat.le_trans⟩
  have : Std.Antisymm fun a b : FormatMod => (!b.lt a) = true :=
    ⟨fun a b hab hba => FormatMod.rank_injective
      (Nat.le_antisymm ((hle a b).mp hab) ((hle b a).mp hba))⟩
  refine (Lib.pairwise_unique (List.pairwise_insertionSort _ pairs)).imp fun {a b} h => ?_
  rw [FormatMod.lt_iff_rank]
  exact lt_of_le_of_ne ((hle a b).mp h.1) fun heq => h.2 (FormatMod.rank_injective heq)

theorem mem_unique_insertionSort {pairs : List FormatMod} {p : FormatMod} :
    p ∈ Lib.unique (pairs.insertionSort fun a b => !b.lt a) ↔ p ∈ pairs := by
  rw [Lib.mem_unique, (List.perm_insertionSort _ _).mem_iff]

/-! ### What the blob lists -/

/-- The header and both arrays lie inside the buffer. -/
structure Inside (buf : List UInt8) (h : BlobHeader) : Prop where
  header : sizeofHeader ≤ buf.length
  read : readHeader buf = some h
  formats : h.formatsOffset.toNat + h.countFormats.toNat * sizeofFormat ≤ buf.length
  modifiers : h.modifiersOffset.toNat + h.countModifiers.toNat * sizeofModifier ≤ buf.length

/-- Place `idx` of the formats has the pair's fourcc, and the entry its modifier. -/
def PointsTo (buf : List UInt8) (h : BlobHeader) (m : FormatModifier) (idx : ℕ) (p : FormatMod) :
    Prop :=
  m.modifier = p.modifier ∧ idx < h.countFormats.toNat ∧ readFormat buf h idx = some p.fourcc

/-- Some modifier entry has a bit set that leads to the pair. -/
def ListedAt (idx : FormatModifier → ℕ → ℕ) (data : Option (List UInt8)) (p : FormatMod) : Prop :=
  ∃ buf h, data = some buf ∧ Inside buf h ∧
    ∃ i < h.countModifiers.toNat, ∃ m, readModifier buf h i = some m ∧
      ∃ b < 64, m.formats.toNat.testBit b ∧ PointsTo buf h m (idx m b) p

/-- The blob lists the pair. -/
def Listed : Option (List UInt8) → FormatMod → Prop := ListedAt fun m b => m.offset.toNat + b

/-- An index that is computed in 32 bits leads to the pair. -/
def Reached : Option (List UInt8) → FormatMod → Prop :=
  ListedAt fun m b => (m.offset.toNat + b) % 2 ^ 32

theorem Listed.reached {data : Option (List UInt8)} {p : FormatMod} (hp : Listed data p) :
    Reached data p := by
  obtain ⟨buf, h, hdata, hin, i, hi, m, hm, b, hb, hbit, hp⟩ := hp
  refine ⟨buf, h, hdata, hin, i, hi, m, hm, b, hb, hbit, ?_⟩
  have hlt : m.offset.toNat + b < 2 ^ 32 := hp.2.1.trans h.countFormats.toNat_lt
  show PointsTo buf h m ((m.offset.toNat + b) % 2 ^ 32) p
  rw [Nat.mod_eq_of_lt hlt]
  exact hp

/-! ### Reading the blob -/

theorem hasBit_eq_testBit (m : FormatModifier) {b : ℕ} (hb : b < 64) :
    m.hasBit b = m.formats.toNat.testBit b := by
  have hb' : (UInt64.ofNat b).toNat % 64 = b := by
    rw [UInt64.toNat_ofNat_of_lt' (hb.trans (by decide)), Nat.mod_eq_of_lt hb]
  rw [FormatModifier.hasBit, Nat.testBit, Bool.eq_iff_iff, decide_eq_true_eq, bne_iff_ne, ne_eq,
    ne_eq, ← UInt64.toNat_inj, UInt64.toNat_and, UInt64.toNat_shiftRight, hb', Nat.and_comm]
  rfl

theorem idx_toNat (offset : UInt32) (b : ℕ) :
    (offset + UInt32.ofNat b).toNat = (offset.toNat + b) % 2 ^ 32 := by
  rw [UInt32.toNat_add, UInt32.toNat_ofNat', Nat.add_mod_mod]

theorem fits_iff {buf : List UInt8} {h : BlobHeader} (hsize : sizeofHeader ≤ buf.length)
    (hread : readHeader buf = some h) : h.fits buf.length = true ↔ Inside buf h := by
  have hdiv (n k s : ℕ) (hk : 0 < k) : n ≤ s / k ↔ n * k ≤ s := Nat.le_div_iff_mul_le hk
  simp only [BlobHeader.fits, Bool.not_eq_true', Bool.or_eq_false_iff, decide_eq_false_iff_not,
    gt_iff_lt, Nat.not_lt]
  rw [hdiv _ _ _ (by decide), hdiv _ _ _ (by decide)]
  constructor
  · rintro ⟨⟨⟨hf, hm⟩, hfs⟩, hms⟩
    exact ⟨hsize, hread, by omega, by omega⟩
  · rintro ⟨-, -, hf, hm⟩
    exact ⟨⟨⟨by omega, by omega⟩, by omega⟩, by omega⟩

theorem isSome_readHeader {buf : List UInt8} (h : sizeofHeader ≤ buf.length) :
    (readHeader buf).isSome := by
  rw [sizeofHeader] at h
  have hr (i : ℕ) (hi : i + 4 ≤ 24) : ∃ v, Lib.readU32 buf i = some v :=
    Option.isSome_iff_exists.mp (Lib.isSome_readU32 (by omega))
  obtain ⟨v₀, h₀⟩ := hr 0 (by omega)
  obtain ⟨v₁, h₁⟩ := hr 4 (by omega)
  obtain ⟨v₂, h₂⟩ := hr 8 (by omega)
  obtain ⟨v₃, h₃⟩ := hr 12 (by omega)
  obtain ⟨v₄, h₄⟩ := hr 16 (by omega)
  obtain ⟨v₅, h₅⟩ := hr 20 (by omega)
  simp [readHeader, h₀, h₁, h₂, h₃, h₄, h₅]

namespace Inside

variable {buf : List UInt8} {h : BlobHeader}

theorem isSome_readModifier (hin : Inside buf h) {i : ℕ} (hi : i < h.countModifiers.toNat) :
    (readModifier buf h i).isSome := by
  have hend : h.modifiersOffset.toNat + i * sizeofModifier + sizeofModifier ≤ buf.length := by
    have := Nat.mul_le_mul_right sizeofModifier (Nat.succ_le_of_lt hi)
    rw [Nat.succ_mul] at this
    have := hin.modifiers
    omega
  rw [show sizeofModifier = 24 from rfl] at hend
  have h32 {i : ℕ} (hi : i + 4 ≤ buf.length) : ∃ v, Lib.readU32 buf i = some v :=
    Option.isSome_iff_exists.mp (Lib.isSome_readU32 hi)
  have h64 {i : ℕ} (hi : i + 8 ≤ buf.length) : ∃ v, Lib.readU64 buf i = some v :=
    Option.isSome_iff_exists.mp (Lib.isSome_readU64 hi)
  obtain ⟨v₀, h₀⟩ := h64 (show h.modifiersOffset.toNat + i * 24 + 8 ≤ _ by omega)
  obtain ⟨v₁, h₁⟩ := h32 (show h.modifiersOffset.toNat + i * 24 + 8 + 4 ≤ _ by omega)
  obtain ⟨v₂, h₂⟩ := h64 (show h.modifiersOffset.toNat + i * 24 + 16 + 8 ≤ _ by omega)
  simp [readModifier, sizeofModifier, h₀, h₁, h₂]

theorem isSome_readFormat (hin : Inside buf h) {i : ℕ} (hi : i < h.countFormats.toNat) :
    (readFormat buf h i).isSome := by
  refine Lib.isSome_readU32 ?_
  have := Nat.mul_le_mul_right sizeofFormat (Nat.succ_le_of_lt hi)
  rw [Nat.succ_mul] at this
  have := hin.formats
  rw [show sizeofFormat = 4 from rfl] at *
  omega

theorem isSome_pushBits (hin : Inside buf h) (m : FormatModifier) (pairs : List FormatMod) :
    (pushBits buf h m pairs).isSome := by
  refine Lib.isSome_foldlM (fun b _ pairs => ?_) pairs
  split_ifs with hbit
  · rfl
  · dsimp only
    split_ifs with hidx
    · rfl
    · obtain ⟨f, hf⟩ := Option.isSome_iff_exists.mp
        (hin.isSome_readFormat (UInt32.lt_iff_toNat_lt.mp (UInt32.not_le.mp hidx)))
      rw [hf]
      rfl

theorem isSome_pushModifiers (hin : Inside buf h) (pairs : List FormatMod) :
    (pushModifiers buf h pairs).isSome := by
  refine Lib.isSome_foldlM (fun i hi pairs => ?_) pairs
  obtain ⟨m, hm⟩ := Option.isSome_iff_exists.mp (hin.isSome_readModifier (List.mem_range.mp hi))
  rw [hm]
  exact hin.isSome_pushBits m pairs

end Inside

/-! ### The decoded pairs -/

theorem mem_pushBits {buf : List UInt8} {h : BlobHeader} {m : FormatModifier}
    {pairs pairs' : List FormatMod} (hpush : pushBits buf h m pairs = some pairs')
    (p : FormatMod) :
    p ∈ pairs' ↔ p ∈ pairs ∨ ∃ b < 64, m.formats.toNat.testBit b ∧
      PointsTo buf h m ((m.offset.toNat + b) % 2 ^ 32) p := by
  simp only [← List.mem_range]
  refine Lib.mem_foldlM (Q := fun b p => m.formats.toNat.testBit b ∧
    PointsTo buf h m ((m.offset.toNat + b) % 2 ^ 32) p)
    (fun b hb pairs pairs' hstep p => ?_) hpush p
  rw [hasBit_eq_testBit m (List.mem_range.mp hb)] at hstep
  cases hbit : m.formats.toNat.testBit b with
  | false =>
    obtain rfl : pairs = pairs' := by simpa [hbit] using hstep
    simp
  | true =>
    simp only [hbit, Bool.not_true, Bool.false_eq_true, if_false, ge_iff_le,
      UInt32.le_iff_toNat_le, idx_toNat] at hstep
    split_ifs at hstep with hidx
    · obtain rfl := Option.some.inj hstep
      exact ⟨.inl, fun hp => hp.resolve_right fun hp => Nat.not_lt.mpr hidx hp.2.2.1⟩
    · obtain ⟨f, hf, hstep⟩ := Option.bind_eq_some_iff.mp hstep
      obtain rfl := Option.some.inj hstep
      obtain ⟨f', m'⟩ := p
      simp only [PointsTo, List.mem_append, List.mem_singleton, FormatMod.mk.injEq, hf,
        Option.some.injEq, Nat.lt_of_not_le hidx, true_and]
      tauto

theorem mem_pushModifiers {buf : List UInt8} {h : BlobHeader} (hin : Inside buf h)
    {pairs : List FormatMod} (hpush : pushModifiers buf h [] = some pairs) (p : FormatMod) :
    p ∈ pairs ↔ Reached (some buf) p := by
  have hmem := Lib.mem_foldlM (Q := fun i p => ∃ m, readModifier buf h i = some m ∧
    ∃ b < 64, m.formats.toNat.testBit b ∧ PointsTo buf h m ((m.offset.toNat + b) % 2 ^ 32) p)
    (fun i _ pairs pairs' hstep p => ?_) hpush p
  · rw [hmem]
    constructor
    · rintro (hnil | ⟨i, hi, hp⟩)
      · cases hnil
      · exact ⟨buf, h, rfl, hin, i, List.mem_range.mp hi, hp⟩
    · rintro ⟨_, h', ⟨⟩, hin', i, hi, hp⟩
      obtain rfl := Option.some.inj (hin.read.symm.trans hin'.read)
      exact .inr ⟨i, List.mem_range.mpr hi, hp⟩
  · obtain ⟨m, hm, hstep⟩ := Option.bind_eq_some_iff.mp hstep
    rw [mem_pushBits hstep p]
    refine or_congr_right ⟨fun hb => ⟨m, hm, hb⟩, ?_⟩
    rintro ⟨m', hm', hb⟩
    obtain rfl := Option.some.inj (hm.symm.trans hm')
    exact hb

/-- Nothing outside the buffer is read, and the table is the index of the pairs reached. -/
theorem fromBlob_spec (data : Option (List UInt8)) :
    ∃ pairs, FormatTable.fromBlob data = some (buildIndex pairs) ∧
      ∀ p, p ∈ pairs ↔ Reached data p := by
  have hempty : buildIndex [] = {} := rfl
  cases data with
  | none =>
    refine ⟨[], rfl, fun p => ⟨nofun, ?_⟩⟩
    rintro ⟨_, _, ⟨⟩, _⟩
  | some buf =>
    by_cases hsize : sizeofHeader ≤ buf.length
    · obtain ⟨h, hread⟩ := Option.isSome_iff_exists.mp (isSome_readHeader hsize)
      have hfits := fits_iff hsize hread
      cases hf : h.fits buf.length with
      | true =>
        have hin := hfits.mp hf
        obtain ⟨pairs, hpairs⟩ := Option.isSome_iff_exists.mp (hin.isSome_pushModifiers [])
        refine ⟨pairs, ?_, mem_pushModifiers hin hpairs⟩
        simp [FormatTable.fromBlob, Nat.not_lt.mpr hsize, hread, hf, hpairs]
      | false =>
        refine ⟨[], ?_, fun p => ⟨nofun, ?_⟩⟩
        · simp [FormatTable.fromBlob, Nat.not_lt.mpr hsize, hread, hf, hempty]
        · rintro ⟨_, h', ⟨⟩, hin, -⟩
          obtain rfl := Option.some.inj (hread.symm.trans hin.read)
          exact absurd (hfits.mpr hin) (by simp [hf])
    · refine ⟨[], ?_, fun p => ⟨nofun, ?_⟩⟩
      · simp [FormatTable.fromBlob, Nat.lt_of_not_le hsize, hempty]
      · rintro ⟨_, _, ⟨⟩, hin, -⟩
        exact absurd hin.header hsize

/-! ### The groups -/

/-- The pairs of smaller fourccs come first. -/
def place (l : List FormatMod) (f : UInt32) : ℕ := l.countP fun p => p.fourcc < f

def modifiersOf (l : List FormatMod) (f : UInt32) : List UInt64 :=
  (l.filter fun p => p.fourcc = f).map (·.modifier)

/-- The fourccs do not go down. -/
def ByFourcc (l : List FormatMod) : Prop := l.Pairwise fun a b => a.fourcc.toNat ≤ b.fourcc.toNat

theorem Sorted.byFourcc {l : List FormatMod} (hl : Sorted l) : ByFourcc l :=
  hl.imp fun h => UInt32.le_iff_toNat_le.mp (FormatMod.fourcc_le_of_lt h)

/-- After the pairs of the first fourcc come those of larger ones. -/
theorem ByFourcc.split {p : FormatMod} {ps : List FormatMod} (hps : ByFourcc (p :: ps)) :
    ∃ run rest, (p :: ps).takeWhile (fun q => q.fourcc = p.fourcc) = run ∧
      (p :: ps).dropWhile (fun q => q.fourcc = p.fourcc) = rest ∧ run ++ rest = p :: ps ∧
      (∀ q ∈ run, q.fourcc = p.fourcc) ∧ (∀ q ∈ rest, p.fourcc.toNat < q.fourcc.toNat) ∧
      run ≠ [] ∧ ByFourcc rest := by
  have happ : (p :: ps).takeWhile (fun q => q.fourcc = p.fourcc) ++
      (p :: ps).dropWhile (fun q => q.fourcc = p.fourcc) = p :: ps :=
    List.takeWhile_append_dropWhile
  refine ⟨_, _, rfl, rfl, happ, fun q hq => by simpa using List.mem_takeWhile_imp hq, ?_,
    by simp, hps.sublist (List.dropWhile_sublist _)⟩
  have hrest := hps.sublist (List.dropWhile_sublist fun q => decide (q.fourcc = p.fourcc))
  have hhead := List.head?_dropWhile_not (fun q => decide (q.fourcc = p.fourcc)) (p :: ps)
  have hle : ∀ q ∈ (p :: ps).dropWhile fun q => q.fourcc = p.fourcc,
      p.fourcc.toNat ≤ q.fourcc.toNat := fun q hq => by
    rcases List.mem_cons.mp ((List.dropWhile_sublist _).mem hq) with rfl | hq
    · exact Nat.le_refl _
    · exact (List.pairwise_cons.mp hps).1 q hq
  revert hrest hhead hle
  generalize (p :: ps).dropWhile (fun q => decide (q.fourcc = p.fourcc)) = rest
  intro hrest hhead hle q hq
  cases rest with
  | nil => cases hq
  | cons x rest =>
    have hx : x.fourcc ≠ p.fourcc := by simpa using hhead
    have hx' : p.fourcc.toNat < x.fourcc.toNat :=
      lt_of_le_of_ne (hle x List.mem_cons_self) fun h => hx (UInt32.toNat_inj.mp h.symm)
    rcases List.mem_cons.mp hq with rfl | hq
    · exact hx'
    · exact hx'.trans_le ((List.pairwise_cons.mp hrest).1 q hq)

/-- The groups of a list whose modifiers start at `base`. -/
structure GroupsOf (base : ℕ) (ps : List FormatMod) (gs : List Group) : Prop where
  sorted : gs.Pairwise fun g g' => g.fourcc.toNat < g'.fourcc.toNat
  mem : ∀ g, g ∈ gs ↔ (∃ p ∈ ps, p.fourcc = g.fourcc) ∧
    g.first = UInt32.ofNat (base + place ps g.fourcc) ∧
    g.count = UInt32.ofNat (modifiersOf ps g.fourcc).length

theorem place_append (l l' : List FormatMod) (f : UInt32) :
    place (l ++ l') f = place l f + place l' f := List.countP_append ..

theorem modifiersOf_append (l l' : List FormatMod) (f : UInt32) :
    modifiersOf (l ++ l') f = modifiersOf l f ++ modifiersOf l' f := by
  simp [modifiersOf]

theorem modifiersOf_eq_nil {l : List FormatMod} {f : UInt32} (h : ∀ p ∈ l, p.fourcc ≠ f) :
    modifiersOf l f = [] := by
  simpa [modifiersOf] using h

theorem modifiersOf_eq_map {l : List FormatMod} {f : UInt32} (h : ∀ p ∈ l, p.fourcc = f) :
    modifiersOf l f = l.map (·.modifier) := by
  rw [modifiersOf, List.filter_eq_self.mpr (by simpa using h)]

theorem place_eq_zero {l : List FormatMod} {f : UInt32}
    (h : ∀ p ∈ l, f.toNat ≤ p.fourcc.toNat) : place l f = 0 :=
  List.countP_eq_zero.mpr fun p hp => by
    simpa [UInt32.lt_iff_toNat_lt] using h p hp

theorem place_eq_length {l : List FormatMod} {f : UInt32}
    (h : ∀ p ∈ l, p.fourcc.toNat < f.toNat) : place l f = l.length :=
  List.countP_eq_length.mpr fun p hp => by
    simpa [UInt32.lt_iff_toNat_lt] using h p hp

/-- The first group, and the groups of the rest. -/
theorem GroupsOf.cons {base : ℕ} {f : UInt32} {run rest : List FormatMod} {gs : List Group}
    (hrun : ∀ q ∈ run, q.fourcc = f) (hne : run ≠ [])
    (hrest : ∀ q ∈ rest, f.toNat < q.fourcc.toNat)
    (hgs : GroupsOf (base + run.length) rest gs) :
    GroupsOf base (run ++ rest)
      (⟨f, UInt32.ofNat base, UInt32.ofNat run.length⟩ :: gs) where
  sorted := by
    refine List.pairwise_cons.mpr ⟨fun g hg => ?_, hgs.sorted⟩
    obtain ⟨p, hp, hpf⟩ := ((hgs.mem g).mp hg).1
    exact hpf ▸ hrest p hp
  mem g := by
    rw [List.mem_cons, hgs.mem, place_append, modifiersOf_append, List.length_append]
    obtain ⟨x, hx⟩ := List.exists_mem_of_ne_nil run hne
    by_cases hg : g.fourcc = f
    · have hplace : place run g.fourcc = 0 ∧ place rest g.fourcc = 0 :=
        ⟨place_eq_zero fun q hq => by rw [hg, hrun q hq],
          place_eq_zero fun q hq => hg ▸ (hrest q hq).le⟩
      have hnone : modifiersOf rest g.fourcc = [] :=
        modifiersOf_eq_nil fun q hq h => by simpa [h, hg] using hrest q hq
      have hall : modifiersOf run g.fourcc = run.map (·.modifier) :=
        modifiersOf_eq_map fun q hq => (hrun q hq).trans hg.symm
      have hmem : ¬ ∃ p ∈ rest, p.fourcc = g.fourcc := by
        rintro ⟨p, hp, hpf⟩
        simpa [hpf, hg] using hrest p hp
      have hmem' : ∃ p ∈ run ++ rest, p.fourcc = g.fourcc :=
        ⟨x, List.mem_append_left _ hx, (hrun x hx).trans hg.symm⟩
      rw [hplace.1, hplace.2, hnone, hall, or_iff_left fun h => hmem h.1, and_iff_right hmem']
      obtain ⟨gf, gfirst, gcount⟩ := g
      subst hg
      simp
    · have hplace (p : FormatMod) (hp : p ∈ rest) (hpf : p.fourcc = g.fourcc) :
          place run g.fourcc = run.length :=
        place_eq_length fun q hq => by
          rw [hrun q hq, ← hpf]
          exact hrest p hp
      have hnone : modifiersOf run g.fourcc = [] :=
        modifiersOf_eq_nil fun q hq h => hg (h.symm.trans (hrun q hq))
      have hmem : (∃ p ∈ run ++ rest, p.fourcc = g.fourcc) ↔ ∃ p ∈ rest, p.fourcc = g.fourcc := by
        constructor
        · rintro ⟨p, hp, hpf⟩
          rcases List.mem_append.mp hp with hp | hp
          · exact absurd (hpf.symm.trans (hrun p hp)) hg
          · exact ⟨p, hp, hpf⟩
        · rintro ⟨p, hp, hpf⟩
          exact ⟨p, List.mem_append_right _ hp, hpf⟩
      have hne' : g ≠ ⟨f, UInt32.ofNat base, UInt32.ofNat run.length⟩ := fun h => hg (h ▸ rfl)
      rw [hmem, hnone, List.length_nil, Nat.zero_add, or_iff_right hne']
      refine and_congr_right ?_
      rintro ⟨p, hp, hpf⟩
      rw [hplace p hp hpf, Nat.add_assoc]

theorem groupLoop_spec (fuel : ℕ) {ps : List FormatMod} (hps : ByFourcc ps)
    (hfuel : ps.length ≤ fuel) (t : FormatTable) :
    ∃ gs, groupLoop fuel ps t =
        ⟨t.pairs, t.mods ++ ps.map (·.modifier), t.groups ++ gs⟩ ∧
      GroupsOf t.mods.length ps gs := by
  induction fuel generalizing ps t with
  | zero =>
    obtain rfl := List.length_eq_zero_iff.mp (Nat.le_zero.mp hfuel)
    exact ⟨[], by simp [groupLoop], .nil, by simp⟩
  | succ fuel ih =>
    cases ps with
    | nil => exact ⟨[], by simp [groupLoop], .nil, by simp⟩
    | cons p ps =>
      obtain ⟨run, rest, htake, hdrop, happ, hrun, hrest, hne, hsorted⟩ := hps.split
      have hlen := congrArg List.length happ
      have hpos := List.length_pos_iff.mpr hne
      rw [List.length_append] at hlen
      obtain ⟨gs, hloop, hgs⟩ := ih hsorted (by omega)
        { t with
          mods := t.mods ++ run.map (·.modifier)
          groups := t.groups ++ [⟨p.fourcc, UInt32.ofNat t.mods.length, UInt32.ofNat run.length⟩] }
      refine ⟨⟨p.fourcc, UInt32.ofNat t.mods.length, UInt32.ofNat run.length⟩ :: gs, ?_, ?_⟩
      · rw [groupLoop, htake, hdrop, hloop, ← happ]
        simp
      · rw [← happ]
        exact GroupsOf.cons hrun hne hrest (by simpa using hgs)

/-! ### Lookups -/

/-- The modifiers at the place of a fourcc, which is kept in 32 bits. -/
def modifiersAt (l : List FormatMod) (f : UInt32) : List UInt64 :=
  ((l.map (·.modifier)).drop (place l f % 2 ^ 32)).take ((modifiersOf l f).length % 2 ^ 32)

theorem modifiersFor_groupLoop {l : List FormatMod} (hl : ByFourcc l) (f : UInt32) :
    (groupLoop l.length l { pairs := l }).modifiersFor f = modifiersAt l f := by
  obtain ⟨gs, hloop, hgs⟩ := groupLoop_spec l.length hl (Nat.le_refl _) { pairs := l }
  have hkey : (fun g : Group => decide (g.fourcc < f)) =
      fun g => decide (g.fourcc.toNat < f.toNat) := by
    funext g
    exact decide_eq_decide.mpr UInt32.lt_iff_toNat_lt
  rw [hloop, FormatTable.modifiersFor]
  simp only [List.nil_append]
  by_cases hf : ∃ p ∈ l, p.fourcc = f
  · have hmem : (⟨f, UInt32.ofNat (place l f), UInt32.ofNat (modifiersOf l f).length⟩ : Group) ∈
        gs :=
      (hgs.mem _).mpr ⟨hf, by simp, rfl⟩
    have hfind := (Lib.getElem?_lowerBound_eq_some hgs.sorted).mpr hmem
    rw [hkey, hfind]
    simp [modifiersAt, UInt32.toNat_ofNat']
  · have hnil : modifiersOf l f = [] := modifiersOf_eq_nil fun p hp h => hf ⟨p, hp, h⟩
    rw [modifiersAt, hnil, List.length_nil, Nat.zero_mod, List.take_zero]
    split
    · rfl
    · rename_i g hg
      have hne : g.fourcc ≠ f := fun h =>
        hf (h ▸ ((hgs.mem g).mp (List.mem_of_getElem? hg)).1)
      rw [if_pos hne]

theorem mem_modifiersOf {l : List FormatMod} {f : UInt32} {m : UInt64} :
    m ∈ modifiersOf l f ↔ ⟨f, m⟩ ∈ l := by
  simp only [modifiersOf, List.mem_map, List.mem_filter, decide_eq_true_eq]
  constructor
  · rintro ⟨p, ⟨hp, rfl⟩, rfl⟩
    exact hp
  · exact fun h => ⟨_, ⟨h, rfl⟩, rfl⟩

theorem Sorted.modifiersOf {l : List FormatMod} (hl : Sorted l) (f : UInt32) :
    (modifiersOf l f).Pairwise (· < ·) := by
  refine List.pairwise_map.mpr
    ((hl.sublist List.filter_sublist).imp_of_mem fun {a b} ha hb h => ?_)
  have haf : a.fourcc = f := by simpa using (List.mem_filter.mp ha).2
  have hbf : b.fourcc = f := by simpa using (List.mem_filter.mp hb).2
  exact FormatMod.modifier_lt_of_lt h (haf.trans hbf.symm)

/-- In a list by fourcc, the modifiers of one stand together at its place. -/
theorem take_drop_place {l : List FormatMod} (hl : ByFourcc l) (f : UInt32) :
    ((l.map (·.modifier)).drop (place l f)).take (modifiersOf l f).length = modifiersOf l f := by
  induction l with
  | nil => rfl
  | cons p l ih =>
    obtain ⟨hp, hl⟩ := List.pairwise_cons.mp hl
    have ih := ih hl
    rcases Nat.lt_trichotomy p.fourcc.toNat f.toNat with h | h | h
    · have hne : p.fourcc ≠ f := fun he => by simp [he] at h
      have hplace : place (p :: l) f = place l f + 1 :=
        List.countP_cons_of_pos (by simpa [UInt32.lt_iff_toNat_lt] using h)
      have hof : modifiersOf (p :: l) f = modifiersOf l f := by simp [modifiersOf, hne]
      rw [hplace, hof, List.map_cons, List.drop_succ_cons, ih]
    · have he : p.fourcc = f := UInt32.toNat_inj.mp h
      have hzero : place l f = 0 := place_eq_zero fun q hq => h ▸ hp q hq
      have hplace : place (p :: l) f = 0 :=
        place_eq_zero fun q hq => by
          rcases List.mem_cons.mp hq with rfl | hq
          · exact h.ge
          · exact h ▸ hp q hq
      have hof : modifiersOf (p :: l) f = p.modifier :: modifiersOf l f := by
        simp [modifiersOf, he]
      rw [hzero, List.drop_zero] at ih
      rw [hplace, hof, List.drop_zero, List.map_cons, List.length_cons, List.take_succ_cons, ih]
    · have hof : modifiersOf (p :: l) f = [] :=
        modifiersOf_eq_nil fun q hq he => by
          rcases List.mem_cons.mp hq with rfl | hq
          · simp [he] at h
          · have := hp q hq
            rw [he] at this
            omega
      rw [hof]
      rfl

/-- No fourcc has more modifiers than the blob has entries. -/
theorem length_modifiersOf_lt {data : Option (List UInt8)} {l : List FormatMod} (hl : Sorted l)
    (hmem : ∀ p ∈ l, Reached data p) (f : UInt32) : (modifiersOf l f).length < 2 ^ 32 := by
  cases hof : modifiersOf l f with
  | nil => decide
  | cons m₀ ms =>
    obtain ⟨buf, h, hdata, hin, -⟩ :=
      hmem ⟨f, m₀⟩ (mem_modifiersOf.mp (hof ▸ List.mem_cons_self))
    rw [← hof]
    have hsub : modifiersOf l f ⊆
        ((List.range h.countModifiers.toNat).filterMap (readModifier buf h)).map (·.modifier) := by
      intro m hm
      obtain ⟨buf', h', hdata', hin', i, hi, e, he, b, -, -, hmod, -⟩ :=
        hmem _ (mem_modifiersOf.mp hm)
      obtain rfl := Option.some.inj (hdata.symm.trans hdata')
      obtain rfl := Option.some.inj (hin.read.symm.trans hin'.read)
      exact List.mem_map.mpr ⟨e, List.mem_filterMap.mpr ⟨i, List.mem_range.mpr hi, he⟩, hmod⟩
    have hnodup : (modifiersOf l f).Nodup := (hl.modifiersOf f).imp fun {a b} h he => by
      simp [he] at h
    have hlen := (List.subperm_of_subset hnodup hsub).length_le
    have hle := List.length_filterMap_le (readModifier buf h) (List.range h.countModifiers.toNat)
    rw [List.length_map] at hlen
    rw [List.length_range] at hle
    exact (hlen.trans hle).trans_lt h.countModifiers.toNat_lt

/-! ### Exact tables -/

/-- The header and both arrays lie inside the data. -/
def WellFormed (data : Option (List UInt8)) : Prop := ∃ buf h, data = some buf ∧ Inside buf h

/-- The lookups give the pairs that the blob lists, in order and once each. -/
structure Exact (data : Option (List UInt8)) (t : FormatTable) : Prop where
  sorted_all : Sorted t.all
  mem_all : ∀ p, p ∈ t.all ↔ Listed data p
  supports : ∀ f m, t.supports f m = true ↔ Listed data ⟨f, m⟩
  sorted_modifiersFor : ∀ f, (t.modifiersFor f).Pairwise (· < ·)
  mem_modifiersFor : ∀ f m, m ∈ t.modifiersFor f ↔ Listed data ⟨f, m⟩

/-- Every pair that a wrapped index leads to is listed as well. -/
def NoStray (data : Option (List UInt8)) : Prop := ∀ p, Reached data p → Listed data p

/-- Where the pairs of a fourcc start beyond 32 bits, the same modifiers stand at the wrapped
place. -/
def Addressable (l : List FormatMod) : Prop :=
  ∀ f, 2 ^ 32 ≤ place l f →
    ((l.map (·.modifier)).drop (place l f % 2 ^ 32)).take (modifiersOf l f).length = modifiersOf l f

theorem addressable_iff {l : List FormatMod} (hl : ByFourcc l)
    (hcount : ∀ f, (modifiersOf l f).length < 2 ^ 32) :
    Addressable l ↔ ∀ f, modifiersAt l f = modifiersOf l f := by
  refine forall_congr' fun f => ?_
  rw [modifiersAt, Nat.mod_eq_of_lt (hcount f)]
  refine ⟨fun h => ?_, fun h _ => h⟩
  rcases Nat.lt_or_ge (place l f) (2 ^ 32) with hlt | hge
  · rw [Nat.mod_eq_of_lt hlt, take_drop_place hl]
  · exact h hge

theorem modifiers_eq_of_mem_iff {l l' : List UInt64} (hl : l.Pairwise (· < ·))
    (hl' : l'.Pairwise (· < ·)) (h : ∀ m, m ∈ l ↔ m ∈ l') : l = l' := by
  have hmap : l.map UInt64.toNat = l'.map UInt64.toNat := by
    refine List.Pairwise.eq_of_mem_iff (r := (· < ·)) ?_ ?_ fun n => by simp [h]
    · exact List.pairwise_map.mpr (hl.imp UInt64.lt_iff_toNat_lt.mp)
    · exact List.pairwise_map.mpr (hl'.imp UInt64.lt_iff_toNat_lt.mp)
  exact List.map_injective_iff.mpr (fun _ _ => UInt64.toNat_inj.mp) hmap

theorem supports_iff {t : FormatTable} (ht : Sorted t.pairs) (f : UInt32) (m : UInt64) :
    t.supports f m = true ↔ ⟨f, m⟩ ∈ t.pairs :=
  Lib.binarySearch_iff_mem FormatMod.rank_injective
    (fun a b => Bool.eq_iff_iff.mpr (by rw [FormatMod.lt_iff_rank, decide_eq_true_eq]))
    (ht.imp FormatMod.lt_iff_rank.mp)

/-- The table is exact if its pairs are those listed, and its groups can be found. -/
theorem exact_iff_of_pairs {data : Option (List UInt8)} {t : FormatTable} (ht : Sorted t.pairs)
    (hfor : ∀ f, t.modifiersFor f = modifiersAt t.pairs f) :
    Exact data t ↔ (∀ p, p ∈ t.pairs ↔ Listed data p) ∧
      ∀ f, modifiersAt t.pairs f = modifiersOf t.pairs f := by
  constructor
  · intro h
    refine ⟨h.mem_all, fun f => ?_⟩
    refine modifiers_eq_of_mem_iff (hfor f ▸ h.sorted_modifiersFor f) (ht.modifiersOf f) fun m => ?_
    rw [← hfor, h.mem_modifiersFor, mem_modifiersOf]
    exact (h.mem_all _).symm
  · rintro ⟨hmem, hof⟩
    refine ⟨ht, hmem, fun f m => ?_, fun f => ?_, fun f m => ?_⟩
    · rw [supports_iff ht, hmem]
    · rw [hfor, hof]
      exact ht.modifiersOf f
    · rw [hfor, hof, mem_modifiersOf, hmem]

/-- Every buffer gives a table, from reads inside it, and one that is not well formed the empty
table. The table is exact precisely if wrapped indices add no pair and wrapped places lose none. -/
theorem fromBlob_exact_iff (data : Option (List UInt8)) :
    ∃ t, FormatTable.fromBlob data = some t ∧ (¬ WellFormed data → t = {}) ∧
      (Exact data t ↔ NoStray data ∧
        ∀ l, Sorted l → (∀ p, p ∈ l ↔ Listed data p) → Addressable l) := by
  obtain ⟨pairs, hblob, hpairs⟩ := fromBlob_spec data
  refine ⟨_, hblob, fun hbad => ?_, ?_⟩
  · have hnil : pairs = [] := List.eq_nil_iff_forall_not_mem.mpr fun p hp => by
      obtain ⟨buf, h, hdata, hin, -⟩ := (hpairs p).mp hp
      exact hbad ⟨buf, h, hdata, hin⟩
    rw [hnil]
    rfl
  · set l := Lib.unique (pairs.insertionSort fun a b => !b.lt a) with hl
    have hsorted : Sorted l := sorted_unique_insertionSort pairs
    have hmem (p : FormatMod) : p ∈ l ↔ Reached data p := by
      rw [hl, mem_unique_insertionSort, hpairs]
    have hcount (f : UInt32) : (modifiersOf l f).length < 2 ^ 32 :=
      length_modifiersOf_lt hsorted (fun p hp => (hmem p).mp hp) f
    obtain ⟨gs, hloop, -⟩ :=
      groupLoop_spec l.length hsorted.byFourcc (Nat.le_refl _) { pairs := l }
    have ht : (buildIndex pairs).pairs = l := congrArg FormatTable.pairs hloop
    have hfor (f : UInt32) : (buildIndex pairs).modifiersFor f = modifiersAt l f :=
      modifiersFor_groupLoop hsorted.byFourcc f
    rw [exact_iff_of_pairs (ht ▸ hsorted) (ht ▸ hfor), ht,
      ← addressable_iff hsorted.byFourcc hcount]
    have hstray : (∀ p, p ∈ l ↔ Listed data p) ↔ NoStray data :=
      ⟨fun h p hp => (h p).mp ((hmem p).mpr hp),
        fun h p => (hmem p).trans ⟨h p, Listed.reached⟩⟩
    rw [← hstray]
    refine and_congr_right fun hlisted => ⟨fun h l' hl' hmem' => ?_, fun h => h l hsorted hlisted⟩
    have heq : l' = l := hl'.eq_of_mem_iff hsorted fun p => (hmem' p).trans (hlisted p).symm
    exact heq ▸ h

/-- One format and one modifier, whose only bit is 1 and whose offset is the last of 32 bits. -/
def wrappedBlob : List UInt8 :=
  [1, 0, 0, 0, 0, 0, 0, 0, 1, 0, 0, 0, 24, 0, 0, 0, 1, 0, 0, 0, 28, 0, 0, 0,
    5, 0, 0, 0,
    2, 0, 0, 0, 0, 0, 0, 0, 255, 255, 255, 255, 0, 0, 0, 0, 7, 0, 0, 0, 0, 0, 0, 0]

theorem not_exact_wrappedBlob :
    WellFormed (some wrappedBlob) ∧ ¬ Listed (some wrappedBlob) ⟨5, 7⟩ ∧
      (FormatTable.fromBlob (some wrappedBlob)).map (fun t => t.supports 5 7) = some true := by
  have hread : readHeader wrappedBlob = some ⟨1, 0, 1, 24, 1, 28⟩ := by decide
  refine ⟨⟨wrappedBlob, _, rfl, by decide, hread, by decide, by decide⟩, ?_, by decide⟩
  rintro ⟨_, h, ⟨⟩, hin, i, hi, m, hm, b, hb, -, -, hidx, -⟩
  obtain rfl := Option.some.inj (hread.symm.trans hin.read)
  obtain rfl : i = 0 := Nat.lt_one_iff.mp hi
  have hm' : readModifier wrappedBlob ⟨1, 0, 1, 24, 1, 28⟩ 0 = some ⟨2, 4294967295, 7⟩ := by decide
  obtain rfl := Option.some.inj (hm'.symm.trans hm)
  have : (4294967295 : UInt32).toNat + b < 1 := hidx
  rw [show (4294967295 : UInt32).toNat = 4294967295 from rfl] at this
  omega

end DrmCxx.Fmt
