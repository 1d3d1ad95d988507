import DrmCxx.Lib.Greedy
import DrmCxx.Scene.Lowering
import Mathlib.Data.Prod.Lex

/-!
# Ties of zpos

`uniquify_zpos` separates layers that ask for the same zpos, each by as little as the layers under
it allow, or leaves them all alone: when none is tied, when some layer asks for a negative zpos, or
when no distinct values fit under the cap.
-/

namespace DrmCxx.Scene

open DrmCxx.Lib

/-! ### What is asked of the values -/

/-- By the requested zpos, then the hint target, then the scene's order. -/
def ZposEntry.key (e : ZposEntry) : ℤ ×ₗ ℕ ×ₗ ℕ := toLex (e.z, toLex (e.rank, e.order))

/-- A numbering that only raises values. -/
structure Separates (entries : List ZposEntry) (cap : Option ℤ) (v : ZposEntry → ℤ) : Prop where
  distinct : ∀ a ∈ entries, ∀ b ∈ entries, v a = v b → a = b
  inRange : ∀ e ∈ entries, 0 ≤ v e ∧ ∀ c ∈ cap, v e ≤ c
  raises : ∀ e ∈ entries, e.z ≤ v e

def KeepsOrder (entries : List ZposEntry) (v : ZposEntry → ℤ) : Prop :=
  ∀ a ∈ entries, ∀ b ∈ entries, a.key < b.key → v a < v b

/-- The least numbering in the stacking order. -/
structure LeastSeparation (entries : List ZposEntry) (cap : Option ℤ) (v : ZposEntry → ℤ) : Prop
    extends Separates entries cap v where
  ordered : KeepsOrder entries v
  least : ∀ w, Separates entries cap w → KeepsOrder entries w → ∀ e ∈ entries, v e ≤ w e

/-- The zpos that is lowered for an entry. -/
def effectiveZpos (overrides : List (Planes.LayerId × UInt64)) (e : ZposEntry) : ℤ :=
  match overrides.findRev? fun o => o.1 = e.layer with
  | some o => o.2.toNat
  | none => e.z

/-- What a frame acquires: each layer once, and no more of them than a vector holds. -/
structure Acquisitions where
  list : List LoweringInput
  nodup : (list.map (·.layer)).Nodup
  length_lt : list.length < 2 ^ 62

/-! ### The sorted entries -/

namespace ZposEntry

variable {a b : ZposEntry}

theorem le_iff : a.le b = true ↔ a.key ≤ b.key := by
  simp only [le, key, Prod.Lex.toLex_le_toLex, Bool.or_eq_true, Bool.and_eq_true,
    decide_eq_true_eq]

theorem z_le_of_key_le (h : a.key ≤ b.key) : a.z ≤ b.z := by
  rcases Prod.Lex.toLex_le_toLex.mp h with h | h
  · exact h.le
  · exact h.1.le

end ZposEntry

/-- The entries in the order their values are given. -/
def sortedEntries (hint : Option UInt64) (target : Option Planes.LayerId)
    (acqs : List LoweringInput) : List ZposEntry :=
  (zposEntries hint target acqs).mergeSort ZposEntry.le

variable {hint : Option UInt64} {target : Option Planes.LayerId} {acqs : List LoweringInput}
  {cap : Option ℤ} {es : List ZposEntry}

theorem mem_sortedEntries {e : ZposEntry} :
    e ∈ sortedEntries hint target acqs ↔ e ∈ zposEntries hint target acqs :=
  (List.mergeSort_perm _ _).mem_iff

/-- An entry comes from the acquisition at its place. -/
theorem zposEntry_eq_some {p : LoweringInput × ℕ} {e : ZposEntry}
    (h : (match hint with
      | some hint =>
        if target = some p.1.layer then some ⟨p.1.layer, hint.toInt64.toInt, 0, p.2⟩
        else p.1.zpos.map fun z => ⟨p.1.layer, z, 1, p.2⟩
      | none => p.1.zpos.map fun z => ⟨p.1.layer, z, 1, p.2⟩) = some e) :
    e.layer = p.1.layer ∧ e.order = p.2 ∧ e.z < 2 ^ 63 := by
  have hzpos (h : (p.1.zpos.map fun z => (⟨p.1.layer, z, 1, p.2⟩ : ZposEntry)) = some e) :
      e.layer = p.1.layer ∧ e.order = p.2 ∧ e.z < 2 ^ 63 := by
    obtain ⟨z, hz, rfl⟩ := Option.map_eq_some_iff.mp h
    obtain ⟨w, -, rfl⟩ := Option.map_eq_some_iff.mp hz
    exact ⟨rfl, rfl, w.toInt_lt.trans (by decide)⟩
  split at h
  · split at h
    · cases h
      exact ⟨rfl, rfl, Int64.toInt_lt _⟩
    · exact hzpos h
  · exact hzpos h

theorem pairwise_order (hint : Option UInt64) (target : Option Planes.LayerId)
    (acqs : List LoweringInput) :
    (zposEntries hint target acqs).Pairwise fun a b => a.order < b.order := by
  have hsnd : (acqs.zipIdx.map Prod.snd).Pairwise (· < ·) := by
    rw [List.zipIdx_map_snd]
    exact List.pairwise_lt_range'
  rw [zposEntries, List.pairwise_filterMap]
  refine (List.pairwise_map.mp hsnd).imp fun {x y} hlt r hr s hs => ?_
  rw [(zposEntry_eq_some hr).2.1, (zposEntry_eq_some hs).2.1]
  exact hlt

theorem nodup_layer (hnodup : (acqs.map (·.layer)).Nodup) :
    ((zposEntries hint target acqs).map (·.layer)).Nodup := by
  have hfst : (acqs.zipIdx.map fun p => p.1.layer).Nodup := by
    have hmap : acqs.zipIdx.map (fun p => p.1.layer) =
        (acqs.zipIdx.map Prod.fst).map (·.layer) := by
      rw [List.map_map]
      rfl
    rw [hmap, List.zipIdx_map_fst]
    exact hnodup
  rw [List.Nodup, List.pairwise_map, zposEntries, List.pairwise_filterMap]
  refine (List.pairwise_map.mp hfst).imp fun {x y} hne r hr s hs => ?_
  rw [(zposEntry_eq_some hr).1, (zposEntry_eq_some hs).1]
  exact hne

theorem pairwise_key (hint : Option UInt64) (target : Option Planes.LayerId)
    (acqs : List LoweringInput) :
    (sortedEntries hint target acqs).Pairwise fun a b => a.key < b.key := by
  have hsorted : (sortedEntries hint target acqs).Pairwise fun a b => a.key ≤ b.key := by
    refine (List.pairwise_mergeSort (fun a b c hab hbc => ?_) (fun a b => ?_) _).imp
      fun h => ZposEntry.le_iff.mp h
    · exact ZposEntry.le_iff.mpr ((ZposEntry.le_iff.mp hab).trans (ZposEntry.le_iff.mp hbc))
    · rw [Bool.or_eq_true, ZposEntry.le_iff, ZposEntry.le_iff]
      exact le_total _ _
  have horder : (sortedEntries hint target acqs).Pairwise fun a b => a.order ≠ b.order :=
    ((List.mergeSort_perm _ _).pairwise_iff fun h => Ne.symm h).mpr
      ((pairwise_order hint target acqs).imp Nat.ne_of_lt)
  refine (hsorted.and horder).imp fun {a b} h => lt_of_le_of_ne h.1 fun heq => h.2 ?_
  exact congrArg (fun k => (ofLex (ofLex k).2).2) heq

/-- No two neighbours of the sorted entries are tied exactly when no two entries are. -/
theorem any_tie_eq_false_iff (hsorted : es.Pairwise fun a b => a.z ≤ b.z) :
    ((es.zip es.tail).any fun (a, b) => a.z = b.z) = false ↔ es.Pairwise fun a b => a.z < b.z := by
  induction es with
  | nil => simp
  | cons a es ih =>
    obtain ⟨hfirst, hrest⟩ := List.pairwise_cons.mp hsorted
    cases es with
    | nil => simp
    | cons b es =>
      have hzip : (a :: b :: es).zip (a :: b :: es).tail = (a, b) :: (b :: es).zip (b :: es).tail :=
        rfl
      have hcons : ((a :: b :: es).Pairwise fun a b => a.z < b.z) ↔
          (∀ c ∈ b :: es, a.z < c.z) ∧ (b :: es).Pairwise fun a b => a.z < b.z := List.pairwise_cons
      rw [hzip, List.any_cons, Bool.or_eq_false_iff, ih hrest, decide_eq_false_iff_not, hcons]
      refine and_congr_left fun hpair => ?_
      rw [List.forall_mem_cons]
      have hab := hfirst b List.mem_cons_self
      constructor
      · exact fun hne => ⟨lt_of_le_of_ne hab hne, fun c hc =>
          (lt_of_le_of_ne hab hne).trans ((List.pairwise_cons.mp hpair).1 c hc)⟩
      · exact fun h => h.1.ne

/-! ### The bumped values -/

/-- The value an entry takes above the last one, if there is room. -/
def nextFree (cap : Option ℤ) (prev : Option ℤ) (e : ZposEntry) : Option ℤ :=
  let v := match prev with
    | none => e.z
    | some p => max e.z (p + 1)
  if v < 0 ∨ cap.any (· < v) then none else some v

/-- What the values of a stack may be. -/
def InCap (cap : Option ℤ) (v : ℤ) : Prop := 0 ≤ v ∧ ∀ c ∈ cap, v ≤ c

def Admits (cap : Option ℤ) (e : ZposEntry) (v : ℤ) : Prop := e.z ≤ v ∧ InCap cap v

theorem bumpTies_cons (prev : Option ℤ) (e : ZposEntry) (es : List ZposEntry) :
    bumpTies cap prev (e :: es) = (nextFree cap prev e).bind fun v =>
      (bumpTies cap (some v) es).map fun rest =>
        if v ≠ e.z then (e.layer, .ofInt v) :: rest else rest := by
  rw [bumpTies.eq_def, nextFree.eq_def]
  cases prev <;>
  · dsimp only
    split <;> rfl

theorem bumpTies_eq (prev : Option ℤ) (es : List ZposEntry) :
    bumpTies cap prev es = (Greedy.number (nextFree cap) prev es).map fun vs =>
      (es.zip vs).filterMap fun p =>
        if p.2 ≠ p.1.z then some (p.1.layer, .ofInt p.2) else none := by
  induction es generalizing prev with
  | nil => rfl
  | cons e es ih =>
    rw [bumpTies_cons, Greedy.number]
    cases nextFree cap prev e with
    | none => rfl
    | some v =>
      rw [Option.bind_some, Option.bind_some, ih, Option.map_map, Option.map_map]
      refine congrArg (fun f => Option.map f _) (funext fun vs => ?_)
      simp only [Function.comp, List.zip_cons_cons, List.filterMap_cons]
      split <;> rfl

theorem nextFree_eq_some {prev : Option ℤ} {e : ZposEntry} {v : ℤ} :
    nextFree cap prev e = some v ↔
      (v = match prev with | none => e.z | some p => max e.z (p + 1)) ∧ InCap cap v := by
  rw [nextFree.eq_def, InCap]
  dsimp only
  generalize (match prev with | none => e.z | some p => max e.z (p + 1)) = u
  constructor
  · intro h
    split at h
    · cases h
    · rename_i hroom
      obtain rfl := Option.some.inj h
      obtain ⟨hnonneg, hcap⟩ := not_or.mp hroom
      refine ⟨rfl, not_lt.mp hnonneg, fun c hc => not_lt.mp fun hlt => hcap ?_⟩
      exact (Option.any_eq_true _ _).mpr ⟨c, hc, decide_eq_true hlt⟩
  · rintro ⟨rfl, hnonneg, hcap⟩
    refine if_neg (not_or.mpr ⟨not_lt.mpr hnonneg, fun hany => ?_⟩)
    obtain ⟨c, hc, hlt⟩ := (Option.any_eq_true _ _).mp hany
    exact absurd (of_decide_eq_true hlt) (not_lt.mpr (hcap c hc))

theorem findsLeast_nextFree {e : ZposEntry} (hz : 0 ≤ e.z) :
    Greedy.FindsLeast (Admits cap) (fun _ => True) (nextFree cap) e where
  roomy _ := trivial
  sound {prev v} _ h := by
    obtain ⟨hv, hin⟩ := nextFree_eq_some.mp h
    cases prev with
    | none => exact ⟨⟨hv.ge, hin⟩, nofun⟩
    | some p =>
      have hmax : v = max e.z (p + 1) := hv
      refine ⟨⟨by omega, hin⟩, fun q hq => ?_⟩
      cases hq
      omega
  least {prev u} _ hu hlt := by
    obtain ⟨hraises, -, hcap⟩ := hu
    cases prev with
    | none => exact ⟨e.z, nextFree_eq_some.mpr ⟨rfl, hz, fun c hc => hraises.trans (hcap c hc)⟩,
        hraises⟩
    | some p =>
      have hp := hlt p rfl
      have hmax : max e.z (p + 1) ≤ u := max_le hraises hp
      exact ⟨max e.z (p + 1), nextFree_eq_some.mpr ⟨rfl, hz.trans (le_max_left _ _),
        fun c hc => hmax.trans (hcap c hc)⟩, hmax⟩

/-- The bumped values stay at or below every other numbering. -/
theorem number_le_of_rises {us : List ℤ} (hz : ∀ e ∈ es, 0 ≤ e.z)
    (h : Greedy.Rises (Admits cap) none es us) :
    ∃ vs, Greedy.number (nextFree cap) none es = some vs ∧ List.Forall₂ (· ≤ ·) vs us :=
  Greedy.number_le (fun _ => True) (fun hab hbc => hab.trans_lt hbc)
    (fun e he => findsLeast_nextFree (hz e he)) (by simp) (by simp) h

/-- A value is at most the largest request, plus one for each entry before. -/
theorem number_le_add_length {prev : Option ℤ} {es : List ZposEntry} {vs : List ℤ} {b : ℤ}
    (hprev : ∀ p ∈ prev, p < b) (hes : ∀ e ∈ es, e.z ≤ b)
    (h : Greedy.number (nextFree cap) prev es = some vs) : ∀ v ∈ vs, v ≤ b + es.length := by
  induction es generalizing prev vs b with
  | nil =>
    cases h
    nofun
  | cons e es ih =>
    obtain ⟨v, hv, h⟩ := Option.bind_eq_some_iff.mp h
    obtain ⟨vs, hvs, rfl⟩ := Option.map_eq_some_iff.mp h
    obtain ⟨hez, hes⟩ := List.forall_mem_cons.mp hes
    have hvb : v ≤ b := by
      obtain ⟨hv, -⟩ := nextFree_eq_some.mp hv
      cases prev with
      | none => exact hv.le.trans hez
      | some p => exact hv.le.trans (max_le hez (hprev p rfl))
    have hrest := ih (b := b + 1) (fun p hp => by cases hp; omega)
      (fun a ha => (hes a ha).trans (by omega)) hvs
    rw [List.length_cons]
    push_cast
    refine List.forall_mem_cons.mpr ⟨by omega, fun u hu => ?_⟩
    have := hrest u hu
    omega

/-! ### The overrides -/

theorem toNat_ofInt {v : ℤ} (hv : 0 ≤ v) (hlt : v < 2 ^ 64) : ((UInt64.ofInt v).toNat : ℤ) = v := by
  rw [UInt64.ofInt, UInt64.toNat_ofNat', Int.emod_eq_of_lt hv hlt]
  omega

/-- The last override of a layer is its only one. -/
theorem effectiveZpos_eq {overrides : List (Planes.LayerId × UInt64)} {e : ZposEntry} {v : ℤ}
    (hmem : ∀ o ∈ overrides, o.1 = e.layer → o.2.toNat = v)
    (hnone : (∀ o ∈ overrides, o.1 ≠ e.layer) → e.z = v) : effectiveZpos overrides e = v := by
  rw [effectiveZpos, List.findRev?_eq_findRev?TR, List.findRev?TR]
  split
  · rename_i o hfind
    have hlayer := List.find?_some hfind
    exact hmem o (List.mem_reverse.mp (List.mem_of_find?_eq_some hfind)) (of_decide_eq_true hlayer)
  · rename_i hfind
    refine hnone fun o ho => ?_
    have := List.find?_eq_none.mp hfind o (List.mem_reverse.mpr ho)
    exact fun heq => this (decide_eq_true heq)

/-- Every entry gets the value it was given. -/
theorem map_effectiveZpos {es : List ZposEntry} {vs : List ℤ} (hnodup : (es.map (·.layer)).Nodup)
    (hlen : vs.length = es.length) (hvs : ∀ v ∈ vs, 0 ≤ v ∧ v < 2 ^ 64) :
    es.map (effectiveZpos ((es.zip vs).filterMap fun p =>
      if p.2 ≠ p.1.z then some (p.1.layer, .ofInt p.2) else none)) = vs := by
  set overrides := (es.zip vs).filterMap fun p =>
    if p.2 ≠ p.1.z then some (p.1.layer, UInt64.ofInt p.2) else none with hoverrides
  have hfst : (es.zip vs).map Prod.fst = es := List.map_fst_zip hlen.ge
  have hsnd : (es.zip vs).map Prod.snd = vs := List.map_snd_zip hlen.le
  have hinj : ((es.zip vs).map fun p => p.1.layer).Nodup := by
    have hmap :
        (es.zip vs).map (fun p => p.1.layer) = ((es.zip vs).map Prod.fst).map (·.layer) := by
      rw [List.map_map]
      rfl
    rw [hmap, hfst]
    exact hnodup
  have hgiven (p : ZposEntry × ℤ) (hp : p ∈ es.zip vs) : effectiveZpos overrides p.1 = p.2 := by
    have hrange := hvs p.2 (List.of_mem_zip hp).2
    refine effectiveZpos_eq (fun o ho hlayer => ?_) fun hnone => ?_
    · obtain ⟨q, hq, hsome⟩ := List.mem_filterMap.mp ho
      split at hsome
      · obtain rfl := Option.some.inj hsome
        obtain rfl : q = p := List.inj_on_of_nodup_map hinj hq hp hlayer
        exact toNat_ofInt hrange.1 hrange.2
      · cases hsome
    · by_contra hne
      refine hnone (p.1.layer, .ofInt p.2) (List.mem_filterMap.mpr ⟨p, hp, ?_⟩) rfl
      exact if_pos (Ne.symm hne)
  calc es.map (effectiveZpos overrides)
      = ((es.zip vs).map Prod.fst).map (effectiveZpos overrides) := by rw [hfst]
    _ = (es.zip vs).map Prod.snd := by
        rw [List.map_map]
        exact List.map_congr_left hgiven
    _ = vs := hsnd

/-! ### Separation -/

/-- Only which entries there are matters. -/
theorem LeastSeparation.congr {es es' : List ZposEntry} {v : ZposEntry → ℤ}
    (h : LeastSeparation es cap v) (hmem : ∀ {e}, e ∈ es ↔ e ∈ es') :
    LeastSeparation es' cap v := by
  have hsep {es es' : List ZposEntry} {w : ZposEntry → ℤ} (hmem : ∀ {e}, e ∈ es ↔ e ∈ es')
      (hw : Separates es cap w) : Separates es' cap w :=
    ⟨fun a ha b hb => hw.distinct a (hmem.mpr ha) b (hmem.mpr hb),
      fun e he => hw.inRange e (hmem.mpr he), fun e he => hw.raises e (hmem.mpr he)⟩
  exact ⟨hsep hmem h.toSeparates, fun a ha b hb => h.ordered a (hmem.mpr ha) b (hmem.mpr hb),
    fun w hw hordered e he => h.least w (hsep hmem.symm hw)
      (fun a ha b hb => hordered a (hmem.mp ha) b (hmem.mp hb)) e (hmem.mpr he)⟩

/-- Values that rise along the sorted entries are a numbering that keeps the order. -/
theorem rises_iff {v : ZposEntry → ℤ} (hkey : es.Pairwise fun a b => a.key < b.key) :
    Greedy.Rises (Admits cap) none es (es.map v) ↔ Separates es cap v ∧ KeepsOrder es v := by
  rw [Greedy.rises_map_iff lt_trans]
  have hrel {R : ZposEntry → ZposEntry → Prop} (hpair : es.Pairwise R) {a b : ZposEntry}
      (ha : a ∈ es) (hb : b ∈ es) (hab : a.key < b.key) : R a b := by
    obtain ⟨i, hi, rfl⟩ := List.getElem_of_mem ha
    obtain ⟨j, hj, rfl⟩ := List.getElem_of_mem hb
    rcases Nat.lt_trichotomy i j with hij | rfl | hij
    · exact List.pairwise_iff_getElem.mp hpair i j hi hj hij
    · exact absurd hab (lt_irrefl _)
    · exact absurd (hab.trans (List.pairwise_iff_getElem.mp hkey j i hj hi hij)) (lt_irrefl _)
  have hkey_inj {a b : ZposEntry} (ha : a ∈ es) (hb : b ∈ es) (hab : a.key = b.key) : a = b :=
    List.inj_on_of_nodup_map (List.pairwise_map.mpr (hkey.imp ne_of_lt)) ha hb hab
  constructor
  · rintro ⟨hadmits, hpair⟩
    have hordered : KeepsOrder es v := fun a ha b hb hab => hrel hpair ha hb hab
    refine ⟨⟨fun a ha b hb hab => hkey_inj ha hb ?_, fun e he => (hadmits e he).1.2,
      fun e he => (hadmits e he).1.1⟩, hordered⟩
    rcases lt_trichotomy a.key b.key with hlt | heq | hlt
    · exact absurd hab (hordered a ha b hb hlt).ne
    · exact heq
    · exact absurd hab (hordered b hb a ha hlt).ne'
  · rintro ⟨hsep, hordered⟩
    exact ⟨fun e he => ⟨⟨hsep.raises e he, hsep.inRange e he⟩, nofun⟩,
      hkey.imp_of_mem fun ha hb hab => hordered _ ha _ hb hab⟩

/-- Where any distinct values fit, the bumped ones do. -/
theorem exists_number_of_separates {v : ZposEntry → ℤ}
    (hkey : es.Pairwise fun a b => a.key < b.key) (hnonneg : ∀ e ∈ es, 0 ≤ e.z)
    (hsep : Separates es cap v) : ∃ vs, Greedy.number (nextFree cap) none es = some vs := by
  have hz : es.Pairwise fun a b => a.z ≤ b.z :=
    hkey.imp fun h => ZposEntry.z_le_of_key_le h.le
  have hnodup : (es.map v).Nodup :=
    List.Nodup.map_on hsep.distinct ((hkey.imp fun h heq => (heq ▸ h).false))
  obtain ⟨us, hus⟩ := Greedy.exists_rises hz hnodup
    (List.forall₂_map_right_iff.mpr (List.forall₂_same.mpr hsep.raises))
    (show ∀ u ∈ es.map v, InCap cap u from List.forall_mem_map.mpr hsep.inRange)
  obtain ⟨vs, hvs, -⟩ := number_le_of_rises hnonneg hus
  exact ⟨vs, hvs⟩

/-- The first of the sorted entries takes its own value. -/
theorem nonneg_of_number {vs : List ℤ} (hkey : es.Pairwise fun a b => a.key < b.key)
    (h : Greedy.number (nextFree cap) none es = some vs) : ∀ e ∈ es, 0 ≤ e.z := by
  cases es with
  | nil => nofun
  | cons e es =>
    obtain ⟨v, hv, -⟩ := Option.bind_eq_some_iff.mp h
    obtain ⟨rfl, hnonneg, -⟩ := nextFree_eq_some.mp hv
    refine List.forall_mem_cons.mpr ⟨hnonneg, fun a ha => hnonneg.trans ?_⟩
    exact ZposEntry.z_le_of_key_le ((List.pairwise_cons.mp hkey).1 a ha).le

theorem uniquifyZpos_eq (hint : Option UInt64) (cap : Option ℤ) (target : Option Planes.LayerId)
    (acqs : List LoweringInput) :
    uniquifyZpos hint cap target acqs =
      if ((sortedEntries hint target acqs).zip (sortedEntries hint target acqs).tail).any
          fun (a, b) => a.z = b.z then
        (bumpTies cap none (sortedEntries hint target acqs)).getD []
      else [] := rfl

/-- The bumped values are the least numbering. -/
theorem leastSeparation_of_number {acqs : Acquisitions} {vs : List ℤ}
    (h : Greedy.number (nextFree cap) none (sortedEntries hint target acqs.list) = some vs) :
    LeastSeparation (sortedEntries hint target acqs.list) cap
      (effectiveZpos (((sortedEntries hint target acqs.list).zip vs).filterMap fun p =>
        if p.2 ≠ p.1.z then some (p.1.layer, .ofInt p.2) else none)) := by
  have hkey := pairwise_key hint target acqs.list
  have hperm : (sortedEntries hint target acqs.list).Perm (zposEntries hint target acqs.list) :=
    List.mergeSort_perm _ _
  have hnonneg := nonneg_of_number hkey h
  have hrises := Greedy.rises_of_number (fun _ => True)
    (fun e he => findsLeast_nextFree (hnonneg e he)) (by simp) h
  have hbound : ∀ e ∈ sortedEntries hint target acqs.list, e.z ≤ 2 ^ 63 := fun e he => by
    obtain ⟨p, -, hp⟩ := List.mem_filterMap.mp (mem_sortedEntries.mp he)
    exact (zposEntry_eq_some hp).2.2.le
  have hlen : (sortedEntries hint target acqs.list).length ≤ acqs.list.length := by
    rw [hperm.length_eq, zposEntries]
    exact (List.length_filterMap_le _ _).trans (List.length_zipIdx).le
  have hvs : ∀ v ∈ vs, 0 ≤ v ∧ v < 2 ^ 64 := fun v hv => by
    have hle := number_le_add_length (by simp) hbound h v hv
    have hlt := acqs.length_lt
    obtain ⟨e, -, hv⟩ := hrises.exists_admits v hv
    exact ⟨hv.2.1, by omega⟩
  have hnodup : ((sortedEntries hint target acqs.list).map (·.layer)).Nodup :=
    (hperm.map _).nodup_iff.mpr (nodup_layer acqs.nodup)
  have hmap := map_effectiveZpos hnodup hrises.length_eq hvs
  rw [← hmap] at hrises
  obtain ⟨hsep, hordered⟩ := (rises_iff hkey).mp hrises
  refine ⟨hsep, hordered, fun w hw hwordered e he => ?_⟩
  obtain ⟨vs', hvs', hle⟩ := number_le_of_rises hnonneg ((rises_iff hkey).mpr ⟨hw, hwordered⟩)
  obtain rfl : vs = vs' := Option.some.inj (h.symm.trans hvs')
  rw [← hmap, List.forall₂_map_left_iff, List.forall₂_map_right_iff, List.forall₂_same] at hle
  exact hle e he

/-- `uniquify_zpos` leaves every request alone, or separates them by as little as can be. -/
theorem uniquifyZpos_separates (acqs : Acquisitions) (hint : Option UInt64) (cap : Option ℤ)
    (target : Option Planes.LayerId) :
    let entries := zposEntries hint target acqs.list
    let overrides := uniquifyZpos hint cap target acqs.list
    overrides = [] ∧ ((∀ a ∈ entries, ∀ b ∈ entries, a.z = b.z → a = b) ∨
        (∃ e ∈ entries, e.z < 0) ∨ ¬ ∃ v, Separates entries cap v) ∨
      LeastSeparation entries cap (effectiveZpos overrides) := by
  intro entries overrides
  have hkey := pairwise_key hint target acqs.list
  have hmem {e : ZposEntry} : e ∈ sortedEntries hint target acqs.list ↔ e ∈ entries :=
    mem_sortedEntries
  have hz := hkey.imp fun h => ZposEntry.z_le_of_key_le h.le
  have heq : overrides = _ := uniquifyZpos_eq hint cap target acqs.list
  split at heq
  · rw [bumpTies_eq] at heq
    cases hnumber : Greedy.number (nextFree cap) none (sortedEntries hint target acqs.list) with
    | none =>
      rw [hnumber] at heq
      refine .inl ⟨heq, .inr ?_⟩
      by_contra hcon
      obtain ⟨hnonneg, hfits⟩ := not_or.mp hcon
      obtain ⟨v, hv⟩ := not_not.mp hfits
      obtain ⟨vs, hvs⟩ := exists_number_of_separates hkey
        (fun e he => not_lt.mp fun hlt => hnonneg ⟨e, hmem.mp he, hlt⟩)
        (⟨fun a ha b hb => hv.distinct a (hmem.mp ha) b (hmem.mp hb),
          fun e he => hv.inRange e (hmem.mp he), fun e he => hv.raises e (hmem.mp he)⟩)
      exact nomatch hnumber.symm.trans hvs
    | some vs =>
      rw [hnumber] at heq
      rw [heq]
      exact .inr ((leastSeparation_of_number hnumber).congr hmem)
  · rename_i hties
    have hpair := (any_tie_eq_false_iff hz).mp (Bool.eq_false_iff.mpr hties)
    refine .inl ⟨heq, .inl fun a ha b hb hab => ?_⟩
    have hnodup : ((sortedEntries hint target acqs.list).map (·.z)).Nodup :=
      List.pairwise_map.mpr (hpair.imp ne_of_lt)
    exact List.inj_on_of_nodup_map hnodup (hmem.mpr ha) (hmem.mpr hb) hab

/-- Two tied layers over one that asks for a negative zpos. -/
def negativeStack : Acquisitions where
  list := [⟨1, { display := { zpos := some (-1) } }, 1⟩, ⟨2, { display := { zpos := some 5 } }, 2⟩,
    ⟨3, { display := { zpos := some 5 } }, 3⟩]
  nodup := by decide
  length_lt := by decide

theorem not_separates_negativeStack :
    ¬ (uniquifyZpos none (some 7) none negativeStack.list = [] ∧
        ((∀ a ∈ zposEntries none none negativeStack.list,
            ∀ b ∈ zposEntries none none negativeStack.list, a.z = b.z → a = b) ∨
          ¬ ∃ v, Separates (zposEntries none none negativeStack.list) (some 7) v) ∨
      LeastSeparation (zposEntries none none negativeStack.list) (some 7)
        (effectiveZpos (uniquifyZpos none (some 7) none negativeStack.list))) := by
  have hentries : zposEntries none none negativeStack.list =
      [⟨1, -1, 1, 0⟩, ⟨2, 5, 1, 1⟩, ⟨3, 5, 1, 2⟩] := rfl
  have hsorted : sortedEntries none none negativeStack.list =
      [⟨1, -1, 1, 0⟩, ⟨2, 5, 1, 1⟩, ⟨3, 5, 1, 2⟩] := by
    rw [sortedEntries, hentries]
    exact List.mergeSort_of_pairwise (by decide)
  have hoverrides : uniquifyZpos none (some 7) none negativeStack.list = [] := by
    rw [uniquifyZpos_eq, hsorted]
    rfl
  rw [hoverrides, hentries]
  rintro (⟨-, hdistinct | hnone⟩ | hleast)
  · have := hdistinct ⟨2, 5, 1, 1⟩ (by simp) ⟨3, 5, 1, 2⟩ (by simp) rfl
    simp at this
  · refine hnone ⟨fun e => e.order + if e.order = 0 then 0 else 4, ⟨?_, ?_, ?_⟩⟩ <;> simp
  · have := hleast.distinct ⟨2, 5, 1, 1⟩ (by simp) ⟨3, 5, 1, 2⟩ (by simp) rfl
    simp at this

end DrmCxx.Scene
