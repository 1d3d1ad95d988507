import DrmCxx.Lib.Recency
import DrmCxx.Lib.Run
import DrmCxx.Verification.Csd.ShadowRender

/-!
# The shadow cache is transparent

Blits through the cache against blits of fresh renders, over any sequence of calls whose fresh
renders are defined. They agree unless a cache with room for one entry is asked for a cross-fade of
two: the first of the two is then evicted before its pixels are read.
-/

namespace DrmCxx.Csd

open Lib (Table touch isSome_foldlM)

/-! ### What a blit reads -/

theorem isSome_srcOverRow {src : ℕ → Option UInt8} {pixels : ℕ}
    (hsrc : ∀ i < 4 * pixels, (src i).isSome) (off : ℕ) (dst : Bytes) :
    (srcOverRow src off pixels dst).isSome := by
  refine isSome_foldlM (fun x hx dst => ?_) dst
  have hx := List.mem_range.mp hx
  obtain ⟨s₀, h₀⟩ := Option.isSome_iff_exists.mp (hsrc (4 * x) (by omega))
  obtain ⟨s₁, h₁⟩ := Option.isSome_iff_exists.mp (hsrc (4 * x + 1) (by omega))
  obtain ⟨s₂, h₂⟩ := Option.isSome_iff_exists.mp (hsrc (4 * x + 2) (by omega))
  obtain ⟨s₃, h₃⟩ := Option.isSome_iff_exists.mp (hsrc (4 * x + 3) (by omega))
  simp only [h₀, h₁, h₂, h₃, Option.bind_eq_bind, Option.bind_some, Option.isSome_some]

/-- The rows hold a pixel for every one of the key's. -/
def Covers (row : ℕ → ℕ → Option UInt8) (key : ShadowKey) : Prop :=
  ∀ y < key.height.toNat, ∀ i < 4 * key.width.toNat, (row y i).isSome

theorem isSome_blitRows {row : ℕ → ℕ → Option UInt8} {key : ShadowKey} (hrow : Covers row key)
    (dest : ShadowDest) (dst : Bytes) : (blitRows row key dest dst).isSome := by
  refine isSome_foldlM (fun y hy dst => isSome_srcOverRow (fun i hi => ?_) _ dst) dst
  have hy := List.mem_range.mp hy
  exact hrow y (by omega) i (by omega)

theorem covers_rowOf {pixels : List UInt8} {key : ShadowKey}
    (hlen : pixels.length = key.width.toNat * key.height.toNat * 4)
    (hfits : key.width.toNat * key.height.toNat < 2 ^ 31) : Covers (rowOf pixels key) key := by
  intro y hy i hi
  have hplace : y * key.width.toNat + key.width.toNat ≤ key.width.toNat * key.height.toNat :=
    calc y * key.width.toNat + key.width.toNat = key.width.toNat * (y + 1) := by ring
      _ ≤ key.width.toNat * key.height.toNat := Nat.mul_le_mul_left _ hy
  rw [rowOf, isSome_getElem?, hlen, Nat.mod_eq_of_lt (by omega)]
  omega

theorem covers_lerpRow {a b : ℕ → ℕ → Option UInt8} {key : ShadowKey} (ha : Covers a key)
    (hb : Covers b key) (wa wb : ℕ) : Covers (lerpRow a b wa wb) key := by
  intro y hy i hi
  obtain ⟨pa, hpa⟩ := Option.isSome_iff_exists.mp (ha y hy i hi)
  obtain ⟨pb, hpb⟩ := Option.isSome_iff_exists.mp (hb y hy i hi)
  simp [lerpRow, hpa, hpb]

/-! ### Order and index -/

namespace ShadowCache

variable {c : ShadowCache}

/-- The list holds every key once, and the index leads to the nodes of the list. -/
structure Indexed (c : ShadowCache) : Prop where
  keys : (c.order.map (·.key)).Nodup
  nodes : (c.order.map (·.node)).Nodup
  index : ∀ k n, c.index.find? k = some n ↔ ∃ e ∈ c.order, e.key = k ∧ e.node = n

theorem Indexed.eq_of_key (hc : c.Indexed) {e e' : CacheEntry} (he : e ∈ c.order)
    (he' : e' ∈ c.order) (h : e.key = e'.key) : e = e' :=
  List.inj_on_of_nodup_map hc.keys he he' h

theorem Indexed.eq_of_node (hc : c.Indexed) {e e' : CacheEntry} (he : e ∈ c.order)
    (he' : e' ∈ c.order) (h : e.node = e'.node) : e = e' :=
  List.inj_on_of_nodup_map hc.nodes he he' h

/-- A pointer to an entry of the list leads to it. -/
theorem Indexed.deref_node (hc : c.Indexed) {e : CacheEntry} (he : e ∈ c.order) :
    c.deref (some e.node) = some e := by
  rw [deref, Option.bind_some]
  cases hfind : c.order.find? fun e' => e'.node = e.node with
  | none => exact absurd (List.find?_eq_none.mp hfind e he) (by simp)
  | some e' =>
    have hnode : e'.node = e.node := by simpa using List.find?_some hfind
    rw [hc.eq_of_node (List.mem_of_find?_eq_some hfind) he hnode]

theorem deref_eq_none {n : NodeId} (h : ∀ e ∈ c.order, e.node ≠ n) :
    c.deref (some n) = none := by
  rw [deref, Option.bind_some, List.find?_eq_none]
  simpa using h

theorem Indexed.find?_eq_none (hc : c.Indexed) {k : ShadowKey} :
    c.index.find? k = none ↔ ∀ e ∈ c.order, e.key ≠ k := by
  rw [Option.eq_none_iff_forall_ne_some]
  constructor
  · intro h e he hk
    exact h e.node ((hc.index k e.node).mpr ⟨e, he, hk, rfl⟩)
  · intro h n hn
    obtain ⟨e, he, hk, -⟩ := (hc.index k n).mp hn
    exact h e he hk

/-- The last entry is dropped from both. -/
theorem Indexed.dropLast (hc : c.Indexed) {e : CacheEntry} (he : c.order.getLast? = some e) :
    Indexed { c with order := c.order.dropLast, index := c.index.erase e.key } := by
  have happ : c.order = c.order.dropLast ++ [e] := by
    rw [List.dropLast_append_getLast? e he]
  have hkeys := hc.keys
  rw [happ, List.map_append, List.nodup_append] at hkeys
  refine ⟨hkeys.1, (List.nodup_append.mp (List.map_append ▸ happ ▸ hc.nodes)).1, fun k n => ?_⟩
  show (c.index.erase e.key).find? k = some n ↔ _
  rw [Table.find?_erase]
  constructor
  · intro h
    obtain ⟨hk, h⟩ := Option.ite_none_left_eq_some.mp h
    obtain ⟨e', he', rfl, rfl⟩ := (hc.index k n).mp h
    rw [happ, List.mem_append, List.mem_singleton] at he'
    rcases he' with he' | rfl
    · exact ⟨e', he', rfl, rfl⟩
    · exact absurd rfl hk
  · rintro ⟨e', he', rfl, rfl⟩
    have hne : e'.key ≠ e.key := hkeys.2.2 _ (List.mem_map_of_mem he') _ (by simp)
    rw [if_neg hne]
    exact (hc.index _ _).mpr ⟨e', happ ▸ List.mem_append_left _ he', rfl, rfl⟩

/-- What the eviction leaves. -/
theorem evictLoop_spec (fuel : ℕ) (hc : c.Indexed) (hfuel : c.order.length ≤ fuel) :
    (evictLoop fuel c).Indexed ∧ (evictLoop fuel c).order = c.order.take c.capacity ∧
      (evictLoop fuel c).capacity = c.capacity ∧ (evictLoop fuel c).next = c.next := by
  induction fuel generalizing c with
  | zero =>
    have hnil := List.length_eq_zero_iff.mp (Nat.le_zero.mp hfuel)
    exact ⟨hc, by rw [evictLoop, hnil, List.take_nil], rfl, rfl⟩
  | succ fuel ih =>
    unfold evictLoop
    split_ifs with hlen
    · cases hlast : c.order.getLast? with
      | none =>
        rw [List.getLast?_eq_none_iff] at hlast
        exact ⟨hc, by rw [hlast, List.take_nil], rfl, rfl⟩
      | some e =>
        obtain ⟨hi, ho, hcap, hnext⟩ := ih (hc.dropLast hlast) (by simp; omega)
        refine ⟨hi, ho.trans ?_, hcap, hnext⟩
        simp only [List.dropLast_eq_take, List.take_take]
        congr 1
        omega
    · exact ⟨hc, (List.take_of_length_le (Nat.le_of_not_lt hlen)).symm, rfl, rfl⟩

/-! ### Fetching -/

variable {tint : Tint} {themes : Set Theme} {uses : List ShadowKey}

/-- The list holds the keys last used, and what a render gives for them. -/
structure Coherent (tint : Tint) (themes : Set Theme) (c : ShadowCache) (uses : List ShadowKey) :
    Prop where
  indexed : c.Indexed
  nodup : uses.Nodup
  order : c.order.map (·.key) = uses.take c.capacity
  nodes_lt : ∀ e ∈ c.order, e.node < c.next
  fresh : ∀ e ∈ c.order, ∃ θ ∈ themes,
    themeId θ = e.key.themeId ∧ renderShadow tint e.key θ = some e.pixels

theorem Coherent.length_le (hc : c.Coherent tint themes uses) : c.order.length ≤ c.capacity := by
  have h := congrArg List.length hc.order
  rw [List.length_map, List.length_take] at h
  omega

/-- The call gives the key the identity of its theme, which is of the themes in use. -/
structure Keyed (themes : Set Theme) (key : ShadowKey) (theme : Theme) : Prop where
  themeId : key.themeId = Csd.themeId theme
  mem : theme ∈ themes

/-- What a fetch leads to: the entry is at the front, and the others follow as far as there is
room. -/
structure FetchedEntry (tint : Tint) (c : ShadowCache) (key : ShadowKey) (theme : Theme)
    (c' : ShadowCache) (e : CacheEntry) : Prop where
  key_eq : e.key = key
  pixels : renderShadow tint key theme = some e.pixels
  order : c'.order = e :: (c.order.filter fun e => e.key ≠ key).take (c.capacity - 1)
  capacity : c'.capacity = c.capacity
  source : e ∈ c.order ∨ e.node = c.next ∧ ∀ e' ∈ c.order, e'.key ≠ key

/-- A key that is found goes to the front. -/
theorem Coherent.splice (hc : c.Coherent tint themes uses) {e : CacheEntry} (he : e ∈ c.order) :
    (c.splice e.node).order =
      e :: (c.order.filter fun e' => e'.key ≠ e.key).take (c.capacity - 1) := by
  have hnodes (e' : CacheEntry) (he' : e' ∈ c.order) : e'.node = e.node ↔ e' = e :=
    ⟨hc.indexed.eq_of_node he' he, fun h => h ▸ rfl⟩
  have hkeys (e' : CacheEntry) (he' : e' ∈ c.order) : e'.key = e.key ↔ e' = e :=
    ⟨hc.indexed.eq_of_key he' he, fun h => h ▸ rfl⟩
  have hfront : (c.order.filter fun e' => e'.node = e.node) = [e] := by
    have hnd : c.order.Nodup := List.Nodup.of_map _ hc.indexed.keys
    rw [List.filter_congr (q := fun e' => decide (e' = e)) fun e' he' => by simp [hnodes e' he']]
    rw [List.filter_eq, List.count_eq_one_of_mem hnd he, List.replicate_one]
  have hrest : (c.order.filter fun e' => e'.node ≠ e.node) =
      c.order.filter fun e' => e'.key ≠ e.key :=
    List.filter_congr fun e' he' => by simp [hnodes e' he', hkeys e' he']
  have hlen : (c.order.filter fun e' => e'.key ≠ e.key).length ≤ c.capacity - 1 := by
    have hlt : (c.order.filter fun e' => e'.key ≠ e.key).length < c.order.length :=
      List.length_filter_lt_length_iff_exists.mpr ⟨e, he, by simp⟩
    have := hc.length_le
    omega
  rw [List.take_of_length_le hlen, ← hrest]
  show (c.order.filter fun e' => e'.node = e.node) ++ _ = _
  rw [hfront]
  rfl

theorem Indexed.perm (hc : c.Indexed) {order : List CacheEntry} (h : order.Perm c.order) :
    Indexed { c with order } where
  keys := (h.map _).nodup_iff.mpr hc.keys
  nodes := (h.map _).nodup_iff.mpr hc.nodes
  index k n := by
    rw [hc.index]
    simp only [h.mem_iff]

theorem Coherent.withEntry (hc : c.Coherent tint themes uses) {key : ShadowKey}
    (hkey : ∀ e ∈ c.order, e.key ≠ key) (pixels : List UInt8) :
    (c.withEntry key pixels).Indexed where
  keys := List.nodup_cons.mpr ⟨by simpa using hkey, hc.indexed.keys⟩
  nodes := List.nodup_cons.mpr
    ⟨by simpa using fun e he => (hc.nodes_lt e he).ne, hc.indexed.nodes⟩
  index k n := by
    show (c.index.insertOrAssign key c.next).find? k = some n ↔ _
    rw [Table.find?_insertOrAssign]
    simp only [ShadowCache.withEntry, List.mem_cons]
    by_cases hk : k = key
    · subst hk
      rw [if_pos rfl, Option.some.injEq]
      constructor
      · rintro rfl
        exact ⟨_, .inl rfl, rfl, rfl⟩
      · rintro ⟨e, rfl | he, hek, rfl⟩
        · rfl
        · exact absurd hek (hkey e he)
    · rw [if_neg hk, hc.indexed.index]
      constructor
      · rintro ⟨e, he, h⟩
        exact ⟨e, .inr he, h⟩
      · rintro ⟨e, rfl | he, hek, hn⟩
        · exact absurd hek.symm hk
        · exact ⟨e, he, hek, hn⟩

/-- The entries after a fetch are the one fetched and some of those before. -/
theorem FetchedEntry.mem {key : ShadowKey} {theme : Theme} {c' : ShadowCache} {e e' : CacheEntry}
    (h : FetchedEntry tint c key theme c' e) (he' : e' ∈ c'.order) : e' = e ∨ e' ∈ c.order := by
  rw [h.order, List.mem_cons] at he'
  exact he'.imp_right fun he' => (List.mem_filter.mp (List.mem_of_mem_take he')).1

theorem FetchedEntry.coherent {key : ShadowKey} {theme : Theme} {c' : ShadowCache} {e : CacheEntry}
    (h : FetchedEntry tint c key theme c' e) (hc : c.Coherent tint themes uses)
    (hkey : Keyed themes key theme) (hc' : c'.Indexed) (hnext : c.next ≤ c'.next)
    (hlt : e.node < c'.next) : c'.Coherent tint themes (touch key uses) where
  indexed := hc'
  nodup := Lib.nodup_touch hc.nodup key
  order := by
    obtain ⟨n, hn⟩ : ∃ n, c.capacity = n + 1 := ⟨c.capacity - 1, by have := c.capacity_pos; omega⟩
    have hfilter : (c.order.filter fun e => e.key ≠ key).map (·.key) =
        (uses.take (n + 1)).erase key := by
      rw [(hc.nodup.sublist (List.take_sublist ..)).erase_eq_filter, ← hn, ← hc.order,
        List.filter_map]
      congr 1
      exact List.filter_congr fun e _ => Bool.eq_iff_iff.mpr (by simp)
    rw [h.capacity, hn, Lib.take_touch, h.order, hn, List.map_cons, h.key_eq, List.map_take,
      hfilter, List.take_succ_cons]
    rfl
  nodes_lt e' he' := by
    rcases h.mem he' with rfl | he'
    · exact hlt
    · exact (hc.nodes_lt e' he').trans_le hnext
  fresh e' he' := by
    rcases h.mem he' with rfl | he'
    · rw [h.key_eq]
      exact ⟨theme, hkey.mem, hkey.themeId.symm, h.pixels⟩
    · exact hc.fresh e' he'

/-- A fetch finds the key's render, or makes it. -/
theorem fetch_spec (hc : c.Coherent tint themes uses) (hthemes : Set.InjOn themeId themes)
    {key : ShadowKey} {theme : Theme} (hkey : Keyed themes key theme) (hw : key.width ≠ 0)
    (hh : key.height ≠ 0) {px : List UInt8} (hpx : renderShadow tint key theme = some px) :
    ∃ c' e, c.fetch tint key theme = some (c', .at (some e.node)) ∧
      FetchedEntry tint c key theme c' e ∧ c'.Coherent tint themes (touch key uses) := by
  cases hfind : c.index.find? key with
  | some n =>
    obtain ⟨e, he, hek, rfl⟩ := (hc.indexed.index key n).mp hfind
    have hfetch : c.fetch tint key theme = some (c.splice e.node, .at (some e.node)) := by
      rw [fetch, hfind]
    have hentry : FetchedEntry tint c key theme (c.splice e.node) e := by
      obtain ⟨θ, hθ, hid, hpixels⟩ := hc.fresh e he
      have hθ' : θ = theme := hthemes hθ hkey.mem (by rw [hid, hek, hkey.themeId])
      exact ⟨hek, by rw [← hpixels, hek, hθ'], hek ▸ hc.splice he, rfl, .inl he⟩
    refine ⟨_, e, hfetch, hentry, hentry.coherent hc hkey (hc.indexed.perm ?_) (Nat.le_refl _)
      (hc.nodes_lt e he)⟩
    have hperm := List.filter_append_perm (fun e' => decide (e'.node = e.node)) c.order
    simpa using hperm
  | none =>
    have hnew := hc.indexed.find?_eq_none.mp hfind
    obtain ⟨hi, ho, hcap, hnext⟩ := evictLoop_spec _ (hc.withEntry hnew px) (Nat.le_refl _)
    obtain ⟨n, hn⟩ := Nat.exists_eq_succ_of_ne_zero c.capacity_pos.ne'
    have horder : (evict (c.withEntry key px)).order =
        ⟨c.next, key, px⟩ :: (c.order.filter fun e => e.key ≠ key).take (c.capacity - 1) := by
      have hfilter : (c.order.filter fun e => e.key ≠ key) = c.order :=
        List.filter_eq_self.mpr (by simpa using hnew)
      refine ho.trans ?_
      show (_ :: c.order).take c.capacity = _
      rw [hfilter, hn, List.take_succ_cons]
      rfl
    have hentry : FetchedEntry tint c key theme (evict (c.withEntry key px)) ⟨c.next, key, px⟩ :=
      ⟨rfl, hpx, horder, hcap, .inr ⟨rfl, hnew⟩⟩
    have hfetch : c.fetch tint key theme =
        some (evict (c.withEntry key px), .at (some c.next)) := by
      have hit : (evict (c.withEntry key px)).index.find? key = some c.next :=
        (hi.index key c.next).mpr ⟨_, horder ▸ List.mem_cons_self, rfl, rfl⟩
      rw [fetch, hfind]
      simp only [hpx, Option.map_some, renderShadow_ne_nil hw hh hpx, Bool.false_eq_true, if_false,
        hit]
    have hnext' : (evict (c.withEntry key px)).next = c.next + 1 := hnext
    exact ⟨_, _, hfetch, hentry, hentry.coherent hc hkey hi (hnext' ▸ Nat.le_succ _)
      (hnext' ▸ Nat.lt_succ_self _)⟩

/-! ### Two entries at once -/

variable {keyA keyB : ShadowKey} {theme : Theme} {c₁ c₂ : ShadowCache} {ea eb : CacheEntry}

/-- The first of two entries is still there after the second is fetched, if there is room for
both. -/
theorem FetchedEntry.mem_of_room (ha : FetchedEntry tint c keyA theme c₁ ea) (h₁ : c₁.Indexed)
    (hb : FetchedEntry tint c₁ keyB theme c₂ eb) (hroom : keyA = keyB ∨ 2 ≤ c.capacity) :
    ea ∈ c₂.order := by
  have hea : ea ∈ c₁.order := ha.order ▸ List.mem_cons_self
  by_cases hkeys : keyA = keyB
  · -- the second fetch finds the entry of the first
    rcases hb.source with heb | ⟨-, hnew⟩
    · rw [h₁.eq_of_key hea heb (ha.key_eq.trans (hkeys.trans hb.key_eq.symm)), hb.order]
      exact List.mem_cons_self
    · exact absurd (ha.key_eq.trans hkeys) (hnew ea hea)
  · obtain ⟨n, hn⟩ := Nat.exists_eq_add_of_le (hroom.resolve_left hkeys)
    have hne : ea.key ≠ keyB := ha.key_eq ▸ hkeys
    rw [hb.order, ha.capacity, ha.order, List.filter_cons_of_pos (by simpa using hne), hn,
      show 2 + n - 1 = n + 1 by omega, List.take_succ_cons]
    exact List.mem_cons_of_mem _ List.mem_cons_self

/-- Else its node is gone. -/
theorem FetchedEntry.node_ne_of_full (ha : FetchedEntry tint c keyA theme c₁ ea)
    (h₁ : ∀ e ∈ c₁.order, e.node < c₁.next) (hb : FetchedEntry tint c₁ keyB theme c₂ eb)
    (hkeys : keyA ≠ keyB) (hcap : c.capacity = 1) : ∀ e ∈ c₂.order, e.node ≠ ea.node := by
  have hone : c₁.order = [ea] := by rw [ha.order, hcap, Nat.sub_self, List.take_zero]
  have hlt : ea.node < c₁.next := h₁ ea (hone ▸ List.mem_cons_self)
  rw [hb.order, ha.capacity, hcap, Nat.sub_self, List.take_zero]
  simp only [List.mem_singleton, forall_eq]
  rcases hb.source with heb | ⟨hnode, -⟩
  · rw [hone, List.mem_singleton] at heb
    exact absurd (ha.key_eq.symm.trans (heb ▸ hb.key_eq)) hkeys
  · exact hnode ▸ hlt.ne'

/-! ### Blits of fresh renders -/

def freshBlit (tint : Tint) (key : ShadowKey) (theme : Theme) (dest : ShadowDest) (dst : Bytes) :
    Option (Bool × Bytes) :=
  if refusesDest dest || key.width = 0 || key.height = 0 then some (false, dst)
  else do
    let pixels ← renderShadow tint key theme
    let dst ← blitRows (rowOf pixels key) key dest dst
    some (true, dst)

def freshCrossFade (tint : Tint) (keyA keyB : ShadowKey) (theme : Theme) (dest : ShadowDest)
    (fade : Fade) (dst : Bytes) : Option (Bool × Bytes) :=
  if refusesDest dest || refusesKeys keyA keyB then some (false, dst)
  else match fade with
    | .atA => freshBlit tint keyA theme dest dst
    | .atB => freshBlit tint keyB theme dest dst
    | .between wa wb => do
      let a ← renderShadow tint keyA theme
      let b ← renderShadow tint keyB theme
      let dst ← blitRows (lerpRow (rowOf a keyA) (rowOf b keyB) wa wb) keyA dest dst
      some (true, dst)

/-- The list and the index hold the first keys of `uses`, as many as there is room for. -/
structure Lists (c : ShadowCache) (uses : List ShadowKey) : Prop where
  indexed : c.Indexed
  nodup : uses.Nodup
  order : c.order.map (·.key) = uses.take c.capacity
  length_le : c.order.length ≤ c.capacity

/-- A blit is defined, shows what a fresh one shows, and leaves the keys used in their order. -/
def Answers (result : Option BlitResult) (fresh : Option (Bool × Bytes))
    (uses : List ShadowKey) : Prop :=
  ∃ r, result = some r ∧ fresh = some (r.ok, r.bytes) ∧ r.cache.Lists uses

/-! ### Runs -/

inductive Call
  | blitInto (key : ShadowKey) (theme : Theme) (dest : ShadowDest) (dst : Bytes)
  | blitCrossFade (keyA keyB : ShadowKey) (theme : Theme) (dest : ShadowDest) (fade : Fade)
      (dst : Bytes)
  | clear

/-- The cache, with the keys used since it was last cleared, the latest first. -/
structure Session where
  cache : ShadowCache
  uses : List ShadowKey := []

/-- The keys used since the last clearing, after a call. -/
def usesAfter (uses : List ShadowKey) : Call → List ShadowKey
  | .blitInto key _ dest _ =>
    if refusesDest dest || key.width = 0 || key.height = 0 then uses else touch key uses
  | .blitCrossFade keyA keyB _ dest fade _ =>
    if refusesDest dest || refusesKeys keyA keyB then uses
    else match fade with
      | .atA => touch keyA uses
      | .atB => touch keyB uses
      | .between _ _ => touch keyB (touch keyA uses)
  | .clear => []

def cacheAfter (tint : Tint) (c : ShadowCache) : Call → ShadowCache
  | .blitInto key theme dest dst => ((c.blitInto tint key theme dest dst).map (·.cache)).getD c
  | .blitCrossFade keyA keyB theme dest fade dst =>
    ((c.blitCrossFade tint keyA keyB theme dest fade dst).map (·.cache)).getD c
  | .clear => c.clear

def Session.step (tint : Tint) (s : Session) (call : Call) : Session :=
  ⟨cacheAfter tint s.cache call, usesAfter s.uses call⟩

/-- The call shows what it would without a cache. -/
def Transparent (tint : Tint) (s : Session) (call : Call) : Prop :=
  match call with
  | .blitInto key theme dest dst =>
    Answers (s.cache.blitInto tint key theme dest dst) (freshBlit tint key theme dest dst)
      (usesAfter s.uses call)
  | .blitCrossFade keyA keyB theme dest fade dst =>
    Answers (s.cache.blitCrossFade tint keyA keyB theme dest fade dst)
      (freshCrossFade tint keyA keyB theme dest fade dst) (usesAfter s.uses call)
  | .clear => s.cache.clear.Lists (usesAfter s.uses call)

/-- The keys of the call carry the identity of its theme. -/
def Call.Keyed (themes : Set Theme) : Call → Prop
  | .blitInto key theme _ _ => ShadowCache.Keyed themes key theme
  | .blitCrossFade keyA keyB theme _ _ _ =>
    ShadowCache.Keyed themes keyA theme ∧ ShadowCache.Keyed themes keyB theme
  | .clear => True

/-- The keys of the call can be rendered afresh and blitted: sizes and theme leave nothing
undefined. -/
def Call.Defined (tint : Tint) : Call → Prop
  | .blitInto key theme dest dst => (freshBlit tint key theme dest dst).isSome
  | .blitCrossFade keyA keyB theme dest fade dst =>
    (freshCrossFade tint keyA keyB theme dest fade dst).isSome
  | .clear => True

/-- There is room for what the call uses at once. -/
def Call.Fits (capacity : ℕ) : Call → Prop
  | .blitCrossFade keyA keyB _ dest (.between _ _) _ =>
    refusesDest dest ∨ refusesKeys keyA keyB ∨ keyA = keyB ∨ 2 ≤ capacity
  | _ => True

/-! ### Calls -/

theorem Coherent.lists (hc : c.Coherent tint themes uses) : c.Lists uses :=
  ⟨hc.indexed, hc.nodup, hc.order, hc.length_le⟩

theorem coherent_of_empty (tint : Tint) (themes : Set Theme) (horder : c.order = [])
    (hindex : c.index = .empty) : c.Coherent tint themes [] where
  indexed := ⟨by simp [horder], by simp [horder],
    by simp [horder, hindex, Table.find?, Table.empty]⟩
  nodup := .nil
  order := by rw [horder, List.take_nil, List.map_nil]
  nodes_lt := by simp [horder]
  fresh := by simp [horder]

theorem coherent_create (tint : Tint) (themes : Set Theme) (capacity : ℕ) :
    (create capacity).Coherent tint themes [] := by
  unfold create
  split <;> exact coherent_of_empty tint themes rfl rfl

/-- The call's answer, with the invariant that the next one starts from. -/
def AnswersCoherently (tint : Tint) (themes : Set Theme) (c : ShadowCache)
    (result : Option BlitResult) (fresh : Option (Bool × Bytes)) (uses : List ShadowKey) : Prop :=
  ∃ r, result = some r ∧ fresh = some (r.ok, r.bytes) ∧ r.cache.Coherent tint themes uses ∧
    r.cache.capacity = c.capacity

theorem AnswersCoherently.answers {result : Option BlitResult} {fresh : Option (Bool × Bytes)}
    (h : AnswersCoherently tint themes c result fresh uses) : Answers result fresh uses := by
  obtain ⟨r, hr, hfresh, hc, -⟩ := h
  exact ⟨r, hr, hfresh, hc.lists⟩

/-- What a defined blit of a fresh render consists of. -/
theorem freshBlit_eq_some {key : ShadowKey} {dest : ShadowDest} {dst : Bytes}
    (hrefuse : (refusesDest dest || decide (key.width = 0) || decide (key.height = 0)) = false)
    (h : (freshBlit tint key theme dest dst).isSome) :
    ∃ px dst', renderShadow tint key theme = some px ∧
      blitRows (rowOf px key) key dest dst = some dst' ∧
      freshBlit tint key theme dest dst = some (true, dst') := by
  obtain ⟨r, hr⟩ := Option.isSome_iff_exists.mp h
  rw [hr]
  simp only [freshBlit, hrefuse, Bool.false_eq_true, if_false, Option.bind_eq_bind,
    Option.bind_eq_some_iff, Option.some.injEq] at hr
  obtain ⟨px, hpx, dst', hdst, rfl⟩ := hr
  exact ⟨px, dst', hpx, hdst, rfl⟩

theorem Coherent.blitInto (hc : c.Coherent tint themes uses) (hthemes : Set.InjOn themeId themes)
    {key : ShadowKey} (hkey : Keyed themes key theme) (dest : ShadowDest) (dst : Bytes)
    (hdefined : (freshBlit tint key theme dest dst).isSome) :
    AnswersCoherently tint themes c (c.blitInto tint key theme dest dst)
      (freshBlit tint key theme dest dst) (usesAfter uses (.blitInto key theme dest dst)) := by
  cases hrefuse : refusesDest dest || decide (key.width = 0) || decide (key.height = 0) with
  | true =>
    simp only [ShadowCache.blitInto, freshBlit, usesAfter, hrefuse, if_true]
    exact ⟨_, rfl, rfl, hc, rfl⟩
  | false =>
    obtain ⟨px, dst', hpx, hdst, hfresh⟩ := freshBlit_eq_some hrefuse hdefined
    have hdims := hrefuse
    simp only [Bool.or_eq_false_iff, decide_eq_false_iff_not] at hdims
    obtain ⟨c', e, hfetch, hentry, hc'⟩ := fetch_spec hc hthemes hkey hdims.1.2 hdims.2 hpx
    have hderef := hc'.indexed.deref_node (hentry.order ▸ List.mem_cons_self)
    have hpixels : e.pixels = px := Option.some.inj (hentry.pixels.symm.trans hpx)
    rw [hfresh]
    simp only [ShadowCache.blitInto, usesAfter, hrefuse, Bool.false_eq_true, if_false, hfetch,
      hderef, hpixels, hdst, Option.bind_eq_bind, Option.bind_some]
    exact ⟨_, rfl, rfl, hc', hentry.capacity⟩

/-- What a defined cross-fade of two fresh renders consists of. -/
theorem freshCrossFade_eq_some {dest : ShadowDest} {wa wb : ℕ} {dst : Bytes}
    (hrefuse : (refusesDest dest || refusesKeys keyA keyB) = false)
    (h : (freshCrossFade tint keyA keyB theme dest (.between wa wb) dst).isSome) :
    ∃ pa pb dst', renderShadow tint keyA theme = some pa ∧ renderShadow tint keyB theme = some pb ∧
      blitRows (lerpRow (rowOf pa keyA) (rowOf pb keyB) wa wb) keyA dest dst = some dst' ∧
      freshCrossFade tint keyA keyB theme dest (.between wa wb) dst = some (true, dst') := by
  obtain ⟨r, hr⟩ := Option.isSome_iff_exists.mp h
  rw [hr]
  simp only [freshCrossFade, hrefuse, Bool.false_eq_true, if_false, Option.bind_eq_bind,
    Option.bind_eq_some_iff, Option.some.injEq] at hr
  obtain ⟨pa, hpa, pb, hpb, dst', hdst, rfl⟩ := hr
  exact ⟨pa, pb, dst', hpa, hpb, hdst, rfl⟩

/-- A cross-fade strictly between its ends, that nothing refuses. -/
theorem blitCrossFade_between {dest : ShadowDest} {wa wb : ℕ} (dst : Bytes)
    (hrefuse : (refusesDest dest || refusesKeys keyA keyB) = false)
    (ha : c.fetch tint keyA theme = some (c₁, .at (some ea.node)))
    (hb : c₁.fetch tint keyB theme = some (c₂, .at (some eb.node))) :
    c.blitCrossFade tint keyA keyB theme dest (.between wa wb) dst =
      ((c₂.deref (some ea.node)).bind fun a => (c₂.deref (some eb.node)).bind fun b =>
        (blitRows (lerpRow (rowOf a.pixels keyA) (rowOf b.pixels keyB) wa wb) keyA dest dst).bind
          fun dst => some ⟨c₂, true, dst⟩) := by
  simp only [blitCrossFade, hrefuse, Bool.false_eq_true, if_false, ha, hb, Option.bind_eq_bind,
    Option.bind_some]

/-- What two fetches lead to, of keys that are not refused. -/
theorem Coherent.fetch_both (hc : c.Coherent tint themes uses)
    (hthemes : Set.InjOn themeId themes) (hkeyA : Keyed themes keyA theme)
    (hkeyB : Keyed themes keyB theme) (hrefuse : refusesKeys keyA keyB = false)
    {pa pb : List UInt8} (hpa : renderShadow tint keyA theme = some pa)
    (hpb : renderShadow tint keyB theme = some pb) :
    ∃ c₁ ea c₂ eb, c.fetch tint keyA theme = some (c₁, .at (some ea.node)) ∧
      c₁.fetch tint keyB theme = some (c₂, .at (some eb.node)) ∧
      FetchedEntry tint c keyA theme c₁ ea ∧ FetchedEntry tint c₁ keyB theme c₂ eb ∧
      c₁.Coherent tint themes (touch keyA uses) ∧
      c₂.Coherent tint themes (touch keyB (touch keyA uses)) := by
  simp only [refusesKeys, Bool.or_eq_false_iff, decide_eq_false_iff_not, Decidable.not_not]
    at hrefuse
  obtain ⟨⟨⟨hw, hh⟩, hwidth⟩, hheight⟩ := hrefuse
  obtain ⟨c₁, ea, ha, hea, hc₁⟩ := fetch_spec hc hthemes hkeyA hw hh hpa
  obtain ⟨c₂, eb, hb, heb, hc₂⟩ := fetch_spec hc₁ hthemes hkeyB (hwidth ▸ hw) (hheight ▸ hh) hpb
  exact ⟨c₁, ea, c₂, eb, ha, hb, hea, heb, hc₁, hc₂⟩

theorem Coherent.blitCrossFade (hc : c.Coherent tint themes uses)
    (hthemes : Set.InjOn themeId themes) (hkeyA : Keyed themes keyA theme)
    (hkeyB : Keyed themes keyB theme) (dest : ShadowDest) (fade : Fade) (dst : Bytes)
    (hdefined : (freshCrossFade tint keyA keyB theme dest fade dst).isSome)
    (hfits : Call.Fits c.capacity (.blitCrossFade keyA keyB theme dest fade dst)) :
    AnswersCoherently tint themes c (c.blitCrossFade tint keyA keyB theme dest fade dst)
      (freshCrossFade tint keyA keyB theme dest fade dst)
      (usesAfter uses (.blitCrossFade keyA keyB theme dest fade dst)) := by
  cases hrefuse : refusesDest dest || refusesKeys keyA keyB with
  | true =>
    simp only [ShadowCache.blitCrossFade, freshCrossFade, usesAfter, hrefuse, if_true]
    exact ⟨_, rfl, rfl, hc, rfl⟩
  | false =>
    obtain ⟨hdest, hkeys⟩ := Bool.or_eq_false_iff.mp hrefuse
    have hdims := hkeys
    simp only [refusesKeys, Bool.or_eq_false_iff, decide_eq_false_iff_not, Decidable.not_not]
      at hdims
    obtain ⟨⟨⟨hw, hh⟩, hwidth⟩, hheight⟩ := hdims
    cases fade with
    | atA =>
      have hfresh : freshCrossFade tint keyA keyB theme dest .atA dst =
          freshBlit tint keyA theme dest dst := by
        simp only [freshCrossFade, hrefuse, Bool.false_eq_true, if_false]
      have h := hc.blitInto hthemes hkeyA dest dst (hfresh ▸ hdefined)
      simp only [usesAfter, hdest, hw, hh, decide_false, Bool.or_self, Bool.false_eq_true,
        if_false] at h
      simpa only [ShadowCache.blitCrossFade, freshCrossFade, usesAfter, hrefuse,
        Bool.false_eq_true, if_false] using h
    | atB =>
      have hfresh : freshCrossFade tint keyA keyB theme dest .atB dst =
          freshBlit tint keyB theme dest dst := by
        simp only [freshCrossFade, hrefuse, Bool.false_eq_true, if_false]
      have h := hc.blitInto hthemes hkeyB dest dst (hfresh ▸ hdefined)
      simp only [usesAfter, hdest, ← hwidth, ← hheight, hw, hh, decide_false, Bool.or_self,
        Bool.false_eq_true, if_false] at h
      simpa only [ShadowCache.blitCrossFade, freshCrossFade, usesAfter, hrefuse,
        Bool.false_eq_true, if_false] using h
    | between wa wb =>
      obtain ⟨pa, pb, dst', hpa, hpb, hdst, hfresh⟩ := freshCrossFade_eq_some hrefuse hdefined
      obtain ⟨c₁, ea, c₂, eb, ha, hb, hea, heb, hc₁, hc₂⟩ :=
        hc.fetch_both hthemes hkeyA hkeyB hkeys hpa hpb
      have hroom : keyA = keyB ∨ 2 ≤ c.capacity := by simpa [Call.Fits, hdest, hkeys] using hfits
      have hderefA := hc₂.indexed.deref_node (hea.mem_of_room hc₁.indexed heb hroom)
      have hderefB := hc₂.indexed.deref_node (heb.order ▸ List.mem_cons_self)
      have hpixelsA : ea.pixels = pa := Option.some.inj (hea.pixels.symm.trans hpa)
      have hpixelsB : eb.pixels = pb := Option.some.inj (heb.pixels.symm.trans hpb)
      rw [blitCrossFade_between dst hrefuse ha hb, hderefA, hderefB, hfresh]
      simp only [hpixelsA, hpixelsB, hdst, Option.bind_some, usesAfter, hrefuse,
        Bool.false_eq_true, if_false]
      exact ⟨_, rfl, rfl, hc₂, heb.capacity.trans hea.capacity⟩

/-- Without room for both, the pointer to the first entry dangles. -/
theorem Coherent.blitCrossFade_eq_none (hc : c.Coherent tint themes uses)
    (hthemes : Set.InjOn themeId themes) (hkeyA : Keyed themes keyA theme)
    (hkeyB : Keyed themes keyB theme) {dest : ShadowDest} {fade : Fade} {dst : Bytes}
    (hdefined : (freshCrossFade tint keyA keyB theme dest fade dst).isSome)
    (hfits : ¬ Call.Fits c.capacity (.blitCrossFade keyA keyB theme dest fade dst)) :
    c.blitCrossFade tint keyA keyB theme dest fade dst = none := by
  cases fade with
  | atA => exact absurd trivial hfits
  | atB => exact absurd trivial hfits
  | between wa wb =>
    simp only [Call.Fits, not_or, Bool.not_eq_true] at hfits
    obtain ⟨hdest, hkeys, hne, hcap⟩ := hfits
    have hrefuse : (refusesDest dest || refusesKeys keyA keyB) = false := by rw [hdest, hkeys]; rfl
    obtain ⟨pa, pb, -, hpa, hpb, -⟩ := freshCrossFade_eq_some hrefuse hdefined
    obtain ⟨c₁, ea, c₂, eb, ha, hb, hea, heb, hc₁, hc₂⟩ :=
      hc.fetch_both hthemes hkeyA hkeyB hkeys hpa hpb
    have hone : c.capacity = 1 := by
      have := c.capacity_pos
      omega
    rw [blitCrossFade_between dst hrefuse ha hb,
      deref_eq_none (hea.node_ne_of_full hc₁.nodes_lt heb hne hone), Option.bind_none]

/-! ### Renderable keys -/

theorem covers_of_renderable {key : ShadowKey} (h : Renderable key theme) {px : List UInt8}
    (hlen : px.length = key.width.toNat * key.height.toNat * 4) : Covers (rowOf px key) key := by
  have hpixels := h.pixels
  unfold BoxBlur.intMax at hpixels
  exact covers_rowOf hlen (by omega)

/-- Keys and themes whose `int`s fit are blitted. -/
theorem defined_blitInto {key : ShadowKey} (h : Renderable key theme) (tint : Tint)
    (dest : ShadowDest) (dst : Bytes) : Call.Defined tint (.blitInto key theme dest dst) := by
  obtain ⟨px, hpx, hlen⟩ := exists_renderShadow tint h
  obtain ⟨dst', hdst⟩ :=
    Option.isSome_iff_exists.mp (isSome_blitRows (covers_of_renderable h hlen) dest dst)
  show (freshBlit tint key theme dest dst).isSome
  unfold freshBlit
  split
  · rfl
  · simp only [hpx, hdst, Option.bind_eq_bind, Option.bind_some, Option.isSome_some]

theorem defined_blitCrossFade (hA : Renderable keyA theme) (hwidth : keyA.width = keyB.width)
    (hheight : keyA.height = keyB.height) (tint : Tint) (dest : ShadowDest) (fade : Fade)
    (dst : Bytes) : Call.Defined tint (.blitCrossFade keyA keyB theme dest fade dst) := by
  have hB : Renderable keyB theme := by
    obtain ⟨hw, hh, hpixels, hradius, hwide, htall, hcw, hch⟩ := hA
    exact ⟨hwidth ▸ hw, hheight ▸ hh, hwidth ▸ hheight ▸ hpixels, hradius, hwidth ▸ hwide,
      hheight ▸ htall, hwidth ▸ hcw, hheight ▸ hch⟩
  show (freshCrossFade tint keyA keyB theme dest fade dst).isSome
  unfold freshCrossFade
  split
  · rfl
  · cases fade with
    | atA => exact defined_blitInto hA tint dest dst
    | atB => exact defined_blitInto hB tint dest dst
    | between wa wb =>
      obtain ⟨pa, hpa, hlenA⟩ := exists_renderShadow tint hA
      obtain ⟨pb, hpb, hlenB⟩ := exists_renderShadow tint hB
      have hcovB : Covers (rowOf pb keyB) keyA := fun y hy i hi =>
        covers_of_renderable hB hlenB y (hheight ▸ hy) i (hwidth ▸ hi)
      obtain ⟨dst', hdst⟩ := Option.isSome_iff_exists.mp
        (isSome_blitRows (covers_lerpRow (covers_of_renderable hA hlenA) hcovB wa wb) dest dst)
      simp only [hpa, hpb, hdst, Option.bind_eq_bind, Option.bind_some, Option.isSome_some]

/-! ### Every run -/

theorem Transparent.defined {s : Session} {call : Call} (h : Transparent tint s call) :
    call.Defined tint := by
  cases call with
  | blitInto key theme dest dst =>
    obtain ⟨r, -, hfresh, -⟩ := h
    exact Option.isSome_of_eq_some hfresh
  | blitCrossFade keyA keyB theme dest fade dst =>
    obtain ⟨r, -, hfresh, -⟩ := h
    exact Option.isSome_of_eq_some hfresh
  | clear => trivial

theorem transparent_iff_fits {s : Session} (hc : s.cache.Coherent tint themes s.uses)
    (hthemes : Set.InjOn themeId themes) {call : Call} (hcall : call.Keyed themes)
    (hdefined : call.Defined tint) : Transparent tint s call ↔ call.Fits s.cache.capacity := by
  cases call with
  | blitInto key theme dest dst =>
    exact ⟨fun _ => trivial, fun _ => (hc.blitInto hthemes hcall dest dst hdefined).answers⟩
  | clear =>
    exact ⟨fun _ => trivial, fun _ => (coherent_of_empty tint themes rfl rfl).lists⟩
  | blitCrossFade keyA keyB theme dest fade dst =>
    constructor
    · rintro ⟨r, hr, -⟩
      by_contra hfits
      rw [hc.blitCrossFade_eq_none hthemes hcall.1 hcall.2 hdefined hfits] at hr
      cases hr
    · exact fun hfits =>
        (hc.blitCrossFade hthemes hcall.1 hcall.2 dest fade dst hdefined hfits).answers

theorem transparent_iff {s : Session} (hc : s.cache.Coherent tint themes s.uses)
    (hthemes : Set.InjOn themeId themes) {call : Call} (hcall : call.Keyed themes) :
    Transparent tint s call ↔ call.Defined tint ∧ call.Fits s.cache.capacity :=
  ⟨fun h => ⟨h.defined, (transparent_iff_fits hc hthemes hcall h.defined).mp h⟩,
    fun h => (transparent_iff_fits hc hthemes hcall h.1).mpr h.2⟩

theorem AnswersCoherently.cacheAfter {result : Option BlitResult} {fresh : Option (Bool × Bytes)}
    (h : AnswersCoherently tint themes c result fresh uses) :
    ((result.map (·.cache)).getD c).Coherent tint themes uses ∧
      ((result.map (·.cache)).getD c).capacity = c.capacity := by
  obtain ⟨r, rfl, -, hr⟩ := h
  exact hr

theorem coherent_step {s : Session} (hc : s.cache.Coherent tint themes s.uses)
    (hthemes : Set.InjOn themeId themes) {call : Call} (hcall : call.Keyed themes)
    (hdefined : call.Defined tint) (hfits : call.Fits s.cache.capacity) :
    (s.step tint call).cache.Coherent tint themes (s.step tint call).uses ∧
      (s.step tint call).cache.capacity = s.cache.capacity := by
  cases call with
  | blitInto key theme dest dst => exact (hc.blitInto hthemes hcall dest dst hdefined).cacheAfter
  | clear => exact ⟨coherent_of_empty tint themes rfl rfl, rfl⟩
  | blitCrossFade keyA keyB theme dest fade dst =>
    exact (hc.blitCrossFade hthemes hcall.1 hcall.2 dest fade dst hdefined hfits).cacheAfter

/-- Every call of a run shows what fresh renders would exactly if those are defined and there is
room in the cache for what each call uses at once. -/
theorem transparent_iff_all_fit (tint : Tint) {themes : Set Theme}
    (hthemes : Set.InjOn themeId themes) (capacity : ℕ) {calls : List Call}
    (hcalls : ∀ call ∈ calls, call.Keyed themes) :
    Lib.Meets (Session.step tint) (Transparent tint) ⟨create capacity, []⟩ calls ↔
      ∀ call ∈ calls, call.Defined tint ∧ call.Fits (create capacity).capacity := by
  rw [← Lib.meets_iff_forall]
  have hinv := coherent_create tint themes capacity
  refine Lib.meets_iff_of_kept_under
    (fun s : Session => s.cache.Coherent tint themes s.uses ∧
      s.cache.capacity = (create capacity).capacity) ?_ ?_ ⟨hinv, rfl⟩
    (Lib.meets_of_forall hcalls _)
  · rintro s call hcall ⟨hc, hcap⟩ hcalled
    obtain ⟨hdefined, hfits⟩ := (transparent_iff hc hthemes hcall).mp hcalled
    obtain ⟨hc', hcap'⟩ := coherent_step hc hthemes hcall hdefined hfits
    exact ⟨hc', hcap'.trans hcap⟩
  · rintro s call hcall ⟨hc, hcap⟩
    rw [transparent_iff hc hthemes hcall, hcap]

/-- A cross-fade of the two elevations of a one-pixel shadow. -/
def onePixelFade : Call :=
  .blitCrossFade ⟨1, 1, .blurred, themeId {}⟩ ⟨1, 1, .focused, themeId {}⟩ {} ⟨true, 4, 1, 1⟩
    (.between 128 128) fun _ => 0

theorem keyed_onePixelFade : onePixelFade.Keyed {({} : Theme)} :=
  ⟨⟨rfl, Set.mem_singleton _⟩, ⟨rfl, Set.mem_singleton _⟩⟩

theorem renderable_onePixel : Renderable ⟨1, 1, .blurred, themeId {}⟩ {} where
  width_pos := by decide
  height_pos := by decide
  pixels := by decide
  radius := ⟨by decide, by decide⟩
  wide := by decide
  tall := by decide
  corner_wide := by decide
  corner_tall := by decide

theorem defined_onePixelFade (tint : Tint) : onePixelFade.Defined tint := by
  refine defined_blitCrossFade renderable_onePixel ?_ ?_ tint _ _ _
  · rfl
  · rfl

theorem transparent_iff_all_fit_two :
    Lib.Meets (Session.step fun m _ _ => m) (Transparent fun m _ _ => m) ⟨create 2, []⟩
      [onePixelFade, .clear, onePixelFade] :=
  (transparent_iff_all_fit _ (Set.injOn_singleton ..) 2 (by
    simpa [Call.Keyed] using keyed_onePixelFade)).mpr (by
    simp only [List.forall_mem_cons]
    have hfits : Call.Fits (create 2).capacity onePixelFade := .inr (.inr (.inr (by decide)))
    exact ⟨⟨defined_onePixelFade _, hfits⟩, ⟨trivial, trivial⟩, ⟨defined_onePixelFade _, hfits⟩,
      nofun⟩)

/-- A cache of one entry follows a dangling pointer. -/
theorem not_transparent_one :
    Set.InjOn themeId {({} : Theme)} ∧ onePixelFade.Keyed {({} : Theme)} ∧
      onePixelFade.Defined (fun m _ _ => m) ∧
      ¬ Lib.Meets (Session.step fun m _ _ => m) (Transparent fun m _ _ => m) ⟨create 1, []⟩
        [onePixelFade] := by
  refine ⟨Set.injOn_singleton .., keyed_onePixelFade, defined_onePixelFade _, ?_⟩
  rintro ⟨⟨r, hr, -⟩, -⟩
  have hnone := (coherent_create (fun m _ _ => m) {({} : Theme)} 1).blitCrossFade_eq_none
    (Set.injOn_singleton ..) keyed_onePixelFade.1 keyed_onePixelFade.2 (defined_onePixelFade _)
    (show ¬ Call.Fits 1 onePixelFade by simp [Call.Fits, onePixelFade, refusesDest, refusesKeys])
  cases hr.symm.trans hnone

end ShadowCache

end DrmCxx.Csd
