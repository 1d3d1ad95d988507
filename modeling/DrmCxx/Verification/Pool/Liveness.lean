import DrmCxx.Lib.Run
import DrmCxx.Verification.Pool.Eviction
import DrmCxx.Verification.Ring.Equations

/-!
# Framebuffers of the pool stay alive while in use

The pool under every interleaving of the producer's and the commit thread's atomic steps. A key
between its import and the screen is protected by nothing: the condition says that no locked
section reaches one.
-/

namespace DrmCxx.Scene

open List Lib RingPresenter

/-- A submit between its two locks. -/
structure Staged where
  key : SlotKey
  fence : Option SyncFence
  damage : List DamageRect
  deriving DecidableEq, Repr

/-- An acquisition not yet released. -/
structure HeldBuffer where
  key : SlotKey
  token : Token
  deriving DecidableEq, Repr

/-- A fresh frame `acquire` returned, and the key's framebuffer once it returned. -/
structure Presented where
  key : SlotKey
  fbId : FbId
  live : Option FbId
  deriving DecidableEq, Repr

/-- A framebuffer torn down, and what was in flight then. -/
structure TornDown where
  key : SlotKey
  pending : Option SlotKey
  scanning : Option SlotKey
  held : List SlotKey
  deriving DecidableEq, Repr

structure PoolTrace where
  pool : ExternalDmaBufPool
  inHand : List Staged := []
  /-- The commit thread between the presenter's lock and the map lock of `acquire`. -/
  drained : Option Acquired := none
  held : List HeldBuffer := []
  presented : List Presented := []
  tornDown : List TornDown := []

inductive PoolEvent
  | submitLocked (key : SlotKey) (planes : List ExternalPlaneInfo) (imported : ImportResult)
    (fence : Option SyncFence) (damage : List DamageRect)
  /-- The `i`-th submit in hand reaches the presenter. -/
  | handOff (i : ℕ)
  | resetGeneration (width height drmFourcc : ℕ)
  | retire (key : SlotKey)
  | acquireDrain (wait : FenceWait)
  | acquireLocked
  /-- Releases the `i`-th acquisition still held. -/
  | release (i : ℕ)

namespace PoolTrace

def init (format : SourceFormat) (fenceDeadline : Option ℕ) (maxPool : ℕ) : PoolTrace :=
  { pool := .create format fenceDeadline maxPool }

/-- What the locked section tears down. -/
def tornDownBy (t : PoolTrace) (after : ExternalDmaBufPool) : List TornDown :=
  (t.pool.slots.keys.filter (fun k => !decide (k ∈ after.slots))).map
    (⟨·, t.pool.presenter.pendingKey, t.pool.presenter.scanningKey, t.held.map (·.key)⟩)

def afterLocked (t : PoolTrace) (d : Acquired) (after : ExternalDmaBufPool)
    (result : Option AcquiredBuffer) : PoolTrace :=
  { t with
    pool := after
    drained := none
    held := t.held ++ result.toList.map (fun b => ⟨d.key, b.token⟩)
    presented := t.presented ++
      if d.kind = .fresh then
        result.toList.map (fun b => ⟨d.key, b.fbId, (after.slots.lookup d.key).map (·.fbId)⟩)
      else []
    tornDown := t.tornDown ++ t.tornDownBy after }

def step (ptr : PtrWidth) (t : PoolTrace) : PoolEvent → PoolTrace
  | .submitLocked key planes imported fence damage =>
    match t.pool.submitLocked key planes imported with
    | .ok pool => { t with pool, inHand := t.inHand ++ [⟨key, fence, damage⟩] }
    | .error _ => t
  | .handOff i =>
    match t.inHand[i]? with
    | some s =>
      { t with pool := t.pool.submitHandOff s.key s.fence s.damage, inHand := t.inHand.eraseIdx i }
    | none => t
  | .resetGeneration width height drmFourcc =>
    { t with pool := t.pool.resetGeneration width height drmFourcc }
  | .retire key => { t with pool := t.pool.retire key }
  | .acquireDrain wait =>
    match t.drained with
    | none =>
      { t with
        pool := (t.pool.acquireDrain ptr wait).1, drained := some (t.pool.acquireDrain ptr wait).2 }
    | some _ => t
  | .acquireLocked =>
    match t.drained with
    | some d => t.afterLocked d (t.pool.acquireLocked d).1 (t.pool.acquireLocked d).2
    | none => t
  | .release i =>
    match t.drained, t.held[i]? with
    | none, some b => { t with pool := (t.pool.release b.token).1, held := t.held.eraseIdx i }
    | _, _ => t

/-! ### The contract and its condition -/

/-- Every fresh frame carries its key's live framebuffer, nothing is torn down while in flight,
and the key sets are consistent. -/
structure Sound (t : PoolTrace) : Prop where
  presented : ∀ r ∈ t.presented, r.fbId ≠ 0 ∧ r.live = some r.fbId
  tornDown : ∀ d ∈ t.tornDown, d.pending ≠ some d.key ∧ d.scanning ≠ some d.key ∧ d.key ∉ d.held
  wellFormed : t.pool.WellFormed

/-- The keys the presenter does not vouch for: pending, about to be pending, or held by an
unreleased acquisition. -/
def inUse (t : PoolTrace) : List SlotKey :=
  t.pool.presenter.pendingKey.toList ++ t.inHand.map (·.key) ++ t.held.map (·.key)

/-- The condition on a step: no key in use is one the sweep or the prune would take. -/
def StepOk (t : PoolTrace) : PoolEvent → Prop
  | .acquireLocked => t.drained.isSome = true → ∀ k ∈ t.inUse, t.pool.reclaimable k = false
  | _ => True

instance (t : PoolTrace) : (e : PoolEvent) → Decidable (t.StepOk e)
  | .acquireLocked => inferInstanceAs (Decidable (t.drained.isSome = true → _))
  | .submitLocked _ _ _ _ _ | .handOff _ | .resetGeneration _ _ _ | .retire _
  | .acquireDrain _ | .release _ => .isTrue trivial

/-! ### One spec for each pool operation -/

section Specs

variable {p p' : ExternalDmaBufPool}

theorem importKey_spec {key : SlotKey} {planes : List ExternalPlaneInfo}
    {imported : ImportResult} (h : p.importKey key planes imported = .ok p') :
    key ∈ p'.slots ∧ ∃ slots, p' = { p with slots } ∧
      (∀ k, k ∈ slots ↔ k ∈ p.slots ∨ k = key) ∧
      ∀ k s, slots.lookup k = some s → p.slots.lookup k = some s ∨ s.fbId ≠ 0 := by
  unfold ExternalDmaBufPool.importKey at h
  split_ifs at h with hmem hcount hfields
  · cases h
    refine ⟨hmem, p.slots, rfl, fun k => ⟨.inl, ?_⟩, fun k s hs => .inl hs⟩
    rintro (hk | rfl)
    · exact hk
    · exact hmem
  · cases imported with
    | error e => cases h
    | ok fb =>
        cases h
        refine ⟨by simp, _, rfl, fun k => ?_, ?_⟩
        · rw [AList.mem_insert]
          exact or_comm
        · intro k s hs
          by_cases hk : k = key
          · subst hk
            rw [AList.lookup_insert] at hs
            cases hs
            exact .inr fb.ne_zero
          · rw [AList.lookup_insert_ne hk] at hs
            exact .inl hs

theorem mem_touchLru (p : ExternalDmaBufPool) (key k : SlotKey) :
    (k ∈ (p.touchLru key).lruPos ↔ k ∈ p.lruPos ∨ k = key) ∧
      ((∀ k, k ∈ p.lru ↔ k ∈ p.lruPos) → (k ∈ (p.touchLru key).lru ↔ k ∈ p.lru ∨ k = key)) := by
  unfold ExternalDmaBufPool.touchLru
  split_ifs with h
  · refine ⟨⟨.inl, ?_⟩, fun hpos => ?_⟩
    · rintro (hk | rfl)
      · exact hk
      · exact h
    · by_cases hk : k = key
      · simp [hk]
      · simp [hk, List.mem_erase_of_ne hk]
  · exact ⟨by simp [or_comm], fun _ => by simp⟩

theorem nodup_touchLru (hlru : p.lru.Nodup) (hpos : p.lruPos.Nodup)
    (hmem : ∀ k, k ∈ p.lru ↔ k ∈ p.lruPos) (key : SlotKey) :
    (p.touchLru key).lru.Nodup ∧ (p.touchLru key).lruPos.Nodup := by
  unfold ExternalDmaBufPool.touchLru
  split_ifs with h
  · refine ⟨List.Nodup.append (hlru.erase key) (by simp) ?_, hpos⟩
    intro k hk hk'
    obtain rfl := List.mem_singleton.mp hk'
    exact hlru.not_mem_erase hk
  · refine ⟨List.Nodup.append hlru (by simp) ?_, List.nodup_cons.mpr ⟨h, hpos⟩⟩
    intro k hk hk'
    obtain rfl := List.mem_singleton.mp hk'
    exact h ((hmem k).mp hk)

/-- An accepted submit keeps the key sets consistent, caches its key and drops no other. -/
theorem submitLocked_spec (hwf : p.WellFormed) {key : SlotKey}
    {planes : List ExternalPlaneInfo} {imported : ImportResult}
    (h : p.submitLocked key planes imported = .ok p') :
    p'.WellFormed ∧ p'.presenter = p.presenter ∧
      (∀ k, k ∈ p'.slots ↔ k ∈ p.slots ∨ k = key) ∧
      ∀ k s, p'.slots.lookup k = some s → p.slots.lookup k = some s ∨ s.fbId ≠ 0 := by
  unfold ExternalDmaBufPool.submitLocked at h
  split_ifs at h with hstale
  cases himport : p.importKey key planes imported with
  | error e => simp [himport] at h
  | ok q =>
      simp only [himport] at h
      obtain ⟨-, slots, rfl, hmem, hfb⟩ := importKey_spec himport
      cases h
      have hsame := ExternalDmaBufPool.mem_lru_iff_mem_lruPos hwf
      have htouch := mem_touchLru { p with slots } key
      have hnodup := nodup_touchLru (p := { p with slots }) hwf.lru_nodup hwf.lruPos_nodup
        hsame key
      have hother : ∀ q : ExternalDmaBufPool, (q.touchLru key).slots = q.slots ∧
          (q.touchLru key).retiring = q.retiring ∧ (q.touchLru key).stale = q.stale ∧
          (q.touchLru key).presenter = q.presenter := by
        intro q
        unfold ExternalDmaBufPool.touchLru
        split_ifs <;> exact ⟨rfl, rfl, rfl, rfl⟩
      obtain ⟨hslots, hret, hst, hpres⟩ := hother { p with slots }
      refine ⟨?_, hpres, ?_, ?_⟩
      · refine
          { lru_nodup := hnodup.1, lruPos_nodup := hnodup.2, mem_lru := ?_, mem_lruPos := ?_
            retiring_nodup := ?_, stale_nodup := ?_, stale_subset := ?_, retiring_subset := ?_ }
        · intro k
          rw [hslots, hmem]
          exact ((htouch k).2 hsame).trans (or_congr_left (hwf.mem_lru k))
        · intro k
          rw [hslots, hmem]
          exact (htouch k).1.trans (or_congr_left (hwf.mem_lruPos k))
        · rw [hret]
          exact hwf.retiring_nodup.erase key
        · rw [hst]
          exact hwf.stale_nodup
        · intro k hk
          rw [hst] at hk
          rw [hret]
          have hne : k ≠ key := fun heq => hstale (heq ▸ hk)
          exact (List.mem_erase_of_ne hne).mpr (hwf.stale_subset k hk)
        · intro k hk
          rw [hret] at hk
          rw [hslots, hmem]
          exact .inl (hwf.retiring_subset k (List.mem_of_mem_erase hk))
      · rw [hslots]
        exact hmem
      · rw [hslots]
        exact hfb

theorem wellFormed_resetGeneration (hwf : p.WellFormed) (width height drmFourcc : ℕ) :
    (p.resetGeneration width height drmFourcc).WellFormed := by
  have hfold : ∀ (keys retiring : List SlotKey), retiring.Nodup →
      (keys.foldl (fun retiring key => retiring.insert key) retiring).Nodup ∧
      ∀ k, k ∈ keys.foldl (fun retiring key => retiring.insert key) retiring ↔
        k ∈ retiring ∨ k ∈ keys := by
    intro keys
    induction keys with
    | nil => exact fun retiring h => ⟨h, by simp⟩
    | cons key keys ih =>
        intro retiring h
        obtain ⟨hnodup, hmem⟩ := ih (retiring.insert key) (h.insert)
        refine ⟨hnodup, fun k => (hmem k).trans ?_⟩
        rw [List.mem_insert_iff, List.mem_cons]
        tauto
  obtain ⟨hnodup, hmem⟩ := hfold p.slots.keys p.retiring hwf.retiring_nodup
  refine
    { lru_nodup := hwf.lru_nodup, lruPos_nodup := hwf.lruPos_nodup, mem_lru := hwf.mem_lru
      mem_lruPos := hwf.mem_lruPos, retiring_nodup := hnodup, stale_nodup := hwf.stale_nodup
      stale_subset := fun k hk => (hmem k).mpr (.inl (hwf.stale_subset k hk))
      retiring_subset := fun k hk => ?_ }
  rcases (hmem k).mp hk with hk | hk
  · exact hwf.retiring_subset k hk
  · exact hk

theorem wellFormed_retire (hwf : p.WellFormed) (key : SlotKey) : (p.retire key).WellFormed := by
  unfold ExternalDmaBufPool.retire
  split_ifs with h
  · refine
      { lru_nodup := hwf.lru_nodup, lruPos_nodup := hwf.lruPos_nodup, mem_lru := hwf.mem_lru
        mem_lruPos := hwf.mem_lruPos, retiring_nodup := hwf.retiring_nodup.insert
        stale_nodup := hwf.stale_nodup.insert, stale_subset := ?_, retiring_subset := ?_ }
    · intro k hk
      rcases List.mem_insert_iff.mp hk with rfl | hk
      · exact List.mem_insert_self
      · exact List.mem_insert_of_mem (hwf.stale_subset k hk)
    · intro k hk
      rcases List.mem_insert_iff.mp hk with rfl | hk
      · exact h
      · exact hwf.retiring_subset k hk
  · exact hwf

theorem retire_slots (p : ExternalDmaBufPool) (key : SlotKey) :
    (p.retire key).slots = p.slots ∧ (p.retire key).presenter = p.presenter := by
  unfold ExternalDmaBufPool.retire
  split_ifs <;> exact ⟨rfl, rfl⟩

/-- The presenter's state is no part of the key sets. -/
theorem wellFormed_of_presenter (hwf : p.WellFormed) (presenter : RingPresenter) :
    ExternalDmaBufPool.WellFormed { p with presenter } :=
  ⟨hwf.lru_nodup, hwf.lruPos_nodup, hwf.mem_lru, hwf.mem_lruPos, hwf.retiring_nodup,
    hwf.stale_nodup, hwf.stale_subset, hwf.retiring_subset⟩

end Specs

/-! ### The invariant -/

structure PoolInv (t : PoolTrace) : Prop where
  fb_ne_zero : ∀ k s, t.pool.slots.lookup k = some s → s.fbId ≠ 0
  pending_cached : ∀ k, t.pool.presenter.pendingKey = some k → k ∈ t.pool.slots
  inHand_cached : ∀ s ∈ t.inHand, s.key ∈ t.pool.slots
  drained_cached : ∀ d, t.drained = some d → d.kind = .fresh →
    d.key ∈ t.pool.slots ∧ t.pool.presenter.scanningKey = some d.key
  sound : t.Sound

theorem poolInv_init (format : SourceFormat) (fenceDeadline : Option ℕ) (maxPool : ℕ) :
    (init format fenceDeadline maxPool).PoolInv where
  fb_ne_zero := by simp [init, ExternalDmaBufPool.create]
  pending_cached := by simp [init, ExternalDmaBufPool.create]
  inHand_cached := by simp [init]
  drained_cached := by simp [init]
  sound := ⟨by simp [init], by simp [init],
    ExternalDmaBufPool.wellFormed_create format fenceDeadline maxPool⟩

theorem poolInv_submitLocked {t : PoolTrace} (hinv : t.PoolInv) {key : SlotKey}
    {planes : List ExternalPlaneInfo} {imported : ImportResult} {pool : ExternalDmaBufPool}
    (h : t.pool.submitLocked key planes imported = .ok pool) (fence : Option SyncFence)
    (damage : List DamageRect) :
    PoolInv { t with pool, inHand := t.inHand ++ [⟨key, fence, damage⟩] } := by
  obtain ⟨hwf, hpres, hmem, hfb⟩ := submitLocked_spec hinv.sound.wellFormed h
  have hgrow : ∀ k ∈ t.pool.slots, k ∈ pool.slots := fun k hk => (hmem k).mpr (.inl hk)
  refine ⟨?_, ?_, ?_, ?_, ⟨hinv.sound.presented, hinv.sound.tornDown, hwf⟩⟩
  · intro k s hs
    rcases hfb k s hs with hs | hs
    · exact hinv.fb_ne_zero k s hs
    · exact hs
  · intro k hk
    rw [hpres] at hk
    exact hgrow k (hinv.pending_cached k hk)
  · intro s hs
    rcases List.mem_append.mp hs with hs | hs
    · exact hgrow _ (hinv.inHand_cached s hs)
    · obtain rfl := List.mem_singleton.mp hs
      exact (hmem key).mpr (.inr rfl)
  · intro d hd hfresh
    obtain ⟨hcached, hscan⟩ := hinv.drained_cached d hd hfresh
    exact ⟨hgrow _ hcached, by rw [hpres]; exact hscan⟩

theorem poolInv_handOff {t : PoolTrace} (hinv : t.PoolInv) {i : ℕ} {s : Staged}
    (hs : t.inHand[i]? = some s) :
    PoolInv { t with
      pool := t.pool.submitHandOff s.key s.fence s.damage, inHand := t.inHand.eraseIdx i } := by
  refine ⟨hinv.fb_ne_zero, ?_, ?_, hinv.drained_cached, ⟨hinv.sound.presented,
    hinv.sound.tornDown, wellFormed_of_presenter hinv.sound.wellFormed _⟩⟩
  · intro k hk
    obtain rfl : s.key = k := Option.some.inj hk
    exact hinv.inHand_cached s (List.mem_of_getElem? hs)
  · intro s' hs'
    exact hinv.inHand_cached s' (List.mem_of_mem_eraseIdx hs')

/-- Steps that change neither the cached keys nor the presenter. -/
theorem poolInv_of_slots {t : PoolTrace} (hinv : t.PoolInv) {pool : ExternalDmaBufPool}
    (hwf : pool.WellFormed) (hslots : pool.slots = t.pool.slots)
    (hpres : pool.presenter = t.pool.presenter) :
    PoolInv { t with pool } := by
  refine ⟨?_, ?_, ?_, ?_, ⟨hinv.sound.presented, hinv.sound.tornDown, hwf⟩⟩
  · rw [hslots]
    exact hinv.fb_ne_zero
  · rw [hslots, hpres]
    exact hinv.pending_cached
  · rw [hslots]
    exact hinv.inHand_cached
  · rw [hslots, hpres]
    exact hinv.drained_cached

theorem poolInv_acquireDrain {t : PoolTrace} (hinv : t.PoolInv) (ptr : PtrWidth)
    (wait : FenceWait) :
    PoolInv { t with
      pool := (t.pool.acquireDrain ptr wait).1
      drained := some (t.pool.acquireDrain ptr wait).2 } := by
  have hpool : (t.pool.acquireDrain ptr wait).1 =
      { t.pool with presenter := (t.pool.presenter.acquire ptr wait).1 } := rfl
  have hd : (t.pool.acquireDrain ptr wait).2 = (t.pool.presenter.acquire ptr wait).2 := rfl
  rw [hpool, hd]
  have hwf := wellFormed_of_presenter hinv.sound.wellFormed
    (t.pool.presenter.acquire ptr wait).1
  refine ⟨hinv.fb_ne_zero, fun k hk => ?_, hinv.inHand_cached, fun d hd hfresh => ?_,
    ⟨hinv.sound.presented, hinv.sound.tornDown, hwf⟩⟩
  · rcases acquire_cases ptr wait t.pool.presenter with
      ⟨-, key, fence, damage, -, -, hpend', -⟩ | ⟨-, -, hpend', -⟩
    all_goals simp [hpend'] at hk
  · rcases acquire_cases ptr wait t.pool.presenter with
      ⟨-, key, fence, damage, hpend, hacq, -, hscan, -⟩ | ⟨-, hacq, -⟩
    all_goals
      rw [hacq] at hd
      obtain rfl := Option.some.inj hd
    · exact ⟨hinv.pending_cached key hpend, hscan⟩
    · cases hkey : t.pool.presenter.scanningKey <;>
        simp [RingPresenter.hold, hkey] at hfresh

/-- The locked section of `acquire` while no key in use is reclaimable. -/
theorem poolInv_acquireLocked {t : PoolTrace} (hinv : t.PoolInv) {d : Acquired}
    (hd : t.drained = some d) (hok : ∀ k ∈ t.inUse, t.pool.reclaimable k = false) :
    (t.afterLocked d (t.pool.acquireLocked d).1 (t.pool.acquireLocked d).2).PoolInv := by
  obtain ⟨hrem, hwf⟩ := ExternalDmaBufPool.removed_acquireLocked hinv.sound.wellFormed d
  set after := (t.pool.acquireLocked d).1 with hafter
  have hkept : ∀ k ∈ t.pool.slots, t.pool.reclaimable k = false → k ∈ after.slots :=
    fun k hk hrec => (hrem.mem_slots k).mpr ⟨hk, hrec⟩
  have hpending : ∀ k, t.pool.presenter.pendingKey = some k → t.pool.reclaimable k = false :=
    fun k hk => hok k (by simp [inUse, hk])
  have hinHand : ∀ s ∈ t.inHand, t.pool.reclaimable s.key = false :=
    fun s hs => hok _ (by simp [inUse]; exact .inr (.inl ⟨s, hs, rfl⟩))
  have hheld : ∀ k ∈ t.held.map (·.key), t.pool.reclaimable k = false :=
    fun k hk => hok k (List.mem_append_right _ hk)
  have hscanning : ∀ k, t.pool.presenter.scanningKey = some k → t.pool.reclaimable k = false :=
    fun k hk => ExternalDmaBufPool.reclaimable_of_referenced (by simp [isReferenced, hk])
  refine ⟨?_, ?_, ?_, by simp [afterLocked], ⟨?_, ?_, hwf⟩⟩
  · intro k s hs
    rw [show (t.afterLocked d after _).pool = after from rfl, hrem.lookup] at hs
    split_ifs at hs
    exact hinv.fb_ne_zero k s hs
  · intro k hk
    rw [show (t.afterLocked d after _).pool = after from rfl, hrem.presenter] at hk
    exact hkept k (hinv.pending_cached k hk) (hpending k hk)
  · intro s hs
    exact hkept s.key (hinv.inHand_cached s hs) (hinHand s hs)
  · intro r hr
    rcases List.mem_append.mp hr with hr | hr
    · exact hinv.sound.presented r hr
    · split_ifs at hr with hfresh
      · -- the drained key is the scanning one, cached and referenced
        obtain ⟨hcached, hscan⟩ := hinv.drained_cached d hd hfresh
        obtain ⟨s, hs⟩ := Option.isSome_iff_exists.mp (AList.lookup_isSome.mpr hcached)
        have hs' : after.slots.lookup d.key = some s := by
          rw [hrem.lookup, hscanning d.key hscan]
          simpa using hs
        have hresult : (t.pool.acquireLocked d).2 = some ⟨s.fbId, d.token, d.fence, d.damage⟩ := by
          simp [ExternalDmaBufPool.acquireLocked, ExternalDmaBufPool.lookupFb, hfresh, hs]
        rw [hresult] at hr
        obtain rfl : r = ⟨d.key, s.fbId, some s.fbId⟩ := by simpa [hs'] using hr
        exact ⟨hinv.fb_ne_zero d.key s hs, rfl⟩
      · exact absurd hr (by simp)
  · intro x hx
    rcases List.mem_append.mp hx with hx | hx
    · exact hinv.sound.tornDown x hx
    · obtain ⟨k, hk, rfl⟩ := List.mem_map.mp hx
      obtain ⟨hmem, hgone⟩ := List.mem_filter.mp hk
      have hrec : t.pool.reclaimable k = true := by
        by_contra hrec
        exact absurd (hkept k hmem (by simpa using hrec)) (by simpa using hgone)
      refine ⟨fun h => ?_, fun h => ?_, fun h => ?_⟩
      · exact absurd (hpending k h) (by simp [hrec])
      · exact absurd (hscanning k h) (by simp [hrec])
      · exact absurd (hheld k h) (by simp [hrec])

theorem poolInv_release {t : PoolTrace} (hinv : t.PoolInv) (hd : t.drained = none) (i : ℕ)
    (token : Token) :
    PoolInv { t with pool := (t.pool.release token).1, held := t.held.eraseIdx i } := by
  have hpool : (t.pool.release token).1 =
      { t.pool with presenter := (t.pool.presenter.release token).1 } := rfl
  rw [hpool]
  refine ⟨hinv.fb_ne_zero, ?_, hinv.inHand_cached, by simp [hd], ⟨hinv.sound.presented,
    hinv.sound.tornDown, wellFormed_of_presenter hinv.sound.wellFormed _⟩⟩
  simpa using hinv.pending_cached

/-! ### Runs -/

theorem poolInv_step (ptr : PtrWidth) (t : PoolTrace) (e : PoolEvent) (hinv : t.PoolInv)
    (hok : t.StepOk e) : (t.step ptr e).PoolInv := by
  cases e with
  | submitLocked key planes imported fence damage =>
      simp only [step]
      split
      · rename_i pool h
        exact poolInv_submitLocked hinv h fence damage
      · exact hinv
  | handOff i =>
      simp only [step]
      split
      · rename_i s hs
        exact poolInv_handOff hinv hs
      · exact hinv
  | resetGeneration width height drmFourcc =>
      exact poolInv_of_slots hinv (wellFormed_resetGeneration hinv.sound.wellFormed _ _ _) rfl rfl
  | retire key =>
      obtain ⟨hslots, hpres⟩ := retire_slots t.pool key
      exact poolInv_of_slots hinv (wellFormed_retire hinv.sound.wellFormed key) hslots hpres
  | acquireDrain wait =>
      simp only [step]
      split
      · exact poolInv_acquireDrain hinv ptr wait
      · exact hinv
  | acquireLocked =>
      cases hd : t.drained with
      | none => simpa only [step, hd] using hinv
      | some d =>
          simp only [step, hd]
          exact poolInv_acquireLocked hinv hd (hok (by simp [hd]))
  | release i =>
      simp only [step]
      split
      · rename_i b hd hb
        exact poolInv_release hinv hd i b.token
      · exact hinv

/-- In every interleaving whose locked sections reach no key in use, the pool presents live
framebuffers only and tears none down in flight. -/
theorem sound_of_meets (ptr : PtrWidth) (format : SourceFormat) (fenceDeadline : Option ℕ)
    (maxPool : ℕ) (es : List PoolEvent)
    (hes : Meets (step ptr) StepOk (init format fenceDeadline maxPool) es) :
    (run (step ptr) (init format fenceDeadline maxPool) es).Sound :=
  (run_invariant (poolInv_step ptr) (poolInv_init format fenceDeadline maxPool) hes).sound

/-- A one-plane import that succeeds with framebuffer `fb`. -/
def importAs (key : SlotKey) (fb : ℕ+) : PoolEvent :=
  .submitLocked key [⟨3, 0, 64⟩] (.ok fb) none []

/-- Two buffers under a budget of one: the first is evicted once both its release and the
second's acquisition are through. -/
theorem sound_of_meets_replay :
    (run (step ⟨64, by decide⟩) (init ⟨0, 0, 4, 4⟩ none 1)
      [importAs 1 10, .handOff 0, .acquireDrain fun _ _ => true, .acquireLocked,
        importAs 2 11, .handOff 0, .acquireDrain fun _ _ => true, .acquireLocked,
        .release 0, .acquireDrain fun _ _ => true, .acquireLocked]).Sound :=
  sound_of_meets _ _ none 1 _ (by decide)

/-- The second buffer is imported while the first scans out and the budget is one; the commit
thread prunes it before its submit reaches the presenter. -/
def prunedInHand : List PoolEvent :=
  [importAs 1 10, .handOff 0, .acquireDrain fun _ _ => true, .acquireLocked,
    importAs 2 11, .acquireDrain fun _ _ => true, .acquireLocked,
    .handOff 0, .acquireDrain fun _ _ => true, .acquireLocked]

/-- The first buffer is held over two acquisitions; the release of the older one ends the
presenter's reference, and the key is pruned under the younger one. -/
def prunedWhileHeld : List PoolEvent :=
  [importAs 1 10, .handOff 0, .acquireDrain fun _ _ => true, .acquireLocked,
    .acquireDrain fun _ _ => true, .acquireLocked,
    importAs 2 11, .handOff 0, .acquireDrain fun _ _ => true, .acquireLocked,
    .release 0, .acquireDrain fun _ _ => true, .acquireLocked]

theorem not_sound :
    ¬ (run (step ⟨64, by decide⟩) (init ⟨0, 0, 4, 4⟩ none 1) prunedInHand).Sound ∧
    ¬ (run (step ⟨64, by decide⟩) (init ⟨0, 0, 4, 4⟩ none 1) prunedWhileHeld).Sound := by
  constructor
  · intro h
    exact absurd (h.presented ⟨2, 0, none⟩ (by decide)).1 (by decide)
  · intro h
    exact absurd (h.tornDown ⟨1, none, some 2, [1, 2]⟩ (by decide)).2.2 (by decide)

end PoolTrace

end DrmCxx.Scene
