import DrmCxx.Scene.ExternalDmaBufPool
import Mathlib.Data.List.Nodup
import Mathlib.Tactic.Ring

/-!
# What a locked section evicts

The pool's key sets stay consistent, and the sweep and the prune of one `acquire` remove exactly
the reclaimable keys.
-/

namespace DrmCxx.Scene

open List

namespace ExternalDmaBufPool

/-! ### Consistent key sets -/

/-- `slots_`, `lru_` and `lru_pos_` hold the same keys once each, and
`stale_ ⊆ retiring_ ⊆ slots_`. -/
structure WellFormed (p : ExternalDmaBufPool) : Prop where
  lru_nodup : p.lru.Nodup
  lruPos_nodup : p.lruPos.Nodup
  mem_lru : ∀ k, k ∈ p.lru ↔ k ∈ p.slots
  mem_lruPos : ∀ k, k ∈ p.lruPos ↔ k ∈ p.slots
  retiring_nodup : p.retiring.Nodup
  stale_nodup : p.stale.Nodup
  stale_subset : ∀ k ∈ p.stale, k ∈ p.retiring
  retiring_subset : ∀ k ∈ p.retiring, k ∈ p.slots

theorem wellFormed_create (format : SourceFormat) (fenceDeadline : Option ℕ) (maxPool : ℕ) :
    (create format fenceDeadline maxPool).WellFormed := by
  constructor <;> simp [create]

/-- `p'` is `p` with the keys of `S` torn down. -/
structure Removed (S : SlotKey → Bool) (p p' : ExternalDmaBufPool) : Prop where
  lookup : ∀ k, p'.slots.lookup k = if S k then none else p.slots.lookup k
  keys : p'.slots.keys = p.slots.keys.filter (!S ·)
  lru : p'.lru = p.lru.filter (!S ·)
  lruPos : p'.lruPos = p.lruPos.filter (!S ·)
  stale : p'.stale = p.stale.filter (!S ·)
  presenter : p'.presenter = p.presenter
  maxPool : p'.maxPool = p.maxPool

theorem Removed.refl (p : ExternalDmaBufPool) : Removed (fun _ => false) p p := by
  constructor <;> simp

theorem Removed.trans {S T : SlotKey → Bool} {p p' p'' : ExternalDmaBufPool}
    (h : Removed S p p') (h' : Removed T p' p'') : Removed (fun k => S k || T k) p p'' := by
  refine ⟨?_, ?_, ?_, ?_, ?_, h'.presenter.trans h.presenter, h'.maxPool.trans h.maxPool⟩
  · intro k
    rw [h'.lookup, h.lookup]
    cases S k <;> cases T k <;> simp
  · rw [h'.keys, h.keys, filter_filter]
    exact filter_congr fun k _ => by cases S k <;> cases T k <;> rfl
  · rw [h'.lru, h.lru, filter_filter]
    exact filter_congr fun k _ => by cases S k <;> cases T k <;> rfl
  · rw [h'.lruPos, h.lruPos, filter_filter]
    exact filter_congr fun k _ => by cases S k <;> cases T k <;> rfl
  · rw [h'.stale, h.stale, filter_filter]
    exact filter_congr fun k _ => by cases S k <;> cases T k <;> rfl

theorem Removed.congr {S T : SlotKey → Bool} {p p' : ExternalDmaBufPool} (h : Removed S p p')
    (hST : ∀ k, S k = T k) : Removed T p p' :=
  (funext hST : S = T) ▸ h

theorem Removed.mem_slots {S : SlotKey → Bool} {p p' : ExternalDmaBufPool}
    (h : Removed S p p') (k : SlotKey) : k ∈ p'.slots ↔ k ∈ p.slots ∧ S k = false := by
  rw [← AList.lookup_isSome, ← AList.lookup_isSome, h.lookup]
  cases S k <;> simp

/-- Removing keys keeps the sets consistent when `retiring` loses them too. -/
theorem Removed.wellFormed {S : SlotKey → Bool} {p p' : ExternalDmaBufPool}
    (h : Removed S p p') (hwf : p.WellFormed)
    (hret : p'.retiring = p.retiring.filter (!S ·)) : p'.WellFormed where
  lru_nodup := h.lru ▸ hwf.lru_nodup.filter _
  lruPos_nodup := h.lruPos ▸ hwf.lruPos_nodup.filter _
  mem_lru := by
    intro k
    rw [h.lru, mem_filter, h.mem_slots, hwf.mem_lru]
    simp
  mem_lruPos := by
    intro k
    rw [h.lruPos, mem_filter, h.mem_slots, hwf.mem_lruPos]
    simp
  retiring_nodup := hret ▸ hwf.retiring_nodup.filter _
  stale_nodup := h.stale ▸ hwf.stale_nodup.filter _
  stale_subset := by
    intro k hk
    rw [h.stale, mem_filter] at hk
    rw [hret, mem_filter]
    exact ⟨hwf.stale_subset k hk.1, hk.2⟩
  retiring_subset := by
    intro k hk
    rw [hret, mem_filter] at hk
    exact (h.mem_slots k).mpr ⟨hwf.retiring_subset k hk.1, by simpa using hk.2⟩

theorem erase_eq_filter_of_nodup {l : List SlotKey} (h : l.Nodup) (key : SlotKey) :
    l.erase key = l.filter (fun k => !decide (k = key)) := by
  rw [h.erase_eq_filter]
  exact filter_congr fun k _ => by simp [bne, BEq.beq]

theorem removed_evict {p : ExternalDmaBufPool} (hlru : p.lru.Nodup) (hpos : p.lruPos.Nodup)
    (hstale : p.stale.Nodup) (hmem : ∀ k, k ∈ p.lru ↔ k ∈ p.lruPos) (key : SlotKey) :
    Removed (fun k => decide (k = key)) p (p.evict key) where
  lookup := by
    intro k
    by_cases h : k = key
    · subst h
      simp [evict]
    · simp [evict, h, AList.lookup_erase_ne h]
  keys := by
    simp only [evict, AList.keys_erase]
    exact erase_eq_filter_of_nodup p.slots.keys_nodup key
  lru := by
    simp only [evict]
    split_ifs with h
    · exact erase_eq_filter_of_nodup hlru key
    · refine (filter_eq_self.mpr ?_).symm
      intro k hk
      have : k ≠ key := fun heq => h (heq ▸ (hmem k).mp hk)
      simpa using this
  lruPos := erase_eq_filter_of_nodup hpos key
  stale := erase_eq_filter_of_nodup hstale key
  presenter := rfl
  maxPool := rfl

/-! ### The sweep -/

theorem mem_lru_iff_mem_lruPos {p : ExternalDmaBufPool} (hwf : p.WellFormed) :
    ∀ k, k ∈ p.lru ↔ k ∈ p.lruPos :=
  fun k => (hwf.mem_lru k).trans (hwf.mem_lruPos k).symm

/-- A retired key that no commit references. -/
def sweepable (p : ExternalDmaBufPool) (key : SlotKey) : Bool :=
  decide (key ∈ p.retiring) && !p.presenter.isReferenced key

theorem removed_sweepKeys {p : ExternalDmaBufPool} (hwf : p.WellFormed) (keys : List SlotKey) :
    Removed (fun k => decide (k ∈ keys) && !p.presenter.isReferenced k) p (sweepKeys keys p) ∧
      (sweepKeys keys p).retiring =
        p.retiring.filter (fun k => !(decide (k ∈ keys) && !p.presenter.isReferenced k)) := by
  induction keys generalizing p with
  | nil => exact ⟨by simpa [sweepKeys] using Removed.refl p, by simp [sweepKeys]⟩
  | cons key keys ih =>
      by_cases href : p.presenter.isReferenced key = true
      · obtain ⟨hrem, hret⟩ := ih hwf
        have hset : ∀ k, (decide (k ∈ keys) && !p.presenter.isReferenced k) =
            (decide (k ∈ key :: keys) && !p.presenter.isReferenced k) := by
          intro k
          by_cases hk : k = key
          · simp [hk, href]
          · simp [hk]
        simp only [sweepKeys, href, if_true]
        refine ⟨hrem.congr hset, hret.trans ?_⟩
        exact filter_congr fun k _ => by rw [hset]
      · have hstep : Removed (fun k => decide (k = key)) p
            ({ p with retiring := p.retiring.erase key }.evict key) := by
          have := removed_evict (p := { p with retiring := p.retiring.erase key })
            hwf.lru_nodup hwf.lruPos_nodup hwf.stale_nodup
            (fun k => mem_lru_iff_mem_lruPos hwf k) key
          exact ⟨this.lookup, this.keys, this.lru, this.lruPos, this.stale, rfl, rfl⟩
        have hretiring : ({ p with retiring := p.retiring.erase key }.evict key).retiring =
            p.retiring.filter (fun k => !decide (k = key)) :=
          erase_eq_filter_of_nodup hwf.retiring_nodup key
        obtain ⟨hrem, hret⟩ := ih (hstep.wellFormed hwf hretiring)
        have hset : ∀ k, (decide (k = key) ||
              (decide (k ∈ keys) && !p.presenter.isReferenced k)) =
            (decide (k ∈ key :: keys) && !p.presenter.isReferenced k) := by
          intro k
          by_cases hk : k = key
          · simp [hk, href]
          · simp [hk]
        simp only [sweepKeys, href, if_false, Bool.false_eq_true]
        rw [hstep.presenter] at hrem hret
        refine ⟨(hstep.trans hrem).congr hset, ?_⟩
        rw [hret, hretiring, filter_filter]
        refine filter_congr fun k _ => ?_
        rw [← hset]
        cases decide (k = key) <;> simp

theorem removed_sweepRetiring {p : ExternalDmaBufPool} (hwf : p.WellFormed) :
    Removed p.sweepable p p.sweepRetiring ∧
      p.sweepRetiring.retiring = p.retiring.filter (!p.sweepable ·) :=
  removed_sweepKeys hwf p.retiring

/-! ### The prune -/

/-- The keys no commit references, least recently used first. -/
def idle (p : ExternalDmaBufPool) : List SlotKey :=
  p.lru.filter (fun key => !p.presenter.isReferenced key)

theorem victim_eq_head? (p : ExternalDmaBufPool) : p.victim = p.idle.head? :=
  (head?_filter).symm

theorem removed_pruneLoop {p : ExternalDmaBufPool} (hwf : p.WellFormed)
    (hidle : ∀ k ∈ p.idle, k ∉ p.retiring) {fuel : ℕ} (hfuel : p.lru.length ≤ fuel) :
    Removed (fun k => decide (k ∈ p.idle.take (p.slots.keys.length - p.maxPool))) p
        (pruneLoop fuel p) ∧
      (pruneLoop fuel p).retiring = p.retiring := by
  induction fuel generalizing p with
  | zero =>
      have hnil : p.lru = [] := List.length_eq_zero_iff.mp (Nat.le_zero.mp hfuel)
      simpa [pruneLoop, idle, hnil] using Removed.refl p
  | succ fuel ih =>
      have hlen : p.slots.keys.length = p.slots.entries.length := by simp [AList.keys, keys]
      by_cases hsize : p.slots.entries.length ≤ p.maxPool
      · have hzero : p.slots.keys.length - p.maxPool = 0 := by omega
        simpa [pruneLoop, hsize, hzero] using Removed.refl p
      · cases hvictim : p.victim with
        | none =>
            have hnil : p.idle = [] := by
              rw [victim_eq_head?] at hvictim
              exact List.head?_eq_none_iff.mp hvictim
            simpa [pruneLoop, hsize, hvictim, hnil] using Removed.refl p
        | some key =>
            obtain ⟨rest, hrest⟩ : ∃ rest, p.idle = key :: rest := by
              rw [victim_eq_head?] at hvictim
              exact List.head?_eq_some_iff.mp hvictim
            have hmem : key ∈ p.idle := hrest ▸ List.mem_cons_self
            have hlru : key ∈ p.lru := (mem_filter.mp hmem).1
            have hstep := removed_evict hwf.lru_nodup hwf.lruPos_nodup hwf.stale_nodup
              (mem_lru_iff_mem_lruPos hwf) key
            have hretiring : (p.evict key).retiring =
                p.retiring.filter (fun k => !decide (k = key)) := by
              refine (filter_eq_self.mpr ?_).symm
              intro k hk
              have : k ≠ key := fun heq => hidle key hmem (heq ▸ hk)
              simpa using this
            have hnodup : (key :: rest).Nodup := hrest ▸ hwf.lru_nodup.filter _
            -- the remaining idle keys are those behind the victim
            have hidle' : (p.evict key).idle = rest := by
              have hfilter : (p.evict key).idle =
                  p.idle.filter (fun k => !decide (k = key)) := by
                rw [idle, hstep.lru, hstep.presenter, idle, filter_filter, filter_filter]
                exact filter_congr fun k _ => Bool.and_comm _ _
              rw [hfilter, hrest, filter_cons_of_neg (by simp)]
              refine filter_eq_self.mpr fun k hk => ?_
              have : k ≠ key := fun heq => (List.nodup_cons.mp hnodup).1 (heq ▸ hk)
              simpa using this
            have hkeys : (p.evict key).slots.keys.length = p.slots.keys.length - 1 := by
              have hslot : key ∈ p.slots.keys := (hwf.mem_lru key).mp hlru
              simpa [evict] using List.length_erase_of_mem hslot
            have hfuel' : (p.evict key).lru.length ≤ fuel := by
              have herase : (p.evict key).lru = p.lru.erase key := by
                simp [evict, (mem_lru_iff_mem_lruPos hwf key).mp hlru]
              rw [herase, List.length_erase_of_mem hlru]
              omega
            obtain ⟨hrem, hret⟩ := ih (hstep.wellFormed hwf hretiring)
              (by
                intro k hk
                rw [hidle'] at hk
                exact hidle k (hrest ▸ List.mem_cons_of_mem key hk)) hfuel'
            simp only [pruneLoop, hsize, if_false, hvictim]
            refine ⟨(hstep.trans hrem).congr ?_, hret⟩
            intro k
            have hcount : p.slots.keys.length - p.maxPool =
                (p.slots.keys.length - 1 - p.maxPool) + 1 := by omega
            rw [hidle', hkeys, hstep.maxPool, hrest, hcount, List.take_succ_cons]
            simp

/-! ### One locked section -/

/-- The keys the prune reaches once the sweep is done. -/
def prunable (p : ExternalDmaBufPool) : List SlotKey :=
  (p.idle.filter (fun key => !decide (key ∈ p.retiring))).take
    ((p.slots.keys.filter (!p.sweepable ·)).length - p.maxPool)

/-- What the locked section of the next `acquire` would tear down. -/
def reclaimable (p : ExternalDmaBufPool) (key : SlotKey) : Bool :=
  p.sweepable key || decide (key ∈ p.prunable)

theorem removed_acquireLocked {p : ExternalDmaBufPool} (hwf : p.WellFormed) (d : Acquired) :
    Removed p.reclaimable p (p.acquireLocked d).1 ∧ (p.acquireLocked d).1.WellFormed := by
  obtain ⟨hsweep, hret⟩ := removed_sweepRetiring hwf
  have hwf' := hsweep.wellFormed hwf hret
  have hidle : p.sweepRetiring.idle =
      p.idle.filter (fun key => !decide (key ∈ p.retiring)) := by
    rw [idle, hsweep.lru, hsweep.presenter, idle, filter_filter, filter_filter]
    refine filter_congr fun k _ => ?_
    simp only [sweepable]
    cases p.presenter.isReferenced k <;> simp
  have hnotret : ∀ k ∈ p.sweepRetiring.idle, k ∉ p.sweepRetiring.retiring := by
    intro k hk
    rw [hidle] at hk
    rw [hret]
    intro hmem
    exact absurd (mem_filter.mp hmem).1 (by simpa using (mem_filter.mp hk).2)
  obtain ⟨hprune, hret'⟩ := removed_pruneLoop hwf' hnotret le_rfl
  have htotal : Removed p.reclaimable p (p.acquireLocked d).1 := by
    refine (hsweep.trans hprune).congr fun k => ?_
    rw [hidle, hsweep.keys, hsweep.maxPool]
    rfl
  refine ⟨htotal, hprune.wellFormed hwf' ?_⟩
  rw [hret']
  refine (filter_eq_self.mpr fun k hk => ?_).symm
  have : k ∉ p.sweepRetiring.idle := fun hmem => hnotret k hmem hk
  simpa using fun hmem => this (List.mem_of_mem_take hmem)

/-- A referenced key is never torn down. -/
theorem reclaimable_of_referenced {p : ExternalDmaBufPool} {key : SlotKey}
    (h : p.presenter.isReferenced key = true) : p.reclaimable key = false := by
  have hidle : key ∉ p.prunable := by
    intro hmem
    have := (mem_filter.mp (mem_filter.mp (List.mem_of_mem_take hmem)).1).2
    simp [h] at this
  simp [reclaimable, sweepable, h, hidle]

end ExternalDmaBufPool

end DrmCxx.Scene
