import DrmCxx.Lib.Run
import DrmCxx.Lib.SlotMap
import DrmCxx.Scene.LayerHandles

/-!
# Layer handles

The 32-bit table behaves as a slot map as long as its slots can be numbered. Over a run, the
handles that find a layer are those that were given out and not removed since.
-/

namespace DrmCxx.Scene

open Lib (SlotMap TableSlot Handle)

namespace HandleTable

variable {S : Type*}

/-! ### The slot map behind the table -/

def LayerHandle.toHandle (h : LayerHandle) : Handle := ⟨h.id.toNat, h.generation.toNat⟩

theorem LayerHandle.toHandle_inj {h h' : LayerHandle} : h.toHandle = h'.toHandle ↔ h = h' := by
  cases h
  cases h'
  simp [toHandle, UInt32.toNat_inj]

theorem LayerHandle.toNat_pred {h : LayerHandle} (hid : h.id ≠ 0) :
    (h.id - 1).toNat = h.id.toNat - 1 := by
  refine UInt32.toNat_sub_of_le _ _ (UInt32.le_iff_toNat_le.mpr ?_)
  exact Nat.one_le_iff_ne_zero.mpr fun h0 => hid (UInt32.toNat_inj.mp h0)

def Slot.toTableSlot (s : Slot S) : TableSlot (Layer S) := ⟨s.generation.toNat, s.sceneLayer⟩

/-- The table and the slot map hold the same, and every slot has an id. -/
structure Refines (t : HandleTable S) (m : SlotMap (Layer S)) : Prop where
  slots : m.slots = t.slots.map Slot.toTableSlot
  freeIds : m.freeIds = t.freeIds.map UInt32.toNat
  alive : ∀ s ∈ t.slots, s.alive = s.sceneLayer.isSome
  numbered : t.slots.length < 2 ^ 32

theorem refines_empty (usable : Bool) :
    Refines (S := S) { streamUsable := usable } SlotMap.empty :=
  ⟨rfl, rfl, by simp, by simp⟩

namespace Refines

variable {t : HandleTable S} {m : SlotMap (Layer S)}

theorem length_slots (hr : Refines t m) : m.slots.length = t.slots.length := by
  rw [hr.slots, List.length_map]

theorem layerCount_eq (hr : Refines t m) :
    t.layerCount = m.slots.length - m.freeIds.length := by
  rw [layerCount, hr.length_slots, hr.freeIds, List.length_map]

theorem slotFor_eq_some (hr : Refines t m) {h : LayerHandle} {s : Slot S} :
    t.slotFor h = some s ↔ h.id ≠ 0 ∧ t.slots[h.id.toNat - 1]? = some s ∧
      s.generation = h.generation ∧ s.sceneLayer.isSome := by
  by_cases hid : h.id = 0
  · simp [slotFor, hid]
  · unfold slotFor
    rw [LayerHandle.toNat_pred hid]
    constructor
    · intro hs
      obtain ⟨hs, hok⟩ := Option.filter_eq_some_iff.mp (Option.ite_none_left_eq_some.mp hs).2
      simp only [Bool.and_eq_true, decide_eq_true_eq] at hok
      exact ⟨hid, hs, hok.2, hr.alive s (List.mem_of_getElem? hs) ▸ hok.1⟩
    · rintro ⟨-, hs, hg, hl⟩
      have hlt := (List.getElem?_eq_some_iff.mp hs).1
      rw [if_neg (by rintro (h0 | h0); exacts [hid h0, by omega]), hs, Option.filter_some,
        hr.alive s (List.mem_of_getElem? hs), hl, hg]
      simp

/-- The table's lookup is the slot map's. -/
theorem getLayer_eq (hr : Refines t m) (h : LayerHandle) : t.getLayer h = m.find? h.toHandle := by
  ext l
  rw [SlotMap.find?_eq_some, getLayer, Option.bind_eq_some_iff, hr.slots, List.getElem?_map]
  constructor
  · rintro ⟨s, hs, hl⟩
    obtain ⟨hid, hs, hg, -⟩ := hr.slotFor_eq_some.mp hs
    refine ⟨fun h0 => hid (UInt32.toNat_inj.mp h0), s.toTableSlot, ?_, ?_, hl⟩
    · rw [show h.toHandle.id = h.id.toNat from rfl, hs, Option.map_some]
    · exact congrArg UInt32.toNat hg
  · rintro ⟨hid, ts, hts, hg, hl⟩
    obtain ⟨s, hs, rfl⟩ := Option.map_eq_some_iff.mp hts
    have hl' : s.sceneLayer = some l := hl
    refine ⟨s, hr.slotFor_eq_some.mpr ⟨?_, hs, UInt32.toNat_inj.mp hg, by rw [hl']; rfl⟩, hl'⟩
    intro h0
    exact hid (congrArg UInt32.toNat h0)

theorem slotFor_isSome (hr : Refines t m) (h : LayerHandle) :
    (t.slotFor h).isSome ↔ (m.find? h.toHandle).isSome := by
  rw [← hr.getLayer_eq, getLayer]
  cases hs : t.slotFor h with
  | none => simp
  | some s => simpa using (hr.slotFor_eq_some.mp hs).2.2.2

theorem removeLayer (hr : Refines t m) (h : LayerHandle) :
    Refines (t.removeLayer h) (m.remove h.toHandle) := by
  have hfound := hr.slotFor_isSome h
  unfold HandleTable.removeLayer SlotMap.remove
  cases hs : t.slotFor h with
  | none =>
    rw [hs] at hfound
    rw [dif_neg (fun h0 => by simpa using hfound.mpr h0)]
    exact hr
  | some s =>
    rw [hs] at hfound
    rw [dif_pos (hfound.mp rfl)]
    obtain ⟨hid, hs, hg, -⟩ := hr.slotFor_eq_some.mp hs
    have hpred := LayerHandle.toNat_pred hid
    refine ⟨?_, ?_, ?_, by simpa using hr.numbered⟩
    · simp [hpred, hr.slots, LayerHandle.toHandle, Slot.toTableSlot, hg, List.map_set]
    · simp [hpred, hr.freeIds, LayerHandle.toHandle]
    · intro s' hs'
      rcases List.mem_or_eq_of_mem_set hs' with hs' | rfl
      · exact hr.alive s' hs'
      · rfl

/-! ### A layer is added -/

theorem next_lt_or (hr : Refines t m) :
    (t.freeIds = [] ∧ m.next = t.slots.length ∧
      t.takeSlot = (UInt32.ofNat m.next, { t with slots := t.slots ++ [{}] })) ∨
    ∃ i : UInt32, t.freeIds = t.freeIds.dropLast ++ [i] ∧ i.toNat = m.next ∧
      m.next < t.slots.length ∧ t.takeSlot = (i, { t with freeIds := t.freeIds.dropLast }) := by
  unfold takeSlot
  cases hlast : t.freeIds.getLast? with
  | none =>
    have hnil := List.getLast?_eq_none_iff.mp hlast
    have hnext : m.next = t.slots.length := by
      rw [SlotMap.next, hr.freeIds, hnil, ← hr.length_slots]
      rfl
    exact .inl ⟨hnil, hnext, by rw [hnext]⟩
  | some i =>
    have hfree : t.freeIds = t.freeIds.dropLast ++ [i] := by
      obtain ⟨l, hl⟩ := List.getLast?_eq_some_iff.mp hlast
      simp [hl]
    have hnext : i.toNat = m.next := by
      rw [SlotMap.next, hr.freeIds, List.getLast?_map, hlast]
      rfl
    refine .inr ⟨i, hfree, hnext, ?_, rfl⟩
    have hmem : m.next ∈ m.freeIds := by
      rw [hr.freeIds, hfree]
      simp [hnext]
    obtain ⟨ts, hts, -⟩ := Option.map_eq_some_iff.mp ((m.mem_free _).mp hmem)
    exact hr.length_slots ▸ (List.getElem?_eq_some_iff.mp hts).1

theorem takeSlot_fst (hr : Refines t m) : t.takeSlot.1.toNat = m.next := by
  rcases hr.next_lt_or with ⟨-, hnext, h⟩ | ⟨i, -, hnext, -, h⟩
  · rw [h, UInt32.toNat_ofNat_of_lt']
    exact hnext ▸ hr.numbered
  · rw [h, hnext]

theorem next_lt_takeSlot (hr : Refines t m) : m.next < t.takeSlot.2.slots.length := by
  rcases hr.next_lt_or with ⟨-, hnext, h⟩ | ⟨i, -, -, hlt, h⟩
  · simp [h, hnext]
  · simpa [h] using hlt

theorem freeIds_takeSlot (hr : Refines t m) : t.takeSlot.2.freeIds = t.freeIds.dropLast := by
  rcases hr.next_lt_or with ⟨hnil, -, h⟩ | ⟨i, -, -, -, h⟩
  · simp [h, hnil]
  · rw [h]

theorem set_takeSlot (hr : Refines t m) (b : Slot S) :
    t.takeSlot.2.slots.set m.next b = Lib.putAt t.slots m.next b := by
  unfold Lib.putAt
  rcases hr.next_lt_or with ⟨-, hnext, h⟩ | ⟨i, -, -, hlt, h⟩
  · simp [h, hnext]
  · rw [h, List.set_eq_take_append_cons_drop, if_pos hlt]

theorem generation_takeSlot (hr : Refines t m) :
    ((t.takeSlot.2.slots[m.next]?.map Slot.generation).getD 0).toNat = m.generationAt m.next := by
  unfold SlotMap.generationAt
  rw [hr.slots, List.getElem?_map]
  rcases hr.next_lt_or with ⟨-, hnext, h⟩ | ⟨i, -, -, hlt, h⟩
  · simp [h, hnext]
  · simp [h, List.getElem?_eq_getElem hlt, Slot.toTableSlot]

/-- While the slots can be numbered, the layer gets the slot map's next handle. -/
theorem toHandle_occupy (hr : Refines t m) (hroom : t.takeSlot.2.slots.length < 2 ^ 32)
    (source : S) (desc : LayerDesc) :
    (t.takeSlot.2.occupy t.takeSlot.1 source desc).2.toHandle = m.nextHandle := by
  have hlt := hr.next_lt_takeSlot
  unfold occupy LayerHandle.toHandle SlotMap.nextHandle
  rw [hr.takeSlot_fst]
  simp only [UInt32.toNat_add, hr.takeSlot_fst, hr.generation_takeSlot, UInt32.toNat_one]
  rw [Nat.mod_eq_of_lt (by omega)]
  rfl

theorem occupy (hr : Refines t m) (hroom : t.takeSlot.2.slots.length < 2 ^ 32)
    (source : S) (desc : LayerDesc) :
    Refines (t.takeSlot.2.occupy t.takeSlot.1 source desc).1
      (m.insert ⟨(t.takeSlot.2.occupy t.takeSlot.1 source desc).2, source, desc⟩).1 := by
  have hgen := congrArg Handle.generation (hr.toHandle_occupy hroom source desc)
  have hslots : (t.takeSlot.2.occupy t.takeSlot.1 source desc).1.slots =
      Lib.putAt t.slots m.next
        ⟨(t.takeSlot.2.occupy t.takeSlot.1 source desc).2.generation, true,
          some ⟨(t.takeSlot.2.occupy t.takeSlot.1 source desc).2, source, desc⟩⟩ := by
    rw [← hr.set_takeSlot]
    simp only [HandleTable.occupy, hr.takeSlot_fst]
  refine ⟨?_, ?_, ?_, ?_⟩
  · rw [hslots, Lib.map_putAt, ← hr.slots, Slot.toTableSlot,
      show (LayerHandle.generation _).toNat = _ from hgen]
    rfl
  · simp [HandleTable.occupy, SlotMap.insert, hr.freeIds_takeSlot, hr.freeIds, List.map_dropLast]
  · rw [hslots]
    intro s hs
    rcases Lib.mem_of_mem_putAt hs with hs | rfl
    · exact hr.alive s hs
    · rfl
  · simpa [HandleTable.occupy] using hroom

end Refines

/-- An addition is refused, or a slot is taken and occupied. -/
theorem addLayer_cases (t : HandleTable S) (spec : LayerSpec S) :
    (∃ e, t.addLayer spec = (t, .error e)) ∨ ∃ source, spec.source = some source ∧
      t.addLayer spec = ((t.takeSlot.2.occupy t.takeSlot.1 source spec.desc).1,
        .ok (t.takeSlot.2.occupy t.takeSlot.1 source spec.desc).2) := by
  unfold addLayer
  cases spec.source with
  | none => exact .inl ⟨_, rfl⟩
  | some source =>
    by_cases hmodel : spec.desc.bindingModel = .driverOwnsBinding ∧ ¬ t.streamUsable
    · exact .inl ⟨_, if_pos hmodel⟩
    · exact .inr ⟨source, rfl, if_neg hmodel⟩

/-! ### Runs -/

inductive Event (S : Type*)
  | add (spec : LayerSpec S)
  | remove (h : LayerHandle)

/-- A table, with what its caller knows: the layers added and not removed since, under the handles
they were given, and all the handles ever given out. -/
structure Trace (S : Type*) where
  table : HandleTable S := {}
  live : List (LayerHandle × Layer S) := []
  issued : List LayerHandle := []

namespace Trace

def add (t : Trace S) (spec : LayerSpec S) : Trace S :=
  match t.table.addLayer spec, spec.source with
  | (table, .ok h), some source =>
    { table, live := (h, ⟨h, source, spec.desc⟩) :: t.live, issued := h :: t.issued }
  | (table, _), _ => { t with table }

def step (t : Trace S) : Event S → Trace S
  | .add spec => t.add spec
  | .remove h =>
    { t with table := t.table.removeLayer h, live := t.live.filter fun e => e.1 ≠ h }

/-- How often the slot of the id was used. -/
def uses (t : Trace S) (id : ℕ) : ℕ := t.issued.countP fun h => h.id.toNat = id

/-- No slot was used again `2 ^ 32` times. -/
def FewUses (t : Trace S) : Prop := ∀ id, t.uses id ≤ 2 ^ 32

theorem fewUses_of_length {t : Trace S} (h : t.issued.length ≤ 2 ^ 32) : t.FewUses :=
  fun _ => List.countP_le_length.trans h

/-- Fewer than `2 ^ 32` layers are alive. -/
def FewLive (t : Trace S) : Prop := t.live.length < 2 ^ 32

instance (t : Trace S) : Decidable t.FewLive := inferInstanceAs (Decidable (_ < _))

/-- Exactly the live layers are found, under handles of their own, and counted. -/
structure Unforgeable (t : Trace S) : Prop where
  isSome_iff : ∀ h, (t.table.getLayer h).isSome ↔ h ∈ t.live.map Prod.fst
  getLayer : ∀ h l, (h, l) ∈ t.live → t.table.getLayer h = some l
  nodup : (t.live.map Prod.fst).Nodup
  layerCount : t.table.layerCount = t.live.length
  nodupIssued : t.issued.Nodup

/-- The slot map behind the table, and what the handles say about its generations. -/
structure Behind (t : Trace S) (m : SlotMap (Layer S)) : Prop where
  refines : Refines t.table m
  mem_live : ∀ h l, (h, l) ∈ t.live ↔ m.find? h.toHandle = some l
  nodup : (t.live.map Prod.fst).Nodup
  count : t.live.length + m.freeIds.length = m.slots.length
  generation : ∀ i, m.generationAt i = t.uses (i + 1) % 2 ^ 32
  issued : ∀ h ∈ t.issued, ∃ k, 0 < k ∧ k ≤ t.uses h.id.toNat ∧ h.generation.toNat = k % 2 ^ 32
  nodupIssued : t.issued.Nodup

theorem behind_empty (usable : Bool) :
    Behind (S := S) { table := { streamUsable := usable } } SlotMap.empty :=
  ⟨refines_empty usable, by simp, List.nodup_nil, rfl, fun i => rfl, by simp, List.nodup_nil⟩

theorem Behind.unforgeable {t : Trace S} {m : SlotMap (Layer S)} (hb : Behind t m) :
    t.Unforgeable where
  isSome_iff h := by
    rw [hb.refines.getLayer_eq, Option.isSome_iff_exists, List.mem_map]
    constructor
    · rintro ⟨l, hl⟩
      exact ⟨(h, l), (hb.mem_live h l).mpr hl, rfl⟩
    · rintro ⟨⟨h', l⟩, hl, rfl⟩
      exact ⟨l, (hb.mem_live h' l).mp hl⟩
  getLayer h l hl := by rw [hb.refines.getLayer_eq, (hb.mem_live h l).mp hl]
  nodup := hb.nodup
  layerCount := by
    rw [hb.refines.layerCount_eq, ← hb.count, Nat.add_sub_cancel]
  nodupIssued := hb.nodupIssued

theorem map_fst_filter {live : List (LayerHandle × Layer S)}
    (hnd : (live.map Prod.fst).Nodup) (h : LayerHandle) :
    (live.filter fun e => e.1 ≠ h).map Prod.fst = (live.map Prod.fst).erase h := by
  rw [hnd.erase_eq_filter, List.filter_map]
  congr 1
  refine List.filter_congr fun e _ => ?_
  by_cases he : e.1 = h <;> simp [he]

theorem Behind.remove {t : Trace S} {m : SlotMap (Layer S)} (hb : Behind t m) (h : LayerHandle) :
    Behind (t.step (.remove h)) (m.remove h.toHandle) where
  refines := hb.refines.removeLayer h
  mem_live h' l := by
    rw [SlotMap.find?_remove]
    simp only [step, List.mem_filter, hb.mem_live, LayerHandle.toHandle_inj, decide_eq_true_eq]
    split
    · simp_all
    · simp_all
  nodup := hb.nodup.sublist (List.filter_sublist.map _)
  count := by
    have hlen := congrArg List.length (map_fst_filter hb.nodup h)
    rw [List.length_map] at hlen
    rw [SlotMap.length_remove, ← hb.count, step, hlen]
    by_cases hf : (m.find? h.toHandle).isSome
    · obtain ⟨l, hl⟩ := Option.isSome_iff_exists.mp hf
      have hmem : h ∈ t.live.map Prod.fst :=
        List.mem_map.mpr ⟨(h, l), (hb.mem_live h l).mpr hl, rfl⟩
      have hpos := List.length_pos_of_mem hmem
      rw [List.length_erase_of_mem hmem, SlotMap.freeIds_remove hf, List.length_append]
      simp only [List.length_map, List.length_singleton] at hpos ⊢
      omega
    · have hnot : h ∉ t.live.map Prod.fst := by
        intro hin
        obtain ⟨⟨h', l⟩, hl, rfl⟩ := List.mem_map.mp hin
        exact hf (by rw [(hb.mem_live h' l).mp hl]; rfl)
      rw [List.erase_of_not_mem hnot, List.length_map, SlotMap.remove, dif_neg hf]
  generation i := by
    rw [SlotMap.generationAt_remove]
    exact hb.generation i
  issued := hb.issued
  nodupIssued := hb.nodupIssued

/-- What an addition does to the trace. -/
theorem add_cases (t : Trace S) (spec : LayerSpec S) :
    t.add spec = t ∨ ∃ source table h,
      t.table.takeSlot.2.occupy t.table.takeSlot.1 source spec.desc = (table, h) ∧
      t.add spec = ⟨table, (h, ⟨h, source, spec.desc⟩) :: t.live, h :: t.issued⟩ := by
  unfold add
  rcases t.table.addLayer_cases spec with ⟨e, heq⟩ | ⟨source, hsource, heq⟩
  · exact .inl (by rw [heq])
  · refine .inr ⟨source, (t.table.takeSlot.2.occupy t.table.takeSlot.1 source spec.desc).1,
      (t.table.takeSlot.2.occupy t.table.takeSlot.1 source spec.desc).2, rfl, ?_⟩
    rw [heq, hsource]

theorem Behind.room {t : Trace S} {m : SlotMap (Layer S)} (hb : Behind t m)
    (hroom : t.live.length + 1 < 2 ^ 32) : t.table.takeSlot.2.slots.length < 2 ^ 32 := by
  have hcount := hb.count
  rw [hb.refines.length_slots, hb.refines.freeIds, List.length_map] at hcount
  rcases hb.refines.next_lt_or with ⟨hnil, -, h⟩ | ⟨i, -, -, -, h⟩
  · rw [hnil] at hcount
    rw [h]
    simp only [List.length_nil, List.length_append, List.length_singleton] at hcount ⊢
    omega
  · rw [h]
    exact hb.refines.numbered

theorem Behind.occupy {t : Trace S} {m : SlotMap (Layer S)} (hb : Behind t m) (source : S)
    (desc : LayerDesc) {table : HandleTable S} {h : LayerHandle}
    (hocc : t.table.takeSlot.2.occupy t.table.takeSlot.1 source desc = (table, h))
    (hroom : t.live.length + 1 < 2 ^ 32) (huses : t.uses h.id.toNat < 2 ^ 32) :
    Behind ⟨table, (h, ⟨h, source, desc⟩) :: t.live, h :: t.issued⟩
      (m.insert ⟨h, source, desc⟩).1 := by
  have hnext : h.toHandle = m.nextHandle := by
    rw [← hb.refines.toHandle_occupy (hb.room hroom) source desc, hocc]
  have hid : h.id.toNat = m.next + 1 := congrArg Handle.id hnext
  have hgen : h.generation.toNat = (t.uses h.id.toNat + 1) % 2 ^ 32 := by
    rw [show h.generation.toNat = (m.generationAt m.next + 1) % 2 ^ 32 from
      congrArg Handle.generation hnext, hb.generation, hid, Nat.mod_add_mod]
  have hfresh : h ∉ t.live.map Prod.fst := by
    intro hin
    obtain ⟨⟨h', l⟩, hl, rfl⟩ := List.mem_map.mp hin
    have := (hb.mem_live h' l).mp hl
    rw [hnext, SlotMap.find?_nextHandle] at this
    cases this
  have hnew : h ∉ t.issued := by
    intro hin
    obtain ⟨k, hk, hle, heq⟩ := hb.issued h hin
    omega
  have huses' (id : ℕ) : Trace.uses ⟨table, (h, ⟨h, source, desc⟩) :: t.live, h :: t.issued⟩ id =
      t.uses id + if h.id.toNat = id then 1 else 0 := by
    simp [uses, List.countP_cons]
  refine ⟨?_, fun h' l => ?_, List.nodup_cons.mpr ⟨hfresh, hb.nodup⟩, ?_, fun i => ?_,
    fun h' hh' => ?_, List.nodup_cons.mpr ⟨hnew, hb.nodupIssued⟩⟩
  · have := hb.refines.occupy (hb.room hroom) source desc
    rwa [hocc] at this
  · rw [SlotMap.find?_insert, ← hnext, List.mem_cons, hb.mem_live, Prod.mk.injEq]
    by_cases heq : h' = h
    · subst heq
      rw [hnext, SlotMap.find?_nextHandle]
      simp [eq_comm]
    · rw [if_neg fun h0 => heq (LayerHandle.toHandle_inj.mp h0)]
      simp [heq]
  · have := m.length_insert_add ⟨h, source, desc⟩
    have := hb.count
    simp only [List.length_cons]
    omega
  · rw [huses', SlotMap.generationAt_insert, ← hnext, hid]
    by_cases hi : i = m.next
    · rw [if_pos hi, if_pos (by rw [hi]), show h.toHandle.generation = h.generation.toNat from rfl,
        hgen, hid, hi]
    · rw [if_neg hi, if_neg (by omega), hb.generation]
      rfl
  · rw [huses']
    rcases List.mem_cons.mp hh' with rfl | hh'
    · exact ⟨t.uses h'.id.toNat + 1, Nat.succ_pos _, by rw [if_pos rfl], hgen⟩
    · obtain ⟨k, hk, hle, heq⟩ := hb.issued h' hh'
      exact ⟨k, hk, Nat.le_trans hle (Nat.le_add_right _ _), heq⟩

/-- A step that leaves fewer than `2 ^ 32` layers alive and reuses no slot too often keeps a slot
map behind the table. -/
theorem Behind.step {t : Trace S} {m : SlotMap (Layer S)} (hb : Behind t m) (e : Event S)
    (hlive : (t.step e).FewLive) (huses : (t.step e).FewUses) :
    ∃ m', Behind (t.step e) m' := by
  cases e with
  | remove h => exact ⟨_, hb.remove h⟩
  | add spec =>
    rcases t.add_cases spec with heq | ⟨source, table, h, hocc, heq⟩
    · exact ⟨m, by rw [show t.step (.add spec) = t from heq]; exact hb⟩
    · rw [show t.step (.add spec) = _ from heq] at hlive huses ⊢
      refine ⟨_, hb.occupy source spec.desc hocc (by simpa [FewLive] using hlive) ?_⟩
      have := huses h.id.toNat
      simp only [uses, List.countP_cons, decide_true, if_true] at this
      exact this

/-- While fewer than `2 ^ 32` layers are alive at once, handles cannot be forged. -/
theorem unforgeable_of_fewLive (usable : Bool) (es : List (Event S))
    (hes : Lib.Meets step (fun t e => (t.step e).FewLive ∧ (t.step e).FewUses)
      { table := { streamUsable := usable } } es) :
    (Lib.run step { table := { streamUsable := usable } } es).Unforgeable := by
  have hstep (t : Trace S) (e : Event S) (ht : ∃ m, Behind t m)
      (h : (t.step e).FewLive ∧ (t.step e).FewUses) : ∃ m, Behind (t.step e) m := by
    obtain ⟨m, hb⟩ := ht
    exact hb.step e h.1 h.2
  obtain ⟨m, hb⟩ := Lib.run_invariant hstep ⟨_, behind_empty usable⟩ hes
  exact hb.unforgeable

theorem unforgeable_of_fewLive_reused :
    (Lib.run step { table := { streamUsable := false } }
      [.add ⟨some 7, {}⟩, .remove ⟨1, 1⟩, .add ⟨some 8, {}⟩, .remove ⟨1, 1⟩]).Unforgeable :=
  unforgeable_of_fewLive false _
    ⟨⟨by decide, fewUses_of_length (by decide)⟩, ⟨by decide, fewUses_of_length (by decide)⟩,
      ⟨by decide, fewUses_of_length (by decide)⟩, ⟨by decide, fewUses_of_length (by decide)⟩,
      trivial⟩

/-! ### Too many layers -/

section Crowd

def crowd (n : ℕ) : Trace Unit := Lib.run step {} (List.replicate n (.add ⟨some (), {}⟩))

theorem crowd_succ (n : ℕ) : crowd (n + 1) = (crowd n).step (.add ⟨some (), {}⟩) := by
  rw [crowd, List.replicate_succ', Lib.run_append]
  rfl

/-- Without a free slot the new one is at the end. -/
theorem step_add_of_nil {t : Trace Unit} (hnil : t.table.freeIds = []) :
    ∃ h l, h.id = UInt32.ofNat t.table.slots.length + 1 ∧
      (t.step (.add ⟨some (), {}⟩)).live = (h, l) :: t.live ∧
      (t.step (.add ⟨some (), {}⟩)).issued = h :: t.issued ∧
      (t.step (.add ⟨some (), {}⟩)).table.freeIds = [] ∧
      (t.step (.add ⟨some (), {}⟩)).table.slots.length = t.table.slots.length + 1 := by
  have htake : t.table.takeSlot =
      (UInt32.ofNat t.table.slots.length, { t.table with slots := t.table.slots ++ [{}] }) := by
    simp [takeSlot, hnil]
  refine ⟨(t.table.takeSlot.2.occupy t.table.takeSlot.1 () {}).2, _, ?_, rfl, rfl, ?_, ?_⟩
  · rw [htake]
    rfl
  · simp [step, add, addLayer, htake, HandleTable.occupy, hnil]
  · simp [step, add, addLayer, htake, HandleTable.occupy]

theorem crowd_spec (n : ℕ) :
    (crowd n).table.freeIds = [] ∧ (crowd n).table.slots.length = n ∧
      (crowd n).issued.length = n := by
  induction n with
  | zero => exact ⟨rfl, rfl, rfl⟩
  | succ n ih =>
    obtain ⟨hfree, hlen, hissued⟩ := ih
    obtain ⟨h, l, -, -, hissued', hfree', hlen'⟩ := step_add_of_nil hfree
    rw [crowd_succ]
    exact ⟨hfree', by rw [hlen', hlen], by rw [hissued', List.length_cons, hissued]⟩

theorem meets_crowd {n : ℕ} (hn : n ≤ 2 ^ 32) :
    Lib.Meets step (fun t e => (t.step e).FewUses) {}
      (List.replicate n (.add ⟨some (), {}⟩) : List (Event Unit)) := by
  induction n with
  | zero => trivial
  | succ n ih =>
    rw [List.replicate_succ', Lib.meets_append]
    refine ⟨ih (by omega), ?_, trivial⟩
    change ((crowd n).step (.add ⟨some (), {}⟩)).FewUses
    rw [← crowd_succ]
    exact fewUses_of_length ((crowd_spec (n + 1)).2.2.le.trans hn)

/-- The last of `2 ^ 32` layers gets the id of the default handle. -/
theorem not_unforgeable_crowd :
    ¬ ∀ es : List (Event Unit), Lib.Meets step (fun t e => (t.step e).FewUses) {} es →
      (Lib.run step {} es).Unforgeable := by
  intro hall
  obtain ⟨n, hn⟩ : ∃ n, n + 1 = 2 ^ 32 := ⟨2 ^ 32 - 1, rfl⟩
  have hun : (crowd (n + 1)).Unforgeable := hall _ (meets_crowd hn.le)
  rw [crowd_succ] at hun
  obtain ⟨hfree, hlen, -⟩ := crowd_spec n
  obtain ⟨h, l, hid, hlive, -⟩ := step_add_of_nil hfree
  have hzero : h.id = 0 := by
    rw [hid, hlen, ← UInt32.toNat_inj]
    simp only [UInt32.toNat_add, UInt32.toNat_ofNat', UInt32.toNat_one, Nat.mod_add_mod, hn]
    rfl
  have hfound := (hun.isSome_iff h).mpr (by rw [hlive]; simp)
  simp [getLayer, slotFor, hzero] at hfound

end Crowd

end Trace

end HandleTable

end DrmCxx.Scene
