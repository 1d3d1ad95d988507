import DrmCxx.Csd.PlanePresenter
import DrmCxx.Verification.Csd.Reservations

/-!
# Decorations on planes of their own

A slot's properties are told apart by their ids, and the slots by their planes, so a frame sets
every slot to what its surface says, whatever was there. Over a run of frames the planes show the
last frame that was committed, stacked in the order of the surfaces.
-/

namespace DrmCxx.Csd

open Lib
open Core (ObjectId PropertyId PropertyStore ListedProperty PropertyInfo)
open Planes (PlaneId PlaneCapabilities PlaneRegistry)

/-! ### Property ids -/

theorem SlotProp.name_injective : Function.Injective SlotProp.name := by
  intro p q h
  cases p <;> cases q <;> first | rfl | exact absurd h (by decide)

/-- Properties of an object have ids of their own, and 0 is not one. -/
structure Identified (ps : List ListedProperty) : Prop where
  nodup : (ps.map (·.id)).Nodup
  ne_zero : ∀ p ∈ ps, p.id ≠ 0

namespace PlanePresenter

variable {props : PropertyStore} {planeId : PlaneId} {slot : OverlaySlot}

/-- The store has the object's properties, told apart by their ids. -/
def Cached (props : PropertyStore) (object : ObjectId) : Prop :=
  ∃ entries, props.store object = some entries ∧ (entries.map (·.id)).Nodup ∧
    ∀ e ∈ entries, e.id ≠ 0

theorem info_id {p : ListedProperty} {info : PropertyInfo} (h : p.info = some info) :
    info.id = p.id := by
  obtain ⟨d, -, rfl⟩ := Option.map_eq_some_iff.mp h
  rfl

theorem ids_filterMap_info (ps : List ListedProperty) :
    ((ps.filterMap (·.info)).map (·.id)).Sublist (ps.map (·.id)) := by
  induction ps with
  | nil => exact List.Sublist.slnil
  | cons p ps ih =>
    cases h : p.info with
    | none =>
      rw [List.filterMap_cons_none h, List.map_cons]
      exact ih.cons p.id
    | some info =>
      rw [List.filterMap_cons_some h, List.map_cons, List.map_cons, info_id h]
      exact ih.cons_cons p.id

theorem cached_cacheProperties {ps : List ListedProperty} (h : Identified ps)
    {props' : PropertyStore} (hc : props.cacheProperties planeId (.ok ps) = .ok props') :
    Cached props' planeId := by
  rw [PropertyStore.cacheProperties, Except.ok.injEq] at hc
  subst hc
  refine ⟨ps.filterMap (·.info), by simp, h.nodup.sublist (ids_filterMap_info ps), ?_⟩
  intro e he
  obtain ⟨p, hp, hinfo⟩ := List.mem_filterMap.mp he
  exact info_id hinfo ▸ h.ne_zero p hp

/-- A property's id is that of the first entry of its name. -/
theorem find?_of_propertyId {entries : List PropertyInfo}
    (hs : props.store planeId = some entries) {name : String} {id : PropertyId}
    (h : props.propertyId planeId name = .ok id) :
    (entries.find? (·.name = name)).map (·.id) = some id := by
  obtain ⟨e, he, rfl⟩ := exists_of_map_ok h
  rw [PropertyStore.find, hs] at he
  dsimp only at he
  cases hfind : entries.find? (·.name = name) with
  | none => simp [hfind] at he
  | some e' =>
    simp only [hfind, Except.ok.injEq] at he
    rw [he, Option.map_some]

theorem exists_of_propertyId {entries : List PropertyInfo}
    (hs : props.store planeId = some entries) {name : String} {id : PropertyId}
    (h : props.propertyId planeId name = .ok id) : ∃ e ∈ entries, e.name = name ∧ e.id = id := by
  obtain ⟨e, hfind, rfl⟩ := Option.map_eq_some_iff.mp (find?_of_propertyId hs h)
  exact ⟨e, List.mem_of_find?_eq_some hfind, by simpa using List.find?_some hfind, rfl⟩

/-- A property is found under one name only. -/
theorem name_eq_of_propertyId (h : Cached props planeId) {a b : String} {id : PropertyId}
    (ha : props.propertyId planeId a = .ok id) (hb : props.propertyId planeId b = .ok id) :
    a = b := by
  obtain ⟨entries, hs, hnodup, -⟩ := h
  obtain ⟨e, he, rfl, hid⟩ := exists_of_propertyId hs ha
  obtain ⟨e', he', rfl, hid'⟩ := exists_of_propertyId hs hb
  rw [List.inj_on_of_nodup_map hnodup he he' (hid.trans hid'.symm)]

theorem ne_zero_of_propertyId (h : Cached props planeId) {name : String} {id : PropertyId}
    (hid : props.propertyId planeId name = .ok id) : id ≠ 0 := by
  obtain ⟨entries, hs, -, hne⟩ := h
  obtain ⟨e, he, -, rfl⟩ := exists_of_propertyId hs hid
  exact hne e he

/-! ### Slots -/

/-- Every id in the slot is that of the property it is for. -/
def Looked (props : PropertyStore) (slot : OverlaySlot) : Prop :=
  ∀ p, slot.prop p ≠ 0 → props.propertyId slot.planeId p.name = .ok (slot.prop p)

theorem Looked.update (h : Looked props slot) {p : SlotProp} {id : PropertyId}
    (hid : props.propertyId slot.planeId p.name = .ok id) :
    Looked props { slot with prop := Function.update slot.prop p id } := by
  intro q hq
  by_cases hpq : q = p
  · subst hpq
    simpa using hid
  · have hold : Function.update slot.prop p id q = slot.prop q := Function.update_of_ne hpq _ _
    dsimp only at hq ⊢
    rw [hold] at hq ⊢
    exact h q hq

/-- The slot has every property it must have, and no two of its ids are the same. -/
structure Distinct (slot : OverlaySlot) : Prop where
  required : ∀ p ∈ SlotProp.required, slot.prop p ≠ 0
  injective : ∀ p q, slot.prop p ≠ 0 → slot.prop p = slot.prop q → p = q

theorem Looked.injective (h : Looked props slot) (hc : Cached props slot.planeId) {p q : SlotProp}
    (hp : slot.prop p ≠ 0) (hpq : slot.prop p = slot.prop q) : p = q := by
  have hp' := h p hp
  have hq' := h q (hpq ▸ hp)
  exact SlotProp.name_injective (name_eq_of_propertyId hc hp' (hpq ▸ hq'))

/-- A slot under construction, for the plane with the store's properties. -/
structure Slotted (props : PropertyStore) (planeId : PlaneId) (crtcId : UInt32)
    (slot : OverlaySlot) : Prop where
  plane : slot.planeId = planeId
  crtc : slot.crtcId = crtcId
  looked : Looked props slot

/-- The same slot, with at least the properties it had. -/
structure Extends (slot slot' : OverlaySlot) (p : SlotProp) : Prop where
  had : ∀ q, slot.prop q ≠ 0 → slot'.prop q ≠ 0
  other : ∀ q, q ≠ p → slot'.prop q = slot.prop q

section Slotted

variable {crtcId : UInt32} {slot' : OverlaySlot} {caps : PlaneCapabilities}
  {traits : OverlayTraits} {baseZpos : UInt64} {index : ℕ}

theorem Extends.refl (slot : OverlaySlot) (p : SlotProp) : Extends slot slot p :=
  ⟨fun _ h => h, fun _ _ => rfl⟩

theorem extends_update (hc : Cached props planeId) {p : SlotProp} {id : PropertyId}
    (hid : props.propertyId planeId p.name = .ok id) :
    Extends slot { slot with prop := Function.update slot.prop p id } p := by
  refine ⟨fun q hq => ?_, fun q hq => Function.update_of_ne hq _ _⟩
  by_cases hqp : q = p
  · subst hqp
    dsimp only
    rw [Function.update_self]
    exact ne_zero_of_propertyId hc hid
  · dsimp only
    rwa [Function.update_of_ne hqp]

theorem Slotted.update (h : Slotted props planeId crtcId slot) {p : SlotProp} {id : PropertyId}
    (hid : props.propertyId planeId p.name = .ok id) :
    Slotted props planeId crtcId { slot with prop := Function.update slot.prop p id } :=
  ⟨h.plane, h.crtc, h.looked.update (h.plane ▸ hid)⟩

/-- The required properties are found, and nothing else is looked up. -/
theorem resolveRequired_spec (hc : Cached props planeId) {ps : List SlotProp}
    (h : Slotted props planeId crtcId slot)
    (hok : resolveRequired props planeId ps slot = .ok slot') :
    Slotted props planeId crtcId slot' ∧ (∀ p, p ∈ ps ∨ slot.prop p ≠ 0 → slot'.prop p ≠ 0) ∧
      ∀ p, p ∉ ps → slot'.prop p = slot.prop p := by
  induction ps generalizing slot with
  | nil =>
    cases hok
    exact ⟨h, fun p hp => by simpa using hp, fun p _ => rfl⟩
  | cons p ps ih =>
    rw [resolveRequired] at hok
    cases hid : props.propertyId planeId p.name with
    | error e => simp [hid] at hok
    | ok id =>
      simp only [hid] at hok
      obtain ⟨hslot, hne, hother⟩ := ih (h.update hid) hok
      have hext : Extends slot { slot with prop := Function.update slot.prop p id } p :=
        extends_update hc hid
      refine ⟨hslot, fun q hq => hne q ?_, fun q hq => ?_⟩
      · rw [List.mem_cons, or_assoc] at hq
        rcases hq with rfl | hq | hq
        · refine .inr ?_
          dsimp only
          rw [Function.update_self]
          exact ne_zero_of_propertyId hc hid
        · exact .inl hq
        · exact .inr (hext.had q hq)
      · rw [List.mem_cons, not_or] at hq
        rw [hother q hq.2, hext.other q hq.1]

/-- An optional property changes nothing of the slot but itself and what comes with it. -/
theorem resolveOptional_spec (hc : Cached props planeId) (h : Slotted props planeId crtcId slot)
    (p : SlotProp) {set : OverlaySlot → OverlaySlot}
    (hset : ∀ s, (set s).planeId = s.planeId ∧ (set s).crtcId = s.crtcId ∧ (set s).prop = s.prop) :
    Slotted props planeId crtcId (resolveOptional props p set slot) ∧
      Extends slot (resolveOptional props p set slot) p := by
  obtain rfl := h.plane
  rw [resolveOptional]
  cases hid : props.propertyId slot.planeId p.name with
  | error e => exact ⟨h, .refl slot p⟩
  | ok id =>
    dsimp only
    obtain ⟨hplane, hcrtc, hprop⟩ := hset { slot with prop := Function.update slot.prop p id }
    have hup := h.update hid
    have hext : Extends slot { slot with prop := Function.update slot.prop p id } p :=
      extends_update hc hid
    refine ⟨⟨hplane.trans hup.plane, hcrtc.trans hup.crtc, fun q hq => ?_⟩, ?_, ?_⟩
    · rw [hprop] at hq ⊢
      rw [hplane]
      exact hup.looked q hq
    · rw [hprop]
      exact hext.had
    · rw [hprop]
      exact hext.other

theorem addBlendMode_spec (hc : Cached props planeId) (h : Slotted props planeId crtcId slot)
    (traits : OverlayTraits) :
    Slotted props planeId crtcId (addBlendMode props traits slot) ∧
      Extends slot (addBlendMode props traits slot) .blendMode := by
  rw [addBlendMode]
  split
  · exact resolveOptional_spec hc h _ fun _ => ⟨rfl, rfl, rfl⟩
  · exact ⟨h, .refl slot _⟩

theorem addAlpha_spec (hc : Cached props planeId) (h : Slotted props planeId crtcId slot)
    (traits : OverlayTraits) :
    Slotted props planeId crtcId (addAlpha props traits slot) ∧
      Extends slot (addAlpha props traits slot) .alpha := by
  rw [addAlpha]
  split_ifs
  · exact resolveOptional_spec hc h _ fun _ => ⟨rfl, rfl, rfl⟩
  · exact ⟨h, .refl slot _⟩

theorem addZpos_spec (hc : Cached props planeId) (h : Slotted props planeId crtcId slot)
    (caps : PlaneCapabilities) (baseZpos : UInt64) (index : ℕ) :
    Slotted props planeId crtcId (addZpos props caps baseZpos index slot) ∧
      Extends slot (addZpos props caps baseZpos index slot) .zpos := by
  rw [addZpos]
  split_ifs
  · exact resolveOptional_spec hc h _ fun _ => ⟨rfl, rfl, rfl⟩
  · exact ⟨h, .refl slot _⟩

/-- A zpos that was added is the slot's place in the stack. -/
theorem zposValue_addZpos (hz : slot.prop .zpos = 0) (caps : PlaneCapabilities) (baseZpos : UInt64)
    (index : ℕ) (hne : (addZpos props caps baseZpos index slot).prop .zpos ≠ 0) :
    (addZpos props caps baseZpos index slot).zposValue = baseZpos + .ofNat index := by
  rw [addZpos] at hne ⊢
  split_ifs at hne ⊢
  · rw [resolveOptional] at hne ⊢
    cases hid : props.propertyId slot.planeId SlotProp.zpos.name with
    | error e =>
      rw [hid] at hne
      exact absurd hz hne
    | ok id => rfl
  · exact absurd hz hne

/-- A zpos that can be written is added. -/
theorem zpos_addZpos (hc : Cached props planeId) (hplane : slot.planeId = planeId)
    (caps : PlaneCapabilities) {baseZpos : UInt64} (index : ℕ) (hbase : baseZpos ≠ 0)
    (hmutable : zposMutable caps = true)
    (hwritable : props.isImmutable planeId SlotProp.zpos.name = .ok false) :
    (addZpos props caps baseZpos index slot).prop .zpos ≠ 0 := by
  subst hplane
  rw [addZpos, if_pos ⟨hbase, hmutable, hwritable⟩, resolveOptional]
  obtain ⟨info, hfind, -⟩ := exists_of_map_ok hwritable
  have hid : props.propertyId slot.planeId SlotProp.zpos.name = .ok info.id := by
    rw [PropertyStore.propertyId, hfind]
    rfl
  rw [hid]
  dsimp only
  rw [Function.update_self]
  exact ne_zero_of_propertyId hc hid

/-- The plane's zpos is listed and not immutable. -/
def ZposListed (entries : List PropertyInfo) : Prop :=
  ∃ info, entries.find? (·.name = SlotProp.zpos.name) = some info ∧
    info.flags &&& Core.drmModePropImmutable = 0

/-- A slot that was made for a plane with the listed properties: its ids are theirs and told apart,
and its zpos is its place in the stack, if it can be written. -/
structure Made (planeId : PlaneId) (crtcId : UInt32) (caps : PlaneCapabilities)
    (entries : List PropertyInfo) (baseZpos : UInt64) (index : ℕ) (slot : OverlaySlot) : Prop where
  plane : slot.planeId = planeId
  crtc : slot.crtcId = crtcId
  distinct : Distinct slot
  named : ∀ p, slot.prop p ≠ 0 →
    (entries.find? (·.name = p.name)).map (·.id) = some (slot.prop p)
  zpos : slot.prop .zpos ≠ 0 → slot.zposValue = baseZpos + .ofNat index
  stacked : baseZpos ≠ 0 → zposMutable caps = true → ZposListed entries → slot.prop .zpos ≠ 0

theorem createSlot_spec {entries : List PropertyInfo} (hs : props.store planeId = some entries)
    (hc : Cached props planeId)
    (hok : createSlot props caps traits crtcId baseZpos index planeId = .ok slot) :
    Made planeId crtcId caps entries baseZpos index slot := by
  obtain ⟨slot₁, hreq, rfl⟩ := exists_of_map_ok hok
  have hstart : Slotted props planeId crtcId { planeId, crtcId } :=
    ⟨rfl, rfl, fun p hp => absurd rfl hp⟩
  obtain ⟨h₁, hhad, hother⟩ := resolveRequired_spec hc hstart hreq
  obtain ⟨h₂, hblend⟩ := addBlendMode_spec hc h₁ traits
  obtain ⟨h₃, halpha⟩ := addAlpha_spec hc h₂ traits
  obtain ⟨h₄, hzpos⟩ := addZpos_spec hc h₃ caps baseZpos index
  refine ⟨h₄.plane, h₄.crtc, ⟨fun p hp => ?_, fun p q hp hpq => ?_⟩, fun p hp => ?_,
    zposValue_addZpos ?_ caps baseZpos index, fun hbase hmutable hlisted => ?_⟩
  · exact hzpos.had p (halpha.had p (hblend.had p (hhad p (.inl hp))))
  · exact h₄.looked.injective (h₄.plane ▸ hc) hp hpq
  · exact find?_of_propertyId hs (h₄.plane ▸ h₄.looked p hp)
  · rw [halpha.other _ (by decide), hblend.other _ (by decide), hother _ (by decide)]
  · obtain ⟨info, hfind, hflags⟩ := hlisted
    refine zpos_addZpos hc h₃.plane caps index hbase hmutable ?_
    rw [PropertyStore.isImmutable, PropertyStore.find, hs]
    dsimp only
    rw [hfind]
    exact congrArg Except.ok (decide_eq_false (not_not_intro hflags))

/-- One slot for each reserved plane, in order; the slots' places count from `base`. -/
structure Slots (registry : PlaneRegistry) (listing : PlaneId → Except Errc (List ListedProperty))
    (crtcId : UInt32) (baseZpos : UInt64) (base : ℕ) (reserved : List PlaneId)
    (slots : List OverlaySlot) : Prop where
  planes : slots.map (·.planeId) = reserved
  made : ∀ (j : ℕ) slot, slots[j]? = some slot → ∃ caps ps,
    registry.capsOf slot.planeId = some caps ∧ listing slot.planeId = .ok ps ∧
      Made slot.planeId crtcId caps (ps.filterMap (·.info)) baseZpos (base + j) slot

theorem createSlots_spec {registry : PlaneRegistry} {traits : PlaneId → OverlayTraits}
    {listing : PlaneId → Except Errc (List ListedProperty)}
    (hl : ∀ id ps, listing id = .ok ps → Identified ps) {ids : List PlaneId}
    {slots out : List OverlaySlot}
    (hok : createSlots registry traits listing crtcId baseZpos props slots ids = .ok out) :
    ∃ new, out = slots ++ new ∧ Slots registry listing crtcId baseZpos slots.length ids new := by
  induction ids generalizing props slots with
  | nil =>
    cases hok
    exact ⟨[], by simp, rfl, by simp⟩
  | cons planeId ids ih =>
    rw [createSlots] at hok
    cases hcaps : registry.capsOf planeId with
    | none => simp [hcaps] at hok
    | some caps =>
      cases hlist : listing planeId with
      | error e => simp [hcaps, hlist, PropertyStore.cacheProperties] at hok
      | ok ps =>
        cases hcache : props.cacheProperties planeId (listing planeId) with
        | error e => simp [hcaps, hcache] at hok
        | ok props' =>
          cases hslot : createSlot props' caps (traits planeId) crtcId baseZpos slots.length
              planeId with
          | error e => simp [hcaps, hcache, hslot] at hok
          | ok slot =>
            simp only [hcaps, hcache, hslot] at hok
            obtain ⟨new, rfl, hnew⟩ := ih hok
            have hc : Cached props' planeId :=
              cached_cacheProperties (hl planeId ps hlist) (hlist ▸ hcache)
            have hs : props'.store planeId = some (ps.filterMap (·.info)) := by
              rw [hlist, PropertyStore.cacheProperties, Except.ok.injEq] at hcache
              simp [← hcache]
            have hmade := createSlot_spec hs hc hslot
            obtain rfl := hmade.plane
            refine ⟨slot :: new, by simp, by rw [List.map_cons, hnew.planes], ?_⟩
            intro j slot' hj
            cases j with
            | zero =>
              obtain rfl : slot = slot' := by simpa using hj
              exact ⟨caps, ps, hcaps, hlist, hmade⟩
            | succ j =>
              have hlater := hnew.made j slot' (by simpa using hj)
              rw [List.length_append, List.length_singleton, Nat.add_assoc,
                Nat.add_comm 1 j] at hlater
              exact hlater

/-- A presenter has one slot for each reserved plane, in order. -/
theorem create_spec {registry : PlaneRegistry} {traits : PlaneId → OverlayTraits}
    {listing : PlaneId → Except Errc (List ListedProperty)}
    (hl : ∀ id ps, listing id = .ok ps → Identified ps) {reserved : List PlaneId}
    {slots : List OverlaySlot}
    (hok : create registry traits listing crtcId reserved baseZpos = .ok slots) :
    crtcId ≠ 0 ∧ Slots registry listing crtcId baseZpos 0 reserved slots := by
  rw [create] at hok
  split_ifs at hok with hcrtc
  obtain ⟨new, rfl, hnew⟩ := createSlots_spec hl hok
  exact ⟨hcrtc, hnew⟩

end Slotted

/-! ### Frames -/

section Values

variable {ref : Option OverlayRef}

/-- A frame gives each property of a slot one value. -/
theorem nodup_slotValues (slot : OverlaySlot) (ref : Option OverlayRef) :
    ((slotValues slot ref).map Prod.fst).Nodup := by
  unfold slotValues
  split
  · rw [armedValues, List.map_append]
    have hall : (SlotProp.required ++ [SlotProp.blendMode, .alpha, .zpos]).Nodup := by decide
    exact hall.sublist ((List.Sublist.refl _).append (List.filter_sublist.map Prod.fst))
  · decide

/-- A frame sets only properties that the slot has. -/
theorem prop_ne_zero (hd : Distinct slot) {w : SlotProp × UInt64} (hw : w ∈ slotValues slot ref) :
    slot.prop w.1 ≠ 0 := by
  unfold slotValues at hw
  split at hw
  · rcases List.mem_append.mp hw with hw | hw
    · exact hd.required _ (List.mem_map_of_mem (f := Prod.fst) hw)
    · simpa using (List.mem_filter.mp hw).2
  · exact hd.required _ (List.mem_of_mem_take (i := 2) (List.mem_map_of_mem (f := Prod.fst) hw))

theorem mem_writesFor {slots : List OverlaySlot} {refs : List OverlayRef} {w : OverlayWrite} :
    w ∈ writesFor slots refs ↔
      ∃ (j : ℕ) (slot : OverlaySlot), slots[j]? = some slot ∧ w ∈ slotWrites slot refs[j]? := by
  induction slots generalizing refs with
  | nil => simp [writesFor]
  | cons slot slots ih =>
    rw [writesFor, List.mem_append, ih]
    constructor
    · rintro (hw | ⟨j, slot', hj, hw⟩)
      · exact ⟨0, slot, rfl, by rwa [← List.head?_eq_getElem?]⟩
      · exact ⟨j + 1, slot', by simpa using hj, by simpa using hw⟩
    · rintro ⟨j, slot', hj, hw⟩
      cases j with
      | zero =>
        obtain rfl : slot = slot' := by simpa using hj
        exact .inl (by rwa [List.head?_eq_getElem?])
      | succ j => exact .inr ⟨j, slot', by simpa using hj, by simpa using hw⟩

end Values

/-- The kernel's property values. -/
abbrev Properties := ObjectId × PropertyId → UInt64

/-- The plane is set to what the surface says, or is off. -/
def Shows (k : Properties) (slot : OverlaySlot) (ref : Option OverlayRef) : Prop :=
  ∀ w ∈ slotValues slot ref, k (slot.planeId, slot.prop w.1) = w.2

/-- The writes of a frame and others to other objects leave every slot as its surface says. -/
theorem shows_applyWrites {slots : List OverlaySlot} (hplanes : (slots.map (·.planeId)).Nodup)
    (hdistinct : ∀ slot ∈ slots, Distinct slot) {before after : List OverlayWrite}
    (hbefore : ∀ w ∈ before, w.1.1 ∉ slots.map (·.planeId))
    (hafter : ∀ w ∈ after, w.1.1 ∉ slots.map (·.planeId)) (k : Properties)
    (refs : List OverlayRef) {j : ℕ} (hj : slots[j]? = some slot) :
    Shows (applyWrites k (before ++ writesFor slots refs ++ after)) slot refs[j]? := by
  intro w hw
  have hmem : slot ∈ slots := List.mem_of_getElem? hj
  have hplane : slot.planeId ∈ slots.map (·.planeId) := List.mem_map_of_mem hmem
  apply applyWrites_eq
  · intro w' hw' hkey
    rcases List.mem_append.mp hw' with hw' | hw'
    · rcases List.mem_append.mp hw' with hw' | hw'
      · exact absurd (hkey ▸ hplane) (hbefore w' hw')
      · obtain ⟨j', slot', hj', hw'⟩ := mem_writesFor.mp hw'
        obtain ⟨v, hv, rfl⟩ := List.mem_map.mp hw'
        obtain ⟨hsame, hprop⟩ := Prod.mk.inj hkey
        -- The plane tells the slot, and the property id the property.
        have hjj : j' = j := by
          have hget : (slots.map (·.planeId))[j']? = (slots.map (·.planeId))[j]? := by
            rw [List.getElem?_map, List.getElem?_map, hj', hj, Option.map_some, Option.map_some,
              hsame]
          refine (List.getElem?_inj ?_ hplanes).mp hget
          rw [List.length_map]
          exact (List.getElem?_eq_some_iff.mp hj').1
        subst hjj
        obtain rfl : slot = slot' := Option.some.inj (hj.symm.trans hj')
        have hd := hdistinct slot hmem
        have hpq := hd.injective _ _ (prop_ne_zero hd hv) hprop
        exact congrArg Prod.snd (List.inj_on_of_nodup_map (nodup_slotValues slot _) hv hw hpq)
    · exact absurd (hkey ▸ hplane) (hafter w' hw')
  · refine .inr ⟨((slot.planeId, slot.prop w.1), w.2), ?_, rfl⟩
    exact List.mem_append_left _ (List.mem_append_right _
      (mem_writesFor.mpr ⟨j, slot, hj, List.mem_map_of_mem hw⟩))

end PlanePresenter

end DrmCxx.Csd
