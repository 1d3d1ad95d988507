import DrmCxx.Scene.ExternalDmaBufSource
import DrmCxx.Verification.DmaBuf.Files

/-!
# Importing a buffer and undoing it

What each step of an import opens, adds and leaves alone, whether it succeeds or fails, what the
teardown of a slot gives back, and what a pool records of a buffer that it imported.
-/

namespace DrmCxx.Scene.Detail

open Lib Lib.Holdings Kernel

variable {ι : Type*} [DecidableEq ι] {i : ι} {holds : ι → List ℕ} {mine : List ℕ}
  {otherFb newFb : FbId → Prop} {k k' : Kernel} {slot : DmaBufSlot}

/-- A plane without its handle. -/
def PlaneRecord.bare (rec : PlaneRecord) : PlaneRecord := { rec with gemHandle := 0 }

/-- The duplicates that the slot holds. -/
def DmaBufSlot.fds (slot : DmaBufSlot) : List ℕ := slot.planes.map PlaneRecord.dupedFd

theorem fds_of_bare {planes planes' : List PlaneRecord}
    (h : planes'.map PlaneRecord.bare = planes.map PlaneRecord.bare) :
    planes'.map PlaneRecord.dupedFd = planes.map PlaneRecord.dupedFd := by
  have hdup : PlaneRecord.dupedFd = PlaneRecord.dupedFd ∘ PlaneRecord.bare := rfl
  rw [hdup, ← List.map_map, ← List.map_map, h]

/-! ### Duplicating the planes -/

/-- The record is of a duplicate of the plane's descriptor. -/
def Duplicates (k k' : Kernel) (rec : PlaneRecord) (p : ExternalPlaneInfo) : Prop :=
  k'.fds.find? rec.dupedFd = k.fds.find? p.fd.toNat ∧ rec.offset = p.offset ∧ rec.pitch = p.pitch

/-- What `dup_planes` leaves, with the planes `recs` that it added. -/
structure Dupped (i : ι) (holds : ι → List ℕ) (base : List ℕ) (k : Kernel) (slot : DmaBufSlot)
    (ps : List ExternalPlaneInfo) (r : Kernel × DmaBufSlot × Option Errc)
    (recs : List PlaneRecord) : Prop where
  slot : r.2.1 = { slot with planes := slot.planes ++ recs }
  has : Has i holds (r.2.1.fds ++ base) r.1.Opened
  fds : ∀ n, k.Opened n → r.1.fds.find? n = k.fds.find? n
  handles : r.1.handles = k.handles
  fbs : r.1.fbs = k.fbs
  planes : r.2.2 = none → ∀ k₀ : Kernel,
    (∀ p ∈ ps, k.Opened p.fd.toNat ∧ k.fds.find? p.fd.toNat = k₀.fds.find? p.fd.toNat) →
    List.Forall₂ (Duplicates k₀ r.1) recs ps

theorem dupPlanes_spec (answer : ℕ → Except Errc ℕ) {base : List ℕ}
    (h : Has i holds (slot.fds ++ base) k.Opened) (ps : List ExternalPlaneInfo) :
    ∃ recs, Dupped i holds base k slot ps (dupPlanes answer k slot ps) recs := by
  induction ps generalizing k slot with
  | nil => exact ⟨[], by simp [dupPlanes], h, fun _ _ => rfl, rfl, rfl, fun _ _ _ => .nil⟩
  | cons p ps ih =>
    rw [dupPlanes]
    cases hdup : k.dupFd p.fd.toNat (answer slot.planes.length) with
    | error e => exact ⟨[], by simp, h, fun _ _ => rfl, rfl, rfl, fun hnone => by cases hnone⟩
    | ok dup =>
      obtain ⟨k', n⟩ := dup
      have hgain := has_dupFd h hdup
      have hkeeps := (dupFd_keeps hdup).1
      obtain ⟨d, hd, -, rfl⟩ := dupFd_ok hdup
      let rec' : PlaneRecord := { dupedFd := n, offset := p.offset, pitch := p.pitch }
      have hperm : (DmaBufSlot.fds { slot with planes := slot.planes ++ [rec'] } ++ base).Perm
          (n :: (slot.fds ++ base)) := by
        simp only [DmaBufSlot.fds, List.map_append, List.map_cons, List.map_nil, List.append_assoc]
        exact List.perm_middle
      obtain ⟨recs, hslot, hhas, hfds, hhandles, hfbs, hplanes⟩ := ih (hgain.perm hperm)
      refine ⟨rec' :: recs, ?_, hhas, fun m hm => ?_, hhandles, hfbs, fun hnone k₀ hps => ?_⟩
      · rw [hslot]
        simp [rec']
      · exact (hfds m (hkeeps m hm).1).trans (hkeeps m hm).2
      · obtain ⟨⟨-, hp⟩, hps⟩ := List.forall_mem_cons.mp hps
        refine .cons ⟨?_, rfl, rfl⟩ (hplanes hnone k₀ fun q hq => ?_)
        · refine (hfds n ((Table.contains_insertOrAssign k.fds n n d).mpr (.inl rfl))).trans ?_
          simp [← hp, hd]
        · obtain ⟨hqopen, hqsame⟩ := hps q hq
          exact ⟨(hkeeps _ hqopen).1, (hkeeps _ hqopen).2.trans hqsame⟩

/-! ### Handles and the framebuffer -/

/-- What an import of planes leaves: a handle for each plane of its buffer, if it succeeds. -/
structure Imported (k : Kernel) (device : ℕ) (recs : List PlaneRecord)
    (r : Kernel × List PlaneRecord × Option Errc) : Prop where
  fds : r.1.fds = k.fds
  fbs : r.1.fbs = k.fbs
  handles : ∀ key b, k.handles.find? key = some b → r.1.handles.find? key = some b
  bare : r.2.1.map PlaneRecord.bare = recs.map PlaneRecord.bare
  planes : r.2.2 = none → ∀ file, k.fds.find? device = some (.device file) →
    ∃ buffers : List BufferId,
      List.Forall₂ (fun rec b => k.fds.find? rec.dupedFd = some (.dmaBuf b) ∧
        r.1.handles.find? (file, rec.gemHandle) = some b) r.2.1 buffers

theorem importPlanes_spec (device : ℕ) (answer : ℕ → Except Errc GemHandle) (k : Kernel) (i : ℕ)
    (recs : List PlaneRecord) :
    Imported k device recs (importPlanes device answer k i recs) := by
  induction recs generalizing k i with
  | nil => exact ⟨rfl, rfl, fun _ _ h => h, rfl, fun _ _ _ => ⟨[], .nil⟩⟩
  | cons rec recs ih =>
    rw [importPlanes]
    cases hprime : k.primeFdToHandle device rec.dupedFd (answer i) with
    | error e => exact ⟨rfl, rfl, fun _ _ h => h, rfl, fun hnone => by cases hnone⟩
    | ok prime =>
      obtain ⟨k', h⟩ := prime
      obtain ⟨file, b, hfile, hn, hh, hfds, hfbs, hhandles⟩ := primeFdToHandle_ok hprime
      obtain ⟨hfds', hfbs', hhandles', hbare, hplanes⟩ := ih k' (i + 1)
      refine ⟨hfds'.trans hfds, hfbs'.trans hfbs,
        fun key b hb => hhandles' key b (hhandles key b hb), ?_, fun hnone file' hdevice => ?_⟩
      · rw [List.map_cons, List.map_cons, hbare]
        rfl
      · obtain rfl : file = file' := by
          rw [hdevice] at hfile
          cases hfile
          rfl
        obtain ⟨buffers, hbuffers⟩ := hplanes hnone file (hfds ▸ hdevice)
        refine ⟨b :: buffers, .cons ⟨hn, hhandles' _ _ hh⟩ (hbuffers.imp fun rec' b' hrec => ?_)⟩
        rwa [hfds] at hrec

/-- The records are of planes in these buffers, with these pitches and offsets. -/
def Reads (k : Kernel) (planes : List PlaneRecord) (given : List (BufferId × ℕ × ℕ)) : Prop :=
  List.Forall₂ (fun rec b => k.fds.find? rec.dupedFd = some (.dmaBuf b.1) ∧
    b.2 = (rec.pitch, rec.offset)) planes given

/-- A framebuffer is told its modifier, except for the implicit one; LINEAR may go unsaid. -/
def TellsModifier (modifier : ℕ) : Option ℕ → Prop
  | some m => m = modifier ∧ modifier ≠ modInvalid
  | none => modifier = modInvalid ∨ modifier = modLinear

theorem tellsModifier_addfb2 (cap : Bool) (modifier : ℕ) :
    TellsModifier modifier
      (if addfb2NeedsModifiers cap modifier then some modifier else none) := by
  unfold addfb2NeedsModifiers
  by_cases hinvalid : modifier = modInvalid
  · rw [if_pos hinvalid]
    exact .inl hinvalid
  · by_cases hlinear : modifier = modLinear
    · rw [if_neg hinvalid, if_neg (not_not_intro hlinear)]
      cases cap with
      | true => exact ⟨rfl, hinvalid⟩
      | false => exact .inr hlinear
    · rw [if_neg hinvalid, if_pos hlinear]
      exact ⟨rfl, hinvalid⟩

/-- The framebuffer is the one of the planes in the format, with the modifier of their slot. -/
structure Shows (k : Kernel) (fmt : SourceFormat) (slot : DmaBufSlot) (fb : DrmFramebuffer) :
    Prop where
  width : fb.width = fmt.width
  height : fb.height = fmt.height
  drmFourcc : fb.drmFourcc = fmt.drmFourcc
  modifier : TellsModifier slot.modifier fb.modifier
  planes : Reads k slot.planes fb.planes

/-- The kernel looks the planes up by their handles. -/
theorem planeBuffers_planes {file : FileId} {k₀ : Kernel} {planes : List PlaneRecord}
    {buffers : List BufferId} {found : List (BufferId × ℕ × ℕ)}
    (h : List.Forall₂ (fun rec b => k₀.fds.find? rec.dupedFd = some (.dmaBuf b) ∧
      k.handles.find? (file, rec.gemHandle) = some b) planes buffers)
    (hfound : k.planeBuffers file (planes.map fun rec => (rec.gemHandle, rec.pitch, rec.offset)) =
      some found) :
    Reads k₀ planes found := by
  induction h generalizing found with
  | nil =>
    cases hfound
    exact .nil
  | cons hrec _ ih =>
    rw [List.map_cons, planeBuffers, hrec.2] at hfound
    split at hfound
    · rename_i b rest hb hrest
      cases hfound
      cases hb
      exact .cons ⟨hrec.1, rfl⟩ (ih hrest)
    · cases hfound

/-- What `import_slot` leaves: a framebuffer that is new, if it succeeds. -/
structure SlotImported (k : Kernel) (device : ℕ) (slot : DmaBufSlot) (fmt : SourceFormat)
    (r : Kernel × DmaBufSlot × Option Errc) : Prop where
  fds : r.1.fds = k.fds
  bare : r.2.1.planes.map PlaneRecord.bare = slot.planes.map PlaneRecord.bare
  modifier : r.2.1.modifier = slot.modifier
  failed : ∀ e, r.2.2 = some e → r.1.fbs = k.fbs ∧ r.2.1.fbId = slot.fbId
  added : r.2.2 = none → r.2.1.fbId ≠ 0 ∧ k.fbs.find? r.2.1.fbId = none ∧
    ∃ fb, r.1.fbs = k.fbs.insertOrAssign r.2.1.fbId fb ∧
      k.fds.find? device = some (.device fb.file) ∧ Shows k fmt r.2.1 fb

theorem importSlot_spec (answers : ImportAnswers) (k : Kernel) (device : ℕ) (slot : DmaBufSlot)
    (fmt : SourceFormat) :
    SlotImported k device slot fmt (importSlot answers k device slot fmt) := by
  have himport := importPlanes_spec device answers.handle k 0 slot.planes
  unfold importSlot
  generalize importPlanes device answers.handle k 0 slot.planes = r at himport
  obtain ⟨k', planes, error⟩ := r
  obtain ⟨hfds, hfbs, -, hbare, hplanes⟩ := himport
  dsimp only at hfds hfbs hbare hplanes
  cases error with
  | some e => exact ⟨hfds, hbare, rfl, fun _ _ => ⟨hfbs, rfl⟩, fun hnone => by cases hnone⟩
  | none =>
    have htells := tellsModifier_addfb2 answers.modifiersCap slot.modifier
    dsimp only
    generalize (if addfb2NeedsModifiers answers.modifiersCap slot.modifier then some slot.modifier
      else none) = modifier at htells
    split
    · exact ⟨hfds, hbare, rfl, fun _ _ => ⟨hfbs, rfl⟩, fun hnone => by cases hnone⟩
    · rename_i k'' id hadd
      obtain ⟨file, found, hfile, hfound, hid, hfree, rfl⟩ := addFb_ok hadd
      rw [hfds] at hfile
      obtain ⟨buffers, hbuffers⟩ := hplanes rfl file hfile
      refine ⟨hfds, hbare, rfl, fun e herror => (by cases herror),
        fun _ => ⟨hid, hfbs ▸ hfree, ?_⟩⟩
      have hshows : Shows k fmt { slot with planes, fbId := id }
          ⟨file, fmt.width, fmt.height, fmt.drmFourcc, modifier, found⟩ :=
        ⟨rfl, rfl, rfl, htells, planeBuffers_planes hbuffers hfound⟩
      refine ⟨_, ?_, hfile, hshows⟩
      rw [hfbs]

/-! ### Teardown -/

theorem gemCloses_same (n : ℕ) (recs : List PlaneRecord) (k : Kernel) :
    let k' := recs.foldl
      (fun k rec => if rec.gemHandle ≠ 0 then k.gemClose n rec.gemHandle else k) k
    k'.fds = k.fds ∧ k'.fbs = k.fbs := by
  induction recs generalizing k with
  | nil => exact ⟨rfl, rfl⟩
  | cons rec recs ih =>
    dsimp only [List.foldl_cons]
    obtain ⟨hfds, hfbs⟩ := ih (if rec.gemHandle ≠ 0 then k.gemClose n rec.gemHandle else k)
    rw [hfds, hfbs]
    split
    · exact gemClose_same k n rec.gemHandle
    · exact ⟨rfl, rfl⟩

/-- What `teardown_slot` leaves. -/
structure TornDown (otherFd : ℕ → Prop) (otherFb newFb : FbId → Prop) (k : Kernel) (fd : Option ℕ)
    (slot : DmaBufSlot) (r : Kernel × DmaBufSlot) : Prop where
  fds : r.1.fds = k.fds
  spares : Spares otherFd otherFb newFb k r.1
  bare : r.2.planes.map PlaneRecord.bare = slot.planes.map PlaneRecord.bare
  modifier : r.2.modifier = slot.modifier
  none : fd.isSome → r.2.fbId = 0
  gone : ∀ n file fb, fd = some n → k.fds.find? n = some (.device file) →
    k.fbs.find? slot.fbId = some fb → fb.file = file → slot.fbId ≠ 0 →
    r.1.fbs.find? slot.fbId = .none

theorem teardownSlot_spec {otherFd : ℕ → Prop} (k : Kernel) (fd : Option ℕ)
    (hfb : slot.fbId ≠ 0 → ¬ otherFb slot.fbId) :
    TornDown otherFd otherFb newFb k fd slot (teardownSlot k fd slot) := by
  unfold teardownSlot
  cases fd with
  | none =>
    exact ⟨rfl, Spares.refl k, rfl, rfl, fun h => (by cases h), fun n _ _ hn => (by cases hn)⟩
  | some n =>
    dsimp only
    obtain ⟨hfds, hfbs⟩ := gemCloses_same n slot.planes
      (if slot.fbId ≠ 0 then k.rmFb n slot.fbId else k)
    have hbare : (slot.planes.map PlaneRecord.bare).map PlaneRecord.bare =
        slot.planes.map PlaneRecord.bare := List.map_map
    by_cases hid : slot.fbId ≠ 0
    · rw [if_pos hid] at hfds hfbs ⊢
      refine ⟨hfds.trans (rmFb_same k n _).1, ?_, hbare, rfl, fun _ => rfl, ?_⟩
      · exact (Spares.rmFb (hfb hid)).trans (Spares.of_same hfds hfbs)
      · rintro _ file fb ⟨⟩ hdevice hfound hfile -
        rw [hfbs, rmFb_find? hdevice hfound hfile, if_pos rfl]
    · rw [if_neg hid] at hfds hfbs ⊢
      exact ⟨hfds, Spares.of_same hfds hfbs, hbare, rfl, fun _ => rfl,
        fun _ _ _ _ _ _ _ hne => absurd hne hid⟩

theorem closeFds_spec {recs : List PlaneRecord} {base : List ℕ}
    (h : Has i holds (recs.map PlaneRecord.dupedFd ++ base) k.Opened) :
    let k' := recs.foldl (fun k rec => k.close rec.dupedFd) k
    Has i holds base k'.Opened ∧ Spares (Other i holds) otherFb newFb k k' := by
  induction recs generalizing k with
  | nil => exact ⟨h, Spares.refl k⟩
  | cons rec recs ih =>
    dsimp only [List.foldl_cons]
    have hclosed : Has i holds (recs.map PlaneRecord.dupedFd ++ base)
        (k.close rec.dupedFd).Opened := has_close h
    obtain ⟨hhas, hspares⟩ := ih hclosed
    exact ⟨hhas, (Spares.close (h.not_other List.mem_cons_self)).trans hspares⟩

theorem closeDeviceFd_spec {fd : Option ℕ} {base : List ℕ}
    (h : Has i holds (fd.toList ++ base) k.Opened) :
    Has i holds base (closeDeviceFd k fd).Opened ∧
      Spares (Other i holds) otherFb newFb k (closeDeviceFd k fd) := by
  cases fd with
  | none => exact ⟨h, Spares.refl k⟩
  | some n => exact ⟨has_close h, Spares.close (h.not_other List.mem_cons_self)⟩

/-- A slot and the card's descriptor are given back. -/
theorem closeAll_spec {fd : Option ℕ} (h : Has i holds (fd.toList ++ slot.fds) k.Opened) :
    let k' := closeSlotFds (closeDeviceFd k fd) slot
    Has i holds [] k'.Opened ∧ Spares (Other i holds) otherFb newFb k k' := by
  obtain ⟨hclosed, hspares⟩ := closeDeviceFd_spec (List.append_nil slot.fds ▸ h)
  obtain ⟨hempty, hspares'⟩ := closeFds_spec hclosed
  exact ⟨hempty, hspares.trans hspares'⟩

/-! ### The record a pool keeps -/

/-- What the pool's `submit` does for a key it has not seen. -/
def importBuffer (answers : ImportAnswers) (k : Kernel) (device : ℕ) (fmt : SourceFormat)
    (planes : List ExternalPlaneInfo) : Kernel × DmaBufSlot × Option Errc :=
  match dupPlanes answers.plane k { modifier := fmt.modifier } planes with
  | (k, slot, some e) => (k, slot, some e)
  | (k, slot, none) => importSlot answers k device slot fmt

/-- The pool's record of an imported slot: the planes as they were given, and the framebuffer. -/
structure Records (record : Scene.DmaBufSlot) (slot : DmaBufSlot) : Prop where
  fbId : record.fbId = slot.fbId
  modifier : record.modifier = slot.modifier
  planes : slot.planes.map (fun rec => (rec.offset, rec.pitch)) =
    record.planes.map fun p => (p.offset, p.pitch)

theorem layout_of_bare {planes planes' : List PlaneRecord}
    (h : planes'.map PlaneRecord.bare = planes.map PlaneRecord.bare) :
    planes'.map (fun rec => (rec.offset, rec.pitch)) =
      planes.map fun rec => (rec.offset, rec.pitch) := by
  have hlayout : (fun rec : PlaneRecord => (rec.offset, rec.pitch)) =
      (fun rec => (rec.offset, rec.pitch)) ∘ PlaneRecord.bare := rfl
  rw [hlayout, ← List.map_map, ← List.map_map, h]

theorem layout_dupPlanes {answer : ℕ → Except Errc ℕ} {ps : List ExternalPlaneInfo}
    (h : (dupPlanes answer k slot ps).2.2 = none) :
    (dupPlanes answer k slot ps).2.1.modifier = slot.modifier ∧
      (dupPlanes answer k slot ps).2.1.planes.map (fun rec => (rec.offset, rec.pitch)) =
        slot.planes.map (fun rec => (rec.offset, rec.pitch)) ++
          ps.map fun p => (p.offset, p.pitch) := by
  induction ps generalizing k slot with
  | nil => simp [dupPlanes]
  | cons p ps ih =>
    rw [dupPlanes] at h ⊢
    cases hdup : k.dupFd p.fd.toNat (answer slot.planes.length) with
    | error e =>
      rw [hdup] at h
      cases h
    | ok dup =>
      rw [hdup] at h
      obtain ⟨hmodifier, hplanes⟩ := ih h
      refine ⟨hmodifier, hplanes.trans ?_⟩
      simp

/-- A key whose buffer can be imported is recorded with the slot that the import left. -/
theorem importKey_of_importBuffer {answers : ImportAnswers} {device : ℕ}
    {planes : List ExternalPlaneInfo} {p : ExternalDmaBufPool} {key : SlotKey}
    (hnew : key ∉ p.slots) (hcount : planes ≠ [] ∧ planes.length ≤ kMaxPlanes)
    (hplanes : ∀ plane ∈ planes, 0 ≤ plane.fd ∧ plane.pitch ≠ 0)
    (himport : importBuffer answers k device p.format planes = (k', slot, none)) :
    ∃ (fb : ℕ+) (record : Scene.DmaBufSlot), Records record slot ∧
      p.importKey key planes (.ok fb) = .ok { p with slots := p.slots.insert key record } := by
  unfold importBuffer at himport
  split at himport
  · cases himport
  · rename_i k₁ slot₁ hdup
    obtain ⟨hmodifier, hlayout⟩ := layout_dupPlanes (congrArg (·.2.2) hdup)
    have hspec := importSlot_spec answers k₁ device slot₁ p.format
    rw [himport] at hspec
    rw [hdup] at hmodifier hlayout
    have hpos : 0 < slot.fbId := Nat.pos_of_ne_zero (hspec.added rfl).1
    refine ⟨⟨slot.fbId, hpos⟩, ⟨planes, slot.fbId, p.format.modifier⟩,
      ⟨rfl, (hspec.modifier.trans hmodifier).symm, (layout_of_bare hspec.bare).trans hlayout⟩, ?_⟩
    have hvalid : planes.any (fun plane => plane.fd < 0 || plane.pitch = 0) = false := by
      rw [List.any_eq_false]
      intro plane hplane
      simpa using hplanes plane hplane
    unfold ExternalDmaBufPool.importKey
    rw [if_neg hnew, if_neg (by simpa [hcount.1] using hcount.2), hvalid]
    rfl

end DrmCxx.Scene.Detail
