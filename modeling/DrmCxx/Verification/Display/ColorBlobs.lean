import DrmCxx.Display.CrtcColorPipeline
import DrmCxx.Lib.Custody

/-!
# The blobs of a colour pipeline

What each operation on a pipeline does to the kernel's blobs: the pipeline's stages hold the live
blobs of its descriptor, and nothing else changes. A setter that fails leaves the stages alone,
unless it is `set_identity`, at a later stage than its first.
-/

namespace DrmCxx.Display

open Lib (Conserved)

/-! ### The kernel's books -/

namespace Kernel

/-- A live blob was created on the descriptor under the id. -/
def Has (k : Kernel) (fd : Fd) (id : BlobId) : Prop := ∃ b ∈ k.live, b.fd = fd ∧ b.id = id

/-- Ids and descriptors are unique, and every blob is live, destroyed or forgotten. -/
structure Sound (k : Kernel) : Prop where
  nodupIds : (k.live.map (·.id)).Nodup
  ne_zero : ∀ b ∈ k.live, b.id ≠ 0
  isOpen : ∀ b ∈ k.live, b.fd ∈ k.openFds
  nodupFds : k.openFds.Nodup
  opened : ∀ fd ∈ k.openFds, fd < k.opened
  conserved : Conserved k.created
    [k.live.map (·.serial), k.destroyed.map (·.serial), k.forgotten.map (·.serial)]
  leaked : k.leaked = []
  strays : k.strays = []

theorem sound_empty : ({} : Kernel).Sound :=
  ⟨List.nodup_nil, by simp, by simp, List.nodup_nil, by simp, by decide, rfl, rfl⟩

namespace Sound

variable {ids : IdSource} {k : Kernel}

theorem eq_of_id (hk : k.Sound) {b b' : Blob} (hb : b ∈ k.live) (hb' : b' ∈ k.live)
    (h : b.id = b'.id) : b = b' :=
  List.inj_on_of_nodup_map hk.nodupIds hb hb' h

theorem dup (hk : k.Sound) : k.dup.1.Sound := by
  refine ⟨hk.nodupIds, hk.ne_zero, fun b hb => List.mem_cons_of_mem _ (hk.isOpen b hb),
    List.nodup_cons.mpr ⟨fun h => Nat.lt_irrefl _ (hk.opened _ h), hk.nodupFds⟩, ?_,
    hk.conserved, hk.leaked, hk.strays⟩
  intro fd hfd
  rcases List.mem_cons.mp hfd with rfl | hfd
  · exact Nat.lt_succ_self _
  · exact Nat.lt_succ_of_lt (hk.opened fd hfd)

/-- The kernel with a blob more. -/
theorem create (ids : IdSource) (hk : k.Sound) {fd : Fd} (hfd : fd ∈ k.openFds) (data : BlobData) :
    Sound { k with
      created := k.created + 1
      live := ⟨k.created, fd, ids.pick k, data⟩ :: k.live } where
  nodupIds := by
    refine List.nodup_cons.mpr ⟨fun h => ?_, hk.nodupIds⟩
    obtain ⟨b, hb, hid⟩ := List.mem_map.mp h
    exact ids.fresh k b hb hid
  ne_zero b hb := by
    rcases List.mem_cons.mp hb with rfl | hb
    · exact ids.ne_zero k
    · exact hk.ne_zero b hb
  isOpen b hb := by
    rcases List.mem_cons.mp hb with rfl | hb
    · exact hfd
    · exact hk.isOpen b hb
  nodupFds := hk.nodupFds
  opened := hk.opened
  conserved := by
    have h := (hk.conserved : List.Perm _ _).cons k.created
    rw [Conserved, List.range_succ]
    exact h.trans (List.perm_append_singleton _ _).symm
  leaked := hk.leaked
  strays := hk.strays

/-- A live blob is destroyed through the descriptor it was created on. -/
theorem destroy (hk : k.Sound) {fd : Fd} {id : BlobId} (hhas : k.Has fd id) :
    ∃ b ∈ k.live, b.fd = fd ∧ b.id = id ∧ k.destroyPropertyBlob fd id =
      { k with live := k.live.erase b, destroyed := b :: k.destroyed } := by
  obtain ⟨b, hb, rfl, rfl⟩ := hhas
  refine ⟨b, hb, rfl, rfl, ?_⟩
  unfold destroyPropertyBlob
  cases hf : k.live.find? fun b' => b'.id = b.id with
  | none =>
    have := List.find?_eq_none.mp hf b hb
    simp at this
  | some b' =>
    obtain rfl : b' = b :=
      hk.eq_of_id (List.mem_of_find?_eq_some hf) hb (by simpa using List.find?_some hf)
    simp [hk.isOpen b' hb]

theorem destroyPropertyBlob (hk : k.Sound) {fd : Fd} {id : BlobId} (hhas : k.Has fd id) :
    (k.destroyPropertyBlob fd id).Sound := by
  obtain ⟨b, hb, -, -, heq⟩ := hk.destroy hhas
  rw [heq]
  refine ⟨hk.nodupIds.sublist (List.erase_sublist.map _),
    fun b' hb' => hk.ne_zero b' (List.mem_of_mem_erase hb'),
    fun b' hb' => hk.isOpen b' (List.mem_of_mem_erase hb'), hk.nodupFds, hk.opened,
    hk.conserved.of_perm ?_, hk.leaked, hk.strays⟩
  refine List.perm_iff_count.mpr fun a => ?_
  have h := ((List.perm_cons_erase hb).map (·.serial)).count_eq a
  simp only [List.flatten_cons, List.map_cons, List.count_append, List.count_cons] at h ⊢
  omega

theorem has_destroyPropertyBlob (hk : k.Sound) {fd : Fd} {id : BlobId} (hhas : k.Has fd id)
    (fd' : Fd) (id' : BlobId) :
    (k.destroyPropertyBlob fd id).Has fd' id' ↔ k.Has fd' id' ∧ id' ≠ id := by
  obtain ⟨b, hb, -, rfl, heq⟩ := hk.destroy hhas
  have hnd : k.live.Nodup := List.Nodup.of_map _ hk.nodupIds
  rw [heq]
  constructor
  · rintro ⟨b', hb', rfl, rfl⟩
    obtain ⟨hne, hb'⟩ := hnd.mem_erase_iff.mp hb'
    exact ⟨⟨b', hb', rfl, rfl⟩, fun h => hne (hk.eq_of_id hb' hb h)⟩
  · rintro ⟨⟨b', hb', rfl, rfl⟩, hne⟩
    exact ⟨b', hnd.mem_erase_iff.mpr ⟨fun h => hne (h ▸ rfl), hb'⟩, rfl, rfl⟩

theorem rest_eq_nil {fd : Fd} (h : ∀ id, ¬ k.Has fd id) : (k.live.filter fun b => b.fd = fd) = [] :=
  List.filter_eq_nil_iff.mpr fun b hb hfd => h b.id ⟨b, hb, by simpa using hfd, rfl⟩

/-- A descriptor is closed: with nothing left on it, or because the session was lost. -/
theorem close (hk : k.Sound) {fd : Fd} {lost : Bool}
    (hempty : lost = false → ∀ id, ¬ k.Has fd id) : (k.close fd lost).Sound where
  nodupIds := hk.nodupIds.sublist (List.filter_sublist.map _)
  ne_zero b hb := hk.ne_zero b (List.mem_of_mem_filter hb)
  isOpen b hb := by
    obtain ⟨hb, hne⟩ := List.mem_filter.mp hb
    exact hk.nodupFds.mem_erase_iff.mpr ⟨by simpa using hne, hk.isOpen b hb⟩
  nodupFds := hk.nodupFds.sublist List.erase_sublist
  opened fd' hfd' := hk.opened fd' (List.mem_of_mem_erase hfd')
  conserved := by
    refine hk.conserved.of_perm (List.perm_iff_count.mpr fun a => ?_)
    have h := ((List.filter_append_perm (fun b : Blob => b.fd = fd) k.live).map
      (·.serial)).count_eq a
    simp only [Kernel.close, List.flatten_cons, List.map_append, List.count_append,
      decide_not] at h ⊢
    cases lost with
    | true =>
      simp only [if_true, List.map_append, List.count_append]
      omega
    | false =>
      rw [rest_eq_nil (hempty rfl)] at h
      simp only [List.map_nil, List.count_nil, Bool.false_eq_true, if_false] at h ⊢
      omega
  leaked := by
    cases lost with
    | true => exact hk.leaked
    | false => simp [Kernel.close, rest_eq_nil (hempty rfl), hk.leaked]
  strays := hk.strays

theorem ne_zero_of_has (hk : k.Sound) {fd : Fd} {id : BlobId} (h : k.Has fd id) : id ≠ 0 := by
  obtain ⟨b, hb, -, rfl⟩ := h
  exact hk.ne_zero b hb

theorem isOpen_of_has (hk : k.Sound) {fd : Fd} {id : BlobId} (h : k.Has fd id) :
    fd ∈ k.openFds := by
  obtain ⟨b, hb, rfl, -⟩ := h
  exact hk.isOpen b hb

/-- An id belongs to one descriptor. -/
theorem fd_of_has (hk : k.Sound) {fd fd' : Fd} {id : BlobId} (h : k.Has fd id)
    (h' : k.Has fd' id) : fd = fd' := by
  obtain ⟨b, hb, rfl, rfl⟩ := h
  obtain ⟨b', hb', rfl, hid⟩ := h'
  rw [hk.eq_of_id hb hb' hid.symm]

end Sound

theorem has_close {k : Kernel} {fd fd' : Fd} {id : BlobId} {lost : Bool} :
    (k.close fd lost).Has fd' id ↔ fd' ≠ fd ∧ k.Has fd' id := by
  constructor
  · rintro ⟨b, hb, rfl, rfl⟩
    obtain ⟨hb, hne⟩ := List.mem_filter.mp hb
    exact ⟨by simpa using hne, b, hb, rfl, rfl⟩
  · rintro ⟨hne, b, hb, rfl, rfl⟩
    exact ⟨b, List.mem_filter.mpr ⟨hb, by simpa using hne⟩, rfl, rfl⟩

theorem has_create {ids : IdSource} {k : Kernel} {fd fd' : Fd} {id : BlobId} {data : BlobData} :
    Has { k with
      created := k.created + 1
      live := ⟨k.created, fd, ids.pick k, data⟩ :: k.live } fd' id ↔
      k.Has fd' id ∨ (fd' = fd ∧ id = ids.pick k) := by
  constructor
  · rintro ⟨b, hb, rfl, rfl⟩
    rcases List.mem_cons.mp hb with rfl | hb
    · exact .inr ⟨rfl, rfl⟩
    · exact .inl ⟨b, hb, rfl, rfl⟩
  · rintro (⟨b, hb, rfl, rfl⟩ | ⟨rfl, rfl⟩)
    · exact ⟨b, List.mem_cons_of_mem _ hb, rfl, rfl⟩
    · exact ⟨_, List.mem_cons_self, rfl, rfl⟩

theorem not_has_pick (ids : IdSource) (k : Kernel) (fd : Fd) : ¬ k.Has fd (ids.pick k) := by
  rintro ⟨b, hb, -, hid⟩
  exact ids.fresh k b hb hid

/-- Blobs and descriptors are the same but for one descriptor. -/
def SameBut (fd? : Option Fd) (k k' : Kernel) : Prop :=
  ∀ fd, fd? ≠ some fd → (∀ id, k'.Has fd id ↔ k.Has fd id) ∧ (fd ∈ k'.openFds ↔ fd ∈ k.openFds)

theorem SameBut.refl (fd? : Option Fd) (k : Kernel) : SameBut fd? k k :=
  fun _ _ => ⟨fun _ => Iff.rfl, Iff.rfl⟩

theorem SameBut.trans {fd? : Option Fd} {k k' k'' : Kernel} (h : SameBut fd? k k')
    (h' : SameBut fd? k' k'') : SameBut fd? k k'' :=
  fun fd hfd => ⟨fun id => ((h' fd hfd).1 id).trans ((h fd hfd).1 id),
    (h' fd hfd).2.trans (h fd hfd).2⟩

end Kernel

/-! ### One pipeline -/

/-- The blobs of the pipeline's stages are the live blobs of its descriptor. -/
structure Owns (k : Kernel) (p : CrtcColorPipeline) : Prop where
  blank : p.fd = none → ∀ s, p.blob s = 0
  isOpen : ∀ fd, p.fd = some fd → fd ∈ k.openFds
  apart : ∀ s s', p.blob s ≠ 0 → p.blob s = p.blob s' → s = s'
  has_iff : ∀ fd, p.fd = some fd → ∀ id, k.Has fd id ↔ id ≠ 0 ∧ ∃ s, p.blob s = id

/-- What an operation on one pipeline that keeps its descriptor does. -/
structure Keeps (k : Kernel) (p : CrtcColorPipeline) (r : Kernel × CrtcColorPipeline) : Prop where
  sound : r.1.Sound
  owns : Owns r.1 r.2
  fd : r.2.fd = p.fd
  openFds : r.1.openFds = k.openFds
  opened : r.1.opened = k.opened
  same : Kernel.SameBut p.fd k r.1

variable {ids : IdSource} {k : Kernel} {p : CrtcColorPipeline}

/-- One stage's blob is gone, and perhaps a new one is in its place. -/
theorem Owns.update {k' : Kernel} (ho : Owns k p) (hopen : k'.openFds = k.openFds) (s : Stage)
    {new : BlobId} (hnone : p.fd = none → new = 0) (hnew : new ≠ 0 → ∀ s', p.blob s' ≠ new)
    (hhas : ∀ fd, p.fd = some fd → ∀ id,
      k'.Has fd id ↔ (k.Has fd id ∧ id ≠ p.blob s) ∨ (id ≠ 0 ∧ id = new)) :
    Owns k' { p with blob := Function.update p.blob s new } where
  blank hfd s' := by
    by_cases hs : s' = s
    · rw [hs, hnone hfd]
      exact Function.update_self ..
    · exact (Function.update_of_ne hs ..).trans (ho.blank hfd s')
  isOpen fd hfd := hopen ▸ ho.isOpen fd hfd
  apart s₁ s₂ h₁ h₁₂ := by
    by_cases hs₁ : s₁ = s
    · by_cases hs₂ : s₂ = s
      · rw [hs₁, hs₂]
      · simp only [hs₁, Function.update_self, Function.update_of_ne hs₂] at h₁ h₁₂
        exact absurd h₁₂.symm (hnew h₁ s₂)
    · by_cases hs₂ : s₂ = s
      · simp only [hs₂, Function.update_self, Function.update_of_ne hs₁] at h₁ h₁₂
        exact absurd h₁₂ (hnew (h₁₂ ▸ h₁) s₁)
      · simp only [Function.update_of_ne hs₁, Function.update_of_ne hs₂] at h₁ h₁₂
        exact ho.apart s₁ s₂ h₁ h₁₂
  has_iff fd hfd id := by
    rw [hhas fd hfd, ho.has_iff fd hfd]
    constructor
    · rintro (⟨⟨hid, s', hs'⟩, hne⟩ | ⟨hid, rfl⟩)
      · refine ⟨hid, s', ?_⟩
        rw [← hs'] at hne
        exact (Function.update_of_ne (fun h => hne (by rw [h])) ..).trans hs'
      · exact ⟨hid, s, Function.update_self ..⟩
    · rintro ⟨hid, s', hs'⟩
      by_cases hs : s' = s
      · simp only [hs, Function.update_self] at hs'
        exact .inr ⟨hid, hs'.symm⟩
      · simp only [Function.update_of_ne hs] at hs'
        refine .inl ⟨⟨hid, s', hs'⟩, ?_⟩
        rintro rfl
        exact hs (ho.apart s' s (hs' ▸ hid) hs')

/-- The pipeline's own blobs are of no other descriptor. -/
theorem Owns.ne_of_has (ho : Owns k p) (hk : k.Sound) {fd : Fd} (hfd : p.fd ≠ some fd)
    {id : BlobId} (h : k.Has fd id) (s : Stage) : id ≠ p.blob s := by
  rintro rfl
  have hne := hk.ne_zero_of_has h
  cases hown : p.fd with
  | none => exact hne (ho.blank hown s)
  | some fd' =>
    have := hk.fd_of_has ((ho.has_iff fd' hown _).mpr ⟨hne, s, rfl⟩) h
    exact hfd (this ▸ hown)

theorem Keeps.trans {k' : Kernel} {p' : CrtcColorPipeline} {r : Kernel × CrtcColorPipeline}
    (h : Keeps k p (k', p')) (h' : Keeps k' p' r) : Keeps k p r :=
  ⟨h'.sound, h'.owns, h'.fd.trans h.fd, h'.openFds.trans h.openFds, h'.opened.trans h.opened,
    h.same.trans (h.fd ▸ h'.same)⟩

namespace CrtcColorPipeline

theorem keeps_refl (hk : k.Sound) (ho : Owns k p) : Keeps k p (k, p) :=
  ⟨hk, ho, rfl, rfl, rfl, .refl _ _⟩

/-- The kernel side of `destroy_blob`, where the stage's blob is still there. -/
theorem destroyBlob_spec (hk : k.Sound) (s : Stage) (hnone : p.fd = none → p.blob s = 0)
    (hhas : ∀ fd, p.fd = some fd → p.blob s ≠ 0 → k.Has fd (p.blob s)) :
    (p.destroyBlob k s).1.Sound ∧ (p.destroyBlob k s).1.openFds = k.openFds ∧
      (p.destroyBlob k s).1.opened = k.opened ∧
      ∀ fd id, (p.destroyBlob k s).1.Has fd id ↔ k.Has fd id ∧ id ≠ p.blob s := by
  have hzero (h : p.blob s = 0) (fd id) : k.Has fd id ↔ k.Has fd id ∧ id ≠ p.blob s :=
    ⟨fun h' => ⟨h', h ▸ hk.ne_zero_of_has h'⟩, And.left⟩
  cases hfd : p.fd with
  | none =>
    have heq : (p.destroyBlob k s).1 = k := by simp [destroyBlob, hfd]
    rw [heq]
    exact ⟨hk, rfl, rfl, hzero (hnone hfd)⟩
  | some fd =>
    by_cases hb : p.blob s = 0
    · have heq : (p.destroyBlob k s).1 = k := by simp [destroyBlob, hfd, hb]
      rw [heq]
      exact ⟨hk, rfl, rfl, hzero hb⟩
    · have heq : (p.destroyBlob k s).1 = k.destroyPropertyBlob fd (p.blob s) := by
        simp [destroyBlob, hfd, hb]
      have hfound := hhas fd hfd hb
      obtain ⟨b, -, -, -, hdes⟩ := hk.destroy hfound
      rw [heq]
      exact ⟨hk.destroyPropertyBlob hfound, by rw [hdes], by rw [hdes],
        hk.has_destroyPropertyBlob hfound⟩

theorem keeps_destroyBlob (hk : k.Sound) (ho : Owns k p) (s : Stage) :
    Keeps k p (p.destroyBlob k s) := by
  obtain ⟨hsound, hopen, hopened, hhas⟩ := destroyBlob_spec hk s (fun h => ho.blank h s)
    (fun fd hfd hb => (ho.has_iff fd hfd _).mpr ⟨hb, s, rfl⟩)
  refine ⟨hsound, ho.update hopen s (fun _ => rfl) (fun h => absurd rfl h) fun fd hfd id => ?_,
    rfl, hopen, hopened, fun fd hfd => ⟨fun id => ?_, by rw [hopen]⟩⟩
  · rw [hhas]
    constructor
    · exact Or.inl
    · rintro (h | ⟨hne, h⟩)
      · exact h
      · exact absurd h hne
  · rw [hhas]
    exact and_iff_left_of_imp fun h => ho.ne_of_has hk hfd h s

/-- The id of a new blob is in no stage. -/
theorem blob_ne_pick (ids : IdSource) (ho : Owns k p) {fd : Fd} (hfd : p.fd = some fd) (s : Stage) :
    p.blob s ≠ ids.pick k := by
  intro h
  refine Kernel.not_has_pick ids k fd (h ▸ (ho.has_iff fd hfd _).mpr ⟨?_, s, rfl⟩)
  exact h ▸ ids.ne_zero k

/-- What `replace_lut_blob` and `replace_ctm_blob` come to. -/
theorem replaceBlob_cases (ids : IdSource) (ho : Owns k p) (s : Stage) (refusal : Option Errc)
    (data : BlobData) :
    (∃ e, p.replaceBlob ids k s refusal data = ((k, p), .error e) ∧
      (p.fd = none ∨ refusal ≠ none)) ∨
    ∃ fd, p.fd = some fd ∧ refusal = none ∧ fd ∈ k.openFds ∧
      p.replaceBlob ids k s refusal data =
        (((p.destroyBlob { k with
              created := k.created + 1
              live := ⟨k.created, fd, ids.pick k, data⟩ :: k.live } s).1,
          { p with blob := Function.update p.blob s (ids.pick k) }), .ok ()) := by
  unfold replaceBlob Kernel.createBlob
  cases hfd : p.fd with
  | none => exact .inl ⟨_, rfl, .inl rfl⟩
  | some fd =>
    cases refusal with
    | some e => exact .inl ⟨e, rfl, .inr (Option.some_ne_none e)⟩
    | none =>
      have hopen := ho.isOpen fd hfd
      refine .inr ⟨fd, rfl, rfl, hopen, ?_⟩
      simp only [hopen, if_true]
      simp [destroyBlob, hfd]

/-- A new blob is made before the old one goes. -/
theorem keeps_replaceBlob (ids : IdSource) (hk : k.Sound) (ho : Owns k p) (s : Stage)
    (refusal : Option Errc)
    (data : BlobData) : Keeps k p (p.replaceBlob ids k s refusal data).1 := by
  rcases replaceBlob_cases ids ho s refusal data with
    ⟨e, heq, -⟩ | ⟨fd, hfd, -, hopen, heq⟩
  · rw [heq]
    exact keeps_refl hk ho
  · rw [heq]
    have hpick (s' : Stage) := blob_ne_pick ids ho hfd s'
    obtain ⟨hsound, hopen', hopened, hhas⟩ := destroyBlob_spec (p := p)
      (hk.create ids hopen data) s (fun h => ho.blank h s) (fun fd' hfd' hb =>
        Kernel.has_create.mpr (.inl ((ho.has_iff fd' hfd' _).mpr ⟨hb, s, rfl⟩)))
    refine ⟨hsound, ho.update hopen' s (fun h => absurd (hfd.symm.trans h) (Option.some_ne_none _))
      (fun _ => hpick) fun fd' hfd' id => ?_, rfl, hopen', hopened,
      fun fd' hfd' => ⟨fun id => ?_, by rw [hopen']⟩⟩
    · obtain rfl : fd = fd' := Option.some.inj (hfd.symm.trans hfd')
      rw [hhas, Kernel.has_create]
      constructor
      · rintro ⟨h | ⟨-, rfl⟩, hne⟩
        · exact .inl ⟨h, hne⟩
        · exact .inr ⟨ids.ne_zero k, rfl⟩
      · rintro (⟨h, hne⟩ | ⟨-, rfl⟩)
        · exact ⟨.inl h, hne⟩
        · exact ⟨.inr ⟨rfl, rfl⟩, (hpick s).symm⟩
    · rw [hhas, Kernel.has_create]
      constructor
      · rintro ⟨h | ⟨rfl, -⟩, -⟩
        · exact h
        · exact absurd hfd hfd'
      · exact fun h => ⟨.inl h, ho.ne_of_has hk hfd' h s⟩

theorem keeps_setIdentityOf (refusal : Stage → Option Errc) (stages : List Stage)
    (hk : k.Sound) (ho : Owns k p) : Keeps k p (setIdentityOf ids refusal stages k p).1 := by
  induction stages generalizing k p with
  | nil => exact keeps_refl hk ho
  | cons s rest ih =>
    unfold setIdentityOf
    split
    · have h := keeps_replaceBlob ids hk ho s (refusal s) (p.identityData s)
      revert h
      rcases p.replaceBlob ids k s (refusal s) (p.identityData s) with ⟨⟨k', p'⟩, e | u⟩
      · exact id
      · exact fun h => h.trans (ih h.sound h.owns)
    · exact ih hk ho

theorem keeps_setIdentity (refusal : Stage → Option Errc) (hk : k.Sound) (ho : Owns k p) :
    Keeps k p (p.setIdentity ids k refusal).1 := by
  unfold setIdentity
  split
  · exact keeps_refl hk ho
  · exact keeps_setIdentityOf refusal _ hk ho

theorem keeps_setStage (s : Stage) (refusal : Option Errc) (data : BlobData) (hk : k.Sound)
    (ho : Owns k p) : Keeps k p (p.setStage ids k s refusal data).1 := by
  unfold setStage
  split
  · exact keeps_refl hk ho
  · exact keeps_replaceBlob ids hk ho s refusal data

theorem keeps_setCustomLut (s : Stage) (size : ℕ) (refusal : Option Errc) (lut : List ColorLut)
    (hk : k.Sound) (ho : Owns k p) : Keeps k p (p.setCustomLut ids k s size refusal lut).1 := by
  unfold setCustomLut
  split
  · exact keeps_refl hk ho
  · split
    · exact keeps_refl hk ho
    · exact keeps_replaceBlob ids hk ho s refusal _

/-! ### Failing setters -/

theorem replaceBlob_error (s : Stage) (refusal : Option Errc) (data : BlobData) {e : Errc}
    (h : (p.replaceBlob ids k s refusal data).2 = .error e) :
    (p.replaceBlob ids k s refusal data).1.2 = p := by
  revert h
  unfold replaceBlob
  rcases k.createBlob ids p.fd refusal data with ⟨k', e' | id⟩
  · exact fun _ => rfl
  · exact fun h => nomatch h

theorem setStage_error (s : Stage) (refusal : Option Errc) (data : BlobData) {e : Errc}
    (h : (p.setStage ids k s refusal data).2 = .error e) :
    (p.setStage ids k s refusal data).1.2 = p := by
  revert h
  unfold setStage
  split
  · exact fun _ => rfl
  · exact replaceBlob_error s refusal data

theorem setCustomLut_error (s : Stage) (size : ℕ) (refusal : Option Errc) (lut : List ColorLut)
    {e : Errc} (h : (p.setCustomLut ids k s size refusal lut).2 = .error e) :
    (p.setCustomLut ids k s size refusal lut).1.2 = p := by
  revert h
  unfold setCustomLut
  split
  · exact fun _ => rfl
  · split
    · exact fun _ => rfl
    · exact replaceBlob_error s refusal _

/-- Of the stages that are asked for, the kernel refuses the first or none. -/
def AtOnce (refusal : Stage → Option Errc) : List Stage → Prop
  | [] => True
  | s :: rest => refusal s ≠ none ∨ ∀ s' ∈ rest, refusal s' = none

instance decidableAtOnce (refusal : Stage → Option Errc) :
    ∀ stages, Decidable (AtOnce refusal stages)
  | [] => .isTrue trivial
  | _ :: _ => inferInstanceAs (Decidable (_ ∨ _))

theorem blob_setIdentityOf (ids : IdSource) {s : Stage} {stages : List Stage} (hs : s ∉ stages)
    (refusal : Stage → Option Errc) (hk : k.Sound) (ho : Owns k p) :
    (setIdentityOf ids refusal stages k p).1.2.blob s = p.blob s := by
  induction stages generalizing k p with
  | nil => rfl
  | cons s' rest ih =>
    obtain ⟨hne, hrest⟩ := not_or.mp (mt List.mem_cons.mpr hs)
    unfold setIdentityOf
    split
    · have hkeep := keeps_replaceBlob ids hk ho s' (refusal s') (p.identityData s')
      rcases replaceBlob_cases ids ho s' (refusal s') (p.identityData s') with
        ⟨e, heq, -⟩ | ⟨fd, -, -, -, heq⟩
      · rw [heq]
      · rw [heq] at hkeep ⊢
        exact (ih hrest hkeep.sound hkeep.owns).trans (Function.update_of_ne hne ..)
    · exact ih hrest hk ho

theorem setIdentityOf_isOk (ids : IdSource) (refusal : Stage → Option Errc) (stages : List Stage)
    (hk : k.Sound) (ho : Owns k p) :
    (setIdentityOf ids refusal stages k p).2 = .ok () ↔
      ∀ s ∈ stages.filter p.caps.has, p.fd ≠ none ∧ refusal s = none := by
  induction stages generalizing k p with
  | nil => simp [setIdentityOf]
  | cons s rest ih =>
    unfold setIdentityOf
    by_cases hs : p.caps.has s
    · rw [if_pos hs, List.filter_cons_of_pos hs]
      have hkeep := keeps_replaceBlob ids hk ho s (refusal s) (p.identityData s)
      rcases replaceBlob_cases ids ho s (refusal s) (p.identityData s) with
        ⟨e, heq, hno⟩ | ⟨fd, hfd, href, -, heq⟩
      · rw [heq]
        refine ⟨(nomatch ·), fun h => ?_⟩
        obtain ⟨hfd, href⟩ := h s List.mem_cons_self
        exact absurd hno (by simp [hfd, href])
      · rw [heq] at hkeep ⊢
        refine (ih hkeep.sound hkeep.owns).trans ?_
        simp [hfd, href]
    · rw [if_neg hs, List.filter_cons_of_neg hs]
      exact ih hk ho

/-- A failure leaves the stages alone exactly when it is the first stage's. -/
theorem setIdentityOf_atomic (refusal : Stage → Option Errc) {stages : List Stage}
    (hnd : stages.Nodup) (hk : k.Sound) (ho : Owns k p) (same : CrtcColorPipeline → Prop)
    (hsame : same p) (hblobs : ∀ p', same p' → p'.blob = p.blob) :
    ((setIdentityOf ids refusal stages k p).2 ≠ .ok () →
        same (setIdentityOf ids refusal stages k p).1.2) ↔
      (p.fd ≠ none → AtOnce refusal (stages.filter p.caps.has)) := by
  induction stages generalizing k with
  | nil => simp [setIdentityOf, AtOnce]
  | cons s rest ih =>
    obtain ⟨hs, hrest⟩ := List.nodup_cons.mp hnd
    unfold setIdentityOf
    by_cases hhas : p.caps.has s
    · rw [if_pos hhas, List.filter_cons_of_pos hhas]
      have hkeep := keeps_replaceBlob ids hk ho s (refusal s) (p.identityData s)
      rcases replaceBlob_cases ids ho s (refusal s) (p.identityData s) with
        ⟨e, heq, hno⟩ | ⟨fd, hfd, href, -, heq⟩
      · rw [heq]
        refine iff_of_true (fun _ => hsame) fun hfd => ?_
        exact .inl (hno.resolve_left hfd)
      · rw [heq] at hkeep ⊢
        -- the first stage was replaced, so the rest must not fail
        have hok := setIdentityOf_isOk ids refusal rest hkeep.sound hkeep.owns
        have hblob := blob_setIdentityOf ids hs refusal hkeep.sound hkeep.owns
        have hchanged : ¬ same (setIdentityOf ids refusal rest _ _).1.2 := fun h =>
          blob_ne_pick ids ho hfd s ((congrFun (hblobs _ h) s).symm.trans
            (hblob.trans (Function.update_self ..)))
        constructor
        · intro h _
          refine .inr fun s' hs' => ?_
          have hdone := Classical.not_not.mp (mt h hchanged)
          exact (hok.mp hdone s' hs').2
        · intro h hfail
          refine absurd (hok.mpr fun s' hs' => ⟨by simp [hfd], ?_⟩) hfail
          exact (h (by simp [hfd])).resolve_left (fun h0 => h0 href) s' hs'
    · rw [if_neg hhas, List.filter_cons_of_neg hhas]
      exact ih hrest hk ho

theorem setIdentity_atomic (ids : IdSource) (refusal : Stage → Option Errc) (hk : k.Sound)
    (ho : Owns k p)
    (same : CrtcColorPipeline → Prop) (hsame : same p)
    (hblobs : ∀ p', same p' → p'.blob = p.blob) :
    ((p.setIdentity ids k refusal).2 ≠ .ok () → same (p.setIdentity ids k refusal).1.2) ↔
      (p.fd ≠ none → AtOnce refusal (stages.filter p.caps.has)) := by
  unfold setIdentity
  split
  · rename_i hnone
    have hempty : stages.filter p.caps.has = [] :=
      List.filter_eq_nil_iff.mpr fun s hs => by simpa using List.all_eq_true.mp hnone s hs
    rw [hempty]
    exact iff_of_true (fun _ => hsame) fun _ => trivial
  · exact setIdentityOf_atomic refusal (by decide) hk ho same hsame hblobs

/-! ### Applying -/

/-- A write is of a stage's blob. -/
theorem mem_applyOf {refusal : Stage → Option Errc} {stages : List Stage} {x : ℕ × PropId × BlobId}
    (hx : x ∈ (p.applyOf refusal stages).1) : ∃ s, x = (p.crtcId, p.prop s, p.blob s) ∧
      p.blob s ≠ 0 := by
  induction stages with
  | nil => cases hx
  | cons s rest ih =>
    unfold applyOf at hx
    split at hx
    · exact ih hx
    · rename_i hblob
      split at hx
      · cases hx
      · split at hx
        · cases hx
        · rcases List.mem_cons.mp hx with rfl | hx
          · exact ⟨s, rfl, hblob⟩
          · exact ih hx

/-! ### Descriptors come and go -/

end CrtcColorPipeline

/-- What an operation on one pipeline does that may close its descriptor or open another. -/
structure Acts (k : Kernel) (p : CrtcColorPipeline) (r : Kernel × CrtcColorPipeline) : Prop where
  sound : r.1.Sound
  owns : Owns r.1 r.2
  fd : ∀ fd, r.2.fd = some fd → p.fd = some fd ∨ fd ∉ k.openFds
  same : ∀ fd, p.fd ≠ some fd → r.2.fd ≠ some fd →
    (∀ id, r.1.Has fd id ↔ k.Has fd id) ∧ (fd ∈ r.1.openFds ↔ fd ∈ k.openFds)
  gone : ∀ fd, p.fd = some fd → r.2.fd ≠ some fd → fd ∉ r.1.openFds

theorem Keeps.acts {r : Kernel × CrtcColorPipeline} (h : Keeps k p r) : Acts k p r :=
  ⟨h.sound, h.owns, fun _ hfd => .inl (h.fd ▸ hfd), fun fd hfd _ => h.same fd hfd,
    fun _ hfd hfd' => absurd (h.fd ▸ hfd) hfd'⟩

theorem Acts.trans {k' : Kernel} {p' : CrtcColorPipeline} {r : Kernel × CrtcColorPipeline}
    (hk : k.Sound) (h : Acts k p (k', p')) (h' : Acts k' p' r) : Acts k p r where
  sound := h'.sound
  owns := h'.owns
  fd fd hfd := by
    refine or_iff_not_imp_left.mpr fun hne hin => ?_
    have hin' : fd ∈ k'.openFds := by
      by_cases hmid : p'.fd = some fd
      · exact h.owns.isOpen fd hmid
      · exact (h.same fd hne hmid).2.mpr hin
    rcases h'.fd fd hfd with hmid | hout
    · exact (h.fd fd hmid).elim hne (· hin)
    · exact hout hin'
  same fd hne hne' := by
    by_cases hmid : p'.fd = some fd
    · have hout := (h.fd fd hmid).resolve_left hne
      have hout' := h'.gone fd hmid hne'
      exact ⟨fun id => iff_of_false (mt h'.sound.isOpen_of_has hout') (mt hk.isOpen_of_has hout),
        iff_of_false hout' hout⟩
    · have h₁ := h.same fd hne hmid
      have h₂ := h'.same fd hmid hne'
      exact ⟨fun id => (h₂.1 id).trans (h₁.1 id), h₂.2.trans h₁.2⟩
  gone fd hfd hne' := by
    by_cases hmid : p'.fd = some fd
    · exact h'.gone fd hmid hne'
    · exact mt (h'.same fd hmid hne').2.mp (h.gone fd hfd hmid)

namespace CrtcColorPipeline

/-- Closing what is empty, or lost with the session, leaves a blank pipeline. -/
theorem acts_closeFd (hk : k.Sound) (ho : Owns k p) (lost : Bool)
    (hempty : lost = false → ∀ s, p.blob s = 0) :
    Acts k p ((p.closeFd k lost).1, { (p.closeFd k lost).2 with blob := fun _ => 0 }) := by
  have hblank : Owns (p.closeFd k lost).1
      { (p.closeFd k lost).2 with blob := fun _ => 0 } :=
    ⟨fun _ _ => rfl, nofun, fun _ _ h => absurd rfl h, nofun⟩
  cases hfd : p.fd with
  | none =>
    have heq : (p.closeFd k lost).1 = k := by simp [closeFd, hfd]
    rw [heq] at hblank ⊢
    exact ⟨hk, hblank, nofun, fun _ _ _ => ⟨fun _ => Iff.rfl, Iff.rfl⟩,
      fun _ h => absurd (hfd.symm.trans h) nofun⟩
  | some fd =>
    have heq : (p.closeFd k lost).1 = k.close fd lost := by simp [closeFd, hfd]
    have hrest (hl : lost = false) (id : BlobId) : ¬ k.Has fd id := by
      rw [ho.has_iff fd hfd]
      rintro ⟨hid, s, hs⟩
      exact hid (hs ▸ hempty hl s)
    rw [heq] at hblank ⊢
    refine ⟨hk.close hrest, hblank, nofun, fun fd' hfd' _ => ?_, fun fd' hfd' _ h => ?_⟩
    · have hne : fd' ≠ fd := fun h => hfd' (h ▸ hfd)
      refine ⟨fun id => Kernel.has_close.trans (and_iff_right hne), ?_⟩
      exact hk.nodupFds.mem_erase_iff.trans (and_iff_right hne)
    · exact (hk.nodupFds.mem_erase_iff.mp h).1 (Option.some.inj (hfd'.symm.trans hfd))

theorem acts_clearForSessionLoss (hk : k.Sound) (ho : Owns k p) :
    Acts k p (p.clearForSessionLoss k) :=
  acts_closeFd hk ho true nofun

/-- The destructor takes every stage's blob, and then the descriptor. -/
theorem acts_release (hk : k.Sound) (ho : Owns k p) :
    Acts k p (p.release k) ∧ (p.release k).2.fd = none := by
  have h₁ := keeps_destroyBlob hk ho .degamma
  have h₂ := keeps_destroyBlob h₁.sound h₁.owns .ctm
  have h₃ := keeps_destroyBlob h₂.sound h₂.owns .gamma
  have hzero (s : Stage) : ((((p.destroyBlob k .degamma).2.destroyBlob
      (p.destroyBlob k .degamma).1 .ctm).2).destroyBlob (((p.destroyBlob k .degamma).2.destroyBlob
      (p.destroyBlob k .degamma).1 .ctm).1) .gamma).2.blob s = 0 := by
    cases s <;> rfl
  have hclose := acts_closeFd h₃.sound h₃.owns false fun _ => hzero
  refine ⟨?_, rfl⟩
  have hacts := (h₁.trans (h₂.trans h₃)).acts.trans hk hclose
  rw [← funext hzero] at hacts
  exact hacts

/-- A pipeline without a descriptor gets a new one. -/
theorem acts_dup (hk : k.Sound) (ho : Owns k p) (hfd : p.fd = none) :
    Acts k p (k.dup.1, { p with fd := some k.dup.2 }) := by
  have hzero (s : Stage) : p.blob s = 0 := ho.blank hfd s
  have hnew : k.opened ∉ k.openFds := fun h => Nat.lt_irrefl _ (hk.opened _ h)
  refine ⟨hk.dup, ⟨nofun, ?_, fun s _ hne => absurd (hzero s) hne, ?_⟩, ?_, ?_, ?_⟩
  · rintro fd ⟨⟩
    exact List.mem_cons_self
  · rintro fd ⟨⟩ id
    refine iff_of_false (mt hk.isOpen_of_has hnew) ?_
    rintro ⟨hid, s, hs⟩
    exact hid (hs ▸ hzero s)
  · rintro fd ⟨⟩
    exact .inr hnew
  · intro fd _ hne
    refine ⟨fun id => Iff.rfl, List.mem_cons.trans (or_iff_right ?_)⟩
    rintro rfl
    exact hne rfl
  · intro fd hown
    exact absurd (hfd.symm.trans hown) nofun

theorem acts_onSessionResumed (deviceOpen : Bool) (refusal : Option Errc) (hk : k.Sound)
    (ho : Owns k p) : Acts k p (p.onSessionResumed k deviceOpen refusal).1 := by
  have hclear := acts_clearForSessionLoss hk ho
  unfold onSessionResumed
  cases deviceOpen with
  | false => exact hclear
  | true =>
    cases refusal with
    | some e => exact hclear
    | none => exact hclear.trans hk (acts_dup hclear.sound hclear.owns rfl)

theorem owns_blank (k : Kernel) {p : CrtcColorPipeline} (hfd : p.fd = none)
    (hblob : ∀ s, p.blob s = 0) : Owns k p :=
  ⟨fun _ => hblob, fun _ h => absurd (hfd.symm.trans h) nofun, fun s _ h => absurd (hblob s) h,
    fun _ h => absurd (hfd.symm.trans h) nofun⟩

/-- `create` acts as one that starts from a blank pipeline, and ends with one where it fails. -/
theorem acts_create (hk : k.Sound) (crtcId : ℕ) (caps : Except Errc CrtcCapabilities)
    (dupRefusal : Option Errc) (props : Except Errc (Stage → PropId)) :
    Acts k {} ((create k crtcId caps dupRefusal props).1,
      (create k crtcId caps dupRefusal props).2.toOption.getD {}) := by
  have hblank (k : Kernel) : Owns k {} := owns_blank k rfl fun _ => rfl
  have hrefl : Acts k {} (k, {}) := (keeps_refl hk (hblank k)).acts
  unfold create
  cases caps with
  | error e => exact hrefl
  | ok caps =>
    simp only
    split
    · exact hrefl
    · cases dupRefusal with
      | some e => exact hrefl
      | none =>
        have hdup := acts_dup (p := { crtcId, caps }) hk (owns_blank k rfl fun _ => rfl) rfl
        cases props with
        | ok prop =>
          exact ⟨hdup.sound, ⟨nofun, hdup.owns.isOpen, hdup.owns.apart, hdup.owns.has_iff⟩,
            hdup.fd, hdup.same, hdup.gone⟩
        | error e =>
          have hrel := (acts_release hdup.sound hdup.owns).1
          have hacts := hdup.trans hk hrel
          exact ⟨hacts.sound, hblank _, nofun, fun fd hne _ => hacts.same fd hne nofun, nofun⟩

end CrtcColorPipeline

end DrmCxx.Display
