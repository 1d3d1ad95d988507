import DrmCxx.Verification.DmaBuf.Slots

/-!
# One source of an external buffer

What `create`, the destructor and a resume do to what a source holds: its descriptors, each its own,
and a framebuffer of the buffer it was made for.
-/

namespace DrmCxx.Scene

open Detail Detail.Kernel Lib Lib.Holdings

namespace ExternalDmaBufSource

/-- The descriptors the source holds. -/
def fds (src : ExternalDmaBufSource) : List ℕ := src.fd.toList ++ src.slot.fds

/-- The source's descriptors are of the planes `given`, and its framebuffer, if it has one, shows
these planes in the source's format, in the file of its card's descriptor. -/
structure Wired (k : Kernel) (src : ExternalDmaBufSource) (given : List (BufferId × ℕ × ℕ)) :
    Prop where
  planes : Reads k src.slot.planes given
  modifier : src.slot.modifier = src.format.modifier
  shown : src.slot.fbId ≠ 0 → ∃ n fb, src.fd = some n ∧
    k.fds.find? n = some (.device fb.file) ∧ k.fbs.find? src.slot.fbId = some fb ∧
    fb.width = src.format.width ∧ fb.height = src.format.height ∧
    fb.drmFourcc = src.format.drmFourcc ∧ TellsModifier src.format.modifier fb.modifier ∧
    fb.planes = given

section

variable {ι : Type*} [DecidableEq ι] {i : ι} {holds : ι → List ℕ}
  {otherFb newFb : FbId → Prop} {k k' : Kernel} {src : ExternalDmaBufSource}
  {given : List (BufferId × ℕ × ℕ)}

/-- The planes that the records stand for are the same, whatever their handles. -/
theorem reads_of_bare {planes planes' : List PlaneRecord}
    (hbare : planes'.map PlaneRecord.bare = planes.map PlaneRecord.bare)
    (h : Reads k planes given) : Reads k planes' given := by
  induction h generalizing planes' with
  | nil =>
    rw [List.map_nil, List.map_eq_nil_iff] at hbare
    subst hbare
    exact .nil
  | cons hrec _ ih =>
    obtain ⟨rec', planes', rfl, hrec', hbare⟩ := List.map_eq_cons_iff.mp hbare
    refine .cons ?_ (ih hbare)
    obtain ⟨dupedFd, gemHandle, offset, pitch⟩ := rec'
    cases hrec'
    exact hrec

/-- Two readings of the same descriptors are one. -/
theorem reads_unique {planes : List PlaneRecord} {given' : List (BufferId × ℕ × ℕ)}
    (h : Reads k planes given) (h' : Reads k planes given') : given = given' := by
  induction h generalizing given' with
  | nil =>
    cases h'
    rfl
  | cons hrec _ ih =>
    cases h' with
    | cons hrec' htail =>
      obtain ⟨hfd, hlayout⟩ := hrec
      obtain ⟨hfd', hlayout'⟩ := hrec'
      have hbuffer := hfd.symm.trans hfd'
      simp only [Option.some.injEq, Description.dmaBuf.injEq] at hbuffer
      rw [ih htail, Prod.ext hbuffer (hlayout.trans hlayout'.symm)]

theorem reads_of_fds {planes : List PlaneRecord} (h : Reads k planes given)
    (hfds : ∀ rec ∈ planes, k'.fds.find? rec.dupedFd = k.fds.find? rec.dupedFd) :
    Reads k' planes given := by
  refine ((List.forall₂_and_left _ _).mpr ⟨hfds, h⟩).imp ?_
  rintro rec b ⟨hsame, hfd, hlayout⟩
  exact ⟨hsame.trans hfd, hlayout⟩

/-- Handles and framebuffers are not what a source closes. -/
theorem has_of_bare {slot : Detail.DmaBufSlot} (h : Has i holds src.fds k.Opened)
    (hfds : k'.fds = k.fds)
    (hbare : slot.planes.map PlaneRecord.bare = src.slot.planes.map PlaneRecord.bare) :
    Has i holds (ExternalDmaBufSource.fds { src with slot }) k'.Opened := by
  have hsame : slot.fds = src.slot.fds := fds_of_bare hbare
  unfold Kernel.Opened
  rw [hfds, show ExternalDmaBufSource.fds { src with slot } = src.fds from
    congrArg (src.fd.toList ++ ·) hsame]
  exact h

/-- Calls for other holders leave a source as it is. -/
theorem Wired.spared {otherFd : ℕ → Prop} (h : Wired k src given)
    (hspares : Spares otherFd otherFb newFb k k') (hfds : ∀ n ∈ src.fds, otherFd n)
    (hfb : src.slot.fbId ≠ 0 → otherFb src.slot.fbId) : Wired k' src given where
  planes := by
    refine reads_of_fds h.planes fun rec hrec => hspares.fds _ (hfds _ ?_)
    exact List.mem_append_right _ (List.mem_map_of_mem hrec)
  modifier := h.modifier
  shown hid := by
    obtain ⟨n, fb, hn, hfile, hfound, hshows⟩ := h.shown hid
    have hother : otherFd n := hfds n (List.mem_append_left _ (by simp [hn]))
    exact ⟨n, fb, hn, (hspares.fds n hother).trans hfile,
      hspares.fbs n _ fb hother hfile (hfb hid) hfound, hshows⟩

/-! ### The destructor -/

variable (given) in
theorem destroy_spec (h : Has i holds src.fds k.Opened)
    (hfb : src.slot.fbId ≠ 0 → ¬ otherFb src.slot.fbId) :
    Has i holds [] (src.destroy k).1.Opened ∧
      Spares (Other i holds) otherFb (fun _ => False) k (src.destroy k).1 ∧
      (Wired k src given → src.slot.fbId ≠ 0 →
        (src.destroy k).1.fbs.find? src.slot.fbId = none) := by
  have htorn : TornDown (Other i holds) otherFb (fun _ => False) k src.fd src.slot
      (teardownSlot k src.fd src.slot) := teardownSlot_spec k src.fd hfb
  unfold destroy
  generalize teardownSlot k src.fd src.slot = r at htorn
  obtain ⟨k₁, slot⟩ := r
  obtain ⟨hfds, hspares, hbare, -, -, hgone⟩ := htorn
  dsimp only at hfds hspares hbare hgone ⊢
  have hhas : Has i holds (src.fd.toList ++ slot.fds) k₁.Opened := has_of_bare h hfds hbare
  obtain ⟨hempty, hspares'⟩ : Has i holds [] _ ∧
      Spares (Other i holds) otherFb (fun _ => False) k₁ _ := closeAll_spec hhas
  refine ⟨hempty, hspares.trans hspares', fun hwired hid => ?_⟩
  obtain ⟨n, fb, hn, hfile, hfound, -⟩ := hwired.shown hid
  refine Option.eq_none_iff_forall_ne_some.mpr fun fb' hfb' => ?_
  have hback := (hspares'.added _ _ hfb').resolve_left id
  rw [hgone n _ fb hn hfile hfound rfl hid] at hback
  cases hback

theorem unwound_spec (e : Errc) (h : Has i holds src.fds k.Opened)
    (hfb : src.slot.fbId ≠ 0 → ¬ otherFb src.slot.fbId) :
    Has i holds [] (unwound k src e).1.Opened ∧
      Spares (Other i holds) otherFb (fun _ => False) k (unwound k src e).1 := by
  obtain ⟨hempty, hspares, -⟩ := destroy_spec [] h hfb
  exact ⟨hempty, hspares⟩

/-! ### Importing into a source -/

/-- The framebuffers of others are there, in files that the others have open. -/
def LiveElsewhere (otherFd : ℕ → Prop) (otherFb : FbId → Prop) (k : Kernel) : Prop :=
  ∀ id, otherFb id → ∃ n fb, otherFd n ∧ k.fds.find? n = some (.device fb.file) ∧
    k.fbs.find? id = some fb

theorem LiveElsewhere.spared {otherFd : ℕ → Prop} (h : LiveElsewhere otherFd otherFb k)
    (hspares : Spares otherFd otherFb newFb k k') : LiveElsewhere otherFd otherFb k' := by
  intro id hid
  obtain ⟨n, fb, hn, hfile, hfb⟩ := h id hid
  exact ⟨n, fb, hn, (hspares.fds n hn).trans hfile, hspares.fbs n id fb hn hfile hid hfb⟩

/-- What a source has once its slot was imported through the descriptor `own`. -/
structure Rewired (otherFd : ℕ → Prop) (otherFb : FbId → Prop) (k k' : Kernel)
    (src : ExternalDmaBufSource) (given : List (BufferId × ℕ × ℕ)) : Prop where
  wired : Wired k' src given
  fbId : src.slot.fbId ≠ 0 ∧ ¬ otherFb src.slot.fbId
  spares : Spares otherFd otherFb (· = src.slot.fbId) k k'

theorem rewired_of_imported {otherFd : ℕ → Prop} {own : ℕ}
    {r : Kernel × Detail.DmaBufSlot × Option Errc}
    (himport : SlotImported k own src.slot src.format r) (hnone : r.2.2 = none)
    (hmodifier : src.slot.modifier = src.format.modifier)
    (hlive : LiveElsewhere otherFd otherFb k) :
    ∃ given, Rewired otherFd otherFb k r.1 { src with fd := some own, slot := r.2.1 } given ∧
      Reads k r.2.1.planes given := by
  obtain ⟨hfds, -, hslot, -, hadded⟩ := himport
  obtain ⟨hid, hfree, fb, hfbs, hfile, hwidth, hheight, hfourcc, htells, hreads⟩ := hadded hnone
  have hmodifier' := hslot.trans hmodifier
  rw [hmodifier'] at htells
  have hreads' : Reads r.1 r.2.1.planes fb.planes := reads_of_fds hreads fun _ _ => by rw [hfds]
  refine ⟨fb.planes, ⟨⟨hreads', hmodifier', fun _ => ?_⟩, ⟨hid, fun hother => ?_⟩,
    Spares.of_added hfds hfbs hfree rfl⟩, hreads⟩
  · exact ⟨own, fb, rfl, hfds ▸ hfile, by rw [hfbs]; simp, hwidth, hheight, hfourcc,
      htells, rfl⟩
  · obtain ⟨n, fb', -, -, hfound⟩ := hlive _ hother
    rw [hfree] at hfound
    cases hfound

/-! ### `create` -/

/-- What the caller's descriptor stands for. -/
def bufferAt (k : Kernel) (n : ℕ) : BufferId :=
  match k.fds.find? n with
  | some (.dmaBuf buffer) => buffer
  | _ => 0

/-- The planes the caller asks for. -/
def Request.asked (k : Kernel) (r : Request) : List (BufferId × ℕ × ℕ) :=
  r.planes.map fun p => (bufferAt k p.fd.toNat, p.pitch, p.offset)

theorem reads_given {ps : List ExternalPlaneInfo} {recs : List PlaneRecord}
    (hdup : List.Forall₂ (Duplicates k k') recs ps) (h : Reads k' recs given) :
    given = ps.map fun p => (bufferAt k p.fd.toNat, p.pitch, p.offset) := by
  induction hdup generalizing given with
  | nil =>
    cases h
    rfl
  | cons hrec _ ih =>
    cases h with
    | cons hread htail =>
      obtain ⟨hsame, hoffset, hpitch⟩ := hrec
      obtain ⟨hfd, hlayout⟩ := hread
      rw [hsame] at hfd
      rw [List.map_cons, ih htail, bufferAt, hfd, ← hoffset, ← hpitch]
      exact congrArg (· :: _) (Prod.ext rfl hlayout)

/-- A source that was created: it holds what it opened and shows the caller's planes. -/
structure Created (otherFd : ℕ → Prop) (otherFb : FbId → Prop) (k k' : Kernel) (req : Request)
    (src : ExternalDmaBufSource) (given : List (BufferId × ℕ × ℕ)) : Prop where
  rewired : Rewired otherFd otherFb k k' src given
  format : src.format = req.format
  onRelease : src.onRelease = req.onRelease
  notFired : src.onReleaseFired = false
  planes : (∀ p ∈ req.planes, k.Opened p.fd.toNat) → given = req.asked k

/-- An import into a source that was just made: it is unwound, or it shows its planes. -/
theorem imported_made {made : ExternalDmaBufSource} {own : ℕ}
    {r : Kernel × Detail.DmaBufSlot × Option Errc} (h : Has i holds made.fds k.Opened)
    (hown : made.fd = some own) (hzero : made.slot.fbId = 0)
    (hmodifier : made.slot.modifier = made.format.modifier)
    (hlive : LiveElsewhere (Other i holds) otherFb k)
    (himport : SlotImported k own made.slot made.format r) :
    (∀ e, r.2.2 = some e →
        Has i holds [] (unwound r.1 { made with slot := r.2.1 } e).1.Opened ∧
          Spares (Other i holds) otherFb (fun _ => False) k
            (unwound r.1 { made with slot := r.2.1 } e).1) ∧
      (r.2.2 = none → Has i holds (fds { made with slot := r.2.1 }) r.1.Opened ∧
        ∃ given, Rewired (Other i holds) otherFb k r.1 { made with slot := r.2.1 } given ∧
          Reads k r.2.1.planes given) := by
  have hsrc : Has i holds (fds { made with slot := r.2.1 }) r.1.Opened :=
    has_of_bare h himport.fds himport.bare
  refine ⟨fun e herror => ?_, fun hnone => ⟨hsrc, ?_⟩⟩
  · obtain ⟨hfbs, hid⟩ := himport.failed e herror
    have hnofb : r.2.1.fbId = 0 := hid.trans hzero
    obtain ⟨hempty, hspares⟩ := unwound_spec e hsrc (fun hne => absurd hnofb hne)
    exact ⟨hempty, (Spares.of_same himport.fds hfbs).trans hspares⟩
  · obtain ⟨given, hrewired, hreads⟩ := rewired_of_imported himport hnone hmodifier hlive
    rw [← hown] at hrewired
    exact ⟨given, hrewired, hreads⟩

theorem create_spec (answers : ImportAnswers) (req : Request) (h : Has i holds [] k.Opened)
    (hlive : LiveElsewhere (Other i holds) otherFb k) :
    let r := create answers k req
    (∃ e, r.2.2 = .error e ∧ Has i holds [] r.1.Opened ∧
        Spares (Other i holds) otherFb (fun _ => False) k r.1) ∨
      ∃ src given, r.2.2 = .ok src ∧ r.2.1 = 0 ∧ Has i holds src.fds r.1.Opened ∧
        Created (Other i holds) otherFb k r.1 req src given := by
  have hopened : ∀ n, Other i holds n → k.Opened n := fun n hn => h.isOpen (.inr hn)
  unfold create
  cases req.check with
  | some e => exact .inl ⟨e, rfl, h, Spares.refl k⟩
  | none =>
    dsimp only
    cases hdup : k.dupFd req.device.toNat answers.device with
    | error e => exact .inl ⟨e, rfl, h, Spares.refl k⟩
    | ok dup =>
      obtain ⟨k₁, own⟩ := dup
      obtain ⟨hkeeps, hfbs₁⟩ := dupFd_keeps hdup
      have hbase : Has i holds
          (Detail.DmaBufSlot.fds { modifier := req.format.modifier } ++ [own]) k₁.Opened :=
        has_dupFd h hdup
      obtain ⟨recs, hdupped⟩ := dupPlanes_spec answers.plane hbase req.planes
      dsimp only
      generalize dupPlanes answers.plane k₁ { modifier := req.format.modifier } req.planes = r
        at hdupped
      obtain ⟨k₂, slot, error⟩ := r
      obtain ⟨hslot, hhas, hfds, -, hfbs, hplanes⟩ := hdupped
      dsimp only at hslot hhas hfds hfbs hplanes
      have hspares₂ : Spares (Other i holds) otherFb (fun _ => False) k k₂ := by
        refine Spares.of_kept (fun n hn => ?_) (hfbs.trans hfbs₁) hopened
        obtain ⟨hstill, hsame⟩ := hkeeps n hn
        exact (hfds n hstill).trans hsame
      let made : ExternalDmaBufSource :=
        { fd := some own, slot, format := req.format, onRelease := req.onRelease }
      have hmade : Has i holds made.fds k₂.Opened :=
        hhas.perm (List.perm_append_singleton own slot.fds).symm
      have hzero : made.slot.fbId = 0 := congrArg Detail.DmaBufSlot.fbId hslot
      have hmodifier : made.slot.modifier = made.format.modifier :=
        congrArg Detail.DmaBufSlot.modifier hslot
      cases error with
      | some e =>
        obtain ⟨hempty, hspares⟩ := unwound_spec e hmade (fun hne => absurd hzero hne)
        exact .inl ⟨e, rfl, hempty, hspares₂.trans hspares⟩
      | none =>
        dsimp only
        have himport : SlotImported k₂ own made.slot made.format
            (importSlot answers k₂ own slot req.format) := importSlot_spec answers k₂ own slot _
        generalize importSlot answers k₂ own slot req.format = r at himport
        obtain ⟨hfailed, hok⟩ :=
          imported_made hmade rfl hzero hmodifier (hlive.spared hspares₂) himport
        obtain ⟨k₃, imported, error⟩ := r
        cases error with
        | some e =>
          obtain ⟨hempty, hspares⟩ := hfailed e rfl
          exact .inl ⟨e, rfl, hempty, hspares₂.trans hspares⟩
        | none =>
          obtain ⟨hsrc, given, ⟨hwired, hid, hspares⟩, hreads⟩ := hok rfl
          refine .inr ⟨_, given, rfl, rfl, hsrc, ⟨hwired, hid, ?_⟩, rfl, rfl, rfl, fun hps => ?_⟩
          · exact (hspares₂.mono fun _ hfalse => hfalse.elim).trans hspares
          · have hsame : Reads k₂ recs given := by
              refine reads_of_bare ?_ hreads
              rw [himport.bare, show made.slot.planes = recs from congrArg _ hslot]
            exact reads_given (hplanes rfl k fun p hp => hkeeps _ (hps p hp)) hsame

/-! ### Calls of `on_release` -/

/-- The calls of `on_release` that are still to come. -/
def pending (src : ExternalDmaBufSource) : ℕ :=
  if src.onRelease && !src.onReleaseFired then 1 else 0

/-- The request got as far as taking its `on_release`. -/
def Request.taken (answers : ImportAnswers) (k : Kernel) (r : Request) : Bool :=
  r.check.isNone && (k.dupFd r.device.toNat answers.device).isOk

/-- A destructor makes the call that is pending. -/
theorem destroy_calls (k : Kernel) (src : ExternalDmaBufSource) :
    (src.destroy k).2 = src.pending := by
  unfold destroy fireOnReleaseOnce pending
  cases src.onReleaseFired <;> cases src.onRelease <;> rfl

theorem unwound_calls (k : Kernel) (src : ExternalDmaBufSource) (e : Errc) :
    (unwound k src e).2.1 = src.pending := destroy_calls k src

theorem release_eq (src : ExternalDmaBufSource) :
    src.release = ({ src with onReleaseFired := true }, src.pending) := by
  obtain ⟨fd, slot, format, onRelease, fired⟩ := src
  cases fired <;> cases onRelease <;> rfl

/-- A request that took the `on_release` and failed has called it. -/
theorem create_calls (answers : ImportAnswers) (req : Request) (k : Kernel) :
    let r := create answers k req
    (∀ e, r.2.2 = .error e →
        r.2.1 = if req.onRelease && req.taken answers k then 1 else 0) ∧
      ∀ src, r.2.2 = .ok src → req.taken answers k = true := by
  unfold create Request.taken
  cases req.check with
  | some e => simp
  | none =>
    dsimp only
    cases hdup : k.dupFd req.device.toNat answers.device with
    | error e => simp [Except.isOk, Except.toBool]
    | ok dup =>
      obtain ⟨k₁, own⟩ := dup
      dsimp only
      split
      · rename_i k₂ slot e _
        refine ⟨fun _ _ => ?_, fun _ hok => (by cases hok)⟩
        rw [unwound_calls]
        simp [pending, Except.isOk, Except.toBool]
      · split
        · refine ⟨fun _ _ => ?_, fun _ hok => (by cases hok)⟩
          rw [unwound_calls]
          simp [pending, Except.isOk, Except.toBool]
        · exact ⟨fun _ herror => (by cases herror), fun _ _ => rfl⟩

/-! ### A resume -/

/-- The planes' descriptors stay when the card's is closed. -/
theorem closeDeviceFd_keeps (h : Has i holds src.fds k.Opened) (n : ℕ) (hn : n ∈ src.slot.fds) :
    (closeDeviceFd k src.fd).fds.find? n = k.fds.find? n := by
  have hnodup : (src.fd.toList ++ src.slot.fds).Nodup := h.nodup
  cases hfd : src.fd with
  | none => rfl
  | some own =>
    rw [hfd] at hnodup
    have hne : n ≠ own := fun heq => (List.nodup_cons.mp hnodup).1 (heq ▸ hn)
    simp [closeDeviceFd, close_fds, hne]

theorem reads_forgotten (h : Reads k src.slot.planes given) :
    Reads k src.forgotten.planes given := by
  refine reads_of_bare ?_ h
  rw [forgotten, List.map_map]
  rfl

theorem forgotten_fds (src : ExternalDmaBufSource) : src.forgotten.fds = src.slot.fds :=
  fds_of_bare (List.map_map.trans rfl)

/-- What a resume leaves: the source holds what is its own, and its framebuffer, if it has one, is
of the same planes. -/
structure Resumed (i : ι) (holds : ι → List ℕ) (otherFb : FbId → Prop) (k : Kernel)
    (src : ExternalDmaBufSource) (r : Kernel × ExternalDmaBufSource × Option Errc) : Prop where
  has : Has i holds r.2.1.fds r.1.Opened
  spares : Spares (Other i holds) otherFb (fun id => id ≠ 0 ∧ id = r.2.1.slot.fbId) k r.1
  wired : ∀ given, Wired k src given → Wired r.1 r.2.1 given
  fbId : r.2.1.slot.fbId ≠ 0 → ¬ otherFb r.2.1.slot.fbId
  shown : r.2.2 = none → r.2.1.slot.fbId ≠ 0
  kept : r.2.1.format = src.format ∧ r.2.1.onRelease = src.onRelease ∧
    r.2.1.onReleaseFired = src.onReleaseFired

section

variable {own : ℕ} {r : Kernel × Detail.DmaBufSlot × Option Errc} {k₂ : Kernel}

/-- The state of a source that has its new descriptor, before the import. -/
structure Reopened (i : ι) (holds : ι → List ℕ) (otherFb : FbId → Prop) (k : Kernel)
    (src : ExternalDmaBufSource) (own : ℕ) (k₂ : Kernel) : Prop where
  has : Has i holds (fds { src with fd := some own, slot := src.forgotten }) k₂.Opened
  spares : Spares (Other i holds) otherFb (fun _ => False) k k₂
  reads : ∀ given, Wired k src given → Reads k₂ src.forgotten.planes given

/-- A failed import is rolled back; the source keeps its descriptors and shows nothing. -/
theorem Reopened.failed (h : Reopened i holds otherFb k src own k₂)
    (himport : SlotImported k₂ own src.forgotten src.format r) {e : Errc}
    (herror : r.2.2 = some e) :
    Resumed i holds otherFb k src ((teardownSlot r.1 (some own) r.2.1).1,
      { src with fd := some own, slot := (teardownSlot r.1 (some own) r.2.1).2 }, some e) := by
  obtain ⟨hfbs, hzero⟩ := himport.failed e herror
  have htorn : TornDown (Other i holds) otherFb (fun _ => False) r.1 (some own) r.2.1
      (teardownSlot r.1 (some own) r.2.1) :=
    teardownSlot_spec r.1 (some own) fun hne => absurd hzero hne
  obtain ⟨hfds, hspares, hbare, hmodifier, hnone, -⟩ := htorn
  have hsame := hfds.trans himport.fds
  have hbare' := hbare.trans himport.bare
  have hid : (teardownSlot r.1 (some own) r.2.1).2.fbId = 0 := hnone rfl
  have hspares' : Spares (Other i holds) otherFb (fun _ => False) k r.1 :=
    h.spares.trans (Spares.of_same himport.fds hfbs)
  refine ⟨has_of_bare h.has hsame hbare', (hspares'.trans hspares).mono fun _ hfalse => hfalse.elim,
    fun given hw => ⟨?_, (hmodifier.trans himport.modifier).trans hw.modifier,
      fun hne => absurd hid hne⟩, fun hne => absurd hid hne,
    fun hok => (by cases hok), rfl, rfl, rfl⟩
  exact reads_of_bare hbare' (reads_of_fds (h.reads given hw) fun _ _ => by rw [hsame])

/-- An import that succeeds shows the planes anew. -/
theorem Reopened.shown (h : Reopened i holds otherFb k src own k₂)
    (himport : SlotImported k₂ own src.forgotten src.format r)
    (hmodifier : src.slot.modifier = src.format.modifier)
    (hlive : LiveElsewhere (Other i holds) otherFb k₂) (hnone : r.2.2 = none) :
    Resumed i holds otherFb k src (r.1, { src with fd := some own, slot := r.2.1 }, none) := by
  let made : ExternalDmaBufSource := { src with fd := some own, slot := src.forgotten }
  have himport' : SlotImported k₂ own made.slot made.format r := himport
  obtain ⟨given, ⟨hwired, hid, hspares⟩, hfound⟩ :=
    rewired_of_imported himport' hnone hmodifier hlive
  refine ⟨has_of_bare h.has himport.fds himport.bare, ?_, fun given' hw => ?_, fun _ => hid.2,
    fun _ => hid.1, rfl, rfl, rfl⟩
  · exact (h.spares.mono fun _ hfalse => hfalse.elim).trans
      (hspares.mono fun _ heq => ⟨heq ▸ hid.1, heq⟩)
  · have hplanes : Reads k₂ r.2.1.planes given' := reads_of_bare himport.bare (h.reads given' hw)
    rwa [reads_unique hplanes hfound]

end

theorem onSessionResumed_spec (answers : ImportAnswers) (newDevice : ℤ)
    (h : Has i holds src.fds k.Opened) (hmodifier : src.slot.modifier = src.format.modifier)
    (hlive : LiveElsewhere (Other i holds) otherFb k)
    (hfb : src.slot.fbId ≠ 0 → ¬ otherFb src.slot.fbId) :
    Resumed i holds otherFb k src (src.onSessionResumed answers k newDevice) := by
  unfold onSessionResumed
  split
  · exact ⟨h, Spares.refl k, fun _ hw => hw, hfb, fun hnone => (by cases hnone), rfl, rfl, rfl⟩
  · dsimp only
    obtain ⟨hclosed, hspares⟩ : Has i holds src.slot.fds (closeDeviceFd k src.fd).Opened ∧
        Spares (Other i holds) otherFb (fun _ => False) k (closeDeviceFd k src.fd) :=
      closeDeviceFd_spec h
    have hkeeps := closeDeviceFd_keeps h
    generalize closeDeviceFd k src.fd = k₁ at hclosed hspares hkeeps
    have hmem : ∀ rec ∈ src.forgotten.planes, rec.dupedFd ∈ src.slot.fds := by
      intro rec hrec
      rw [← forgotten_fds]
      exact List.mem_map_of_mem hrec
    have hreads : ∀ given, Wired k src given → Reads k₁ src.forgotten.planes given :=
      fun given hwired =>
        reads_of_fds (reads_forgotten hwired.planes) fun rec hrec => hkeeps _ (hmem rec hrec)
    cases hdup : k₁.dupFd newDevice.toNat answers.device with
    | error e =>
      have hhas : Has i holds src.forgotten.fds k₁.Opened := (forgotten_fds src).symm ▸ hclosed
      exact ⟨hhas, hspares.mono fun _ hfalse => hfalse.elim,
        fun given hw => ⟨hreads given hw, hw.modifier, fun hne => absurd rfl hne⟩,
        fun hne => absurd rfl hne, fun hnone => (by cases hnone), rfl, rfl, rfl⟩
    | ok dup =>
      obtain ⟨k₂, own⟩ := dup
      obtain ⟨hkept, hfbs⟩ := dupFd_keeps hdup
      have hreopened : Reopened i holds otherFb k src own k₂ := by
        refine ⟨?_, hspares.trans (Spares.of_kept (fun n hn => (hkept n hn).2) hfbs fun n hn =>
          hclosed.isOpen (.inr hn)), fun given hwired => ?_⟩
        · rw [show fds { src with fd := some own, slot := src.forgotten } = own :: src.slot.fds from
            congrArg (own :: ·) (forgotten_fds src)]
          exact has_dupFd hclosed hdup
        · exact reads_of_fds (hreads given hwired) fun rec hrec =>
            (hkept _ (hclosed.isOpen (.inl (hmem rec hrec)))).2
      dsimp only
      have himport := importSlot_spec answers k₂ own src.forgotten src.format
      generalize importSlot answers k₂ own src.forgotten src.format = r at himport
      have hlive₂ := hlive.spared hreopened.spares
      obtain ⟨k₃, imported, error⟩ := r
      cases error with
      | some e => exact hreopened.failed himport rfl
      | none => exact hreopened.shown himport hmodifier hlive₂ rfl

end

end ExternalDmaBufSource

end DrmCxx.Scene
