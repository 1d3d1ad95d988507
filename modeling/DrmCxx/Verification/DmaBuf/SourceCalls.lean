import DrmCxx.Verification.DmaBuf.Holders

/-!
# The calls on a source beside the others

Making, destroying, releasing and resuming a source is a step for it, whatever the kernel answers:
the application and the other sources keep what they hold.
-/

namespace DrmCxx.Scene

open Detail Detail.Kernel Lib Lib.Holdings ExternalDmaBufSource

variable {κ : Type*} [DecidableEq κ]

/-- A request whose descriptors are open gets their planes. -/
theorem ExternalDmaBufSource.Request.given_of_asked? {k : Kernel} {r : Request}
    {given : List (BufferId × ℕ × ℕ)}
    (h : (∀ p ∈ r.planes, k.Opened p.fd.toNat) → given = r.asked k)
    (planes : List (BufferId × ℕ × ℕ)) (hasked : r.asked? k = some planes) : given = planes := by
  unfold Request.asked? at hasked
  split at hasked
  · rename_i hopen
    cases hasked
    exact h hopen
  · cases hasked

namespace SourceTrace

variable {t : SourceTrace κ} {key : κ}

theorem not_shown_absent (h : t.process.sources.find? key = none) (id : FbId) :
    ¬ t.Shown (some key) id := by
  rintro ⟨hne, hid⟩
  rw [fbIdOf_absent h] at hid
  exact hne hid.symm

theorem Sound.has_absent (hs : t.Sound) (h : t.process.sources.find? key = none) :
    Has (some key) t.fdsOf [] t.kernel.Opened :=
  fdsOf_absent h ▸ hs.fds.has_self (some key)

theorem Sound.has_source (hs : t.Sound) {src : ExternalDmaBufSource}
    (h : t.process.sources.find? key = some src) :
    Has (some key) t.fdsOf src.fds t.kernel.Opened :=
  fdsOf_source h ▸ hs.fds.has_self (some key)

/-- The framebuffer of a source is no one else's. -/
theorem Sound.own_fb (hs : t.Sound) {src : ExternalDmaBufSource}
    (h : t.process.sources.find? key = some src) (hne : src.slot.fbId ≠ 0) :
    ¬ t.OtherShown (some key) src.slot.fbId := by
  rintro ⟨j, hj, hshown⟩
  exact hj (hs.apart j (some key) _ hshown ⟨hne, fbIdOf_source h⟩)

/-- A call on the source of a name says nothing of the others. -/
structure Apart (key : κ) (t t' : SourceTrace κ) : Prop where
  app : t'.appFds = t.appFds ∧ t'.appFbs = t.appFbs
  sources : ∀ j, j ≠ key → t'.process.sources.find? j = t.process.sources.find? j
  counts : ∀ j, j ≠ key → t'.process.calls j = t.process.calls j ∧ t'.asked j = t.asked j ∧
    t'.owed j = t.owed j
  left : ∀ id ∈ t.left, id ∈ t'.left

/-- A call that leaves no source. -/
theorem acts_absent {t' : SourceTrace κ} (hapart : Apart key t t')
    (habsent : t'.process.sources.find? key = none)
    (hhas : Has (some key) t.fdsOf [] t'.kernel.Opened)
    (hspares : Spares (Other (some key) t.fdsOf) (t.OtherShown (some key)) (fun _ => False)
      t.kernel t'.kernel)
    (hcalls : t'.process.calls key = t'.owed key)
    (hgone : ∀ id, t.Shown (some key) id → t'.kernel.fbs.find? id = none) :
    Acts (some key) t t' where
  has := by rwa [fdsOf_absent habsent]
  spares := hspares.mono fun _ hfalse => hfalse.elim
  live := (live_absent habsent).mpr hcalls
  fresh id hshown := absurd hshown (not_shown_absent habsent id)
  app _ := hapart.app
  sources j hj := hapart.sources j fun heq => hj (congrArg some heq)
  counts j hj := hapart.counts j fun heq => hj (congrArg some heq)
  left := hapart.left
  dropped id fb hshown hfb := by
    rw [hgone id hshown] at hfb
    cases hfb

/-- A call that leaves a source. -/
theorem acts_source {t' : SourceTrace κ} {src : ExternalDmaBufSource}
    {given : List (BufferId × ℕ × ℕ)} (hapart : Apart key t t')
    (hsrc : t'.process.sources.find? key = some src)
    (hhas : Has (some key) t.fdsOf src.fds t'.kernel.Opened)
    (hspares : Spares (Other (some key) t.fdsOf) (t.OtherShown (some key))
      (fun id => id ≠ 0 ∧ id = src.slot.fbId) t.kernel t'.kernel)
    (hwired : Wired t'.kernel src given)
    (hasked : ∀ planes, t'.asked key = some planes → given = planes)
    (hcalls : t'.process.calls key + src.pending = t'.owed key)
    (hfresh : src.slot.fbId ≠ 0 → ¬ t.OtherShown (some key) src.slot.fbId)
    (hdropped : ∀ id fb, t.Shown (some key) id → t'.kernel.fbs.find? id = some fb →
      t'.Shown (some key) id ∨ id ∈ t'.left) :
    Acts (some key) t t' where
  has := by rwa [fdsOf_source hsrc]
  spares := hspares.mono fun _ ⟨hne, hid⟩ => .inl ⟨hne, (fbIdOf_source hsrc).trans hid.symm⟩
  live := (live_source hsrc).mpr ⟨⟨given, hwired, hasked⟩, hcalls⟩
  fresh id hshown := by
    obtain ⟨hne, hid⟩ := hshown
    rw [fbIdOf_source hsrc] at hid
    exact hid ▸ hfresh (hid ▸ hne)
  app _ := hapart.app
  sources j hj := hapart.sources j fun heq => hj (congrArg some heq)
  counts j hj := hapart.counts j fun heq => hj (congrArg some heq)
  left := hapart.left
  dropped := hdropped

/-! ### A request -/

theorem acts_requested (hs : t.Sound) (answers : ImportAnswers) (r : Request)
    (habsent : t.process.sources.find? key = none) :
    Acts (some key) t (t.requested key answers r) := by
  have hspec := create_spec answers r (hs.has_absent habsent) (hs.liveElsewhere (some key))
  have hcount := create_calls answers r t.kernel
  have hcalls := (live_absent habsent).mp (hs.live (some key))
  unfold requested SourceProcess.create
  unfold kernel at hspec hcount ⊢
  generalize ExternalDmaBufSource.create answers t.process.kernel r = made at hspec hcount
  obtain ⟨k, calls, result⟩ := made
  rcases hspec with ⟨e, rfl, hhas, hspares⟩ | ⟨src, given, rfl, rfl, hhas, hcreated⟩
  · have hcalls' := hcount.1 e rfl
    dsimp only at hhas hspares hcalls' ⊢
    refine acts_absent ⟨⟨rfl, rfl⟩, fun _ _ => rfl, fun j hj => ?_, fun _ hid => hid⟩ habsent hhas
      hspares ?_ fun id hshown => absurd hshown (not_shown_absent habsent id)
    · simp [SourceProcess.count, hj]
    · simp [SourceProcess.count, hcalls, hcalls']
  · have htaken := hcount.2 src rfl
    obtain ⟨⟨hwired, hfb, hspares⟩, -, honRelease, hfired, hplanes⟩ := hcreated
    dsimp only at hhas hwired hspares htaken ⊢
    refine acts_source ⟨⟨rfl, rfl⟩, fun j hj => ?_, fun j hj => ?_, fun _ hid => hid⟩ ?_ hhas
      (hspares.mono fun _ heq => ⟨heq ▸ hfb.1, heq⟩) hwired (fun planes hasked => ?_) ?_
      (fun _ => hfb.2) fun id _ hshown => absurd hshown (not_shown_absent habsent id)
    · simp [SourceProcess.count, hj]
    · simp [SourceProcess.count, hj]
    · simp [SourceProcess.count]
    · exact Request.given_of_asked? hplanes planes (by simpa using hasked)
    · simp [SourceProcess.count, hcalls, htaken, pending, honRelease, hfired]

/-! ### Destruction -/

theorem acts_destroy (hs : t.Sound) {src : ExternalDmaBufSource}
    (hsrc : t.process.sources.find? key = some src) : Acts (some key) t (t.destroy key) := by
  obtain ⟨⟨given, hwired, -⟩, hcalls⟩ := (live_source hsrc).mp (hs.live (some key))
  obtain ⟨hhas, hspares, hgone⟩ := destroy_spec given (hs.has_source hsrc) (hs.own_fb hsrc)
  have hcount := destroy_calls t.kernel src
  unfold destroy SourceProcess.destroy
  rw [hsrc]
  unfold kernel at hhas hspares hgone hcount hwired
  dsimp only
  generalize ExternalDmaBufSource.destroy t.process.kernel src = r at hhas hspares hgone hcount
  obtain ⟨k, calls⟩ := r
  dsimp only at hhas hspares hgone hcount ⊢
  refine acts_absent ⟨⟨rfl, rfl⟩, fun j hj => ?_, fun j hj => ?_, fun _ hid => hid⟩ ?_ hhas
    hspares ?_ fun id hshown => ?_
  · simp [SourceProcess.count, hj]
  · simp [SourceProcess.count, hj]
  · simp [SourceProcess.count]
  · simp [SourceProcess.count, hcount, hcalls]
  · obtain ⟨hne, hid⟩ := hshown
    rw [fbIdOf_source hsrc] at hid
    subst hid
    exact hgone hwired hne

theorem sound_destroy (hs : t.Sound) (key : κ) : (t.destroy key).Sound := by
  cases hsrc : t.process.sources.find? key with
  | none =>
    unfold destroy SourceProcess.destroy
    rwa [hsrc]
  | some src => exact (acts_destroy hs hsrc).sound hs

theorem find?_destroy (p : SourceProcess κ) (key j : κ) :
    (p.destroy key).sources.find? j = if j = key then none else p.sources.find? j := by
  unfold SourceProcess.destroy
  split
  · rename_i habsent
    split
    · rename_i heq
      rw [heq, habsent]
    · rfl
  · simp [SourceProcess.count]

theorem destroy_foldl (keys : List κ) (t : SourceTrace κ) :
    keys.foldl destroy t = { t with process := keys.foldl SourceProcess.destroy t.process } := by
  induction keys generalizing t with
  | nil => rfl
  | cons key keys ih => exact ih (t.destroy key)

theorem sound_foldl_destroy (keys : List κ) (hs : t.Sound) : (keys.foldl destroy t).Sound := by
  induction keys generalizing t with
  | nil => exact hs
  | cons key keys ih => exact ih (sound_destroy hs key)

theorem sound_clear (hs : t.Sound) (mine : κ → Bool) :
    SourceTrace.Sound { t with process := t.process.clear mine } :=
  destroy_foldl _ t ▸ sound_foldl_destroy _ hs

/-! ### A cache -/

theorem cached_process (t : SourceTrace κ) (key : κ) (answers : ImportAnswers) (r : Request) :
    (t.cached key answers r).process = (t.process.getOrCreate key answers r).1 := by
  unfold cached SourceProcess.getOrCreate
  cases t.process.sources.find? key with
  | none => rfl
  | some src =>
    dsimp only
    split <;> rfl

theorem sound_cached (hs : t.Sound) (key : κ) (answers : ImportAnswers) (r : Request) :
    (t.cached key answers r).Sound := by
  unfold cached
  split
  · rename_i habsent
    exact (acts_requested hs answers _ habsent).sound hs
  · split
    · exact hs
    · have habsent : (t.destroy key).process.sources.find? key = none := by
        rw [destroy, find?_destroy, if_pos rfl]
      have hs' := sound_destroy hs key
      exact (acts_requested hs' answers _ habsent).sound hs'

/-! ### A release and a resume -/

theorem release_process {src : ExternalDmaBufSource}
    (hsrc : t.process.sources.find? key = some src) :
    t.process.release key = SourceProcess.count
      { t.process with
        sources := t.process.sources.insertOrAssign key { src with onReleaseFired := true } }
      key src.pending := by
  simp only [SourceProcess.release, hsrc, release_eq]

theorem sound_release (hs : t.Sound) (key : κ) :
    SourceTrace.Sound { t with process := t.process.release key } := by
  cases hsrc : t.process.sources.find? key with
  | none =>
    unfold SourceProcess.release
    rwa [hsrc]
  | some src =>
    rw [release_process hsrc]
    obtain ⟨⟨given, ⟨hplanes, hmodifier, hshown⟩, hasked⟩, hcalls⟩ :=
      (live_source hsrc).mp (hs.live (some key))
    let src' : ExternalDmaBufSource := { src with onReleaseFired := true }
    let t' : SourceTrace κ :=
      { t with
        process := SourceProcess.count
          { t.process with sources := t.process.sources.insertOrAssign key src' } key src.pending }
    have hapart : Apart key t t' := by
      refine ⟨⟨rfl, rfl⟩, fun j hj => ?_, fun j hj => ?_, fun _ hid => hid⟩
      · simp [t', SourceProcess.count, hj]
      · simp [t', SourceProcess.count, hj]
    have hsrc' : t'.process.sources.find? key = some src' := by simp [t', SourceProcess.count]
    have hhas : Has (some key) t.fdsOf src.fds t.kernel.Opened := hs.has_source hsrc
    have hfb : src.slot.fbId ≠ 0 → ¬ t.OtherShown (some key) src.slot.fbId := hs.own_fb hsrc
    have hacts : Acts (some key) t t' := by
      refine acts_source hapart hsrc' hhas (Spares.refl _) ⟨hplanes, hmodifier, hshown⟩ hasked ?_
        hfb fun id fb hid _ => .inl ⟨hid.1, ?_⟩
      · simpa [t', src', SourceProcess.count, pending] using hcalls
      · rw [fbIdOf_source hsrc', ← fbIdOf_source hsrc]
        exact hid.2
    exact hacts.sound hs

theorem sound_resumed (hs : t.Sound) (key : κ) (answers : ImportAnswers) (newDevice : ℤ) :
    (t.resumed key answers newDevice).Sound := by
  cases hsrc : t.process.sources.find? key with
  | none =>
    unfold resumed SourceProcess.onSessionResumed
    rw [hsrc]
    simpa using hs
  | some src =>
    obtain ⟨⟨given, hwired, hasked⟩, hcalls⟩ := (live_source hsrc).mp (hs.live (some key))
    have hspec := onSessionResumed_spec answers newDevice (hs.has_source hsrc) hwired.modifier
      (hs.liveElsewhere (some key)) (hs.own_fb hsrc)
    unfold resumed SourceProcess.onSessionResumed
    rw [hsrc]
    unfold kernel at hspec
    dsimp only
    generalize ExternalDmaBufSource.onSessionResumed answers t.process.kernel src newDevice = r
      at hspec
    obtain ⟨k, src', error⟩ := r
    obtain ⟨hhas, hspares, hwired', hfb, -, -, honRelease, hfired⟩ := hspec
    dsimp only at hhas hspares hwired' hfb honRelease hfired ⊢
    let p' : SourceProcess κ :=
      { t.process with kernel := k, sources := t.process.sources.insertOrAssign key src' }
    have hsrc' : p'.sources.find? key = some src' := by simp [p']
    let left : List FbId :=
      if p'.fbIdOf key ≠ t.process.fbIdOf key ∧ k.fbs.contains (t.process.fbIdOf key) then
        t.left ++ [t.process.fbIdOf key]
      else t.left
    have hleft : ∀ id ∈ t.left, id ∈ left := by
      intro id hid
      unfold left
      split
      · exact List.mem_append_left _ hid
      · exact hid
    have hacts : Acts (some key) t { t with process := p', left } := by
      refine acts_source ⟨⟨rfl, rfl⟩, fun j hj => ?_, fun _ _ => ⟨rfl, rfl, rfl⟩, hleft⟩ hsrc' hhas
        hspares (hwired' given hwired) hasked ?_ hfb fun id fb hid hfound => ?_
      · simp [p', hj]
      · rw [pending, honRelease, hfired]
        exact hcalls
      · obtain ⟨hne, rfl⟩ := hid
        by_cases hkept : p'.fbIdOf key = t.process.fbIdOf key
        · exact .inl ⟨hne, hkept⟩
        · have hcontains : k.fbs.contains (t.process.fbIdOf key) = true :=
            Table.contains_eq_true.mpr ⟨fb, Table.find?_eq_some.mp hfound⟩
          have happended : left = t.left ++ [t.process.fbIdOf key] := if_pos ⟨hkept, hcontains⟩
          exact .inr (happended ▸ List.mem_append_right _ List.mem_cons_self)
    exact hacts.sound hs

end SourceTrace

end DrmCxx.Scene
