import DrmCxx.Verification.DmaBuf.Trace

/-!
# What each party of a process holds

The application and the sources hold descriptors and framebuffers, each its own. A step acts for
one of them; once its own part is right, the others' part follows from what the step leaves alone.
-/

namespace DrmCxx.Scene

open Detail Detail.Kernel Lib Lib.Holdings ExternalDmaBufSource

variable {κ : Type*} [DecidableEq κ]

namespace SourceTrace

/-- The descriptors of a party; `none` is the application. -/
def fdsOf (t : SourceTrace κ) : Option κ → List ℕ
  | none => t.appFds
  | some key =>
    match t.process.sources.find? key with
    | none => []
    | some src => src.fds

/-- The framebuffer is the party's. -/
def Shown (t : SourceTrace κ) : Option κ → FbId → Prop
  | none, id => t.appFbs.contains id = true
  | some key, id => id ≠ 0 ∧ t.process.fbIdOf key = id

/-- What holds of a party: its framebuffers are in files it has open, a source shows the planes it
was asked for, and its calls of `on_release` are the ones due. -/
def Live (t : SourceTrace κ) : Option κ → Prop
  | none => ∀ id fb, t.appFbs.find? id = some fb →
      ∃ n ∈ t.appFds, t.kernel.fds.find? n = some (.device fb.file) ∧
        t.kernel.fbs.find? id = some fb
  | some key =>
    match t.process.sources.find? key with
    | none => t.process.calls key = t.owed key
    | some src =>
      (∃ given, Wired t.kernel src given ∧ ∀ planes, t.asked key = some planes → given = planes) ∧
        t.process.calls key + src.pending = t.owed key

section

variable {t : SourceTrace κ} {key : κ} {src : ExternalDmaBufSource}

theorem fdsOf_source (h : t.process.sources.find? key = some src) :
    t.fdsOf (some key) = src.fds := by
  simp only [fdsOf, h]

theorem fdsOf_absent (h : t.process.sources.find? key = none) : t.fdsOf (some key) = [] := by
  simp only [fdsOf, h]

theorem fbIdOf_source {p : SourceProcess κ} (h : p.sources.find? key = some src) :
    p.fbIdOf key = src.slot.fbId := by
  simp only [SourceProcess.fbIdOf, h]

theorem fbIdOf_absent {p : SourceProcess κ} (h : p.sources.find? key = none) :
    p.fbIdOf key = 0 := by
  simp only [SourceProcess.fbIdOf, h]

theorem live_source (h : t.process.sources.find? key = some src) :
    t.Live (some key) ↔
      (∃ given, Wired t.kernel src given ∧
          ∀ planes, t.asked key = some planes → given = planes) ∧
        t.process.calls key + src.pending = t.owed key := by
  simp only [Live, h]

theorem live_absent (h : t.process.sources.find? key = none) :
    t.Live (some key) ↔ t.process.calls key = t.owed key := by
  simp only [Live, h]

end

/-- The invariant of a process with sources. -/
structure Sound (t : SourceTrace κ) : Prop where
  fds : Holdings t.fdsOf t.kernel.Opened
  live : ∀ i, t.Live i
  apart : ∀ i j id, t.Shown i id → t.Shown j id → i = j
  accounted : ∀ id fb, t.kernel.fbs.find? id = some fb → (∃ i, t.Shown i id) ∨ id ∈ t.left

/-- The framebuffer is of a party other than `i`. -/
def OtherShown (t : SourceTrace κ) (i : Option κ) (id : FbId) : Prop :=
  ∃ j, j ≠ i ∧ t.Shown j id

/-- A step for the party `i`: its own part is right, and it spares what is of others. -/
structure Acts (i : Option κ) (t t' : SourceTrace κ) : Prop where
  has : Has i t.fdsOf (t'.fdsOf i) t'.kernel.Opened
  spares : Spares (Other i t.fdsOf) (t.OtherShown i) (fun id => t'.Shown i id ∨ id ∈ t'.left)
    t.kernel t'.kernel
  live : t'.Live i
  fresh : ∀ id, t'.Shown i id → ¬ t.OtherShown i id
  app : i ≠ none → t'.appFds = t.appFds ∧ t'.appFbs = t.appFbs
  sources : ∀ key, some key ≠ i → t'.process.sources.find? key = t.process.sources.find? key
  counts : ∀ key, some key ≠ i → t'.process.calls key = t.process.calls key ∧
    t'.asked key = t.asked key ∧ t'.owed key = t.owed key
  left : ∀ id ∈ t.left, id ∈ t'.left
  dropped : ∀ id fb, t.Shown i id → t'.kernel.fbs.find? id = some fb →
    t'.Shown i id ∨ id ∈ t'.left

namespace Acts

variable {i j : Option κ} {t t' : SourceTrace κ}

theorem fdsOf_other (h : Acts i t t') (hj : j ≠ i) : t'.fdsOf j = t.fdsOf j := by
  cases j with
  | none => exact (h.app hj.symm).1
  | some key => simp only [fdsOf, h.sources key hj]

theorem shown_other (h : Acts i t t') (hj : j ≠ i) (id : FbId) : t'.Shown j id ↔ t.Shown j id := by
  cases j with
  | none => simp only [Shown, (h.app hj.symm).2]
  | some key => simp only [Shown, SourceProcess.fbIdOf, h.sources key hj]

/-- What is of others stays right. -/
theorem live_other (h : Acts i t t') (hj : j ≠ i) (hlive : t.Live j) : t'.Live j := by
  cases j with
  | none =>
    intro id fb hfb
    obtain ⟨hfds, hfbs⟩ := h.app hj.symm
    rw [hfbs] at hfb
    obtain ⟨n, hn, hfile, hfound⟩ := hlive id fb hfb
    have hother : Other i t.fdsOf n := ⟨none, hj, hn⟩
    have hshown : t.OtherShown i id :=
      ⟨none, hj, Table.contains_eq_true.mpr ⟨fb, Table.find?_eq_some.mp hfb⟩⟩
    exact ⟨n, hfds ▸ hn, (h.spares.fds n hother).trans hfile,
      h.spares.fbs n id fb hother hfile hshown hfound⟩
  | some key =>
    obtain ⟨hcalls, hasked, howed⟩ := h.counts key hj
    have hsame := h.sources key hj
    cases hsrc : t.process.sources.find? key with
    | none =>
      rw [live_absent hsrc] at hlive
      rw [live_absent (hsame.trans hsrc), hcalls, howed, hlive]
    | some src =>
      obtain ⟨⟨given, hwired, hgiven⟩, hcount⟩ := (live_source hsrc).mp hlive
      refine (live_source (hsame.trans hsrc)).mpr ⟨⟨given, ?_, hasked ▸ hgiven⟩, by
        rw [hcalls, howed, hcount]⟩
      have hfds := fdsOf_source hsrc
      exact hwired.spared h.spares (fun n hn => ⟨some key, hj, hfds ▸ hn⟩) fun hne =>
        ⟨some key, hj, hne, fbIdOf_source hsrc⟩

/-- A step for one party keeps the invariant. -/
theorem sound (h : Acts i t t') (hs : t.Sound) : t'.Sound where
  fds := by
    have hfds : Function.update t.fdsOf i (t'.fdsOf i) = t'.fdsOf := by
      funext j
      by_cases hj : j = i
      · subst hj
        rw [Function.update_self]
      · rw [Function.update_of_ne hj, h.fdsOf_other hj]
    have hhas := h.has
    rwa [Has, hfds] at hhas
  live j := by
    by_cases hj : j = i
    · exact hj ▸ h.live
    · exact h.live_other hj (hs.live j)
  apart j j' id hid hid' := by
    by_cases hj : j = i <;> by_cases hj' : j' = i
    · rw [hj, hj']
    · exact absurd ⟨j', hj', (h.shown_other hj' id).mp hid'⟩ (h.fresh id (hj ▸ hid))
    · exact absurd ⟨j, hj, (h.shown_other hj id).mp hid⟩ (h.fresh id (hj' ▸ hid'))
    · exact hs.apart j j' id ((h.shown_other hj id).mp hid) ((h.shown_other hj' id).mp hid')
  accounted id fb hfb := by
    rcases h.spares.added id fb hfb with (hshown | hleft) | hold
    · exact .inl ⟨i, hshown⟩
    · exact .inr hleft
    · rcases hs.accounted id fb hold with ⟨j, hshown⟩ | hleft
      · by_cases hj : j = i
        · exact (h.dropped id fb (hj ▸ hshown) hfb).imp_left fun hshown' => ⟨i, hshown'⟩
        · exact .inl ⟨j, (h.shown_other hj id).mpr hshown⟩
      · exact .inr (h.left id hleft)

end Acts

/-- The framebuffers of others are in files that others have open. -/
theorem Sound.liveElsewhere {t : SourceTrace κ} (hs : t.Sound) (i : Option κ) :
    LiveElsewhere (Other i t.fdsOf) (t.OtherShown i) t.kernel := by
  rintro id ⟨j, hj, hshown⟩
  have hlive := hs.live j
  cases j with
  | none =>
    obtain ⟨fb, hfb⟩ := Table.contains_eq_true.mp hshown
    obtain ⟨n, hn, hfile, hfound⟩ := hlive id fb (Table.find?_eq_some.mpr hfb)
    exact ⟨n, fb, ⟨none, hj, hn⟩, hfile, hfound⟩
  | some key =>
    obtain ⟨hne, hid⟩ := hshown
    cases hsrc : t.process.sources.find? key with
    | none =>
      rw [fbIdOf_absent hsrc] at hid
      exact absurd hid.symm hne
    | some src =>
      rw [fbIdOf_source hsrc] at hid
      subst hid
      obtain ⟨⟨given, hwired, -⟩, -⟩ := (live_source hsrc).mp hlive
      obtain ⟨n, fb, hn, hfile, hfound, -⟩ := hwired.shown hne
      have hmem : n ∈ t.fdsOf (some key) := by
        rw [fdsOf_source hsrc]
        exact List.mem_append_left _ (by simp [hn])
      exact ⟨n, fb, ⟨some key, hj, hmem⟩, hfile, hfound⟩

end SourceTrace

end DrmCxx.Scene
