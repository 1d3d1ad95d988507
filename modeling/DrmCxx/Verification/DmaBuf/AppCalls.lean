import DrmCxx.Verification.DmaBuf.Holders

/-!
# The application's calls beside the sources

Each call of the application is a step for it: the sources keep their descriptors and framebuffers,
also in the files that the application closes.
-/

namespace DrmCxx.Scene

open Detail Detail.Kernel Lib Lib.Holdings ExternalDmaBufSource

variable {κ : Type*} [DecidableEq κ]

namespace SourceTrace

variable {t : SourceTrace κ} {i : Option κ}

theorem Sound.not_otherShown (hs : t.Sound) {id : FbId} (h : t.Shown i id) :
    ¬ t.OtherShown i id := by
  rintro ⟨j, hj, hshown⟩
  exact hj (hs.apart j i id hshown h)

/-- The trace with another kernel; the application's descriptors are `fds`. -/
def withKernel (t : SourceTrace κ) (k : Kernel) (fds : List ℕ) : SourceTrace κ :=
  { t with process := { t.process with kernel := k }, appFds := fds }

/-- A call after which the application has the framebuffers it had. -/
theorem acts_withKernel (hs : t.Sound) {k : Kernel} {fds : List ℕ}
    (hhas : Has none t.fdsOf fds k.Opened) (hfbs : k.fbs = t.kernel.fbs)
    (hkept : ∀ n, t.kernel.Opened n → k.fds.find? n = t.kernel.fds.find? n)
    (hfds : ∀ n ∈ t.appFds, n ∈ fds) : Acts none t (t.withKernel k fds) where
  has := hhas
  spares := Spares.of_kept hkept hfbs fun _ ⟨_, _, hn⟩ => hs.fds.opened_of hn
  live id fb hfb := by
    obtain ⟨n, hn, hfile, hfound⟩ := hs.live none id fb hfb
    exact ⟨n, hfds n hn, (hkept n (opened_of_find? hfile)).trans hfile, hfbs ▸ hfound⟩
  fresh _ hshown := hs.not_otherShown hshown
  app hne := absurd rfl hne
  sources _ _ := rfl
  counts _ _ := ⟨rfl, rfl, rfl⟩
  left _ hid := hid
  dropped _ _ hshown _ := .inl hshown

theorem acts_openFd (hs : t.Sound) {n : ℕ} (d : Description) (hn : ¬ t.kernel.Opened n) :
    Acts none t
      (t.withKernel { t.kernel with fds := t.kernel.fds.insertOrAssign n d } (n :: t.appFds)) := by
  refine acts_withKernel hs ?_ rfl (fun m hm => ?_) fun _ => List.mem_cons_of_mem n
  · exact (hs.fds.has_self none).gain hn fun m => Table.contains_insertOrAssign t.kernel.fds n m d
  · have hne : m ≠ n := fun heq => hn (heq ▸ hm)
    simp [hne]

/-- Handles are not what the parties hold. -/
theorem acts_handles (hs : t.Sound) {k : Kernel} (hfds : k.fds = t.kernel.fds)
    (hfbs : k.fbs = t.kernel.fbs) : Acts none t (t.withKernel k t.appFds) := by
  refine acts_withKernel hs ?_ hfbs (fun n _ => by rw [hfds]) fun _ hn => hn
  unfold Kernel.Opened
  rw [hfds]
  exact hs.fds.has_self none

theorem acts_importFd (hs : t.Sound) (device n : ℕ) (answer : Except Errc GemHandle) :
    (t.afterImport (t.kernel.primeFdToHandle device n answer)).Sound := by
  cases hprime : t.kernel.primeFdToHandle device n answer with
  | error e => exact hs
  | ok prime =>
    obtain ⟨k, h⟩ := prime
    obtain ⟨-, -, -, -, -, hfds, hfbs, -⟩ := primeFdToHandle_ok hprime
    exact (acts_handles hs hfds hfbs).sound hs

/-- A call that removes framebuffers of the application. -/
theorem acts_afterCall (hs : t.Sound) {k : Kernel} {fds : List ℕ}
    (hhas : Has none t.fdsOf fds k.Opened)
    (hspares : Spares (Other none t.fdsOf) (t.OtherShown none) (fun _ => False) t.kernel k) :
    Acts none t (t.afterCall k fds) where
  has := hhas
  spares := hspares.mono fun _ hfalse => hfalse.elim
  live id fb hfb := by
    obtain ⟨hmem, hreach⟩ := Table.mem_filter.mp (Table.find?_eq_some.mp hfb)
    simp only [reachable, Bool.and_eq_true, List.any_eq_true, decide_eq_true_eq] at hreach
    obtain ⟨hcontains, n, hn, hfile⟩ := hreach
    obtain ⟨fb', hfb'⟩ := Table.contains_eq_true.mp hcontains
    have hfound := Table.find?_eq_some.mpr hfb'
    obtain ⟨-, -, -, hold⟩ := hs.live none id fb (Table.find?_eq_some.mpr hmem)
    have hback := (hspares.added id fb' hfound).resolve_left (fun hfalse => hfalse)
    rw [hold] at hback
    cases hback
    exact ⟨n, hn, hfile, hfound⟩
  fresh id hshown := by
    obtain ⟨fb, hfb⟩ := Table.contains_eq_true.mp hshown
    have hold : t.Shown none id := Table.contains_eq_true.mpr ⟨fb, (Table.mem_filter.mp hfb).1⟩
    exact hs.not_otherShown hold
  app hne := absurd rfl hne
  sources _ _ := rfl
  counts _ _ := ⟨rfl, rfl, rfl⟩
  left _ hid := List.mem_append_left _ hid
  dropped id fb hshown hfb := by
    by_cases hkept : (t.appFbs.filter (reachable k fds)).contains id = true
    · exact .inl hkept
    · refine .inr (List.mem_append_right _ (List.mem_filter.mpr ⟨?_, ?_⟩))
      · obtain ⟨fb', hfb'⟩ := Table.contains_eq_true.mp hshown
        exact List.mem_map_of_mem hfb'
      · have hcontains : k.fbs.contains id = true :=
          Table.contains_eq_true.mpr ⟨fb, Table.find?_eq_some.mp hfb⟩
        simp [hcontains, hkept]

theorem acts_closeFd (hs : t.Sound) {n : ℕ} (hn : n ∈ t.appFds) :
    Acts none t (t.afterCall (t.kernel.close n) (t.appFds.erase n)) := by
  have hself : Has none t.fdsOf t.appFds t.kernel.Opened := hs.fds.has_self none
  have hperm := hself.perm (List.perm_cons_erase hn).symm
  exact acts_afterCall hs (has_close hperm) (Spares.close (hself.not_other hn))

theorem acts_rmFb (hs : t.Sound) {device : ℕ} {id : FbId} (hid : t.appFbs.contains id = true) :
    Acts none t (t.afterCall (t.kernel.rmFb device id) t.appFds) := by
  refine acts_afterCall hs ?_ (Spares.rmFb (hs.not_otherShown (show t.Shown none id from hid)))
  unfold Kernel.Opened
  rw [(rmFb_same t.kernel device id).1]
  exact hs.fds.has_self none

/-- A framebuffer is added under an id that no party has. -/
theorem sound_afterAddFb (hs : t.Sound) {device width height drmFourcc : ℕ} {modifier : Option ℕ}
    {planes : List (GemHandle × ℕ × ℕ)} {answer : Except Errc FbId} (hdevice : device ∈ t.appFds) :
    (t.afterAddFb
      (t.kernel.addFb device width height drmFourcc modifier planes answer)).Sound := by
  cases hadd : t.kernel.addFb device width height drmFourcc modifier planes answer with
  | error e => exact hs
  | ok added =>
    obtain ⟨k, id⟩ := added
    obtain ⟨file, buffers, hfile, -, -, hfree, rfl⟩ := addFb_ok hadd
    simp only [afterAddFb, Table.find?_insertOrAssign, if_pos]
    refine Acts.sound (i := none) ⟨hs.fds.has_self none, ?_, ?_, ?_, fun hne => absurd rfl hne,
      fun _ _ => rfl, fun _ _ => ⟨rfl, rfl, rfl⟩, fun _ hid => hid, ?_⟩ hs
    · refine Spares.of_added rfl rfl hfree (.inl ?_)
      exact (Table.contains_insertOrAssign _ _ _ _).mpr (.inl rfl)
    · intro id' fb' hfb'
      by_cases hid : id' = id
      · subst hid
        simp only [Table.find?_insertOrAssign, if_pos, Option.some.injEq] at hfb'
        subst hfb'
        refine ⟨device, hdevice, hfile, ?_⟩
        simp [kernel]
      · rw [Table.find?_insertOrAssign, if_neg hid] at hfb'
        obtain ⟨n, hn, hfile', hfound⟩ := hs.live none id' fb' hfb'
        refine ⟨n, hn, hfile', ?_⟩
        simpa [kernel, hid] using hfound
    · rintro id' hshown ⟨j, hj, hother⟩
      rcases (Table.contains_insertOrAssign _ _ _ _).mp hshown with rfl | hold
      · obtain ⟨n, fb', -, -, hfound⟩ := hs.liveElsewhere none id' ⟨j, hj, hother⟩
        rw [hfree] at hfound
        cases hfound
      · exact hs.not_otherShown (i := none) hold ⟨j, hj, hother⟩
    · intro id' _ hshown _
      exact .inl ((Table.contains_insertOrAssign _ _ _ _).mpr (.inr hshown))

end SourceTrace

end DrmCxx.Scene
