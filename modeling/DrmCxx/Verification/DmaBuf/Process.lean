import DrmCxx.Verification.DmaBuf.AppCalls
import DrmCxx.Verification.DmaBuf.SourceCalls

/-!
# A process with sources over whole runs

The invariant holds after every history: each descriptor is closed by the party that opened it, no
source loses its framebuffer to another's teardown, and every `on_release` that was taken is called
once. Clearing every source gives back what they held.
-/

namespace DrmCxx.Scene

open Detail Detail.Kernel Lib Lib.Holdings ExternalDmaBufSource

variable {κ : Type*} [DecidableEq κ]

namespace SourceTrace

variable {t : SourceTrace κ}

theorem sound_empty : SourceTrace.Sound ({} : SourceTrace κ) where
  fds := by
    have hnone : ∀ (i : Option κ) (n : ℕ), n ∉ SourceTrace.fdsOf ({} : SourceTrace κ) i := by
      intro i n hn
      cases i with
      | none => cases hn
      | some key => cases hn
    refine ⟨fun n => ⟨fun hopen => ?_, fun ⟨i, hn⟩ => absurd hn (hnone i n)⟩, fun i => ?_,
      fun i _ n hn _ => absurd hn (hnone i n)⟩
    · cases hopen
    · rw [List.eq_nil_iff_forall_not_mem.mpr (hnone i)]
      exact List.nodup_nil
  live i := by
    cases i with
    | none =>
      intro id fb hfb
      cases hfb
    | some key => exact (live_absent rfl).mpr rfl
  apart i j id hi hj := by
    cases i with
    | none => cases hi
    | some key => exact absurd hi (not_shown_absent rfl id)
  accounted id fb hfb := by cases hfb

theorem sound_step (hs : t.Sound) (e : SourceEvent κ) : (t.step e).Sound := by
  cases e with
  | openFd n d =>
    rw [step]
    split
    · exact hs
    · rename_i hn
      exact (acts_openFd hs d hn).sound hs
  | closeFd n =>
    rw [step]
    split
    · rename_i hn
      exact (acts_closeFd hs hn).sound hs
    · exact hs
  | importFd device n answer =>
    rw [step]
    split
    · exact acts_importFd hs device n answer
    · exact hs
  | gemClose device h =>
    rw [step]
    split
    · obtain ⟨hfds, hfbs⟩ := gemClose_same t.kernel device h
      exact (acts_handles hs hfds hfbs).sound hs
    · exact hs
  | addFb device width height drmFourcc modifier planes answer =>
    rw [step]
    split
    · rename_i hdevice
      exact sound_afterAddFb hs hdevice
    · exact hs
  | rmFb device id =>
    rw [step]
    split
    · rename_i hguard
      exact (acts_rmFb hs hguard.2).sound hs
    · exact hs
  | create key answers r =>
    rw [step]
    split
    · exact hs
    · rename_i hfree
      rw [Bool.not_eq_true, Table.contains_eq_false, ← Table.find?_eq_none] at hfree
      exact (acts_requested hs answers r hfree).sound hs
  | destroy key => exact sound_destroy hs key
  | getOrCreate key answers r =>
    rw [step, ← cached_process]
    exact sound_cached hs key answers r
  | clear mine => exact sound_clear hs mine
  | release key => exact sound_release hs key
  | resume key answers newDevice => exact sound_resumed hs key answers newDevice

theorem sound_run (hs : t.Sound) (es : List (SourceEvent κ)) : (run step t es).Sound := by
  have hstep : ∀ (s : SourceTrace κ) (e : SourceEvent κ), s.Sound → (s.step e).Sound :=
    fun _ e hs => sound_step hs e
  exact run_always hstep hs es

/-- After every history the open descriptors are the application's and the sources', each held
once; every source shows the planes it was asked for, whatever the others and the application did;
no framebuffer is of two parties, and one that is of none was left in a file that its owner gave
up; the calls of `on_release` are the ones due. -/
theorem sources_sound (es : List (SourceEvent κ)) :
    SourceTrace.Sound (run step ({} : SourceTrace κ) es) :=
  sound_run sound_empty es

/-! ### Clearing -/

theorem find?_foldl_destroy (keys : List κ) (p : SourceProcess κ) (j : κ) :
    (keys.foldl SourceProcess.destroy p).sources.find? j =
      if j ∈ keys then none else p.sources.find? j := by
  induction keys generalizing p with
  | nil => simp
  | cons key keys ih =>
    rw [List.foldl_cons, ih, find?_destroy]
    by_cases hj : j = key <;> simp [hj]

theorem find?_clear (p : SourceProcess κ) (key : κ) :
    (p.clear fun _ => true).sources.find? key = none := by
  rw [SourceProcess.clear, find?_foldl_destroy, List.filter_true]
  split
  · rfl
  · rename_i hkey
    rw [Table.find?_eq_none]
    exact fun src hsrc => hkey (List.mem_map_of_mem hsrc)

/-- Once every source is destroyed, only the application's descriptors are open, a framebuffer is
the application's or was left behind, and each `on_release` that was taken has been called. -/
theorem cleared_sources (es : List (SourceEvent κ)) :
    let t := run step ({} : SourceTrace κ) (es ++ [.clear fun _ => true])
    t.appFds = (run step ({} : SourceTrace κ) es).appFds ∧
      (∀ n, t.kernel.Opened n ↔ n ∈ t.appFds) ∧
      (∀ id fb, t.kernel.fbs.find? id = some fb → t.appFbs.find? id = some fb ∨ id ∈ t.left) ∧
      ∀ key, t.process.calls key = t.owed key := by
  intro t
  have hs : t.Sound := sound_run sound_empty _
  have hlast : t = step (run step ({} : SourceTrace κ) es) (.clear fun _ => true) :=
    run_append step _ es [.clear fun _ => true]
  have habsent : ∀ key, t.process.sources.find? key = none := by
    intro key
    rw [hlast]
    exact find?_clear _ key
  refine ⟨by rw [hlast]; rfl, fun n => ?_, fun id fb hfb => ?_, fun key => ?_⟩
  · rw [hs.fds.open_iff]
    refine ⟨fun ⟨i, hn⟩ => ?_, fun hn => ⟨none, hn⟩⟩
    cases i with
    | none => exact hn
    | some key =>
      rw [fdsOf_absent (habsent key)] at hn
      cases hn
  · refine (hs.accounted id fb hfb).imp_left fun ⟨i, hshown⟩ => ?_
    cases i with
    | none =>
      obtain ⟨fb', hfb'⟩ := Table.contains_eq_true.mp hshown
      have happ := Table.find?_eq_some.mpr hfb'
      obtain ⟨-, -, -, hfound⟩ := hs.live none id fb' happ
      rw [hfb] at hfound
      cases hfound
      exact happ
    | some key => exact absurd hshown (not_shown_absent (habsent key) id)
  · exact (live_absent (habsent key)).mp (hs.live (some key))

end SourceTrace

end DrmCxx.Scene
