import DrmCxx.Verification.Modeset.Registrations

/-!
# What a dispatch calls

The functions that a dispatch calls are those registered when their turn comes, however the ones
before them changed the registrations; a source that nothing takes away in the meantime is called
as often as it is reported. A wait that signals interrupt is taken up again, and its budget does not
grow.
-/

namespace DrmCxx.Modeset

open Lib

/-! ### Waits -/

/-- The answer is the first that is not an interruption. -/
theorem waitLoop_answer (timeout : ℕ → ℤ) (waits : List Wait) :
    (waitLoop timeout waits).2 =
      (waits.map (·.answer)).find? (fun a => decide (a ≠ .error interrupted)) := by
  induction waits with
  | nil => rfl
  | cons wait waits ih =>
    rw [waitLoop]
    split_ifs with h
    · simp [h, ih]
    · simp [h]

theorem waitLoop_asked (timeout : ℕ → ℤ) (waits : List Wait) :
    (waitLoop timeout waits).1 <+: waits.map fun wait => timeout wait.called := by
  induction waits with
  | nil => exact List.prefix_refl _
  | cons wait waits ih =>
    rw [waitLoop, List.map_cons]
    split_ifs
    · exact (List.prefix_cons_inj _).mpr ih
    · exact (List.prefix_cons_inj _).mpr List.nil_prefix

theorem wait_answer (timeoutMs : ℤ) (now : ℕ) (waits : List Wait) :
    (wait timeoutMs now waits).2 =
      (waits.map (·.answer)).find? (fun a => decide (a ≠ .error interrupted)) := by
  rw [wait]
  split_ifs
  · exact waitLoop_answer _ waits
  · exact waitLoop_answer _ waits

theorem tdiv_mul_le_of_nonneg {a : ℤ} {b : ℕ} (ha : 0 ≤ a) (hb : 0 < b) : a.tdiv b * b ≤ a := by
  rw [Int.tdiv_eq_ediv_of_nonneg ha]
  exact Int.ediv_mul_le a (by omega)

/-- What is left of the budget is no more than what was there, and a wait for it is over by the
deadline, unless it is a poll. -/
theorem remainingMs_spec (deadline now : ℕ) :
    0 ≤ remainingMs deadline now ∧
      (remainingMs deadline now = 0 ∨
        (now : ℤ) + remainingMs deadline now * nsPerMs ≤ deadline) := by
  rw [remainingMs]
  by_cases hneg : ((deadline : ℤ) - now).tdiv nsPerMs < 0
  · simp [hneg]
  · have hnonneg := Int.not_lt.mp hneg
    simp only [hneg, if_false]
    refine ⟨hnonneg, ?_⟩
    by_cases hlate : (deadline : ℤ) - now < 0
    · -- Rounding towards zero leaves nothing of a budget that is used up.
      have hle : 0 ≤ (-((deadline : ℤ) - now)).tdiv nsPerMs :=
        Int.tdiv_nonneg (by omega) (Int.natCast_nonneg nsPerMs)
      rw [Int.neg_tdiv] at hle
      exact .inl (Int.le_antisymm (by omega) hnonneg)
    · have hmul := tdiv_mul_le_of_nonneg (Int.not_lt.mp hlate) (b := nsPerMs) (by decide)
      exact .inr (by omega)

/-! ### What is called -/

/-- The function is the one that the process has for it: a handler that of its dispatcher, a
source's callback that of the dispatcher `o`. -/
def Fired.IsRegistered (w : Process) (o : FlipId) : Fired → Prop
  | .flip p handler _ _ _ => ∃ pf, w.flips p = some pf ∧ pf.handler = some handler
  | .source fd cb =>
    ∃ pf, w.flips o = some pf ∧ fd ≠ pf.drmFd ∧ pf.sources.find? fd = some (some cb)

/-- The handler is that of the dispatcher that the event names, and hears of the event. -/
def Fired.Hears (e : FlipEvent) : Fired → Prop
  | .flip p _ crtcId sequence timestampNs =>
    e.userData = some p ∧ crtcId = e.crtcId ∧ sequence = e.sequence.toUInt64 ∧
      timestampNs = e.timestampNs
  | .source .. => False

/-- The descriptor of the source that was called. -/
def Fired.source? : Fired → Option Fd
  | .flip .. => none
  | .source fd _ => some fd

theorem Fired.Hears.source?_eq_none {e : FlipEvent} {f : Fired} (h : f.Hears e) :
    f.source? = none := by
  cases f with
  | flip => rfl
  | source => exact h.elim

/-- The function was the one to call, at a point of the calls that were made. -/
def WasRegistered (w : Process) (o : FlipId) (calls : List FlipCall) (f : Fired) : Prop :=
  ∃ before, before <+: calls ∧ f.IsRegistered (run FlipCall.apply w before) o

/-- What was called is a source, or heard of an event that was read. -/
def WasMet (turn : ℕ → Turn) (f : Fired) : Prop :=
  f.source?.isSome ∨ ∃ i events, (turn i).read = .ok events ∧ ∃ e ∈ events, f.Hears e.1

section Calls

variable {w : Process} {o : FlipId} {calls calls' : List FlipCall} {f : Fired} {fd : Fd}
  {fds : List Fd} {turn : ℕ → Turn} {pf : PageFlip}

theorem wasRegistered_now (hf : f.IsRegistered w o) : WasRegistered w o calls f :=
  ⟨[], List.nil_prefix, hf⟩

theorem WasRegistered.append (h : WasRegistered w o calls f) (calls' : List FlipCall) :
    WasRegistered w o (calls ++ calls') f := by
  obtain ⟨before, hbefore, hf⟩ := h
  exact ⟨before, hbefore.trans (List.prefix_append _ _), hf⟩

theorem WasRegistered.after (h : WasRegistered (run FlipCall.apply w calls) o calls' f) :
    WasRegistered w o (calls ++ calls') f := by
  obtain ⟨before, hbefore, hf⟩ := h
  rw [← run_append] at hf
  exact ⟨calls ++ before, (List.prefix_append_right_inj calls).mpr hbefore, hf⟩

theorem WasMet.earlier (h : WasMet (fun i => turn (i + 1)) f) : WasMet turn f :=
  h.imp_right fun ⟨i, hi⟩ => ⟨i + 1, hi⟩

namespace Process

/-- The device's events go to the handlers of that moment, each to that of its dispatcher. -/
theorem handleEvents_fired (o : FlipId) (events : List (FlipEvent × List FlipCall)) :
    ∀ f ∈ (w.handleEvents events).fired,
      WasRegistered w o (w.handleEvents events).calls f ∧ ∃ e ∈ events, f.Hears e.1 := by
  induction events generalizing w with
  | nil => simp [handleEvents]
  | cons event events ih =>
    have hskip : ∀ f ∈ (w.handleEvents events).fired,
        WasRegistered w o (w.handleEvents events).calls f ∧
          ∃ e ∈ event :: events, f.Hears e.1 := by
      intro f hf
      obtain ⟨hreg, e, he, hears⟩ := ih f hf
      exact ⟨hreg, e, List.mem_cons_of_mem _ he, hears⟩
    obtain ⟨event, calls⟩ := event
    rw [handleEvents]
    cases hdata : event.userData with
    | none => exact hskip
    | some p =>
      dsimp only
      cases hp : w.flips p with
      | none => simp
      | some pf =>
        dsimp only
        cases hh : pf.handler with
        | none => exact hskip
        | some handler =>
          intro f hf
          rcases List.mem_cons.mp hf with rfl | hf
          · exact ⟨wasRegistered_now ⟨pf, hp, hh⟩, _, List.mem_cons_self, hdata, rfl, rfl, rfl⟩
          · obtain ⟨hreg, e, he, hears⟩ := ih f hf
            exact ⟨hreg.after, e, List.mem_cons_of_mem _ he, hears⟩

theorem route_fired (fds : List Fd) :
    ∀ f ∈ (route o turn w fds).fired,
      WasRegistered w o (route o turn w fds).calls f ∧ WasMet turn f := by
  induction fds generalizing turn w with
  | nil => simp [route]
  | cons fd fds ih =>
    have hskip : ∀ f ∈ (route o (fun i => turn (i + 1)) w fds).fired,
        WasRegistered w o (route o (fun i => turn (i + 1)) w fds).calls f ∧ WasMet turn f :=
      fun f hf => (ih f hf).imp_right WasMet.earlier
    rw [route]
    cases ho : w.flips o with
    | none => simp
    | some pf =>
      dsimp only
      split_ifs with hdrm
      · cases hread : (turn 0).read with
        | error e => simp
        | ok events =>
          have hevents : ∀ f ∈ (w.handleEvents events).fired,
              WasRegistered w o (w.handleEvents events).calls f ∧ WasMet turn f :=
            fun f hf => (handleEvents_fired o events f hf).imp_right
              fun hears => .inr ⟨0, events, hread, hears⟩
          dsimp only
          split_ifs
          · exact hevents
          · intro f hf
            rcases List.mem_append.mp hf with hf | hf
            · exact (hevents f hf).imp_left fun hreg => hreg.append _
            · obtain ⟨hlater, hmet⟩ := ih f hf
              rw [handleEvents_process] at hlater
              dsimp only [Dispatched.after]
              rw [handleEvents_process]
              exact ⟨hlater.after, hmet.earlier⟩
      · cases hfind : pf.sources.find? fd with
        | none => exact hskip
        | some cb =>
          cases cb with
          | none => exact hskip
          | some cb =>
            intro f hf
            rcases List.mem_cons.mp hf with rfl | hf
            · exact ⟨wasRegistered_now ⟨pf, ho, hdrm, hfind⟩, .inl rfl⟩
            · exact (ih f hf).imp (fun hreg => hreg.after) WasMet.earlier

theorem handleEvents_sources (events : List (FlipEvent × List FlipCall)) :
    (w.handleEvents events).fired.filterMap Fired.source? = [] :=
  List.filterMap_eq_nil_iff.mpr fun f hf =>
    (handleEvents_fired 0 events f hf).2.elim fun _ he => he.2.source?_eq_none

/-- The sources are called in the order they were reported in, and none more often. -/
theorem route_sources (fds : List Fd) :
    ((route o turn w fds).fired.filterMap Fired.source?).Sublist fds := by
  induction fds generalizing turn w with
  | nil => simp [route]
  | cons fd fds ih =>
    rw [route]
    cases w.flips o with
    | none => simp
    | some pf =>
      dsimp only
      split_ifs
      · cases (turn 0).read with
        | error e => simp
        | ok events =>
          dsimp only
          split_ifs
          · rw [handleEvents_sources]
            exact List.nil_sublist _
          · simp only [Dispatched.after, List.filterMap_append, handleEvents_sources,
              List.nil_append]
            exact ih.cons fd
      · cases pf.sources.find? fd with
        | none => exact ih.cons fd
        | some cb =>
          cases cb with
          | none => exact ih.cons fd
          | some cb => exact ih.cons_cons fd

end Process

end Calls

/-! ### What is called for certain -/

/-- The call does not take the source away from the dispatcher. -/
def FlipCall.Spares (o : FlipId) (fd : Fd) : FlipCall → Prop
  | .destroy o' => o' ≠ o
  | .moveConstruct _ other => other ≠ o
  | .moveAssign o' other => o' ≠ o ∧ other ≠ o
  | .removeSource o' fd' => o' = o → fd' ≠ fd
  | .rebind o' newFd _ => o' = o → newFd ≠ fd
  | _ => True

namespace Watcher

variable {x : Watcher} {files : Table Fd File} {fd : Fd} {cb : Callback}

/-- The events of the descriptor go to this callback. -/
def Calls (fd : Fd) (cb : Callback) (x : Watcher) : Prop :=
  x.flip.sources.find? fd = some cb ∧ fd ≠ x.flip.drmFd

theorem Calls.addSource (h : Calls fd cb x) (fd' : Fd) (cb' : Callback) (refused : Option Errc) :
    Calls fd cb (x.addSource files fd' cb' refused) := by
  rw [Watcher.addSource]
  split_ifs with hok
  · cases x.registration files fd' refused with
    | none => exact h
    | some r =>
      refine ⟨?_, h.2⟩
      have hne : fd ≠ fd' := by
        rintro rfl
        exact Table.contains_eq_false.mp hok.2.2 cb (Table.find?_eq_some.mp h.1)
      rw [Table.find?_insertOrAssign, if_neg hne]
      exact h.1
  · exact h

theorem Calls.removeSource (h : Calls fd cb x) {fd' : Fd} (hne : fd' ≠ fd) :
    Calls fd cb (x.removeSource files fd') := by
  rw [Watcher.removeSource]
  split_ifs
  · refine ⟨?_, h.2⟩
    rw [Table.find?_erase, if_neg hne.symm]
    exact h.1
  · exact h

theorem Calls.rebind (h : Calls fd cb x) (hfd : 0 ≤ fd) {newFd : Fd} (hne : newFd ≠ fd)
    (refused : Option Errc) : Calls fd cb (x.rebind files newFd refused) := by
  have hun : Calls fd cb (x.unbind files) := by
    rw [Watcher.unbind]
    split_ifs
    · refine ⟨h.1, ?_⟩
      rintro rfl
      exact absurd hfd (Int.not_le.mpr (Int.negSucc_lt_zero 0))
    · exact h
  rw [Watcher.rebind]
  split_ifs
  · rw [Watcher.bind]
    cases (x.unbind files).registration files newFd refused with
    | none => exact hun
    | some r => exact ⟨hun.1, hne.symm⟩
  · exact h

end Watcher

section Spares

variable {v : View} {o o' : FlipId} {x : Watcher} {fd : Fd} {cb : Callback}

/-- The dispatcher still calls the callback. -/
def View.CallsAt (v : View) (o : FlipId) (fd : Fd) (cb : Callback) : Prop :=
  ∃ x, v.watchers o = some x ∧ x.Calls fd cb

namespace View

theorem CallsAt.set (h : v.CallsAt o fd cb) {y : Option Watcher} (hne : o ≠ o') :
    (v.set o' y).CallsAt o fd cb := by
  obtain ⟨x, hx, hc⟩ := h
  exact ⟨x, by simpa [View.set, hne] using hx, hc⟩

theorem CallsAt.modify (h : v.CallsAt o fd cb) {f : Watcher → Watcher}
    (hf : o' = o → ∀ x : Watcher, x.Calls fd cb → (f x).Calls fd cb) :
    (v.modify o' f).CallsAt o fd cb := by
  by_cases hne : o = o'
  · subst hne
    obtain ⟨x, hx, hc⟩ := h
    exact ⟨f x, by simp [View.modify, View.set, hx], hf rfl x hc⟩
  · exact h.set hne

theorem CallsAt.letGo (h : v.CallsAt o fd cb) (file : File) : (v.letGo file).CallsAt o fd cb := by
  rw [View.letGo]
  split_ifs
  · exact h
  · obtain ⟨x, hx, hc⟩ := h
    exact ⟨x.drop file, by simp [hx], hc⟩

theorem CallsAt.close (h : v.CallsAt o fd cb) (fd' : Fd) (held : Bool) :
    (v.close fd' held).CallsAt o fd cb := by
  obtain ⟨x, hx, hc⟩ := h
  refine ⟨v.closed fd' held x, by rw [watchers_close, hx, Option.map_some], ?_⟩
  rw [Watcher.Calls, flip_closed]
  exact hc

theorem CallsAt.closeEpfd (h : v.CallsAt o fd cb) (x : Watcher) :
    (v.closeEpfd x).CallsAt o fd cb := by
  rw [View.closeEpfd]
  split_ifs
  · exact h.close _ _
  · exact h

end View

/-- A call that spares a source leaves its callback in place. -/
theorem FlipCall.Spares.onView {c : FlipCall} (h : c.Spares o fd) (hfd : 0 ≤ fd)
    (hv : v.CallsAt o fd cb) : (c.onView v).CallsAt o fd cb := by
  cases c with
  | construct o' deviceFd created refused =>
    rw [FlipCall.onView]
    split_ifs with hsome
    · exact hv
    · have hne : o ≠ o' := by
        rintro rfl
        obtain ⟨x, hx, -⟩ := hv
        exact hsome (by rw [hx, Option.isSome_some])
      cases created.filter fun new => !v.files.contains new.1 with
      | none => exact hv.set hne
      | some new => exact View.CallsAt.set (v := { v with files := _ }) hv hne
  | destroy o' =>
    rw [FlipCall.onView]
    cases v.watchers o' with
    | none => exact hv
    | some x => exact (hv.closeEpfd x).set (Ne.symm h)
  | moveConstruct o' other =>
    rw [FlipCall.onView]
    split
    · rename_i hnone _
      refine (hv.set ?_).set (Ne.symm h)
      rintro rfl
      obtain ⟨x, hx, -⟩ := hv
      rw [hnone] at hx
      cases hx
    · exact hv
  | moveAssign o' other =>
    rw [FlipCall.onView]
    split
    · split_ifs
      · exact hv
      · exact ((hv.closeEpfd _).set (Ne.symm h.1)).set (Ne.symm h.2)
    · exact hv
  | setHandler o' handler => exact hv.modify fun _ x hx => hx
  | addSource o' fd' cb' refused => exact hv.modify fun _ x hx => hx.addSource fd' cb' refused
  | removeSource o' fd' => exact hv.modify fun ho x hx => hx.removeSource (h ho)
  | rebind o' newFd refused => exact hv.modify fun ho x hx => hx.rebind hfd (h ho) refused
  | openFd fd' file =>
    rw [FlipCall.onView, View.openFd]
    split_ifs
    · exact hv
    · exact hv
  | closeFd fd' held =>
    rw [FlipCall.onView]
    split_ifs
    · exact hv
    · exact hv.close fd' held
  | letGo file => exact hv.letGo file

variable {w : Process} {cs : List FlipCall}

theorem callsAt_run (hw : w.Sound) (hfd : 0 ≤ fd) (hv : w.view.CallsAt o fd cb)
    (hcs : ∀ c ∈ cs, c.Spares o fd) : (run FlipCall.apply w cs).view.CallsAt o fd cb := by
  induction cs generalizing w with
  | nil => exact hv
  | cons c cs ih =>
    rw [List.forall_mem_cons] at hcs
    refine ih (hw.apply c) ?_ hcs.2
    rw [(hw.owned.apply c).view]
    exact hcs.1.onView hfd hv

theorem callsAt_view {pf : PageFlip} (ho : w.flips o = some pf) :
    w.view.CallsAt o fd cb ↔ pf.sources.find? fd = some cb ∧ fd ≠ pf.drmFd := by
  rw [View.CallsAt, Process.watchers_of_flips ho]
  constructor
  · rintro ⟨x, hx, hc⟩
    cases hx
    exact hc
  · intro h
    exact ⟨_, rfl, h⟩

end Spares

namespace Process

section Route

variable {o : FlipId} {fd : Fd} {cb : ℕ} {turn : ℕ → Turn} {w : Process} {fds : List Fd}

theorem count_route_eq_zero (hmem : fd ∉ fds) :
    (route o turn w fds).fired.count (.source fd cb) = 0 := by
  refine List.count_eq_zero.mpr fun hf => hmem ?_
  exact (route_sources fds).subset (List.mem_filterMap.mpr ⟨_, hf, rfl⟩)

theorem count_handleEvents_eq_zero (events : List (FlipEvent × List FlipCall)) :
    (w.handleEvents events).fired.count (.source fd cb) = 0 := by
  refine List.count_eq_zero.mpr fun hf => ?_
  obtain ⟨-, e, -, hears⟩ := handleEvents_fired 0 events _ hf
  exact hears.elim

/-- A source that nothing takes away is called as often as it is reported. -/
theorem route_calls (hw : w.Sound) (hfd : 0 ≤ fd) (hv : w.view.CallsAt o fd (some cb))
    (hok : (route o turn w fds).result = some (.ok ()))
    (hspared : ∀ c ∈ (route o turn w fds).calls, c.Spares o fd) :
    (route o turn w fds).fired.count (.source fd cb) = fds.count fd := by
  induction fds generalizing turn w with
  | nil => rfl
  | cons g gs ih =>
    rw [route] at hok hspared ⊢
    cases ho : w.flips o with
    | none => simp [ho] at hok
    | some pf =>
      simp only [ho] at hok hspared ⊢
      obtain ⟨hfind, hne⟩ := (callsAt_view ho).mp hv
      by_cases hdrm : g = pf.drmFd
      · simp only [hdrm, if_true] at hok hspared ⊢
        rw [List.count_cons_of_ne hne.symm]
        cases hread : (turn 0).read with
        | error e => simp [hread] at hok
        | ok events =>
          simp only [hread] at hok hspared ⊢
          by_cases hgone : (w.handleEvents events).result = none
          · simp [hgone] at hok
          · simp only [hgone, if_false, Dispatched.after] at hok hspared ⊢
            rw [List.forall_mem_append] at hspared
            rw [List.count_append, count_handleEvents_eq_zero, Nat.zero_add]
            refine ih ?_ ?_ hok hspared.2
            · rw [handleEvents_process]
              exact hw.run _
            · rw [handleEvents_process]
              exact callsAt_run hw hfd hv hspared.1
      · simp only [hdrm, if_false] at hok hspared ⊢
        by_cases heq : g = fd
        · subst heq
          simp only [hfind, Dispatched.after] at hok hspared ⊢
          rw [List.forall_mem_append] at hspared
          rw [List.singleton_append, List.count_cons_self, List.count_cons_self]
          exact congrArg Nat.succ
            (ih (hw.run _) (callsAt_run hw hfd hv hspared.1) hok hspared.2)
        · rw [List.count_cons_of_ne heq]
          cases hg' : pf.sources.find? g with
          | none =>
            simp only [hg'] at hok hspared ⊢
            exact ih hw hv hok hspared
          | some cb' =>
            cases cb' with
            | none =>
              simp only [hg'] at hok hspared ⊢
              exact ih hw hv hok hspared
            | some cb' =>
              simp only [hg', Dispatched.after] at hok hspared ⊢
              rw [List.forall_mem_append] at hspared
              have hother : Fired.source g cb' ≠ .source fd cb := by
                intro hsame
                cases hsame
                exact heq rfl
              rw [List.singleton_append, List.count_cons_of_ne hother]
              exact ih (hw.run _) (callsAt_run hw hfd hv hspared.1) hok hspared.2

theorem handleEvents_result (events : List (FlipEvent × List FlipCall)) :
    (w.handleEvents events).result = none ∨ (w.handleEvents events).result = some (.ok ()) := by
  induction events generalizing w with
  | nil => exact .inr rfl
  | cons event events ih =>
    obtain ⟨event, calls⟩ := event
    rw [handleEvents]
    cases event.userData with
    | none => exact ih
    | some p =>
      dsimp only
      cases w.flips p with
      | none => exact .inl rfl
      | some pf =>
        dsimp only
        cases pf.handler with
        | none => exact ih
        | some handler => exact ih

/-- An error of the loop is one of reading the device that the dispatcher has at that moment, and
nothing is done after it. -/
theorem route_error {e : Errc} (h : (route o turn w fds).result = some (.error e)) :
    ∃ i pf, (route o turn w fds).process.flips o = some pf ∧ fds[i]? = some pf.drmFd ∧
      (turn i).read = .error e := by
  induction fds generalizing turn w with
  | nil => simp [route] at h
  | cons g gs ih =>
    rw [route] at h ⊢
    cases ho : w.flips o with
    | none => simp [ho] at h
    | some pf =>
      simp only [ho] at h ⊢
      by_cases hdrm : g = pf.drmFd
      · simp only [hdrm, if_true] at h ⊢
        cases hread : (turn 0).read with
        | error e' =>
          simp only [hread, Option.some.injEq, Except.error.injEq] at h ⊢
          exact ⟨0, pf, ho, rfl, h ▸ hread⟩
        | ok events =>
          simp only [hread] at h ⊢
          rcases handleEvents_result (w := w) events with hgone | hdone
          · simp [hgone] at h
          · simp only [hdone, reduceCtorEq, if_false, Dispatched.after] at h ⊢
            obtain ⟨i, hi⟩ := ih h
            exact ⟨i + 1, hi⟩
      · simp only [hdrm, if_false] at h ⊢
        cases hfind : pf.sources.find? g with
        | none =>
          simp only [hfind] at h ⊢
          obtain ⟨i, hi⟩ := ih h
          exact ⟨i + 1, hi⟩
        | some cb' =>
          cases cb' with
          | none =>
            simp only [hfind] at h ⊢
            obtain ⟨i, hi⟩ := ih h
            exact ⟨i + 1, hi⟩
          | some cb' =>
            simp only [hfind, Dispatched.after] at h ⊢
            obtain ⟨i, hi⟩ := ih h
            exact ⟨i + 1, hi⟩

theorem mem_interest_of_report {epfd fd : Fd} {ready : List Registration}
    (h : fd ∈ w.report epfd ready) : ∃ file, ⟨fd, file⟩ ∈ w.interest epfd := by
  obtain ⟨r, hr, rfl⟩ := List.mem_map.mp h
  have hmem := List.mem_dedup.mp (List.mem_of_mem_take hr)
  exact ⟨r.file, by simpa using (List.mem_filter.mp hmem).2⟩

/-- An exact list has each number once, and so has what is reported of it. -/
theorem nodup_report {pf : PageFlip} (hexact : w.view.Exact) (ho : w.flips o = some pf)
    (ready : List Registration) : (w.report pf.epfd ready).Nodup := by
  have hlist := hexact o _ (watchers_of_flips ho)
  refine List.Nodup.map_on (fun r hr r' hr' hfd => ?_)
    ((List.nodup_dedup _).sublist (List.take_sublist _ _))
  have hlive : ∀ r ∈ ((ready.filter (· ∈ w.interest pf.epfd)).dedup).take maxDispatchEvents,
      w.files.find? r.fd = some r.file := by
    intro r hr
    have hmem := List.mem_dedup.mp (List.mem_of_mem_take hr)
    exact hlist.live r (by simpa using (List.mem_filter.mp hmem).2)
  have hfile := hlive r hr
  rw [hfd, hlive r' hr', Option.some.injEq] at hfile
  cases r
  cases r'
  exact congrArg₂ Registration.mk hfd hfile.symm

end Route

/-- What a dispatch does, by how far it gets. -/
theorem dispatch_cases (w : Process) (o : FlipId) (timeoutMs : ℤ) (now : ℕ) (waits : List Wait)
    (turn : ℕ → Turn) :
    (∃ result, w.dispatch o timeoutMs now waits turn = { process := w, result } ∧
        result ≠ some (.error interrupted) ∧ result ≠ some (.ok ())) ∨
      ∃ pf ready, w.flips o = some pf ∧ (wait timeoutMs now waits).2 = some (.ok ready) ∧
        w.dispatch o timeoutMs now waits turn = route o turn w (w.report pf.epfd ready) := by
  rw [dispatch]
  cases ho : w.flips o with
  | none => exact .inl ⟨none, rfl, by simp, by simp⟩
  | some pf =>
    dsimp only
    split_ifs
    · exact .inl ⟨_, rfl, by decide, by decide⟩
    · exact .inl ⟨_, rfl, by decide, by decide⟩
    · cases hwait : (wait timeoutMs now waits).2 with
      | none => exact .inl ⟨none, rfl, by simp, by simp⟩
      | some answer =>
        cases answer with
        | error e =>
          have hfirst := List.find?_some ((wait_answer timeoutMs now waits).symm.trans hwait)
          exact .inl ⟨some (.error e), rfl, by simpa using hfirst, by simp⟩
        | ok ready =>
          dsimp only
          cases hreport : w.report pf.epfd ready with
          | nil => exact .inl ⟨_, rfl, by decide, by decide⟩
          | cons fd fds => exact .inr ⟨pf, ready, rfl, rfl, by rw [hreport]⟩

end Process

/-- A dispatch after a program's operations. -/
def dispatchAfter (ops : List FlipOp) (o : FlipId) (timeoutMs : ℤ) (now : ℕ) (waits : List Wait)
    (turn : ℕ → Turn) : Dispatched :=
  (afterOps ops).dispatch o timeoutMs now waits turn

/-- A callback takes the source after it away. -/
example :
    (dispatchAfter
      [.call (.openFd 3 0), .call (.construct 0 3 (some (4, 1)) none),
        .call (.openFd 5 2), .call (.addSource 0 5 (some 0) none),
        .call (.openFd 6 3), .call (.addSource 0 6 (some 1) none),
        .call (.openFd 7 4), .call (.addSource 0 7 (some 2) none)]
      0 (-1) 0 [⟨0, .error interrupted⟩, ⟨0, .ok [⟨5, 2⟩, ⟨6, 3⟩, ⟨7, 4⟩]⟩]
      fun _ => { calls := [.removeSource 0 6] }).fired = [.source 5 0, .source 7 2] := by
  decide

/-- A dispatch gives up only on an answer that is not an interruption, unless reading the device
that the dispatcher then has was interrupted, and with a budget it asks for no wait that lasts
beyond the deadline. -/
theorem dispatch_interrupted (w : Process) (o : FlipId) (timeoutMs : ℤ) (now : ℕ)
    (waits : List Wait) (turn : ℕ → Turn) :
    ((w.dispatch o timeoutMs now waits turn).result = some (.error interrupted) →
        ∃ pf ready pf' i, w.flips o = some pf ∧
          (wait timeoutMs now waits).2 = some (.ok ready) ∧
          (w.dispatch o timeoutMs now waits turn).process.flips o = some pf' ∧
          (w.report pf.epfd ready)[i]? = some pf'.drmFd ∧
          (turn i).read = .error interrupted) ∧
      (wait timeoutMs now waits).2 =
        (waits.map (·.answer)).find? (fun a => decide (a ≠ .error interrupted)) ∧
      (0 < timeoutMs → ∀ (i : ℕ) t, (wait timeoutMs now waits).1[i]? = some t →
        ∃ one, waits[i]? = some one ∧ 0 ≤ t ∧
          (t = 0 ∨ (one.called : ℤ) + t * nsPerMs ≤ now + timeoutMs * nsPerMs)) := by
  refine ⟨fun h => ?_, wait_answer timeoutMs now waits, fun hpos i t ht => ?_⟩
  · rcases Process.dispatch_cases w o timeoutMs now waits turn with
      ⟨result, hnothing, hother, -⟩ | ⟨pf, ready, ho, hwait, hroute⟩
    · rw [hnothing] at h
      exact absurd h hother
    · rw [hroute] at h ⊢
      obtain ⟨i, pf', hpf', hi⟩ := Process.route_error h
      exact ⟨pf, ready, pf', i, ho, hwait, hpf', hi⟩
  · rw [wait, if_neg (Int.not_le.mpr hpos)] at ht
    obtain ⟨hi, rfl⟩ := List.getElem?_eq_some_iff.mp ht
    have hasked := List.prefix_iff_getElem?.mp (waitLoop_asked _ waits) i hi
    rw [List.getElem?_map, Option.map_eq_some_iff] at hasked
    obtain ⟨one, hone, hleft⟩ := hasked
    obtain ⟨hnonneg, hlast⟩ := remainingMs_spec (now + timeoutMs.toNat * nsPerMs) one.called
    rw [← hleft]
    refine ⟨one, hone, hnonneg, hlast.imp_right fun hle => ?_⟩
    have hbudget : (timeoutMs.toNat : ℤ) = timeoutMs := Int.toNat_of_nonneg (Int.le_of_lt hpos)
    rwa [Int.natCast_add, Int.natCast_mul, hbudget] at hle

end DrmCxx.Modeset
