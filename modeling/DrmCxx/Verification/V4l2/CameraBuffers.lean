import DrmCxx.Lib.Custody
import DrmCxx.Lib.Run
import DrmCxx.Scene.V4l2CameraSource
import Mathlib.Data.List.InsertIdx

/-!
# Who holds a camera's buffers

A camera source under any sequence of drives, acquisitions and releases, the capture queue
answering as it likes. The zero-copy mode never loses a buffer; the copy mode does when a drain
ends in an error after it took a frame, and it draws into a dumb buffer the scene still holds.
-/

namespace DrmCxx.Scene

open Lib (Conserved Meets meets_iff_of_kept perm_cons_eraseIdx)

/-! ### The queue -/

namespace V4l2Queue

theorem dqbuf_cases (q : V4l2Queue) (answer : DqbufAnswer) :
    (∃ e, q.dqbuf answer = (q, .error e)) ∨
    ∃ k index, answer = .ok k ∧ q.queued[k]? = some index ∧
      q.dqbuf answer = ({ q with queued := q.queued.eraseIdx k }, .ok index) := by
  cases answer with
  | error e => exact .inl ⟨e, rfl⟩
  | ok k =>
    cases h : q.queued[k]? with
    | none => exact .inl ⟨.resourceUnavailableTryAgain, by simp [dqbuf, h]⟩
    | some index => exact .inr ⟨k, index, rfl, h, by simp [dqbuf, h]⟩

end V4l2Queue

namespace V4l2CameraSource

/-! ### What a drive does -/

theorem requeue_of_dequeued {s : V4l2CameraSource} {index : ℕ} (h : index < s.queue.count)
    (hq : index ∉ s.queue.queued) :
    s.requeue index =
      { s with queue := { s.queue with queued := s.queue.queued ++ [index] } } := by
  simp only [requeue, V4l2Queue.qbuf_of_dequeued h hq]

/-- Buffers the driver does not hold all go back to it. -/
theorem foldl_requeue {s : V4l2CameraSource} {indices : List ℕ}
    (hlt : ∀ i ∈ indices, i < s.queue.count) (hnd : (s.queue.queued ++ indices).Nodup) :
    indices.foldl requeue s =
      { s with queue := { s.queue with queued := s.queue.queued ++ indices } } := by
  induction indices generalizing s with
  | nil => simp
  | cons i indices ih =>
    have hi : i ∉ s.queue.queued := fun h =>
      (List.nodup_append.mp hnd).2.2 i h i List.mem_cons_self rfl
    rw [List.foldl_cons, requeue_of_dequeued (hlt i List.mem_cons_self) hi]
    refine (ih (s := { s with queue := { s.queue with queued := s.queue.queued ++ [i] } })
      (fun j hj => hlt j (List.mem_cons_of_mem _ hj)) (by simpa using hnd)).trans ?_
    simp

/-- The zero-copy loop moves buffers between the driver and the ready frame only. -/
theorem driveZeroCopy_spec {s : V4l2CameraSource} {held : List ℕ}
    (hcount : s.queue.count = s.buffers.length)
    (hc : Conserved s.buffers.length [s.queue.queued, s.readyIdx.toList, held])
    (answers : List DqbufAnswer) :
    ∃ queue readyIdx, (s.driveZeroCopy answers).1 = { s with queue, readyIdx } ∧
      queue.count = s.buffers.length ∧
      Conserved s.buffers.length [queue.queued, readyIdx.toList, held] := by
  induction answers generalizing s with
  | nil => exact ⟨s.queue, s.readyIdx, rfl, hcount, hc⟩
  | cons answer answers ih =>
    rcases s.queue.dqbuf_cases answer with ⟨e, he⟩ | ⟨k, index, -, hk, hdq⟩
    · refine ⟨s.queue, s.readyIdx, ?_, hcount, hc⟩
      simp only [driveZeroCopy, he]
      split <;> rfl
    have hidx : index < s.buffers.length :=
      hc.lt (l := s.queue.queued) (by simp) (List.mem_of_getElem? hk)
    simp only [driveZeroCopy, hdq, if_neg (Nat.not_le.mpr hidx)]
    cases hr : s.readyIdx with
    | none =>
      rw [hr] at hc
      exact ih (s := { s with queue := _, readyIdx := some index }) hcount (hc.take hk)
    | some ready =>
      rw [hr] at hc
      have hready : ready ∉ s.queue.queued := fun h =>
        hc.not_mem_of_mem h (l := [ready]) (by simp) (by simp)
      have hlt : ready < s.buffers.length := hc.lt (l := [ready]) (by simp) (by simp)
      dsimp only
      rw [requeue_of_dequeued (hcount ▸ hlt) fun h => hready (List.mem_of_mem_eraseIdx h)]
      exact ih (s := { s with queue := _, readyIdx := some index }) hcount
        ((hc.take hk).putBack (k := 0) rfl)

/-- What a drain with `queued` buffers at the driver comes to: how many frames it takes, and the
error that ends it. -/
def drainEnd (queued : ℕ) : List DqbufAnswer → ℕ × Errc
  | [] => (0, .resourceUnavailableTryAgain)
  | .error e :: _ => (0, e)
  | .ok k :: answers =>
    if k < queued then
      let (frames, stop) := drainEnd (queued - 1) answers
      (frames + 1, stop)
    else (0, .resourceUnavailableTryAgain)

/-- A drain that runs dry has every buffer it took in its hands; one that fails drops them. -/
theorem drain_spec {buffers : ℕ} {q : V4l2Queue} (hlt : ∀ i ∈ q.queued, i < buffers)
    (latest : Option ℕ) (dq : List ℕ) (answers : List DqbufAnswer) :
    (drainEnd q.queued.length answers).2 = .resourceUnavailableTryAgain ∧
      (∃ queued latest' dq', drain buffers q latest dq answers =
          ({ q with queued }, .ok (latest', dq')) ∧
        (queued ++ (dq' ++ latest'.toList)).Perm (q.queued ++ (dq ++ latest.toList)) ∧
        ((drainEnd q.queued.length answers).1 = 0 →
          queued = q.queued ∧ latest' = latest ∧ dq' = dq) ∧
        ((drainEnd q.queued.length answers).1 ≠ 0 → latest'.isSome)) ∨
    (drainEnd q.queued.length answers).2 ≠ .resourceUnavailableTryAgain ∧
      ∃ queued e, drain buffers q latest dq answers = ({ q with queued }, .error e) ∧
        queued.length + (drainEnd q.queued.length answers).1 = q.queued.length ∧
        ((drainEnd q.queued.length answers).1 = 0 → queued = q.queued) := by
  induction answers generalizing q latest dq with
  | nil =>
    exact .inl ⟨rfl, q.queued, latest, dq, rfl, .refl _, fun _ => ⟨rfl, rfl, rfl⟩,
      by simp [drainEnd]⟩
  | cons answer answers ih =>
    cases answer with
    | error e =>
      by_cases he : e = .resourceUnavailableTryAgain
      · exact .inl ⟨he, q.queued, latest, dq, by simp [drain, V4l2Queue.dqbuf, he], .refl _,
          fun _ => ⟨rfl, rfl, rfl⟩, by simp [drainEnd]⟩
      · exact .inr ⟨he, q.queued, e, by simp [drain, V4l2Queue.dqbuf, he], rfl, fun _ => rfl⟩
    | ok k =>
      by_cases hk : k < q.queued.length
      case neg =>
        have hnone : q.queued[k]? = none := List.getElem?_eq_none (Nat.not_lt.mp hk)
        exact .inl ⟨by simp [drainEnd, hk], q.queued, latest, dq,
          by simp [drain, V4l2Queue.dqbuf, hnone], .refl _, fun _ => ⟨rfl, rfl, rfl⟩,
          by simp [drainEnd, hk]⟩
      have hget : q.queued[k]? = some q.queued[k] := List.getElem?_eq_getElem hk
      have hperm := perm_cons_eraseIdx hget
      have hlen : (q.queued.eraseIdx k).length = q.queued.length - 1 :=
        List.length_eraseIdx_of_lt hk
      have hidx : ¬ buffers ≤ q.queued[k] := Nat.not_le.mpr (hlt _ (List.getElem_mem hk))
      have hstep : drain buffers q latest dq (.ok k :: answers) =
          drain buffers { q with queued := q.queued.eraseIdx k } (some q.queued[k])
            (dq ++ latest.toList) answers := by
        simp [drain, V4l2Queue.dqbuf, hget, hidx]
      have hend : drainEnd q.queued.length (.ok k :: answers) =
          ((drainEnd (q.queued.length - 1) answers).1 + 1,
            (drainEnd (q.queued.length - 1) answers).2) := by
        simp [drainEnd, hk]
      have hrest := ih (q := { q with queued := q.queued.eraseIdx k })
        (fun i hi => hlt i (List.mem_of_mem_eraseIdx hi)) (some q.queued[k]) (dq ++ latest.toList)
      rw [hstep, hend]
      simp only [hlen] at hrest
      rcases hrest with ⟨hstop, queued, latest', dq', hd, hp, hzero, hsome⟩ |
        ⟨hstop, queued, e, hd, hl, hzero⟩
      · refine .inl ⟨hstop, queued, latest', dq', hd, hp.trans ?_, by simp, fun _ => ?_⟩
        · refine List.perm_iff_count.mpr fun a => ?_
          have := hperm.count_eq a
          simp only [List.count_append, List.count_cons, Option.toList_some, List.count_nil]
            at this ⊢
          omega
        · rcases Nat.eq_zero_or_pos (drainEnd (q.queued.length - 1) answers).1 with h | h
          · rw [(hzero h).2.1]
            rfl
          · exact hsome h.ne'
      · exact .inr ⟨hstop, queued, e, hd, by simp only; omega, by simp⟩

/-! ### What an acquisition and a release do -/

theorem acquire_cases (s : V4l2CameraSource) :
    (∃ e, s.acquire = (s, .error e)) ∨
    (s.activeMode = .dmaBufZeroCopy ∧ ∃ index fbId, s.readyIdx = some index ∧
      s.acquire = ({ s with acquiredMask := s.acquiredMask.set index true, readyIdx := none },
        .ok ⟨fbId, index + 1⟩)) ∨
    (s.activeMode ≠ .dmaBufZeroCopy ∧ (s.dumbPair s.frontIdx).empty = false ∧
      s.acquire = (s, .ok ⟨(s.dumbPair s.frontIdx).fbId, 0⟩)) := by
  rw [acquire]
  cases s.pendingError with
  | some e => exact .inl ⟨e, rfl⟩
  | none =>
    by_cases hmode : s.activeMode = .dmaBufZeroCopy
    · simp only [if_pos hmode]
      cases hr : s.readyIdx with
      | none => exact .inl ⟨_, rfl⟩
      | some index =>
        cases hb : s.buffers[index]? with
        | none => exact .inl ⟨.invalidArgument, by simp [hb]⟩
        | some fbId =>
          by_cases h0 : fbId = 0
          · exact .inl ⟨.resourceUnavailableTryAgain, by simp [hb, h0]⟩
          · exact .inr (.inl ⟨hmode, index, fbId, rfl, by simp [hb, h0]⟩)
    · simp only [if_neg hmode]
      cases s.anyPublished with
      | false => exact .inl ⟨_, rfl⟩
      | true =>
        cases he : (s.dumbPair s.frontIdx).empty with
        | true => exact .inl ⟨.resourceUnavailableTryAgain, by simp⟩
        | false =>
          by_cases h0 : (s.dumbPair s.frontIdx).fbId = 0
          · exact .inl ⟨.resourceUnavailableTryAgain, by simp [h0]⟩
          · exact .inr (.inr ⟨hmode, rfl, by simp [h0]⟩)

/-- A release of a buffer the mask names gives it back to the driver. -/
theorem release_of_acquired {s : V4l2CameraSource} (hmode : s.activeMode = .dmaBufZeroCopy)
    {a : V4l2Acquired} {index : ℕ} (ha : a.cookie = index + 1) (hlt : index < s.buffers.length)
    (hmask : s.acquiredMask[index]? = some true) (hcount : s.queue.count = s.buffers.length)
    (hq : index ∉ s.queue.queued) :
    s.release a = { s with
      acquiredMask := s.acquiredMask.set index false
      queue := { s.queue with queued := s.queue.queued ++ [index] } } := by
  have hcond : ¬ (s.buffers.length ≤ index ∨ s.acquiredMask[index]? ≠ some true) := by
    simp [hlt, hmask]
  simp only [release, if_pos hmode, ha, if_neg (Nat.succ_ne_zero index), Nat.add_sub_cancel,
    if_neg hcond, V4l2Queue.qbuf_of_dequeued (hcount ▸ hlt) hq]

theorem release_copy {s : V4l2CameraSource} (hmode : s.activeMode ≠ .dmaBufZeroCopy)
    (a : V4l2Acquired) : s.release a = s :=
  if_neg hmode

end V4l2CameraSource

/-! ### Calls on a camera, with the acquisitions not yet released -/

structure CameraAcquisition where
  buffer : V4l2Acquired
  /-- The capture buffer in the zero-copy mode, the dumb buffer in the copy mode. -/
  index : ℕ
  deriving DecidableEq, Repr

structure CameraTrace where
  source : V4l2CameraSource
  held : List CameraAcquisition := []

inductive CameraEvent
  /-- One `drive`, with the answers to its `VIDIOC_DQBUF`s. -/
  | drive (answers : List DqbufAnswer)
  | acquire
  /-- Releases the `i`-th acquisition still held. -/
  | release (i : ℕ)

namespace CameraTrace

def init (mode : CameraBufferMode) (fbIds : List FbId) (dumbPair : Fin 2 → DumbBuffer) :
    CameraTrace :=
  { source := .create mode fbIds dumbPair }

/-- The buffer an acquisition made now is given. -/
def given (s : V4l2CameraSource) : ℕ :=
  if s.activeMode = .dmaBufZeroCopy then s.readyIdx.getD 0 else s.frontIdx

def step (t : CameraTrace) : CameraEvent → CameraTrace
  | .drive answers => { t with source := (t.source.drive answers).source }
  | .acquire =>
    match t.source.acquire with
    | (source, .error _) => { t with source }
    | (source, .ok buffer) => { source, held := t.held ++ [⟨buffer, given t.source⟩] }
  | .release i =>
    match t.held[i]? with
    | none => t
    | some a => { source := t.source.release a.buffer, held := t.held.eraseIdx i }

/-- Where the capture buffers may be. -/
def places (t : CameraTrace) : List (List ℕ) :=
  if t.source.activeMode = .dmaBufZeroCopy then
    [t.source.queue.queued, t.source.readyIdx.toList, t.held.map (·.index)]
  else [t.source.queue.queued]

/-- Every capture buffer is in exactly one place. -/
def BuffersConserved (t : CameraTrace) : Prop :=
  Conserved t.source.buffers.length t.places

instance (t : CameraTrace) : Decidable t.BuffersConserved :=
  inferInstanceAs (Decidable (Conserved _ _))

/-- A drive writes no dumb buffer that an unreleased acquisition was given. -/
def NoOverwrite (t : CameraTrace) : CameraEvent → Prop
  | .drive answers => ∀ back, (t.source.drive answers).written = some back →
      ∀ a ∈ t.held, a.index ≠ back
  | _ => True

/-- A copying drive that takes frames ends them with `EAGAIN`, while nobody holds the back
buffer. -/
def Kept (t : CameraTrace) : CameraEvent → Prop
  | .drive answers => t.source.activeMode ≠ .dmaBufZeroCopy →
      let (frames, stop) := V4l2CameraSource.drainEnd t.source.queue.queued.length answers
      frames = 0 ∨ stop = .resourceUnavailableTryAgain ∧
        ∀ a ∈ t.held, a.index ≠ ((1 - t.source.frontIdx : Fin 2) : ℕ)
  | _ => True

structure Inv (t : CameraTrace) : Prop where
  count : t.source.queue.count = t.source.buffers.length
  mask : t.source.acquiredMask.length = t.source.buffers.length
  conserved : t.BuffersConserved
  slot : t.source.activeMode = .dmaBufZeroCopy → ∀ a ∈ t.held,
    t.source.acquiredMask[a.index]? = some true ∧ a.buffer.cookie = a.index + 1
  dumb : t.source.activeMode ≠ .dmaBufZeroCopy → ∀ a ∈ t.held, ∀ i : Fin 2, a.index = i →
    (t.source.dumbPair i).empty = false

theorem inv_init (mode : CameraBufferMode) (fbIds : List FbId) (dumbPair : Fin 2 → DumbBuffer) :
    (init mode fbIds dumbPair).Inv where
  count := rfl
  mask := by simp [init, V4l2CameraSource.create]
  conserved := by
    by_cases h : mode = .dmaBufZeroCopy <;>
      simp [BuffersConserved, places, init, V4l2CameraSource.create, V4l2Queue.filled, Conserved, h]
  slot _ a ha := by cases ha
  dumb _ a ha := by cases ha

/-! ### Drives -/

/-- A step that changes the queue, the ready frame and the published dumb buffer only. -/
theorem Inv.congr {t : CameraTrace} (ht : t.Inv) {s : V4l2CameraSource}
    (hmode : s.activeMode = t.source.activeMode) (hbuf : s.buffers = t.source.buffers)
    (hmask : s.acquiredMask = t.source.acquiredMask) (hdumb : s.dumbPair = t.source.dumbPair)
    (hcount : s.queue.count = t.source.queue.count)
    (hc : BuffersConserved { t with source := s }) : Inv { t with source := s } where
  count := by rw [hcount, hbuf]; exact ht.count
  mask := by rw [hmask, hbuf]; exact ht.mask
  conserved := hc
  slot h := by rw [hmask]; exact ht.slot (hmode ▸ h)
  dumb h := by rw [hdumb]; exact ht.dumb (hmode ▸ h)

theorem inv_drive_zeroCopy {t : CameraTrace} (ht : t.Inv)
    (hmode : t.source.activeMode = .dmaBufZeroCopy) (answers : List DqbufAnswer) :
    (t.step (.drive answers)).Inv ∧ t.NoOverwrite (.drive answers) := by
  have hc := ht.conserved
  rw [BuffersConserved, places, if_pos hmode] at hc
  obtain ⟨queue, readyIdx, hs, hcount, hc'⟩ :=
    V4l2CameraSource.driveZeroCopy_spec ht.count hc answers
  have hdrive : (t.source.drive answers).source = { t.source with queue, readyIdx } := by
    rw [V4l2CameraSource.drive, if_pos hmode, ← hs]
  refine ⟨?_, fun back hb => ?_⟩
  · rw [step, hdrive]
    refine ht.congr rfl rfl rfl rfl (hcount.trans ht.count.symm) ?_
    rw [BuffersConserved, places, if_pos hmode]
    exact hc'
  · rw [V4l2CameraSource.drive, if_pos hmode] at hb
    cases hb

/-- What a copying drive does: nothing to take, a failed drain, or a frame copied. -/
theorem driveCopy_cases {t : CameraTrace} (ht : t.Inv)
    (hmode : t.source.activeMode ≠ .dmaBufZeroCopy) (answers : List DqbufAnswer) :
    let d := V4l2CameraSource.drainEnd t.source.queue.queued.length answers
    (d.1 = 0 ∧ (t.source.drive answers).source = t.source ∧
      (t.source.drive answers).written = none) ∨
    (d.1 ≠ 0 ∧ d.2 ≠ .resourceUnavailableTryAgain ∧ ∃ queued,
      (t.source.drive answers).source =
        { t.source with queue := { t.source.queue with queued } } ∧
      queued.length < t.source.queue.queued.length) ∨
    (d.1 ≠ 0 ∧ d.2 = .resourceUnavailableTryAgain ∧ ∃ queued,
      (t.source.drive answers).source =
        { t.source with
          queue := { t.source.queue with queued }
          frontIdx := 1 - t.source.frontIdx
          anyPublished := true } ∧
      queued.Perm t.source.queue.queued ∧
      (t.source.drive answers).written =
        if (t.source.dumbPair (1 - t.source.frontIdx)).empty then none
        else some (1 - t.source.frontIdx)) := by
  have hc := ht.conserved
  rw [BuffersConserved, places, if_neg hmode] at hc
  have hlt : ∀ i ∈ t.source.queue.queued, i < t.source.buffers.length := fun i hi =>
    hc.lt (l := t.source.queue.queued) (by simp) hi
  intro d
  rw [V4l2CameraSource.drive, if_neg hmode, V4l2CameraSource.driveCopy]
  rcases V4l2CameraSource.drain_spec hlt none [] answers with
    ⟨hstop, queued, latest, dq, hd, hp, hzero, hsome⟩ | ⟨hstop, queued, e, hd, hl, hzero⟩
  · by_cases h0 : d.1 = 0
    · left
      obtain ⟨rfl, rfl, rfl⟩ := hzero h0
      exact ⟨h0, by rw [hd]; rfl, by rw [hd]⟩
    · obtain ⟨index, rfl⟩ := Option.isSome_iff_exists.mp (hsome h0)
      refine .inr (.inr ⟨h0, hstop, queued ++ (dq ++ [index]), ?_⟩)
      have hnd : (queued ++ (dq ++ [index])).Nodup := by
        rw [List.Perm.nodup_iff (by simpa using hp)]
        simpa using hc.nodup
      have hmem : ∀ i ∈ dq ++ [index], i < t.source.queue.count := fun i hi => by
        rw [ht.count]
        refine hlt i ?_
        simpa using hp.subset (List.mem_append_right _ hi)
      rw [hd]
      refine ⟨V4l2CameraSource.foldl_requeue (s := { t.source with
        queue := { t.source.queue with queued }
        frontIdx := 1 - t.source.frontIdx
        anyPublished := true }) hmem hnd, by simpa using hp, rfl⟩
  · by_cases h0 : d.1 = 0
    · obtain rfl := hzero h0
      exact .inl ⟨h0, by rw [hd], by rw [hd]⟩
    · refine .inr (.inl ⟨h0, hstop, queued, by rw [hd], ?_⟩)
      change queued.length + d.1 = _ at hl
      omega

theorem drive_copy_iff {t : CameraTrace} (ht : t.Inv)
    (hmode : t.source.activeMode ≠ .dmaBufZeroCopy) (answers : List DqbufAnswer) :
    t.NoOverwrite (.drive answers) ∧ (t.step (.drive answers)).BuffersConserved ↔
      t.Kept (.drive answers) := by
  have hc := ht.conserved
  rw [BuffersConserved, places, if_neg hmode] at hc
  have hkept : t.Kept (.drive answers) ↔
      let d := V4l2CameraSource.drainEnd t.source.queue.queued.length answers
      d.1 = 0 ∨ d.2 = .resourceUnavailableTryAgain ∧
        ∀ a ∈ t.held, a.index ≠ ((1 - t.source.frontIdx : Fin 2) : ℕ) :=
    imp_iff_right hmode
  rw [hkept]
  rcases driveCopy_cases ht hmode answers with ⟨h0, hs, hw⟩ | ⟨h0, hstop, queued, hs, hl⟩ |
    ⟨h0, hstop, queued, hs, hp, hw⟩
  · refine iff_of_true ⟨fun back hb => ?_, ?_⟩ (.inl h0)
    · rw [hw] at hb
      cases hb
    · rw [step, hs]
      exact ht.conserved
  · -- the frames taken are in nobody's hands
    refine iff_of_false (fun h => ?_) (by simp [h0, hstop])
    have hc' := h.2
    rw [BuffersConserved, step, hs, places, if_neg hmode] at hc'
    have h1 := hc.length_flatten
    have h2 := hc'.length_flatten
    simp only [List.flatten_cons, List.flatten_nil, List.append_nil] at h1 h2
    omega
  · have hc' : (t.step (.drive answers)).BuffersConserved := by
      rw [BuffersConserved, step, hs, places, if_neg hmode]
      exact hc.of_perm (by simpa using hp)
    constructor
    · rintro ⟨hno, -⟩
      refine .inr ⟨hstop, fun a ha hback => ?_⟩
      refine hno (1 - t.source.frontIdx) ?_ a ha hback
      rw [hw, ht.dumb hmode a ha _ hback]
      rfl
    · rintro (h | ⟨-, hheld⟩)
      · exact absurd h h0
      · refine ⟨fun back hb => ?_, hc'⟩
        rw [hw] at hb
        split at hb
        · cases hb
        · cases hb
          exact hheld

/-! ### Acquisitions and releases -/

/-- While the source copies, who holds an acquisition holds no capture buffer. -/
theorem Inv.holding {t : CameraTrace} (ht : t.Inv) (hmode : t.source.activeMode ≠ .dmaBufZeroCopy)
    {held : List CameraAcquisition}
    (hdumb : ∀ a ∈ held, ∀ i : Fin 2, a.index = i → (t.source.dumbPair i).empty = false) :
    Inv { t with held } where
  count := ht.count
  mask := ht.mask
  conserved := by
    have hc := ht.conserved
    simp only [BuffersConserved, places, if_neg hmode] at hc ⊢
    exact hc
  slot h := absurd h hmode
  dumb _ := hdumb

theorem inv_acquire {t : CameraTrace} (ht : t.Inv) : (t.step .acquire).Inv := by
  rcases t.source.acquire_cases with ⟨e, he⟩ | ⟨hmode, index, fbId, hr, hs⟩ | ⟨hmode, hfull, hs⟩
  · simpa only [step, he] using ht
  · have hc := ht.conserved
    simp only [BuffersConserved, places, if_pos hmode, hr, Option.toList_some] at hc
    have hlt : index < t.source.buffers.length := hc.lt (l := [index]) (by simp) (by simp)
    have hgiven : given t.source = index := by simp [given, hmode, hr]
    simp only [step, hs, hgiven]
    constructor
    case count => exact ht.count
    case mask => simpa using ht.mask
    case conserved =>
      simp only [BuffersConserved, places, if_pos hmode, List.map_append]
      exact hc.handOver
    case slot =>
      intro _ a ha
      rw [List.getElem?_set]
      rcases List.mem_append.mp ha with ha | ha
      · obtain ⟨hm, hcookie⟩ := ht.slot hmode a ha
        refine ⟨?_, hcookie⟩
        split
        · simp [ht.mask, hlt]
        · exact hm
      · obtain rfl := List.mem_singleton.mp ha
        simp [ht.mask, hlt]
    case dumb => exact fun h => absurd hmode h
  · have hgiven : given t.source = t.source.frontIdx := if_neg hmode
    simp only [step, hs, hgiven]
    refine ht.holding hmode fun a ha i hi => ?_
    rcases List.mem_append.mp ha with ha | ha
    · exact ht.dumb hmode a ha i hi
    · obtain rfl := List.mem_singleton.mp ha
      obtain rfl : t.source.frontIdx = i := Fin.ext hi
      exact hfull

theorem inv_release {t : CameraTrace} (ht : t.Inv) (i : ℕ) : (t.step (.release i)).Inv := by
  cases hi : t.held[i]? with
  | none => simpa only [step, hi] using ht
  | some a =>
    have ha : a ∈ t.held := List.mem_of_getElem? hi
    have hsub : ∀ b ∈ t.held.eraseIdx i, b ∈ t.held := fun b hb => List.mem_of_mem_eraseIdx hb
    simp only [step, hi]
    by_cases hmode : t.source.activeMode = .dmaBufZeroCopy
    · have hc := ht.conserved
      simp only [BuffersConserved, places, if_pos hmode] at hc
      have hmem : a.index ∈ t.held.map (·.index) := List.mem_map_of_mem ha
      have hlt : a.index < t.source.buffers.length := hc.lt (by simp) hmem
      have hq : a.index ∉ t.source.queue.queued := fun h => hc.not_mem_of_mem h (by simp) hmem
      obtain ⟨hmask, hcookie⟩ := ht.slot hmode a ha
      have hidx : (t.held.map (·.index))[i]? = some a.index := by simp [hi]
      rw [V4l2CameraSource.release_of_acquired hmode hcookie hlt hmask ht.count hq]
      constructor
      case count => exact ht.count
      case mask => simpa using ht.mask
      case conserved =>
        simp only [BuffersConserved, places, if_pos hmode, ← List.eraseIdx_map]
        exact hc.giveBack hidx
      case slot =>
        intro _ b hb
        obtain ⟨hm, hbc⟩ := ht.slot hmode b (hsub b hb)
        refine ⟨?_, hbc⟩
        have hne : a.index ≠ b.index := fun h => by
          refine hc.not_mem_eraseIdx (by simp) hidx ?_
          rw [h, List.eraseIdx_map]
          exact List.mem_map_of_mem hb
        rwa [List.getElem?_set_ne hne]
      case dumb => exact fun h => absurd hmode h
    · rw [V4l2CameraSource.release_copy hmode]
      exact ht.holding hmode fun b hb => ht.dumb hmode b (hsub b hb)

/-! ### Runs -/

theorem inv_drive {t : CameraTrace} (ht : t.Inv) {answers : List DqbufAnswer}
    (hc : (t.step (.drive answers)).BuffersConserved) : (t.step (.drive answers)).Inv := by
  by_cases hmode : t.source.activeMode = .dmaBufZeroCopy
  · exact (inv_drive_zeroCopy ht hmode answers).1
  · rcases driveCopy_cases ht hmode answers with ⟨-, hs, -⟩ | ⟨-, -, queued, hs, -⟩ |
      ⟨-, -, queued, hs, -, -⟩
    all_goals
      rw [step, hs] at hc ⊢
      exact ht.congr rfl rfl rfl rfl rfl hc

/-- The buffers stay conserved, and no held dumb buffer is written, exactly in the runs whose
copying drives are all kept. -/
theorem buffersConserved_iff_kept (mode : CameraBufferMode) (fbIds : List FbId)
    (dumbPair : Fin 2 → DumbBuffer) (es : List CameraEvent) :
    Meets step (fun t e => t.NoOverwrite e ∧ (t.step e).BuffersConserved)
        (init mode fbIds dumbPair) es ↔
      Meets step Kept (init mode fbIds dumbPair) es := by
  refine meets_iff_of_kept Inv (fun t e ht he => ?_) (fun t e ht => ?_)
    (inv_init mode fbIds dumbPair) es
  · cases e with
    | drive answers => exact inv_drive ht he.2
    | acquire => exact inv_acquire ht
    | release i => exact inv_release ht i
  · cases e with
    | drive answers =>
      by_cases hmode : t.source.activeMode = .dmaBufZeroCopy
      · obtain ⟨hinv, hno⟩ := inv_drive_zeroCopy ht hmode answers
        exact iff_of_true ⟨hno, hinv.conserved⟩ fun h => absurd hmode h
      · exact drive_copy_iff ht hmode answers
    | acquire => exact iff_of_true ⟨trivial, (inv_acquire ht).conserved⟩ trivial
    | release i => exact iff_of_true ⟨trivial, (inv_release ht i).conserved⟩ trivial

/-- A frame is taken and the next `VIDIOC_DQBUF` fails: `drive` returns with the frame's buffer in
its hands. -/
def failedDrain : List CameraEvent :=
  [.drive [.ok 0, .error (.other 5)]]

theorem buffer_lost_after_failedDrain :
    ¬ ∀ es : List CameraEvent,
      Meets step (fun t e => t.NoOverwrite e ∧ (t.step e).BuffersConserved)
        (init .mmapCopy [0, 0] fun i => { empty := false, fbId := 7 + i }) es := by
  intro h
  have hlost := (h failedDrain).1.2
  revert hlost
  decide

end CameraTrace

end DrmCxx.Scene
