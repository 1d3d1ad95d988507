import DrmCxx.Lib.Custody
import DrmCxx.Lib.Run
import DrmCxx.Scene.V4l2DecoderSource
import DrmCxx.Verification.V4l2.CameraBuffers
import Mathlib.Tactic.Tauto

/-!
# Who holds a decoder's slots

A decoder source under any sequence of drives, submissions, acquisitions and releases, with any
number of resolution changes. Slots stay accounted for as long as no resolution change comes while
the scene holds a buffer: the change removes the buffer's framebuffer, and the token of the
acquisition then names a slot of another ring.
-/

namespace DrmCxx.Scene

open Lib (Conserved Meets meets_iff_of_kept_under meets_of_forall)

namespace V4l2DecoderSource

/-! ### What each operation does -/

/-- The rings are the size of their queues. -/
structure Sized (s : V4l2DecoderSource) : Prop where
  capture : s.captureQueue.count = s.captureBuffers.length
  output : s.outputQueue.count = s.outputBuffers.length

/-- The OUTPUT slots are free or with the kernel. -/
def OutputConserved (s : V4l2DecoderSource) : Prop :=
  Conserved s.outputBuffers.length [s.outputQueue.queued, s.outputFree]

/-- The CAPTURE slots are queued, ready, or in the list. -/
def CaptureConserved (s : V4l2DecoderSource) (held : List ℕ) : Prop :=
  Conserved s.captureBuffers.length [s.captureQueue.queued, s.captureReadyIdx.toList, held]

instance (s : V4l2DecoderSource) : Decidable s.OutputConserved :=
  inferInstanceAs (Decidable (Conserved _ _))

instance (s : V4l2DecoderSource) (held : List ℕ) : Decidable (s.CaptureConserved held) :=
  inferInstanceAs (Decidable (Conserved _ _))

theorem drainOutput_spec {s : V4l2DecoderSource} (hs : s.Sized) (ho : s.OutputConserved)
    (answers : List DqbufAnswer) :
    ∃ queued outputFree, (s.drainOutput answers).1 =
        { s with outputQueue := { s.outputQueue with queued }, outputFree } ∧
      OutputConserved (s.drainOutput answers).1 := by
  induction answers generalizing s with
  | nil => exact ⟨s.outputQueue.queued, s.outputFree, rfl, ho⟩
  | cons answer answers ih =>
    rcases s.outputQueue.dqbuf_cases answer with ⟨e, he⟩ | ⟨k, index, -, hk, hdq⟩
    · refine ⟨s.outputQueue.queued, s.outputFree, ?_, ?_⟩
      · simp only [drainOutput, he]
      · simpa only [drainOutput, he] using ho
    have hlt : index < s.outputBuffers.length :=
      ho.lt (l := s.outputQueue.queued) (by simp) (List.mem_of_getElem? hk)
    simp only [drainOutput, hdq, if_pos hlt]
    obtain ⟨queued, outputFree, h, hc⟩ := ih
      (s := { s with
        outputQueue := { s.outputQueue with queued := s.outputQueue.queued.eraseIdx k }
        outputFree := s.outputFree ++ [index] })
      ⟨hs.capture, hs.output⟩ (Conserved.take ho hk)
    exact ⟨queued, outputFree, h, hc⟩

theorem drainCapture_spec {s : V4l2DecoderSource} {held : List ℕ} (hs : s.Sized)
    (hc : s.CaptureConserved held) (answers : List DqbufAnswer) :
    ∃ queued captureReadyIdx, (s.drainCapture answers).1 =
        { s with captureQueue := { s.captureQueue with queued }, captureReadyIdx } ∧
      CaptureConserved (s.drainCapture answers).1 held := by
  induction answers generalizing s with
  | nil => exact ⟨s.captureQueue.queued, s.captureReadyIdx, rfl, hc⟩
  | cons answer answers ih =>
    rcases s.captureQueue.dqbuf_cases answer with ⟨e, he⟩ | ⟨k, index, -, hk, hdq⟩
    · refine ⟨s.captureQueue.queued, s.captureReadyIdx, ?_, ?_⟩
      · simp only [drainCapture, he]
      · simpa only [drainCapture, he] using hc
    have hlt : index < s.captureBuffers.length :=
      hc.lt (l := s.captureQueue.queued) (by simp) (List.mem_of_getElem? hk)
    simp only [drainCapture, hdq, if_neg (Nat.not_le.mpr hlt)]
    rw [CaptureConserved] at hc
    cases hr : s.captureReadyIdx with
    | none =>
      rw [hr] at hc
      obtain ⟨queued, ready, h, hc'⟩ := ih
        (s := { s with
          captureQueue := { s.captureQueue with queued := s.captureQueue.queued.eraseIdx k }
          captureReadyIdx := some index })
        ⟨hs.capture, hs.output⟩ (hc.take hk)
      exact ⟨queued, ready, h, hc'⟩
    | some ready =>
      rw [hr] at hc
      have hready : ready ∉ s.captureQueue.queued.eraseIdx k := fun h =>
        hc.not_mem_of_mem (List.mem_of_mem_eraseIdx h) (l := [ready]) (by simp) (by simp)
      have hlt' : ready < s.captureQueue.count := by
        rw [hs.capture]
        exact hc.lt (l := [ready]) (by simp) (by simp)
      have hq := V4l2Queue.qbuf_of_dequeued
        (q := { s.captureQueue with queued := s.captureQueue.queued.eraseIdx k }) hlt' hready
      simp only [hq]
      obtain ⟨queued, ready', h, hc'⟩ := ih
        (s := { s with
          captureQueue :=
            { s.captureQueue with queued := s.captureQueue.queued.eraseIdx k ++ [ready] }
          captureReadyIdx := some index })
        ⟨hs.capture, hs.output⟩ ((hc.take hk).putBack (k := 0) rfl)
      exact ⟨queued, ready', h, hc'⟩

/-- The buffer loops move slots between the kernel and the source only. -/
theorem drainQueues_spec {s : V4l2DecoderSource} {held : List ℕ} (hs : s.Sized)
    (ho : s.OutputConserved) (hc : s.CaptureConserved held) (output capture : List DqbufAnswer) :
    let s' := (s.drainQueues output capture).1
    s'.Sized ∧ s'.OutputConserved ∧ s'.CaptureConserved held ∧
      s'.captureBuffers = s.captureBuffers ∧ s'.sourceChangeSeen = s.sourceChangeSeen := by
  have hout : ∃ queued outputFree, (if s.outputStreaming then s.drainOutput output
        else (s, none)).1 = { s with outputQueue := { s.outputQueue with queued }, outputFree } ∧
      OutputConserved (if s.outputStreaming then s.drainOutput output else (s, none)).1 := by
    split
    · exact drainOutput_spec hs ho output
    · exact ⟨s.outputQueue.queued, s.outputFree, rfl, ho⟩
  obtain ⟨queued, outputFree, hs', ho'⟩ := hout
  rw [drainQueues]
  cases h : if s.outputStreaming then s.drainOutput output else (s, none) with
  | mk s₁ error =>
    rw [h] at hs' ho'
    obtain rfl : s₁ = _ := hs'
    have hs₁ : Sized { s with outputQueue := { s.outputQueue with queued }, outputFree } :=
      ⟨hs.capture, hs.output⟩
    cases error with
    | some e => exact ⟨hs₁, ho', hc, rfl, rfl⟩
    | none =>
      obtain ⟨queued', ready, hd, hc'⟩ := drainCapture_spec hs₁ hc capture
      dsimp only
      rw [hd] at hc' ⊢
      exact ⟨⟨hs.capture, hs.output⟩, ho', hc', rfl, rfl⟩

/-- The event loop comes to a resolution change. -/
def handlesSourceChange : List (Except Errc V4l2Event) → Bool
  | [] => false
  | .error _ :: _ => false
  | .ok (.sourceChange _) :: _ => true
  | .ok _ :: events => handlesSourceChange events

/-- Every rebuild of the CAPTURE ring works. -/
def RebuildsWork (events : List (Except Errc V4l2Event)) : Prop :=
  ∀ rebuilt, .ok (.sourceChange rebuilt) ∈ events → ∃ fbIds, rebuilt = .ok fbIds

theorem drainEvents_of_not_handles {s : V4l2DecoderSource} {events : List (Except Errc V4l2Event)}
    (h : handlesSourceChange events = false) (dropped : List (List CaptureBuffer)) :
    ∃ eosSeen error, s.drainEvents dropped events = ({ s with eosSeen }, dropped, error) := by
  induction events generalizing s with
  | nil => exact ⟨s.eosSeen, none, rfl⟩
  | cons answer events ih =>
    rcases answer with e | ⟨rebuilt⟩ | _ | _
    · rw [drainEvents]
      split
      · exact ⟨s.eosSeen, none, rfl⟩
      · exact ⟨s.eosSeen, some e, rfl⟩
    · cases h
    · exact ih (s := { s with eosSeen := true }) h
    · exact ih h

/-- The source with a fresh CAPTURE ring. -/
def withRing (s : V4l2DecoderSource) (fbIds : List FbId) : V4l2DecoderSource :=
  { s with
    captureReadyIdx := none
    captureBuffers := fbIds.map ({ fbId := · })
    captureQueue := .filled fbIds.length }

/-- After a resolution change every slot of the new ring is with the kernel. -/
theorem drainEvents_of_handles {s : V4l2DecoderSource} {events : List (Except Errc V4l2Event)}
    (hwork : RebuildsWork events) (h : handlesSourceChange events = true)
    (dropped : List (List CaptureBuffer)) :
    ∃ fbIds eosSeen rest error, s.drainEvents dropped events =
      ({ s.withRing fbIds with eosSeen }, dropped ++ s.captureBuffers :: rest, error) := by
  induction events generalizing s dropped with
  | nil => cases h
  | cons answer events ih =>
    have hwork' : RebuildsWork events := fun r hr => hwork r (List.mem_cons_of_mem _ hr)
    rcases answer with e | ⟨rebuilt⟩ | _ | _
    · cases h
    · obtain ⟨fbIds, rfl⟩ := hwork rebuilt List.mem_cons_self
      simp only [drainEvents, reconfigureCaptureForSourceChange]
      cases hrest : handlesSourceChange events with
      | false =>
        obtain ⟨eosSeen, error, hd⟩ := drainEvents_of_not_handles (s := s.withRing fbIds) hrest
          (dropped ++ [s.captureBuffers])
        exact ⟨fbIds, eosSeen, [], error, hd⟩
      | true =>
        obtain ⟨fbIds', eosSeen, rest, error, hd⟩ := ih (s := s.withRing fbIds) hwork' hrest
          (dropped ++ [s.captureBuffers])
        refine ⟨fbIds', eosSeen, (s.withRing fbIds).captureBuffers :: rest, error, ?_⟩
        refine hd.trans ?_
        simp [withRing]
    · exact ih (s := { s with eosSeen := true }) hwork' h dropped
    · exact ih hwork' h dropped

/-- A drive without a resolution change. -/
theorem drive_of_not_handles {s : V4l2DecoderSource} {held : List ℕ} (hs : s.Sized)
    (ho : s.OutputConserved) (hc : s.CaptureConserved held) (hseen : s.sourceChangeSeen = false)
    {events : List (Except Errc V4l2Event)} (h : handlesSourceChange events = false)
    (output capture : List DqbufAnswer) :
    let d := s.drive events output capture
    d.source.Sized ∧ d.source.OutputConserved ∧ d.source.CaptureConserved held ∧
      d.source.captureBuffers = s.captureBuffers ∧ d.source.sourceChangeSeen = false ∧
      d.dropped = [] := by
  obtain ⟨eosSeen, error, hd⟩ := drainEvents_of_not_handles (s := s) h []
  rw [drive, if_neg (by simp [hseen]), hd]
  cases error with
  | some e => exact ⟨⟨hs.capture, hs.output⟩, ho, hc, rfl, hseen, rfl⟩
  | none =>
    have hq := drainQueues_spec (s := { s with eosSeen }) ⟨hs.capture, hs.output⟩ ho hc
      output capture
    dsimp only
    cases hr : drainQueues { s with eosSeen } output capture with
    | mk s' e =>
      rw [hr] at hq
      obtain ⟨h1, h2, h3, h4, h5⟩ := hq
      cases e <;> exact ⟨h1, h2, h3, h4, h5.trans hseen, rfl⟩

theorem drive_of_handles {s : V4l2DecoderSource} (hs : s.Sized) (ho : s.OutputConserved)
    (hseen : s.sourceChangeSeen = false) {events : List (Except Errc V4l2Event)}
    (hwork : RebuildsWork events) (h : handlesSourceChange events = true)
    (output capture : List DqbufAnswer) :
    let d := s.drive events output capture
    d.source.Sized ∧ d.source.OutputConserved ∧ d.source.CaptureConserved [] ∧
      d.source.sourceChangeSeen = false ∧ ∃ rest, d.dropped = s.captureBuffers :: rest := by
  obtain ⟨fbIds, eosSeen, rest, error, hd⟩ := drainEvents_of_handles (s := s) hwork h []
  rw [drive, if_neg (by simp [hseen]), hd]
  have hsized : Sized { s.withRing fbIds with eosSeen } :=
    ⟨by simp [withRing, V4l2Queue.filled], hs.output⟩
  have hc : CaptureConserved { s.withRing fbIds with eosSeen } [] := by
    simp [withRing, CaptureConserved, Conserved, V4l2Queue.filled]
  cases error with
  | some e => exact ⟨hsized, ho, hc, hseen, rest, rfl⟩
  | none =>
    have hq := drainQueues_spec hsized ho hc output capture
    dsimp only
    cases hr : drainQueues { s.withRing fbIds with eosSeen } output capture with
    | mk s'' e =>
      rw [hr] at hq
      obtain ⟨h1, h2, h3, -, h5⟩ := hq
      cases e <;> exact ⟨h1, h2, h3, h5.trans hseen, rest, rfl⟩

theorem submitBitstream_spec {s : V4l2DecoderSource} (hs : s.Sized) (ho : s.OutputConserved)
    (size : ℕ) (streamon : Option Errc) :
    ∃ queued outputFree outputStreaming, (s.submitBitstream size streamon).1 =
        { s with outputQueue := { s.outputQueue with queued }, outputFree, outputStreaming } ∧
      OutputConserved (s.submitBitstream size streamon).1 := by
  have hself : ∃ queued outputFree outputStreaming, s =
        { s with outputQueue := { s.outputQueue with queued }, outputFree, outputStreaming } ∧
      s.OutputConserved :=
    ⟨s.outputQueue.queued, s.outputFree, s.outputStreaming, rfl, ho⟩
  rw [submitBitstream]
  split
  · exact hself
  split
  · exact hself
  cases hlast : s.outputFree.getLast? with
  | none => exact hself
  | some index =>
    rw [List.getLast?_eq_getElem?] at hlast
    have hmem : index ∈ s.outputFree := List.mem_of_getElem? hlast
    have hlt : index < s.outputBuffers.length := ho.lt (by simp) hmem
    have hq := V4l2Queue.qbuf_of_dequeued (q := s.outputQueue) (hs.output ▸ hlt)
      fun h => ho.not_mem_of_mem h (by simp) hmem
    have ho' := ho.putBack hlast
    rw [List.eraseIdx_length_sub_one] at ho'
    simp only [List.getElem?_eq_getElem hlt]
    cases s.outputBuffers[index] with
    | none => exact hself
    | some mappedLen =>
      simp only [hq]
      split
      · exact hself
      split
      · exact ⟨_, _, _, rfl, ho'⟩
      · cases streamon with
        | some e => exact ⟨_, _, _, rfl, ho'⟩
        | none => exact ⟨_, _, _, rfl, ho'⟩

theorem acquire_cases (s : V4l2DecoderSource) :
    (∃ e, s.acquire = (s, .error e)) ∨
    ∃ index b, s.captureReadyIdx = some index ∧ s.captureBuffers[index]? = some b ∧
      b.fbId ≠ 0 ∧ s.acquire = ({ s with
          captureBuffers := s.captureBuffers.set index { fbId := b.fbId, acquired := true }
          captureReadyIdx := none }, .ok ⟨b.fbId, index + 1⟩) := by
  rw [acquire]
  split
  · exact .inl ⟨_, rfl⟩
  cases hr : s.captureReadyIdx with
  | none => exact .inl ⟨_, rfl⟩
  | some index =>
    cases hb : s.captureBuffers[index]? with
    | none => exact .inl ⟨.invalidArgument, by simp [hb]⟩
    | some b =>
      by_cases h0 : b.fbId = 0
      · exact .inl ⟨.resourceUnavailableTryAgain, by simp [hb, h0]⟩
      · exact .inr ⟨index, b, rfl, hb, h0, by simp [hb, h0]⟩

/-- A release of a slot its token names gives it back to the kernel. -/
theorem release_of_acquired {s : V4l2DecoderSource} {a : V4l2Acquired} {index : ℕ}
    (ha : a.cookie = index + 1)
    (hb : s.captureBuffers[index]? = some { fbId := a.fbId, acquired := true })
    (hlt : index < s.captureQueue.count) (hq : index ∉ s.captureQueue.queued) :
    s.release a = { s with
      captureBuffers := s.captureBuffers.set index { fbId := a.fbId, acquired := false }
      captureQueue := { s.captureQueue with queued := s.captureQueue.queued ++ [index] } } := by
  simp only [release, ha, if_neg (Nat.succ_ne_zero index), Nat.add_sub_cancel, hb,
    V4l2Queue.qbuf_of_dequeued hlt hq]

end V4l2DecoderSource

/-! ### Calls on a decoder, with the acquisitions not yet released -/

structure DecoderAcquisition where
  buffer : V4l2Acquired
  /-- The CAPTURE slot, of the ring of that number. -/
  index : ℕ
  ring : ℕ
  deriving DecidableEq, Repr

structure DecoderTrace where
  source : V4l2DecoderSource
  /-- How many CAPTURE rings have been dropped. -/
  ring : ℕ := 0
  held : List DecoderAcquisition := []

inductive DecoderEvent
  /-- One `drive`, with the answers to its ioctls. -/
  | drive (events : List (Except Errc V4l2Event)) (output capture : List DqbufAnswer)
  | submit (size : ℕ) (streamon : Option Errc)
  | acquire
  /-- Releases the `i`-th acquisition still held. -/
  | release (i : ℕ)

namespace DecoderTrace

open V4l2DecoderSource (handlesSourceChange RebuildsWork)

def init (fbIds : List FbId) (outputBuffers : List (Option ℕ)) : DecoderTrace :=
  { source := .create fbIds outputBuffers }

def step (t : DecoderTrace) : DecoderEvent → DecoderTrace
  | .drive events output capture =>
    let d := t.source.drive events output capture
    { t with source := d.source, ring := t.ring + d.dropped.length }
  | .submit size streamon => { t with source := (t.source.submitBitstream size streamon).1 }
  | .acquire =>
    match t.source.acquire with
    | (source, .error _) => { t with source }
    | (source, .ok buffer) =>
      { t with
        source
        held := t.held ++ [⟨buffer, t.source.captureReadyIdx.getD 0, t.ring⟩] }
  | .release i =>
    match t.held[i]? with
    | none => t
    | some a => { t with source := t.source.release a.buffer, held := t.held.eraseIdx i }

/-- The slots of the current ring that are acquired and unreleased. -/
def current (t : DecoderTrace) : List ℕ :=
  (t.held.filter (·.ring = t.ring)).map (·.index)

/-- Every slot, CAPTURE and OUTPUT, is in exactly one place. -/
def SlotsConserved (t : DecoderTrace) : Prop :=
  t.source.CaptureConserved t.current ∧ t.source.OutputConserved

/-- The framebuffers a drive removes belong to no unreleased acquisition. -/
def KeepsFramebuffers (t : DecoderTrace) : DecoderEvent → Prop
  | .drive events output capture =>
    ∀ ring ∈ (t.source.drive events output capture).dropped, ∀ b ∈ ring, b.fbId ≠ 0 →
      ∀ a ∈ t.held, a.buffer.fbId ≠ b.fbId
  | _ => True

/-- A release of a buffer from an earlier ring queues nothing. -/
def NoStaleRequeue (t : DecoderTrace) : DecoderEvent → Prop
  | .release i => ∀ a, t.held[i]? = some a → a.ring ≠ t.ring →
      (t.source.release a.buffer).captureQueue = t.source.captureQueue
  | _ => True

/-- No resolution change is handled while the scene holds a buffer. -/
def Kept (t : DecoderTrace) : DecoderEvent → Prop
  | .drive events _ _ => handlesSourceChange events = true → t.held = []
  | _ => True

/-- The reconfigurations of the event succeed. -/
def Reconfigures : DecoderEvent → Prop
  | .drive events _ _ => RebuildsWork events
  | _ => True

structure Inv (t : DecoderTrace) : Prop where
  sized : t.source.Sized
  seen : t.source.sourceChangeSeen = false
  output : t.source.OutputConserved
  capture : t.source.CaptureConserved (t.held.map (·.index))
  ring : ∀ a ∈ t.held, a.ring = t.ring
  held : ∀ a ∈ t.held, a.buffer.fbId ≠ 0 ∧ a.buffer.cookie = a.index + 1 ∧
    t.source.captureBuffers[a.index]? = some { fbId := a.buffer.fbId, acquired := true }

theorem Inv.conserved {t : DecoderTrace} (ht : t.Inv) : t.SlotsConserved := by
  have hcur : t.current = t.held.map (·.index) := by
    rw [current, List.filter_eq_self.mpr fun a ha => by simp [ht.ring a ha]]
  exact ⟨hcur ▸ ht.capture, ht.output⟩

theorem inv_init (fbIds : List FbId) (outputBuffers : List (Option ℕ)) :
    (init fbIds outputBuffers).Inv where
  sized := ⟨by simp [init, V4l2DecoderSource.create, V4l2Queue.filled], rfl⟩
  seen := rfl
  output := by
    simp [init, V4l2DecoderSource.create, V4l2DecoderSource.OutputConserved, Conserved,
      V4l2Queue.reqbufs]
  capture := by
    simp [init, V4l2DecoderSource.create, V4l2DecoderSource.CaptureConserved, Conserved,
      V4l2Queue.filled]
  ring a ha := by cases ha
  held a ha := by cases ha

/-! ### One step -/

theorem inv_acquire {t : DecoderTrace} (ht : t.Inv) : (t.step .acquire).Inv := by
  rcases t.source.acquire_cases with ⟨e, he⟩ | ⟨index, b, hr, hb, h0, hs⟩
  · simpa only [step, he] using ht
  · have hc := ht.capture
    rw [V4l2DecoderSource.CaptureConserved, hr] at hc
    have hlt : index < t.source.captureBuffers.length := hc.lt (l := [index]) (by simp) (by simp)
    simp only [step, hs, hr, Option.getD_some]
    constructor
    case sized => exact ⟨by simpa using ht.sized.capture, ht.sized.output⟩
    case seen => exact ht.seen
    case output => exact ht.output
    case capture =>
      simp only [V4l2DecoderSource.CaptureConserved, List.length_set, List.map_append]
      exact hc.handOver
    case ring =>
      intro a ha
      rcases List.mem_append.mp ha with ha | ha
      · exact ht.ring a ha
      · obtain rfl := List.mem_singleton.mp ha
        rfl
    case held =>
      intro a hmem
      rcases List.mem_append.mp hmem with ha | ha
      · obtain ⟨h1, h2, h3⟩ := ht.held a ha
        -- a held slot is not the ready one
        have hne : index ≠ a.index := by
          rintro rfl
          have hnd := hc.nodup
          simp only [List.flatten_cons, List.flatten_nil, List.append_nil, List.singleton_append,
            Option.toList_some] at hnd
          exact (List.nodup_cons.mp (List.nodup_append.mp hnd).2.1).1 (List.mem_map_of_mem ha)
        exact ⟨h1, h2, by rwa [List.getElem?_set_ne hne]⟩
      · obtain rfl := List.mem_singleton.mp ha
        exact ⟨h0, rfl, by simp [hlt]⟩

theorem inv_release {t : DecoderTrace} (ht : t.Inv) (i : ℕ) : (t.step (.release i)).Inv := by
  cases hi : t.held[i]? with
  | none => simpa only [step, hi] using ht
  | some a =>
    have ha : a ∈ t.held := List.mem_of_getElem? hi
    obtain ⟨-, hcookie, hbuf⟩ := ht.held a ha
    have hmem : a.index ∈ t.held.map (·.index) := List.mem_map_of_mem ha
    have hlt : a.index < t.source.captureBuffers.length := ht.capture.lt (by simp) hmem
    have hq : a.index ∉ t.source.captureQueue.queued := fun h =>
      ht.capture.not_mem_of_mem h (by simp) hmem
    have hidx : (t.held.map (·.index))[i]? = some a.index := by simp [hi]
    simp only [step, hi]
    rw [V4l2DecoderSource.release_of_acquired hcookie hbuf (ht.sized.capture ▸ hlt) hq]
    constructor
    case sized => exact ⟨by simpa using ht.sized.capture, ht.sized.output⟩
    case seen => exact ht.seen
    case output => exact ht.output
    case capture =>
      simp only [V4l2DecoderSource.CaptureConserved, List.length_set, ← List.eraseIdx_map]
      exact Conserved.giveBack ht.capture hidx
    case ring => exact fun b hb => ht.ring b (List.mem_of_mem_eraseIdx hb)
    case held =>
      intro b hb
      obtain ⟨h1, h2, h3⟩ := ht.held b (List.mem_of_mem_eraseIdx hb)
      have hne : a.index ≠ b.index := fun h => by
        refine ht.capture.not_mem_eraseIdx (by simp) hidx ?_
        rw [h, List.eraseIdx_map]
        exact List.mem_map_of_mem hb
      exact ⟨h1, h2, by rwa [List.getElem?_set_ne hne]⟩

theorem inv_submit {t : DecoderTrace} (ht : t.Inv) (size : ℕ) (streamon : Option Errc) :
    (t.step (.submit size streamon)).Inv := by
  obtain ⟨queued, outputFree, outputStreaming, hs, ho⟩ :=
    V4l2DecoderSource.submitBitstream_spec ht.sized ht.output size streamon
  simp only [step]
  rw [hs] at ho ⊢
  exact ⟨⟨ht.sized.capture, ht.sized.output⟩, ht.seen, ho, ht.capture, ht.ring, ht.held⟩

/-- A drive keeps the invariant, unless it drops a ring of which the scene holds a buffer. -/
theorem inv_drive {t : DecoderTrace} (ht : t.Inv) {events : List (Except Errc V4l2Event)}
    (hwork : RebuildsWork events) (output capture : List DqbufAnswer)
    (hk : t.Kept (.drive events output capture)) :
    (t.step (.drive events output capture)).Inv ∧
      t.KeepsFramebuffers (.drive events output capture) := by
  cases h : handlesSourceChange events with
  | false =>
    obtain ⟨h1, h2, h3, h4, h5, h6⟩ := V4l2DecoderSource.drive_of_not_handles ht.sized ht.output
      ht.capture ht.seen h output capture
    refine ⟨⟨h1, h5, h2, h3, fun a ha => ?_, fun a ha => ?_⟩, fun ring hring => ?_⟩
    · simpa [step, h6] using ht.ring a ha
    · simp only [step, h4]
      exact ht.held a ha
    · rw [h6] at hring
      cases hring
  | true =>
    obtain ⟨h1, h2, h3, h5, -⟩ := V4l2DecoderSource.drive_of_handles ht.sized ht.output ht.seen
      hwork h output capture
    have hnil : t.held = [] := hk h
    have hempty : ∀ a, a ∉ t.held := fun a => by simp [hnil]
    exact ⟨⟨h1, h5, h2, by simpa [step, hnil] using h3, fun a ha => absurd ha (hempty a),
      fun a ha => absurd ha (hempty a)⟩, fun _ _ _ _ _ a ha => absurd ha (hempty a)⟩

/-- A drive that drops a ring removes the framebuffers of the buffers held from it. -/
theorem kept_of_keepsFramebuffers {t : DecoderTrace} (ht : t.Inv)
    {events : List (Except Errc V4l2Event)} (hwork : RebuildsWork events)
    {output capture : List DqbufAnswer} (hk : t.KeepsFramebuffers (.drive events output capture)) :
    t.Kept (.drive events output capture) := by
  intro h
  obtain ⟨-, -, -, -, rest, hd⟩ := V4l2DecoderSource.drive_of_handles ht.sized ht.output ht.seen
    hwork h output capture
  refine List.eq_nil_iff_forall_not_mem.mpr fun a ha => ?_
  obtain ⟨h0, -, hb⟩ := ht.held a ha
  exact hk t.source.captureBuffers (by simp [hd]) _ (List.mem_of_getElem? hb) h0 a ha rfl

/-! ### Runs -/

/-- What the source owes the scene at a step. -/
def Honoured (t : DecoderTrace) (e : DecoderEvent) : Prop :=
  t.KeepsFramebuffers e ∧ t.NoStaleRequeue e ∧ (t.step e).SlotsConserved

theorem honoured_iff_kept {t : DecoderTrace} {e : DecoderEvent} (he : Reconfigures e)
    (ht : t.Inv) : t.Honoured e ↔ t.Kept e := by
  cases e with
  | drive events output capture =>
    constructor
    · exact fun h => kept_of_keepsFramebuffers ht he h.1
    · intro h
      obtain ⟨hinv, hkeep⟩ := inv_drive ht he output capture h
      exact ⟨hkeep, trivial, hinv.conserved⟩
  | submit size streamon =>
    exact iff_of_true ⟨trivial, trivial, (inv_submit ht size streamon).conserved⟩ trivial
  | acquire => exact iff_of_true ⟨trivial, trivial, (inv_acquire ht).conserved⟩ trivial
  | release i =>
    refine iff_of_true ⟨trivial, fun a ha hne => ?_, (inv_release ht i).conserved⟩ trivial
    exact absurd (ht.ring a (List.mem_of_getElem? ha)) hne

theorem inv_step {t : DecoderTrace} {e : DecoderEvent} (he : Reconfigures e) (ht : t.Inv)
    (hk : t.Kept e) : (t.step e).Inv := by
  cases e with
  | drive events output capture => exact (inv_drive ht he output capture hk).1
  | submit size streamon => exact inv_submit ht size streamon
  | acquire => exact inv_acquire ht
  | release i => exact inv_release ht i

/-- Over the runs whose reconfigurations succeed, the slots are conserved, no release queues a slot
of a later ring and no held framebuffer goes, exactly if no resolution change is handled while the
scene holds a buffer. -/
theorem honoured_iff_kept_run (fbIds : List FbId) (outputBuffers : List (Option ℕ))
    {es : List DecoderEvent} (hes : ∀ e ∈ es, Reconfigures e) :
    Meets step Honoured (init fbIds outputBuffers) es ↔
      Meets step Kept (init fbIds outputBuffers) es := by
  refine meets_iff_of_kept_under Inv (fun t e he ht h => ?_) (fun t e he ht => ?_)
    (inv_init fbIds outputBuffers) (meets_of_forall hes _)
  · exact inv_step he ht ((honoured_iff_kept he ht).mp h)
  · exact honoured_iff_kept he ht

/-- A frame is on screen when the stream changes its resolution. -/
def changeWhileHeld : List DecoderEvent :=
  [.drive [] [] [.ok 0], .acquire, .drive [.ok (.sourceChange (.ok [21, 22]))] [] [], .release 0]

theorem reconfigures_changeWhileHeld : ∀ e ∈ changeWhileHeld, Reconfigures e := by
  intro e he
  simp only [changeWhileHeld, List.mem_cons, List.not_mem_nil, or_false] at he
  rcases he with rfl | rfl | rfl | rfl
  · exact fun rebuilt h => by cases h
  · trivial
  · intro rebuilt h
    obtain rfl : rebuilt = .ok [21, 22] := by simpa using h
    exact ⟨_, rfl⟩
  · trivial

theorem framebuffer_removed_changeWhileHeld :
    ¬ ∀ es : List DecoderEvent, (∀ e ∈ es, Reconfigures e) →
      Meets step Honoured (init [11, 12] [some 64, some 64]) es := by
  intro h
  have hgone := (h changeWhileHeld reconfigures_changeWhileHeld).2.2.1.1
  exact hgone [⟨11, true⟩, ⟨12, false⟩] (by decide) ⟨11, true⟩ (by decide) (by decide)
    ⟨⟨11, 1⟩, 0, 0⟩ (by decide) rfl

/-- The same frame, released before the change. -/
def changeAfterRelease : List DecoderEvent :=
  [.drive [] [] [.ok 0], .acquire, .release 0, .drive [.ok (.sourceChange (.ok [21, 22]))] [] []]

theorem honoured_changeAfterRelease :
    Meets step Honoured (init [11, 12] [some 64, some 64]) changeAfterRelease := by
  refine (honoured_iff_kept_run [11, 12] [some 64, some 64] fun e he => ?_).mpr
    ⟨fun h => (by cases h), trivial, trivial, fun _ => rfl, trivial⟩
  refine reconfigures_changeWhileHeld e ?_
  simp only [changeAfterRelease, changeWhileHeld, List.mem_cons] at he ⊢
  tauto

end DecoderTrace

end DrmCxx.Scene
