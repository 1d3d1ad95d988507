import DrmCxx.Verification.Mirror.SharedFrame

/-!
# Every mirrored buffer goes home

Over any run of legal calls each buffer the mirrored source handed over is returned to it once,
when nobody holds it any more and it is not the newest frame, and the source hears of a
retirement and of each half of a session cycle at most once.
-/

namespace DrmCxx.Scene

open Lib SourceMirror

namespace MirrorTrace

/-! ### Who holds what -/

/-- The reference counts are the hand-outs not released yet. -/
structure Holding (m : SourceMirror) (held : List MirrorHandOut) (newest : Option ℕ) : Prop where
  holders : ∀ f ∈ m.frames, f.holders = held.countP (fun h => decide (h.frame = f.seq))
  placed : ∀ h ∈ held, ∃ f ∈ m.frames, f.seq = h.frame ∧ f.address = h.buffer.token
  newest : ∀ n ∈ newest, ∃ f ∈ m.frames, f.seq = n ∧ f.current = true

namespace Holding

variable {m : SourceMirror} {held : List MirrorHandOut} {newest : Option ℕ}

theorem forget (h : Holding m held newest) : Holding m held none :=
  ⟨h.holders, h.placed, by simp⟩

theorem congr (h : Holding m held newest) {m' : SourceMirror} (hframes : m'.frames = m.frames) :
    Holding m' held newest := by
  obtain ⟨holders, placed, hnewest⟩ := h
  rw [← hframes] at holders placed hnewest
  exact ⟨holders, placed, hnewest⟩

theorem holders_ne_zero (h : Holding m held newest) {f : Frame} (hf : f ∈ m.frames)
    {g : MirrorHandOut} (hg : g ∈ held) (hgf : g.frame = f.seq) : f.holders ≠ 0 := by
  rw [h.holders f hf]
  exact (List.countP_pos_iff.mpr ⟨g, hg, by simp [hgf]⟩).ne'

/-- Demoting frames, and giving back those nobody holds. -/
theorem keep (h : Holding m held newest) {m' : SourceMirror} (hk : Keeps m m') :
    Holding m' held none := by
  refine ⟨?_, ?_, by simp⟩
  · intro x hx
    obtain ⟨g, hg, hsame, hh⟩ := hk.old x hx
    rw [hh, h.holders g hg, hsame.seq]
  · intro x hx
    obtain ⟨g, hg, hseq, haddr⟩ := h.placed x hx
    obtain ⟨y, hy, hsame, -⟩ := hk.held g hg (h.holders_ne_zero hg hx hseq.symm)
    exact ⟨y, hy, hsame.seq.trans hseq, hsame.address.trans haddr⟩

theorem fetch (h : Holding m held newest) (hacc : Accounts m) (alloc : Allocation)
    (b : AcquiredBuffer) : Holding (m.fetch alloc b) held (some m.nextSeq) := by
  have hcall : Holding (m.call (.acquire (.ok b))) held newest := h.congr rfl
  have hdrop := hcall.keep (dropCurrent_keeps (hacc.call_acquire (.ok b)))
  refine ⟨?_, ?_, ?_⟩
  · intro f hf
    rw [fetch_frames, List.mem_append, List.mem_singleton] at hf
    rcases hf with hf | rfl
    · exact hdrop.holders f hf
    · refine (List.countP_eq_zero.mpr fun g hg => ?_).symm
      obtain ⟨x, hx, hseq, -⟩ := h.placed g hg
      have hlt := (hacc.bounds (List.mem_append_right _ hx)).2
      have hne : g.frame ≠ m.nextSeq := by omega
      exact fun heq => hne (of_decide_eq_true heq)
  · intro g hg
    obtain ⟨f, hf, hfg⟩ := hdrop.placed g hg
    exact ⟨f, by rw [fetch_frames]; exact List.mem_append_left _ hf, hfg⟩
  · intro n hn
    obtain rfl : m.nextSeq = n := by simpa using hn
    exact ⟨m.fetched alloc b, by simp [fetch_frames], rfl, rfl⟩

theorem handed (h : Holding m held newest) (hacc : Accounts m) {id i : ℕ} {c : Consumer}
    {f : Frame} {out : AcquiredBuffer} (hcur : m.currentFrame = some (i, f))
    (htoken : out.token = f.address) :
    Holding (m.handed id c i f) (held ++ [⟨id, f.seq, out⟩]) newest := by
  obtain ⟨hc, pre, post, hs⟩ := findFrame_some hcur
  have hmem : ∀ x, x ∈ (m.handed id c i f).frames ↔
      (x ∈ m.frames ∧ x ≠ f) ∨ x = { f with holders := f.holders + 1 } :=
    fun x => mem_set hacc hs
  have hnew := (hmem _).mpr (.inr rfl)
  refine ⟨?_, ?_, ?_⟩
  · intro x hx
    rw [List.countP_append]
    rcases (hmem x).mp hx with ⟨hx, hne⟩ | rfl
    · have hseq : f.seq ≠ x.seq := fun heq => hne (hacc.eq_of_seq hx hs.mem heq.symm)
      simp [h.holders x hx, hseq]
    · simp [h.holders f hs.mem]
  · intro g hg
    rcases List.mem_append.mp hg with hg | hg
    · obtain ⟨x, hx, hseq, haddr⟩ := h.placed g hg
      by_cases hxf : x = f
      · subst hxf
        exact ⟨_, hnew, hseq, haddr⟩
      · exact ⟨x, (hmem x).mpr (.inl ⟨hx, hxf⟩), hseq, haddr⟩
    · rw [List.mem_singleton.mp hg]
      exact ⟨_, hnew, rfl, htoken.symm⟩
  · intro n hn
    obtain ⟨x, hx, hseq, hxc⟩ := h.newest n hn
    by_cases hxf : x = f
    · subst hxf
      exact ⟨_, hnew, hseq, hxc⟩
    · exact ⟨x, (hmem x).mpr (.inl ⟨hx, hxf⟩), hseq, hxc⟩

theorem release (h : Holding m held newest) (hacc : Accounts m) {i : ℕ} {g : MirrorHandOut}
    (hg : held[i]? = some g) (fence : Option SyncFence) (merges : Bool) :
    Holding (m.release g.buffer fence merges) (held.eraseIdx i) newest := by
  have hsplit := splitsAt_of_getElem? hg
  obtain ⟨f, hf, hseq, haddr⟩ := h.placed g hsplit.mem
  have hfound : ∃ j, m.findFrame (·.address = g.buffer.token) = some (j, f) := by
    cases hfind : m.findFrame (·.address = g.buffer.token) with
    | none => simpa [haddr] using findFrame_none hfind f hf
    | some r =>
      obtain ⟨hr, _, _, hs⟩ := findFrame_some hfind
      have hrf : r.2.address = f.address := by simpa [haddr] using hr
      exact ⟨r.1, by rw [← hacc.eq_of_address hs.mem hf hrf]⟩
  obtain ⟨j, hj⟩ := hfound
  obtain ⟨_, pre, post, hs⟩ := findFrame_some hj
  have h0 := h.holders_ne_zero hf hsplit.mem hseq.symm
  rw [release_some hj h0, hsplit.eraseIdx]
  have hcount : ∀ n, held.countP (fun h => decide (h.frame = n)) =
      (held.take i ++ held.drop (i + 1)).countP (fun h => decide (h.frame = n)) +
        if g.frame = n then 1 else 0 := by
    intro n
    conv_lhs => rw [hsplit.eq]
    simp only [List.countP_append, List.countP_cons, decide_eq_true_eq]
    omega
  have hleft : (f.released fence merges).holders =
      (held.take i ++ held.drop (i + 1)).countP (fun h => decide (h.frame = f.seq)) := by
    show f.holders - 1 = _
    rw [h.holders f hf, hcount f.seq, if_pos hseq.symm, Nat.add_sub_cancel]
  have hkeep : ∀ x ∈ m.frames, x ≠ f → x ∈ (m.settle j (f.released fence merges)).frames :=
    fun x hx hne => (mem_settle hacc hs).mpr (.inl ⟨hx, hne⟩)
  refine ⟨?_, ?_, ?_⟩
  · intro x hx
    rcases (mem_settle hacc hs).mp hx with ⟨hx, hne⟩ | ⟨rfl, -⟩
    · have hseq' : g.frame ≠ x.seq := fun heq =>
        hne (hacc.eq_of_seq hx hf (heq.symm.trans hseq.symm))
      rw [h.holders x hx, hcount x.seq, if_neg hseq', Nat.add_zero]
    · exact hleft
  · intro y hy
    have hyheld : y ∈ held := by
      rw [hsplit.eq]
      simp only [List.mem_append, List.mem_cons] at hy ⊢
      tauto
    obtain ⟨x, hx, hxseq, hxaddr⟩ := h.placed y hyheld
    by_cases hxf : x = f
    · subst hxf
      have hpos : (x.released fence merges).holders ≠ 0 := by
        rw [hleft]
        exact (List.countP_pos_iff.mpr ⟨y, hy, by simp [hxseq]⟩).ne'
      exact ⟨_, (mem_settle hacc hs).mpr (.inr ⟨rfl, .inl hpos⟩), hxseq, hxaddr⟩
    · exact ⟨x, hkeep x hx hxf, hxseq, hxaddr⟩
  · intro n hn
    obtain ⟨x, hx, hxn, hxc⟩ := h.newest n hn
    by_cases hxf : x = f
    · subst hxf
      exact ⟨_, (mem_settle hacc hs).mpr (.inr ⟨rfl, .inr hxc⟩), hxn, hxc⟩
    · exact ⟨x, hkeep x hx hxf, hxn, hxc⟩

end Holding

/-! ### The hooks -/

/-- A call that reaches none of the source's hooks. -/
structure Quiet (m m' : SourceMirror) : Prop where
  innerRetired : m'.innerRetired = m.innerRetired
  paused : m'.paused = m.paused
  retirements : retirements m'.innerCalls = retirements m.innerCalls
  pauses : pauses m'.innerCalls = pauses m.innerCalls
  resumes : resumes m'.innerCalls = resumes m.innerCalls

namespace Quiet

variable {m m' m'' : SourceMirror}

theorem refl (m : SourceMirror) : Quiet m m := ⟨rfl, rfl, rfl, rfl, rfl⟩

theorem trans (h : Quiet m m') (h' : Quiet m' m'') : Quiet m m'' :=
  ⟨h'.innerRetired.trans h.innerRetired, h'.paused.trans h.paused,
    h'.retirements.trans h.retirements, h'.pauses.trans h.pauses, h'.resumes.trans h.resumes⟩

theorem settle (m : SourceMirror) (i : ℕ) (f : Frame) : Quiet m (m.settle i f) := by
  unfold SourceMirror.settle returnIfDone
  split
  next => exact ⟨rfl, rfl, rfl, rfl, rfl⟩
  next =>
    split
    next => exact ⟨rfl, rfl, rfl, rfl, rfl⟩
    next =>
      refine ⟨rfl, rfl, ?_, ?_, ?_⟩
      · simp [SourceMirror.retirements, call]
      · simp [SourceMirror.pauses, call]
      · simp [SourceMirror.resumes, call]

theorem dropCurrent (m : SourceMirror) : Quiet m m.dropCurrent := by
  cases hcur : m.currentFrame with
  | none =>
    rw [dropCurrent_none hcur]
    exact refl m
  | some r =>
    rw [dropCurrent_some hcur]
    exact settle m r.1 _

theorem release (m : SourceMirror) (b : AcquiredBuffer) (fence : Option SyncFence)
    (merges : Bool) : Quiet m (m.release b fence merges) := by
  by_cases hidle : ∀ i f, m.findFrame (·.address = b.token) = some (i, f) → f.holders = 0
  · rw [release_idle hidle]
    exact refl m
  · push Not at hidle
    obtain ⟨i, f, hf, h0⟩ := hidle
    rw [release_some hf h0]
    exact settle m i _

theorem call_acquire (m : SourceMirror) (answer : Except Errc AcquiredBuffer) :
    Quiet m (m.call (.acquire answer)) := by
  refine ⟨rfl, rfl, ?_, ?_, ?_⟩
  · simp [SourceMirror.retirements, call]
  · simp [SourceMirror.pauses, call]
  · simp [SourceMirror.resumes, call]

theorem give (m : SourceMirror) (dup : Except Errc Unit) (id : ℕ) (c : Consumer) :
    Quiet m (m.give dup id c).1 := by
  unfold SourceMirror.give
  split
  next => exact refl m
  next =>
    split
    next => exact refl m
    next => exact ⟨rfl, rfl, rfl, rfl, rfl⟩

theorem acquire (alloc : Allocation) (m : SourceMirror) (id : ℕ)
    (answer : Except Errc AcquiredBuffer) (dup : Except Errc Unit) :
    Quiet m (m.acquire alloc id answer dup).1 := by
  cases hc : m.consumers[id]? with
  | none =>
    rw [acquire_unknown alloc hc]
    exact refl m
  | some c =>
    cases hm : m.next alloc c answer with
    | error e =>
      rw [(acquire_refused hc hm dup).1]
      exact call_acquire m answer
    | ok m' =>
      rw [acquire_of_next hc hm]
      refine trans ?_ (give m' dup id c)
      rcases next_cases hm with ⟨-, rfl⟩ | ⟨b, -, -, rfl⟩
      · exact refl m'
      · exact (call_acquire m (.ok b)).trans
          ((dropCurrent _).trans ⟨rfl, rfl, rfl, rfl, rfl⟩)

end Quiet

/-- One call of a hook. -/
structure Hooks (m m' : SourceMirror) (retired paused resumed : ℕ) : Prop where
  retirements : retirements m'.innerCalls = retirements m.innerCalls + retired
  pauses : pauses m'.innerCalls = pauses m.innerCalls + paused
  resumes : resumes m'.innerCalls = resumes m.innerCalls + resumed

theorem hooks_onRetired (m : SourceMirror) : Hooks m (m.call .onRetired) 1 0 0 := by
  refine ⟨?_, ?_, ?_⟩
  · simp [SourceMirror.retirements, call]
  · simp [SourceMirror.pauses, call]
  · simp [SourceMirror.resumes, call]

theorem hooks_onSessionPaused (m : SourceMirror) : Hooks m (m.call .onSessionPaused) 0 1 0 := by
  refine ⟨?_, ?_, ?_⟩
  · simp [SourceMirror.retirements, call]
  · simp [SourceMirror.pauses, call]
  · simp [SourceMirror.resumes, call]

theorem hooks_onSessionResumed (m : SourceMirror) (answer : Except Errc Unit) :
    Hooks m (m.call (.onSessionResumed answer)) 0 0 1 := by
  refine ⟨?_, ?_, ?_⟩
  · simp [SourceMirror.retirements, call]
  · simp [SourceMirror.pauses, call]
  · simp [SourceMirror.resumes, call]

theorem Quiet.hooks {m m' m'' : SourceMirror} {r p q : ℕ} (h : Quiet m m')
    (h' : Hooks m' m'' r p q) : Hooks m m'' r p q :=
  ⟨h.retirements ▸ h'.retirements, h.pauses ▸ h'.pauses, h.resumes ▸ h'.resumes⟩

theorem Hooks.congr {m m' m'' : SourceMirror} {r p q : ℕ} (h : Hooks m' m'' r p q)
    (heq : m'.innerCalls = m.innerCalls) : Hooks m m'' r p q :=
  ⟨heq ▸ h.retirements, heq ▸ h.pauses, heq ▸ h.resumes⟩

/-- `retire` reaches the source only when it had not been told. -/
theorem retire_hooks (m : SourceMirror) (id : ℕ) :
    (m.retire id).paused = m.paused ∧
      ((Hooks m (m.retire id) 0 0 0 ∧ (m.retire id).innerRetired = m.innerRetired) ∨
        (Hooks m (m.retire id) 1 0 0 ∧ m.innerRetired = false ∧
          (m.retire id).innerRetired = true)) := by
  let marked : SourceMirror :=
    { m with consumers := m.consumers.modify id (fun c => { c with retired := true }) }
  let retired : SourceMirror := { marked with innerRetired := true }
  have hretire : m.retire id =
      if marked.allRetired ∧ ¬ marked.innerRetired then retired.dropCurrent.call .onRetired
      else marked := rfl
  have hdrop := Quiet.dropCurrent retired
  rw [hretire]
  split
  next hall =>
    refine ⟨hdrop.paused, .inr ⟨?_, by simpa [marked] using hall.2, hdrop.innerRetired⟩⟩
    exact (hdrop.hooks (hooks_onRetired retired.dropCurrent)).congr rfl
  next => exact ⟨rfl, .inl ⟨⟨rfl, rfl, rfl⟩, rfl⟩⟩

theorem paused_hooks (m : SourceMirror) :
    m.onSessionPaused.innerRetired = m.innerRetired ∧ m.onSessionPaused.paused = true ∧
      Hooks m m.onSessionPaused 0 (!m.paused).toNat 0 := by
  unfold onSessionPaused
  split
  next hp => exact ⟨rfl, hp, rfl, by simp [hp], rfl⟩
  next hp =>
    rw [Bool.not_eq_true] at hp
    rw [hp]
    have hdrop := Quiet.dropCurrent { m with paused := true }
    exact ⟨hdrop.innerRetired, hdrop.paused, (hdrop.hooks (hooks_onSessionPaused _)).congr rfl⟩

theorem resumed_hooks (m : SourceMirror) (answer : Except Errc Unit) :
    (m.onSessionResumed answer).innerRetired = m.innerRetired ∧
      (m.onSessionResumed answer).paused = false ∧
      Hooks m (m.onSessionResumed answer) 0 0 m.paused.toNat := by
  unfold onSessionResumed
  split
  next hp =>
    rw [hp]
    exact ⟨rfl, rfl, (hooks_onSessionResumed _ answer).congr rfl⟩
  next hp => exact ⟨rfl, by simpa using hp, rfl, rfl, by simp [hp]⟩

theorem destroy_hooks (m : SourceMirror) :
    Hooks m m.destroy (!m.innerRetired).toNat 0 0 := by
  cases hr : m.innerRetired
  all_goals
    refine ⟨?_, ?_, ?_⟩
    · simp [SourceMirror.retirements, destroy, hr, List.countP_map, Function.comp_def]
    · simp [SourceMirror.pauses, destroy, hr, List.countP_map, Function.comp_def]
    · simp [SourceMirror.resumes, destroy, hr, List.countP_map, Function.comp_def]

/-- What a step can do to the hooks. -/
inductive HookStep (m m' : SourceMirror) : MirrorEvent → Prop
  | quiet {e : MirrorEvent} (h : Hooks m m' 0 0 0) (hr : m'.innerRetired = m.innerRetired)
      (hp : m'.paused = m.paused) : HookStep m m' e
  | retired {e : MirrorEvent} (h : Hooks m m' 1 0 0) (hr : m.innerRetired = false)
      (hr' : m'.innerRetired = true) (hp : m'.paused = m.paused) : HookStep m m' e
  | paused {id : ℕ} (h : Hooks m m' 0 (!m.paused).toNat 0)
      (hr : m'.innerRetired = m.innerRetired) (hp : m'.paused = true) : HookStep m m' (.pause id)
  | resumed {id : ℕ} {answer : Except Errc Unit} (h : Hooks m m' 0 0 m.paused.toNat)
      (hr : m'.innerRetired = m.innerRetired) (hp : m'.paused = false) :
      HookStep m m' (.resume id answer)
  | destroyed (h : Hooks m m' (!m.innerRetired).toNat 0 0)
      (hp : m'.paused = m.paused) : HookStep m m' .destroy

theorem HookStep.of_quiet {m m' : SourceMirror} {e : MirrorEvent} (h : Quiet m m') :
    HookStep m m' e :=
  .quiet ⟨h.retirements, h.pauses, h.resumes⟩ h.innerRetired h.paused

theorem hookStep (alloc : Allocation) (t : MirrorTrace) (e : MirrorEvent) :
    HookStep t.mirror (step alloc t e).mirror e := by
  cases e with
  | makeConsumer => exact .of_quiet ⟨rfl, rfl, rfl, rfl, rfl⟩
  | acquire id answer dup =>
    have hq := Quiet.acquire alloc t.mirror id answer dup
    cases hout : (t.mirror.acquire alloc id answer dup).2 <;>
      exact .of_quiet (by simpa [step, afterAcquire, hout] using hq)
  | release i fence merges =>
    cases hi : t.held[i]? with
    | none => exact .of_quiet (by simpa [step, hi] using Quiet.refl t.mirror)
    | some g =>
      exact .of_quiet (by simpa [step, hi] using Quiet.release t.mirror g.buffer fence merges)
  | retire id =>
    obtain ⟨hp, ⟨h, hr⟩ | ⟨h, hr, hr'⟩⟩ := retire_hooks t.mirror id
    · exact .quiet h hr hp
    · exact .retired h hr hr' hp
  | drop id => exact .of_quiet ⟨rfl, rfl, rfl, rfl, rfl⟩
  | pause id =>
    obtain ⟨hr, hp, h⟩ := paused_hooks t.mirror
    exact .paused h hr hp
  | resume id answer =>
    obtain ⟨hr, hp, h⟩ := resumed_hooks t.mirror answer
    exact .resumed h hr hp
  | destroy => exact .destroyed (destroy_hooks t.mirror) rfl

/-! ### The session -/

def IsPause : MirrorEvent → Prop
  | .pause _ => True
  | _ => False

def IsResume : MirrorEvent → Prop
  | .resume .. => True
  | _ => False

/-- A session cycle: the seat is lost and consumers are told so, then it is back and they are
told that; any other calls may fall in between. -/
structure SessionCycle (lost back : List MirrorEvent) : Prop where
  lost : ∀ e ∈ lost, ¬ IsResume e
  back : ∀ e ∈ back, ¬ IsPause e

theorem pauses_lost (alloc : Allocation) {es : List MirrorEvent} (hes : ∀ e ∈ es, ¬ IsResume e)
    (t : MirrorTrace) :
    let t' := run (step alloc) t es
    resumes t'.mirror.innerCalls = resumes t.mirror.innerCalls ∧
      pauses t'.mirror.innerCalls + (!t'.mirror.paused).toNat =
        pauses t.mirror.innerCalls + (!t.mirror.paused).toNat := by
  induction es generalizing t with
  | nil => exact ⟨rfl, rfl⟩
  | cons e es ih =>
    obtain ⟨hresumes, hpauses⟩ := ih (fun e' he' => hes e' (.tail e he')) (step alloc t e)
    simp only [run_cons]
    rw [hresumes, hpauses]
    have he := hes e (.head es)
    cases hookStep alloc t e with
    | quiet h hr hp => exact ⟨h.resumes, by rw [h.pauses, hp]; rfl⟩
    | retired h hr hr' hp => exact ⟨h.resumes, by rw [h.pauses, hp]; rfl⟩
    | paused h hr hp => exact ⟨h.resumes, by rw [h.pauses, hp]; rfl⟩
    | resumed h hr hp => exact absurd trivial he
    | destroyed h hp => exact ⟨h.resumes, by rw [h.pauses, hp]; rfl⟩

theorem resumes_back (alloc : Allocation) {es : List MirrorEvent} (hes : ∀ e ∈ es, ¬ IsPause e)
    (t : MirrorTrace) :
    let t' := run (step alloc) t es
    pauses t'.mirror.innerCalls = pauses t.mirror.innerCalls ∧
      resumes t'.mirror.innerCalls + t'.mirror.paused.toNat =
        resumes t.mirror.innerCalls + t.mirror.paused.toNat := by
  induction es generalizing t with
  | nil => exact ⟨rfl, rfl⟩
  | cons e es ih =>
    obtain ⟨hpauses, hresumes⟩ := ih (fun e' he' => hes e' (.tail e he')) (step alloc t e)
    simp only [run_cons]
    rw [hresumes, hpauses]
    have he := hes e (.head es)
    cases hookStep alloc t e with
    | quiet h hr hp => exact ⟨h.pauses, by rw [h.resumes, hp]; rfl⟩
    | retired h hr hr' hp => exact ⟨h.pauses, by rw [h.resumes, hp]; rfl⟩
    | paused h hr hp => exact absurd trivial he
    | resumed h hr hp => exact ⟨h.pauses, by rw [h.resumes, hp]; rfl⟩
    | destroyed h hp => exact ⟨h.pauses, by rw [h.resumes, hp]; rfl⟩

/-- Each hook reaches the source at most once in a session cycle. -/
theorem hooks_cycle (alloc : Allocation) {lost back : List MirrorEvent}
    (h : SessionCycle lost back) (t : MirrorTrace) :
    pauses (run (step alloc) t (lost ++ back)).mirror.innerCalls ≤
        pauses t.mirror.innerCalls + 1 ∧
      resumes (run (step alloc) t (lost ++ back)).mirror.innerCalls ≤
        resumes t.mirror.innerCalls + 1 := by
  obtain ⟨hresumes, hpauses⟩ := pauses_lost alloc h.lost t
  obtain ⟨hpauses', hresumes'⟩ := resumes_back alloc h.back (run (step alloc) t lost)
  rw [run_append, hpauses']
  have hle : ∀ p : Bool, (!p).toNat ≤ 1 ∧ p.toNat ≤ 1 := by decide
  have hlost := hle t.mirror.paused
  have hback := hle (run (step alloc) t lost).mirror.paused
  omega

/-! ### Which consumers exist -/

def lives (m : SourceMirror) : List Bool :=
  m.consumers.map (·.live)

theorem live_iff {t : MirrorTrace} {id : ℕ} : t.Live id ↔ (lives t.mirror)[id]? = some true := by
  cases h : t.mirror.consumers[id]? <;> simp [Live, lives, h]

theorem lives_give (m : SourceMirror) (dup : Except Errc Unit) {id : ℕ} {c : Consumer}
    (hc : m.consumers[id]? = some c) : lives (m.give dup id c).1 = lives m := by
  unfold give
  split
  next => rfl
  next i f _ =>
    split
    next => rfl
    next =>
      obtain ⟨hlt, rfl⟩ := List.getElem?_eq_some_iff.mp hc
      have hself := congrArg (List.map (·.live)) (List.set_getElem_self hlt)
      rw [List.map_set] at hself
      simpa [lives, List.map_set] using hself

theorem lives_acquire (alloc : Allocation) (m : SourceMirror) (id : ℕ)
    (answer : Except Errc AcquiredBuffer) (dup : Except Errc Unit) :
    lives (m.acquire alloc id answer dup).1 = lives m := by
  cases hc : m.consumers[id]? with
  | none => rw [acquire_unknown alloc hc]
  | some c =>
    cases hm : m.next alloc c answer with
    | error e =>
      rw [(acquire_refused hc hm dup).1]
      rfl
    | ok m' =>
      have hcons : m'.consumers = m.consumers := by
        rcases next_cases hm with ⟨-, rfl⟩ | ⟨b, -, -, rfl⟩
        · rfl
        · exact fetch_consumers alloc m b
      rw [acquire_of_next hc hm, lives_give m' dup (hcons ▸ hc)]
      simp [lives, hcons]

theorem lives_modify (m : SourceMirror) (id : ℕ) {u : Consumer → Consumer}
    (hu : ∀ c, (u c).live = c.live) : (m.consumers.modify id u).map (·.live) = lives m := by
  apply List.ext_getElem?
  intro j
  by_cases hj : id = j <;> cases hc : m.consumers[j]? <;> simp [lives, hj, hc, hu]

theorem lives_retire (m : SourceMirror) (id : ℕ) : lives (m.retire id) = lives m := by
  have hmarked := lives_modify m id (u := fun c => { c with retired := true }) fun _ => rfl
  simp only [retire]
  split
  · simpa [lives] using hmarked
  · exact hmarked

theorem lives_release (m : SourceMirror) (b : AcquiredBuffer) (fence : Option SyncFence)
    (merges : Bool) : lives (m.release b fence merges) = lives m := by
  by_cases hidle : ∀ i f, m.findFrame (·.address = b.token) = some (i, f) → f.holders = 0
  · rw [release_idle hidle]
  · push Not at hidle
    obtain ⟨i, f, hf, h0⟩ := hidle
    rw [release_some hf h0, lives, (settle_rest m i _).1]
    rfl

theorem lives_paused (m : SourceMirror) : lives m.onSessionPaused = lives m := by
  unfold onSessionPaused
  split
  · rfl
  · simp [lives]

theorem lives_resumed (m : SourceMirror) (answer : Except Errc Unit) :
    lives (m.onSessionResumed answer) = lives m := by
  unfold onSessionResumed
  split <;> rfl

/-! ### The whole run -/

/-- The mirror's bookkeeping against what its consumers hold. -/
structure Kept (t : MirrorTrace) : Prop where
  inv : Inv t
  holding : Holding t.mirror t.held t.newest
  live : ∀ h ∈ t.held, t.Live h.consumer
  gone : t.destroyed = true → t.mirror.frames = [] ∧ t.held = []
  told : t.destroyed = false →
    retirements t.mirror.innerCalls = t.mirror.innerRetired.toNat
  once : retirements t.mirror.innerCalls ≤ 1

theorem kept_init : Kept {} where
  inv := Inv.init
  holding := ⟨by simp, by simp, by simp⟩
  live := by simp
  gone := by simp
  told := by simp [retirements]
  once := by simp [retirements]

/-- The retirement count, for a step from a mirror that exists. -/
theorem told_step (alloc : Allocation) {t : MirrorTrace} (h : Kept t)
    (hd : t.destroyed = false) (e : MirrorEvent) :
    ((step alloc t e).destroyed = false →
      retirements (step alloc t e).mirror.innerCalls =
        (step alloc t e).mirror.innerRetired.toNat) ∧
      retirements (step alloc t e).mirror.innerCalls ≤ 1 := by
  have htold := h.told hd
  have hle : ∀ p : Bool, p.toNat ≤ 1 := by decide
  cases hookStep alloc t e with
  | quiet hh hr hp =>
    rw [hh.retirements, hr, htold]
    exact ⟨fun _ => rfl, hle _⟩
  | retired hh hr hr' hp =>
    rw [hh.retirements, hr', htold, hr]
    exact ⟨fun _ => rfl, Nat.le_refl 1⟩
  | paused hh hr hp =>
    rw [hh.retirements, hr, htold]
    exact ⟨fun _ => rfl, hle _⟩
  | resumed hh hr hp =>
    rw [hh.retirements, hr, htold]
    exact ⟨fun _ => rfl, hle _⟩
  | destroyed hh hp =>
    refine ⟨fun hcon => by simp [step] at hcon, ?_⟩
    rw [hh.retirements, htold]
    cases t.mirror.innerRetired <;> decide

theorem holding_next {t : MirrorTrace} (h : Kept t) {alloc : Allocation} {c : Consumer}
    {answer : Except Errc AcquiredBuffer} {m' : SourceMirror}
    (hm : t.mirror.next alloc c answer = .ok m') :
    Holding m' t.held (t.newestAfter m') := by
  rcases next_cases hm with ⟨-, rfl⟩ | ⟨b, -, -, rfl⟩
  · rw [newestAfter, if_pos rfl]
    exact h.holding
  · have hnewest : t.newestAfter (t.mirror.fetch alloc b) = some t.mirror.nextSeq := by
      simp [newestAfter, ← h.inv.counted]
    rw [hnewest]
    exact h.holding.fetch h.inv.accounts alloc b

/-- An acquire by a consumer that exists. -/
theorem holding_acquire (alloc : Allocation) {t : MirrorTrace} (h : Kept t) {id : ℕ}
    (answer : Except Errc AcquiredBuffer) (dup : Except Errc Unit) (hlive : t.Live id) :
    Holding (step alloc t (.acquire id answer dup)).mirror
        (step alloc t (.acquire id answer dup)).held
        (step alloc t (.acquire id answer dup)).newest ∧
      ∀ g ∈ (step alloc t (.acquire id answer dup)).held, g ∈ t.held ∨ g.consumer = id := by
  obtain ⟨c, hc, -⟩ := hlive
  rw [Option.mem_def] at hc
  cases hm : t.mirror.next alloc c answer with
  | error e =>
    obtain ⟨hacq, rfl⟩ := acquire_refused hc hm dup
    refine ⟨?_, ?_⟩
    · have hcall : Holding (t.mirror.call (.acquire (.error e))) t.held t.newest :=
        h.holding.congr rfl
      simpa [step, afterAcquire, newestAfter, hacq, InnerCall.acquired?, Except.toOption] using
        hcall
    · simpa [step, afterAcquire, hacq] using fun g hg => .inl hg
  | ok m' =>
    have hnext := holding_next h hm
    obtain ⟨f, hspec⟩ := next_spec h.inv.accounts h.inv.counted (List.mem_of_getElem? hc) hm
    obtain ⟨i, hcur⟩ := hspec.current
    by_cases hf : Fenced dup f.buffer
    · obtain ⟨out, hout, hout'⟩ := handOut_ok hf c
      have hacq : t.mirror.acquire alloc id answer dup = (m'.handed id c i f, .ok out) := by
        rw [acquire_of_next hc hm, give_ok hcur hout]
      have hframe := frameAt_handed hspec.accounts id c hcur
      have hnewest : t.newestAfter (m'.handed id c i f) = t.newestAfter m' := rfl
      refine ⟨?_, ?_⟩
      · simp only [step, afterAcquire, hacq, hout'.token, hframe]
        rw [hnewest]
        exact hnext.handed hspec.accounts hcur hout'.token
      · intro g hg
        simp only [step, afterAcquire, hacq, List.mem_append, List.mem_singleton] at hg
        exact hg.imp_right fun heq => by rw [heq]
    · obtain ⟨e, he⟩ := handOut_error hf c
      have hacq : t.mirror.acquire alloc id answer dup = (m', .error e) := by
        rw [acquire_of_next hc hm, give_error hcur he]
      refine ⟨?_, ?_⟩
      · simp only [step, afterAcquire, hacq]
        exact hnext
      · simpa only [step, afterAcquire, hacq] using fun g hg => .inl hg

theorem allRetired_dropCurrent (m : SourceMirror) : m.dropCurrent.allRetired = m.allRetired := by
  simp [allRetired]

theorem holding_retire {t : MirrorTrace} (h : Kept t) (alloc : Allocation) (id : ℕ) :
    Holding (step alloc t (.retire id)).mirror t.held (step alloc t (.retire id)).newest := by
  let marked : SourceMirror :=
    { t.mirror with
      consumers := t.mirror.consumers.modify id (fun c => { c with retired := true }) }
  let retired : SourceMirror := { marked with innerRetired := true }
  have hmarked : Silent t.mirror marked :=
    Silent.of_eq h.inv.accounts rfl rfl rfl rfl (lastSeqs_modify t.mirror id fun _ => rfl)
  have hretired : Silent marked retired := Silent.of_eq hmarked.accounts rfl rfl rfl rfl rfl
  have hretire : t.mirror.retire id =
      if marked.allRetired ∧ ¬ marked.innerRetired then retired.dropCurrent.call .onRetired
      else marked := rfl
  show Holding (t.mirror.retire id) t.held
    (if (t.mirror.retire id).allRetired then none else t.newest)
  rw [hretire]
  split
  next hall =>
    have hframes : Holding retired t.held t.newest := h.holding.congr rfl
    have hdrop := hframes.keep (dropCurrent_keeps hretired.accounts)
    have hnone : (retired.dropCurrent.call .onRetired).allRetired = true := by
      show retired.dropCurrent.allRetired = true
      rw [allRetired_dropCurrent]
      exact hall.1
    rw [if_pos hnone]
    exact hdrop.congr rfl
  next =>
    have hmark : Holding marked t.held t.newest := h.holding.congr rfl
    split
    · exact hmark.forget
    · exact hmark

theorem holding_pause {t : MirrorTrace} (h : Kept t) :
    Holding t.mirror.onSessionPaused t.held none := by
  unfold onSessionPaused
  split
  next => exact h.holding.forget
  next =>
    let paused : SourceMirror := { t.mirror with paused := true }
    have hpaused : Silent t.mirror paused :=
      Silent.of_eq h.inv.accounts rfl rfl rfl rfl rfl
    have hframes : Holding paused t.held t.newest := h.holding.congr rfl
    have hdrop := hframes.keep (dropCurrent_keeps hpaused.accounts)
    exact hdrop.congr rfl

theorem kept_step (alloc : Allocation) (t : MirrorTrace) (e : MirrorEvent) (h : Kept t)
    (he : t.Legal e) : Kept (step alloc t e) := by
  have hd : t.destroyed = false := by
    cases e <;> first | exact he | exact he.1
  obtain ⟨htold, honce⟩ := told_step alloc h hd e
  have hinv := inv_step alloc t e h.inv
  have hgone : ∀ {t' : MirrorTrace}, t'.destroyed = t.destroyed →
      t'.destroyed = true → t'.mirror.frames = [] ∧ t'.held = [] :=
    fun heq hcon => absurd (heq.symm.trans hcon) (by simp [hd])
  have hlive : ∀ {t' : MirrorTrace}, lives t'.mirror = lives t.mirror →
      ∀ g ∈ t.held, t'.Live g.consumer := by
    intro t' heq g hg
    rw [live_iff, heq]
    exact live_iff.mp (h.live g hg)
  cases e with
  | makeConsumer =>
    refine ⟨hinv, h.holding.congr rfl, ?_, hgone rfl, htold, honce⟩
    intro g hg
    have hold := live_iff.mp (h.live g hg)
    rw [live_iff]
    exact getElem?_of_prefix (by simp [step, makeConsumer, lives]) hold
  | acquire id answer dup =>
    obtain ⟨hholding, hheld⟩ := holding_acquire alloc h answer dup he.2
    have hlives : lives (step alloc t (.acquire id answer dup)).mirror = lives t.mirror := by
      have hacq := lives_acquire alloc t.mirror id answer dup
      cases hout : (t.mirror.acquire alloc id answer dup).2 <;>
        simpa [step, afterAcquire, hout] using hacq
    refine ⟨hinv, hholding, ?_, hgone ?_, htold, honce⟩
    · intro g hg
      rcases hheld g hg with hg | rfl
      · exact hlive hlives g hg
      · rw [live_iff, hlives]
        exact live_iff.mp he.2
    · cases hout : (t.mirror.acquire alloc id answer dup).2 <;> simp [step, afterAcquire, hout]
  | release i fence merges =>
    have hlt : i < t.held.length := he.2
    have hi : t.held[i]? = some t.held[i] := List.getElem?_eq_getElem hlt
    have hmirror : (step alloc t (.release i fence merges)).mirror =
        t.mirror.release t.held[i].buffer fence merges := by
      simp [step, hi]
    have hheld : (step alloc t (.release i fence merges)).held = t.held.eraseIdx i := by
      simp [step, hi]
    have hnewest : (step alloc t (.release i fence merges)).newest = t.newest := by
      simp [step, hi]
    refine ⟨hinv, ?_, ?_, hgone ?_, htold, honce⟩
    · rw [hmirror, hheld, hnewest]
      exact h.holding.release h.inv.accounts hi fence merges
    · intro g hg
      rw [hheld] at hg
      exact hlive (by rw [hmirror, lives_release]) g (List.mem_of_mem_eraseIdx hg)
    · simp [step, hi]
  | retire id =>
    exact ⟨hinv, holding_retire h alloc id, hlive (lives_retire t.mirror id), hgone rfl, htold,
      honce⟩
  | drop id =>
    refine ⟨hinv, h.holding.congr rfl, ?_, hgone rfl, htold, honce⟩
    intro g hg
    have hne : id ≠ g.consumer := (he.2.2 g hg).symm
    obtain ⟨c, hc, hcl⟩ := h.live g hg
    exact ⟨c, by simpa [step, drop, List.getElem?_modify, hne] using hc, hcl⟩
  | pause id =>
    exact ⟨hinv, holding_pause h, hlive (lives_paused t.mirror), hgone rfl, htold, honce⟩
  | resume id answer =>
    refine ⟨hinv, h.holding.congr ?_, hlive (lives_resumed t.mirror answer), hgone rfl, htold,
      honce⟩
    simp only [step, onSessionResumed]
    split <;> rfl
  | destroy =>
    have hheld : t.held = [] := by
      refine List.eq_nil_iff_forall_not_mem.mpr fun g hg => ?_
      obtain ⟨c, hc, hcl⟩ := h.live g hg
      simp [he.2 c (List.mem_of_getElem? hc)] at hcl
    refine ⟨hinv, ?_, ?_, fun _ => ⟨rfl, hheld⟩, htold, honce⟩
    · exact ⟨by simp [step, destroy], by simp [step, hheld], by simp [step]⟩
    · simp [step, hheld]

theorem kept_run (alloc : Allocation) {es : List MirrorEvent}
    (hes : Meets (step alloc) Legal {} es) : Kept (run (step alloc) {} es) :=
  run_invariant (fun t e ht he => kept_step alloc t e ht he) kept_init hes

/-- The source's buffers are accounted for. -/
structure Settled (t : MirrorTrace) : Prop where
  once : (t.mirror.returned.map (·.seq)).Nodup
  own : ∀ f ∈ t.mirror.returned, t.mirror.acquired[f.seq - 1]? = some f.buffer
  /-- What went back is held by nobody, and is not the newest frame. -/
  done : ∀ f ∈ t.mirror.returned, (∀ h ∈ t.held, h.frame ≠ f.seq) ∧ t.newest ≠ some f.seq
  /-- What did not go back is held, or is the last acquisition. -/
  kept : ∀ n, 1 ≤ n → n ≤ t.mirror.acquired.length → n ∉ t.mirror.returned.map (·.seq) →
    (∃ h ∈ t.held, h.frame = n) ∨ n = t.mirror.acquired.length
  all : t.destroyed = true → t.mirror.returned.length = t.mirror.acquired.length

theorem settled_of_kept {t : MirrorTrace} (h : Kept t) : Settled t := by
  have hacc := h.inv.accounts
  have hcount := h.inv.counted
  refine ⟨?_, ?_, ?_, ?_, ?_⟩
  · have hn := hacc.nodup
    rw [List.map_append] at hn
    exact hn.of_append_left
  · exact fun f hf => hacc.own f (List.mem_append_left _ hf)
  · intro f hf
    refine ⟨?_, ?_⟩
    · intro g hg heq
      obtain ⟨x, hx, hseq, -⟩ := h.holding.placed g hg
      exact hacc.not_returned hf hx (heq.symm.trans hseq.symm)
    · intro hnew
      obtain ⟨x, hx, hseq, -⟩ := h.holding.newest f.seq hnew
      exact hacc.not_returned hf hx hseq.symm
  · intro n hn hle hnot
    obtain ⟨f, hf, rfl⟩ := hacc.exists_of_lt hn (by omega)
    have hframe : f ∈ t.mirror.frames := by
      rcases List.mem_append.mp hf with hf | hf
      · exact absurd (List.mem_map.mpr ⟨f, hf, rfl⟩) hnot
      · exact hf
    rcases hacc.busy f hframe with hc | hpos
    · have := hacc.newest f hframe hc
      exact .inr (by omega)
    · rw [h.holding.holders f hframe, List.countP_pos_iff] at hpos
      obtain ⟨g, hg, hgf⟩ := hpos
      exact .inl ⟨g, hg, of_decide_eq_true hgf⟩
  · intro hdestroyed
    have hlen := hacc.serials.length_eq
    rw [(h.gone hdestroyed).1, List.append_nil, List.length_map, List.length_range'] at hlen
    omega

/-- The source's session hooks alternate, whatever the consumers' calls. -/
theorem pauses_run (alloc : Allocation) (es : List MirrorEvent) :
    pauses (run (step alloc) {} es).mirror.innerCalls =
      resumes (run (step alloc) {} es).mirror.innerCalls +
        (run (step alloc) {} es).mirror.paused.toNat := by
  let Balanced (t : MirrorTrace) : Prop :=
    pauses t.mirror.innerCalls = resumes t.mirror.innerCalls + t.mirror.paused.toNat
  have hstep : ∀ t e, Balanced t → Balanced (step alloc t e) := by
    intro t e ht
    have hflip : ∀ p : Bool, p.toNat + (!p).toNat = 1 := by decide
    have hp := hflip t.mirror.paused
    simp only [Balanced] at ht ⊢
    cases hookStep alloc t e with
    | quiet h _ hp' => rw [h.pauses, h.resumes, hp', ht, Nat.add_zero, Nat.add_zero]
    | retired h _ _ hp' => rw [h.pauses, h.resumes, hp', ht, Nat.add_zero, Nat.add_zero]
    | paused h _ hp' =>
      rw [h.pauses, h.resumes, hp', ht, Nat.add_assoc, hp]
      rfl
    | resumed h _ hp' =>
      rw [h.pauses, h.resumes, hp', ht]
      rfl
    | destroyed h hp' => rw [h.pauses, h.resumes, hp', ht, Nat.add_zero, Nat.add_zero]
  exact run_always hstep rfl es

/-- Any legal run returns each buffer once and in time, and tells the source of a retirement and
of each half of a session cycle at most once. -/
theorem settled_run (alloc : Allocation) (es : List MirrorEvent)
    (hes : Meets (step alloc) Legal {} es) :
    Settled (run (step alloc) {} es) ∧
      retirements (run (step alloc) {} es).mirror.innerCalls ≤ 1 ∧
      pauses (run (step alloc) {} es).mirror.innerCalls =
        resumes (run (step alloc) {} es).mirror.innerCalls +
          (run (step alloc) {} es).mirror.paused.toNat ∧
      ∀ before lost back after, es = before ++ (lost ++ back) ++ after → SessionCycle lost back →
        pauses (run (step alloc) {} (before ++ (lost ++ back))).mirror.innerCalls ≤
            pauses (run (step alloc) {} before).mirror.innerCalls + 1 ∧
          resumes (run (step alloc) {} (before ++ (lost ++ back))).mirror.innerCalls ≤
            resumes (run (step alloc) {} before).mirror.innerCalls + 1 := by
  have hkept := kept_run alloc hes
  refine ⟨settled_of_kept hkept, hkept.once, pauses_run alloc es, ?_⟩
  intro before lost back after _ hcycle
  rw [run_append]
  exact hooks_cycle alloc hcycle _

/-- Two consumers share two frames, a session cycle in between, and go. -/
theorem settled_run_pair :
    let es : List MirrorEvent :=
      [.makeConsumer, .makeConsumer, .acquire 0 (.ok ⟨11, 0, none, []⟩) (.ok ()),
        .acquire 1 (.ok ⟨11, 0, none, []⟩) (.ok ()), .pause 0, .pause 1, .release 0 none true,
        .resume 0 (.ok ()), .resume 1 (.ok ()), .release 0 (some 7) true,
        .acquire 1 (.ok ⟨12, 0, none, []⟩) (.ok ()), .release 0 none true, .retire 0, .retire 1,
        .drop 0, .drop 1, .destroy]
    Settled (run (step .above) {} es) ∧
      (run (step .above) {} es).mirror.returned.map (·.seq) = [1, 2] :=
  ⟨(settled_run .above _ (by decide)).1, by decide⟩

end MirrorTrace

end DrmCxx.Scene
