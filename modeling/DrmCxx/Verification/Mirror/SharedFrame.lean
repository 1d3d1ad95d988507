import DrmCxx.Verification.Mirror.Equations

/-!
# One frame per joint commit

What the consumers of a mirror are shown: when all of them acquire in one joint frame they get
one buffer exactly if the first to acquire has had the newest frame or none of them has, what a
consumer takes never goes back, and damage is passed only after the preceding frame, the
source's first buffer apart.
-/

namespace DrmCxx.Scene

open Lib SourceMirror

namespace SourceMirror

/-- The newest frame's number and buffer. -/
def shown (m : SourceMirror) : Option (ℕ × AcquiredBuffer) :=
  m.currentFrame.map (fun r => (r.2.seq, r.2.buffer))

/-- The frame an `acquire` is about to hand out, if the source has one. -/
def offered (m : SourceMirror) (id : ℕ) (answer : Except Errc AcquiredBuffer) :
    Option (ℕ × AcquiredBuffer) := do
  let c ← m.consumers[id]?
  if m.wantsNew c then answer.toOption.map (m.nextSeq, ·) else m.shown

/-- The consumer has had the newest frame, or there is none. -/
def upToDate (m : SourceMirror) (id : ℕ) : Bool :=
  (m.consumers[id]?.map m.wantsNew).getD false

end SourceMirror

theorem getElem?_of_prefix {α : Type*} {xs ys : List α} (h : xs <+: ys) {i : ℕ} {a : α}
    (ha : xs[i]? = some a) : ys[i]? = some a := by
  obtain ⟨zs, rfl⟩ := h
  obtain ⟨hlt, -⟩ := List.getElem?_eq_some_iff.mp ha
  rw [List.getElem?_append_left hlt]
  exact ha

namespace MirrorTrace

/-- The history agrees with what the mirror remembers of its consumers. -/
structure Inv (t : MirrorTrace) : Prop where
  accounts : Accounts t.mirror
  counted : t.mirror.acquired.length + 1 = t.mirror.nextSeq
  taken : ∀ h ∈ t.handOuts, ∃ n ∈ t.mirror.lastSeqs[h.consumer]?, h.frame ≤ n
  last : ∀ id n, t.mirror.lastSeqs[id]? = some n →
    n = 0 ∨ ∃ h ∈ t.handOuts, h.consumer = id ∧ h.frame = n
  positive : ∀ h ∈ t.handOuts, 0 < h.frame
  shows : ∀ h ∈ t.handOuts,
    ∃ b ∈ t.mirror.acquired[h.frame - 1]?, h.buffer.fbId = b.fbId

namespace Inv

variable {t : MirrorTrace}

theorem init : Inv {} where
  accounts := Accounts.init
  counted := rfl
  taken := by simp
  last := by simp [lastSeqs]
  positive := by simp
  shows := by simp

/-- Nothing was handed out in between. -/
theorem grow (h : Inv t) {t' : MirrorTrace} (hacc : Accounts t'.mirror)
    (hcount : t'.mirror.acquired.length + 1 = t'.mirror.nextSeq)
    (hlast : t'.mirror.lastSeqs = t.mirror.lastSeqs)
    (hgrows : t.mirror.acquired <+: t'.mirror.acquired) (hout : t'.handOuts = t.handOuts) :
    Inv t' := by
  refine ⟨hacc, hcount, ?_, ?_, ?_, ?_⟩
  · rw [hlast, hout]
    exact h.taken
  · rw [hlast, hout]
    exact h.last
  · rw [hout]
    exact h.positive
  · rw [hout]
    intro g hg
    obtain ⟨b, hb, hfb⟩ := h.shows g hg
    exact ⟨b, getElem?_of_prefix hgrows hb, hfb⟩

theorem congr (h : Inv t) {t' : MirrorTrace} (hsilent : Silent t.mirror t'.mirror)
    (hout : t'.handOuts = t.handOuts) : Inv t' := by
  refine h.grow hsilent.accounts ?_ hsilent.lastSeqs ?_ hout
  · rw [hsilent.acquired, hsilent.nextSeq]
    exact h.counted
  · rw [hsilent.acquired]

end Inv

/-! ### What an acquire hands out -/

/-- The consumer `id` was handed the frame `n`. -/
structure Handed (t t' : MirrorTrace) (id n : ℕ) (b : AcquiredBuffer) : Prop where
  inv : Inv t'
  shown : t'.mirror.shown = some (n, b)
  lastSeqs : t'.mirror.lastSeqs = t.mirror.lastSeqs.set id n
  grows : t.mirror.acquired <+: t'.mirror.acquired
  own : t'.mirror.acquired[n - 1]? = some b
  newer : ∃ l ∈ t.mirror.lastSeqs[id]?, l < n
  handOut : ∃ out, t'.handOuts = t.handOuts ++ [⟨id, n, out⟩] ∧ out.fbId = b.fbId ∧
    ∃ l ∈ t.mirror.lastSeqs[id]?, out.damage = if l + 1 = n then b.damage else []

/-- The consumer got nothing. -/
structure Refused (t t' : MirrorTrace) : Prop where
  inv : Inv t'
  handOuts : t'.handOuts = t.handOuts
  lastSeqs : t'.mirror.lastSeqs = t.mirror.lastSeqs
  grows : t.mirror.acquired <+: t'.mirror.acquired

theorem offered_of_next {m m' : SourceMirror} {alloc : Allocation} {id : ℕ} {c : Consumer}
    {answer : Except Errc AcquiredBuffer} (hc : m.consumers[id]? = some c)
    (hm : m.next alloc c answer = .ok m') (h : Accounts m)
    (hcount : m.acquired.length + 1 = m.nextSeq) :
    m.offered id answer = m'.shown := by
  rcases next_cases hm with ⟨hw, rfl⟩ | ⟨b, hw, rfl, rfl⟩
  · simp [offered, hc, hw]
  · have hmem : m.fetched alloc b ∈ (m.fetch alloc b).frames := by
      simp [fetch_frames]
    obtain ⟨i, hcur⟩ := (fetch_accounts h hcount alloc b).currentFrame_eq hmem rfl
    simp [offered, hc, hw, shown, hcur, fetched, Except.toOption]

/-- The history after a hand-out of a frame newer than the consumer's last. -/
theorem Inv.append {t t' : MirrorTrace} (h : Inv t) (hacc : Accounts t'.mirror)
    (hcount : t'.mirror.acquired.length + 1 = t'.mirror.nextSeq) {id n l : ℕ}
    {b out : AcquiredBuffer} (hl : t.mirror.lastSeqs[id]? = some l) (hlt : l < n)
    (hlast : t'.mirror.lastSeqs = t.mirror.lastSeqs.set id n)
    (hgrows : t.mirror.acquired <+: t'.mirror.acquired)
    (hown : t'.mirror.acquired[n - 1]? = some b) (hfb : out.fbId = b.fbId)
    (hout : t'.handOuts = t.handOuts ++ [⟨id, n, out⟩]) : Inv t' := by
  obtain ⟨hid, -⟩ := List.getElem?_eq_some_iff.mp hl
  refine ⟨hacc, hcount, ?_, ?_, ?_, ?_⟩
  · intro g hg
    rw [hout, List.mem_append, List.mem_singleton] at hg
    rw [hlast]
    rcases hg with hg | rfl
    · obtain ⟨k, hk, hle⟩ := h.taken g hg
      by_cases hgid : id = g.consumer
      · subst hgid
        obtain rfl : k = l := by simpa [hl] using hk.symm
        exact ⟨n, by simp [hid], by omega⟩
      · rw [List.getElem?_set_ne hgid]
        exact ⟨k, hk, hle⟩
    · exact ⟨n, by simp [hid], Nat.le_refl n⟩
  · intro j k hk
    rw [hlast] at hk
    rw [hout]
    by_cases hj : id = j
    · subst hj
      obtain rfl : n = k := by simpa [hid] using hk
      exact .inr ⟨⟨id, n, out⟩, by simp, rfl, rfl⟩
    · rw [List.getElem?_set_ne hj] at hk
      refine (h.last j k hk).imp_right ?_
      rintro ⟨g, hg, hgj, hgk⟩
      exact ⟨g, List.mem_append_left _ hg, hgj, hgk⟩
  · intro g hg
    rw [hout, List.mem_append, List.mem_singleton] at hg
    rcases hg with hg | rfl
    · exact h.positive g hg
    · exact Nat.zero_lt_of_lt hlt
  · intro g hg
    rw [hout, List.mem_append, List.mem_singleton] at hg
    rcases hg with hg | rfl
    · obtain ⟨b', hb', hfb'⟩ := h.shows g hg
      exact ⟨b', getElem?_of_prefix hgrows hb', hfb'⟩
    · exact ⟨b, hown, hfb⟩

/-- The parts of an acquire that reaches a frame. -/
structure Offer (t : MirrorTrace) (alloc : Allocation) (id n : ℕ) (b : AcquiredBuffer)
    (answer : Except Errc AcquiredBuffer) (c : Consumer) (m' : SourceMirror) (f : Frame) :
    Prop where
  consumer : t.mirror.consumers[id]? = some c
  next : t.mirror.next alloc c answer = .ok m'
  spec : NextSpec t.mirror c m' f
  number : f.seq = n
  buffer : f.buffer = b

theorem exists_offer {t : MirrorTrace} (h : Inv t) (alloc : Allocation) {id n : ℕ}
    {b : AcquiredBuffer} {answer : Except Errc AcquiredBuffer}
    (ho : t.mirror.offered id answer = some (n, b)) :
    ∃ c m' f, Offer t alloc id n b answer c m' f := by
  cases hc : t.mirror.consumers[id]? with
  | none => simp [offered, hc] at ho
  | some c =>
    cases hm : t.mirror.next alloc c answer with
    | error e =>
      by_cases hw : t.mirror.wantsNew c = true
      · cases answer with
        | error e' => simp [offered, hc, hw, Except.toOption] at ho
        | ok b' => simp [next, hw, Except.map] at hm
      · simp [next, hw] at hm
    | ok m' =>
      obtain ⟨f, hspec⟩ := next_spec h.accounts h.counted (List.mem_of_getElem? hc) hm
      rw [offered_of_next hc hm h.accounts h.counted] at ho
      obtain ⟨i, hcur⟩ := hspec.current
      have hnb : f.seq = n ∧ f.buffer = b := by simpa [shown, hcur] using ho
      exact ⟨c, m', f, hc, hm, hspec, hnb.1, hnb.2⟩

theorem handed_of_offered {t : MirrorTrace} (h : Inv t) (alloc : Allocation) {id n : ℕ}
    {b : AcquiredBuffer} {answer : Except Errc AcquiredBuffer} {dup : Except Errc Unit}
    (ho : t.mirror.offered id answer = some (n, b)) (hf : Fenced dup b) :
    Handed t (step alloc t (.acquire id answer dup)) id n b := by
  obtain ⟨c, m', f, hoffer⟩ := exists_offer h alloc ho
  obtain ⟨i, hcur⟩ := hoffer.spec.current
  obtain ⟨out, hout, hspec⟩ := handOut_ok (hoffer.buffer.symm ▸ hf) c
  have hacq : t.mirror.acquire alloc id answer dup = (m'.handed id c i f, .ok out) := by
    rw [acquire_of_next hoffer.consumer hoffer.next, give_ok hcur hout]
  have hframe := frameAt_handed hoffer.spec.accounts id c hcur
  have hacc := handed_accounts hoffer.spec.accounts id c hcur
  have hl : t.mirror.lastSeqs[id]? = some c.lastSeq := by
    simp [lastSeqs, hoffer.consumer]
  have hlast : (m'.handed id c i f).lastSeqs = t.mirror.lastSeqs.set id n := by
    simp [lastSeqs, SourceMirror.handed, hoffer.spec.consumers, List.map_set, hoffer.number]
  have hown : (m'.handed id c i f).acquired[n - 1]? = some b := by
    rw [← hoffer.number, ← hoffer.buffer]
    exact hoffer.spec.accounts.own f (List.mem_append_right _ (currentFrame_mem hcur).1)
  have hshown : (m'.handed id c i f).shown = some (n, b) := by
    obtain ⟨j, hj⟩ := hacc.currentFrame_eq (handed_frame hoffer.spec.accounts id c hcur)
      (currentFrame_mem hcur).2
    simp [shown, hj, hoffer.number, hoffer.buffer]
  have hlt : c.lastSeq < n := hoffer.number ▸ hoffer.spec.newer
  have hstep : (step alloc t (.acquire id answer dup)).handOuts =
      t.handOuts ++ [⟨id, n, out⟩] := by
    simp [step, afterAcquire, hacq, hspec.token, hframe, hoffer.number]
  have hmirror : (step alloc t (.acquire id answer dup)).mirror = m'.handed id c i f := by
    simp [step, afterAcquire, hacq]
  refine ⟨?_, ?_, ?_, ?_, ?_, ⟨c.lastSeq, hl, hlt⟩, ⟨out, hstep, ?_, c.lastSeq, hl, ?_⟩⟩
  · exact h.append (hmirror ▸ hacc) (hmirror ▸ hoffer.spec.counted) hl hlt (hmirror ▸ hlast)
      (hmirror ▸ hoffer.spec.grows) (hmirror ▸ hown) (hspec.fbId.trans (by rw [hoffer.buffer]))
      hstep
  · exact hmirror ▸ hshown
  · exact hmirror ▸ hlast
  · exact hmirror ▸ hoffer.spec.grows
  · exact hmirror ▸ hown
  · rw [hspec.fbId, hoffer.buffer]
  · rw [hspec.damage, hoffer.number, hoffer.buffer]

theorem refused_of_offered {t : MirrorTrace} (h : Inv t) (alloc : Allocation) {id n : ℕ}
    {b : AcquiredBuffer} {answer : Except Errc AcquiredBuffer} {dup : Except Errc Unit}
    (ho : t.mirror.offered id answer = some (n, b)) (hf : ¬ Fenced dup b) :
    Refused t (step alloc t (.acquire id answer dup)) := by
  obtain ⟨c, m', f, hoffer⟩ := exists_offer h alloc ho
  obtain ⟨i, hcur⟩ := hoffer.spec.current
  obtain ⟨e, he⟩ := handOut_error (hoffer.buffer.symm ▸ hf) c
  have hacq : t.mirror.acquire alloc id answer dup = (m', .error e) := by
    rw [acquire_of_next hoffer.consumer hoffer.next, give_error hcur he]
  have hmirror : (step alloc t (.acquire id answer dup)).mirror = m' := by
    simp [step, afterAcquire, hacq]
  have hout : (step alloc t (.acquire id answer dup)).handOuts = t.handOuts := by
    simp [step, afterAcquire, hacq]
  have hlast : m'.lastSeqs = t.mirror.lastSeqs := by
    simp [lastSeqs, hoffer.spec.consumers]
  exact ⟨h.grow (hmirror ▸ hoffer.spec.accounts) (hmirror ▸ hoffer.spec.counted)
    (hmirror ▸ hlast) (hmirror ▸ hoffer.spec.grows) hout, hout, hmirror ▸ hlast,
    hmirror ▸ hoffer.spec.grows⟩

theorem refused_of_none {t : MirrorTrace} (h : Inv t) (alloc : Allocation) {id : ℕ}
    {answer : Except Errc AcquiredBuffer} {dup : Except Errc Unit}
    (ho : t.mirror.offered id answer = none) :
    Refused t (step alloc t (.acquire id answer dup)) := by
  have hsilent : Silent t.mirror (step alloc t (.acquire id answer dup)).mirror ∧
      (step alloc t (.acquire id answer dup)).handOuts = t.handOuts := by
    cases hc : t.mirror.consumers[id]? with
    | none =>
      have hacq := acquire_unknown alloc hc answer dup
      exact ⟨by simpa [step, afterAcquire, hacq] using Silent.refl h.accounts,
        by simp [step, afterAcquire, hacq]⟩
    | some c =>
      cases hm : t.mirror.next alloc c answer with
      | error e =>
        obtain ⟨hacq, rfl⟩ := acquire_refused hc hm dup
        exact ⟨by simpa [step, afterAcquire, hacq] using silent_call h.accounts rfl rfl,
          by simp [step, afterAcquire, hacq]⟩
      | ok m' =>
        obtain ⟨f, hspec⟩ := next_spec h.accounts h.counted (List.mem_of_getElem? hc) hm
        obtain ⟨i, hcur⟩ := hspec.current
        rw [offered_of_next hc hm h.accounts h.counted] at ho
        simp [shown, hcur] at ho
  obtain ⟨hs, hout⟩ := hsilent
  exact ⟨h.congr hs hout, hout, hs.lastSeqs, by rw [hs.acquired]⟩

/-! ### Every call keeps the history -/

theorem silent_step {t : MirrorTrace} (h : Inv t) (alloc : Allocation) {e : MirrorEvent}
    (hacq : e ≠ .makeConsumer) (hne : ∀ id answer dup, e ≠ .acquire id answer dup) :
    Silent t.mirror (step alloc t e).mirror ∧ (step alloc t e).handOuts = t.handOuts := by
  cases e with
  | makeConsumer => exact absurd rfl hacq
  | acquire id answer dup => exact absurd rfl (hne id answer dup)
  | release i fence merges =>
    cases hi : t.held[i]? with
    | none => simpa [step, hi] using Silent.refl h.accounts
    | some g => simpa [step, hi] using silent_release h.accounts g.buffer fence merges
  | retire id => exact ⟨silent_retire h.accounts id, rfl⟩
  | drop id => exact ⟨silent_drop h.accounts id, rfl⟩
  | pause id => exact ⟨silent_paused h.accounts, rfl⟩
  | resume id answer => exact ⟨silent_resumed h.accounts answer, rfl⟩
  | destroy => exact ⟨silent_destroy h.accounts, rfl⟩

theorem inv_makeConsumer {t : MirrorTrace} (h : Inv t) (alloc : Allocation) :
    Inv (step alloc t .makeConsumer) := by
  have hlast : (step alloc t .makeConsumer).mirror.lastSeqs = t.mirror.lastSeqs ++ [0] := by
    simp [step, makeConsumer, lastSeqs]
  refine ⟨h.accounts.congr rfl rfl rfl rfl ?_, h.counted, ?_, ?_, h.positive, h.shows⟩
  · have hpos : 0 < t.mirror.nextSeq := by
      have := h.counted
      omega
    intro c hc
    rcases List.mem_append.mp hc with hc | hc
    · exact h.accounts.seen c hc
    · rw [List.mem_singleton.mp hc]
      exact hpos
  · intro g hg
    obtain ⟨n, hn, hle⟩ := h.taken g hg
    exact ⟨n, getElem?_of_prefix (by rw [hlast]; simp) hn, hle⟩
  · intro id n hn
    rw [hlast, List.getElem?_append] at hn
    split at hn
    · exact h.last id n hn
    · left
      have hz := List.mem_of_getElem? hn
      simpa using hz

theorem inv_step (alloc : Allocation) (t : MirrorTrace) (e : MirrorEvent) (h : Inv t) :
    Inv (step alloc t e) := by
  by_cases hmake : e = .makeConsumer
  · subst hmake
    exact inv_makeConsumer h alloc
  by_cases hacq : ∃ id answer dup, e = .acquire id answer dup
  · obtain ⟨id, answer, dup, rfl⟩ := hacq
    cases ho : t.mirror.offered id answer with
    | none => exact (refused_of_none h alloc ho).inv
    | some r =>
      by_cases hf : Fenced dup r.2
      · exact (handed_of_offered h alloc ho hf).inv
      · exact (refused_of_offered h alloc ho hf).inv
  · push Not at hacq
    obtain ⟨hs, hout⟩ := silent_step h alloc hmake hacq
    exact h.congr hs hout

theorem inv_run (alloc : Allocation) {t : MirrorTrace} (h : Inv t) (es : List MirrorEvent) :
    Inv (run (step alloc) t es) :=
  run_always (fun t e ht => inv_step alloc t e ht) h es

/-! ### Newer frames only, and damage -/

/-- A consumer is handed each frame once, and only newer ones. -/
def NeverOlder (hs : List MirrorHandOut) : Prop :=
  hs.Pairwise (fun g h => g.consumer = h.consumer → g.frame < h.frame)

/-- Damage goes only to a consumer that took the preceding frame. -/
def DamageFollows (hs : List MirrorHandOut) : Prop :=
  ∀ pre h post, hs = pre ++ h :: post → h.buffer.damage ≠ [] →
    ∃ g ∈ pre, g.consumer = h.consumer ∧ g.frame + 1 = h.frame

/-- The source's first buffer is not handed out with damage. -/
def FirstUndamaged (t : MirrorTrace) : MirrorEvent → Prop
  | .acquire id answer dup =>
    ∀ b, t.mirror.offered id answer = some (1, b) → Fenced dup b → b.damage = []
  | _ => True

theorem damageFollows_append {hs : List MirrorHandOut} {h : MirrorHandOut} :
    DamageFollows (hs ++ [h]) ↔ DamageFollows hs ∧
      (h.buffer.damage ≠ [] → ∃ g ∈ hs, g.consumer = h.consumer ∧ g.frame + 1 = h.frame) := by
  constructor
  · intro hd
    refine ⟨?_, hd hs h [] rfl⟩
    rintro pre g post rfl
    exact hd pre g (post ++ [h]) (by simp)
  · rintro ⟨hd, hlast⟩ pre g post heq
    rcases List.eq_nil_or_concat post with rfl | ⟨post', x, rfl⟩
    · obtain ⟨rfl, hx⟩ := List.append_inj' heq rfl
      obtain rfl : h = g := by simpa using hx
      exact hlast
    · have heq' : hs ++ [h] = (pre ++ g :: post') ++ [x] := by simpa using heq
      obtain ⟨hpre, -⟩ := List.append_inj' heq' rfl
      exact hd pre g post' hpre

theorem neverOlder_step {t : MirrorTrace} (h : Inv t) (alloc : Allocation) (e : MirrorEvent)
    (ho : NeverOlder t.handOuts) : NeverOlder (step alloc t e).handOuts := by
  by_cases hmake : e = .makeConsumer
  · subst hmake
    exact ho
  by_cases hacq : ∃ id answer dup, e = .acquire id answer dup
  · obtain ⟨id, answer, dup, rfl⟩ := hacq
    cases hoff : t.mirror.offered id answer with
    | none => rwa [(refused_of_none h alloc hoff).handOuts]
    | some r =>
      by_cases hf : Fenced dup r.2
      · have hh := handed_of_offered h alloc hoff hf
        obtain ⟨out, hout, -⟩ := hh.handOut
        obtain ⟨l, hl, hlt⟩ := hh.newer
        rw [hout]
        refine List.pairwise_append.mpr ⟨ho, List.pairwise_singleton _ _, ?_⟩
        intro g hg x hx hgx
        rw [List.mem_singleton.mp hx] at hgx ⊢
        obtain ⟨n, hn, hle⟩ := h.taken g hg
        obtain rfl : n = l := by
          rw [hgx, Option.mem_def.mp hl] at hn
          exact (Option.some.inj hn).symm
        show g.frame < r.1
        omega
      · rwa [(refused_of_offered h alloc hoff hf).handOuts]
  · push Not at hacq
    rwa [(silent_step h alloc hmake hacq).2]

theorem damageFollows_handed {t t' : MirrorTrace} (h : Inv t) {id n : ℕ} {b : AcquiredBuffer}
    (hh : Handed t t' id n b) :
    DamageFollows t'.handOuts ↔ DamageFollows t.handOuts ∧ (n = 1 → b.damage = []) := by
  obtain ⟨out, hout, -, l, hl, hdamage⟩ := hh.handOut
  obtain ⟨l', hl', hlt⟩ := hh.newer
  obtain rfl : l = l' := Option.some.inj (hl.symm.trans hl')
  rw [hout, damageFollows_append]
  refine and_congr_right fun _ => ?_
  show (out.damage ≠ [] → ∃ g ∈ t.handOuts, g.consumer = id ∧ g.frame + 1 = n) ↔ _
  rw [hdamage]
  constructor
  · rintro hd rfl
    have hl0 : l = 0 := by omega
    by_contra hb
    obtain ⟨g, hg, -, hgn⟩ := hd (by simpa [hl0] using hb)
    have := h.positive g hg
    omega
  · intro hfirst hne
    have hln : l + 1 = n := by
      by_contra hcon
      simp [hcon] at hne
    rcases h.last id l hl with rfl | ⟨g, hg, hgid, hgl⟩
    · exact absurd (by simp [hfirst hln.symm]) hne
    · exact ⟨g, hg, hgid, by omega⟩

theorem damageFollows_step {t : MirrorTrace} (h : Inv t) (alloc : Allocation)
    (e : MirrorEvent) :
    DamageFollows (step alloc t e).handOuts ↔
      DamageFollows t.handOuts ∧ FirstUndamaged t e := by
  by_cases hacq : ∃ id answer dup, e = .acquire id answer dup
  · obtain ⟨id, answer, dup, rfl⟩ := hacq
    cases hoff : t.mirror.offered id answer with
    | none => simp [(refused_of_none h alloc hoff).handOuts, FirstUndamaged, hoff]
    | some r =>
      obtain ⟨n, b⟩ := r
      by_cases hf : Fenced dup b
      · rw [damageFollows_handed h (handed_of_offered h alloc hoff hf)]
        refine and_congr_right fun _ => ?_
        constructor
        · intro hfirst b' hb'
          obtain ⟨rfl, rfl⟩ : n = 1 ∧ b = b' := by simpa [hoff] using hb'
          exact fun _ => hfirst rfl
        · rintro hfirst rfl
          exact hfirst b hoff hf
      · rw [(refused_of_offered h alloc hoff hf).handOuts]
        refine (and_iff_left ?_).symm
        intro b' hb' hf'
        obtain ⟨-, rfl⟩ : n = 1 ∧ b = b' := by simpa [hoff] using hb'
        exact absurd hf' hf
  · push Not at hacq
    have hfirst : FirstUndamaged t e := by
      cases e with
      | acquire id answer dup => exact absurd rfl (hacq id answer dup)
      | _ => trivial
    by_cases hmake : e = .makeConsumer
    · subst hmake
      exact (and_iff_left hfirst).symm
    · rw [(silent_step h alloc hmake hacq).2]
      exact (and_iff_left hfirst).symm

theorem neverOlder_run (alloc : Allocation) {t : MirrorTrace} (h : Inv t)
    (ho : NeverOlder t.handOuts) (es : List MirrorEvent) :
    NeverOlder (run (step alloc) t es).handOuts := by
  have hstep : ∀ t e, Inv t ∧ NeverOlder t.handOuts →
      Inv (step alloc t e) ∧ NeverOlder (step alloc t e).handOuts :=
    fun t e ht => ⟨inv_step alloc t e ht.1, neverOlder_step ht.1 alloc e ht.2⟩
  exact (run_always hstep ⟨h, ho⟩ es).2

theorem damageFollows_run (alloc : Allocation) {t : MirrorTrace} (h : Inv t)
    (es : List MirrorEvent) :
    DamageFollows (run (step alloc) t es).handOuts ↔
      DamageFollows t.handOuts ∧ Meets (step alloc) FirstUndamaged t es := by
  induction es generalizing t with
  | nil => simp
  | cons e es ih =>
    rw [run_cons, ih (inv_step alloc t e h), damageFollows_step h, meets_cons, and_assoc]

/-! ### The joint frame -/

/-- The consumer an acquire is made for. -/
def acquirer? : MirrorEvent → Option ℕ
  | .acquire id _ _ => some id
  | _ => none

def acquirers (es : List MirrorEvent) : List ℕ :=
  es.filterMap acquirer?

/-- An acquire with the source ready, or a release. -/
def Joint : MirrorEvent → Prop
  | .acquire _ (.ok _) _ => True
  | .release .. => True
  | _ => False

instance : ∀ e, Decidable (Joint e)
  | .acquire _ (.ok _) _ => .isTrue trivial
  | .acquire _ (.error _) _ => .isFalse id
  | .release .. => .isTrue trivial
  | .makeConsumer => .isFalse id
  | .retire _ => .isFalse id
  | .drop _ => .isFalse id
  | .pause _ => .isFalse id
  | .resume .. => .isFalse id
  | .destroy => .isFalse id

def liveIds (t : MirrorTrace) : List ℕ :=
  (List.range t.mirror.consumers.length).filter (fun id => t.Live id)

/-- Every live consumer acquires once, in some order, the source ready; older frames may be
released in between. -/
def JointFrame (t : MirrorTrace) (es : List MirrorEvent) : Prop :=
  (acquirers es).Perm t.liveIds ∧ ∀ e ∈ es, Joint e

instance (t : MirrorTrace) (es : List MirrorEvent) : Decidable (t.JointFrame es) :=
  inferInstanceAs (Decidable (_ ∧ _))

/-- What the events handed out from `t`. -/
def given (alloc : Allocation) (t : MirrorTrace) (es : List MirrorEvent) : List MirrorHandOut :=
  (run (step alloc) t es).handOuts.drop t.handOuts.length

/-- Each acquire was answered, and all with one frame of the source. -/
def SharesFrame (alloc : Allocation) (t : MirrorTrace) (es : List MirrorEvent) : Prop :=
  (given alloc t es).map (·.consumer) = acquirers es ∧
    ∀ g ∈ given alloc t es, ∀ h ∈ given alloc t es,
      g.frame = h.frame ∧ g.buffer.fbId = h.buffer.fbId

def firstAcquire (es : List MirrorEvent) : Option (ℕ × Except Errc AcquiredBuffer) :=
  es.findSome? fun
    | .acquire id answer _ => some (id, answer)
    | _ => none

def FencedAt (b : AcquiredBuffer) : MirrorEvent → Prop
  | .acquire _ _ dup => Fenced dup b
  | _ => True

/-- The first consumer to acquire has had the newest frame or nobody has, and the fence of the
buffer about to be shown is duplicated for each of them. -/
def Shareable (t : MirrorTrace) (es : List MirrorEvent) : Prop :=
  ∀ id answer, firstAcquire es = some (id, answer) →
    (t.mirror.upToDate id = true ∨ ∀ j ∈ acquirers es, t.mirror.upToDate j = false) ∧
    ∀ n b, t.mirror.offered id answer = some (n, b) → ∀ e ∈ es, FencedAt b e

/-! ### What decides the next frame -/

theorem shown_eq_some {m : SourceMirror} (h : Accounts m) {n : ℕ} {b : AcquiredBuffer} :
    m.shown = some (n, b) ↔
      ∃ f ∈ m.frames, f.current = true ∧ f.seq = n ∧ f.buffer = b := by
  constructor
  · intro hs
    obtain ⟨⟨i, f⟩, hcur, hfb⟩ := Option.map_eq_some_iff.mp hs
    obtain ⟨hf, hc⟩ := currentFrame_mem hcur
    obtain ⟨rfl, rfl⟩ := Prod.mk.inj hfb
    exact ⟨f, hf, hc, rfl, rfl⟩
  · rintro ⟨f, hf, hc, rfl, rfl⟩
    obtain ⟨i, hcur⟩ := h.currentFrame_eq hf hc
    simp [shown, hcur]

theorem wantsNew_eq (m : SourceMirror) (c : Consumer) :
    m.wantsNew c = m.shown.all (fun r => decide (r.1 ≤ c.lastSeq)) := by
  cases h : m.currentFrame <;> simp [wantsNew, shown, h]

theorem upToDate_eq (m : SourceMirror) (id : ℕ) :
    m.upToDate id =
      (m.lastSeqs[id]?.map (fun l => m.shown.all (fun r => decide (r.1 ≤ l)))).getD false := by
  cases h : m.consumers[id]? <;> simp [upToDate, lastSeqs, h, wantsNew_eq]

theorem offered_eq (m : SourceMirror) (id : ℕ) (answer : Except Errc AcquiredBuffer) :
    m.offered id answer = m.lastSeqs[id]?.bind (fun l =>
      if m.shown.all (fun r => decide (r.1 ≤ l)) then answer.toOption.map (m.nextSeq, ·)
      else m.shown) := by
  cases h : m.consumers[id]? <;> simp [offered, lastSeqs, h, wantsNew_eq]

/-- A consumer behind the newest frame is told of fresh content, whatever the source says. -/
theorem hasFreshContent_of_behind {m : SourceMirror} {id : ℕ} (hid : id < m.consumers.length)
    (h : m.upToDate id = false) (fresh : Bool) : m.hasFreshContent fresh id = true := by
  have hc := List.getElem?_eq_getElem hid
  cases hcur : m.currentFrame with
  | none => simp [upToDate, hc, wantsNew, hcur] at h
  | some r =>
    obtain ⟨hf, hfc⟩ := currentFrame_mem hcur
    have hlt : m.consumers[id].lastSeq < r.2.seq := by
      simpa [upToDate, hc, wantsNew, hcur] using h
    have hany : m.frames.any (fun f => f.current && decide (m.consumers[id].lastSeq < f.seq)) =
        true :=
      List.any_eq_true.mpr ⟨r.2, hf, by simp [hfc, hlt]⟩
    simp [hasFreshContent, hc, hany]

theorem shown_release {m : SourceMirror} (h : Accounts m) (b : AcquiredBuffer)
    (fence : Option SyncFence) (merges : Bool) : (m.release b fence merges).shown = m.shown := by
  by_cases hidle : ∀ i f, m.findFrame (·.address = b.token) = some (i, f) → f.holders = 0
  · rw [release_idle hidle]
  · have hacc := h.release b fence merges
    push Not at hidle
    obtain ⟨i, g, hg, h0⟩ := hidle
    obtain ⟨_, pre, post, hs⟩ := findFrame_some hg
    rw [release_some hg h0] at hacc ⊢
    refine Option.ext fun r => ?_
    rw [shown_eq_some hacc, shown_eq_some h]
    constructor
    · rintro ⟨f, hf, hc, hn, hb⟩
      rcases (mem_settle h hs).mp hf with ⟨hf, -⟩ | ⟨rfl, -⟩
      · exact ⟨f, hf, hc, hn, hb⟩
      · exact ⟨g, hs.mem, hc, hn, hb⟩
    · rintro ⟨f, hf, hc, hn, hb⟩
      by_cases hfg : f = g
      · subst hfg
        exact ⟨f.released fence merges, (mem_settle h hs).mpr (.inr ⟨rfl, .inr hc⟩), hc, hn, hb⟩
      · exact ⟨f, (mem_settle h hs).mpr (.inl ⟨hf, hfg⟩), hc, hn, hb⟩

/-- A step that leaves everything the next acquire looks at. -/
structure Idle (t t' : MirrorTrace) : Prop where
  inv : Inv t'
  shown : t'.mirror.shown = t.mirror.shown
  lastSeqs : t'.mirror.lastSeqs = t.mirror.lastSeqs
  nextSeq : t'.mirror.nextSeq = t.mirror.nextSeq
  handOuts : t'.handOuts = t.handOuts

theorem Idle.offered {t t' : MirrorTrace} (h : Idle t t') (id : ℕ)
    (answer : Except Errc AcquiredBuffer) :
    t'.mirror.offered id answer = t.mirror.offered id answer := by
  rw [offered_eq, offered_eq, h.shown, h.lastSeqs, h.nextSeq]

theorem Idle.upToDate {t t' : MirrorTrace} (h : Idle t t') (id : ℕ) :
    t'.mirror.upToDate id = t.mirror.upToDate id := by
  rw [upToDate_eq, upToDate_eq, h.shown, h.lastSeqs]

theorem idle_release {t : MirrorTrace} (h : Inv t) (alloc : Allocation) (i : ℕ)
    (fence : Option SyncFence) (merges : Bool) :
    Idle t (step alloc t (.release i fence merges)) := by
  cases hi : t.held[i]? with
  | none => simpa [step, hi] using ⟨h, rfl, rfl, rfl, rfl⟩
  | some g =>
    have hs := silent_release h.accounts g.buffer fence merges
    refine ⟨inv_step alloc t _ h, ?_, ?_, ?_, ?_⟩
    · simpa [step, hi] using shown_release h.accounts g.buffer fence merges
    · simpa [step, hi] using hs.lastSeqs
    · simpa [step, hi] using hs.nextSeq
    · simp [step, hi]

/-- Induction over the events of a joint frame. -/
theorem joint_induction {P : List MirrorEvent → Prop} (nil : P [])
    (acquire : ∀ id b dup es, (∀ e ∈ es, Joint e) → P es → P (.acquire id (.ok b) dup :: es))
    (release : ∀ i fence merges es, P es → P (.release i fence merges :: es)) :
    ∀ es, (∀ e ∈ es, Joint e) → P es
  | [], _ => nil
  | e :: es, h => by
    have hjoint : ∀ e' ∈ es, Joint e' := fun e' he' => h e' (.tail e he')
    have hes := joint_induction nil acquire release es hjoint
    have he := h e (.head es)
    cases e with
    | acquire id answer dup =>
      cases answer with
      | ok b => exact acquire id b dup es hjoint hes
      | error x => exact he.elim
    | release i fence merges => exact release i fence merges es hes
    | _ => exact he.elim

/-! ### Sharing -/

/-- The hand-outs since `t` are of the frame `n`, one for each of `ids`. -/
def AllGiven (t t' : MirrorTrace) (ids : List ℕ) (n fbId : ℕ) : Prop :=
  ∃ hs, t'.handOuts = t.handOuts ++ hs ∧ hs.map (·.consumer) = ids ∧
    ∀ h ∈ hs, h.frame = n ∧ h.buffer.fbId = fbId

/-- Consumers behind the newest frame all take it. -/
theorem allGiven_of_behind (alloc : Allocation) {n : ℕ} {b : AcquiredBuffer} :
    ∀ es, (∀ e ∈ es, Joint e) → ∀ t : MirrorTrace, Inv t → t.mirror.shown = some (n, b) →
      (acquirers es).Nodup → (∀ id ∈ acquirers es, ∃ l ∈ t.mirror.lastSeqs[id]?, l < n) →
      (∀ e ∈ es, FencedAt b e) →
      AllGiven t (run (step alloc) t es) (acquirers es) n b.fbId := by
  refine joint_induction ?_ ?_ ?_
  · intro t _ _ _ _ _
    exact ⟨[], by simp [acquirers]⟩
  · intro id a dup es _ ih t h hshown hnodup hbehind hfenced
    have hids : acquirers (.acquire id (.ok a) dup :: es) = id :: acquirers es := rfl
    rw [hids] at hnodup hbehind
    obtain ⟨hid, hnodup⟩ := List.nodup_cons.mp hnodup
    obtain ⟨l, hl, hlt⟩ := hbehind id (.head _)
    have hoff : t.mirror.offered id (.ok a) = some (n, b) := by
      rw [offered_eq, Option.mem_def.mp hl, hshown]
      simp [Nat.not_le.mpr hlt]
    have hh := handed_of_offered h alloc hoff (hfenced _ (.head es) : Fenced dup b)
    obtain ⟨out, hout, hfb, -⟩ := hh.handOut
    have hrest := ih _ hh.inv hh.shown hnodup ?_ fun e he => hfenced e (.tail _ he)
    · obtain ⟨hs, hrun, hcons, hall⟩ := hrest
      refine ⟨⟨id, n, out⟩ :: hs, ?_, ?_, ?_⟩
      · rw [run_cons, hrun, hout]
        simp
      · simp [hids, hcons]
      · intro g hg
        rcases List.mem_cons.mp hg with rfl | hg
        · exact ⟨rfl, hfb⟩
        · exact hall g hg
    · intro j hj
      obtain ⟨k, hk, hkn⟩ := hbehind j (.tail _ hj)
      have hne : id ≠ j := fun heq => hid (heq ▸ hj)
      exact ⟨k, by rw [hh.lastSeqs, List.getElem?_set_ne hne]; exact hk, hkn⟩
  · intro i fence merges es ih t h hshown hnodup hbehind hfenced
    have hidle := idle_release h alloc i fence merges
    have hrest := ih _ hidle.inv (hidle.shown.trans hshown) hnodup
      (by rw [hidle.lastSeqs]; exact hbehind) fun e he => hfenced e (.tail _ he)
    obtain ⟨hs, hrun, hcons, hall⟩ := hrest
    exact ⟨hs, by rw [run_cons, hrun, hidle.handOuts], hcons, hall⟩

/-- What the first of the consumers `id :: ids` is offered is newer than what they have had. -/
theorem offered_of_first {t : MirrorTrace} (h : Inv t) {id : ℕ} {ids : List ℕ}
    {a : AcquiredBuffer} (hknown : ∀ j ∈ id :: ids, j < t.mirror.lastSeqs.length)
    (hfirst : t.mirror.upToDate id = true ∨ ∀ j ∈ id :: ids, t.mirror.upToDate j = false) :
    ∃ n b, t.mirror.offered id (.ok a) = some (n, b) ∧
      ∀ j ∈ ids, ∃ l ∈ t.mirror.lastSeqs[j]?, l < n := by
  have hl := List.getElem?_eq_getElem (hknown id (.head _))
  by_cases hup : t.mirror.upToDate id = true
  · refine ⟨t.mirror.nextSeq, a, ?_, ?_⟩
    · rw [upToDate_eq, hl] at hup
      rw [offered_eq, hl]
      simp only [Option.map_some, Option.getD_some] at hup
      simp [hup, Except.toOption]
    · intro j hj
      have hjlt := hknown j (.tail _ hj)
      obtain ⟨c, hc, heq⟩ := List.mem_map.mp (List.getElem_mem hjlt)
      exact ⟨_, List.getElem?_eq_getElem hjlt, heq ▸ h.accounts.seen c hc⟩
  · have hbehind := hfirst.resolve_left hup
    cases hshown : t.mirror.shown with
    | none =>
      have hno := hbehind id (.head _)
      simp [upToDate_eq, hl, hshown] at hno
    | some r =>
      have hlt : ∀ j ∈ id :: ids, ∃ l ∈ t.mirror.lastSeqs[j]?, l < r.1 := by
        intro j hj
        have hjl := List.getElem?_eq_getElem (hknown j hj)
        have hno := hbehind j hj
        exact ⟨_, hjl, by simpa [upToDate_eq, hshown, hjl] using hno⟩
      refine ⟨r.1, r.2, ?_, fun j hj => hlt j (.tail _ hj)⟩
      obtain ⟨l, hl', hlr⟩ := hlt id (.head _)
      rw [offered_eq, Option.mem_def.mp hl', hshown]
      simp [Nat.not_le.mpr hlr]

/-- A joint frame that meets the condition is shared. -/
theorem allGiven_of_shareable (alloc : Allocation) :
    ∀ es, (∀ e ∈ es, Joint e) → ∀ t : MirrorTrace, Inv t → (acquirers es).Nodup →
      (∀ id ∈ acquirers es, id < t.mirror.lastSeqs.length) → t.Shareable es →
      ∃ n fbId, AllGiven t (run (step alloc) t es) (acquirers es) n fbId := by
  refine joint_induction ?_ ?_ ?_
  · intro t _ _ _ _
    exact ⟨0, 0, [], by simp [acquirers]⟩
  · intro id a dup es hjoint ih t h hnodup hknown hshare
    have hids : acquirers (.acquire id (.ok a) dup :: es) = id :: acquirers es := rfl
    rw [hids] at hnodup hknown
    obtain ⟨hid, hnodup⟩ := List.nodup_cons.mp hnodup
    obtain ⟨hfirst, hfenced⟩ := hshare id (.ok a) rfl
    obtain ⟨n, b, hoff, hbehind⟩ := offered_of_first h hknown hfirst
    have hfenced := hfenced n b hoff
    have hh := handed_of_offered h alloc hoff (hfenced _ (.head es) : Fenced dup b)
    obtain ⟨out, hout, hfb, -⟩ := hh.handOut
    have hrest := allGiven_of_behind alloc es hjoint _ hh.inv hh.shown hnodup ?_
      fun e he => hfenced e (.tail _ he)
    · obtain ⟨hs, hrun, hcons, hall⟩ := hrest
      refine ⟨n, b.fbId, ⟨id, n, out⟩ :: hs, ?_, ?_, ?_⟩
      · rw [run_cons, hrun, hout]
        simp
      · simp [hids, hcons]
      · intro g hg
        rcases List.mem_cons.mp hg with rfl | hg
        · exact ⟨rfl, hfb⟩
        · exact hall g hg
    · intro j hj
      obtain ⟨k, hk, hkn⟩ := hbehind j hj
      have hne : id ≠ j := fun heq => hid (heq ▸ hj)
      exact ⟨k, by rw [hh.lastSeqs, List.getElem?_set_ne hne]; exact hk, hkn⟩
  · intro i fence merges es ih t h hnodup hknown hshare
    have hidle := idle_release h alloc i fence merges
    have hshare' : (step alloc t (.release i fence merges)).Shareable es := by
      intro id answer hf
      obtain ⟨hfirst, hfenced⟩ := hshare id answer hf
      refine ⟨?_, ?_⟩
      · rw [hidle.upToDate]
        exact hfirst.imp_right fun hall j hj => (hidle.upToDate j).trans (hall j hj)
      · rw [hidle.offered]
        exact fun n b hoff e he => hfenced n b hoff e (.tail _ he)
    obtain ⟨n, fbId, hs, hrun, hcons, hall⟩ := ih _ hidle.inv hnodup
      (by rw [hidle.lastSeqs]; exact hknown) hshare'
    exact ⟨n, fbId, hs, by rw [run_cons, hrun, hidle.handOuts], hcons, hall⟩

/-- Whatever a joint frame hands out is newer than what its taker had before, and there is at
most one hand-out for each acquire. -/
theorem handOuts_joint (alloc : Allocation) :
    ∀ es, (∀ e ∈ es, Joint e) → ∀ t : MirrorTrace, Inv t →
      ∃ hs, (run (step alloc) t es).handOuts = t.handOuts ++ hs ∧
        hs.length ≤ (acquirers es).length ∧
        ∀ h ∈ hs, ∃ l ∈ t.mirror.lastSeqs[h.consumer]?, l < h.frame := by
  refine joint_induction ?_ ?_ ?_
  · intro t _
    exact ⟨[], by simp, by simp, by simp⟩
  · intro id a dup es _ ih t h
    have hlen : (acquirers (.acquire id (.ok a) dup :: es)).length =
        (acquirers es).length + 1 := rfl
    obtain ⟨hs, hrun, hle, hnewer⟩ := ih _ (inv_step alloc t (.acquire id (.ok a) dup) h)
    by_cases hhand : ∃ n b, Handed t (step alloc t (.acquire id (.ok a) dup)) id n b
    · obtain ⟨n, b, hh⟩ := hhand
      obtain ⟨out, hout, -⟩ := hh.handOut
      refine ⟨⟨id, n, out⟩ :: hs, ?_, ?_, ?_⟩
      · rw [run_cons, hrun, hout]
        simp
      · rw [hlen, List.length_cons]
        omega
      · intro g hg
        rcases List.mem_cons.mp hg with rfl | hg
        · exact hh.newer
        · obtain ⟨l, hl, hlt⟩ := hnewer g hg
          by_cases hgid : id = g.consumer
          · obtain ⟨k, hk, hkn⟩ := hh.newer
            obtain ⟨hlen, -⟩ := List.getElem?_eq_some_iff.mp (Option.mem_def.mp hk)
            have hln : n = l := by
              simpa [hh.lastSeqs, ← hgid, hlen] using hl
            exact ⟨k, hgid ▸ hk, by omega⟩
          · rw [hh.lastSeqs, List.getElem?_set_ne hgid] at hl
            exact ⟨l, hl, hlt⟩
    · have hrefused : Refused t (step alloc t (.acquire id (.ok a) dup)) := by
        cases hoff : t.mirror.offered id (.ok a) with
        | none => exact refused_of_none h alloc hoff
        | some r =>
          by_cases hf : Fenced dup r.2
          · exact absurd ⟨r.1, r.2, handed_of_offered h alloc hoff hf⟩ hhand
          · exact refused_of_offered h alloc hoff hf
      refine ⟨hs, by rw [run_cons, hrun, hrefused.handOuts], by omega, ?_⟩
      rw [hrefused.lastSeqs] at hnewer
      exact hnewer
  · intro i fence merges es ih t h
    have hidle := idle_release h alloc i fence merges
    obtain ⟨hs, hrun, hle, hnewer⟩ := ih _ hidle.inv
    refine ⟨hs, by rw [run_cons, hrun, hidle.handOuts], hle, ?_⟩
    rw [hidle.lastSeqs] at hnewer
    exact hnewer

/-- A numbered frame the source already handed over has that acquisition's buffer. -/
theorem offered_own {t : MirrorTrace} (h : Inv t) {id n : ℕ} {b : AcquiredBuffer}
    {answer : Except Errc AcquiredBuffer} (ho : t.mirror.offered id answer = some (n, b))
    {b' : AcquiredBuffer} (hb' : t.mirror.acquired[n - 1]? = some b') (hn : 0 < n) : b = b' := by
  have hlt : n < t.mirror.nextSeq := by
    obtain ⟨hlen, -⟩ := List.getElem?_eq_some_iff.mp hb'
    have := h.counted
    omega
  rw [offered_eq] at ho
  obtain ⟨l, -, ho⟩ := Option.bind_eq_some_iff.mp ho
  split at ho
  · obtain ⟨a, -, ha⟩ := Option.map_eq_some_iff.mp ho
    have hna : t.mirror.nextSeq = n := (Prod.mk.inj ha).1
    omega
  · obtain ⟨f, hf, -, rfl, rfl⟩ := (shown_eq_some h.accounts).mp ho
    exact Option.some.inj
      ((h.accounts.own f (List.mem_append_right _ hf)).symm.trans hb')

/-- In a shared joint frame the first consumer was offered that frame, and every fence was
duplicated. -/
theorem offered_of_allGiven (alloc : Allocation) {n fbId : ℕ} :
    ∀ es, (∀ e ∈ es, Joint e) → ∀ t : MirrorTrace, Inv t →
      AllGiven t (run (step alloc) t es) (acquirers es) n fbId →
      ∀ id answer, firstAcquire es = some (id, answer) →
        ∃ b, t.mirror.offered id answer = some (n, b) ∧ ∀ e ∈ es, FencedAt b e := by
  refine joint_induction ?_ ?_ ?_
  · intro t _ _ id answer hf
    simp [firstAcquire] at hf
  · rintro id a dup es hjoint ih t h ⟨hs, hrun, hcons, hall⟩ id' answer hfirst
    obtain ⟨rfl, rfl⟩ : id = id' ∧ Except.ok a = answer := by
      simpa [firstAcquire] using hfirst
    rw [run_cons] at hrun
    have hids : acquirers (.acquire id (.ok a) dup :: es) = id :: acquirers es := rfl
    have hinv := inv_step alloc t (.acquire id (.ok a) dup) h
    obtain ⟨hs', hrun', hle, -⟩ := handOuts_joint alloc es hjoint _ hinv
    have hlen : hs.length = (acquirers es).length + 1 := by
      rw [← List.length_map (f := (·.consumer)), hcons, hids, List.length_cons]
    have hhand : ∃ k b, t.mirror.offered id (.ok a) = some (k, b) ∧ Fenced dup b := by
      by_contra hno
      have hrefused : Refused t (step alloc t (.acquire id (.ok a) dup)) := by
        cases hoff : t.mirror.offered id (.ok a) with
        | none => exact refused_of_none h alloc hoff
        | some r =>
          exact refused_of_offered h alloc hoff fun hf => hno ⟨r.1, r.2, hoff, hf⟩
      rw [hrun', hrefused.handOuts] at hrun
      have := congrArg List.length (List.append_cancel_left hrun)
      omega
    obtain ⟨k, b, hoff, hf⟩ := hhand
    have hh := handed_of_offered h alloc hoff hf
    obtain ⟨out, hout, -⟩ := hh.handOut
    have htail : hs = ⟨id, k, out⟩ :: hs' := by
      rw [hrun', hout, List.append_assoc] at hrun
      exact (List.append_cancel_left hrun).symm
    subst htail
    obtain ⟨rfl, -⟩ := hall _ (.head _)
    refine ⟨b, hoff, ?_⟩
    have hrest := ih _ hinv ⟨hs', hrun', by simpa [hids] using hcons,
      fun g hg => hall g (.tail _ hg)⟩
    intro e he
    rcases List.mem_cons.mp he with rfl | he
    · exact hf
    · cases hnext : firstAcquire es with
      | none =>
        cases e with
        | acquire j answer dup' =>
          have hno := List.findSome?_eq_none_iff.mp hnext _ he
          simp at hno
        | _ => trivial
      | some r =>
        obtain ⟨b', hoff', hfenced⟩ := hrest r.1 r.2 hnext
        obtain ⟨l, -, hlt⟩ := hh.newer
        have hbb : b' = b := offered_own hinv hoff' hh.own (Nat.zero_lt_of_lt hlt)
        exact hbb ▸ hfenced e he
  · rintro i fence merges es ih t h ⟨hs, hrun, hcons, hall⟩ id answer hfirst
    have hidle := idle_release h alloc i fence merges
    obtain ⟨b, hoff, hfenced⟩ := ih _ hidle.inv
      ⟨hs, by rw [← run_cons, hrun, hidle.handOuts], hcons, hall⟩ id answer hfirst
    refine ⟨b, hidle.offered id answer ▸ hoff, ?_⟩
    intro e he
    rcases List.mem_cons.mp he with rfl | he
    · trivial
    · exact hfenced e he

theorem sharesFrame_iff (alloc : Allocation) {t : MirrorTrace} {es : List MirrorEvent}
    (h : Inv t) (hjoint : ∀ e ∈ es, Joint e) :
    SharesFrame alloc t es ↔
      ∃ n fbId, AllGiven t (run (step alloc) t es) (acquirers es) n fbId := by
  obtain ⟨hs, hrun, -, -⟩ := handOuts_joint alloc es hjoint t h
  have hgiven : given alloc t es = hs := by
    rw [given, hrun, List.drop_left]
  rw [SharesFrame, hgiven]
  constructor
  · rintro ⟨hcons, hsame⟩
    cases hs with
    | nil => exact ⟨0, 0, [], hrun, hcons, by simp⟩
    | cons g hs =>
      exact ⟨g.frame, g.buffer.fbId, g :: hs, hrun, hcons, fun x hx => hsame x hx g (.head _)⟩
  · rintro ⟨n, fbId, hs', hrun', hcons, hall⟩
    obtain rfl : hs = hs' := List.append_cancel_left (hrun.symm.trans hrun')
    refine ⟨hcons, fun x hx y hy => ?_⟩
    obtain ⟨hxn, hxf⟩ := hall x hx
    obtain ⟨hyn, hyf⟩ := hall y hy
    exact ⟨hxn.trans hyn.symm, hxf.trans hyf.symm⟩

theorem mem_liveIds {t : MirrorTrace} {id : ℕ} (hid : id ∈ t.liveIds) :
    id < t.mirror.lastSeqs.length := by
  have hlt := List.mem_range.mp (List.mem_filter.mp hid).1
  simpa [lastSeqs] using hlt

/-- A joint frame is shared exactly if it meets the condition. -/
theorem sharesFrame_iff_shareable (alloc : Allocation) {t : MirrorTrace}
    {es : List MirrorEvent} (h : Inv t) (hes : t.JointFrame es) :
    SharesFrame alloc t es ↔ t.Shareable es := by
  obtain ⟨hperm, hjoint⟩ := hes
  have hnodup : (acquirers es).Nodup := hperm.nodup_iff.mpr (List.nodup_range.filter _)
  have hknown : ∀ id ∈ acquirers es, id < t.mirror.lastSeqs.length :=
    fun id hid => mem_liveIds (hperm.subset hid)
  rw [sharesFrame_iff alloc h hjoint]
  constructor
  · rintro ⟨n, fbId, hall⟩ id answer hfirst
    obtain ⟨b, hoff, hfenced⟩ := offered_of_allGiven alloc es hjoint t h hall id answer hfirst
    refine ⟨?_, ?_⟩
    · by_contra hcon
      rw [not_or] at hcon
      obtain ⟨hbehind, hsome⟩ := hcon
      push Not at hsome
      obtain ⟨j, hj, hup⟩ := hsome
      -- `id` takes the frame on show, which `j` has had
      have hjlt := hknown j hj
      have hjl := List.getElem?_eq_getElem hjlt
      have hle : n ≤ t.mirror.lastSeqs[j] := by
        rw [offered_eq] at hoff
        obtain ⟨l, hl, hoff⟩ := Option.bind_eq_some_iff.mp hoff
        rw [upToDate_eq, hl] at hbehind
        simp only [Option.map_some, Option.getD_some] at hbehind
        rw [if_neg hbehind] at hoff
        simpa [upToDate_eq, hjl, hoff] using hup
      obtain ⟨hs, hrun, hcons, hframes⟩ := hall
      obtain ⟨g, hg, hgj⟩ := List.mem_map.mp (hcons ▸ hj)
      obtain ⟨hs', hrun', -, hnewer⟩ := handOuts_joint alloc es hjoint t h
      obtain rfl : hs = hs' := List.append_cancel_left (hrun.symm.trans hrun')
      obtain ⟨l, hl, hlt⟩ := hnewer g hg
      have hlj : t.mirror.lastSeqs[j] = l := by
        rw [hgj, hjl] at hl
        exact Option.some.inj hl
      have hgn := (hframes g hg).1
      omega
    · intro n' b' hoff'
      obtain ⟨-, rfl⟩ : n = n' ∧ b = b' := by simpa [hoff] using hoff'
      exact hfenced
  · exact allGiven_of_shareable alloc es hjoint t h hnodup hknown

/-! ### Whole runs -/

/-- What the mirror promises of a run from its creation. -/
structure OneFramePerCommit (alloc : Allocation) (es : List MirrorEvent) : Prop where
  shared : ∀ before frame after, es = before ++ frame ++ after →
    JointFrame (run (step alloc) {} before) frame →
    SharesFrame alloc (run (step alloc) {} before) frame
  neverOlder : NeverOlder (run (step alloc) {} es).handOuts
  damage : DamageFollows (run (step alloc) {} es).handOuts

/-- Every joint frame of the run can be shared, and the first buffer carries no damage. -/
structure Steady (alloc : Allocation) (es : List MirrorEvent) : Prop where
  shareable : ∀ before frame after, es = before ++ frame ++ after →
    JointFrame (run (step alloc) {} before) frame →
    Shareable (run (step alloc) {} before) frame
  undamaged : Meets (step alloc) FirstUndamaged {} es

theorem oneFramePerCommit_iff (alloc : Allocation) (es : List MirrorEvent) :
    OneFramePerCommit alloc es ↔ Steady alloc es := by
  have hinit : DamageFollows ({} : MirrorTrace).handOuts := by
    intro pre h post heq
    simp at heq
  have hdamage := damageFollows_run alloc Inv.init es
  rw [and_iff_right hinit] at hdamage
  constructor
  · rintro ⟨hshared, -, hd⟩
    exact ⟨fun before frame after heq hj =>
      (sharesFrame_iff_shareable alloc (inv_run alloc Inv.init before) hj).mp
        (hshared before frame after heq hj), hdamage.mp hd⟩
  · rintro ⟨hshare, hd⟩
    exact ⟨fun before frame after heq hj =>
      (sharesFrame_iff_shareable alloc (inv_run alloc Inv.init before) hj).mpr
        (hshare before frame after heq hj),
      neverOlder_run alloc Inv.init List.Pairwise.nil es, hdamage.mpr hd⟩

instance (alloc : Allocation) (t : MirrorTrace) (es : List MirrorEvent) :
    Decidable (SharesFrame alloc t es) :=
  inferInstanceAs (Decidable (_ ∧ _))

/-- The second consumer commits alone; the joint frame after it starts with the first. -/
theorem not_oneFramePerCommit :
    ¬ OneFramePerCommit .above
      [.makeConsumer, .makeConsumer, .acquire 1 (.ok ⟨11, 0, none, []⟩) (.ok ()),
        .acquire 0 (.ok ⟨12, 0, none, []⟩) (.ok ()),
        .acquire 1 (.ok ⟨12, 0, none, []⟩) (.ok ())] := by
  intro h
  have hshared := h.shared
    [.makeConsumer, .makeConsumer, .acquire 1 (.ok ⟨11, 0, none, []⟩) (.ok ())]
    [.acquire 0 (.ok ⟨12, 0, none, []⟩) (.ok ()), .acquire 1 (.ok ⟨12, 0, none, []⟩) (.ok ())]
    [] rfl (by decide)
  exact absurd hshared (by decide)

end MirrorTrace

end DrmCxx.Scene
