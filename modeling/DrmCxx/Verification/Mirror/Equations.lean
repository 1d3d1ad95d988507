import DrmCxx.Verification.Mirror.Trace
import Mathlib.Data.List.Nodup
import Mathlib.Data.List.Perm.Basic
import Mathlib.Data.List.Range

/-!
# What each call does to the mirror

The frame list as the mirror edits it by index, and the invariant every call keeps: the frames
it has and the ones it gave back are the source's acquisitions, each once.
-/

namespace DrmCxx.Scene.SourceMirror

/-! ### The frame list -/

section Splits

variable {α : Type*} {xs pre post : List α} {i : ℕ} {a : α}

/-- What an index of a list splits it into. -/
structure SplitsAt (xs : List α) (i : ℕ) (a : α) (pre post : List α) : Prop where
  eq : xs = pre ++ a :: post
  length : pre.length = i

theorem SplitsAt.set (h : SplitsAt xs i a pre post) (b : α) : xs.set i b = pre ++ b :: post := by
  rw [h.eq, ← h.length]
  simp

theorem SplitsAt.eraseIdx (h : SplitsAt xs i a pre post) : xs.eraseIdx i = pre ++ post := by
  rw [h.eq, ← h.length]
  simp [List.eraseIdx_append_of_length_le]

theorem SplitsAt.mem (h : SplitsAt xs i a pre post) : a ∈ xs := by
  simp [h.eq]

theorem splitsAt_of_getElem? (h : xs[i]? = some a) :
    SplitsAt xs i a (xs.take i) (xs.drop (i + 1)) := by
  obtain ⟨hi, rfl⟩ := List.getElem?_eq_some_iff.mp h
  refine ⟨?_, ?_⟩
  · rw [List.getElem_cons_drop, List.take_append_drop]
  · exact List.length_take_of_le (Nat.le_of_lt hi)

end Splits

theorem findFrame_some {m : SourceMirror} {p : Frame → Bool} {i : ℕ} {f : Frame}
    (h : m.findFrame p = some (i, f)) :
    p f = true ∧ ∃ pre post, SplitsAt m.frames i f pre post := by
  cases hi : m.frames.findIdx? p with
  | none => simp [findFrame, hi] at h
  | some j =>
    cases hj : m.frames[j]? with
    | none => simp [findFrame, hi, hj] at h
    | some g =>
      have hjg : j = i ∧ g = f := by simpa [findFrame, hi, hj] using h
      obtain ⟨rfl, rfl⟩ := hjg
      obtain ⟨hlt, hp, _⟩ := List.findIdx?_eq_some_iff_getElem.mp hi
      rw [List.getElem?_eq_getElem hlt] at hj
      exact ⟨Option.some.inj hj ▸ hp, _, _, splitsAt_of_getElem? (by
        rw [List.getElem?_eq_getElem hlt, hj])⟩

theorem findFrame_none {m : SourceMirror} {p : Frame → Bool} (h : m.findFrame p = none) :
    ∀ f ∈ m.frames, p f = false := by
  cases hi : m.frames.findIdx? p with
  | none => simpa using List.findIdx?_eq_none_iff.mp hi
  | some j =>
    obtain ⟨hlt, _, _⟩ := List.findIdx?_eq_some_iff_getElem.mp hi
    simp [findFrame, hi, List.getElem?_eq_getElem hlt] at h

/-! ### Editing one frame -/

/-- The frame at `i` becomes `f`, and goes back when it is done. -/
def settle (m : SourceMirror) (i : ℕ) (f : Frame) : SourceMirror :=
  { m with frames := m.frames.set i f }.returnIfDone i

theorem settle_eq {m : SourceMirror} {i : ℕ} {g : Frame} {pre post : List Frame}
    (h : SplitsAt m.frames i g pre post) (f : Frame) :
    m.settle i f =
      if f.holders ≠ 0 ∨ f.current then { m with frames := pre ++ f :: post }
      else { m with frames := pre ++ post }.call (.release f) := by
  have hset := h.set f
  have hget : (pre ++ f :: post)[i]? = some f := by
    rw [← h.length]
    simp
  have herase : (pre ++ f :: post).eraseIdx i = pre ++ post :=
    SplitsAt.eraseIdx ⟨rfl, h.length⟩
  simp only [settle, returnIfDone, hset, hget, herase]

theorem dropCurrent_none {m : SourceMirror} (h : m.currentFrame = none) : m.dropCurrent = m := by
  simp [dropCurrent, h]

theorem dropCurrent_some {m : SourceMirror} {i : ℕ} {f : Frame}
    (h : m.currentFrame = some (i, f)) :
    m.dropCurrent = m.settle i { f with current := false } := by
  simp [dropCurrent, h, settle]

/-- The frame after one of its holders released it. -/
def Frame.released (f : Frame) (fence : Option SyncFence) (merges : Bool) : Frame :=
  { f with releaseFence := mergeFence fence merges f.releaseFence, holders := f.holders - 1 }

/-- A release of an address no frame has, or of a frame nobody holds, does nothing. -/
theorem release_idle {m : SourceMirror} {b : AcquiredBuffer} {fence : Option SyncFence}
    {merges : Bool}
    (h : ∀ i f, m.findFrame (·.address = b.token) = some (i, f) → f.holders = 0) :
    m.release b fence merges = m := by
  cases hf : m.findFrame (·.address = b.token) with
  | none => simp [release, hf]
  | some r => simp [release, hf, h r.1 r.2 hf]

theorem release_some {m : SourceMirror} {b : AcquiredBuffer} {fence : Option SyncFence}
    {merges : Bool} {i : ℕ} {f : Frame} (hf : m.findFrame (·.address = b.token) = some (i, f))
    (h0 : f.holders ≠ 0) : m.release b fence merges = m.settle i (f.released fence merges) := by
  simp [release, hf, h0, settle, Frame.released]

/-! ### The accounts -/

@[simp] theorem call_frames (m : SourceMirror) (c : InnerCall) : (m.call c).frames = m.frames := rfl

@[simp] theorem call_consumers (m : SourceMirror) (c : InnerCall) :
    (m.call c).consumers = m.consumers := rfl

@[simp] theorem call_nextSeq (m : SourceMirror) (c : InnerCall) :
    (m.call c).nextSeq = m.nextSeq := rfl

@[simp] theorem acquired_call (m : SourceMirror) (c : InnerCall) :
    (m.call c).acquired = m.acquired ++ c.acquired?.toList := by
  cases h : c.acquired? <;> simp [call, acquired, h]

@[simp] theorem returned_call (m : SourceMirror) (c : InnerCall) :
    (m.call c).returned = m.returned ++ c.released?.toList := by
  cases h : c.released? <;> simp [call, returned, h]

/-- The same buffer of the source, at the same place. -/
structure SameFrame (f g : Frame) : Prop where
  address : f.address = g.address
  seq : f.seq = g.seq
  buffer : f.buffer = g.buffer

/-- The mirror's frames and those it gave back are the acquisitions below `nextSeq`, each once. -/
structure Accounts (m : SourceMirror) : Prop where
  serials : ((m.returned ++ m.frames).map (·.seq)).Perm (List.range' 1 (m.nextSeq - 1))
  own : ∀ f ∈ m.returned ++ m.frames, m.acquired[f.seq - 1]? = some f.buffer
  addresses : (m.frames.map (·.address)).Nodup
  newest : ∀ f ∈ m.frames, f.current = true → f.seq + 1 = m.nextSeq
  busy : ∀ f ∈ m.frames, f.current = true ∨ 0 < f.holders
  seen : ∀ c ∈ m.consumers, c.lastSeq < m.nextSeq

namespace Accounts

variable {m : SourceMirror}

theorem init : Accounts {} where
  serials := by simp [returned]
  own := by simp [returned]
  addresses := by simp
  newest := by simp
  busy := by simp
  seen := by simp

theorem nodup (h : Accounts m) : ((m.returned ++ m.frames).map (·.seq)).Nodup :=
  h.serials.nodup_iff.mpr List.nodup_range'

theorem bounds (h : Accounts m) {f : Frame} (hf : f ∈ m.returned ++ m.frames) :
    1 ≤ f.seq ∧ f.seq < m.nextSeq := by
  have hmem := h.serials.subset (List.mem_map.mpr ⟨f, hf, rfl⟩)
  rw [List.mem_range'_1] at hmem
  omega

theorem eq_of_seq (h : Accounts m) {f g : Frame} (hf : f ∈ m.frames) (hg : g ∈ m.frames)
    (hfg : f.seq = g.seq) : f = g := by
  have hn := h.nodup
  rw [List.map_append] at hn
  exact List.inj_on_of_nodup_map hn.of_append_right hf hg hfg

theorem eq_of_address (h : Accounts m) {f g : Frame} (hf : f ∈ m.frames) (hg : g ∈ m.frames)
    (hfg : f.address = g.address) : f = g :=
  List.inj_on_of_nodup_map h.addresses hf hg hfg

theorem not_returned (h : Accounts m) {f g : Frame} (hf : f ∈ m.returned) (hg : g ∈ m.frames) :
    f.seq ≠ g.seq := by
  have hn := h.nodup
  rw [List.map_append] at hn
  exact (List.nodup_append.mp hn).2.2 _ (List.mem_map.mpr ⟨f, hf, rfl⟩) _
    (List.mem_map.mpr ⟨g, hg, rfl⟩)

/-- Every acquisition below `nextSeq` is a frame, or was given back. -/
theorem exists_of_lt (h : Accounts m) {n : ℕ} (hn : 1 ≤ n) (hlt : n < m.nextSeq) :
    ∃ f ∈ m.returned ++ m.frames, f.seq = n := by
  have hmem : n ∈ List.range' 1 (m.nextSeq - 1) := by
    rw [List.mem_range'_1]
    omega
  obtain ⟨f, hf, hfn⟩ := List.mem_map.mp (h.serials.symm.subset hmem)
  exact ⟨f, hf, hfn⟩

/-- Editing a frame in place. -/
theorem replace (h : Accounts m) {i : ℕ} {f g : Frame} {pre post : List Frame}
    (hs : SplitsAt m.frames i g pre post) (hsame : SameFrame f g)
    (hcur : f.current = true → g.current = true) (hbusy : f.current = true ∨ 0 < f.holders) :
    Accounts { m with frames := pre ++ f :: post } := by
  obtain ⟨serials, own, addresses, newest, busy, seen⟩ := h
  rw [hs.eq] at serials own addresses newest busy
  refine ⟨?_, ?_, ?_, ?_, ?_, seen⟩
  · simpa [returned, hsame.seq] using serials
  · simp only [returned, acquired, List.mem_append, List.mem_cons] at own ⊢
    rintro x (hx | hx | rfl | hx)
    · exact own x (.inl hx)
    · exact own x (.inr (.inl hx))
    · rw [hsame.seq, hsame.buffer]
      exact own g (.inr (.inr (.inl rfl)))
    · exact own x (.inr (.inr (.inr hx)))
  · simpa [hsame.address] using addresses
  · simp only [List.mem_append, List.mem_cons] at newest ⊢
    rintro x (hx | rfl | hx) hc
    · exact newest x (.inl hx) hc
    · rw [hsame.seq]
      exact newest g (.inr (.inl rfl)) (hcur hc)
    · exact newest x (.inr (.inr hx)) hc
  · simp only [List.mem_append, List.mem_cons] at busy ⊢
    rintro x (hx | rfl | hx)
    · exact busy x (.inl hx)
    · exact hbusy
    · exact busy x (.inr (.inr hx))

/-- Giving a frame back. -/
theorem giveBack (h : Accounts m) {i : ℕ} {f g : Frame} {pre post : List Frame}
    (hs : SplitsAt m.frames i g pre post) (hsame : SameFrame f g) :
    Accounts ({ m with frames := pre ++ post }.call (.release f)) := by
  have hret : ({ m with frames := pre ++ post }.call (.release f)).returned =
      m.returned ++ [f] :=
    returned_call _ _
  have hacq : ({ m with frames := pre ++ post }.call (.release f)).acquired = m.acquired := by
    rw [acquired_call]
    exact List.append_nil _
  obtain ⟨serials, own, addresses, newest, busy, seen⟩ := h
  rw [hs.eq] at serials own addresses newest busy
  refine ⟨?_, ?_, ?_, ?_, ?_, seen⟩
  · have hperm : (m.returned ++ g :: (pre ++ post)).Perm (m.returned ++ (pre ++ g :: post)) :=
      List.perm_middle.symm.append_left m.returned
    have heq : (m.returned ++ [f] ++ (pre ++ post)).map (·.seq) =
        (m.returned ++ g :: (pre ++ post)).map (·.seq) := by
      simp [hsame.seq]
    rw [hret, call_frames, heq]
    exact (hperm.map _).trans serials
  · rw [hret, hacq, call_frames]
    intro x hx
    simp only [List.mem_append, List.mem_cons, List.not_mem_nil, or_false] at hx own
    rcases hx with (hx | rfl) | hx | hx
    · exact own x (.inl hx)
    · rw [hsame.seq, hsame.buffer]
      exact own g (.inr (.inr (.inl rfl)))
    · exact own x (.inr (.inl hx))
    · exact own x (.inr (.inr (.inr hx)))
  · have hsub : (pre ++ post).Sublist (pre ++ g :: post) :=
      (List.sublist_cons_self g post).append_left pre
    exact addresses.sublist (hsub.map _)
  · intro x hx
    exact newest x (by simp only [call_frames, List.mem_append, List.mem_cons] at hx ⊢; tauto)
  · intro x hx
    exact busy x (by simp only [call_frames, List.mem_append, List.mem_cons] at hx ⊢; tauto)

theorem settle (h : Accounts m) {i : ℕ} {f g : Frame} {pre post : List Frame}
    (hs : SplitsAt m.frames i g pre post) (hsame : SameFrame f g)
    (hcur : f.current = true → g.current = true) : Accounts (m.settle i f) := by
  rw [settle_eq hs]
  split
  next hd => exact h.replace hs hsame hcur (hd.symm.imp_right Nat.pos_of_ne_zero)
  next => exact h.giveBack hs hsame

/-- The accounts do not see the other fields. -/
theorem congr (h : Accounts m) {m' : SourceMirror} (hframes : m'.frames = m.frames)
    (hnext : m'.nextSeq = m.nextSeq) (hret : m'.returned = m.returned)
    (hacq : m'.acquired = m.acquired) (hseen : ∀ c ∈ m'.consumers, c.lastSeq < m.nextSeq) :
    Accounts m' := by
  refine ⟨?_, ?_, ?_, ?_, ?_, ?_⟩
  · rw [hret, hframes, hnext]
    exact h.serials
  · rw [hret, hframes, hacq]
    exact h.own
  · rw [hframes]
    exact h.addresses
  · rw [hframes, hnext]
    exact h.newest
  · rw [hframes]
    exact h.busy
  · rw [hnext]
    exact hseen

theorem call_acquire (h : Accounts m) (answer : Except Errc AcquiredBuffer) :
    Accounts (m.call (.acquire answer)) := by
  refine ⟨?_, ?_, h.addresses, h.newest, h.busy, h.seen⟩
  · rw [returned_call]
    simpa [InnerCall.released?] using h.serials
  · rw [returned_call, acquired_call, call_frames, InnerCall.released?, Option.toList_none,
      List.append_nil]
    intro f hf
    have hown := h.own f hf
    obtain ⟨hlt, -⟩ := List.getElem?_eq_some_iff.mp hown
    rw [List.getElem?_append_left hlt]
    exact hown

theorem dropCurrent (h : Accounts m) : Accounts m.dropCurrent := by
  cases hcur : m.currentFrame with
  | none =>
    rw [dropCurrent_none hcur]
    exact h
  | some r =>
    obtain ⟨_, pre, post, hs⟩ := findFrame_some hcur
    rw [dropCurrent_some hcur]
    exact h.settle hs ⟨rfl, rfl, rfl⟩ (by simp)

theorem release (h : Accounts m) (b : AcquiredBuffer) (fence : Option SyncFence)
    (merges : Bool) : Accounts (m.release b fence merges) := by
  by_cases hidle : ∀ i f, m.findFrame (·.address = b.token) = some (i, f) → f.holders = 0
  · rw [release_idle hidle]
    exact h
  · push Not at hidle
    obtain ⟨i, f, hf, h0⟩ := hidle
    obtain ⟨_, pre, post, hs⟩ := findFrame_some hf
    rw [release_some hf h0]
    exact h.settle hs ⟨rfl, rfl, rfl⟩ id

end Accounts

/-! ### The newest frame -/

theorem currentFrame_mem {m : SourceMirror} {i : ℕ} {f : Frame}
    (h : m.currentFrame = some (i, f)) : f ∈ m.frames ∧ f.current = true := by
  obtain ⟨hc, _, _, hs⟩ := findFrame_some h
  exact ⟨hs.mem, hc⟩

theorem Accounts.currentFrame_eq {m : SourceMirror} (h : Accounts m) {f : Frame}
    (hf : f ∈ m.frames) (hc : f.current = true) : ∃ i, m.currentFrame = some (i, f) := by
  cases hcur : m.currentFrame with
  | none =>
    have hno := findFrame_none hcur f hf
    simp [hc] at hno
  | some r =>
    obtain ⟨hg, hgc⟩ := currentFrame_mem hcur
    have hseq := h.newest f hf hc
    have hseq' := h.newest r.2 hg hgc
    exact ⟨r.1, by rw [h.eq_of_seq hf hg (by omega)]⟩

/-! ### The frames a call leaves -/

theorem SplitsAt.mem_rest {fs pre post : List Frame} {i : ℕ} {f x : Frame}
    (h : SplitsAt fs i f pre post) (hnd : fs.Nodup) : x ∈ pre ++ post ↔ x ∈ fs ∧ x ≠ f := by
  rw [h.eq, List.nodup_middle, List.nodup_cons] at hnd
  rw [h.eq]
  simp only [List.mem_append, List.mem_cons] at hnd ⊢
  constructor
  · intro hx
    exact ⟨hx.imp_right .inr, fun hxf => hnd.1 (hxf ▸ hx)⟩
  · rintro ⟨hx | hx | hx, hne⟩
    · exact .inl hx
    · exact absurd hx hne
    · exact .inr hx

theorem Accounts.nodup_frames {m : SourceMirror} (h : Accounts m) : m.frames.Nodup := by
  have hn := h.nodup
  rw [List.map_append] at hn
  exact hn.of_append_right.of_map

theorem mem_set {m : SourceMirror} (h : Accounts m) {i : ℕ} {f g x : Frame}
    {pre post : List Frame} (hs : SplitsAt m.frames i g pre post) :
    x ∈ m.frames.set i f ↔ (x ∈ m.frames ∧ x ≠ g) ∨ x = f := by
  rw [hs.set f, ← hs.mem_rest h.nodup_frames]
  simp only [List.mem_append, List.mem_cons]
  tauto

theorem mem_settle {m : SourceMirror} (h : Accounts m) {i : ℕ} {f g x : Frame}
    {pre post : List Frame} (hs : SplitsAt m.frames i g pre post) :
    x ∈ (m.settle i f).frames ↔
      (x ∈ m.frames ∧ x ≠ g) ∨ (x = f ∧ (f.holders ≠ 0 ∨ f.current = true)) := by
  rw [settle_eq hs]
  split
  next hd =>
    rw [← hs.set f, mem_set h hs]
    simp [hd]
  next hd =>
    rw [call_frames, hs.mem_rest h.nodup_frames]
    simp [hd]

theorem settle_rest (m : SourceMirror) (i : ℕ) (f : Frame) :
    (m.settle i f).consumers = m.consumers ∧ (m.settle i f).nextSeq = m.nextSeq ∧
      (m.settle i f).acquired = m.acquired := by
  unfold settle returnIfDone
  split
  · exact ⟨rfl, rfl, rfl⟩
  · split
    · exact ⟨rfl, rfl, rfl⟩
    · refine ⟨rfl, rfl, ?_⟩
      rw [acquired_call]
      exact List.append_nil _

theorem dropCurrent_rest (m : SourceMirror) :
    m.dropCurrent.consumers = m.consumers ∧ m.dropCurrent.nextSeq = m.nextSeq ∧
      m.dropCurrent.acquired = m.acquired := by
  cases hcur : m.currentFrame with
  | none =>
    rw [dropCurrent_none hcur]
    exact ⟨rfl, rfl, rfl⟩
  | some r =>
    rw [dropCurrent_some hcur]
    exact settle_rest m _ _

@[simp] theorem dropCurrent_consumers (m : SourceMirror) :
    m.dropCurrent.consumers = m.consumers :=
  (dropCurrent_rest m).1

@[simp] theorem dropCurrent_nextSeq (m : SourceMirror) : m.dropCurrent.nextSeq = m.nextSeq :=
  (dropCurrent_rest m).2.1

@[simp] theorem dropCurrent_acquired (m : SourceMirror) :
    m.dropCurrent.acquired = m.acquired :=
  (dropCurrent_rest m).2.2

/-- Between `m` and `m'` frames were only demoted, or given back unheld. -/
structure Keeps (m m' : SourceMirror) : Prop where
  old : ∀ x ∈ m'.frames, ∃ g ∈ m.frames, SameFrame x g ∧ x.holders = g.holders
  held : ∀ g ∈ m.frames, g.holders ≠ 0 → ∃ x ∈ m'.frames, SameFrame x g ∧ x.holders = g.holders

theorem dropCurrent_keeps {m : SourceMirror} (h : Accounts m) : Keeps m m.dropCurrent := by
  cases hcur : m.currentFrame with
  | none =>
    rw [dropCurrent_none hcur]
    exact ⟨fun x hx => ⟨x, hx, ⟨rfl, rfl, rfl⟩, rfl⟩, fun g hg _ => ⟨g, hg, ⟨rfl, rfl, rfl⟩, rfl⟩⟩
  | some r =>
    obtain ⟨i, f⟩ := r
    obtain ⟨_, pre, post, hs⟩ := findFrame_some hcur
    rw [dropCurrent_some hcur]
    refine ⟨?_, ?_⟩
    · intro x hx
      rcases (mem_settle h hs).mp hx with ⟨hx, -⟩ | ⟨rfl, -⟩
      · exact ⟨x, hx, ⟨rfl, rfl, rfl⟩, rfl⟩
      · exact ⟨f, hs.mem, ⟨rfl, rfl, rfl⟩, rfl⟩
    · intro g hg h0
      by_cases hgf : g = f
      · subst hgf
        exact ⟨_, (mem_settle h hs).mpr (.inr ⟨rfl, .inl h0⟩), ⟨rfl, rfl, rfl⟩, rfl⟩
      · exact ⟨g, (mem_settle h hs).mpr (.inl ⟨hg, hgf⟩), ⟨rfl, rfl, rfl⟩, rfl⟩

theorem dropCurrent_current {m : SourceMirror} (h : Accounts m) :
    ∀ x ∈ m.dropCurrent.frames, x.current = false := by
  cases hcur : m.currentFrame with
  | none =>
    rw [dropCurrent_none hcur]
    exact findFrame_none hcur
  | some r =>
    obtain ⟨i, f⟩ := r
    obtain ⟨hc, pre, post, hs⟩ := findFrame_some hcur
    rw [dropCurrent_some hcur]
    intro x hx
    rcases (mem_settle h hs).mp hx with ⟨hx, hne⟩ | ⟨rfl, -⟩
    · by_contra hxc
      have hseq := h.newest x hx (by simpa using hxc)
      have hseq' := h.newest f hs.mem hc
      exact hne (h.eq_of_seq hx hs.mem (by omega))
    · rfl

/-! ### Acquiring -/

/-- The mirror after its source was asked and answered with a buffer. -/
def fetch (alloc : Allocation) (m : SourceMirror) (b : AcquiredBuffer) : SourceMirror :=
  (m.call (.acquire (.ok b))).dropCurrent.addFrame alloc b

/-- The frame `fetch` adds. -/
def fetched (alloc : Allocation) (m : SourceMirror) (b : AcquiredBuffer) : Frame :=
  { address := alloc.address m.nextSeq (m.call (.acquire (.ok b))).dropCurrent.frames
    seq := m.nextSeq
    buffer := b
    current := true }

theorem fetch_frames (alloc : Allocation) (m : SourceMirror) (b : AcquiredBuffer) :
    (m.fetch alloc b).frames =
      (m.call (.acquire (.ok b))).dropCurrent.frames ++ [m.fetched alloc b] := by
  simp [fetch, addFrame, fetched]

@[simp] theorem fetch_consumers (alloc : Allocation) (m : SourceMirror) (b : AcquiredBuffer) :
    (m.fetch alloc b).consumers = m.consumers := by
  simp [fetch, addFrame]

@[simp] theorem fetch_nextSeq (alloc : Allocation) (m : SourceMirror) (b : AcquiredBuffer) :
    (m.fetch alloc b).nextSeq = m.nextSeq + 1 := by
  simp [fetch, addFrame]

@[simp] theorem fetch_acquired (alloc : Allocation) (m : SourceMirror) (b : AcquiredBuffer) :
    (m.fetch alloc b).acquired = m.acquired ++ [b] := by
  show (m.call (.acquire (.ok b))).dropCurrent.acquired = _
  simp [InnerCall.acquired?, Except.toOption]

theorem fetch_accounts {m : SourceMirror} (h : Accounts m)
    (hcount : m.acquired.length + 1 = m.nextSeq) (alloc : Allocation) (b : AcquiredBuffer) :
    Accounts (m.fetch alloc b) := by
  have hd := (h.call_acquire (.ok b)).dropCurrent
  have hret : (m.fetch alloc b).returned = (m.call (.acquire (.ok b))).dropCurrent.returned := rfl
  have hnext : (m.call (.acquire (.ok b))).dropCurrent.nextSeq = m.nextSeq := by simp
  have hacq : (m.fetch alloc b).acquired = (m.call (.acquire (.ok b))).dropCurrent.acquired := rfl
  refine ⟨?_, ?_, ?_, ?_, ?_, ?_⟩
  · have hserials := hd.serials
    rw [hnext] at hserials
    have hsplit : List.range' 1 (m.nextSeq + 1 - 1) =
        List.range' 1 (m.nextSeq - 1) ++ [m.nextSeq] := by
      have hn : m.nextSeq + 1 - 1 = m.nextSeq - 1 + 1 := by omega
      rw [hn, List.range'_1_concat]
      congr 2
      omega
    rw [hret, fetch_frames, ← List.append_assoc, List.map_append, fetch_nextSeq, hsplit]
    exact hserials.append_right _
  · rw [hret, hacq, fetch_frames]
    intro f hf
    simp only [List.mem_append, List.mem_singleton] at hf
    rcases hf with hf | hf | rfl
    · exact hd.own f (List.mem_append_left _ hf)
    · exact hd.own f (List.mem_append_right _ hf)
    · simp [fetched, InnerCall.acquired?, Except.toOption, ← hcount]
  · rw [fetch_frames, List.map_append, List.map_singleton]
    exact List.nodup_append.mpr ⟨hd.addresses, List.nodup_singleton _, fun a ha b' hb => by
      rw [List.mem_singleton.mp hb]
      rintro rfl
      exact alloc.fresh _ _ ha⟩
  · rw [fetch_frames, fetch_nextSeq]
    intro f hf hc
    rcases List.mem_append.mp hf with hf | hf
    · simp [dropCurrent_current (h.call_acquire (.ok b)) f hf] at hc
    · rw [List.mem_singleton.mp hf]
      rfl
  · rw [fetch_frames]
    intro f hf
    rcases List.mem_append.mp hf with hf | hf
    · exact hd.busy f hf
    · rw [List.mem_singleton.mp hf]
      exact .inl rfl
  · rw [fetch_consumers, fetch_nextSeq]
    exact fun c hc => Nat.lt_succ_of_lt (h.seen c hc)

/-- The mirror whose newest frame `acquire` hands to `c`, unless the source has none. -/
def next (alloc : Allocation) (m : SourceMirror) (c : Consumer)
    (answer : Except Errc AcquiredBuffer) : Except Errc SourceMirror :=
  if m.wantsNew c then answer.map (m.fetch alloc) else .ok m

theorem next_cases {alloc : Allocation} {m m' : SourceMirror} {c : Consumer}
    {answer : Except Errc AcquiredBuffer} (hm : m.next alloc c answer = .ok m') :
    (m.wantsNew c = false ∧ m' = m) ∨
      ∃ b, m.wantsNew c = true ∧ answer = .ok b ∧ m' = m.fetch alloc b := by
  unfold next at hm
  split at hm
  next hw =>
    cases answer with
    | error e => simp [Except.map] at hm
    | ok b => exact .inr ⟨b, hw, rfl, by simpa [Except.map] using hm.symm⟩
  next hw => exact .inl ⟨by simpa using hw, by simpa using hm.symm⟩

theorem acquire_of_next {alloc : Allocation} {m m' : SourceMirror} {id : ℕ} {c : Consumer}
    {answer : Except Errc AcquiredBuffer} {dup : Except Errc Unit} (hc : m.consumers[id]? = some c)
    (hm : m.next alloc c answer = .ok m') :
    m.acquire alloc id answer dup = m'.give dup id c := by
  rcases next_cases hm with ⟨hw, rfl⟩ | ⟨b, hw, rfl, rfl⟩
  · simp [acquire, hc, hw]
  · simp [acquire, hc, hw, fetch]

theorem acquire_refused {alloc : Allocation} {m : SourceMirror} {id : ℕ} {c : Consumer}
    {answer : Except Errc AcquiredBuffer} {e : Errc} (hc : m.consumers[id]? = some c)
    (hm : m.next alloc c answer = .error e) (dup : Except Errc Unit) :
    m.acquire alloc id answer dup = (m.call (.acquire answer), .error e) ∧ answer = .error e := by
  unfold next at hm
  by_cases hw : m.wantsNew c = true
  · cases answer with
    | error e' =>
      obtain rfl : e' = e := by simpa [hw, Except.map] using hm
      simp [acquire, hc, hw]
    | ok b => simp [hw, Except.map] at hm
  · simp [hw] at hm

theorem acquire_unknown (alloc : Allocation) {m : SourceMirror} {id : ℕ}
    (hc : m.consumers[id]? = none) (answer : Except Errc AcquiredBuffer)
    (dup : Except Errc Unit) :
    m.acquire alloc id answer dup = (m, .error .invalidArgument) := by
  simp [acquire, hc]

/-- The frame `acquire` is about to hand out. -/
structure NextSpec (m : SourceMirror) (c : Consumer) (m' : SourceMirror) (f : Frame) : Prop where
  accounts : Accounts m'
  counted : m'.acquired.length + 1 = m'.nextSeq
  consumers : m'.consumers = m.consumers
  grows : m.acquired <+: m'.acquired
  current : ∃ i, m'.currentFrame = some (i, f)
  newer : c.lastSeq < f.seq

theorem next_spec {m : SourceMirror} (h : Accounts m)
    (hcount : m.acquired.length + 1 = m.nextSeq) {c : Consumer} (hc : c ∈ m.consumers)
    {alloc : Allocation} {answer : Except Errc AcquiredBuffer} {m' : SourceMirror}
    (hm : m.next alloc c answer = .ok m') :
    ∃ f, NextSpec m c m' f := by
  rcases next_cases hm with ⟨hw, rfl⟩ | ⟨b, -, rfl, rfl⟩
  · cases hcur : m'.currentFrame with
    | none => simp [wantsNew, hcur] at hw
    | some r =>
      have hlt : c.lastSeq < r.2.seq := by simpa [wantsNew, hcur] using hw
      exact ⟨r.2, h, hcount, rfl, List.prefix_rfl, ⟨r.1, hcur⟩, hlt⟩
  · have ha := fetch_accounts h hcount alloc b
    have hmem : m.fetched alloc b ∈ (m.fetch alloc b).frames := by
      simp [fetch_frames]
    exact ⟨m.fetched alloc b, ha, by simp [hcount], by simp, by simp,
      ha.currentFrame_eq hmem rfl, h.seen c hc⟩

/-! ### Calls that ask for no frame -/

def lastSeqs (m : SourceMirror) : List ℕ :=
  m.consumers.map (·.lastSeq)

/-- A call that keeps the accounts, the acquisitions and what each consumer took last. -/
structure Silent (m m' : SourceMirror) : Prop where
  accounts : Accounts m'
  nextSeq : m'.nextSeq = m.nextSeq
  acquired : m'.acquired = m.acquired
  lastSeqs : m'.lastSeqs = m.lastSeqs

namespace Silent

theorem refl {m : SourceMirror} (h : Accounts m) : Silent m m :=
  ⟨h, rfl, rfl, rfl⟩

theorem trans {m m' m'' : SourceMirror} (h : Silent m m') (h' : Silent m' m'') :
    Silent m m'' :=
  ⟨h'.accounts, h'.nextSeq.trans h.nextSeq, h'.acquired.trans h.acquired,
    h'.lastSeqs.trans h.lastSeqs⟩

/-- A change of fields the accounts do not see. -/
theorem of_eq {m m' : SourceMirror} (h : Accounts m) (hframes : m'.frames = m.frames)
    (hnext : m'.nextSeq = m.nextSeq) (hret : m'.returned = m.returned)
    (hacq : m'.acquired = m.acquired) (hlast : m'.lastSeqs = m.lastSeqs) : Silent m m' := by
  refine ⟨h.congr hframes hnext hret hacq ?_, hnext, hacq, hlast⟩
  intro c hc
  have hmem : c.lastSeq ∈ m.lastSeqs := hlast ▸ List.mem_map.mpr ⟨c, hc, rfl⟩
  obtain ⟨c', hc', heq⟩ := List.mem_map.mp hmem
  exact heq ▸ h.seen c' hc'

end Silent

theorem lastSeqs_modify (m : SourceMirror) (id : ℕ) {u : Consumer → Consumer}
    (hu : ∀ c, (u c).lastSeq = c.lastSeq) :
    (m.consumers.modify id u).map (·.lastSeq) = m.lastSeqs := by
  apply List.ext_getElem?
  intro j
  by_cases hj : id = j <;> cases hc : m.consumers[j]? <;>
    simp [lastSeqs, hj, hc, hu]

theorem silent_dropCurrent {m : SourceMirror} (h : Accounts m) : Silent m m.dropCurrent :=
  ⟨h.dropCurrent, by simp, by simp, by simp [lastSeqs]⟩

theorem silent_release {m : SourceMirror} (h : Accounts m) (b : AcquiredBuffer)
    (fence : Option SyncFence) (merges : Bool) : Silent m (m.release b fence merges) := by
  by_cases hidle : ∀ i f, m.findFrame (·.address = b.token) = some (i, f) → f.holders = 0
  · rw [release_idle hidle]
    exact Silent.refl h
  · have hacc := h.release b fence merges
    push Not at hidle
    obtain ⟨i, f, hf, h0⟩ := hidle
    rw [release_some hf h0] at hacc ⊢
    obtain ⟨hcons, hnext, hacq⟩ := settle_rest m i (f.released fence merges)
    exact ⟨hacc, hnext, hacq, by simp [lastSeqs, hcons]⟩

theorem silent_call {m : SourceMirror} (h : Accounts m) {c : InnerCall}
    (hacq : c.acquired? = none) (hrel : c.released? = none) : Silent m (m.call c) :=
  Silent.of_eq h rfl rfl (by simp [hrel]) (by simp [hacq]) rfl

theorem silent_retire {m : SourceMirror} (h : Accounts m) (id : ℕ) : Silent m (m.retire id) := by
  let marked : SourceMirror :=
    { m with consumers := m.consumers.modify id (fun c => { c with retired := true }) }
  have hmarked : Silent m marked :=
    Silent.of_eq h rfl rfl rfl rfl (lastSeqs_modify m id fun _ => rfl)
  show Silent m (if marked.allRetired ∧ ¬ marked.innerRetired then _ else marked)
  split
  next =>
    let retired : SourceMirror := { marked with innerRetired := true }
    have hretired : Silent marked retired := Silent.of_eq hmarked.accounts rfl rfl rfl rfl rfl
    have hdrop := silent_dropCurrent hretired.accounts
    exact ((hmarked.trans hretired).trans hdrop).trans (silent_call hdrop.accounts rfl rfl)
  next => exact hmarked

theorem silent_drop {m : SourceMirror} (h : Accounts m) (id : ℕ) : Silent m (m.drop id) :=
  Silent.of_eq h rfl rfl rfl rfl (lastSeqs_modify m id fun _ => rfl)

theorem silent_paused {m : SourceMirror} (h : Accounts m) : Silent m m.onSessionPaused := by
  unfold onSessionPaused
  split
  next => exact Silent.refl h
  next =>
    let paused : SourceMirror := { m with paused := true }
    have hpaused : Silent m paused := Silent.of_eq h rfl rfl rfl rfl rfl
    have hdrop := silent_dropCurrent hpaused.accounts
    exact (hpaused.trans hdrop).trans (silent_call hdrop.accounts rfl rfl)

theorem silent_resumed {m : SourceMirror} (h : Accounts m) (answer : Except Errc Unit) :
    Silent m (m.onSessionResumed answer) := by
  unfold onSessionResumed
  split
  next =>
    let resumed : SourceMirror := { m with paused := false, resumeResult := answer }
    have hresumed : Silent m resumed := Silent.of_eq h rfl rfl rfl rfl rfl
    exact hresumed.trans (silent_call hresumed.accounts rfl rfl)
  next => exact Silent.refl h

theorem filterMap_released (fs : List Frame) :
    (fs.map InnerCall.release).filterMap (·.released?) = fs := by
  induction fs with
  | nil => rfl
  | cons f fs ih => simp [InnerCall.released?]

theorem returned_destroy (m : SourceMirror) :
    m.destroy.returned = m.returned ++ m.frames.map (fun f => { f with releaseFence := none }) := by
  have hmap : m.frames.map (fun f => InnerCall.release { f with releaseFence := none }) =
      (m.frames.map (fun f => { f with releaseFence := none })).map InnerCall.release := by
    rw [List.map_map]
    rfl
  cases hr : m.innerRetired <;>
    simp only [destroy, returned, hr, hmap, List.filterMap_append, filterMap_released] <;>
      simp [InnerCall.released?]

theorem acquired_destroy (m : SourceMirror) : m.destroy.acquired = m.acquired := by
  cases hr : m.innerRetired <;> simp [destroy, acquired, hr, InnerCall.acquired?]

theorem silent_destroy {m : SourceMirror} (h : Accounts m) : Silent m m.destroy := by
  have hframes : m.destroy.frames = [] := rfl
  have hnext : m.destroy.nextSeq = m.nextSeq := rfl
  refine ⟨⟨?_, ?_, ?_, ?_, ?_, h.seen⟩, rfl, acquired_destroy m, rfl⟩
  · have hserials := h.serials
    rw [returned_destroy, hframes, hnext]
    simpa [Function.comp_def] using hserials
  · rw [returned_destroy, acquired_destroy, hframes]
    intro f hf
    simp only [List.append_nil, List.mem_append, List.mem_map] at hf
    rcases hf with hf | ⟨g, hg, rfl⟩
    · exact h.own f (List.mem_append_left _ hf)
    · exact h.own g (List.mem_append_right _ hg)
  all_goals simp [hframes]

/-! ### Handing out -/

/-- The fence of the buffer, if it has one, is duplicated. -/
def Fenced (dup : Except Errc Unit) (b : AcquiredBuffer) : Prop :=
  b.acquireFence = none ∨ dup = .ok ()

instance (dup : Except Errc Unit) (b : AcquiredBuffer) : Decidable (Fenced dup b) :=
  inferInstanceAs (Decidable (_ ∨ _))

/-- What a consumer gets to see of a frame. -/
structure HandOutSpec (f : Frame) (c : Consumer) (out : AcquiredBuffer) : Prop where
  fbId : out.fbId = f.buffer.fbId
  token : out.token = f.address
  damage : out.damage = if c.lastSeq + 1 = f.seq then f.buffer.damage else []

theorem handOut_ok {dup : Except Errc Unit} {f : Frame} (hf : Fenced dup f.buffer)
    (c : Consumer) : ∃ out, handOut dup f c = .ok out ∧ HandOutSpec f c out := by
  have hout : handOut dup f c = .ok ⟨f.buffer.fbId, f.address, f.buffer.acquireFence,
      if c.lastSeq + 1 = f.seq then f.buffer.damage else []⟩ := by
    rcases hf with hf | rfl
    · simp [handOut, hf]
    · cases h : f.buffer.acquireFence <;> simp [handOut, h]
  exact ⟨_, hout, ⟨rfl, rfl, rfl⟩⟩

theorem handOut_error {dup : Except Errc Unit} {f : Frame} (hf : ¬ Fenced dup f.buffer)
    (c : Consumer) : ∃ e, handOut dup f c = .error e := by
  rw [Fenced, not_or] at hf
  cases h : f.buffer.acquireFence with
  | none => exact absurd h hf.1
  | some x =>
    cases dup with
    | ok u => exact absurd rfl hf.2
    | error e => exact ⟨e, by simp [handOut, h]⟩

/-- The mirror after the frame at `i` was handed to the consumer `id`. -/
def handed (m : SourceMirror) (id : ℕ) (c : Consumer) (i : ℕ) (f : Frame) : SourceMirror :=
  { m with
    frames := m.frames.set i { f with holders := f.holders + 1 }
    consumers := m.consumers.set id { c with lastSeq := f.seq } }

theorem give_ok {m : SourceMirror} {dup : Except Errc Unit} {id : ℕ} {c : Consumer} {i : ℕ}
    {f : Frame} {out : AcquiredBuffer} (hcur : m.currentFrame = some (i, f))
    (hout : handOut dup f c = .ok out) : m.give dup id c = (m.handed id c i f, .ok out) := by
  simp [give, hcur, hout, handed]

theorem give_error {m : SourceMirror} {dup : Except Errc Unit} {id : ℕ} {c : Consumer} {i : ℕ}
    {f : Frame} {e : Errc} (hcur : m.currentFrame = some (i, f))
    (hout : handOut dup f c = .error e) : m.give dup id c = (m, .error e) := by
  simp [give, hcur, hout]

theorem handed_accounts {m : SourceMirror} (h : Accounts m) (id : ℕ) (c : Consumer) {i : ℕ}
    {f : Frame} (hcur : m.currentFrame = some (i, f)) : Accounts (m.handed id c i f) := by
  obtain ⟨hc, pre, post, hs⟩ := findFrame_some hcur
  have hframes := h.replace (f := { f with holders := f.holders + 1 }) hs ⟨rfl, rfl, rfl⟩
    (fun _ => hc) (.inr (Nat.succ_pos _))
  refine hframes.congr (hs.set _) rfl rfl rfl ?_
  intro x hx
  rcases List.mem_or_eq_of_mem_set hx with hx | rfl
  · exact h.seen x hx
  · exact (h.bounds (List.mem_append_right _ hs.mem)).2

theorem frameAt_eq {m : SourceMirror} (h : Accounts m) {f : Frame} (hf : f ∈ m.frames) :
    m.frameAt f.address = f.seq := by
  cases hfind : m.frames.find? (·.address = f.address) with
  | none =>
    have hno := List.find?_eq_none.mp hfind f hf
    simp at hno
  | some g =>
    have hg := List.mem_of_find?_eq_some hfind
    have ha : g.address = f.address := by simpa using List.find?_some hfind
    simp [frameAt, hfind, h.eq_of_address hg hf ha]

theorem handed_frame {m : SourceMirror} (h : Accounts m) (id : ℕ) (c : Consumer) {i : ℕ}
    {f : Frame} (hcur : m.currentFrame = some (i, f)) :
    { f with holders := f.holders + 1 } ∈ (m.handed id c i f).frames := by
  obtain ⟨_, pre, post, hs⟩ := findFrame_some hcur
  exact (mem_set h hs).mpr (.inr rfl)

theorem frameAt_handed {m : SourceMirror} (h : Accounts m) (id : ℕ) (c : Consumer) {i : ℕ}
    {f : Frame} (hcur : m.currentFrame = some (i, f)) :
    (m.handed id c i f).frameAt f.address = f.seq :=
  frameAt_eq (f := { f with holders := f.holders + 1 }) (handed_accounts h id c hcur)
    (handed_frame h id c hcur)

end DrmCxx.Scene.SourceMirror
