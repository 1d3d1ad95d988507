import DrmCxx.Lib.Run
import DrmCxx.Scene.ExternalDmaBufRing
import DrmCxx.Scene.InFlight
import DrmCxx.Verification.Ring.Equations
import Mathlib.Tactic.Ring

/-!
# An externally fed layer on screen

A ring feeding one layer of a scene whose commits are all accepted: the buffers two commits deep
in the deferred-release ring, what each commit shows, and when `on_release` fires.
-/

namespace DrmCxx.Scene

open List Lib RingPresenter

/-- The frame a commit shows. -/
structure ShownFrame where
  slot : SlotKey
  token : Token
  deriving DecidableEq, Repr

/-- An in-flight acquisition: the commit that made it, and the commit whose OUT_FENCE it carries. -/
structure RingAcquisition where
  buffer : AcquiredBuffer
  commit : ℕ
  releaseFence : Option ℕ := none
  deriving DecidableEq, Repr

/-- `on_release(slot)`, fired while commit `during` is finalized, for the acquisition of commit
`frame`. -/
structure Fire where
  slot : SlotKey
  during : ℕ
  frame : ℕ
  fence : Option ℕ
  deriving DecidableEq, Repr

structure Display where
  ring : ExternalDmaBufRing
  inFlight : InFlight RingAcquisition := {}
  /-- What each commit shows, oldest first. -/
  shown : List (Option ShownFrame) := []
  fired : List Fire := []
  deriving DecidableEq, Repr

inductive DisplayEvent
  | submit (slot : ℕ) (fence : Option SyncFence) (damage : List DamageRect)
  /-- An accepted commit, with an OUT_FENCE or without. -/
  | commit (wait : FenceWait) (outFence : Bool)

namespace Display

def init (slots : List FbId) (fenceDeadline : Option ℕ) : Display :=
  { ring := .create slots fenceDeadline }

/-- The frame an acquired buffer shows. -/
def frameOf (r : ExternalDmaBufRing) (b : AcquiredBuffer) : Option ShownFrame :=
  r.presenter.scanningKey.map (⟨·, b.token⟩)

/-- `release_all` over the ring's own acquisitions while commit `during` is finalized. -/
def releaseAll (during : ℕ) :
    ExternalDmaBufRing → List RingAcquisition → ExternalDmaBufRing × List Fire
  | r, [] => (r, [])
  | r, a :: as =>
    let (r', slot) := r.release a.buffer
    let (r'', fired) := releaseAll during r' as
    (r'', slot.toList.map (⟨·, during, a.commit, a.releaseFence⟩) ++ fired)

/-- `finalize_frame` stamps the commit's OUT_FENCE on the buffers the commit displaces. -/
def stamp (commit : ℕ) (outFence : Bool) (a : RingAcquisition) : RingAcquisition :=
  if outFence then { a with releaseFence := some commit } else a

def step (ptr : PtrWidth) (t : Display) : DisplayEvent → Display
  | .submit slot fence damage => { t with ring := t.ring.submit slot fence damage }
  | .commit wait outFence =>
    let n := t.shown.length
    let (ring, acquired) := t.ring.acquire ptr wait
    let (ring', fired) := releaseAll n ring t.inFlight.prevPrev
    { ring := ring'
      inFlight := t.inFlight.rotate (stamp n outFence)
        (acquired.toList.map (⟨·, n, none⟩))
      shown := t.shown ++ [acquired.bind (frameOf ring)]
      fired := t.fired ++ fired }

/-! ### When a release is safe -/

def slotAt (shown : List (Option ShownFrame)) (i : ℕ) : Option SlotKey :=
  shown[i]?.join.map (·.slot)

/-- Commit `d` is the first after commit `i` to show a different buffer. -/
def FirstDifferent (shown : List (Option ShownFrame)) (i d : ℕ) : Prop :=
  i < d ∧ d < shown.length ∧ slotAt shown d ≠ slotAt shown i ∧
    ∀ m, i < m → m < d → slotAt shown m = slotAt shown i

/-- The signal comes with a commit after the displacing one, or carries its OUT_FENCE. -/
def Safe (shown : List (Option ShownFrame)) (f : Fire) : Prop :=
  slotAt shown f.frame = some f.slot ∧
    ∃ d, FirstDifferent shown f.frame d ∧ (d + 1 ≤ f.during ∨ f.fence = some d)

/-- No `on_release` fired while its buffer was on screen. -/
def NeverEarly (t : Display) : Prop :=
  ∀ f ∈ t.fired, Safe t.shown f

def current (t : Display) : Option ShownFrame :=
  t.shown.getLast?.join

def previous (t : Display) : Option ShownFrame :=
  t.shown.dropLast.getLast?.join

/-- The condition on a commit: if the last two commits showed one slot, they showed one frame,
and no fresh frame is ready to displace it. -/
def StepOk (t : Display) : DisplayEvent → Prop
  | .submit _ _ _ => True
  | .commit wait _ => ∀ a ∈ t.previous, ∀ b ∈ t.current, a.slot = b.slot →
      a.token = b.token ∧ t.ring.presenter.freshReady wait = false

/-! ### What a commit acquires -/

/-- The ring scans out `f` under the live token. -/
structure Scanning (r : ExternalDmaBufRing) (f : ShownFrame) : Prop where
  key : r.presenter.scanningKey = some f.slot
  token : r.presenter.scanningToken = f.token
  next : r.presenter.nextToken = f.token
  token_ne_zero : f.token ≠ 0

/-- Every slot has a framebuffer, and the pending one is in range. -/
structure Imported (r : ExternalDmaBufRing) : Prop where
  fb_ne_zero : ∀ fb ∈ r.slots, fb ≠ 0
  pending_lt : ∀ key ∈ r.presenter.pendingKey, key < r.slots.length
  scanning_lt : ∀ key ∈ r.presenter.scanningKey, key < r.slots.length

theorem slotFb_ne_zero {r : ExternalDmaBufRing} (h : Imported r) {key : SlotKey}
    (hkey : key < r.slots.length) : r.slotFb key ≠ 0 := by
  have hget : r.slotFb key = r.slots[key] := by
    simp [ExternalDmaBufRing.slotFb, hkey]
  rw [hget]
  exact h.fb_ne_zero _ (List.getElem_mem hkey)

def entry (f : ShownFrame) : Outstanding :=
  ⟨f.token, f.slot⟩

/-- A commit of an imported ring shows a fresh frame under the next token, holds the scanning
frame, or has nothing to show. -/
theorem acquire_spec (ptr : PtrWidth) (wait : FenceWait) {r : ExternalDmaBufRing}
    (himp : Imported r) :
    (r.presenter.freshReady wait = true ∧ ∃ c b,
      (r.acquire ptr wait).2 = some b ∧ b.token = c.token ∧
      c.token = advanceToken ptr r.presenter.nextToken ∧
      Scanning (r.acquire ptr wait).1 c ∧ Imported (r.acquire ptr wait).1 ∧
      (r.acquire ptr wait).1.presenter.outstanding = r.presenter.outstanding ++ [entry c]) ∨
    (r.presenter.freshReady wait = false ∧ Imported (r.acquire ptr wait).1 ∧
      (r.acquire ptr wait).1.presenter.scanningKey = r.presenter.scanningKey ∧
      (r.acquire ptr wait).1.presenter.scanningToken = r.presenter.scanningToken ∧
      (r.acquire ptr wait).1.presenter.nextToken = r.presenter.nextToken ∧
      (r.acquire ptr wait).1.presenter.outstanding = r.presenter.outstanding ∧
      (r.presenter.scanningKey = none → (r.acquire ptr wait).2 = none) ∧
      ∀ key, r.presenter.scanningKey = some key → ∃ b, (r.acquire ptr wait).2 = some b ∧
        b.token = r.presenter.scanningToken) := by
  rcases acquire_cases ptr wait r.presenter with
    ⟨hready, key, fence, damage, hpend, hacq, hpend', hkey, hnext, htoken, hout⟩ |
    ⟨hready, hacq, hpend', hkey, hnext, htoken, hout⟩
  · refine .inl ⟨hready, ⟨key, advanceToken ptr r.presenter.nextToken⟩,
      ⟨r.slotFb key, advanceToken ptr r.presenter.nextToken, fence, damage⟩, ?_, rfl, rfl, ?_⟩
    · simp [ExternalDmaBufRing.acquire, hacq, ExternalDmaBufRing.slotFb]
    · have hring : (r.acquire ptr wait).1 =
          { r with presenter := (r.presenter.acquire ptr wait).1 } := by
        simp [ExternalDmaBufRing.acquire, hacq]
      rw [hring]
      refine ⟨⟨hkey, htoken, hnext, advanceToken_ne_zero ptr _⟩,
        ⟨himp.fb_ne_zero, by simp [hpend'], ?_⟩, hout⟩
      intro k hk
      rw [hkey] at hk
      obtain rfl := Option.some.inj hk
      exact himp.pending_lt key (by simp [hpend])
  · have hring : (r.acquire ptr wait).1 =
        { r with presenter := (r.presenter.acquire ptr wait).1 } := by
      cases hscan : r.presenter.scanningKey <;>
        simp [ExternalDmaBufRing.acquire, hacq, RingPresenter.hold, hscan]
    refine .inr ⟨hready, ?_, ?_⟩
    · rw [hring]
      refine ⟨himp.fb_ne_zero, by simp [hpend'], ?_⟩
      simpa [hkey] using himp.scanning_lt
    · rw [hring]
      refine ⟨hkey, htoken, hnext, hout, ?_, ?_⟩
      · intro hscan
        simp [ExternalDmaBufRing.acquire, hacq, hold_of_idle hscan]
      · intro key hscan
        have hlt := himp.scanning_lt key (by simp [hscan])
        have hfb := slotFb_ne_zero himp hlt
        refine ⟨⟨r.slotFb key, r.presenter.scanningToken, none, []⟩, ?_, rfl⟩
        simp only [ExternalDmaBufRing.acquire, hacq, hold_of_scanning hscan]
        simpa [ExternalDmaBufRing.slotFb] using hfb

/-! ### Slots shown by a growing run -/

theorem slotAt_append_left {shown : List (Option ShownFrame)} {i : ℕ} (h : i < shown.length)
    (more : List (Option ShownFrame)) : slotAt (shown ++ more) i = slotAt shown i := by
  rw [slotAt, slotAt, List.getElem?_append_left h]

theorem FirstDifferent.append {shown : List (Option ShownFrame)} {i d : ℕ}
    (h : FirstDifferent shown i d) (x : Option ShownFrame) :
    FirstDifferent (shown ++ [x]) i d := by
  obtain ⟨hid, hd, hne, hbetween⟩ := h
  refine ⟨hid, by simp; omega, ?_, ?_⟩
  · rwa [slotAt_append_left hd, slotAt_append_left (by omega)]
  · intro m him hmd
    rw [slotAt_append_left (by omega), slotAt_append_left (by omega)]
    exact hbetween m him hmd

theorem Safe.append {shown : List (Option ShownFrame)} {f : Fire} (h : Safe shown f)
    (x : Option ShownFrame) : Safe (shown ++ [x]) f := by
  obtain ⟨hslot, d, hd, hlate⟩ := h
  refine ⟨?_, d, hd.append x, hlate⟩
  rwa [slotAt_append_left (hd.1.trans hd.2.1)]

/-- A fire of the past: nothing shown later can make it safe. -/
structure Past (shown : List (Option ShownFrame)) (f : Fire) : Prop where
  frame_lt : f.frame < shown.length
  during_lt : f.during < shown.length
  fence_lt : ∀ d ∈ f.fence, d < shown.length

theorem Past.append {shown : List (Option ShownFrame)} {f : Fire} (h : Past shown f)
    (x : Option ShownFrame) : Past (shown ++ [x]) f := by
  have hlen : (shown ++ [x]).length = shown.length + 1 := by simp
  refine ⟨?_, ?_, ?_⟩
  · exact hlen ▸ Nat.lt_succ_of_lt h.frame_lt
  · exact hlen ▸ Nat.lt_succ_of_lt h.during_lt
  · intro d hd
    exact hlen ▸ Nat.lt_succ_of_lt (h.fence_lt d hd)

theorem Past.safe_of_append {shown : List (Option ShownFrame)} {f : Fire} (h : Past shown f)
    {x : Option ShownFrame} (hsafe : Safe (shown ++ [x]) f) : Safe shown f := by
  obtain ⟨hslot, d, ⟨hid, hd, hne, hbetween⟩, hlate⟩ := hsafe
  have hlt : d < shown.length := by
    rcases hlate with hlate | hfence
    · have := h.during_lt
      omega
    · exact h.fence_lt d hfence
  rw [slotAt_append_left h.frame_lt] at hslot hne
  refine ⟨hslot, d, ⟨hid, hlt, ?_, ?_⟩, hlate⟩
  · rwa [slotAt_append_left hlt] at hne
  · intro m him hmd
    have := hbetween m him hmd
    rwa [slotAt_append_left (by omega), slotAt_append_left h.frame_lt] at this

/-- The fire for the commit before the last, while commit `pre.length + 2` is finalized. -/
theorem safe_iff (pre : List (Option ShownFrame)) (old cur : ShownFrame)
    (x : Option ShownFrame) {fence : Option ℕ}
    (hfence : fence = none ∨ fence = some (pre.length + 1)) :
    Safe (pre ++ [some old, some cur, x]) ⟨old.slot, pre.length + 2, pre.length, fence⟩ ↔
      old.slot ≠ cur.slot := by
  have hold : slotAt (pre ++ [some old, some cur, x]) pre.length = some old.slot := by
    simp [slotAt]
  have hcur : slotAt (pre ++ [some old, some cur, x]) (pre.length + 1) = some cur.slot := by
    simp [slotAt]
  constructor
  · rintro ⟨-, d, ⟨hid, hd, hne, -⟩, hlate⟩ heq
    simp only [List.length_append, List.length_cons, List.length_nil] at hd
    simp only at hid hne hlate
    have hd1 : d ≠ pre.length + 1 := by
      rintro rfl
      rw [hold, hcur, heq] at hne
      exact hne rfl
    rcases hlate with hlate | hlate
    · omega
    · rcases hfence with rfl | rfl
      · exact absurd hlate (by simp)
      · exact hd1 (Option.some.inj hlate).symm
  · intro hne
    refine ⟨hold, pre.length + 1, ⟨by simp, by simp, ?_, ?_⟩, .inl (by simp)⟩
    · rw [hold, hcur]
      exact fun h => hne (Option.some.inj h).symm
    · intro m him hmd
      simp only at him
      omega

/-! ### The ring between two commits -/

/-- What is shown, in flight and outstanding between commits that were all safe. -/
inductive Phase (ptr : PtrWidth) (t : Display) : Prop
  /-- Nothing was shown yet. -/
  | idle (himp : Imported t.ring) (hkey : t.ring.presenter.scanningKey = none)
    (hout : t.ring.presenter.outstanding = []) (hflight : t.inFlight = {})
    (hshown : ∀ s ∈ t.shown, s = none)
  /-- The last commit was the first to show a frame. -/
  | first {cur : ShownFrame} {b : AcquiredBuffer} {pre : List (Option ShownFrame)}
    (himp : Imported t.ring) (hscan : Scanning t.ring cur)
    (hout : t.ring.presenter.outstanding = [entry cur]) (htoken : b.token = cur.token)
    (hflight : t.inFlight = ⟨[⟨b, pre.length, none⟩], []⟩)
    (hshown : t.shown = pre ++ [some cur]) (hpre : ∀ s ∈ pre, s = none)
  /-- The last two commits showed one frame. -/
  | held {cur : ShownFrame} {a b : AcquiredBuffer} {pre : List (Option ShownFrame)}
    {fence : Option ℕ} (himp : Imported t.ring) (hscan : Scanning t.ring cur)
    (hout : t.ring.presenter.outstanding = [entry cur]) (hold : a.token = cur.token)
    (htoken : b.token = cur.token) (hfence : fence = none ∨ fence = some (pre.length + 1))
    (hflight : t.inFlight = ⟨[⟨b, pre.length + 1, none⟩], [⟨a, pre.length, fence⟩]⟩)
    (hshown : t.shown = pre ++ [some cur, some cur])
  /-- The last commit displaced the frame before it. -/
  | moved {old cur : ShownFrame} {a b : AcquiredBuffer} {pre : List (Option ShownFrame)}
    {fence : Option ℕ} (himp : Imported t.ring) (hscan : Scanning t.ring cur)
    (hout : t.ring.presenter.outstanding = [entry old, entry cur]) (hzero : old.token ≠ 0)
    (hnext : cur.token = advanceToken ptr old.token) (hold : a.token = old.token)
    (htoken : b.token = cur.token) (hfence : fence = none ∨ fence = some (pre.length + 1))
    (hflight : t.inFlight = ⟨[⟨b, pre.length + 1, none⟩], [⟨a, pre.length, fence⟩]⟩)
    (hshown : t.shown = pre ++ [some old, some cur])

theorem frameOf_scanning {r : ExternalDmaBufRing} {c : ShownFrame} (hscan : Scanning r c)
    {b : AcquiredBuffer} (htoken : b.token = c.token) : frameOf r b = some c := by
  simp [frameOf, hscan.key, htoken]

/-- While a frame scans out, a commit shows the next frame or the same one again. -/
theorem acquire_of_scanning (ptr : PtrWidth) (wait : FenceWait) {r : ExternalDmaBufRing}
    {cur : ShownFrame} (himp : Imported r) (hscan : Scanning r cur) :
    ∃ c b, (r.acquire ptr wait).2 = some b ∧ b.token = c.token ∧
      Imported (r.acquire ptr wait).1 ∧ Scanning (r.acquire ptr wait).1 c ∧
      ((r.presenter.freshReady wait = true ∧ c.token = advanceToken ptr cur.token ∧
          (r.acquire ptr wait).1.presenter.outstanding =
            r.presenter.outstanding ++ [entry c]) ∨
        (r.presenter.freshReady wait = false ∧ c = cur ∧
          (r.acquire ptr wait).1.presenter.outstanding = r.presenter.outstanding)) := by
  rcases acquire_spec ptr wait himp with
    ⟨hready, c, b, hacq, htoken, hnext, hscan', himp', hout⟩ |
    ⟨hready, himp', hkey, htoken, hnext, hout, -, hhold⟩
  · rw [hscan.next] at hnext
    exact ⟨c, b, hacq, htoken, himp', hscan', .inl ⟨hready, hnext, hout⟩⟩
  · obtain ⟨b, hacq, hb⟩ := hhold cur.slot hscan.key
    refine ⟨cur, b, hacq, hb.trans hscan.token, himp', ⟨?_, ?_, ?_, hscan.token_ne_zero⟩,
      .inr ⟨hready, rfl, hout⟩⟩
    · exact hkey.trans hscan.key
    · exact htoken.trans hscan.token
    · exact hnext.trans hscan.next

/-! ### The oldest acquisition is released -/

/-- The ring after the first outstanding entry fired. -/
def withOutstanding (r : ExternalDmaBufRing) (os : List Outstanding) : ExternalDmaBufRing :=
  { r with presenter := { r.presenter with outstanding := os } }

theorem Imported.withOutstanding {r : ExternalDmaBufRing} (h : Imported r)
    (os : List Outstanding) : Imported (withOutstanding r os) :=
  ⟨h.fb_ne_zero, h.pending_lt, h.scanning_lt⟩

theorem Scanning.withOutstanding {r : ExternalDmaBufRing} {f : ShownFrame} (h : Scanning r f)
    (os : List Outstanding) : Scanning (withOutstanding r os) f :=
  ⟨h.key, h.token, h.next, h.token_ne_zero⟩

theorem releaseAll_live {r : ExternalDmaBufRing} {c : ShownFrame} (hscan : Scanning r c)
    {a : RingAcquisition} (htoken : a.buffer.token = c.token) (n : ℕ) :
    releaseAll n r [a] = (r, []) := by
  have hrel : r.presenter.release a.buffer.token = (r.presenter, none) := by
    rw [htoken, ← hscan.token]
    exact release_live r.presenter
  simp [releaseAll, ExternalDmaBufRing.release, hrel]

theorem releaseAll_fires {r : ExternalDmaBufRing} {c old : ShownFrame} (hscan : Scanning r c)
    {os : List Outstanding} (hout : r.presenter.outstanding = entry old :: os)
    {a : RingAcquisition} (htoken : a.buffer.token = old.token) (hzero : old.token ≠ 0)
    (hne : old.token ≠ c.token) (n : ℕ) :
    releaseAll n r [a] = (withOutstanding r os, [⟨old.slot, n, a.commit, a.releaseFence⟩]) := by
  have hlive : old.token ≠ r.presenter.scanningToken := by
    rwa [hscan.token]
  have hrel := release_head hout hzero hlive
  simp only [entry] at hrel
  simp [releaseAll, ExternalDmaBufRing.release, htoken, hrel, withOutstanding]

theorem stamp_eq (n : ℕ) (outFence : Bool) (a : AcquiredBuffer) (m : ℕ) :
    ∃ fence, (fence = none ∨ fence = some n) ∧ stamp n outFence ⟨a, m, none⟩ = ⟨a, m, fence⟩ := by
  cases outFence with
  | false => exact ⟨none, .inl rfl, rfl⟩
  | true => exact ⟨some n, .inr rfl, rfl⟩

/-! ### One commit -/

/-- What a commit does to the run: the fires it adds are safe and the phase goes on, or it adds
one that is not and never will be. -/
structure CommitOutcome (ptr : PtrWidth) (t t' : Display) (ok : Prop) : Prop where
  safe : ok → Phase ptr t' ∧ ∀ f ∈ t'.fired, f ∈ t.fired ∨ Safe t'.shown f
  unsafeFire : ¬ ok → ∃ f ∈ t'.fired, Past t'.shown f ∧ ¬ Safe t'.shown f

theorem commit_idle (ptr : PtrWidth) {t : Display} (himp : Imported t.ring)
    (hkey : t.ring.presenter.scanningKey = none) (hout : t.ring.presenter.outstanding = [])
    (hflight : t.inFlight = {}) (hshown : ∀ s ∈ t.shown, s = none) (wait : FenceWait)
    (outFence : Bool) :
    Phase ptr (t.step ptr (.commit wait outFence)) ∧
      (t.step ptr (.commit wait outFence)).fired = t.fired := by
  have hring : (t.step ptr (.commit wait outFence)).ring = (t.ring.acquire ptr wait).1 := by
    simp [step, hflight, releaseAll]
  rcases acquire_spec ptr wait himp with
    ⟨-, c, b, hacq, htoken, -, hscan', himp', hout'⟩ |
    ⟨-, himp', hkey', -, -, hout', hnone, -⟩
  · refine ⟨.first (hring ▸ himp') (hring ▸ hscan') ?_ htoken ?_ ?_ hshown, ?_⟩
    · rw [hring, hout', hout]
      rfl
    · simp [step, hflight, InFlight.rotate, hacq]
    · simp [step, hacq, frameOf_scanning hscan' htoken]
    · simp [step, hflight, releaseAll]
  · refine ⟨.idle (hring ▸ himp') ?_ ?_ ?_ ?_, ?_⟩
    · rw [hring, hkey', hkey]
    · rw [hring, hout', hout]
    · simp [step, hflight, InFlight.rotate, hnone hkey]
    · intro s hs
      simp only [step, hnone hkey] at hs
      rcases List.mem_append.mp hs with hs | hs
      · exact hshown s hs
      · simpa using hs
    · simp [step, hflight, releaseAll]

theorem commit_first (ptr : PtrWidth) {t : Display} {cur : ShownFrame} {b : AcquiredBuffer}
    {pre : List (Option ShownFrame)} (himp : Imported t.ring) (hscan : Scanning t.ring cur)
    (hout : t.ring.presenter.outstanding = [entry cur]) (htoken : b.token = cur.token)
    (hflight : t.inFlight = ⟨[⟨b, pre.length, none⟩], []⟩)
    (hshown : t.shown = pre ++ [some cur]) (wait : FenceWait) (outFence : Bool) :
    Phase ptr (t.step ptr (.commit wait outFence)) ∧
      (t.step ptr (.commit wait outFence)).fired = t.fired := by
  obtain ⟨c, b', hacq, hb', himp', hscan', hnext⟩ := acquire_of_scanning ptr wait himp hscan
  obtain ⟨fence, hfence, hstamp⟩ := stamp_eq (pre.length + 1) outFence b pre.length
  have hlen : t.shown.length = pre.length + 1 := by simp [hshown]
  refine ⟨?_, by simp [step, hflight, releaseAll]⟩
  have hflight' : (t.step ptr (.commit wait outFence)).inFlight =
      ⟨[⟨b', pre.length + 1, none⟩], [⟨b, pre.length, fence⟩]⟩ := by
    simp [step, hflight, InFlight.rotate, hacq, hstamp, hlen]
  have hshown' : (t.step ptr (.commit wait outFence)).shown = pre ++ [some cur, some c] := by
    simp [step, hacq, frameOf_scanning hscan' hb', hshown]
  have hring : (t.step ptr (.commit wait outFence)).ring = (t.ring.acquire ptr wait).1 := by
    simp [step, hflight, releaseAll]
  rcases hnext with ⟨-, hnext, hout'⟩ | ⟨-, rfl, hout'⟩
  · exact .moved (hring ▸ himp') (hring ▸ hscan') (by rw [hring, hout', hout]; rfl)
      hscan.token_ne_zero hnext htoken hb' hfence hflight' hshown'
  · exact .held (hring ▸ himp') (hring ▸ hscan') (by rw [hring, hout', hout]) htoken hb' hfence
      hflight' hshown'

theorem commit_held {ptr : PtrWidth} {t : Display} {cur : ShownFrame} {a b : AcquiredBuffer}
    {pre : List (Option ShownFrame)} {fence : Option ℕ} (himp : Imported t.ring)
    (hscan : Scanning t.ring cur) (hout : t.ring.presenter.outstanding = [entry cur])
    (hold : a.token = cur.token) (htoken : b.token = cur.token)
    (hfence : fence = none ∨ fence = some (pre.length + 1))
    (hflight : t.inFlight = ⟨[⟨b, pre.length + 1, none⟩], [⟨a, pre.length, fence⟩]⟩)
    (hshown : t.shown = pre ++ [some cur, some cur]) (wait : FenceWait) (outFence : Bool) :
    CommitOutcome ptr t (t.step ptr (.commit wait outFence))
      (t.ring.presenter.freshReady wait = false) := by
  obtain ⟨c, b', hacq, hb', himp', hscan', hnext⟩ := acquire_of_scanning ptr wait himp hscan
  obtain ⟨fence', hfence', hstamp⟩ := stamp_eq (pre.length + 2) outFence b (pre.length + 1)
  have hlen : t.shown.length = pre.length + 2 := by simp [hshown]
  have hshown' : (t.step ptr (.commit wait outFence)).shown =
      pre ++ [some cur, some cur, some c] := by
    simp [step, hacq, frameOf_scanning hscan' hb', hshown]
  rcases hnext with ⟨hready, hnext, hout'⟩ | ⟨hready, rfl, hout'⟩
  · -- a fresh frame: the older of the two acquisitions fires while the frame is displaced
    refine ⟨fun hok => absurd hok (by simp [hready]), fun _ => ?_⟩
    have hne : cur.token ≠ c.token := hnext ▸ (advanceToken_ne_self ptr cur.token).1.symm
    have hrel := releaseAll_fires hscan' (by rw [hout', hout]; rfl) (a := ⟨a, pre.length, fence⟩)
      hold hscan.token_ne_zero hne (pre.length + 2)
    refine ⟨⟨cur.slot, pre.length + 2, pre.length, fence⟩, ?_, ?_, ?_⟩
    · simp [step, hflight, hrel, hlen]
    · refine ⟨by simp [hshown'], by simp [hshown'], ?_⟩
      rintro d hd
      rcases hfence with rfl | rfl
      · exact absurd hd (by simp)
      · obtain rfl := Option.some.inj hd
        simp [hshown']
    · rw [hshown', safe_iff pre cur cur (some c) hfence]
      simp
  · have hrel := releaseAll_live hscan' (a := ⟨a, pre.length, fence⟩) hold (pre.length + 2)
    refine ⟨fun _ => ⟨?_, ?_⟩, fun hok => absurd hready hok⟩
    · have hring : (t.step ptr (.commit wait outFence)).ring = (t.ring.acquire ptr wait).1 := by
        simp [step, hflight, hrel, hlen]
      have hlast : (t.step ptr (.commit wait outFence)).shown =
          (pre ++ [some c]) ++ [some c, some c] := by simp [hshown']
      refine .held (hring ▸ himp') (hring ▸ hscan') ?_ htoken hb' (by simpa using hfence') ?_ hlast
      · rw [hring, hout', hout]
      · simp [step, hflight, InFlight.rotate, hacq, hstamp, hlen]
    · intro f hf
      simp only [step, hflight, hlen, hrel, List.append_nil] at hf
      exact .inl hf

theorem commit_moved {ptr : PtrWidth} {t : Display} {old cur : ShownFrame}
    {a b : AcquiredBuffer} {pre : List (Option ShownFrame)} {fence : Option ℕ}
    (himp : Imported t.ring) (hscan : Scanning t.ring cur)
    (hout : t.ring.presenter.outstanding = [entry old, entry cur]) (hzero : old.token ≠ 0)
    (hnext : cur.token = advanceToken ptr old.token) (hold : a.token = old.token)
    (htoken : b.token = cur.token) (hfence : fence = none ∨ fence = some (pre.length + 1))
    (hflight : t.inFlight = ⟨[⟨b, pre.length + 1, none⟩], [⟨a, pre.length, fence⟩]⟩)
    (hshown : t.shown = pre ++ [some old, some cur]) (wait : FenceWait) (outFence : Bool) :
    CommitOutcome ptr t (t.step ptr (.commit wait outFence)) (old.slot ≠ cur.slot) := by
  obtain ⟨c, b', hacq, hb', himp', hscan', hnext'⟩ := acquire_of_scanning ptr wait himp hscan
  obtain ⟨fence', hfence', hstamp⟩ := stamp_eq (pre.length + 2) outFence b (pre.length + 1)
  have hlen : t.shown.length = pre.length + 2 := by simp [hshown]
  have hshown' : (t.step ptr (.commit wait outFence)).shown =
      pre ++ [some old, some cur, some c] := by
    simp [step, hacq, frameOf_scanning hscan' hb', hshown]
  obtain ⟨os, hos⟩ : ∃ os, (t.ring.acquire ptr wait).1.presenter.outstanding =
      entry old :: os := by
    rcases hnext' with ⟨-, -, hout'⟩ | ⟨-, -, hout'⟩
    · exact ⟨[entry cur, entry c], by rw [hout', hout]; rfl⟩
    · exact ⟨[entry cur], by rw [hout', hout]⟩
  have hne : old.token ≠ c.token := by
    have hself := advanceToken_ne_self ptr old.token
    rcases hnext' with ⟨-, hc, -⟩ | ⟨-, rfl, -⟩
    · rw [hc, hnext]
      exact hself.2.symm
    · rw [hnext]
      exact hself.1.symm
  -- whatever comes next, the displaced frame's only acquisition fires now
  have hrel := releaseAll_fires hscan' hos (a := ⟨a, pre.length, fence⟩) hold hzero hne
    (pre.length + 2)
  have hfired : (t.step ptr (.commit wait outFence)).fired =
      t.fired ++ [⟨old.slot, pre.length + 2, pre.length, fence⟩] := by
    simp [step, hflight, hrel, hlen]
  refine ⟨fun hslot => ⟨?_, ?_⟩, fun hslot => ⟨_, by rw [hfired]; exact mem_concat_self, ?_, ?_⟩⟩
  · have hring : (t.step ptr (.commit wait outFence)).ring =
        withOutstanding (t.ring.acquire ptr wait).1 os := by
      simp [step, hflight, hrel, hlen]
    have hflight' : (t.step ptr (.commit wait outFence)).inFlight =
        ⟨[⟨b', pre.length + 2, none⟩], [⟨b, pre.length + 1, fence'⟩]⟩ := by
      simp [step, hflight, InFlight.rotate, hacq, hstamp, hlen]
    have hlast : (t.step ptr (.commit wait outFence)).shown =
        (pre ++ [some old]) ++ [some cur, some c] := by simp [hshown']
    rcases hnext' with ⟨-, hc, hout'⟩ | ⟨-, rfl, hout'⟩
    · refine .moved (hring ▸ himp'.withOutstanding os) (hring ▸ hscan'.withOutstanding os) ?_
        hscan.token_ne_zero hc htoken hb' (by simpa using hfence') (by simpa using hflight') hlast
      rw [hout', hout] at hos
      rw [hring, withOutstanding]
      exact (List.cons.inj hos).2.symm
    · refine .held (hring ▸ himp'.withOutstanding os) (hring ▸ hscan'.withOutstanding os) ?_
        htoken hb' (by simpa using hfence') (by simpa using hflight') hlast
      rw [hout', hout] at hos
      rw [hring, withOutstanding]
      exact (List.cons.inj hos).2.symm
  · intro f hf
    rw [hfired] at hf
    rcases List.mem_append.mp hf with hf | hf
    · exact .inl hf
    · obtain rfl := List.mem_singleton.mp hf
      rw [hshown']
      exact .inr ((safe_iff pre old cur (some c) hfence).mpr hslot)
  · refine ⟨by simp [hshown'], by simp [hshown'], ?_⟩
    rintro d hd
    rcases hfence with rfl | rfl
    · exact absurd hd (by simp)
    · obtain rfl := Option.some.inj hd
      simp [hshown']
  · rw [hshown', safe_iff pre old cur (some c) hfence]
    exact hslot

theorem stepOk_of_no_previous {t : Display} (hprev : t.previous = none) (wait : FenceWait)
    (outFence : Bool) : t.StepOk (.commit wait outFence) := by
  simp [StepOk, hprev]

theorem stepOk_iff {t : Display} {pre : List (Option ShownFrame)} {old cur : ShownFrame}
    (hshown : t.shown = pre ++ [some old, some cur]) (wait : FenceWait) (outFence : Bool) :
    t.StepOk (.commit wait outFence) ↔
      (old.slot = cur.slot →
        old.token = cur.token ∧ t.ring.presenter.freshReady wait = false) := by
  have hsplit : t.shown = (pre ++ [some old]) ++ [some cur] := by simp [hshown]
  have hcur : t.current = some cur := by simp [current, hsplit]
  have hprev : t.previous = some old := by simp [previous, hsplit]
  simp [StepOk, hcur, hprev]

theorem getLast?_join_of_none {pre : List (Option ShownFrame)} (h : ∀ s ∈ pre, s = none) :
    pre.getLast?.join = none := by
  cases hlast : pre.getLast? with
  | none => rfl
  | some s =>
      have hs := h s (List.mem_of_getLast? hlast)
      simp [hs]

/-- One commit from any phase: the condition decides whether its fire is safe. -/
theorem commitOutcome {ptr : PtrWidth} {t : Display} (hphase : Phase ptr t) (wait : FenceWait)
    (outFence : Bool) :
    CommitOutcome ptr t (t.step ptr (.commit wait outFence))
      (t.StepOk (.commit wait outFence)) := by
  cases hphase with
  | idle himp hkey hout hflight hshown =>
      obtain ⟨hphase, hfired⟩ :=
        commit_idle ptr himp hkey hout hflight hshown wait outFence
      have hprev : t.previous = none :=
        getLast?_join_of_none fun s hs => hshown s (List.mem_of_mem_dropLast hs)
      refine ⟨fun _ => ⟨hphase, fun f hf => .inl (hfired ▸ hf)⟩, fun hok => ?_⟩
      exact absurd (stepOk_of_no_previous hprev wait outFence) hok
  | first himp hscan hout htoken hflight hshown hpre =>
      obtain ⟨hphase, hfired⟩ :=
        commit_first ptr himp hscan hout htoken hflight hshown wait outFence
      have hprev : t.previous = none := by
        simpa [previous, hshown] using getLast?_join_of_none hpre
      refine ⟨fun _ => ⟨hphase, fun f hf => .inl (hfired ▸ hf)⟩, fun hok => ?_⟩
      exact absurd (stepOk_of_no_previous hprev wait outFence) hok
  | held himp hscan hout hold htoken hfence hflight hshown =>
      have hiff := stepOk_iff hshown wait outFence
      simp only [true_and, forall_const] at hiff
      rw [hiff]
      exact commit_held himp hscan hout hold htoken hfence hflight hshown wait outFence
  | @moved old cur a b pre fence himp hscan hout hzero hnext hold htoken hfence hflight hshown =>
      have hne : old.token ≠ cur.token :=
        hnext ▸ (advanceToken_ne_self ptr old.token).1.symm
      have hiff : t.StepOk (.commit wait outFence) ↔ old.slot ≠ cur.slot := by
        simp [stepOk_iff hshown wait outFence, hne]
      rw [hiff]
      exact commit_moved himp hscan hout hzero hnext hold htoken hfence hflight hshown wait
        outFence

theorem phase_submit {ptr : PtrWidth} {t : Display} (hphase : Phase ptr t) (slot : ℕ)
    (fence : Option SyncFence) (damage : List DamageRect) :
    Phase ptr (t.step ptr (.submit slot fence damage)) := by
  by_cases hslot : t.ring.slots.length ≤ slot
  · simpa [step, ExternalDmaBufRing.submit, hslot] using hphase
  · have himp : Imported t.ring → Imported (t.ring.submit slot fence damage) := by
      intro h
      simp only [ExternalDmaBufRing.submit, hslot, if_false]
      refine ⟨h.fb_ne_zero, ?_, h.scanning_lt⟩
      intro key hkey
      obtain rfl : slot = key := by simpa using hkey
      simpa using hslot
    have hscan : ∀ c, Scanning t.ring c → Scanning (t.ring.submit slot fence damage) c := by
      intro c h
      simp only [ExternalDmaBufRing.submit, hslot, if_false]
      exact ⟨h.key, h.token, h.next, h.token_ne_zero⟩
    have hsame : (t.ring.submit slot fence damage).presenter.outstanding =
          t.ring.presenter.outstanding ∧
        (t.ring.submit slot fence damage).presenter.scanningKey =
          t.ring.presenter.scanningKey := by
      simp [ExternalDmaBufRing.submit, hslot]
    cases hphase with
    | idle h hkey hout hflight hshown =>
        exact .idle (himp h) (hsame.2.trans hkey) (hsame.1.trans hout) hflight hshown
    | first h hs hout htoken hflight hshown hpre =>
        exact .first (himp h) (hscan _ hs) (hsame.1.trans hout) htoken hflight hshown hpre
    | held h hs hout hold htoken hfence hflight hshown =>
        exact .held (himp h) (hscan _ hs) (hsame.1.trans hout) hold htoken hfence hflight hshown
    | moved h hs hout hzero hnext hold htoken hfence hflight hshown =>
        exact .moved (himp h) (hscan _ hs) (hsame.1.trans hout) hzero hnext hold htoken hfence
          hflight hshown

/-! ### Runs -/

/-- Some fire came too early. -/
def Violated (t : Display) : Prop :=
  ∃ f ∈ t.fired, Past t.shown f ∧ ¬ Safe t.shown f

theorem not_neverEarly_of_violated {t : Display} (h : Violated t) : ¬ NeverEarly t := by
  obtain ⟨f, hf, -, hsafe⟩ := h
  exact fun hall => hsafe (hall f hf)

theorem violated_step {ptr : PtrWidth} {t : Display} (h : Violated t) (e : DisplayEvent) :
    Violated (t.step ptr e) := by
  cases e with
  | submit slot fence damage => exact h
  | commit wait outFence =>
      obtain ⟨f, hf, hpast, hsafe⟩ := h
      exact ⟨f, List.mem_append_left _ hf, hpast.append _,
        fun hsafe' => hsafe (hpast.safe_of_append hsafe')⟩

theorem violated_run {ptr : PtrWidth} {t : Display} (h : Violated t) (es : List DisplayEvent) :
    Violated (run (step ptr) t es) := by
  induction es generalizing t with
  | nil => exact h
  | cons e es ih => exact ih (violated_step h e)

theorem neverEarly_step {ptr : PtrWidth} {t : Display} {wait : FenceWait} {outFence : Bool}
    (hearly : NeverEarly t)
    (hnew : ∀ f ∈ (t.step ptr (.commit wait outFence)).fired,
      f ∈ t.fired ∨ Safe (t.step ptr (.commit wait outFence)).shown f) :
    NeverEarly (t.step ptr (.commit wait outFence)) := by
  intro f hf
  rcases hnew f hf with hold | hsafe
  · exact (hearly f hold).append _
  · exact hsafe

theorem neverEarly_run_iff {ptr : PtrWidth} {t : Display} (hphase : Phase ptr t)
    (hearly : NeverEarly t) (es : List DisplayEvent) :
    NeverEarly (run (step ptr) t es) ↔ Meets (step ptr) StepOk t es := by
  induction es generalizing t with
  | nil => simpa using hearly
  | cons e es ih =>
      cases e with
      | submit slot fence damage =>
          have := ih (phase_submit hphase slot fence damage) hearly
          simpa [StepOk] using this
      | commit wait outFence =>
          have hout := commitOutcome hphase wait outFence
          rw [run_cons, meets_cons]
          by_cases hok : t.StepOk (.commit wait outFence)
          · obtain ⟨hphase', hnew⟩ := hout.safe hok
            rw [ih hphase' (neverEarly_step hearly hnew)]
            exact (and_iff_right hok).symm
          · have hviolated : Violated (t.step ptr (.commit wait outFence)) := hout.unsafeFire hok
            refine iff_of_false ?_ (fun h => hok h.1)
            exact not_neverEarly_of_violated (violated_run hviolated es)

/-- No slot is signalled free while on screen exactly when, in every commit of the run, a frame
shown twice in a row is not displaced and no frame displaces another of its own slot. -/
theorem neverEarly_iff_meets (ptr : PtrWidth) (slots : List FbId)
    (hslots : ∀ fb ∈ slots, fb ≠ 0) (fenceDeadline : Option ℕ) (es : List DisplayEvent) :
    NeverEarly (run (step ptr) (init slots fenceDeadline) es) ↔
      Meets (step ptr) StepOk (init slots fenceDeadline) es := by
  refine neverEarly_run_iff (.idle ⟨hslots, ?_, ?_⟩ rfl rfl rfl ?_) ?_ es <;>
    simp [init, ExternalDmaBufRing.create, NeverEarly]

/-- A ring that alternates two slots on every commit. -/
theorem neverEarly_iff_meets_alternating :
    NeverEarly (run (step ⟨64, by decide⟩) (init [7, 8] none)
      [.submit 0 none [], .commit (fun _ _ => true) true, .submit 1 none [],
        .commit (fun _ _ => true) true, .submit 0 none [], .commit (fun _ _ => true) true]) ↔
      Meets (step ⟨64, by decide⟩) StepOk (init [7, 8] none)
        [.submit 0 none [], .commit (fun _ _ => true) true, .submit 1 none [],
          .commit (fun _ _ => true) true, .submit 0 none [], .commit (fun _ _ => true) true] :=
  neverEarly_iff_meets _ [7, 8] (by decide) none _

/-- Slot 0 is shown, held for one commit and displaced: the release of its first acquisition
fires in the displacing commit, with the OUT_FENCE of the commit that held it. -/
def heldThenDisplaced : List DisplayEvent :=
  [.submit 0 none [], .commit (fun _ _ => true) true, .commit (fun _ _ => true) true,
    .submit 1 none [], .commit (fun _ _ => true) true]

theorem not_neverEarly :
    ¬ NeverEarly (run (step ⟨64, by decide⟩) (init [7, 8] none) heldThenDisplaced) := by
  intro h
  have hfire : (⟨0, 2, 0, some 1⟩ : Fire) ∈
      (run (step ⟨64, by decide⟩) (init [7, 8] none) heldThenDisplaced).fired := by decide
  obtain ⟨-, d, ⟨hid, hd, hne, -⟩, hlate⟩ := h _ hfire
  have hd' : d < 3 := hd
  rcases hlate with hlate | hlate
  · obtain rfl : d = 1 := by
      simp only at hid hlate
      omega
    exact hne (by decide)
  · obtain rfl : 1 = d := Option.some.inj hlate
    exact hne (by decide)

end Display

end DrmCxx.Scene
