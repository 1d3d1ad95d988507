import DrmCxx.Lib.Run
import DrmCxx.Scene.InFlight
import DrmCxx.Verification.Present.SlotChoice

/-!
# Where a Vulkan producer draws

A producer that renders while the scene commits its ring one flip at a time. The slot it draws into
is off the screen as long as it finds one that no frame of the ring has, no commit takes that slot
before the draw, and no frame displaced after being held over two commits is still on screen in
it. A render may fail before its draw, and, in the ring tiers, between its draw and the ring.
-/

namespace DrmCxx.Present

open Lib Scene Scene.RingPresenter

/-! ### Renders, commits and flips -/

/-- A frame of the ring. -/
structure ScanoutFrame extends ShownFrame where
  /-- The number of its submission. -/
  serial : ℕ
  deriving DecidableEq, Repr

structure ScanoutAcquisition where
  buffer : AcquiredBuffer
  frame : ScanoutFrame
  deriving DecidableEq, Repr

structure ScanoutTrace where
  producer : VkScanoutProducer
  inFlight : InFlight ScanoutAcquisition := {}
  /-- The slot of a `render` under way. -/
  rendering : Option SlotKey := none
  /-- What an accepted commit shows whose flip has not completed. -/
  flip : Option (Option ScanoutFrame) := none
  /-- What the last completed flip put on screen. -/
  onScreen : Option ScanoutFrame := none
  /-- What was on screen before it. -/
  before : Option ScanoutFrame := none
  /-- The submissions so far. -/
  serial : ℕ := 0
  /-- The latest submission of each slot. -/
  lastSubmit : SlotKey → Option ℕ := fun _ => none
  /-- The submissions that were acquired. -/
  acquired : List ℕ := []
  /-- The submission the ring scans out. -/
  scanSerial : ℕ := 0
  /-- Slots that were free when a render drew into them and failed, and were not submitted since. -/
  abandoned : List SlotKey := []

inductive ScanoutEvent
  /-- `render` chooses its slot. -/
  | pick
  /-- `render` draws into the slot and submits it to the ring. -/
  | submit (fence : Option SyncFence)
  /-- `record_frame` or the queue's submit throws: nothing is drawn. -/
  | fail
  /-- The slot is drawn, and `getSemaphoreFdKHR` throws. -/
  | abandon
  /-- An accepted commit; there is none while a flip is pending. -/
  | commit (wait : FenceWait)
  /-- The pending flip completes. -/
  | flip

namespace ScanoutTrace

open VkScanoutProducer (Sized)

def init (tier : ScanoutTier) (slots : List ℕ+) : ScanoutTrace :=
  { producer := .create tier (slots.map (·.val)) }

/-- `release_all`: what is left, and the slots `on_release` fired for. -/
def releaseAll : VkScanoutProducer → List ScanoutAcquisition →
    VkScanoutProducer × List (SlotKey × ScanoutFrame)
  | p, [] => (p, [])
  | p, a :: as =>
    match p.ring.release a.buffer with
    | (ring, none) => releaseAll { p with ring } as
    | (ring, some slot) =>
      let (p, fired) := releaseAll (({ p with ring } : VkScanoutProducer).onRelease slot) as
      (p, (slot, a.frame) :: fired)

/-- A commit acquires from the ring; what it acquires is what it shows. -/
def acquire (ptr : PtrWidth) (t : ScanoutTrace) (wait : FenceWait) :
    ScanoutTrace × Option ScanoutAcquisition :=
  let fresh := t.producer.ring.presenter.freshReady wait
  let serial := if fresh then t.serial else t.scanSerial
  let (ring, buffer) := t.producer.ring.acquire ptr wait
  ({ t with
      producer := { t.producer with ring }
      acquired := if fresh then t.acquired ++ [t.serial] else t.acquired
      scanSerial := serial },
    buffer.bind fun buffer => ring.presenter.scanningKey.map fun slot =>
      ⟨buffer, ⟨⟨slot, buffer.token⟩, serial⟩⟩)

/-- The slots `on_release` fires for while the commit is finalized. -/
def fired (ptr : PtrWidth) (t : ScanoutTrace) (wait : FenceWait) : List (SlotKey × ScanoutFrame) :=
  (releaseAll (t.acquire ptr wait).1.producer t.inFlight.prevPrev).2

def step (ptr : PtrWidth) (t : ScanoutTrace) : ScanoutEvent → ScanoutTrace
  | .pick => if t.rendering.isSome then t else { t with rendering := some t.producer.target }
  | .submit fence =>
    match t.rendering with
    | none => t
    | some index =>
      { t with
        producer := t.producer.submit index fence
        rendering := none
        serial := t.serial + 1
        lastSubmit := Function.update t.lastSubmit index (some (t.serial + 1))
        abandoned := t.abandoned.filter (· ≠ index) }
  | .fail =>
    match t.producer.tier with
    | .ring => { t with rendering := none }
    | .copy => t
  | .abandon =>
    match t.producer.tier, t.rendering with
    | .ring, some index =>
      { t with
        producer := t.producer.abandon index
        rendering := none
        abandoned :=
          if t.producer.free[index]? = some true then index :: t.abandoned else t.abandoned }
    | _, _ => t
  | .commit wait =>
    if t.flip.isSome then t
    else
      let (t', acquisition) := t.acquire ptr wait
      { t' with
        producer := (releaseAll t'.producer t.inFlight.prevPrev).1
        inFlight := t.inFlight.rotate id acquisition.toList
        flip := some (acquisition.map (·.frame)) }
  | .flip =>
    match t.flip with
    | none => t
    | some frame => { t with flip := none, onScreen := frame, before := t.onScreen }

/-- A write of the slot would not be seen. -/
def OffScreen (t : ScanoutTrace) (index : SlotKey) : Prop :=
  ∀ f ∈ t.onScreen, f.slot ≠ index

/-- Without a free slot, `render` takes one that was submitted and not acquired; it never draws
into the slot on screen; and only the latest submission of a slot makes it free again. -/
def Sound (ptr : PtrWidth) (t : ScanoutTrace) : ScanoutEvent → Prop
  | .pick => t.rendering = none →
      (true ∉ t.producer.free →
        ∃ s, t.lastSubmit t.producer.target = some s ∧ s ∉ t.acquired) ∧
      -- the copy starts as soon as its slot is chosen
      (t.producer.tier = .copy → t.OffScreen t.producer.target)
  | .submit _ => ∀ index ∈ t.rendering, t.OffScreen index
  | .abandon => t.producer.tier = .ring → ∀ index ∈ t.rendering, t.OffScreen index
  | .commit wait => t.flip = none → ∀ x ∈ t.fired ptr wait, t.lastSubmit x.1 = some x.2.serial
  | .fail | .flip => True

/-- A pending flip displaces a frame in that slot which was shown twice in a row. -/
def Displaced (t : ScanoutTrace) (index : SlotKey) : Prop :=
  t.flip.isSome ∧ t.before = t.onScreen ∧ ∃ f ∈ t.onScreen, f.slot = index

/-- No commit acquired the slot of a render since it was chosen. -/
def Untouched (t : ScanoutTrace) : ScanoutEvent → Prop
  | .submit _ => ∀ index ∈ t.rendering, t.producer.ring.presenter.isReferenced index = false
  | .abandon => t.producer.tier = .ring →
      ∀ index ∈ t.rendering, t.producer.ring.presenter.isReferenced index = false
  | _ => True

/-- Without a free slot, `render` takes one that the ring does not refer to and that no failed
render took from the free ones; its draw finds the slot as it was chosen, and not with a frame that
was shown twice in a row and is being displaced. -/
def Kept (t : ScanoutTrace) : ScanoutEvent → Prop
  | .pick => t.rendering = none →
      (true ∉ t.producer.free →
        t.producer.ring.presenter.isReferenced t.producer.target = false ∧
          t.producer.target ∉ t.abandoned) ∧
      (t.producer.tier = .copy → ¬ t.Displaced t.producer.target)
  | .submit fence => t.Untouched (.submit fence) ∧ ∀ index ∈ t.rendering, ¬ t.Displaced index
  | .abandon => t.Untouched .abandon ∧
      (t.producer.tier = .ring → ∀ index ∈ t.rendering, ¬ t.Displaced index)
  | _ => True

instance (t : ScanoutTrace) (index : SlotKey) : Decidable (t.Displaced index) :=
  inferInstanceAs (Decidable (_ ∧ _ ∧ _))

instance (t : ScanoutTrace) : DecidablePred t.Untouched
  | .submit _ => inferInstanceAs (Decidable (∀ index ∈ t.rendering, _))
  | .abandon => inferInstanceAs (Decidable (_ → ∀ index ∈ t.rendering, _))
  | .pick | .fail | .commit _ | .flip => inferInstanceAs (Decidable True)

instance (t : ScanoutTrace) : DecidablePred t.Kept
  | .pick => inferInstanceAs (Decidable (_ → _ ∧ _))
  | .submit _ => inferInstanceAs (Decidable (_ ∧ ∀ index ∈ t.rendering, _))
  | .abandon => inferInstanceAs (Decidable (_ ∧ (_ → ∀ index ∈ t.rendering, _)))
  | .fail | .commit _ | .flip => inferInstanceAs (Decidable True)

/-! ### What is outstanding -/

/-- The entries of the ring. -/
def outstanding (t : ScanoutTrace) : List Outstanding :=
  t.producer.ring.presenter.outstanding

/-- What the free flags say about submissions and acquisitions. -/
structure Books (t : ScanoutTrace) : Prop where
  wf : t.producer.Wf
  imported : Display.Imported t.producer.ring
  slots : t.producer.ring.slots.length = t.producer.free.length
  keys : (t.outstanding.map (·.key)).Nodup
  busy : ∀ o ∈ t.outstanding, t.producer.free[o.key]? = some false
  /-- What is pending is the latest submission and is not acquired. -/
  pending : ∀ k ∈ t.producer.ring.presenter.pendingKey,
    t.producer.free[k]? = some false ∧ k ∉ t.outstanding.map (·.key) ∧
      (∀ i, t.lastSubmit i = some t.serial ↔ i = k) ∧ t.serial ∉ t.acquired
  acquired_le : ∀ s ∈ t.acquired, s ≤ t.serial
  submit_le : ∀ i, ∀ s ∈ t.lastSubmit i, s ≤ t.serial
  used : ∀ i, t.producer.free[i]? = some false → i ∉ t.abandoned →
    ∃ s, t.lastSubmit i = some s ∧ (s ∈ t.acquired → i ∈ t.outstanding.map (·.key))
  returned : ∀ i, t.producer.free[i]? = some true → ∀ s ∈ t.lastSubmit i, s ∈ t.acquired
  /-- The ring knows nothing of an abandoned slot. -/
  abandoned : ∀ i ∈ t.abandoned, i ∉ t.outstanding.map (·.key) ∧
    i ∉ t.producer.ring.presenter.pendingKey ∧ ∀ s ∈ t.lastSubmit i, s ∈ t.acquired
  rendering : ∀ c ∈ t.rendering, c < t.producer.free.length

/-- The frames of the last two commits, `old` and `cur`: the ring's entries are theirs, and what is
on screen has one, unless it was shown twice and is being displaced. -/
structure Flight (ptr : PtrWidth) (t : ScanoutTrace) (old cur : Option ScanoutAcquisition) :
    Prop where
  inFlight : t.inFlight = ⟨cur.toList, old.toList⟩
  shown : t.flip = none → t.onScreen = cur.map (·.frame) ∧ t.before = old.map (·.frame)
  flipping : ∀ x ∈ t.flip, x = cur.map (·.frame) ∧ t.onScreen = old.map (·.frame) ∧
    ∀ b ∈ old, Display.entry b.frame.toShownFrame ∈ t.outstanding ∨ t.before = t.onScreen
  scanning : ∀ a ∈ cur, Display.Scanning t.producer.ring a.frame.toShownFrame ∧
    Display.entry a.frame.toShownFrame ∈ t.outstanding ∧ a.frame.serial = t.scanSerial
  idle : cur = none → t.producer.ring.presenter.scanningKey = none ∧ old = none
  next : ∀ b ∈ old, ∀ a ∈ cur, b.frame.token ≠ 0 ∧
    (b.frame = a.frame ∨ a.frame.token = advanceToken ptr b.frame.token)
  token : ∀ a, a ∈ old ∨ a ∈ cur → a.buffer.token = a.frame.token
  tracked : ∀ o ∈ t.outstanding, ∃ a, (a ∈ old ∨ a ∈ cur) ∧ o = Display.entry a.frame.toShownFrame
  live : ∀ a, a ∈ old ∨ a ∈ cur → Display.entry a.frame.toShownFrame ∈ t.outstanding →
    t.lastSubmit a.frame.slot = some a.frame.serial ∧ a.frame.serial ∈ t.acquired

def Inv (ptr : PtrWidth) (t : ScanoutTrace) : Prop :=
  Books t ∧ ∃ old cur, Flight ptr t old cur

/-! ### Renders -/

theorem inv_init (ptr : PtrWidth) {tier : ScanoutTier} {slots : List ℕ+}
    (h : Sized tier slots.length) : Inv ptr (init tier slots) := by
  refine ⟨⟨VkScanoutProducer.wf_create (by simpa using h), ⟨?_, ?_, ?_⟩, ?_, ?_, ?_, ?_, ?_, ?_, ?_,
    ?_, ?_, ?_⟩, none, none, ⟨rfl, ?_, ?_, ?_, ?_, ?_, ?_, ?_, ?_⟩⟩ <;>
    simp [init, VkScanoutProducer.create, ExternalDmaBufRing.create, outstanding,
      List.getElem?_replicate]

/-- A free slot is not one the ring still hands back. -/
theorem Books.target {t : ScanoutTrace} (h : Books t)
    (hfree : true ∉ t.producer.free →
      t.producer.target ∉ t.outstanding.map (·.key)) :
    t.producer.target ∉ t.outstanding.map (·.key) := by
  rcases (VkScanoutProducer.targetSpec h.wf).free with hfree' | ⟨hnone, -⟩
  · intro hmem
    obtain ⟨o, ho, hkey⟩ := List.mem_map.mp hmem
    simpa [hkey, hfree'] using h.busy o ho
  · exact hfree hnone

/-- What scans out is outstanding, so a slot the ring does not refer to is one without an entry. -/
theorem isReferenced_iff {ptr : PtrWidth} {t : ScanoutTrace} {old cur : Option ScanoutAcquisition}
    (h : Flight ptr t old cur) (index : SlotKey) :
    t.producer.ring.presenter.isReferenced index = true ↔ index ∈ t.outstanding.map (·.key) := by
  have hany : t.producer.ring.presenter.outstanding.any (·.key = index) = true ↔
      index ∈ t.outstanding.map (·.key) := by
    simp [outstanding]
  rw [isReferenced, Bool.or_eq_true, hany, or_iff_right_of_imp]
  intro hscan
  have hkey : t.producer.ring.presenter.scanningKey = some index := by simpa using hscan
  cases cur with
  | none => simp [(h.idle rfl).1] at hkey
  | some a =>
    obtain ⟨hscanning, hmem, -⟩ := h.scanning a rfl
    obtain rfl : a.frame.slot = index := by
      simpa [hscanning.key] using hkey
    exact List.mem_map_of_mem hmem

theorem mem_acquired_of_mem_keys {ptr : PtrWidth} {t : ScanoutTrace}
    {old cur : Option ScanoutAcquisition} (h : Flight ptr t old cur) {index : SlotKey}
    (hmem : index ∈ t.outstanding.map (·.key)) :
    ∃ s, t.lastSubmit index = some s ∧ s ∈ t.acquired := by
  obtain ⟨o, ho, rfl⟩ := List.mem_map.mp hmem
  obtain ⟨a, ha, rfl⟩ := h.tracked o ho
  exact ⟨_, h.live a ha ho⟩

theorem not_mem_keys_of_unreferenced {ptr : PtrWidth} {t : ScanoutTrace}
    {old cur : Option ScanoutAcquisition} (h : Flight ptr t old cur) {index : SlotKey}
    (hindex : t.producer.ring.presenter.isReferenced index = false) :
    index ∉ t.outstanding.map (·.key) := by
  rw [← isReferenced_iff h, hindex]
  exact Bool.false_ne_true

/-- Without a free slot, the slot taken was submitted and not acquired exactly when the ring does
not refer to it and it was not abandoned. -/
theorem fallback_iff {ptr : PtrWidth} {t : ScanoutTrace} {old cur : Option ScanoutAcquisition}
    (hbooks : Books t) (hflight : Flight ptr t old cur) (hnone : true ∉ t.producer.free) :
    (∃ s, t.lastSubmit t.producer.target = some s ∧ s ∉ t.acquired) ↔
      t.producer.ring.presenter.isReferenced t.producer.target = false ∧
        t.producer.target ∉ t.abandoned := by
  rw [← Bool.not_eq_true, isReferenced_iff hflight]
  constructor
  · rintro ⟨s, hs, hacq⟩
    refine ⟨fun hmem => ?_, fun habandoned => hacq ((hbooks.abandoned _ habandoned).2.2 s hs)⟩
    obtain ⟨s', hs', hacq'⟩ := mem_acquired_of_mem_keys hflight hmem
    obtain rfl : s' = s := Option.some.inj (hs'.symm.trans hs)
    exact hacq hacq'
  · rintro ⟨hmem, habandoned⟩
    have hlt := (VkScanoutProducer.targetSpec hbooks.wf).lt
    have hbusy : t.producer.free[t.producer.target]? = some false := by
      rw [List.getElem?_eq_getElem hlt]
      cases hget : t.producer.free[t.producer.target] with
      | false => rfl
      | true => exact absurd (hget ▸ List.getElem_mem hlt) hnone
    obtain ⟨s, hs, hacq⟩ := hbooks.used _ hbusy habandoned
    exact ⟨s, hs, fun h => hmem (hacq h)⟩

/-- A slot without an entry is on screen exactly when its frame is being displaced after two
commits. -/
theorem offScreen_iff {ptr : PtrWidth} {t : ScanoutTrace} {old cur : Option ScanoutAcquisition}
    (h : Flight ptr t old cur) {index : SlotKey} (hindex : index ∉ t.outstanding.map (·.key)) :
    t.OffScreen index ↔ ¬ t.Displaced index := by
  have hentry : ∀ f : ScanoutFrame, f.slot = index →
      Display.entry f.toShownFrame ∉ t.outstanding := by
    rintro f rfl hmem
    exact hindex (List.mem_map_of_mem hmem)
  constructor
  · rintro hoff ⟨-, -, f, hf, hslot⟩
    exact hoff f hf hslot
  · intro hdisplaced f hf hslot
    cases hflip : t.flip with
    | none =>
      rw [(h.shown hflip).1] at hf
      obtain ⟨a, ha, rfl⟩ := Option.map_eq_some_iff.mp hf
      exact hentry _ hslot (h.scanning a ha).2.1
    | some x =>
      obtain ⟨-, hold, hearly⟩ := h.flipping x hflip
      have hf' := hf
      rw [hold] at hf'
      obtain ⟨b, hb, rfl⟩ := Option.map_eq_some_iff.mp hf'
      rcases hearly b hb with hmem | heq
      · exact hentry _ hslot hmem
      · exact hdisplaced ⟨by simp [hflip], heq, _, hf, hslot⟩

theorem sound_iff_kept {ptr : PtrWidth} {t : ScanoutTrace} {old cur : Option ScanoutAcquisition}
    (hbooks : Books t) (hflight : Flight ptr t old cur) :
    t.Sound ptr .pick ↔ t.Kept .pick := by
  refine forall_congr' fun _ => ?_
  have hfallback := forall_congr' fun hnone => fallback_iff hbooks hflight hnone
  refine (and_congr_left' hfallback).trans (and_congr_right fun hfree => ?_)
  have htarget := hbooks.target fun hnone => not_mem_keys_of_unreferenced hflight (hfree hnone).1
  exact forall_congr' fun _ => offScreen_iff hflight htarget

theorem inv_pick {ptr : PtrWidth} {t : ScanoutTrace} (h : Inv ptr t) :
    Inv ptr (t.step ptr .pick) := by
  obtain ⟨hbooks, old, cur, hflight⟩ := h
  cases hr : t.rendering with
  | some c => simpa [step, hr] using ⟨hbooks, old, cur, hflight⟩
  | none =>
    have hstep : t.step ptr .pick = { t with rendering := some t.producer.target } := by
      simp [step, hr]
    rw [hstep]
    refine ⟨{ hbooks with rendering := ?_ }, old, cur, { hflight with }⟩
    rintro c hc
    obtain rfl := Option.some.inj hc
    exact (VkScanoutProducer.targetSpec hbooks.wf).lt

theorem inv_submit {ptr : PtrWidth} {t : ScanoutTrace} (h : Inv ptr t) (fence : Option SyncFence)
    (huntouched : t.Untouched (.submit fence)) : Inv ptr (t.step ptr (.submit fence)) := by
  obtain ⟨hbooks, old, cur, hflight⟩ := h
  cases hr : t.rendering with
  | none => simpa [step, hr] using ⟨hbooks, old, cur, hflight⟩
  | some c =>
    have hlt := hbooks.rendering c hr
    have hkeys := not_mem_keys_of_unreferenced hflight (huntouched c hr)
    obtain ⟨hfree, f, hring⟩ :=
      VkScanoutProducer.submit_spec (hbooks.slots ▸ hlt) fence
    have hwf := VkScanoutProducer.wf_submit hbooks.wf hlt fence
    have hstep : t.step ptr (.submit fence) =
        { t with
          producer := t.producer.submit c fence
          rendering := none
          serial := t.serial + 1
          lastSubmit := Function.update t.lastSubmit c (some (t.serial + 1))
          abandoned := t.abandoned.filter (· ≠ c) } := by
      simp [step, hr]
    have hout : (t.step ptr (.submit fence)).outstanding = t.outstanding := by
      simp [hstep, outstanding, hring]
    rw [hstep] at hout ⊢
    -- an entry is for another slot, and the slot drawn gets a submission of its own
    have hkey : ∀ o ∈ t.outstanding, o.key ≠ c := fun o ho heq =>
      hkeys (heq ▸ List.mem_map_of_mem ho)
    refine ⟨⟨hwf, ?_, ?_, hout ▸ hbooks.keys, ?_, ?_, ?_, ?_, ?_, ?_, ?_, by simp⟩, old, cur, ?_⟩
    · simp only [hring]
      refine ⟨hbooks.imported.fb_ne_zero, ?_, hbooks.imported.scanning_lt⟩
      rintro k hk
      obtain rfl := Option.some.inj hk
      exact hbooks.slots ▸ hlt
    · simp [hring, hfree, hbooks.slots]
    · intro o ho
      rw [hout] at ho
      simpa [hfree, (hkey o ho).symm] using hbooks.busy o ho
    · rintro k hk
      obtain rfl : c = k := by simpa [hring] using hk
      refine ⟨by simp [hfree, hlt], by rwa [hout], fun i => ?_, fun hacq => ?_⟩
      · by_cases hi : i = c
        · simp [hi]
        · refine ⟨fun hs => ?_, fun h => absurd h hi⟩
          have hle := hbooks.submit_le i (t.serial + 1) (by simpa [hi] using hs)
          omega
      · exact Nat.not_succ_le_self _ (hbooks.acquired_le _ hacq)
    · exact fun s hs => (hbooks.acquired_le s hs).trans (Nat.le_succ _)
    · intro i s hs
      by_cases hi : i = c
      · obtain rfl : t.serial + 1 = s := by simpa [hi] using hs
        exact le_rfl
      · exact (hbooks.submit_le i s (by simpa [hi] using hs)).trans (Nat.le_succ _)
    · intro i hi habandoned
      rw [hout]
      by_cases hic : i = c
      · exact ⟨t.serial + 1, by simp [hic], fun hacq =>
          absurd (hbooks.acquired_le _ hacq) (Nat.not_succ_le_self _)⟩
      · simpa [hic] using hbooks.used i (by simpa [hfree, Ne.symm hic] using hi)
          (by simpa [hic] using habandoned)
    · intro i hi
      have hic : i ≠ c := by
        rintro rfl
        simp [hfree, hlt] at hi
      simpa [hic] using hbooks.returned i (by simpa [hfree, hic.symm] using hi)
    · intro i hi
      obtain ⟨hi, hic⟩ := List.mem_filter.mp hi
      have hic : i ≠ c := by simpa using hic
      obtain ⟨hno, -, hacq⟩ := hbooks.abandoned i hi
      exact ⟨by rwa [hout], by simp [hring, hic.symm], by simpa [hic] using hacq⟩
    · refine ⟨hflight.inFlight, hflight.shown, fun x hx => ?_, fun a ha => ?_, fun hcur => ?_,
        hflight.next, hflight.token, by rw [hout]; exact hflight.tracked, fun a ha hentry => ?_⟩
      · rw [hout]
        exact hflight.flipping x hx
      · obtain ⟨hscan, hentry, hserial⟩ := hflight.scanning a ha
        rw [hout]
        refine ⟨?_, hentry, hserial⟩
        simp only [hring]
        exact ⟨hscan.key, hscan.token, hscan.next, hscan.token_ne_zero⟩
      · simpa [hring] using hflight.idle hcur
      · rw [hout] at hentry
        have hne : a.frame.slot ≠ c := hkey _ hentry
        simpa [hne] using hflight.live a ha hentry

theorem inv_fail {ptr : PtrWidth} {t : ScanoutTrace} (h : Inv ptr t) :
    Inv ptr (t.step ptr .fail) := by
  obtain ⟨hbooks, old, cur, hflight⟩ := h
  cases ht : t.producer.tier with
  | ring =>
    have hstep : t.step ptr .fail = { t with rendering := none } := by simp [step, ht]
    rw [hstep]
    exact ⟨{ hbooks with rendering := nofun }, old, cur, { hflight with }⟩
  | copy => simpa [step, ht] using ⟨hbooks, old, cur, hflight⟩

/-- The books of a slot that turns busy without the ring. -/
theorem Books.abandon {t : ScanoutTrace} (h : Books t) (htier : t.producer.tier = .ring)
    {c : SlotKey} (hlt : c < t.producer.free.length) (hkeys : c ∉ t.outstanding.map (·.key)) :
    Books { t with
      producer := t.producer.abandon c
      rendering := none
      abandoned :=
        if t.producer.free[c]? = some true then c :: t.abandoned else t.abandoned } := by
  have hwf := VkScanoutProducer.wf_abandon h.wf hlt
  rw [VkScanoutProducer.abandon_of_ring htier] at hwf ⊢
  have hset : ∀ i b, (t.producer.free.set c false)[i]? = some b →
      i = c ∧ b = false ∨ i ≠ c ∧ t.producer.free[i]? = some b := by
    intro i b hi
    by_cases hic : i = c
    · subst hic
      simp [hlt] at hi
      exact .inl ⟨rfl, hi⟩
    · exact .inr ⟨hic, by simpa [Ne.symm hic] using hi⟩
  have hbusy : ∀ {i : SlotKey}, t.producer.free[i]? = some false →
      (t.producer.free.set c false)[i]? = some false := by
    intro i hi
    by_cases hic : i = c
    · simp [hic, hlt]
    · simpa [Ne.symm hic] using hi
  refine ⟨hwf, h.imported, by simpa using h.slots, h.keys, fun o ho => hbusy (h.busy o ho),
    fun k hk => ⟨hbusy (h.pending k hk).1, (h.pending k hk).2⟩, h.acquired_le, h.submit_le,
    fun i hi habandoned => ?_, fun i hi => ?_, fun i hi => ?_, nofun⟩
  · rcases hset i false hi with ⟨rfl, -⟩ | ⟨-, hi⟩
    · -- a slot that was free is among the abandoned ones
      have hfree : t.producer.free[i]? = some false := by
        rw [List.getElem?_eq_getElem hlt]
        cases hget : t.producer.free[i] with
        | false => rfl
        | true => simp [List.getElem?_eq_getElem hlt, hget] at habandoned
      exact h.used i hfree (by simpa [hfree] using habandoned)
    · refine h.used i hi fun hmem => habandoned ?_
      split
      · exact List.mem_cons_of_mem _ hmem
      · exact hmem
  · rcases hset i true hi with ⟨-, hno⟩ | ⟨-, hi⟩
    · cases hno
    · exact h.returned i hi
  · by_cases hfree : t.producer.free[c]? = some true
    · rw [if_pos hfree] at hi
      rcases List.mem_cons.mp hi with rfl | hi
      · refine ⟨hkeys, fun hpend => ?_, h.returned i hfree⟩
        have hbusy' := (h.pending i hpend).1
        simp [hfree] at hbusy'
      · exact h.abandoned i hi
    · rw [if_neg hfree] at hi
      exact h.abandoned i hi

theorem inv_abandon {ptr : PtrWidth} {t : ScanoutTrace} (h : Inv ptr t)
    (huntouched : t.Untouched .abandon) : Inv ptr (t.step ptr .abandon) := by
  obtain ⟨hbooks, old, cur, hflight⟩ := h
  cases ht : t.producer.tier with
  | copy => simpa [step, ht] using ⟨hbooks, old, cur, hflight⟩
  | ring =>
    cases hr : t.rendering with
    | none => simpa [step, ht, hr] using ⟨hbooks, old, cur, hflight⟩
    | some c =>
      have hkeys := not_mem_keys_of_unreferenced hflight (huntouched ht c hr)
      have hbooks' := hbooks.abandon ht (hbooks.rendering c hr) hkeys
      have hring : (t.producer.abandon c).ring = t.producer.ring := by
        rw [VkScanoutProducer.abandon_of_ring ht]
      simp only [step, ht, hr]
      refine ⟨hbooks', old, cur, ?_⟩
      simp only [VkScanoutProducer.abandon_of_ring ht]
      exact { hflight with }

theorem inv_flip {ptr : PtrWidth} {t : ScanoutTrace} (h : Inv ptr t) :
    Inv ptr (t.step ptr .flip) := by
  obtain ⟨hbooks, old, cur, hflight⟩ := h
  cases hf : t.flip with
  | none => simpa [step, hf] using ⟨hbooks, old, cur, hflight⟩
  | some x =>
    have hstep : t.step ptr .flip =
        { t with flip := none, onScreen := x, before := t.onScreen } := by
      simp [step, hf]
    obtain ⟨hx, hold, -⟩ := hflight.flipping x hf
    rw [hstep]
    exact ⟨{ hbooks with }, old, cur, { hflight with
      shown := fun _ => ⟨hx, hold⟩
      flipping := fun y hy => by simp at hy }⟩

/-! ### Commits -/

/-- What a commit acquires after `cur`: the pending frame, or `cur` again. -/
structure Acquired (ptr : PtrWidth) (wait : FenceWait) (t : ScanoutTrace)
    (cur new : Option ScanoutAcquisition) : Prop where
  imported : Display.Imported (t.acquire ptr wait).1.producer.ring
  slots : (t.acquire ptr wait).1.producer.ring.slots = t.producer.ring.slots
  pending : (t.acquire ptr wait).1.producer.ring.presenter.pendingKey = none
  scanning : ∀ c ∈ new,
    Display.Scanning (t.acquire ptr wait).1.producer.ring c.frame.toShownFrame ∧
      c.buffer.token = c.frame.token ∧ c.frame.serial = (t.acquire ptr wait).1.scanSerial
  idle : new = none →
    (t.acquire ptr wait).1.producer.ring.presenter.scanningKey = none ∧ cur = none
  cases : (t.producer.ring.presenter.freshReady wait = true ∧
      ∃ c, new = some c ∧ t.producer.ring.presenter.pendingKey = some c.frame.slot ∧
        c.frame.serial = t.serial ∧
        (t.acquire ptr wait).1.outstanding =
          t.outstanding ++ [Display.entry c.frame.toShownFrame] ∧
        ∀ a ∈ cur, c.frame.token = advanceToken ptr a.frame.token) ∨
    (t.producer.ring.presenter.freshReady wait = false ∧
      (t.acquire ptr wait).1.outstanding = t.outstanding ∧
      new.map (·.frame) = cur.map (·.frame))

theorem acquire_slots (ptr : PtrWidth) (wait : FenceWait) (r : ExternalDmaBufRing) :
    (r.acquire ptr wait).1.slots = r.slots ∧
      (r.acquire ptr wait).1.presenter = (r.presenter.acquire ptr wait).1 := by
  unfold ExternalDmaBufRing.acquire
  dsimp only
  split <;> exact ⟨rfl, rfl⟩

theorem acquire_spec {ptr : PtrWidth} {t : ScanoutTrace} {old cur : Option ScanoutAcquisition}
    (hbooks : Books t) (hflight : Flight ptr t old cur) (wait : FenceWait) :
    Acquired ptr wait t cur (t.acquire ptr wait).2 := by
  obtain ⟨hslots, hpresenter⟩ := acquire_slots ptr wait t.producer.ring
  have hpend : (t.producer.ring.acquire ptr wait).1.presenter.pendingKey = none := by
    rw [hpresenter]
    rcases acquire_cases ptr wait t.producer.ring.presenter with
      ⟨-, key, fence, damage, -, -, h, -⟩ | ⟨-, -, h, -⟩ <;> exact h
  have hkey : t.producer.ring.presenter.freshReady wait = true →
      t.producer.ring.presenter.pendingKey =
        (t.producer.ring.acquire ptr wait).1.presenter.scanningKey := by
    intro hready
    rw [hpresenter]
    rcases acquire_cases ptr wait t.producer.ring.presenter with
      ⟨-, key, fence, damage, h, -, -, h', -⟩ | ⟨hready', -⟩
    · exact h.trans h'.symm
    · simp [hready] at hready'
  rcases Display.acquire_spec ptr wait hbooks.imported with
    ⟨hready, c, b, hacq, htoken, hnext, hscan, himp, hout⟩ |
    ⟨hready, himp, hkey', htoken, hnext, hout, hnone, hhold⟩
  · have hnew : (t.acquire ptr wait).2 = some ⟨b, ⟨c, t.serial⟩⟩ := by
      simp [acquire, hacq, hscan.key, hready, htoken]
    rw [hnew]
    refine ⟨himp, hslots, hpend, ?_, by simp, .inl ⟨hready, _, rfl, ?_, rfl, hout, ?_⟩⟩
    · rintro c' hc'
      obtain rfl := Option.some.inj hc'
      exact ⟨hscan, htoken, by simp [acquire, hready]⟩
    · exact (hkey hready).trans hscan.key
    · intro a ha
      exact hnext.trans (by rw [(hflight.scanning a ha).1.next])
  · cases cur with
    | none =>
      have hidle := (hflight.idle rfl).1
      have hnew : (t.acquire ptr wait).2 = none := by simp [acquire, hnone hidle]
      rw [hnew]
      exact ⟨himp, hslots, hpend, by simp, fun _ => ⟨hkey'.trans hidle, rfl⟩,
        .inr ⟨hready, hout, rfl⟩⟩
    | some a =>
      obtain ⟨hscan, -, hserial⟩ := hflight.scanning a rfl
      obtain ⟨b, hacq, hb⟩ := hhold _ hscan.key
      have hb' : b.token = a.frame.token := hb.trans hscan.token
      have hnew : (t.acquire ptr wait).2 = some ⟨b, a.frame⟩ := by
        simp [acquire, hacq, hkey', hscan.key, hready, hb', ← hserial]
      rw [hnew]
      refine ⟨himp, hslots, hpend, ?_, by simp, .inr ⟨hready, hout, rfl⟩⟩
      rintro c' hc'
      obtain rfl := Option.some.inj hc'
      refine ⟨⟨hkey'.trans hscan.key, htoken.trans hscan.token, hnext.trans hscan.next,
        hscan.token_ne_zero⟩, hb', ?_⟩
      simpa [acquire, hready] using hserial

theorem Books.acquire {ptr : PtrWidth} {wait : FenceWait} {t : ScanoutTrace}
    {cur new : Option ScanoutAcquisition} (h : Books t) (hacq : Acquired ptr wait t cur new) :
    Books (t.acquire ptr wait).1 := by
  have hfree : (t.acquire ptr wait).1.producer.free = t.producer.free := rfl
  have hsub : (t.acquire ptr wait).1.lastSubmit = t.lastSubmit := rfl
  have hwf : (t.acquire ptr wait).1.producer.Wf :=
    ⟨h.wf.sized, h.wf.last_lt, h.wf.copy_lt⟩
  have hslots : (t.acquire ptr wait).1.producer.ring.slots.length =
      (t.acquire ptr wait).1.producer.free.length := by
    rw [hacq.slots, h.slots]
    rfl
  rcases hacq.cases with ⟨hready, c, -, hpend, -, hout, -⟩ | ⟨hready, hout, -⟩
  · obtain ⟨hbusy, hkeys, hlatest, hserial⟩ := h.pending _ hpend
    have hacquired : (t.acquire ptr wait).1.acquired = t.acquired ++ [t.serial] := if_pos hready
    refine ⟨hwf, hacq.imported, hslots, ?_, ?_, by simp [hacq.pending], ?_, h.submit_le, ?_, ?_, ?_,
      h.rendering⟩
    · rw [hout, List.map_append]
      exact List.Nodup.append h.keys (by simp) (by simpa [Display.entry] using hkeys)
    · rw [hout]
      rintro o ho
      rcases List.mem_append.mp ho with ho | ho
      · exact h.busy o ho
      · obtain rfl := List.mem_singleton.mp ho
        exact hbusy
    · rw [hacquired]
      intro s hs
      rcases List.mem_append.mp hs with hs | hs
      · exact h.acquired_le s hs
      · exact (List.mem_singleton.mp hs).le
    · intro i hi habandoned
      obtain ⟨s, hs, hmem⟩ := h.used i hi habandoned
      refine ⟨s, hs, fun hs' => ?_⟩
      rw [hout, List.map_append, List.mem_append]
      rw [hacquired, List.mem_append, List.mem_singleton] at hs'
      rcases hs' with hs' | rfl
      · exact .inl (hmem hs')
      · exact .inr (by simp [Display.entry, (hlatest i).mp hs])
    · intro i hi s hs
      rw [hacquired]
      exact List.mem_append_left _ (h.returned i hi s hs)
    · intro i hi
      obtain ⟨hno, hpend', hacq'⟩ := h.abandoned i hi
      refine ⟨?_, by simp [hacq.pending], fun s hs => ?_⟩
      · have hne : i ≠ c.frame.slot := by
          rintro rfl
          exact hpend' hpend
        rw [hout, List.map_append, List.mem_append, not_or]
        exact ⟨hno, by simpa [Display.entry] using hne⟩
      · rw [hacquired]
        exact List.mem_append_left _ (hacq' s hs)
  · have hacquired : (t.acquire ptr wait).1.acquired = t.acquired := if_neg (by simp [hready])
    refine ⟨hwf, hacq.imported, hslots, hout ▸ h.keys, hout ▸ h.busy, by simp [hacq.pending],
      hacquired ▸ h.acquired_le, h.submit_le, ?_, hacquired ▸ h.returned, fun i hi => ?_,
      h.rendering⟩
    · rw [hout, hacquired]
      exact h.used
    · obtain ⟨hno, -, hacq'⟩ := h.abandoned i hi
      exact ⟨hout ▸ hno, by simp [hacq.pending], hacquired ▸ hacq'⟩

/-- A release of one of the entries, whose slot was not submitted since it was acquired. -/
theorem Books.release {t : ScanoutTrace} {l r : List Outstanding} {o : Outstanding} (h : Books t)
    (hout : t.outstanding = l ++ o :: r) (hlatest : ∀ s ∈ t.lastSubmit o.key, s ∈ t.acquired) :
    Books { t with producer := t.producer.released (l ++ r) o.key } := by
  have hperm : (t.outstanding.map (·.key)).Perm (o.key :: (l ++ r).map (·.key)) := by
    rw [hout]
    exact List.perm_middle.map Outstanding.key
  obtain ⟨hgone, hnodup⟩ := List.nodup_cons.mp (hperm.nodup_iff.mp h.keys)
  have hmem : ∀ i, i ∈ (l ++ r).map (·.key) ↔ i ∈ t.outstanding.map (·.key) ∧ i ≠ o.key := by
    intro i
    rw [hperm.mem_iff, List.mem_cons]
    refine ⟨fun hi => ⟨.inr hi, ?_⟩, fun hi => hi.1.resolve_left hi.2⟩
    rintro rfl
    exact hgone hi
  refine ⟨⟨?_, ?_, h.wf.copy_lt⟩, h.imported.withOutstanding _, ?_, hnodup, ?_, ?_, h.acquired_le,
    h.submit_le, ?_, ?_, ?_, ?_⟩
  · simpa using h.wf.sized
  · simpa using h.wf.last_lt
  · simpa [Display.withOutstanding] using h.slots
  · intro o' ho'
    have ho' : o' ∈ l ++ r := ho'
    have hne := ((hmem o'.key).mp (List.mem_map_of_mem ho')).2
    have hold : o' ∈ t.outstanding := by
      rw [hout]
      exact (List.perm_middle.mem_iff).mpr (.tail _ ho')
    simpa [hne.symm] using h.busy o' hold
  · intro k hk
    obtain ⟨hbusy, hkeys, hrest⟩ := h.pending k hk
    have hne : o.key ≠ k := by
      rintro rfl
      exact hkeys (hperm.mem_iff.mpr List.mem_cons_self)
    refine ⟨?_, fun hk' => hkeys ((hmem k).mp hk').1, hrest⟩
    simpa [hne] using hbusy
  · intro i hi habandoned
    have hne : o.key ≠ i := by
      rintro rfl
      simp only [VkScanoutProducer.released_free, List.getElem?_set_self'] at hi
      cases hget : t.producer.free[o.key]? <;> simp [hget] at hi
    obtain ⟨s, hs, hkeys⟩ := h.used i (by simpa [hne] using hi) habandoned
    exact ⟨s, hs, fun hacq => (hmem i).mpr ⟨hkeys hacq, hne.symm⟩⟩
  · intro i hi
    by_cases hne : o.key = i
    · exact hne ▸ hlatest
    · exact h.returned i (by simpa [hne] using hi)
  · intro i hi
    obtain ⟨hkeys, hrest⟩ := h.abandoned i hi
    exact ⟨fun hi' => hkeys ((hmem i).mp hi').1, hrest⟩
  · intro c hc
    simpa using h.rendering c hc

/-- The release of the acquisition two commits back: nothing, or its entry goes and its slot is
free. -/
inductive ReleaseCase (p : VkScanoutProducer) (old : Option ScanoutAcquisition) : Prop
  | silent (heq : releaseAll p old.toList = (p, []))
    (hno : ∀ b ∈ old, b.buffer.token = 0 ∨ b.buffer.token = p.ring.presenter.scanningToken ∨
      ∀ o ∈ p.ring.presenter.outstanding, o.token ≠ b.buffer.token)
  | fires {b : ScanoutAcquisition} {o : Outstanding} {l r : List Outstanding} (hold : old = some b)
    (htoken : o.token = b.buffer.token) (hlive : o.token ≠ p.ring.presenter.scanningToken)
    (hout : p.ring.presenter.outstanding = l ++ o :: r)
    (heq : releaseAll p old.toList = (p.released (l ++ r) o.key, [(o.key, b.frame)]))

theorem eraseToken_split {os : List Outstanding} {token : Token} {key : SlotKey}
    (h : findToken os token = some key) :
    ∃ l r, os = l ++ ⟨token, key⟩ :: r ∧ eraseToken os token = l ++ r := by
  induction os with
  | nil => simp [findToken] at h
  | cons x os ih =>
    by_cases hx : x.token = token
    · have hkey : x.key = key := by simpa [findToken, hx] using h
      exact ⟨[], os, by simp [← hx, ← hkey], by simp [eraseToken, hx]⟩
    · have hrest : findToken os token = some key := by simpa [findToken, hx] using h
      obtain ⟨l, r, hos, herase⟩ := ih hrest
      refine ⟨x :: l, r, by simp [hos], ?_⟩
      rw [eraseToken] at herase
      simp [eraseToken, hx, herase]

theorem releaseCase (p : VkScanoutProducer) (old : Option ScanoutAcquisition) :
    ReleaseCase p old := by
  cases old with
  | none => exact .silent rfl (by simp)
  | some b =>
    have hrelease := release_cases p.ring.presenter b.buffer.token
    cases hfind : (p.ring.presenter.release b.buffer.token).2 with
    | none =>
      rcases hrelease with ⟨heq, hno⟩ | ⟨key, -, -, -, heq⟩
      · refine .silent ?_ (by simpa using hno)
        simp [releaseAll, ExternalDmaBufRing.release, heq]
      · simp [heq] at hfind
    | some key =>
      rcases hrelease with ⟨heq, -⟩ | ⟨key', hzero, hlive, -, heq⟩
      · simp [heq] at hfind
      · obtain rfl : key' = key := by simpa [heq] using hfind
        have htoken : findToken p.ring.presenter.outstanding b.buffer.token = some key' := by
          have := congrArg Prod.snd heq
          simpa [RingPresenter.release, hzero, hlive] using this
        obtain ⟨l, r, hout, herase⟩ := eraseToken_split htoken
        refine .fires (o := ⟨b.buffer.token, key'⟩) rfl rfl hlive hout ?_
        simp [releaseAll, ExternalDmaBufRing.release, heq, herase,
          VkScanoutProducer.released, Display.withOutstanding]

/-- Frames of two successive commits with one token are one frame. -/
theorem Flight.eq_of_token {ptr : PtrWidth} {t : ScanoutTrace}
    {old cur : Option ScanoutAcquisition} (h : Flight ptr t old cur) {b a : ScanoutAcquisition}
    (hb : b ∈ old) (ha : a ∈ cur) (htoken : b.frame.token = a.frame.token) : b.frame = a.frame := by
  rcases (h.next b hb a ha).2 with heq | hnext
  · exact heq
  · exact absurd (htoken.trans hnext).symm (advanceToken_ne_self ptr b.frame.token).1

/-- Where the frame two commits back has the token the commit scans out, it is `cur` again. -/
theorem Acquired.eq_of_token {ptr : PtrWidth} {wait : FenceWait} {t : ScanoutTrace}
    {old cur new : Option ScanoutAcquisition} (h : Acquired ptr wait t cur new)
    (hflight : Flight ptr t old cur) {b a c : ScanoutAcquisition} (hb : b ∈ old) (ha : a ∈ cur)
    (hc : c ∈ new) (htoken : b.frame.token = c.frame.token) : b.frame = a.frame := by
  rcases h.cases with ⟨-, c', hc', -, -, -, hnext⟩ | ⟨-, -, hframe⟩
  · obtain rfl : c' = c := Option.some.inj (hc'.symm.trans hc)
    have hself := advanceToken_ne_self ptr
    rw [hnext a ha] at htoken
    rcases (hflight.next b hb a ha).2 with heq | hnext'
    · rw [heq] at htoken
      exact absurd htoken.symm (hself _).1
    · rw [hnext'] at htoken
      exact absurd htoken.symm (hself _).2
  · have hca : c.frame = a.frame := by
      rw [hc, ha] at hframe
      exact Option.some.inj hframe
    exact hflight.eq_of_token hb ha (htoken.trans (congrArg (·.token) hca))

/-- What a commit acquires has an entry. -/
theorem Acquired.entry_mem {ptr : PtrWidth} {wait : FenceWait} {t : ScanoutTrace}
    {old cur new : Option ScanoutAcquisition} (h : Acquired ptr wait t cur new)
    (hflight : Flight ptr t old cur) {c : ScanoutAcquisition} (hc : c ∈ new) :
    Display.entry c.frame.toShownFrame ∈ (t.acquire ptr wait).1.outstanding := by
  rcases h.cases with ⟨-, c', hc', -, -, hout, -⟩ | ⟨-, hout, hframe⟩
  · obtain rfl : c' = c := Option.some.inj (hc'.symm.trans hc)
    simp [hout]
  · rw [Option.mem_def.mp hc] at hframe
    obtain ⟨a, ha, hca⟩ := Option.map_eq_some_iff.mp hframe.symm
    have hca : a.frame = c.frame := hca
    rw [hout, ← hca]
    exact (hflight.scanning a ha).2.1

theorem Acquired.mem_outstanding {ptr : PtrWidth} {wait : FenceWait} {t : ScanoutTrace}
    {cur new : Option ScanoutAcquisition} (h : Acquired ptr wait t cur new) {o : Outstanding}
    (ho : o ∈ (t.acquire ptr wait).1.outstanding) :
    o ∈ t.outstanding ∨ ∃ c ∈ new, o = Display.entry c.frame.toShownFrame := by
  rcases h.cases with ⟨-, c, hc, -, -, hout, -⟩ | ⟨-, hout, -⟩ <;> rw [hout] at ho
  · exact (List.mem_append.mp ho).imp_right fun h => ⟨c, hc, List.mem_singleton.mp h⟩
  · exact .inl ho

theorem mem_acquired_acquire (ptr : PtrWidth) (wait : FenceWait) {t : ScanoutTrace} {s : ℕ}
    (h : s ∈ t.acquired) : s ∈ (t.acquire ptr wait).1.acquired := by
  simp only [acquire]
  split
  · exact List.mem_append_left _ h
  · exact h

/-- What a commit acquires was submitted last of its slot, and is acquired. -/
theorem Acquired.live {ptr : PtrWidth} {wait : FenceWait} {t : ScanoutTrace}
    {old cur new : Option ScanoutAcquisition} (h : Acquired ptr wait t cur new) (hbooks : Books t)
    (hflight : Flight ptr t old cur) {a : ScanoutAcquisition} (ha : a ∈ cur ∨ a ∈ new) :
    t.lastSubmit a.frame.slot = some a.frame.serial ∧
      a.frame.serial ∈ (t.acquire ptr wait).1.acquired := by
  have hcur : ∀ a ∈ cur, t.lastSubmit a.frame.slot = some a.frame.serial ∧
      a.frame.serial ∈ (t.acquire ptr wait).1.acquired := by
    intro a ha
    obtain ⟨hsub, hacquired⟩ := hflight.live a (.inr ha) (hflight.scanning a ha).2.1
    exact ⟨hsub, mem_acquired_acquire ptr wait hacquired⟩
  rcases ha with ha | ha
  · exact hcur a ha
  · rcases h.cases with ⟨hready, c, hc, hpend, hserial, -⟩ | ⟨-, -, hframe⟩
    · obtain rfl : c = a := Option.some.inj (hc.symm.trans ha)
      obtain ⟨-, -, hlatest, -⟩ := hbooks.pending _ hpend
      rw [hserial]
      exact ⟨(hlatest _).mpr rfl, by simp [acquire, hready]⟩
    · rw [Option.mem_def.mp ha] at hframe
      obtain ⟨a', ha', heq⟩ := Option.map_eq_some_iff.mp hframe.symm
      have heq : a'.frame = a.frame := heq
      rw [← heq]
      exact hcur a' ha'

/-- A superseded entry under the token of the frame two commits back is that frame's. -/
theorem Acquired.superseded {ptr : PtrWidth} {wait : FenceWait} {t : ScanoutTrace}
    {old cur new : Option ScanoutAcquisition} (h : Acquired ptr wait t cur new)
    (hflight : Flight ptr t old cur) {b : ScanoutAcquisition} (hb : b ∈ old) {o : Outstanding}
    (ho : o ∈ (t.acquire ptr wait).1.outstanding) (htoken : o.token = b.frame.token)
    (hlive : o.token ≠ (t.acquire ptr wait).1.producer.ring.presenter.scanningToken) :
    o = Display.entry b.frame.toShownFrame ∧ o ∈ t.outstanding := by
  have hmem : o ∈ t.outstanding := by
    rcases h.mem_outstanding ho with ho | ⟨c, hc, rfl⟩
    · exact ho
    · exact absurd (h.scanning c hc).1.token.symm hlive
  obtain ⟨a, ha | ha, rfl⟩ := hflight.tracked o hmem
  · obtain rfl : a = b := Option.some.inj (ha.symm.trans hb)
    exact ⟨rfl, hmem⟩
  · rw [hflight.eq_of_token hb ha htoken.symm]
    exact ⟨rfl, hmem⟩

theorem fired_latest {ptr : PtrWidth} {t : ScanoutTrace} {old cur : Option ScanoutAcquisition}
    (hbooks : Books t) (hflight : Flight ptr t old cur) (wait : FenceWait) :
    ∀ x ∈ t.fired ptr wait, t.lastSubmit x.1 = some x.2.serial := by
  have hacq := acquire_spec hbooks hflight wait
  have hfired : t.fired ptr wait =
      (releaseAll (t.acquire ptr wait).1.producer old.toList).2 := by
    rw [fired, hflight.inFlight]
  rw [hfired]
  cases releaseCase (t.acquire ptr wait).1.producer old with
  | silent heq _ => simp [heq]
  | @fires b o l r hold htoken hlive hout heq =>
    rintro x hx
    obtain rfl : x = (o.key, b.frame) := by simpa [heq] using hx
    have ho : o ∈ (t.acquire ptr wait).1.outstanding := by
      rw [outstanding, hout]
      simp
    obtain ⟨rfl, hmem⟩ := hacq.superseded hflight hold ho
      (htoken.trans (hflight.token b (.inl hold))) hlive
    exact (hflight.live b (.inl hold) hmem).1

/-- The entries a commit leaves: the superseded one of the frame two commits back is gone. -/
structure Rest (ptr : PtrWidth) (wait : FenceWait) (t : ScanoutTrace)
    (old : Option ScanoutAcquisition) (rest : List Outstanding) : Prop where
  mem : ∀ o ∈ rest, o ∈ (t.acquire ptr wait).1.outstanding
  kept : ∀ o ∈ (t.acquire ptr wait).1.outstanding, o ∈ rest ∨
    o.token ≠ (t.acquire ptr wait).1.producer.ring.presenter.scanningToken ∧
      ∃ b ∈ old, o.token = b.frame.token
  live : ∀ b ∈ old, Display.entry b.frame.toShownFrame ∈ rest →
    b.frame.token = (t.acquire ptr wait).1.producer.ring.presenter.scanningToken

theorem flight_commit {ptr : PtrWidth} {t : ScanoutTrace} {old cur : Option ScanoutAcquisition}
    (hbooks : Books t) (hflight : Flight ptr t old cur) (hflip : t.flip = none) (wait : FenceWait)
    {rest : List Outstanding} (hrest : Rest ptr wait t old rest) {p : VkScanoutProducer}
    (hp : p.ring = Display.withOutstanding (t.acquire ptr wait).1.producer.ring rest) :
    Flight ptr { (t.acquire ptr wait).1 with
      producer := p
      inFlight := t.inFlight.rotate id (t.acquire ptr wait).2.toList
      flip := some ((t.acquire ptr wait).2.map (·.frame)) } cur (t.acquire ptr wait).2 := by
  have hacq := acquire_spec hbooks hflight wait
  obtain ⟨honScreen, hbefore⟩ := hflight.shown hflip
  generalize (t.acquire ptr wait).2 = new at hacq ⊢
  have hout : ScanoutTrace.outstanding { (t.acquire ptr wait).1 with
      producer := p
      inFlight := t.inFlight.rotate id new.toList
      flip := some (new.map (·.frame)) } = rest := by
    rw [outstanding, hp]
    rfl
  refine ⟨?_, nofun, ?_, ?_, ?_, ?_, ?_, ?_, fun a ha _ => hacq.live hbooks hflight ha⟩
  · simp [InFlight.rotate, hflight.inFlight]
  · rintro x hx
    obtain rfl := Option.some.inj hx
    refine ⟨rfl, honScreen, fun a ha => ?_⟩
    rw [hout]
    have hmem : Display.entry a.frame.toShownFrame ∈ (t.acquire ptr wait).1.outstanding := by
      have hmem := (hflight.scanning a ha).2.1
      rcases hacq.cases with ⟨-, c, -, -, -, hout, -⟩ | ⟨-, hout, -⟩ <;> rw [hout]
      · exact List.mem_append_left _ hmem
      · exact hmem
    -- the frame on screen loses its entry only if both commits before showed it
    rcases hrest.kept _ hmem with hkept | ⟨-, b, hb, htoken⟩
    · exact .inl hkept
    · right
      have heq := hflight.eq_of_token hb ha htoken.symm
      simp [acquire, honScreen, hbefore, Option.mem_def.mp ha, Option.mem_def.mp hb, heq]
  · intro c hc
    obtain ⟨hscan, -, hserial⟩ := hacq.scanning c hc
    rw [hout]
    simp only [hp]
    exact ⟨hscan.withOutstanding _, (hrest.kept _ (hacq.entry_mem hflight hc)).resolve_right
      fun h => h.1 hscan.token.symm, hserial⟩
  · intro hnew
    obtain ⟨hkey, hcur⟩ := hacq.idle hnew
    simp only [hp]
    exact ⟨hkey, hcur⟩
  · intro a ha c hc
    refine ⟨(hflight.scanning a ha).1.token_ne_zero, ?_⟩
    rcases hacq.cases with ⟨-, c', hc', -, -, -, hnext⟩ | ⟨-, -, hframe⟩
    · obtain rfl : c' = c := Option.some.inj (hc'.symm.trans hc)
      exact .inr (hnext a ha)
    · rw [Option.mem_def.mp hc, Option.mem_def.mp ha] at hframe
      exact .inl (Option.some.inj hframe).symm
  · rintro a (ha | ha)
    · exact hflight.token a (.inr ha)
    · exact (hacq.scanning a ha).2.1
  · intro o ho
    rw [hout] at ho
    rcases hacq.mem_outstanding (hrest.mem o ho) with hmem | ⟨c, hc, rfl⟩
    · obtain ⟨a, ha | ha, rfl⟩ := hflight.tracked o hmem
      · -- an entry of the frame two commits back is left where that frame still scans out
        have hlive := hrest.live a ha ho
        cases hcur : cur with
        | none => simp [(hflight.idle hcur).2] at ha
        | some a' =>
          cases hnew : new with
          | none => simp [(hacq.idle hnew).2] at hcur
          | some c =>
            rw [(hacq.scanning c hnew).1.token] at hlive
            rw [hacq.eq_of_token hflight ha hcur hnew hlive]
            exact ⟨a', .inl rfl, rfl⟩
      · exact ⟨a, .inl ha, rfl⟩
    · exact ⟨c, .inr hc, rfl⟩

theorem inv_commit {ptr : PtrWidth} {t : ScanoutTrace} (h : Inv ptr t) (wait : FenceWait) :
    Inv ptr (t.step ptr (.commit wait)) := by
  obtain ⟨hbooks, old, cur, hflight⟩ := h
  cases hflip : t.flip with
  | some x => simpa [step, hflip] using ⟨hbooks, old, cur, hflight⟩
  | none =>
    have hacq := acquire_spec hbooks hflight wait
    have hbooks' := hbooks.acquire hacq
    have hstep : t.step ptr (.commit wait) = { (t.acquire ptr wait).1 with
        producer := (releaseAll (t.acquire ptr wait).1.producer old.toList).1
        inFlight := t.inFlight.rotate id (t.acquire ptr wait).2.toList
        flip := some ((t.acquire ptr wait).2.map (·.frame)) } := by
      simp [step, hflip, hflight.inFlight]
    rw [hstep]
    cases releaseCase (t.acquire ptr wait).1.producer old with
    | silent heq hno =>
      rw [heq]
      refine ⟨{ hbooks' with }, cur, _, flight_commit hbooks hflight hflip wait
        (show Rest ptr wait t old (t.acquire ptr wait).1.outstanding from
          ⟨fun _ => id, fun _ => .inl, ?_⟩) rfl⟩
      intro b hb hmem
      have hcur : cur ≠ none := fun hcur => by simp [(hflight.idle hcur).2] at hb
      obtain ⟨a, ha⟩ := Option.ne_none_iff_exists'.mp hcur
      rcases hno b hb with hzero | hlive | hno
      · rw [hflight.token b (.inl hb)] at hzero
        exact absurd hzero (hflight.next b hb a ha).1
      · rwa [hflight.token b (.inl hb)] at hlive
      · exact absurd (hflight.token b (.inl hb)).symm (hno _ hmem)
    | @fires b o l r hold htoken hlive hout heq =>
      rw [heq]
      have hb := htoken.trans (hflight.token b (.inl hold))
      have ho : o ∈ (t.acquire ptr wait).1.outstanding := by
        rw [outstanding, hout]
        simp
      have hbooks'' := hbooks'.release (o := o) hout fun s hs => by
        obtain ⟨rfl, hmem⟩ := hacq.superseded hflight hold ho hb hlive
        obtain ⟨hsub, hacquired⟩ := hflight.live b (.inl hold) hmem
        obtain rfl : b.frame.serial = s := Option.some.inj (hsub.symm.trans hs)
        exact mem_acquired_acquire ptr wait hacquired
      refine ⟨{ hbooks'' with }, cur, _, flight_commit hbooks hflight hflip wait
        (show Rest ptr wait t old (l ++ r) from
          ⟨fun x hx => ?_, fun x hx => ?_, fun b' hb' hmem => ?_⟩) rfl⟩
      · rw [outstanding, hout]
        exact List.perm_middle.mem_iff.mpr (.tail _ hx)
      · rw [outstanding, hout] at hx
        rcases List.mem_cons.mp (List.perm_middle.mem_iff.mp hx) with rfl | hx
        · exact .inr ⟨hlive, b, hold, hb⟩
        · exact .inl hx
      · -- its one entry is the one that went
        obtain rfl : b' = b := Option.some.inj (hb'.symm.trans hold)
        obtain ⟨rfl, -⟩ := hacq.superseded hflight hold ho hb hlive
        have hkeys := hbooks'.keys
        rw [outstanding, hout, (List.perm_middle.map _).nodup_iff, List.map_cons,
          List.nodup_cons] at hkeys
        exact absurd (List.mem_map_of_mem hmem) hkeys.1

/-! ### Runs -/

theorem inv_step {ptr : PtrWidth} {t : ScanoutTrace} {e : ScanoutEvent} (h : Inv ptr t)
    (huntouched : t.Untouched e) : Inv ptr (t.step ptr e) := by
  cases e with
  | pick => exact inv_pick h
  | submit fence => exact inv_submit h fence huntouched
  | fail => exact inv_fail h
  | abandon => exact inv_abandon h huntouched
  | commit wait => exact inv_commit h wait
  | flip => exact inv_flip h

theorem Kept.untouched {t : ScanoutTrace} {e : ScanoutEvent} (h : t.Kept e) : t.Untouched e := by
  cases e with
  | submit fence => exact h.1
  | abandon => exact h.1
  | _ => trivial

theorem sound_iff {ptr : PtrWidth} {t : ScanoutTrace} (h : Inv ptr t) {e : ScanoutEvent}
    (huntouched : t.Untouched e) : t.Sound ptr e ↔ t.Kept e := by
  obtain ⟨hbooks, old, cur, hflight⟩ := h
  cases e with
  | pick => exact sound_iff_kept hbooks hflight
  | submit fence =>
    refine Iff.trans ?_ (and_iff_right huntouched).symm
    exact forall₂_congr fun c hc =>
      offScreen_iff hflight (not_mem_keys_of_unreferenced hflight (huntouched c hc))
  | abandon =>
    refine Iff.trans ?_ (and_iff_right huntouched).symm
    exact forall_congr' fun ht => forall₂_congr fun c hc =>
      offScreen_iff hflight (not_mem_keys_of_unreferenced hflight (huntouched ht c hc))
  | commit wait => exact iff_of_true (fun _ => fired_latest hbooks hflight wait) trivial
  | fail | flip => exact Iff.rfl

/-- As long as every draw reached the ring: the pending slot is the one drawn last, and a render is
not about to draw into a slot the ring has. -/
structure Orderly (t : ScanoutTrace) : Prop where
  pending : ∀ k ∈ t.producer.ring.presenter.pendingKey, k = t.producer.lastSubmitted
  rendering : ∀ c ∈ t.rendering, c ∉ t.outstanding.map (·.key) ∧
    c ∉ t.producer.ring.presenter.pendingKey

theorem Orderly.untouched {ptr : PtrWidth} {t : ScanoutTrace} (hinv : Inv ptr t) (h : Orderly t)
    {e : ScanoutEvent} : t.Untouched e := by
  obtain ⟨-, old, cur, hflight⟩ := hinv
  have hslot : ∀ c ∈ t.rendering, t.producer.ring.presenter.isReferenced c = false := by
    intro c hc
    rw [← Bool.not_eq_true, isReferenced_iff hflight]
    exact (h.rendering c hc).1
  cases e with
  | submit fence => exact hslot
  | abandon => exact fun _ => hslot
  | _ => trivial

theorem orderly_pick {ptr : PtrWidth} {t : ScanoutTrace} (hinv : Inv ptr t) (h : Orderly t)
    (hsound : t.Sound ptr .pick) : Orderly (t.step ptr .pick) := by
  obtain ⟨hbooks, old, cur, hflight⟩ := hinv
  cases hr : t.rendering with
  | some c => simpa [step, hr] using h
  | none =>
    have hkeys := hbooks.target fun hnone => not_mem_keys_of_unreferenced hflight
      ((fallback_iff hbooks hflight hnone).mp ((hsound hr).1 hnone)).1
    have hpend : t.producer.target ∉ t.producer.ring.presenter.pendingKey := by
      intro hpend
      rcases (VkScanoutProducer.targetSpec hbooks.wf).free with hfree | ⟨-, hne⟩
      · have hbusy := (hbooks.pending _ hpend).1
        simp [hfree] at hbusy
      · exact hne (h.pending _ hpend)
    have hstep : t.step ptr .pick = { t with rendering := some t.producer.target } := by
      simp [step, hr]
    rw [hstep]
    refine ⟨h.pending, ?_⟩
    rintro c hc
    obtain rfl := Option.some.inj hc
    exact ⟨hkeys, hpend⟩

theorem orderly_submit {ptr : PtrWidth} {t : ScanoutTrace} (hinv : Inv ptr t) (h : Orderly t)
    (fence : Option SyncFence) : Orderly (t.step ptr (.submit fence)) := by
  obtain ⟨hbooks, -⟩ := hinv
  cases hr : t.rendering with
  | none => simpa [step, hr] using h
  | some c =>
    have hlt := hbooks.rendering c hr
    obtain ⟨-, f, hring⟩ := VkScanoutProducer.submit_spec (hbooks.slots ▸ hlt) fence
    have hlast := VkScanoutProducer.lastSubmitted_submit hbooks.wf hlt fence
    simp only [step, hr]
    refine ⟨fun k hk => ?_, nofun⟩
    obtain rfl : c = k := by simpa [hring] using hk
    exact hlast.symm

theorem orderly_commit {ptr : PtrWidth} {t : ScanoutTrace} (hinv : Inv ptr t) (h : Orderly t)
    (wait : FenceWait) : Orderly (t.step ptr (.commit wait)) := by
  obtain ⟨hbooks, old, cur, hflight⟩ := hinv
  cases hflip : t.flip with
  | some x => simpa [step, hflip] using h
  | none =>
    have hacq := acquire_spec hbooks hflight wait
    have hkeys : ∀ c ∈ t.rendering, c ∉ (t.acquire ptr wait).1.outstanding.map (·.key) := by
      intro c hc
      obtain ⟨hno, hpend⟩ := h.rendering c hc
      rcases hacq.cases with ⟨-, a, -, hkey, -, hout, -⟩ | ⟨-, hout, -⟩
      · have hne : c ≠ a.frame.slot := by
          rintro rfl
          exact hpend hkey
        rw [hout, List.map_append, List.mem_append, not_or]
        exact ⟨hno, by simpa [Display.entry] using hne⟩
      · rwa [hout]
    simp only [step, hflip, hflight.inFlight]
    -- what is released is one entry less
    cases releaseCase (t.acquire ptr wait).1.producer old with
    | silent heq _ =>
      simp only [Option.isSome_none, Bool.false_eq_true, if_false, heq]
      exact ⟨by simp [hacq.pending], fun c hc => ⟨hkeys c hc, by simp [hacq.pending]⟩⟩
    | @fires b o l r _ _ _ hout heq =>
      simp only [Option.isSome_none, Bool.false_eq_true, if_false, heq]
      have hpend : (Display.withOutstanding (t.acquire ptr wait).1.producer.ring
          (l ++ r)).presenter.pendingKey = none := hacq.pending
      have hnone : ∀ k, k ∉ (Display.withOutstanding (t.acquire ptr wait).1.producer.ring
          (l ++ r)).presenter.pendingKey := fun k hk => by cases hpend.symm.trans hk
      refine ⟨fun k hk => absurd hk (hnone k),
        fun c hc => ⟨fun hmem => hkeys c hc ?_, hnone c⟩⟩
      rw [outstanding, hout]
      exact (List.perm_middle.map _).mem_iff.mpr (.tail _ hmem)

theorem orderly_step {ptr : PtrWidth} {t : ScanoutTrace} (hinv : Inv ptr t) (h : Orderly t)
    {e : ScanoutEvent} (hsound : t.Sound ptr e) (he : e ≠ .abandon) : Orderly (t.step ptr e) := by
  cases e with
  | pick => exact orderly_pick hinv h hsound
  | submit fence => exact orderly_submit hinv h fence
  | fail =>
    cases ht : t.producer.tier with
    | ring => simpa [step, ht] using ⟨h.pending, nofun⟩
    | copy => simpa [step, ht] using h
  | abandon => exact absurd rfl he
  | commit wait => exact orderly_commit hinv h wait
  | flip =>
    cases hf : t.flip with
    | none => simpa [step, hf] using h
    | some x =>
      simp only [step, hf]
      exact ⟨h.pending, h.rendering⟩

/-- If every draw reaches the ring, no commit acquires a slot between its choice and its draw. -/
theorem untouched_run {ptr : PtrWidth} {t : ScanoutTrace} (hinv : Inv ptr t) (h : Orderly t)
    {es : List ScanoutEvent} (hno : .abandon ∉ es) (hsound : Meets (step ptr) (Sound ptr) t es) :
    Meets (step ptr) Untouched t es := by
  induction es generalizing t with
  | nil => trivial
  | cons e es ih =>
    obtain ⟨hne, hno⟩ := not_or.mp (mt List.mem_cons.mpr hno)
    have huntouched := h.untouched hinv (e := e)
    have horderly := orderly_step hinv h hsound.1 (Ne.symm hne)
    exact ⟨huntouched, ih (inv_step hinv huntouched) horderly hno hsound.2⟩

/-- Over any run, the producer keeps off the screen, reuses only what was submitted and not
acquired and has no slot freed late if, with no slot free, it falls back on one the ring does not
refer to and no failed render has, no commit acquires a slot between its choice and its draw, and
the producer leaves alone a frame that was shown twice in a row until the flip that displaces it.
Conversely it then does, as long as every draw reaches the ring or finds its slot as chosen. -/
theorem sound_iff_kept_run (ptr : PtrWidth) {tier : ScanoutTier} {slots : List ℕ+}
    (hsized : Sized tier slots.length) (es : List ScanoutEvent) :
    (Meets (step ptr) Kept (init tier slots) es →
      Meets (step ptr) (Sound ptr) (init tier slots) es) ∧
    (Meets (step ptr) (Sound ptr) (init tier slots) es →
      .abandon ∉ es ∨ Meets (step ptr) Untouched (init tier slots) es →
        Meets (step ptr) Kept (init tier slots) es) := by
  have hinv := inv_init ptr hsized
  constructor
  · exact meets_of_invariant (Inv ptr) (fun _ _ h hkept => inv_step h hkept.untouched)
      (fun _ _ h hkept => (sound_iff h hkept.untouched).mpr hkept) hinv
  · intro hsound hdraws
    have huntouched : Meets (step ptr) Untouched (init tier slots) es := by
      rcases hdraws with hno | huntouched
      · refine untouched_run hinv ⟨?_, nofun⟩ hno hsound
        simp [init, VkScanoutProducer.create, ExternalDmaBufRing.create]
      · exact huntouched
    exact (meets_iff_of_kept_under (Inv ptr) (fun _ _ ha h _ => inv_step h ha)
      (fun _ _ ha h => sound_iff h ha) hinv huntouched).mp hsound

/-- Two renders a flip, and two that fail. -/
def paced : List ScanoutEvent :=
  [.pick, .submit none, .commit fun _ _ => true, .flip, .pick, .fail, .pick, .submit (some 4),
    .commit fun _ _ => true, .pick, .abandon, .flip, .commit fun _ _ => true, .flip,
    .commit fun _ _ => true, .pick, .submit none]

theorem sound_paced :
    Meets (step ⟨64, by decide⟩) (Sound ⟨64, by decide⟩) (init .ring [7, 8, 9]) paced :=
  (sound_iff_kept_run _ (by decide) _).1 (by decide)

/-- A frame goes on screen, and three more are rendered before the next commit. -/
def outrun : List ScanoutEvent :=
  [.pick, .submit none, .commit fun _ _ => true, .flip, .pick, .submit none, .pick, .submit none,
    .pick, .submit none]

/-- The fourth frame goes into the slot on screen. -/
theorem drawn_on_screen_outrun :
    ¬ ∀ (ptr : PtrWidth) (tier : ScanoutTier) (slots : List ℕ+), Sized tier slots.length →
      ∀ es, Meets (step ptr) (Sound ptr) (init tier slots) es := by
  intro h
  have hsound := h ⟨64, by decide⟩ .ring [7, 8, 9] (by decide) outrun
  obtain ⟨-, -, -, -, -, -, -, -, -, hlast, -⟩ := hsound
  exact hlast 1 (by decide) ⟨⟨1, 1⟩, 1⟩ (by decide) (by decide)

end ScanoutTrace

end DrmCxx.Present
