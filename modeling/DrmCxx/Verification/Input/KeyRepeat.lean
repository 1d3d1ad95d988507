import DrmCxx.Input.KeyRepeater
import DrmCxx.Lib.Run

/-!
# Key repeat follows the held key

Sessions of calls and dispatches, with calls from inside the handler. Every synthesised event is
for the key that is held when it is delivered. It comes a delay after that key's press, unless the
handler pressed the key during the same burst.
-/

namespace DrmCxx.Input

/-! ### The held key -/

/-- The last repeating key that was pressed and not released or cancelled since. -/
structure Held where
  key : UInt32
  since : Ns
  deriving DecidableEq, Repr

/-- What an action does to the held key. -/
def heldAfter (h : Option Held) : Action → Option Held
  | .call now (.onKey event shouldRepeat) =>
    if event.isRepeat then h
    else if event.pressed then if shouldRepeat then some ⟨event.key, now⟩ else h
    else if h.map (·.key) = some event.key then none else h
  | .call _ .cancel => none
  | .emit _ _ => h

def heldKey (h : Option Held) (actions : List Action) : Option Held := actions.foldl heldAfter h

/-- Every event of the trace is for the key held then, and comes `delay` after its press. -/
def Lawful (delay : Ns) (trace : List Action) : Prop :=
  ∀ before now event after, trace = before ++ .emit now event :: after →
    ∃ h, heldKey none before = some h ∧ h.key = event.key ∧ h.since + delay ≤ now

theorem heldKey_append (h : Option Held) (xs ys : List Action) :
    heldKey h (xs ++ ys) = heldKey (heldKey h xs) ys :=
  List.foldl_append

theorem heldKey_concat (h : Option Held) (xs : List Action) (x : Action) :
    heldKey h (xs ++ [x]) = heldAfter (heldKey h xs) x := by
  rw [heldKey_append]
  rfl

/-- The trace grows by an action that is lawful, if it is an event. -/
theorem Lawful.concat {delay : Ns} {trace : List Action} (ht : Lawful delay trace) {x : Action}
    (hx : ∀ now event, x = .emit now event →
      ∃ h, heldKey none trace = some h ∧ h.key = event.key ∧ h.since + delay ≤ now) :
    Lawful delay (trace ++ [x]) := by
  intro before now event after heq
  rcases List.eq_nil_or_concat after with rfl | ⟨after, y, rfl⟩
  · obtain ⟨rfl, h⟩ := List.append_inj' heq rfl
    exact hx now event (List.singleton_inj.mp h)
  · rw [List.concat_eq_append, ← List.cons_append, ← List.append_assoc] at heq
    exact ht before now event after (List.append_inj' heq rfl).1

/-! ### The repeater's calls -/

/-- The repeater knows the held key, and its timer was set when the key was pressed. -/
def Tracks (r : KeyRepeater) : Option Held → Prop
  | none => r.isHeld = false
  | some h => r.isHeld = true ∧ r.heldKey = h.key ∧
    ∃ t, r.timerFd = some t ∧ t.spec = makeSpec r.cfg ∧ t.setAt = h.since

/-- There are a keyboard and a timer. -/
structure Works (r : KeyRepeater) : Prop where
  keyboard : r.keyboard = true
  timer : r.timerFd.isSome = true

theorem Call.cfg_apply (now : Ns) (r : KeyRepeater) (c : Call) : (c.apply now r).cfg = r.cfg := by
  cases c with
  | cancel => rfl
  | onKey event shouldRepeat =>
    simp only [apply, KeyRepeater.onKey]
    split_ifs <;> rfl

theorem Works.call {r : KeyRepeater} (hr : Works r) (now : Ns) (c : Call) :
    Works (c.apply now r) := by
  obtain ⟨hkb, htimer⟩ := hr
  cases c with
  | cancel => exact ⟨hkb,
      by simpa [Call.apply, KeyRepeater.cancel, KeyRepeater.disarm] using htimer⟩
  | onKey event shouldRepeat =>
    simp only [Call.apply, KeyRepeater.onKey]
    split_ifs
    · exact ⟨hkb, htimer⟩
    · exact ⟨hkb, htimer⟩
    · exact ⟨hkb, by simpa [KeyRepeater.arm] using htimer⟩
    · exact ⟨hkb, by simpa [KeyRepeater.disarm] using htimer⟩
    · exact ⟨hkb, htimer⟩

theorem Tracks.call {r : KeyRepeater} {h : Option Held} (ht : Tracks r h) (hr : Works r) (now : Ns)
    (c : Call) : Tracks (c.apply now r) (heldAfter h (.call now c)) := by
  obtain ⟨hkb, htimer⟩ := hr
  obtain ⟨t, htimer⟩ := Option.isSome_iff_exists.mp htimer
  cases c with
  | cancel => rfl
  | onKey event shouldRepeat =>
    simp only [Call.apply, KeyRepeater.onKey, heldAfter]
    by_cases hrep : event.isRepeat
    · simpa [hrep] using ht
    · by_cases hpressed : event.pressed
      · cases shouldRepeat with
        | false => simpa [hrep, hpressed, hkb] using ht
        | true =>
          simp only [hrep, hpressed, hkb, Bool.false_eq_true, if_false, if_true, Bool.not_true,
            Bool.or_self]
          exact ⟨rfl, rfl, .settime (makeSpec r.cfg) now,
            by simp [KeyRepeater.arm, htimer], rfl, rfl⟩
      · simp only [hrep, hpressed, Bool.false_eq_true, if_false]
        -- a release ends the repeat exactly when it is of the held key
        cases h with
        | none =>
          have hheld : r.isHeld = false := ht
          simp [hheld, Tracks]
        | some h =>
          obtain ⟨hheld, hkey, t', ht', hspec, hset⟩ := ht
          by_cases hk : event.key = h.key
          · simp [hheld, hkey, hk, Tracks]
          · simp only [hheld, hkey, hk, Bool.true_and, decide_false, Bool.false_eq_true, if_false,
              Option.map_some, Option.some.injEq, Ne.symm hk]
            exact ⟨hheld, hkey, t', ht', hspec, hset⟩

/-- A call keeps the held key, or holds one from now on, or none. -/
theorem heldAfter_call {h : Option Held} {now : Ns} {c : Call} {x : Held}
    (hx : heldAfter h (.call now c) = some x) : h = some x ∨ x.since = now := by
  cases c with
  | cancel => cases hx
  | onKey event shouldRepeat =>
    simp only [heldAfter] at hx
    split_ifs at hx
    · exact .inl hx
    · exact .inr (by rw [← Option.some.inj hx])
    · exact .inl hx
    · exact .inl hx

/-! ### Calls from the handler -/

/-- The key that the calls press and leave held. -/
def leftPressed (calls : List TimedCall) : Option Held :=
  heldKey none (calls.map fun c => .call 0 c.call)

/-- The same calls, followed from no held key and from `orig`: the keys agree, unless the calls
did not touch `orig`. -/
def Follows (orig : Held) (h₀ h : Option Held) : Prop :=
  h₀.map (·.key) = h.map (·.key) ∨ h₀ = none ∧ h = some orig

theorem Follows.call {orig : Held} {h₀ h : Option Held} (hf : Follows orig h₀ h) (now₀ now : Ns)
    (c : Call) : Follows orig (heldAfter h₀ (.call now₀ c)) (heldAfter h (.call now c)) := by
  cases c with
  | cancel => exact .inl rfl
  | onKey event shouldRepeat =>
    simp only [heldAfter]
    split_ifs with hrep hpressed hsr h₁ h₂ h₂
    · exact hf
    · exact .inl rfl
    · exact hf
    · exact .inl rfl
    · rcases hf with hf | ⟨rfl, -⟩
      · exact absurd (hf ▸ h₁) h₂
      · cases h₁
    · exact .inl (by
        rcases hf with hf | ⟨rfl, -⟩
        · exact absurd (hf ▸ h₂) h₁
        · rfl)
    · exact hf

namespace Session

variable {s : Session}

/-- The delay between a press and its first event. -/
def delay (s : Session) : Ns := s.repeater.cfg.delayMs.toNat * nsPerMs

structure Inv (s : Session) : Prop where
  works : Works s.repeater
  tracks : Tracks s.repeater (heldKey none s.trace)
  since : ∀ h, heldKey none s.trace = some h → h.since ≤ s.clock
  lawful : Lawful s.delay s.trace

theorem heldKey_call (s : Session) (c : TimedCall) :
    heldKey none (s.call c).trace =
      heldAfter (heldKey none s.trace) (.call (s.clock + c.wait) c.call) :=
  heldKey_concat ..

theorem delay_call (s : Session) (c : TimedCall) : (s.call c).delay = s.delay :=
  congrArg (fun cfg : RepeatConfig => cfg.delayMs.toNat * nsPerMs) (Call.cfg_apply ..)

theorem Inv.call (hs : s.Inv) (c : TimedCall) : (s.call c).Inv where
  works := hs.works.call ..
  tracks := by
    rw [heldKey_call]
    exact hs.tracks.call hs.works _ c.call
  since h hh := by
    rw [heldKey_call] at hh
    rcases heldAfter_call hh with hh | hh
    · exact (hs.since h hh).trans (Nat.le_add_right _ _)
    · exact hh.le
  lawful := by
    rw [delay_call]
    exact hs.lawful.concat nofun

/-- The held key, if any, was pressed a delay ago. -/
def Aged (s : Session) : Prop :=
  ∀ h, heldKey none s.trace = some h → h.since + s.delay ≤ s.clock

theorem Aged.of_delay_eq_zero (hs : s.Inv) (h0 : s.delay = 0) : s.Aged := by
  intro h hh
  rw [h0]
  exact hs.since h hh

/-- What calls and events make of the session. -/
structure Continues (s s' : Session) : Prop where
  inv : s'.Inv
  cfg : s'.repeater.cfg = s.repeater.cfg
  clock : s.clock ≤ s'.clock

theorem Continues.delay {s s' : Session} (h : Continues s s') : s'.delay = s.delay :=
  congrArg (fun cfg : RepeatConfig => cfg.delayMs.toNat * nsPerMs) h.cfg

theorem Continues.trans {s s' s'' : Session} (h : Continues s s') (h' : Continues s' s'') :
    Continues s s'' :=
  ⟨h'.inv, h'.cfg.trans h.cfg, h.clock.trans h'.clock⟩

theorem continues_calls (hs : s.Inv) (calls : List TimedCall) :
    Continues s (calls.foldl call s) := by
  induction calls generalizing s with
  | nil => exact ⟨hs, rfl, Nat.le_refl _⟩
  | cons c calls ih =>
    exact Continues.trans ⟨hs.call c, Call.cfg_apply .., Nat.le_add_right _ _⟩ (ih (hs.call c))

theorem follows_calls {orig : Held} {h₀ : Option Held} (calls : List TimedCall)
    (hf : Follows orig h₀ (heldKey none s.trace)) :
    Follows orig (heldKey h₀ (calls.map fun c => .call 0 c.call))
      (heldKey none (calls.foldl call s).trace) := by
  induction calls generalizing s h₀ with
  | nil => exact hf
  | cons c calls ih =>
    refine ih (s := s.call c) ?_
    rw [heldKey_call]
    exact hf.call 0 _ c.call

/-- After calls that leave no key of their own held, the held key is the old one, if any. -/
theorem Aged.calls (hs : s.Inv) (ha : s.Aged) {calls : List TimedCall}
    (hleft : leftPressed calls = none) : (calls.foldl call s).Aged := by
  obtain ⟨-, hcfg, hclock⟩ := continues_calls hs calls
  intro x hx
  have hkeys (orig : Held) (hf : Follows orig none (heldKey none s.trace)) : orig = x := by
    rcases follows_calls calls hf with h | ⟨-, h⟩
    · rw [show heldKey none (calls.map _) = none from hleft, hx] at h
      cases h
    · exact Option.some.inj (h.symm.trans hx)
  cases hold : heldKey none s.trace with
  | none =>
    rw [hold] at hkeys
    exact absurd ((hkeys ⟨0, 0⟩ (.inl rfl)).trans (hkeys ⟨1, 0⟩ (.inl rfl)).symm) (by decide)
  | some h =>
    rw [hold] at hkeys
    obtain rfl := hkeys h (.inr ⟨rfl, rfl⟩)
    rw [(continues_calls hs calls).delay]
    exact (ha h hold).trans hclock

theorem Inv.emit (hs : s.Inv) (ha : s.Aged) (hheld : s.repeater.isHeld = true) (nowMs : UInt32)
    (wait : Ns) : Continues s (s.emit nowMs wait) ∧ (s.emit nowMs wait).Aged := by
  have hkey : heldKey none (s.emit nowMs wait).trace = heldKey none s.trace := heldKey_concat ..
  refine ⟨⟨⟨hs.works, hkey ▸ hs.tracks, fun h hh => ?_, hs.lawful.concat ?_⟩, rfl,
    Nat.le_add_right _ _⟩, fun h hh => ?_⟩
  · exact (hs.since h (hkey ▸ hh)).trans (Nat.le_add_right _ _)
  · rintro now event ⟨⟩
    cases hh : heldKey none s.trace with
    | none =>
      have := hs.tracks
      rw [hh] at this
      exact absurd (hheld.symm.trans this) nofun
    | some h =>
      have := hs.tracks
      rw [hh] at this
      exact ⟨h, rfl, this.2.1.symm, (ha h hh).trans (Nat.le_add_right _ _)⟩
  · exact (ha h (hkey ▸ hh)).trans (Nat.le_add_right _ _)

/-- While events remain, the handler leaves no key held that it pressed. -/
theorem continues_burst (nowMs : UInt32) (n : ℕ) {reactions : List Reaction} (hs : s.Inv)
    (ha : s.Aged)
    (hleft : s.delay = 0 ∨ ∀ i, i + 1 < n → leftPressed (reactions.getD i {}).calls = none) :
    Continues s (burst nowMs n reactions s) := by
  induction n generalizing s reactions with
  | zero => exact ⟨hs, rfl, Nat.le_refl _⟩
  | succ n ih =>
    unfold burst
    cases hheld : s.repeater.isHeld with
    | false => exact ⟨hs, rfl, Nat.le_refl _⟩
    | true =>
      simp only [Bool.not_true, Bool.false_eq_true, if_false]
      obtain ⟨hemit, hage⟩ := hs.emit ha hheld nowMs (reactions.headD {}).wait
      have hcalls := continues_calls hemit.inv (reactions.headD {}).calls
      have hround := hemit.trans hcalls
      cases n with
      | zero => exact hround
      | succ n =>
        refine hround.trans (ih hround.inv ?_ ?_)
        · rcases hleft with h0 | hleft
          · exact Aged.of_delay_eq_zero hround.inv (hround.delay.trans h0)
          · have hfirst := hleft 0 (by omega)
            rw [← List.headD_eq_getD] at hfirst
            exact hage.calls hemit.inv hfirst
        · rcases hleft with h0 | hleft
          · exact .inl (hround.delay.trans h0)
          · refine .inr fun i hi => ?_
            simpa [List.getD_eq_getElem?_getD] using hleft (i + 1) (by omega)

/-! ### Dispatching -/

/-- A timer that reports an expiration is due. -/
theorem due_of_read {t t' : TimerFd} {now : Ns} {late n : ℕ} (h : t.read now late = some (n, t')) :
    t.setAt + t.spec.value ≤ now ∧ t'.spec = t.spec ∧ t'.setAt = t.setAt := by
  unfold TimerFd.read at h
  obtain ⟨hn, h⟩ := Option.ite_none_left_eq_some.mp h
  cases h
  refine ⟨?_, rfl, rfl⟩
  by_contra hlt
  refine hn ?_
  rw [TimerFd.expirations, if_pos (.inr (Nat.lt_of_not_le hlt)), Nat.zero_sub, Nat.zero_sub]

theorem delay_le_makeSpec (cfg : RepeatConfig) :
    cfg.delayMs.toNat * nsPerMs ≤ (makeSpec cfg).value := by
  simp only [makeSpec]
  split <;> omega

theorem Inv.wait (hs : s.Inv) (wait : Ns) : Inv { s with clock := s.clock + wait } :=
  ⟨hs.works, hs.tracks, fun h hh => (hs.since h hh).trans (Nat.le_add_right _ _), hs.lawful⟩

/-- How many events a dispatch may deliver. -/
def emitCount (s : Session) (wait : Ns) (late : ℕ) : ℕ :=
  match s.repeater.timerFd.bind fun t => t.read (s.clock + wait) late with
  | none => 0
  | some (n, _) => min n maxBurst

theorem continues_dispatch (hs : s.Inv) (wait : Ns) (late : ℕ) {reactions : List Reaction}
    (hleft : s.delay = 0 ∨
      ∀ i, i + 1 < s.emitCount wait late → leftPressed (reactions.getD i {}).calls = none) :
    Continues s (s.dispatch wait late reactions) := by
  have hwait : Continues s { s with clock := s.clock + wait } :=
    ⟨hs.wait wait, rfl, Nat.le_add_right _ _⟩
  unfold dispatch
  unfold emitCount at hleft
  obtain ⟨t, htimer⟩ := Option.isSome_iff_exists.mp hs.works.timer
  simp only [htimer, Option.bind_some] at hleft ⊢
  cases hread : t.read (s.clock + wait) late with
  | none => exact hwait
  | some r =>
    obtain ⟨n, t'⟩ := r
    rw [hread] at hleft
    obtain ⟨hdue, hspec, hset⟩ := due_of_read hread
    -- reading the timer leaves its setting alone
    have hinv : Inv { s with
        clock := s.clock + wait
        repeater := { s.repeater with timerFd := some t' } } := by
      refine ⟨⟨hs.works.keyboard, rfl⟩, ?_, (hs.wait wait).since, hs.lawful⟩
      have htracks := hs.tracks
      revert htracks
      cases heldKey none s.trace with
      | none => exact id
      | some h =>
        rintro ⟨hheld, hkey, t₀, ht₀, hspec₀, hset₀⟩
        obtain rfl := Option.some.inj (htimer.symm.trans ht₀)
        exact ⟨hheld, hkey, t', rfl, hspec.trans hspec₀, hset.trans hset₀⟩
    have hread' : Continues s { s with
        clock := s.clock + wait
        repeater := { s.repeater with timerFd := some t' } } :=
      ⟨hinv, rfl, Nat.le_add_right _ _⟩
    simp only
    split
    · exact hread'
    · refine hread'.trans (continues_burst _ _ hinv ?_ hleft)
      intro h hh
      have htracks := hs.tracks
      rw [show heldKey none s.trace = some h from hh] at htracks
      obtain ⟨-, -, t₀, ht₀, hspec₀, hset₀⟩ := htracks
      obtain rfl := Option.some.inj (htimer.symm.trans ht₀)
      rw [hspec₀, hset₀] at hdue
      exact (Nat.add_le_add_left (delay_le_makeSpec _) _).trans hdue

end Session

/-! ### Runs -/

inductive Event
  | setHandler (handler : Bool)
  | call (c : TimedCall)
  | dispatch (wait : Ns) (late : ℕ) (reactions : List Reaction)
  deriving DecidableEq, Repr

namespace Session

def step (s : Session) : Event → Session
  | .setHandler handler => { s with repeater := { s.repeater with handler } }
  | .call c => s.call c
  | .dispatch wait late reactions => s.dispatch wait late reactions

/-- While events of a burst remain, the handler leaves no key held that it pressed itself. -/
def Settled (s : Session) : Event → Prop
  | .dispatch wait late reactions => s.repeater.cfg.delayMs = 0 ∨
    ∀ i < s.emitCount wait late - 1, leftPressed (reactions.getD i {}).calls = none
  | _ => True

instance (s : Session) (e : Event) : Decidable (s.Settled e) := by
  cases e <;> unfold Settled <;> infer_instance

variable {s : Session}

theorem Inv.step (hs : s.Inv) {e : Event} (he : s.Settled e) : Continues s (s.step e) := by
  cases e with
  | setHandler handler =>
    have htracks : Tracks { s.repeater with handler } (heldKey none s.trace) := hs.tracks
    exact ⟨⟨⟨hs.works.1, hs.works.2⟩, htracks, hs.since, hs.lawful⟩, rfl, Nat.le_refl _⟩
  | call c => exact ⟨hs.call c, Call.cfg_apply .., Nat.le_add_right _ _⟩
  | dispatch wait late reactions =>
    refine continues_dispatch hs wait late (he.imp (fun h0 => ?_) fun h i hi => h i (by omega))
    simp [delay, h0]

theorem inv_create {keyboard : Bool} {cfg : RepeatConfig} {timer : Except Errc Unit}
    {r : KeyRepeater} (h : KeyRepeater.create keyboard cfg timer = .ok r) :
    Inv { repeater := r } ∧ r.cfg = cfg := by
  unfold KeyRepeater.create at h
  split_ifs at h with hkb hint
  cases timer with
  | error e => cases h
  | ok u =>
    cases h
    exact ⟨⟨⟨by simpa using hkb, rfl⟩, rfl, nofun, by intro; simp⟩, rfl⟩

/-- If the handler leaves no key held that it pressed while events of the burst remain, every
event is for the held key, and a delay after its press. -/
theorem lawful_of_settled {keyboard : Bool} {cfg : RepeatConfig} {timer : Except Errc Unit}
    {r : KeyRepeater} (hr : KeyRepeater.create keyboard cfg timer = .ok r) {es : List Event}
    (hes : Lib.Meets step Settled { repeater := r } es) :
    Lawful (cfg.delayMs.toNat * nsPerMs) (Lib.run step { repeater := r } es).trace := by
  obtain ⟨hinv, hcfg⟩ := inv_create hr
  have hstep (s : Session) (e : Event) (hs : s.Inv ∧ s.repeater.cfg = cfg) (he : s.Settled e) :
      (s.step e).Inv ∧ (s.step e).repeater.cfg = cfg := by
    have h := hs.1.step he
    exact ⟨h.inv, h.cfg.trans hs.2⟩
  obtain ⟨hend, hcfg'⟩ := Lib.run_invariant hstep ⟨hinv, hcfg⟩ hes
  rw [← hcfg']
  exact hend.lawful

/-- A key held for 700 ms, released by the handler during the burst. -/
theorem lawful_of_settled_released :
    Lawful (600 * nsPerMs) (Lib.run step ⟨⟨true, {}, false, some {}, 0, false⟩, 0, []⟩
      [.setHandler true, .call ⟨0, .onKey ⟨0, 30, true, false⟩ true⟩,
        .dispatch 700000000 0 [{}, ⟨0, [⟨0, .onKey ⟨0, 30, false, false⟩ true⟩]⟩]]).trace :=
  lawful_of_settled (show KeyRepeater.create true {} (.ok ()) = .ok _ from rfl) (by decide)

/-- The handler presses another key, and the rest of the burst repeats it at once. -/
theorem not_lawful_repress :
    ¬ Lawful (600 * nsPerMs) (Lib.run step ⟨⟨true, {}, false, some {}, 0, false⟩, 0, []⟩
      [.setHandler true, .call ⟨0, .onKey ⟨0, 30, true, false⟩ true⟩,
        .dispatch 700000000 0 [⟨0, [⟨0, .onKey ⟨0, 31, true, false⟩ true⟩]⟩]]).trace := by
  intro h
  obtain ⟨x, hx, -, hle⟩ := h
    [.call 0 (.onKey ⟨0, 30, true, false⟩ true), .emit 700000000 ⟨700, 30, true, true⟩,
      .call 700000000 (.onKey ⟨0, 31, true, false⟩ true)] 700000000 ⟨700, 31, true, true⟩
    [.emit 700000000 ⟨700, 31, true, true⟩] (by decide)
  cases hx
  exact absurd hle (by decide)

end Session

end DrmCxx.Input
