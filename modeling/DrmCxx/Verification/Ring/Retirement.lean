import DrmCxx.Verification.Ring.Trace
import Mathlib.Data.List.Basic
import Mathlib.Tactic.Ring

/-!
# Every token is retired exactly once

A frame's key comes back through exactly one release, unless the frame loses its last
acquisition while its token is live, or a release outlives the generation of its token.
-/

namespace DrmCxx.Scene

open List Lib RingPresenter

namespace RingTrace

/-! ### The contract -/

/-- What the presenter owes its producer. -/
structure Retired (t : RingTrace) : Prop where
  /-- A release returns the key of the frame it was acquired with, of this generation, and never
  under the live token. -/
  returned : ∀ r ∈ t.releases, ∀ key, r.returned = some key →
    r.acquisition.token ≠ r.liveToken ∧
    ∃ h ∈ t.handOuts, r.acquisition.handOut = some h.serial ∧ h.key = key ∧
      h.token = r.acquisition.token ∧ h.generation = r.generation
  once : ∀ h ∈ t.handOuts, t.returns h ≤ 1
  live : ∀ h ∈ t.handOuts, h.generation = t.generation → h.superseded = false →
    t.returns h = 0
  /-- A superseded frame whose acquisitions are all released has come back. -/
  exactly : ∀ h ∈ t.handOuts, h.generation = t.generation → h.superseded = true →
    ¬ t.Claimed h → t.returns h = 1

/-- The live frame is still held by an acquisition. -/
def LiveClaimed (t : RingTrace) : Prop :=
  ∀ h ∈ t.handOuts, h.generation = t.generation → h.superseded = false → t.Claimed h

/-- The condition on a step. A frame is superseded only while an acquisition still holds it, a
new token is not one still outstanding, and a release finds no outstanding frame under its token
but its own, unless the token is live. -/
def StepOk (ptr : PtrWidth) (t : RingTrace) : RingEvent → Prop
  | .submit _ _ _ => True
  | .acquire wait => t.presenter.freshReady wait = true →
      t.LiveClaimed ∧
      ∀ o ∈ t.presenter.outstanding, o.token ≠ advanceToken ptr t.presenter.nextToken
  | .release i => ∀ a ∈ t.held[i]?, a.token ≠ t.presenter.scanningToken →
      (∃ o ∈ t.presenter.outstanding, o.token = a.token) → a.handOut = t.owner a.token
  | .retireScanning => t.LiveClaimed
  | .reset => True

/-! ### The invariant -/

/-- The frame's entry is still to be returned. -/
def Unreturned (t : RingTrace) (h : HandOut) : Prop :=
  h.generation = t.generation ∧ t.returns h = 0

structure RetireInv (t : RingTrace) : Prop where
  serial_lt : ∀ h ∈ t.handOuts, h.serial < t.handOuts.length
  serial_nodup : (t.handOuts.map (·.serial)).Nodup
  token_ne_zero : ∀ h ∈ t.handOuts, h.token ≠ 0
  generation_le : ∀ h ∈ t.handOuts, h.generation ≤ t.generation
  held_owned : ∀ a ∈ t.held, ∀ s, a.handOut = some s →
    ∃ h ∈ t.handOuts, h.serial = s ∧ h.token = a.token
  tokens_nodup : (t.presenter.outstanding.map (·.token)).Nodup
  mem_outstanding : ∀ o, o ∈ t.presenter.outstanding ↔
    ∃ h ∈ t.handOuts, t.Unreturned h ∧ h.token = o.token ∧ h.key = o.key
  owner_unreturned : ∀ h ∈ t.handOuts, t.Unreturned h → t.owner h.token = some h.serial
  live_token : ∀ h ∈ t.handOuts, h.generation = t.generation → h.superseded = false →
    h.token = t.presenter.scanningToken
  live_exists : t.presenter.scanningToken ≠ 0 → ∃ h ∈ t.handOuts,
    t.Unreturned h ∧ h.superseded = false ∧ h.token = t.presenter.scanningToken
  retired : t.Retired

/-! ### Consequences of the invariant -/

theorem eq_of_serial_eq {t : RingTrace} (hinv : t.RetireInv) {h h' : HandOut}
    (hh : h ∈ t.handOuts) (hh' : h' ∈ t.handOuts) (hs : h.serial = h'.serial) : h = h' :=
  inj_on_of_nodup_map hinv.serial_nodup hh hh' hs

theorem eq_of_unreturned {t : RingTrace} (hinv : t.RetireInv) {h h' : HandOut}
    (hh : h ∈ t.handOuts) (hh' : h' ∈ t.handOuts) (hu : t.Unreturned h)
    (hu' : t.Unreturned h') (htoken : h.token = h'.token) : h = h' := by
  have hown := hinv.owner_unreturned h hh hu
  have hown' := hinv.owner_unreturned h' hh' hu'
  rw [htoken, hown'] at hown
  exact (eq_of_serial_eq hinv hh' hh (Option.some.inj hown)).symm

/-- A superseded frame to be returned is not under the live token. -/
theorem token_ne_live {t : RingTrace} (hinv : t.RetireInv) {h : HandOut}
    (hh : h ∈ t.handOuts) (hu : t.Unreturned h) (hsup : h.superseded = true) :
    h.token ≠ t.presenter.scanningToken := by
  intro htoken
  have hlive : t.presenter.scanningToken ≠ 0 := htoken ▸ hinv.token_ne_zero h hh
  obtain ⟨h', hh', hu', hsup', htoken'⟩ := hinv.live_exists hlive
  have heq := eq_of_unreturned hinv hh hh' hu hu' (htoken.trans htoken'.symm)
  rw [heq, hsup'] at hsup
  exact Bool.noConfusion hsup

theorem unreturned_claimed {t : RingTrace} (hinv : t.RetireInv) {h : HandOut}
    (hh : h ∈ t.handOuts) (hu : t.Unreturned h) (hsup : h.superseded = true) :
    t.Claimed h := by
  by_contra hclaim
  have := hinv.retired.exactly h hh hu.1 hsup hclaim
  have := hu.2
  omega

theorem exists_of_owner {t : RingTrace} {token : Token} {s : ℕ}
    (howner : t.owner token = some s) :
    ∃ h ∈ t.handOuts, h.serial = s ∧ h.token = token ∧ h.generation = t.generation := by
  obtain ⟨h, hfind, rfl⟩ := Option.map_eq_some_iff.mp howner
  have hprop : h.token = token ∧ h.generation = t.generation := by
    simpa using List.find?_some hfind
  exact ⟨h, List.mem_of_find?_eq_some hfind, rfl, hprop⟩

/-! ### Steps that leave the tokens alone -/

theorem retireInv_init (fenceDeadline : Option ℕ) : (init fenceDeadline).RetireInv where
  serial_lt := by simp [init]
  serial_nodup := by simp [init]
  token_ne_zero := by simp [init]
  generation_le := by simp [init]
  held_owned := by simp [init]
  tokens_nodup := by simp [init]
  mem_outstanding := by simp [init]
  owner_unreturned := by simp [init]
  live_token := by simp [init]
  live_exists := by simp [init]
  retired := ⟨by simp [init], by simp [init], by simp [init], by simp [init]⟩

theorem retireInv_of_presenter {t : RingTrace} (hinv : t.RetireInv) {p : RingPresenter}
    (hout : p.outstanding = t.presenter.outstanding)
    (hlive : p.scanningToken = t.presenter.scanningToken) :
    RetireInv { t with presenter := p } where
  serial_lt := hinv.serial_lt
  serial_nodup := hinv.serial_nodup
  token_ne_zero := hinv.token_ne_zero
  generation_le := hinv.generation_le
  held_owned := hinv.held_owned
  tokens_nodup := by
    rw [hout]
    exact hinv.tokens_nodup
  mem_outstanding := by
    rw [hout]
    exact hinv.mem_outstanding
  owner_unreturned := hinv.owner_unreturned
  live_token := by
    rw [hlive]
    exact hinv.live_token
  live_exists := by
    rw [hlive]
    exact hinv.live_exists
  retired := ⟨hinv.retired.returned, hinv.retired.once, hinv.retired.live,
    hinv.retired.exactly⟩

theorem retireInv_hold {t : RingTrace} (hinv : t.RetireInv) (token : Token) :
    RetireInv { t with held := t.held ++ [⟨token, t.owner token⟩] } where
  serial_lt := hinv.serial_lt
  serial_nodup := hinv.serial_nodup
  token_ne_zero := hinv.token_ne_zero
  generation_le := hinv.generation_le
  held_owned := by
    intro a ha s hs
    rcases List.mem_append.mp ha with ha | ha
    · exact hinv.held_owned a ha s hs
    · obtain rfl := List.mem_singleton.mp ha
      obtain ⟨h, hh, hserial, htoken, -⟩ := exists_of_owner hs
      exact ⟨h, hh, hserial, htoken⟩
  tokens_nodup := hinv.tokens_nodup
  mem_outstanding := hinv.mem_outstanding
  owner_unreturned := hinv.owner_unreturned
  live_token := hinv.live_token
  live_exists := hinv.live_exists
  retired := by
    refine ⟨hinv.retired.returned, hinv.retired.once, hinv.retired.live, ?_⟩
    intro h hh hgen hsup hclaim
    refine hinv.retired.exactly h hh hgen hsup ?_
    rintro ⟨a, ha, hs⟩
    exact hclaim ⟨a, List.mem_append_left _ ha, hs⟩

/-! ### A fresh frame -/

@[simp] theorem map_serial_supersede (hs : List HandOut) :
    (supersede hs).map (·.serial) = hs.map (·.serial) := by
  simp [supersede, Function.comp_def]

@[simp] theorem length_supersede (hs : List HandOut) : (supersede hs).length = hs.length := by
  simp [supersede]

theorem mem_supersede {hs : List HandOut} {h : HandOut} :
    h ∈ supersede hs ↔ ∃ h' ∈ hs, h = { h' with superseded := true } := by
  simp [supersede, eq_comm]

theorem forall_mem_supersede {hs : List HandOut} {P : HandOut → Prop} :
    (∀ h ∈ supersede hs, P h) ↔ ∀ h ∈ hs, P { h with superseded := true } := by
  simp [supersede]

/-- What holds of the new frame and of the superseded ones. -/
theorem forall_mem_cons_supersede {hs : List HandOut} {new : HandOut} {P : HandOut → Prop} :
    (∀ h ∈ new :: supersede hs, P h) ↔ P new ∧ ∀ h ∈ hs, P { h with superseded := true } := by
  simp [supersede]

theorem find?_supersede (hs : List HandOut) (token generation : ℕ) :
    ((supersede hs).find? (fun h => h.token = token ∧ h.generation = generation)).map
        (·.serial) =
      (hs.find? (fun h => h.token = token ∧ h.generation = generation)).map (·.serial) := by
  induction hs with
  | nil => rfl
  | cons h hs ih =>
      by_cases hp : h.token = token ∧ h.generation = generation
      · simp [supersede, hp]
      · have ih' := ih
        simp only [supersede] at ih' ⊢
        rw [List.map_cons, List.find?_cons_of_neg (by simpa using hp),
          List.find?_cons_of_neg (by simpa using hp)]
        exact ih'

theorem returns_of_new {t : RingTrace} (hinv : t.RetireInv) {h : HandOut}
    (hserial : h.serial = t.handOuts.length) : t.returns h = 0 := by
  refine List.countP_eq_zero.mpr ?_
  intro r hr hcount
  obtain ⟨hown, hsome⟩ : r.acquisition.handOut = some h.serial ∧ r.returned.isSome = true := by
    simpa using hcount
  obtain ⟨key, hkey⟩ := Option.isSome_iff_exists.mp hsome
  obtain ⟨-, h', hh', hown', -⟩ := hinv.retired.returned r hr key hkey
  have hlt := hinv.serial_lt h' hh'
  rw [hown] at hown'
  have := Option.some.inj hown'
  omega

/-- Handing out a new frame while the live one is held. -/
theorem retireInv_fresh {t : RingTrace} (hinv : t.RetireInv) (hclaimed : t.LiveClaimed)
    {p : RingPresenter} {token : Token} {key : SlotKey} (hzero : token ≠ 0)
    (hnew : ∀ o ∈ t.presenter.outstanding, o.token ≠ token)
    (hout : p.outstanding = t.presenter.outstanding ++ [⟨token, key⟩])
    (hlive : p.scanningToken = token) :
    RetireInv { t with
      presenter := p
      handOuts := ⟨t.handOuts.length, token, key, t.generation, false⟩ ::
        supersede t.handOuts
      held := t.held ++ [⟨token, some t.handOuts.length⟩] } := by
  set new : HandOut := ⟨t.handOuts.length, token, key, t.generation, false⟩ with hnewdef
  have hreturns : t.returns new = 0 := returns_of_new hinv rfl
  -- frames still to be returned are not under the new token
  have hdistinct : ∀ h ∈ t.handOuts, t.Unreturned h → h.token ≠ token := by
    intro h hh hu
    exact hnew ⟨h.token, h.key⟩ ((hinv.mem_outstanding _).mpr ⟨h, hh, hu, rfl, rfl⟩)
  refine
    { serial_lt := ?_, serial_nodup := ?_, token_ne_zero := ?_, generation_le := ?_
      held_owned := ?_, tokens_nodup := ?_, mem_outstanding := ?_, owner_unreturned := ?_
      live_token := ?_, live_exists := ?_, retired := ⟨?_, ?_, ?_, ?_⟩ }
  · refine forall_mem_cons_supersede.mpr ⟨by simp [hnewdef], fun h hh => ?_⟩
    have := hinv.serial_lt h hh
    simp only [List.length_cons, length_supersede]
    omega
  · rw [List.map_cons, map_serial_supersede]
    refine List.nodup_cons.mpr ⟨?_, hinv.serial_nodup⟩
    intro hmem
    obtain ⟨h', hh', hs⟩ := List.mem_map.mp hmem
    have hlt := hinv.serial_lt h' hh'
    rw [hs] at hlt
    exact Nat.lt_irrefl _ hlt
  · exact forall_mem_cons_supersede.mpr ⟨hzero, hinv.token_ne_zero⟩
  · exact forall_mem_cons_supersede.mpr ⟨le_rfl, hinv.generation_le⟩
  · intro a ha s hs
    rcases List.mem_append.mp ha with ha | ha
    · obtain ⟨h, hh, hserial, htoken⟩ := hinv.held_owned a ha s hs
      exact ⟨_, .tail _ (mem_supersede.mpr ⟨h, hh, rfl⟩), hserial, htoken⟩
    · obtain rfl := List.mem_singleton.mp ha
      exact ⟨new, .head _, Option.some.inj hs, rfl⟩
  · rw [hout, List.map_append]
    refine List.Nodup.append hinv.tokens_nodup (by simp) ?_
    intro x hx hx'
    obtain ⟨o, ho, rfl⟩ := List.mem_map.mp hx
    exact hnew o ho (by simpa using hx')
  · intro o
    rw [hout, List.mem_append, List.mem_singleton]
    constructor
    · rintro (ho | rfl)
      · obtain ⟨h, hh, hu, htoken, hkey⟩ := (hinv.mem_outstanding o).mp ho
        exact ⟨_, .tail _ (mem_supersede.mpr ⟨h, hh, rfl⟩), hu, htoken, hkey⟩
      · exact ⟨new, .head _, ⟨rfl, hreturns⟩, rfl, rfl⟩
    · rintro ⟨h, hh, hu, htoken, hkey⟩
      rcases List.mem_cons.mp hh with rfl | hh
      · exact .inr (by cases o; simp_all)
      · obtain ⟨h', hh', rfl⟩ := mem_supersede.mp hh
        exact .inl ((hinv.mem_outstanding o).mpr ⟨h', hh', hu, htoken, hkey⟩)
  · refine forall_mem_cons_supersede.mpr ⟨fun _ => by simp [owner, hnewdef], fun h hh hu => ?_⟩
    have hne : ¬ (new.token = h.token ∧ new.generation = t.generation) := by
      rintro ⟨heq, -⟩
      exact hdistinct h hh hu heq.symm
    have hown := hinv.owner_unreturned h hh hu
    simp only [owner] at hown ⊢
    rw [List.find?_cons_of_neg (by simpa using hne), find?_supersede]
    exact hown
  · exact forall_mem_cons_supersede.mpr ⟨fun _ _ => hlive.symm, fun h hh _ hsup => nomatch hsup⟩
  · intro _
    exact ⟨new, .head _, ⟨rfl, hreturns⟩, rfl, hlive.symm⟩
  · intro r hr k hk
    obtain ⟨hne, h, hh, hown, hkey, htoken, hgen⟩ := hinv.retired.returned r hr k hk
    exact ⟨hne, _, .tail _ (mem_supersede.mpr ⟨h, hh, rfl⟩), hown, hkey, htoken, hgen⟩
  · exact forall_mem_cons_supersede.mpr ⟨hreturns.trans_le (by decide), hinv.retired.once⟩
  · exact forall_mem_cons_supersede.mpr ⟨fun _ _ => hreturns, fun h hh _ hsup => nomatch hsup⟩
  · refine forall_mem_cons_supersede.mpr
      ⟨fun _ hsup => absurd hsup nofun, fun h hh hgen _ hclaim => ?_⟩
    have hclaim' : ¬ t.Claimed h := by
      rintro ⟨a, ha, hs⟩
      exact hclaim ⟨a, List.mem_append_left _ ha, hs⟩
    cases hsup : h.superseded with
    | true => exact hinv.retired.exactly h hh hgen hsup hclaim'
    | false => exact absurd (hclaimed h hh hgen hsup) hclaim'

/-! ### A release -/

theorem claimed_of_eraseIdx {t : RingTrace} {i : ℕ} {a : Acquisition}
    (ha : t.held[i]? = some a) {h : HandOut} (hclaim : t.Claimed h) :
    a.handOut = some h.serial ∨ ∃ b ∈ t.held.eraseIdx i, b.handOut = some h.serial := by
  obtain ⟨b, hb, hs⟩ := hclaim
  by_cases hab : b = a
  · exact .inl (hab ▸ hs)
  · obtain ⟨j, hj⟩ := List.mem_iff_getElem?.mp hb
    refine .inr ⟨b, List.mem_eraseIdx_iff_getElem?.mpr ⟨j, ?_, hj⟩, hs⟩
    rintro rfl
    exact hab (Option.some.inj (hj.symm.trans ha))

/-- The frame an acquisition shows is the one with its serial. -/
theorem token_of_handOut {t : RingTrace} (hinv : t.RetireInv) {a : Acquisition}
    (ha : a ∈ t.held) {h : HandOut} (hh : h ∈ t.handOuts) (hs : a.handOut = some h.serial) :
    h.token = a.token := by
  obtain ⟨h', hh', hserial, htoken⟩ := hinv.held_owned a ha h.serial hs
  rwa [eq_of_serial_eq hinv hh hh' hserial.symm]

/-- A release that returns nothing. -/
theorem retireInv_release_none {t : RingTrace} (hinv : t.RetireInv) {i : ℕ} {a : Acquisition}
    (ha : t.held[i]? = some a)
    (hnone : a.token = 0 ∨ a.token = t.presenter.scanningToken ∨
      ∀ o ∈ t.presenter.outstanding, o.token ≠ a.token) :
    RetireInv { t with
      held := t.held.eraseIdx i
      releases := ⟨a, t.generation, t.presenter.scanningToken, none⟩ :: t.releases } := by
  have hreturns : ∀ h, returns { t with
      held := t.held.eraseIdx i
      releases := ⟨a, t.generation, t.presenter.scanningToken, none⟩ :: t.releases } h =
      t.returns h := by
    intro h
    simp [returns]
  refine
    { serial_lt := hinv.serial_lt, serial_nodup := hinv.serial_nodup
      token_ne_zero := hinv.token_ne_zero, generation_le := hinv.generation_le
      held_owned := fun b hb => hinv.held_owned b (List.mem_of_mem_eraseIdx hb)
      tokens_nodup := hinv.tokens_nodup, mem_outstanding := ?_, owner_unreturned := ?_
      live_token := hinv.live_token, live_exists := ?_, retired := ⟨?_, ?_, ?_, ?_⟩ }
  · simpa only [Unreturned, hreturns] using hinv.mem_outstanding
  · intro h hh hu
    exact hinv.owner_unreturned h hh ⟨hu.1, (hreturns h).symm.trans hu.2⟩
  · simpa only [Unreturned, hreturns] using hinv.live_exists
  · intro r hr k hk
    rcases List.mem_cons.mp hr with rfl | hr
    · exact absurd hk (by simp)
    · exact hinv.retired.returned r hr k hk
  · simpa only [hreturns] using hinv.retired.once
  · simpa only [hreturns] using hinv.retired.live
  · intro h hh hgen hsup hclaim
    rw [hreturns]
    by_contra hne
    -- the frame would still be outstanding under a superseded token, so `a` would have fired
    have hu : t.Unreturned h := ⟨hgen, by have := hinv.retired.once h hh; omega⟩
    have hclaimed := unreturned_claimed hinv hh hu hsup
    rcases claimed_of_eraseIdx ha hclaimed with hs | hs
    · have htoken := token_of_handOut hinv (List.mem_of_getElem? ha) hh hs
      rcases hnone with hzero | hlive | hout
      · exact hinv.token_ne_zero h hh (htoken.trans hzero)
      · exact token_ne_live hinv hh hu hsup (htoken.trans hlive)
      · exact hout ⟨h.token, h.key⟩ ((hinv.mem_outstanding _).mpr ⟨h, hh, hu, rfl, rfl⟩) htoken
    · exact hclaim hs

/-- A release that fires for the acquisition's own frame `h₀`. -/
theorem retireInv_release_some {t : RingTrace} (hinv : t.RetireInv) {i : ℕ} {a : Acquisition}
    (ha : t.held[i]? = some a) (hlive : a.token ≠ t.presenter.scanningToken) {key : SlotKey}
    (hmem : ⟨a.token, key⟩ ∈ t.presenter.outstanding) (hown : a.handOut = t.owner a.token) :
    RetireInv { t with
      presenter :=
        { t.presenter with outstanding := eraseToken t.presenter.outstanding a.token }
      held := t.held.eraseIdx i
      releases := ⟨a, t.generation, t.presenter.scanningToken, some key⟩ :: t.releases } := by
  obtain ⟨h₀, hh₀, hu₀, htoken₀, hkey₀⟩ := (hinv.mem_outstanding _).mp hmem
  replace htoken₀ : h₀.token = a.token := htoken₀
  have hserial₀ : a.handOut = some h₀.serial := by
    rw [hown, ← htoken₀]
    exact hinv.owner_unreturned h₀ hh₀ hu₀
  set t' : RingTrace := { t with
    presenter :=
      { t.presenter with outstanding := eraseToken t.presenter.outstanding a.token }
    held := t.held.eraseIdx i
    releases := ⟨a, t.generation, t.presenter.scanningToken, some key⟩ :: t.releases }
  have hreturns₀ : t'.returns h₀ = t.returns h₀ + 1 := by
    simp [t', returns, hserial₀]
  have hreturns : ∀ h ∈ t.handOuts, h ≠ h₀ → t'.returns h = t.returns h := by
    intro h hh hne
    have hserial : h₀.serial ≠ h.serial := fun hs => hne (eq_of_serial_eq hinv hh hh₀ hs.symm)
    simp [t', returns, hserial₀, hserial]
  have hle : ∀ h ∈ t.handOuts, t.returns h ≤ t'.returns h := by
    intro h hh
    by_cases heq : h = h₀
    · subst heq
      omega
    · exact (hreturns h hh heq).ge
  have hunreturned : ∀ h ∈ t.handOuts, t'.Unreturned h ↔ t.Unreturned h ∧ h ≠ h₀ := by
    intro h hh
    by_cases heq : h = h₀
    · subst heq
      simp [Unreturned, hreturns₀]
    · simp [Unreturned, hreturns h hh heq, heq, t']
  have hnotlive : ∀ h ∈ t.handOuts, h.generation = t.generation → h.superseded = false →
      h ≠ h₀ := by
    rintro h hh hgen hsup rfl
    exact hlive (htoken₀.symm.trans (hinv.live_token h hh hgen hsup))
  refine
    { serial_lt := hinv.serial_lt, serial_nodup := hinv.serial_nodup
      token_ne_zero := hinv.token_ne_zero, generation_le := hinv.generation_le
      held_owned := fun b hb => hinv.held_owned b (List.mem_of_mem_eraseIdx hb)
      tokens_nodup := nodup_eraseToken hinv.tokens_nodup _, mem_outstanding := ?_
      owner_unreturned := ?_, live_token := hinv.live_token, live_exists := ?_
      retired := ⟨?_, ?_, ?_, ?_⟩ }
  · intro o
    change o ∈ eraseToken t.presenter.outstanding a.token ↔ _
    rw [mem_eraseToken hinv.tokens_nodup, hinv.mem_outstanding]
    constructor
    · rintro ⟨⟨h, hh, hu, htoken, hkey⟩, hne⟩
      refine ⟨h, hh, (hunreturned h hh).mpr ⟨hu, ?_⟩, htoken, hkey⟩
      rintro rfl
      exact hne (htoken.symm.trans htoken₀)
    · rintro ⟨h, hh, hu, htoken, hkey⟩
      obtain ⟨hu, hne⟩ := (hunreturned h hh).mp hu
      refine ⟨⟨h, hh, hu, htoken, hkey⟩, fun heq => hne ?_⟩
      exact eq_of_unreturned hinv hh hh₀ hu hu₀ ((htoken.trans heq).trans htoken₀.symm)
  · intro h hh hu
    exact hinv.owner_unreturned h hh ((hunreturned h hh).mp hu).1
  · intro hzero
    obtain ⟨h, hh, hu, hsup, htoken⟩ := hinv.live_exists hzero
    exact ⟨h, hh, (hunreturned h hh).mpr ⟨hu, hnotlive h hh hu.1 hsup⟩, hsup, htoken⟩
  · intro r hr k hk
    rcases List.mem_cons.mp hr with rfl | hr
    · exact ⟨hlive, h₀, hh₀, hserial₀, hkey₀.trans (Option.some.inj hk), htoken₀, hu₀.1⟩
    · exact hinv.retired.returned r hr k hk
  · intro h hh
    by_cases heq : h = h₀
    · rw [heq, hreturns₀, hu₀.2]
    · rw [hreturns h hh heq]
      exact hinv.retired.once h hh
  · intro h hh hgen hsup
    rw [hreturns h hh (hnotlive h hh hgen hsup)]
    exact hinv.retired.live h hh hgen hsup
  · intro h hh hgen hsup hclaim
    by_cases heq : h = h₀
    · rw [heq, hreturns₀, hu₀.2]
    · rw [hreturns h hh heq]
      refine hinv.retired.exactly h hh hgen hsup fun hclaimed => hclaim ?_
      refine (claimed_of_eraseIdx ha hclaimed).resolve_left ?_
      rw [hserial₀]
      exact fun hs => heq (eq_of_serial_eq hinv hh hh₀ (Option.some.inj hs).symm)

/-! ### Retirement of the source and resets -/

theorem retireInv_retireScanning {t : RingTrace} (hinv : t.RetireInv)
    (hclaimed : t.LiveClaimed) :
    RetireInv { t with
      presenter := t.presenter.retireScanning, handOuts := supersede t.handOuts } := by
  refine
    { serial_lt := ?_, serial_nodup := ?_
      token_ne_zero := forall_mem_supersede.mpr hinv.token_ne_zero
      generation_le := forall_mem_supersede.mpr hinv.generation_le
      held_owned := ?_, tokens_nodup := hinv.tokens_nodup, mem_outstanding := ?_
      owner_unreturned := forall_mem_supersede.mpr fun h hh hu => ?_
      -- no frame is live any more
      live_token := forall_mem_supersede.mpr fun h _ _ hsup => nomatch hsup
      live_exists := fun h => absurd rfl h
      retired := ⟨?_, forall_mem_supersede.mpr hinv.retired.once,
        forall_mem_supersede.mpr fun h _ _ hsup => (nomatch hsup),
        forall_mem_supersede.mpr fun h hh hgen _ hclaim => ?_⟩ }
  · refine forall_mem_supersede.mpr fun h hh => ?_
    rw [length_supersede]
    exact hinv.serial_lt h hh
  · rw [map_serial_supersede]
    exact hinv.serial_nodup
  · intro a ha s hs
    obtain ⟨h, hh, hserial, htoken⟩ := hinv.held_owned a ha s hs
    exact ⟨_, mem_supersede.mpr ⟨h, hh, rfl⟩, hserial, htoken⟩
  · intro o
    refine (hinv.mem_outstanding o).trans ⟨?_, ?_⟩
    · rintro ⟨h, hh, hu, htoken, hkey⟩
      exact ⟨_, mem_supersede.mpr ⟨h, hh, rfl⟩, hu, htoken, hkey⟩
    · rintro ⟨h, hh, hu, htoken, hkey⟩
      obtain ⟨h', hh', rfl⟩ := mem_supersede.mp hh
      exact ⟨h', hh', hu, htoken, hkey⟩
  · have hown := hinv.owner_unreturned h hh hu
    simp only [owner] at hown ⊢
    rw [find?_supersede]
    exact hown
  · intro r hr k hk
    obtain ⟨hne, h, hh, hrest⟩ := hinv.retired.returned r hr k hk
    exact ⟨hne, _, mem_supersede.mpr ⟨h, hh, rfl⟩, hrest⟩
  · cases hsup : h.superseded with
    | true => exact hinv.retired.exactly h hh hgen hsup hclaim
    | false => exact absurd (hclaimed h hh hgen hsup) hclaim

theorem retireInv_reset {t : RingTrace} (hinv : t.RetireInv) :
    RetireInv { t with presenter := t.presenter.reset, generation := t.generation + 1 } := by
  -- no frame belongs to the new generation yet
  have hold : ∀ h ∈ t.handOuts, h.generation ≠ t.generation + 1 := by
    intro h hh
    have := hinv.generation_le h hh
    omega
  refine
    { serial_lt := hinv.serial_lt, serial_nodup := hinv.serial_nodup
      token_ne_zero := hinv.token_ne_zero
      generation_le := fun h hh => (hinv.generation_le h hh).trans (Nat.le_succ _)
      held_owned := hinv.held_owned, tokens_nodup := List.nodup_nil, mem_outstanding := ?_
      owner_unreturned := fun h hh hu => absurd hu.1 (hold h hh)
      live_token := fun h hh hgen => absurd hgen (hold h hh)
      live_exists := fun h => absurd rfl h
      retired := ⟨hinv.retired.returned, hinv.retired.once,
        fun h hh hgen => absurd hgen (hold h hh), fun h hh hgen => absurd hgen (hold h hh)⟩ }
  intro o
  refine ⟨fun ho => absurd ho (by simp [RingPresenter.reset]), ?_⟩
  rintro ⟨h, hh, hu, -⟩
  exact absurd hu.1 (hold h hh)

/-! ### Runs -/

theorem retireInv_step (ptr : PtrWidth) (t : RingTrace) (e : RingEvent) (hinv : t.RetireInv)
    (hok : t.StepOk ptr e) : (t.step ptr e).RetireInv := by
  cases e with
  | submit key fence damage => exact retireInv_of_presenter hinv rfl rfl
  | acquire wait =>
      rcases acquire_cases ptr wait t.presenter with
        ⟨hready, key, fence, damage, -, hacq, -, -, -, hlive, hout⟩ |
        ⟨-, hacq, -, hkey, -, hlive, hout⟩
      · obtain ⟨hclaimed, hnew⟩ := hok hready
        simp only [step, afterAcquire, hacq]
        exact retireInv_fresh hinv hclaimed (advanceToken_ne_zero ptr _) hnew hout hlive
      · have hinv' := retireInv_of_presenter hinv hout hlive
        cases hscan : t.presenter.scanningKey with
        | none =>
            simp only [step, afterAcquire, hacq, hold_of_idle hscan]
            exact hinv'
        | some key =>
            simp only [step, afterAcquire, hacq, hold_of_scanning hscan]
            exact retireInv_hold hinv' _
  | release i =>
      cases ha : t.held[i]? with
      | none => simpa only [step, ha] using hinv
      | some a =>
          simp only [step, ha, afterRelease]
          rcases release_cases t.presenter a.token with ⟨hrel, hnone⟩ | ⟨key, -, hlive, hmem, hrel⟩
          · rw [hrel]
            exact retireInv_release_none hinv ha hnone
          · rw [hrel]
            exact retireInv_release_some hinv ha hlive hmem (hok a ha hlive ⟨_, hmem, rfl⟩)
  | retireScanning => exact retireInv_retireScanning hinv hok
  | reset => exact retireInv_reset hinv

/-- In every run whose steps meet `StepOk`, every token handed out is retired exactly once. -/
theorem retired_of_meets (ptr : PtrWidth) (fenceDeadline : Option ℕ) (es : List RingEvent)
    (hes : Meets (step ptr) (StepOk ptr) (init fenceDeadline) es) :
    (run (step ptr) (init fenceDeadline) es).Retired :=
  (run_invariant (retireInv_step ptr) (retireInv_init fenceDeadline) hes).retired

instance (t : RingTrace) : Decidable t.LiveClaimed :=
  inferInstanceAs (Decidable (∀ h ∈ t.handOuts, _ → _ → t.Claimed h))

instance (ptr : PtrWidth) (t : RingTrace) : (e : RingEvent) → Decidable (t.StepOk ptr e)
  | .submit _ _ _ => .isTrue trivial
  | .acquire wait => inferInstanceAs (Decidable (t.presenter.freshReady wait = true → _))
  | .release i => inferInstanceAs (Decidable (∀ a ∈ t.held[i]?, _))
  | .retireScanning => inferInstanceAs (Decidable t.LiveClaimed)
  | .reset => .isTrue trivial

/-- A frame held twice, released after it is superseded, then a reset and a new generation. -/
theorem retired_of_meets_replay :
    (run (step ⟨64, by decide⟩) (init none)
      [.submit 1 none [], .acquire fun _ _ => true, .acquire fun _ _ => true,
        .submit 2 none [], .acquire fun _ _ => true, .release 0, .release 0, .reset,
        .submit 1 none [], .acquire fun _ _ => true, .release 0]).Retired :=
  retired_of_meets _ none _ (by decide)

/-- A rejected frame gives its only acquisition back while its token is live; the producer
submits again before the next acquire, and key 1 never comes back. -/
def rejectedRun : List RingEvent :=
  [.submit 1 none [], .acquire fun _ _ => true, .release 0,
    .submit 2 none [], .acquire fun _ _ => true, .release 0]

/-- Token 1 is handed out again after a reset; the release left over from before it takes the
new generation's key. -/
def staleRun : List RingEvent :=
  [.submit 1 none [], .acquire fun _ _ => true, .reset, .submit 2 none [],
    .acquire fun _ _ => true, .submit 3 none [], .acquire fun _ _ => true, .release 0]

theorem not_retired :
    ¬ (run (step ⟨64, by decide⟩) (init none) rejectedRun).Retired ∧
    ¬ (run (step ⟨64, by decide⟩) (init none) staleRun).Retired := by
  constructor
  · intro h
    have hkey := h.exactly ⟨0, 1, 1, 0, true⟩ (by decide) rfl rfl (by decide)
    exact absurd hkey (by decide)
  · intro h
    have hkey := h.returned ⟨⟨1, some 0⟩, 1, 2, some 2⟩ (by decide) 2 rfl
    exact absurd hkey (by decide)

end RingTrace

end DrmCxx.Scene
