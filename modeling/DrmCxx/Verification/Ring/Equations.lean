import DrmCxx.Scene.RingPresenter
import Mathlib.Data.List.Nodup
import Mathlib.Tactic.Ring

/-!
# Equations of the presentation state machine
-/

namespace DrmCxx.Scene

open List

namespace RingPresenter

/-! ### Submission and damage do not touch the tokens -/

@[simp] theorem submit_scanningKey (p : RingPresenter) (key : SlotKey)
    (fence : Option SyncFence) (damage : List DamageRect) :
    (p.submit key fence damage).scanningKey = p.scanningKey := rfl

@[simp] theorem submit_scanningToken (p : RingPresenter) (key : SlotKey)
    (fence : Option SyncFence) (damage : List DamageRect) :
    (p.submit key fence damage).scanningToken = p.scanningToken := rfl

@[simp] theorem submit_nextToken (p : RingPresenter) (key : SlotKey)
    (fence : Option SyncFence) (damage : List DamageRect) :
    (p.submit key fence damage).nextToken = p.nextToken := rfl

@[simp] theorem submit_outstanding (p : RingPresenter) (key : SlotKey)
    (fence : Option SyncFence) (damage : List DamageRect) :
    (p.submit key fence damage).outstanding = p.outstanding := rfl

@[simp] theorem submit_pendingKey (p : RingPresenter) (key : SlotKey)
    (fence : Option SyncFence) (damage : List DamageRect) :
    (p.submit key fence damage).pendingKey = some key := rfl

theorem accumulateCarriedDamage_eq (p : RingPresenter) (buf : List DamageRect) :
    p.accumulateCarriedDamage buf = { p with
      carriedDamage := (p.accumulateCarriedDamage buf).carriedDamage
      carriedDamageWhole := (p.accumulateCarriedDamage buf).carriedDamageWhole } := by
  unfold accumulateCarriedDamage
  split_ifs <;> rfl

/-! ### Tokens -/

theorem advanceToken_ne_zero (ptr : PtrWidth) (t : ℕ) : advanceToken ptr t ≠ 0 := by
  unfold advanceToken
  split_ifs with h
  · exact one_ne_zero
  · exact h

theorem four_le_two_pow (ptr : PtrWidth) : 4 ≤ 2 ^ ptr.bits :=
  calc 4 = 2 ^ 2 := rfl
    _ ≤ 2 ^ ptr.bits := Nat.pow_le_pow_right (by omega) (le_trans (by omega) ptr.bits_ge)

theorem advanceToken_of_lt {ptr : PtrWidth} {t : ℕ} (h : t + 1 < 2 ^ ptr.bits) :
    advanceToken ptr t = t + 1 := by
  simp [advanceToken, Nat.mod_eq_of_lt h]

theorem advanceToken_of_wrap {ptr : PtrWidth} {t : ℕ} (h : t + 1 = 2 ^ ptr.bits) :
    advanceToken ptr t = 1 := by
  simp [advanceToken, h]

theorem advanceToken_lt (ptr : PtrWidth) (t : ℕ) : advanceToken ptr t < 2 ^ ptr.bits := by
  have := four_le_two_pow ptr
  unfold advanceToken
  split_ifs
  · omega
  · exact Nat.mod_lt _ (by omega)

/-- Two successive tokens differ, and so do tokens two apart. -/
theorem advanceToken_ne_self (ptr : PtrWidth) (t : ℕ) :
    advanceToken ptr t ≠ t ∧ advanceToken ptr (advanceToken ptr t) ≠ t := by
  have hfour := four_le_two_pow ptr
  have hlt := advanceToken_lt ptr t
  have hlt' := advanceToken_lt ptr (advanceToken ptr t)
  rcases lt_trichotomy (t + 1) (2 ^ ptr.bits) with h | h | h
  · rw [advanceToken_of_lt h] at hlt' ⊢
    refine ⟨by omega, ?_⟩
    by_cases h' : t + 1 + 1 < 2 ^ ptr.bits
    · rw [advanceToken_of_lt h']
      omega
    · rw [advanceToken_of_wrap (by omega)]
      omega
  · rw [advanceToken_of_wrap h, advanceToken_of_lt (by omega)]
    omega
  · omega

/-! ### One vblank -/

/-- What `acquire` does: promote a ready frame under a new token, or hold. -/
theorem acquire_cases (ptr : PtrWidth) (wait : FenceWait) (p : RingPresenter) :
    (p.freshReady wait = true ∧ ∃ key fence damage,
      p.pendingKey = some key ∧
      (p.acquire ptr wait).2 = ⟨.fresh, key, advanceToken ptr p.nextToken, fence, damage⟩ ∧
      (p.acquire ptr wait).1.pendingKey = none ∧
      (p.acquire ptr wait).1.scanningKey = some key ∧
      (p.acquire ptr wait).1.nextToken = advanceToken ptr p.nextToken ∧
      (p.acquire ptr wait).1.scanningToken = advanceToken ptr p.nextToken ∧
      (p.acquire ptr wait).1.outstanding =
        p.outstanding ++ [⟨advanceToken ptr p.nextToken, key⟩]) ∨
    (p.freshReady wait = false ∧
      (p.acquire ptr wait).2 = p.hold ∧
      (p.acquire ptr wait).1.pendingKey = none ∧
      (p.acquire ptr wait).1.scanningKey = p.scanningKey ∧
      (p.acquire ptr wait).1.nextToken = p.nextToken ∧
      (p.acquire ptr wait).1.scanningToken = p.scanningToken ∧
      (p.acquire ptr wait).1.outstanding = p.outstanding) := by
  cases hkey : p.pendingKey with
  | none =>
      refine .inr ⟨by simp [freshReady, hkey], ?_⟩
      simp [acquire, hkey]
  | some key =>
      cases hfence : p.preWait wait with
      | some fence =>
          refine .inl ⟨by simp [freshReady, hkey, hfence], key, fence,
            p.drain.damageWithCarry p.pendingDamage, rfl, ?_⟩
          simp [acquire, hkey, hfence, promote, drain]
      | none =>
          refine .inr ⟨by simp [freshReady, hkey, hfence], ?_⟩
          simp only [acquire, hkey, hfence]
          rw [accumulateCarriedDamage_eq]
          simp [drain, hkey, hold]

theorem hold_of_scanning {p : RingPresenter} {key : SlotKey} (h : p.scanningKey = some key) :
    p.hold = { kind := .hold, key := key, token := p.scanningToken } := by
  simp [hold, h]

theorem hold_of_idle {p : RingPresenter} (h : p.scanningKey = none) : p.hold = {} := by
  simp [hold, h]

/-! ### Release -/

/-- With distinct tokens, erasing a token removes exactly its entry. -/
theorem mem_eraseToken {os : List Outstanding} (hnodup : (os.map (·.token)).Nodup)
    {token : Token} {o : Outstanding} :
    o ∈ eraseToken os token ↔ o ∈ os ∧ o.token ≠ token := by
  induction os with
  | nil => simp [eraseToken]
  | cons x os ih =>
      obtain ⟨hx, hnodup⟩ := List.nodup_cons.mp hnodup
      have hne : ∀ y ∈ os, y.token ≠ x.token := by
        intro y hy heq
        exact hx (List.mem_map.mpr ⟨y, hy, heq⟩)
      by_cases h : x.token = token
      · subst h
        rw [eraseToken, eraseP_cons_of_pos (by simp)]
        constructor
        · intro ho
          exact ⟨.tail x ho, hne o ho⟩
        · rintro ⟨ho, hot⟩
          rcases List.mem_cons.mp ho with rfl | ho
          · exact absurd rfl hot
          · exact ho
      · rw [eraseToken, eraseP_cons_of_neg (by simp [h]), mem_cons, mem_cons]
        have ih := ih hnodup
        rw [eraseToken] at ih
        rw [ih]
        constructor
        · rintro (rfl | ⟨ho, hot⟩)
          · exact ⟨.inl rfl, h⟩
          · exact ⟨.inr ho, hot⟩
        · rintro ⟨rfl | ho, hot⟩
          · exact .inl rfl
          · exact .inr ⟨ho, hot⟩

theorem nodup_eraseToken {os : List Outstanding} (hnodup : (os.map (·.token)).Nodup)
    (token : Token) : ((eraseToken os token).map (·.token)).Nodup :=
  hnodup.sublist (eraseP_sublist.map _)

theorem findToken_eq_some {os : List Outstanding} {token : Token} {key : SlotKey}
    (h : findToken os token = some key) : ⟨token, key⟩ ∈ os := by
  obtain ⟨o, ho, rfl⟩ := Option.map_eq_some_iff.mp h
  have htoken : o.token = token := by simpa using List.find?_some ho
  exact htoken ▸ List.mem_of_find?_eq_some ho

theorem findToken_eq_none {os : List Outstanding} {token : Token}
    (h : findToken os token = none) : ∀ o ∈ os, o.token ≠ token := by
  intro o ho
  have hnone := Option.map_eq_none_iff.mp h
  simpa using List.find?_eq_none.mp hnone o ho

/-- What `release` does: nothing for the sentinel, the live token or a token that already
fired; else it erases the token's entry and returns its key. -/
theorem release_cases (p : RingPresenter) (token : Token) :
    (p.release token = (p, none) ∧
      (token = 0 ∨ token = p.scanningToken ∨ ∀ o ∈ p.outstanding, o.token ≠ token)) ∨
    ∃ key, token ≠ 0 ∧ token ≠ p.scanningToken ∧ ⟨token, key⟩ ∈ p.outstanding ∧
      p.release token =
        ({ p with outstanding := eraseToken p.outstanding token }, some key) := by
  unfold release
  split_ifs with h0 hlive
  · exact .inl ⟨rfl, .inl h0⟩
  · exact .inl ⟨rfl, .inr (.inl hlive)⟩
  · cases hfind : findToken p.outstanding token with
    | none =>
        have hnone := findToken_eq_none hfind
        refine .inl ⟨?_, .inr (.inr hnone)⟩
        have herase : eraseToken p.outstanding token = p.outstanding :=
          eraseP_of_forall_not (by simpa using hnone)
        rw [herase]
    | some key =>
        exact .inr ⟨key, h0, hlive, findToken_eq_some hfind, rfl⟩

/-- A release under the live token never returns a key. -/
theorem release_live (p : RingPresenter) : p.release p.scanningToken = (p, none) := by
  simp [release]

/-- A superseded token whose entry comes first fires. -/
theorem release_head {p : RingPresenter} {o : Outstanding} {os : List Outstanding}
    (hout : p.outstanding = o :: os) (hzero : o.token ≠ 0) (hlive : o.token ≠ p.scanningToken) :
    p.release o.token = ({ p with outstanding := os }, some o.key) := by
  simp [release, hzero, hlive, hout, eraseToken, findToken]

@[simp] theorem release_scanningKey (p : RingPresenter) (token : Token) :
    (p.release token).1.scanningKey = p.scanningKey := by
  unfold release
  split_ifs <;> rfl

@[simp] theorem release_scanningToken (p : RingPresenter) (token : Token) :
    (p.release token).1.scanningToken = p.scanningToken := by
  unfold release
  split_ifs <;> rfl

@[simp] theorem release_nextToken (p : RingPresenter) (token : Token) :
    (p.release token).1.nextToken = p.nextToken := by
  unfold release
  split_ifs <;> rfl

@[simp] theorem release_pendingKey (p : RingPresenter) (token : Token) :
    (p.release token).1.pendingKey = p.pendingKey := by
  unfold release
  split_ifs <;> rfl

end RingPresenter

end DrmCxx.Scene
