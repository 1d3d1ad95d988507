import Mathlib.Data.List.Basic

/-!
# Loops with checked steps

A step that the language may leave undefined is an `Option`. A loop of defined steps is defined.
-/

namespace DrmCxx.Lib

variable {α β : Type*}

theorem isSome_foldlM {f : β → α → Option β} {xs : List α}
    (hf : ∀ x ∈ xs, ∀ b, (f b x).isSome) (b : β) : (xs.foldlM f b).isSome := by
  induction xs generalizing b with
  | nil => rfl
  | cons x xs ih =>
    obtain ⟨b', hb'⟩ := Option.isSome_iff_exists.mp (hf x List.mem_cons_self b)
    rw [List.foldlM_cons, hb']
    exact ih (fun y hy => hf y (List.mem_cons_of_mem _ hy)) b'

/-- A loop whose steps are all defined is the plain one. -/
theorem foldlM_eq_foldl {f : β → α → Option β} {g : β → α → β} {xs : List α}
    (hf : ∀ x ∈ xs, ∀ b, f b x = some (g b x)) (b : β) : xs.foldlM f b = some (xs.foldl g b) := by
  induction xs generalizing b with
  | nil => rfl
  | cons x xs ih =>
    rw [List.foldlM_cons, hf x List.mem_cons_self b]
    exact ih (fun y hy => hf y (List.mem_cons_of_mem _ hy)) (g b x)

/-- What the steps of a loop keep. -/
theorem keeps_foldlM (P : β → Prop) {f : β → α → Option β} {xs : List α}
    (hf : ∀ x ∈ xs, ∀ b b', P b → f b x = some b' → P b') {b b' : β} (hb : P b)
    (h : xs.foldlM f b = some b') : P b' := by
  induction xs generalizing b with
  | nil => exact Option.some.inj h ▸ hb
  | cons x xs ih =>
    rw [List.foldlM_cons] at h
    obtain ⟨b₁, hb₁, h⟩ := Option.bind_eq_some_iff.mp h
    exact ih (fun y hy => hf y (List.mem_cons_of_mem _ hy)) (hf x List.mem_cons_self b b₁ hb hb₁) h

/-- A counted loop whose steps are defined and keep an invariant of the counter. -/
theorem foldlM_range (Inv : ℕ → β → Prop) {f : β → ℕ → Option β} {n : ℕ}
    (hf : ∀ x < n, ∀ b, Inv x b → ∃ b', f b x = some b' ∧ Inv (x + 1) b') {b : β} (hb : Inv 0 b) :
    ∃ b', (List.range n).foldlM f b = some b' ∧ Inv n b' := by
  induction n with
  | zero => exact ⟨b, rfl, hb⟩
  | succ n ih =>
    obtain ⟨b₁, hloop, hinv⟩ := ih fun x hx => hf x (Nat.lt_succ_of_lt hx)
    obtain ⟨b', hstep, hinv'⟩ := hf n (Nat.lt_succ_self n) b₁ hinv
    refine ⟨b', ?_, hinv'⟩
    rw [List.range_succ, List.foldlM_append, hloop, Option.bind_eq_bind, Option.bind_some,
      List.foldlM_cons, hstep]
    rfl

/-- A counted loop whose last step is undefined. -/
theorem foldlM_range_eq_none {f : β → ℕ → Option β} {n : ℕ} (hf : ∀ b, f b n = none) (b : β) :
    (List.range (n + 1)).foldlM f b = none := by
  rw [List.range_succ, List.foldlM_append, Option.bind_eq_bind, Option.bind_eq_none_iff]
  intro b' _
  rw [List.foldlM_cons, hf b']
  rfl

/-- What the steps of a loop add to a list. -/
theorem mem_foldlM {f : List β → α → Option (List β)} {Q : α → β → Prop} {xs : List α}
    (hf : ∀ x ∈ xs, ∀ b b', f b x = some b' → ∀ p, p ∈ b' ↔ p ∈ b ∨ Q x p) {b b' : List β}
    (h : xs.foldlM f b = some b') (p : β) : p ∈ b' ↔ p ∈ b ∨ ∃ x ∈ xs, Q x p := by
  induction xs generalizing b with
  | nil =>
    obtain rfl : b = b' := Option.some.inj h
    simp
  | cons x xs ih =>
    rw [List.foldlM_cons] at h
    obtain ⟨b₁, hb₁, h⟩ := Option.bind_eq_some_iff.mp h
    rw [ih (fun y hy => hf y (List.mem_cons_of_mem _ hy)) h, hf x List.mem_cons_self b b₁ hb₁ p,
      List.exists_mem_cons_iff, or_assoc]

end DrmCxx.Lib
