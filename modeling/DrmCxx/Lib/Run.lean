import Mathlib.Data.List.Infix

/-!
# Runs of a step function

A system is a total step function on states; a run feeds it a list of events. Conditions on
the steps of a run, and the two induction rules every run lemma uses.
-/

namespace DrmCxx.Lib

variable {σ ε : Type*}

/-- The state reached from `s` by the events, taken in order. -/
def run (step : σ → ε → σ) (s : σ) (es : List ε) : σ :=
  es.foldl step s

@[simp] theorem run_nil (step : σ → ε → σ) (s : σ) : run step s [] = s := rfl

@[simp] theorem run_cons (step : σ → ε → σ) (s : σ) (e : ε) (es : List ε) :
    run step s (e :: es) = run step (step s e) es := rfl

theorem run_append (step : σ → ε → σ) (s : σ) (es fs : List ε) :
    run step s (es ++ fs) = run step (run step s es) fs :=
  List.foldl_append

/-- Every event of the run meets `ok` in the state it is taken from. -/
def Meets (step : σ → ε → σ) (ok : σ → ε → Prop) : σ → List ε → Prop
  | _, [] => True
  | s, e :: es => ok s e ∧ Meets step ok (step s e) es

@[simp] theorem meets_nil (step : σ → ε → σ) (ok : σ → ε → Prop) (s : σ) :
    Meets step ok s [] := trivial

@[simp] theorem meets_cons (step : σ → ε → σ) (ok : σ → ε → Prop) (s : σ) (e : ε)
    (es : List ε) :
    Meets step ok s (e :: es) ↔ ok s e ∧ Meets step ok (step s e) es := Iff.rfl

theorem meets_append (step : σ → ε → σ) (ok : σ → ε → Prop) (s : σ) (es fs : List ε) :
    Meets step ok s (es ++ fs) ↔ Meets step ok s es ∧ Meets step ok (run step s es) fs := by
  induction es generalizing s with
  | nil => simp
  | cons e es ih => simp [ih, and_assoc]

/-- A condition on the events alone is met if every event of the list satisfies it. -/
theorem meets_iff_forall {step : σ → ε → σ} {ok : ε → Prop} {s : σ} {es : List ε} :
    Meets step (fun _ e => ok e) s es ↔ ∀ e ∈ es, ok e := by
  induction es generalizing s with
  | nil => simp
  | cons e es ih => rw [meets_cons, ih, List.forall_mem_cons]

/-- What every event of the list satisfies is met whatever the states. -/
theorem meets_of_forall {step : σ → ε → σ} {ok : ε → Prop} {es : List ε} (h : ∀ e ∈ es, ok e)
    (s : σ) : Meets step (fun _ e => ok e) s es :=
  meets_iff_forall.mpr h

/-- Conditions that agree at every step of the run agree over it. -/
theorem meets_congr {step : σ → ε → σ} {P Q : σ → ε → Prop} {s : σ} {es : List ε}
    (h : Meets step (fun s e => P s e ↔ Q s e) s es) : Meets step P s es ↔ Meets step Q s es := by
  induction es generalizing s with
  | nil => simp
  | cons e es ih => exact and_congr h.1 (ih h.2)

theorem meets_true (step : σ → ε → σ) (s : σ) (es : List ε) :
    Meets step (fun _ _ => True) s es := by
  induction es generalizing s with
  | nil => trivial
  | cons e es ih => exact ⟨trivial, ih (step s e)⟩

instance decidableMeets (step : σ → ε → σ) (ok : σ → ε → Prop)
    [∀ s e, Decidable (ok s e)] : ∀ s es, Decidable (Meets step ok s es)
  | _, [] => .isTrue trivial
  | s, e :: es =>
    have := decidableMeets step ok (step s e) es
    inferInstanceAs (Decidable (ok s e ∧ Meets step ok (step s e) es))

/-- An invariant that every step meeting `ok` keeps holds after every run of such steps. -/
theorem run_invariant {step : σ → ε → σ} {ok : σ → ε → Prop} {Inv : σ → Prop}
    (hstep : ∀ s e, Inv s → ok s e → Inv (step s e)) {s : σ} (hs : Inv s) {es : List ε}
    (hes : Meets step ok s es) :
    Inv (run step s es) := by
  induction es generalizing s with
  | nil => exact hs
  | cons e es ih => exact ih (hstep s e hs hes.1) hes.2

/-- What holds of a step from the invariant holds of every step of a run. -/
theorem meets_of_invariant {step : σ → ε → σ} {ok P : σ → ε → Prop} (Inv : σ → Prop)
    (hstep : ∀ s e, Inv s → ok s e → Inv (step s e)) (hP : ∀ s e, Inv s → ok s e → P s e) {s : σ}
    (hs : Inv s) {es : List ε} (hes : Meets step ok s es) : Meets step P s es := by
  induction es generalizing s with
  | nil => trivial
  | cons e es ih => exact ⟨hP s e hs hes.1, ih (hstep s e hs hes.1) hes.2⟩

/-- Conditions that agree wherever the invariant holds agree over runs. -/
theorem meets_congr_of_invariant {step : σ → ε → σ} {P Q : σ → ε → Prop} (Inv : σ → Prop)
    (hstep : ∀ s e, Inv s → Inv (step s e)) (hPQ : ∀ s e, Inv s → (P s e ↔ Q s e)) {s : σ}
    (hs : Inv s) (es : List ε) : Meets step P s es ↔ Meets step Q s es := by
  induction es generalizing s with
  | nil => simp
  | cons e es ih => rw [meets_cons, meets_cons, hPQ s e hs, ih (hstep s e hs)]

/-- Conditions that agree wherever the invariant holds agree over runs, if one of them keeps it. -/
theorem meets_iff_of_kept {step : σ → ε → σ} {P Q : σ → ε → Prop} (Inv : σ → Prop)
    (hstep : ∀ s e, Inv s → P s e → Inv (step s e)) (hPQ : ∀ s e, Inv s → (P s e ↔ Q s e)) {s : σ}
    (hs : Inv s) (es : List ε) : Meets step P s es ↔ Meets step Q s es := by
  induction es generalizing s with
  | nil => simp
  | cons e es ih =>
    rw [meets_cons, meets_cons, ← hPQ s e hs]
    exact and_congr_right fun he => ih (hstep s e hs he)

/-- The same for the runs whose steps all meet an assumption. -/
theorem meets_iff_of_kept_under {step : σ → ε → σ} {A P Q : σ → ε → Prop} (Inv : σ → Prop)
    (hstep : ∀ s e, A s e → Inv s → P s e → Inv (step s e))
    (hPQ : ∀ s e, A s e → Inv s → (P s e ↔ Q s e)) {s : σ} (hs : Inv s) {es : List ε}
    (hes : Meets step A s es) : Meets step P s es ↔ Meets step Q s es := by
  induction es generalizing s with
  | nil => simp
  | cons e es ih =>
    rw [meets_cons, meets_cons, ← hPQ s e hes.1 hs]
    exact and_congr_right fun he => ih (hstep s e hes.1 hs he) hes.2

/-- An invariant that every step keeps holds after every run. -/
theorem run_always {step : σ → ε → σ} {Inv : σ → Prop}
    (hstep : ∀ s e, Inv s → Inv (step s e)) {s : σ} (hs : Inv s) (es : List ε) :
    Inv (run step s es) :=
  run_invariant (fun s e h _ => hstep s e h) hs (meets_true step s es)

end DrmCxx.Lib
