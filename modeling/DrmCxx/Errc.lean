import Mathlib.Data.Nat.Notation

/-!
# Error codes
-/

namespace DrmCxx

/-- The `std::errc` values the code distinguishes; `other` is any other errno. -/
inductive Errc
  | permissionDenied
  | resourceUnavailableTryAgain
  | invalidArgument
  | notSupported
  | other (errno : ℕ)
  deriving DecidableEq, Repr

/-! ### Fallible computations -/

section Except

variable {ε α β : Type*} {x : Except ε α}

/-- What a computation mapped to a success gave. -/
theorem exists_of_map_ok {f : α → β} {b : β} (h : x.map f = .ok b) : ∃ a, x = .ok a ∧ f a = b := by
  cases x with
  | error e => cases h
  | ok a =>
    cases h
    exact ⟨a, rfl, rfl⟩

theorem error_of_map {f : α → β} {e : ε} (h : x.map f = .error e) : x = .error e := by
  cases x with
  | error e' =>
    cases h
    rfl
  | ok a => cases h

/-- A sequence succeeds step by step. -/
theorem exists_of_bind_ok {α β : Type} {x : Except ε α} {f : α → Except ε β} {b : β}
    (h : x >>= f = .ok b) : ∃ a, x = .ok a ∧ f a = .ok b := by
  cases x with
  | error e => cases h
  | ok a => exact ⟨a, rfl, h⟩

end Except

end DrmCxx
