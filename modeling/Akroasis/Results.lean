import Mathlib.Logic.Basic

/-!
# Akroasis.Results

Inversion of fallible code: what it takes for a guard, a `?` or a chain of them to return
`Ok`.  The module names nothing of the repository.
-/

namespace Akroasis

variable {ε α β : Type*} {p : Prop} [Decidable p] {x : Except ε α} {e : ε} {a : α}

/-- Past a guard that returns an error. -/
theorem ite_error_eq_ok : (if p then .error e else x) = .ok a ↔ ¬ p ∧ x = .ok a := by
  by_cases h : p <;> simp [h]

/-- Past a guard that must hold. -/
theorem ite_ok_eq_ok : (if p then x else .error e) = .ok a ↔ p ∧ x = .ok a := by
  by_cases h : p <;> simp [h]

/-- Past a `?`. -/
theorem bind_eq_ok {f : α → Except ε β} {b : β} :
    x.bind f = .ok b ↔ ∃ a, x = .ok a ∧ f a = .ok b := by
  cases x <;> simp [Except.bind]

/-- Past a change of the result. -/
theorem map_eq_ok {f : α → β} {b : β} : x.map f = .ok b ↔ ∃ a, x = .ok a ∧ f a = b := by
  cases x <;> simp [Except.map]

/-- Where a chain stops. -/
theorem bind_eq_error {f : α → Except ε β} :
    x.bind f = .error e ↔ x = .error e ∨ ∃ a, x = .ok a ∧ f a = .error e := by
  cases x <;> simp [Except.bind]

/-- A change of the result leaves an error. -/
theorem map_eq_error {f : α → β} : x.map f = .error e ↔ x = .error e := by
  cases x <;> simp [Except.map]

section MapError

variable {ε' : Type*} {f : ε → ε'}

@[simp] theorem mapError_ok : (.ok a : Except ε α).mapError f = .ok a := rfl

@[simp] theorem mapError_error : (.error e : Except ε α).mapError f = .error (f e) := rfl

/-- Past a change of the error. -/
theorem mapError_eq_ok : x.mapError f = .ok a ↔ x = .ok a := by
  cases x <;> simp

end MapError

/-- Past a result read as an `Option`. -/
theorem toOption_eq_some : x.toOption = some a ↔ x = .ok a := by
  cases x <;> simp [Except.toOption]

end Akroasis
