import ShapeModel.Model.Validation

/-!
# Checks in sequence

A sequence of checks passes exactly when every one of them does. Which fault is reported first does
not matter for these statements.
-/

namespace ShapeModel

set_option autoImplicit false

section Except

variable {ε α β : Type}

theorem bind_eq_ok_iff {x : Except ε α} {f : α → Except ε β} {b : β} :
    (x >>= f) = .ok b ↔ ∃ a, x = .ok a ∧ f a = .ok b := by
  cases x <;> simp [bind, Except.bind]

theorem andThen_eq_ok_iff {x y : Except ε Unit} :
    (do x; y) = .ok () ↔ x = .ok () ∧ y = .ok () := by
  cases x <;> simp [bind, Except.bind]

theorem map_eq_ok_iff {x : Except ε α} {f : α → β} {b : β} :
    x.map f = .ok b ↔ ∃ a, x = .ok a ∧ f a = b := by
  cases x <;> simp [Except.map]

theorem mapError_ok {ε' : Type} {a : α} {f : ε → ε'} : (Except.ok a).mapError f = .ok a :=
  rfl

theorem mapError_error {ε' : Type} {e : ε} {f : ε → ε'} :
    (Except.error e : Except ε α).mapError f = .error (f e) :=
  rfl

theorem mapError_eq_ok_iff {ε' : Type} {x : Except ε α} {f : ε → ε'} {a : α} :
    x.mapError f = .ok a ↔ x = .ok a := by
  cases x with
  | error e => simp [mapError_error]
  | ok b => simp [mapError_ok]

end Except

namespace Model

theorem checkAll_eq_ok_iff {α : Type} {check : α → Except Error Unit} {as : List α} :
    checkAll check as = .ok () ↔ ∀ a ∈ as, check a = .ok () := by
  induction as with
  | nil => simp [checkAll]
  | cons a as ih => simp [checkAll, andThen_eq_ok_iff, ih]

end Model

end ShapeModel
