import ShapeModel.Proofs.Checks
import ShapeModel.Proofs.Table.Entries

/-!
# Outcomes that agree

Two computations agree when they end in results that are related, or in the same error. What
computations do with related things then agrees again. Most of the relations here are equalities
that types bring along and that are coarser than identity, so their closure under the operations of
lists and tables is stated beside.
-/

namespace ShapeModel

set_option autoImplicit false

/-- Related results, or the same error. -/
inductive Agree {ε α β : Type} (R : α → β → Prop) : Except ε α → Except ε β → Prop
  | ok {a : α} {b : β} : R a b → Agree R (.ok a) (.ok b)
  | error (e : ε) : Agree R (.error e) (.error e)

namespace Agree

variable {ε α β γ δ : Type} {R : α → β → Prop} {S : γ → δ → Prop} {x : Except ε α} {y : Except ε β}

theorem bind {f : α → Except ε γ} {g : β → Except ε δ} (h : Agree R x y)
    (hfg : ∀ a b, R a b → Agree S (f a) (g b)) : Agree S (x >>= f) (y >>= g) := by
  cases h with
  | ok hab => exact hfg _ _ hab
  | error e => exact .error e

theorem map {f : α → γ} {g : β → δ} (h : Agree R x y) (hfg : ∀ a b, R a b → S (f a) (g b)) :
    Agree S (x.map f) (y.map g) := by
  cases h with
  | ok hab => exact .ok (hfg _ _ hab)
  | error e => exact .error e

theorem mapError {ε' : Type} (h : Agree R x y) (f : ε → ε') :
    Agree R (x.mapError f) (y.mapError f) := by
  cases h with
  | ok hab => exact .ok hab
  | error e => exact .error (f e)

theorem refl {R : α → α → Prop} (h : ∀ a, x = .ok a → R a a) : Agree R x x := by
  cases x with
  | ok a => exact .ok (h a rfl)
  | error e => exact .error e

end Agree

/-- The same thing twice, as far as the equality that its type brings along can tell. -/
abbrev Same {α : Type} [BEq α] (a b : α) : Prop :=
  (a == b) = true

section

variable {α β : Type} [BEq α] [BEq β] {a b : α} {as bs : List α}

theorem same_pair {c d : β} (hab : Same a b) (hcd : Same c d) : Same (a, c) (b, d) := by
  change (a == b && c == d) = true
  rw [hab, hcd]
  rfl

theorem same_some (h : Same a b) : Same (some a) (some b) :=
  h

theorem same_option_cases {o o' : Option α} (h : Same o o') :
    o = none ∧ o' = none ∨ ∃ a b, o = some a ∧ o' = some b ∧ Same a b := by
  cases o with
  | none =>
    cases o' with
    | none => exact .inl ⟨rfl, rfl⟩
    | some b => cases h
  | some a =>
    cases o' with
    | none => cases h
    | some b => exact .inr ⟨a, b, rfl, rfl, h⟩

theorem same_cons (h : Same a b) (hs : Same as bs) : Same (a :: as) (b :: bs) := by
  rw [Same, List.cons_beq_cons, h, hs]
  rfl

theorem same_cons_iff : Same (a :: as) (b :: bs) ↔ Same a b ∧ Same as bs := by
  rw [Same, List.cons_beq_cons, Bool.and_eq_true]

end

section

variable {κ α : Type} [BEq κ] [BEq α]

namespace Entries

variable {es fs : List (κ × α)} {a b : α}

theorem same_values (h : Same es fs) : Same (es.map (·.2)) (fs.map (·.2)) := by
  induction es generalizing fs with
  | nil =>
    cases fs with
    | nil => rfl
    | cons f fs => cases h
  | cons e es ih =>
    cases fs with
    | nil => cases h
    | cons f fs =>
      obtain ⟨hentry, hrest⟩ := same_cons_iff.mp h
      obtain ⟨-, hvalue⟩ := Bool.and_eq_true_iff.mp hentry
      exact same_cons hvalue (ih hrest)

variable [Ord κ] [LawfulBEq κ]

theorem same_find? (h : Same es fs) (k : κ) : Same (find? k es) (find? k fs) := by
  induction es generalizing fs with
  | nil =>
    cases fs with
    | nil => rfl
    | cons f fs => cases h
  | cons e es ih =>
    cases fs with
    | nil => cases h
    | cons f fs =>
      obtain ⟨j, c⟩ := e
      obtain ⟨i, d⟩ := f
      obtain ⟨hentry, hrest⟩ := same_cons_iff.mp h
      obtain ⟨hkey, hvalue⟩ := Bool.and_eq_true_iff.mp hentry
      cases eq_of_beq hkey
      rw [find?, find?]
      split
      · exact same_some hvalue
      · exact ih hrest

theorem same_insert (h : Same es fs) (hab : Same a b) (k : κ) :
    Same (insert k a es) (insert k b fs) := by
  induction es generalizing fs with
  | nil =>
    cases fs with
    | nil => exact same_cons (same_pair BEq.rfl hab) rfl
    | cons f fs => cases h
  | cons e es ih =>
    cases fs with
    | nil => cases h
    | cons f fs =>
      obtain ⟨j, c⟩ := e
      obtain ⟨i, d⟩ := f
      obtain ⟨hentry, hrest⟩ := same_cons_iff.mp h
      obtain ⟨hkey, -⟩ := Bool.and_eq_true_iff.mp hentry
      cases eq_of_beq hkey
      have hnew : Same (k, a) (k, b) := same_pair BEq.rfl hab
      rw [insert, insert]
      split
      · exact same_cons hnew h
      · exact same_cons hnew hrest
      · exact same_cons hentry (ih hrest)

theorem same_insertAll {new new' : List (κ × α)} (h : Same es fs) (hnew : Same new new') :
    Same (insertAll es new) (insertAll fs new') := by
  induction new generalizing es fs new' with
  | nil =>
    cases new' with
    | nil => exact h
    | cons e new' => cases hnew
  | cons e new ih =>
    cases new' with
    | nil => cases hnew
    | cons e' new' =>
      obtain ⟨hentry, hrest⟩ := same_cons_iff.mp hnew
      obtain ⟨hkey, hvalue⟩ := Bool.and_eq_true_iff.mp hentry
      rw [insertAll_cons, insertAll_cons, eq_of_beq hkey]
      exact ih (same_insert h hvalue _) hrest

end Entries

namespace Table

variable [Ord κ] {s t : Table κ α} {a b : α}

theorem same_values (h : Same s t) : Same s.values t.values :=
  Entries.same_values h

variable [LawfulBEq κ]

theorem same_get? (h : Same s t) (k : κ) : Same (s.get? k) (t.get? k) :=
  Entries.same_find? h k

theorem same_insert [Std.TransOrd κ] [Std.LawfulEqOrd κ] (h : Same s t) (hab : Same a b) (k : κ) :
    Same (s.insert k a) (t.insert k b) :=
  Entries.same_insert h hab k

end Table

end

end ShapeModel
