import ShapeModel.Value

/-!
# Equality of values

Equality of numbers and of values does not depend on the order of its sides. It is not reflexive,
since not-a-number differs from itself. Equal objects have the same keys.
-/

namespace ShapeModel

set_option autoImplicit false

theorem Binary64.compare?_swap (x y : Binary64) :
    y.compare? x = (x.compare? y).map Ordering.swap := by
  unfold compare?
  cases x.rank? with
  | none => cases y.rank? <;> rfl
  | some a =>
    cases y.rank? with
    | none => rfl
    | some b => exact congrArg some (Std.OrientedCmp.eq_swap (a := b) (b := a))

theorem Binary64.same_comm (x y : Binary64) : x.same y = y.same x := by
  rw [same, same, compare?_swap x y]
  rcases x.compare? y with _ | _ | _ | _ <;> rfl

theorem Number.same_comm (m n : Number) : m.same n = n.same m := by
  cases m <;> cases n <;>
    first
    | exact Binary64.same_comm ..
    | exact decide_eq_decide.mpr eq_comm

namespace Value

mutual

theorem same_comm (v w : Value) : v.same w = w.same v := by
  cases v with
  | null => cases w <;> rfl
  | bool a =>
    cases w with
    | bool b => exact Bool.beq_comm
    | _ => rfl
  | number m =>
    cases w with
    | number n => exact Number.same_comm m n
    | _ => rfl
  | string s =>
    cases w with
    | string t => exact Bool.beq_comm
    | _ => rfl
  | array vs =>
    cases w with
    | array ws => simpa only [same] using sameItems_comm vs ws
    | _ => rfl
  | object fs =>
    cases w with
    | object gs => simpa only [same] using sameFields_comm fs gs
    | _ => rfl

theorem sameItems_comm (vs ws : List Value) : sameItems vs ws = sameItems ws vs := by
  cases vs with
  | nil => cases ws <;> rfl
  | cons v vs =>
    cases ws with
    | nil => rfl
    | cons w ws => rw [sameItems, sameItems, same_comm v w, sameItems_comm vs ws]

theorem sameFields_comm (fs gs : Fields) : sameFields fs gs = sameFields gs fs := by
  cases fs with
  | nil => cases gs <;> rfl
  | cons f fs =>
    cases gs with
    | nil => rfl
    | cons g gs =>
      obtain ⟨k, v⟩ := f
      obtain ⟨j, w⟩ := g
      rw [sameFields, sameFields, same_comm v w, sameFields_comm fs gs, BEq.comm (a := k)]

end

theorem keys_of_sameFields {fs gs : Fields} (h : sameFields fs gs = true) :
    fs.map (·.1) = gs.map (·.1) := by
  induction fs generalizing gs with
  | nil =>
    cases gs with
    | nil => rfl
    | cons g gs => cases h
  | cons f fs ih =>
    cases gs with
    | nil => cases h
    | cons g gs =>
      rw [sameFields, Bool.and_eq_true, Bool.and_eq_true] at h
      obtain ⟨⟨hkey, _⟩, hrest⟩ := h
      rw [List.map_cons, List.map_cons, eq_of_beq hkey, ih hrest]

/-- Equal fields have the same keys, so they are in order together. -/
theorem ascending_of_sameFields {fs gs : Fields} (h : sameFields fs gs = true)
    (hgs : Entries.Ascending gs) : Entries.Ascending fs := by
  have hkeys : (gs.map (·.1)).Pairwise fun j k => compare j k = .lt := List.pairwise_map.mpr hgs
  rw [← keys_of_sameFields h] at hkeys
  exact List.pairwise_map.mp hkeys

theorem beq_comm (v w : Value) : (v == w) = (w == v) :=
  same_comm v w

end Value

end ShapeModel
