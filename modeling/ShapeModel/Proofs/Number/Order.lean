import ShapeModel.Proofs.Number.Rounding
import Mathlib.Algebra.Order.Field.Rat
import Mathlib.Data.Int.ConditionallyCompleteOrder
import Mathlib.Tactic.NormNum

/-!
# Comparing numbers of different types

Every finite number denotes a rational. Comparing two of them goes by their values where both are
held as integers that are seen as they are, and by the nearest doubles otherwise. As rounding keeps
the order, the second way can only take two numbers for equal that are not.
-/

namespace ShapeModel

set_option autoImplicit false

/-- The rational that a finite double is. -/
def Binary64.value? : Binary64 → Option ℚ
  | .finite negative units _ => some (signed negative units / unitsPerOne)
  | _ => none

namespace Number

/-- The rational that a finite number denotes. -/
def value? : Number → Option ℚ
  | .uint n => some n.toNat
  | .int n => some n.toInt
  | .float x => x.value?

/-- The number is held as an integer. -/
def isWord : Number → Bool
  | .uint _ | .int _ => true
  | .float _ => false

/-- Two numbers have different values, but the nearest doubles have the same. -/
def Merge (a b : Number) : Prop :=
  a.value? ≠ b.value? ∧ a.toFloat.value? = b.toFloat.value?

instance (a b : Number) : Decidable (Merge a b) :=
  inferInstanceAs (Decidable (_ ∧ _))

end Number

namespace Binary64

theorem unitsPerOne_cast_pos : (0 : ℚ) < unitsPerOne := by
  exact_mod_cast unitsPerOne_pos

theorem strictMono_units : StrictMono fun u : Int => (u / unitsPerOne : ℚ) := by
  intro u v h
  apply div_lt_div_of_pos_right _ unitsPerOne_cast_pos
  exact_mod_cast h

/-- A finite double stands in the order where its value does. -/
theorem rank?_eq_some_of_value? {x : Binary64} {u : Int}
    (h : x.value? = some (u / unitsPerOne : ℚ)) : x.rank? = some u := by
  cases x with
  | finite negative units hunits =>
    have hvalue := Option.some.inj h
    exact congrArg some (strictMono_units.injective hvalue)
  | _ => cases h

theorem value?_ofInt {i : Int} (h : roundUnits (i.natAbs * unitsPerOne) 1 < limit) :
    (ofInt i).value? = some (rounded (i * unitsPerOne) / unitsPerOne : ℚ) := by
  rw [ofInt_eq_finite h, ← signed_roundUnits]
  rfl

/-- An integer is a double exactly if it has no more than 53 significant bits and is not too
large. -/
theorem value?_ofInt_eq_iff {i : Int} :
    (ofInt i).value? = some (i : ℚ) ↔ Representable (i.natAbs * unitsPerOne) := by
  have hself : rounded (i * unitsPerOne) = i * unitsPerOne ↔
      roundUnits (i.natAbs * unitsPerOne) 1 = i.natAbs * unitsPerOne := by
    rw [rounded_eq_self_iff, natAbs_mul_unitsPerOne]
  by_cases hlimit : roundUnits (i.natAbs * unitsPerOne) 1 < limit
  · have hvalue : (rounded (i * unitsPerOne) / unitsPerOne : ℚ) = i ↔
        rounded (i * unitsPerOne) = i * unitsPerOne := by
      rw [div_eq_iff unitsPerOne_cast_pos.ne']
      exact_mod_cast Iff.rfl
    rw [value?_ofInt hlimit, Option.some.injEq, hvalue, hself, roundUnits_eq_self_iff]
    constructor
    · intro h
      exact ⟨roundUnits_one_of_dvd h ▸ hlimit, h⟩
    · intro h
      exact h.2
  · rw [ofInt_eq_infinite hlimit]
    constructor
    · intro h
      cases h
    · intro h
      exact absurd ((roundUnits_one_of_dvd h.2).symm ▸ h.1) hlimit

theorem value?_of_toInt? {x : Binary64} {i : Int} (h : x.toInt? = some i) :
    x.value? = some (i : ℚ) := by
  have hrank := rank?_of_toInt? h
  cases x with
  | finite negative units hunits =>
    have hplace : signed negative units = i * unitsPerOne := Option.some.inj hrank
    calc value? (.finite negative units hunits)
        = some ((i * unitsPerOne : Int) / unitsPerOne : ℚ) := by rw [← hplace]; rfl
      _ = some (i : ℚ) := by
        push_cast
        rw [mul_div_cancel_right₀ _ unitsPerOne_cast_pos.ne']
  | _ => cases h

end Binary64

namespace Number

variable {a b n : Number} {p q : ℚ} {i j : Int}

/-- A finite number is a number of units, and the nearest double is that one rounded. -/
def Place (n : Number) (q : ℚ) (u : Int) : Prop :=
  q = u / Binary64.unitsPerOne ∧
    n.toFloat.value? = some (Binary64.rounded u / Binary64.unitsPerOne : ℚ)

theorem value?_ofInt_word (h : i.natAbs ≤ 2 ^ 64) :
    (i : ℚ) = (i * Binary64.unitsPerOne : Int) / Binary64.unitsPerOne ∧
      (Binary64.ofInt i).value? =
        some (Binary64.rounded (i * Binary64.unitsPerOne) / Binary64.unitsPerOne : ℚ) := by
  constructor
  · push_cast
    rw [mul_div_cancel_right₀ _ Binary64.unitsPerOne_cast_pos.ne']
  · exact Binary64.value?_ofInt (Binary64.roundUnits_lt_limit h)

theorem exists_place (h : n.value? = some q) : ∃ u, n.Place q u := by
  cases n with
  | uint m =>
    have hlt := m.toNat_lt
    cases h
    obtain ⟨hvalue, hnearest⟩ := @value?_ofInt_word m.toNat (by omega)
    refine ⟨_, ?_, hnearest⟩
    rw [← hvalue, Int.cast_natCast]
  | int m =>
    have hlt := m.toInt_lt
    have hle := m.le_toInt
    cases h
    exact ⟨m.toInt * Binary64.unitsPerOne, value?_ofInt_word (by omega)⟩
  | float x =>
    cases x with
    | finite negative units hunits =>
      cases h
      refine ⟨Binary64.signed negative units, rfl, ?_⟩
      rw [Binary64.rounded_signed hunits]
      rfl
    | _ => cases h

theorem merge_iff (ha : a.value? = some p) (hb : b.value? = some q) :
    a.Merge b ↔ p ≠ q ∧ a.toFloat.value? = b.toFloat.value? := by
  rw [Merge, ha, hb, ne_eq, Option.some.injEq]

/-- As doubles, two numbers are in their order, unless rounding has made them equal. -/
theorem compare?_toFloat (ha : a.value? = some p) (hb : b.value? = some q) :
    a.toFloat.compare? b.toFloat = some (if a.Merge b then .eq else compare p q) := by
  obtain ⟨u, hu, hau⟩ := exists_place ha
  obtain ⟨v, hv, hbv⟩ := exists_place hb
  have hcompare : a.toFloat.compare? b.toFloat =
      some (compare (Binary64.rounded u) (Binary64.rounded v)) := by
    rw [Binary64.compare?, Binary64.rank?_eq_some_of_value? hau,
      Binary64.rank?_eq_some_of_value? hbv]
  have hmerge : a.Merge b ↔ u ≠ v ∧ Binary64.rounded u = Binary64.rounded v := by
    rw [merge_iff ha hb, hau, hbv, hu, hv, Option.some.injEq,
      Binary64.strictMono_units.injective.eq_iff, Binary64.strictMono_units.injective.ne_iff]
  have hvalues : compare p q = compare u v := by
    rw [hu, hv, ← cmp_eq_compare, ← cmp_eq_compare]
    exact Binary64.strictMono_units.cmp_map_eq u v
  rw [hcompare]
  split
  · next h =>
    rw [Int.compare_eq_eq.mpr (hmerge.mp h).2]
  · next h =>
    rw [hvalues, Binary64.compare_rounded]
    intro hrounded
    exact not_not.mp fun hne => h (hmerge.mpr ⟨hne, hrounded⟩)

theorem same_toFloat_iff (ha : a.value? = some p) (hb : b.value? = some q) :
    a.toFloat.same b.toFloat = true ↔ p = q ∨ a.Merge b := by
  rw [Binary64.same, compare?_toFloat ha hb, beq_iff_eq, Option.some.injEq]
  split
  · next h => simp [h]
  · next h => simp [h]

/-- Two integers are equal where they have the same value. -/
theorem same_iff_of_isWord (ha : a.isWord = true) (hb : b.isWord = true) :
    a.same b = true ↔ a.value? = b.value? := by
  cases a with
  | uint m =>
    cases b with
    | uint n => simp [same, value?, UInt64.toNat_inj]
    | int n =>
      simp only [same, value?, decide_eq_true_eq, Option.some.injEq]
      exact_mod_cast Iff.rfl
    | float y => cases hb
  | int m =>
    cases b with
    | uint n =>
      simp only [same, value?, decide_eq_true_eq, Option.some.injEq]
      exact_mod_cast Iff.rfl
    | int n => simp [same, value?, Int64.toInt_inj]
    | float y => cases hb
  | float x => cases ha

theorem same_of_not_isWord (h : ¬(a.isWord = true ∧ b.isWord = true)) :
    a.same b = a.toFloat.same b.toFloat := by
  cases a with
  | float x => cases b <;> rfl
  | _ =>
    cases b with
    | float y => rfl
    | _ => exact absurd ⟨rfl, rfl⟩ h

theorem value?_of_asInt64 (h : n.asInt64 = some i) : n.value? = some (i : ℚ) := by
  obtain ⟨hi, -⟩ := Option.filter_eq_some_iff.mp h
  cases n with
  | uint m =>
    cases hi
    rfl
  | int m =>
    cases hi
    rfl
  | float x => exact Binary64.value?_of_toInt? (safeInt?_eq_some_iff.mp hi).1

/-- Two integers that fit 64 bits with sign are in the order of their values. -/
theorem compare?_of_asInt64 (ha : a.asInt64 = some i) (hb : b.asInt64 = some j) :
    a.compare? b = some (compare (i : ℚ) (j : ℚ)) := by
  have hcast : compare (i : ℚ) (j : ℚ) = compare i j := by
    rw [← cmp_eq_compare, ← cmp_eq_compare]
    exact Int.cast_strictMono.cmp_map_eq i j
  rw [compare?, ha, hb, hcast]

theorem compare?_of_not_asInt64 (h : ¬(a.asInt64.isSome = true ∧ b.asInt64.isSome = true)) :
    a.compare? b = a.toFloat.compare? b.toFloat := by
  rw [compare?]
  split
  · next ha hb => exact absurd ⟨by rw [ha]; rfl, by rw [hb]; rfl⟩ h
  · rfl

/-- Numbers are compared by their values, except for two different ones with the same nearest
double. Those are equal when one of them is a double, and equal in the order when one of them does
not fit 64 bits with sign. -/
theorem same_iff_and_compare?_eq (ha : a.value? = some p) (hb : b.value? = some q) :
    (a.same b = true ↔ p = q ∨ a.Merge b ∧ ¬(a.isWord = true ∧ b.isWord = true)) ∧
      a.compare? b = some
        (if a.Merge b ∧ ¬(a.asInt64.isSome = true ∧ b.asInt64.isSome = true) then .eq
          else compare p q) := by
  constructor
  · by_cases hwords : a.isWord = true ∧ b.isWord = true
    · rw [same_iff_of_isWord hwords.1 hwords.2, ha, hb]
      simp [hwords]
    · rw [same_of_not_isWord hwords, same_toFloat_iff ha hb]
      simp [hwords]
  · by_cases hshort : a.asInt64.isSome = true ∧ b.asInt64.isSome = true
    · obtain ⟨i, hi⟩ := Option.isSome_iff_exists.mp hshort.1
      obtain ⟨j, hj⟩ := Option.isSome_iff_exists.mp hshort.2
      rw [if_neg (fun h => h.2 hshort), compare?_of_asInt64 hi hj]
      rw [value?_of_asInt64 hi] at ha
      rw [value?_of_asInt64 hj] at hb
      cases ha
      cases hb
      rfl
    · rw [compare?_of_not_asInt64 hshort, compare?_toFloat ha hb]
      simp [hshort]

theorem value?_float_ofInt (h : i.natAbs ≤ 2 ^ 53) (hq : (i : ℚ) = q) :
    (float (.ofInt i)).value? = some q := by
  have hvalue := Binary64.value?_of_toInt? (Binary64.toInt?_ofInt h)
  rwa [← hq]

theorem same_iff_and_compare?_eq_merging :
    (uint 9007199254740993).value? = some 9007199254740993 ∧
      (float (.ofInt 9007199254740992)).value? = some 9007199254740992 ∧
      ((uint 9007199254740993).same (float (.ofInt 9007199254740992)) = true ↔
        (9007199254740993 : ℚ) = 9007199254740992 ∨
          (uint 9007199254740993).Merge (float (.ofInt 9007199254740992)) ∧
            ¬((uint 9007199254740993).isWord = true ∧
              (float (.ofInt 9007199254740992)).isWord = true)) ∧
      (uint 9007199254740993).compare? (float (.ofInt 9007199254740992)) = some
        (if (uint 9007199254740993).Merge (float (.ofInt 9007199254740992)) ∧
            ¬((uint 9007199254740993).asInt64.isSome = true ∧
              (float (.ofInt 9007199254740992)).asInt64.isSome = true) then .eq
          else compare (9007199254740993 : ℚ) 9007199254740992) := by
  have ha : (uint 9007199254740993).value? = some 9007199254740993 := rfl
  have hb : (float (.ofInt 9007199254740992)).value? = some 9007199254740992 :=
    value?_float_ofInt (by decide) (by norm_num)
  exact ⟨ha, hb, same_iff_and_compare?_eq ha hb⟩

/-- The integer 2^53 + 1 is equal to the double 2^53, which is less, and that one is equal to the
integer 2^53; and the integers from 2^63 on are equal in the order where they are not equal. -/
theorem same_of_value?_ne :
    (uint 9007199254740993).value? = some 9007199254740993 ∧
      (float (.ofInt 9007199254740992)).value? = some 9007199254740992 ∧
      (uint 9007199254740993).same (float (.ofInt 9007199254740992)) = true ∧
      (uint 9007199254740993).compare? (float (.ofInt 9007199254740992)) = some .gt ∧
      (float (.ofInt 9007199254740992)).same (uint 9007199254740992) = true ∧
      (uint 9007199254740993).same (uint 9007199254740992) = false ∧
      (uint 9223372036854775808).compare? (uint 9223372036854775809) = some .eq ∧
      (uint 9223372036854775808).same (uint 9223372036854775809) = false := by
  refine ⟨rfl, value?_float_ofInt (by decide) (by norm_num), ?_⟩
  decide +kernel

end Number

end ShapeModel
