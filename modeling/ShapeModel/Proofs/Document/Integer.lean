import ShapeModel.Proofs.Document.Value
import ShapeModel.Proofs.Number.Literal
import ShapeModel.Proofs.Number.Order
import Mathlib.Data.List.TakeWhile

/-!
# Integers in a document

A literal of digits, with a minus or without, is read whatever its length. It is kept as an integer
if that fits 64 bits, with sign if it is negative, and otherwise it is the double nearest to it.
-/

namespace ShapeModel

set_option autoImplicit false

/-- The number is held as an integer, and as this one. -/
def Number.Holds : Number → Int → Prop
  | .uint n, i => n.toNat = i
  | .int n, i => n.toInt = i
  | .float _, _ => False

/-- An integer of 64 bits, with sign if it is negative. -/
def Number.Fits (i : Int) : Prop :=
  -2 ^ 63 ≤ i ∧ i < 2 ^ 64

namespace Number

theorem value?_of_holds {n : Number} {i : Int} (h : n.Holds i) : n.value? = some (i : ℚ) := by
  cases n with
  | uint m =>
    cases h
    rw [value?, Int.cast_natCast]
  | int m =>
    cases h
    rfl
  | float x => cases h

end Number

namespace IntegerText

variable (t : IntegerText)

theorem value_of_negative {t : IntegerText} (h : t.negative = true) :
    t.value = -(t.magnitude : Int) := by
  rw [value, h]
  rfl

theorem value_of_not_negative {t : IntegerText} (h : t.negative = false) :
    t.value = t.magnitude := by
  rw [value, h]
  rfl

theorem natAbs_value : t.value.natAbs = t.magnitude :=
  Binary64.natAbs_signed _ _

/-- Digits are not the name of an infinity or of not-a-number, and there is neither point nor
exponent among them. -/
theorem floatLiteral?_chars :
    Number.floatLiteral? t.chars = some (.ofDecimal t.negative t.magnitude 0) := by
  obtain ⟨d, ds, hds⟩ := List.exists_cons_of_ne_nil t.digits_ne_nil
  have hd := t.isDigit d (hds ▸ List.mem_cons_self)
  have hname (c : Char) (cs : List Char) (hc : c.isDigit = false) :
      t.digits.map Char.toLower ≠ c :: cs := by
    rw [hds, List.map_cons, Char.toLower_of_isDigit hd]
    intro h
    cases h
    cases hc.symm.trans hd
  have hwhole : t.digits.takeWhile Char.isDigit = t.digits :=
    List.takeWhile_eq_self_iff.mpr t.isDigit
  have hrest : t.digits.dropWhile Char.isDigit = [] :=
    List.dropWhile_eq_nil_iff.mpr t.isDigit
  rw [Number.floatLiteral?, splitSign_chars]
  simp only [hname _ _ (by decide : 'i'.isDigit = false),
    hname _ _ (by decide : 'n'.isDigit = false), or_self, if_false]
  rw [Number.decimalLiteral?, hwhole, hrest]
  simp only [List.append_nil, digitsToNat_digits, Number.exponent?]
  rw [hds]
  rfl

/-- An integer of any length has a nearest double. -/
theorem ofDecimal_eq_ofInt {t : IntegerText} (h : t.magnitude ≠ 0) :
    Binary64.ofDecimal t.negative t.magnitude 0 = .ofInt t.value := by
  have hsign : decide (t.value < 0) = t.negative := by
    cases hneg : t.negative with
    | true =>
      rw [value_of_negative hneg]
      apply decide_eq_true
      omega
    | false =>
      rw [value_of_not_negative hneg]
      apply decide_eq_false
      omega
  rw [Binary64.ofInt, hsign, natAbs_value, Binary64.ofDecimal.eq_def, if_neg h,
    if_neg (by decide), if_neg (by omega)]
  exact congrArg (Binary64.ofRatio t.negative · 1) (Nat.mul_one t.magnitude)

/-- A literal that fits 64 bits is kept as the integer that it is. -/
theorem exists_ofText?_of_fits {t : IntegerText} (h : Number.Fits t.value) :
    ∃ n, Number.ofText? t.chars = some n ∧ n.Holds t.value := by
  obtain ⟨hlow, hhigh⟩ := h
  rw [ofText?_chars, integerLiteral?_chars]
  cases hneg : t.negative with
  | true =>
    rw [value_of_negative hneg] at hlow ⊢
    rw [if_pos rfl, if_pos (by omega), Option.some_or]
    refine ⟨_, rfl, ?_⟩
    exact Int64.toInt_ofInt_of_le hlow (by omega)
  | false =>
    rw [value_of_not_negative hneg] at hhigh ⊢
    rw [if_neg Bool.false_ne_true, if_pos (by omega), Option.some_or]
    refine ⟨_, rfl, ?_⟩
    rw [Number.Holds, UInt64.toNat_ofNat', Nat.mod_eq_of_lt (by omega)]

theorem ofText?_of_not_fits {t : IntegerText} (h : ¬Number.Fits t.value) :
    Number.ofText? t.chars = some (.float (.ofInt t.value)) := by
  have hmagnitude : t.magnitude ≠ 0 := by
    intro hzero
    have habs := t.natAbs_value
    apply h
    rw [Number.Fits]
    omega
  have hinteger : Number.integerLiteral? t.chars = none := by
    rw [Number.Fits] at h
    rw [integerLiteral?_chars]
    cases hneg : t.negative with
    | true =>
      rw [value_of_negative hneg] at h
      rw [if_pos rfl, if_neg (by omega)]
    | false =>
      rw [value_of_not_negative hneg] at h
      rw [if_neg Bool.false_ne_true, if_neg (by omega)]
  rw [ofText?_chars, hinteger, floatLiteral?_chars, ofDecimal_eq_ofInt hmagnitude]
  rfl

/-- A literal of digits is read as a number, and is kept exactly if it fits 64 bits. Otherwise it
becomes the nearest double, which is the same number only if that has no more than 53 significant
bits and is not too large. -/
theorem readValue_integerText (t : IntegerText) :
    ∃ n, Number.ofText? t.chars = some n ∧ (n.Holds t.value ↔ Number.Fits t.value) ∧
      (¬Number.Fits t.value → n = .float (.ofInt t.value)) ∧
      (n.value? = some (t.value : ℚ) ↔
        Number.Fits t.value ∨ Representable (t.value.natAbs * Binary64.unitsPerOne)) ∧
      ∀ s ctx (c : Cursor) rest, c.kinds = .number (String.ofList t.chars) :: rest →
        (Document.readValue s ctx c).Gives (.number n) rest := by
  have hread (n : Number) (hn : Number.ofText? t.chars = some n) (s : Document.Scope)
      (ctx : Document.Context) (c : Cursor) (rest : List Token.Kind)
      (hc : c.kinds = .number (String.ofList t.chars) :: rest) :
      (Document.readValue s ctx c).Gives (.number n) rest := by
    apply Document.readValue_gives_iff.mpr
    refine ⟨[_], hc, .atom ?_⟩
    rw [Document.atom?, String.toList_ofList, hn]
  by_cases hfits : Number.Fits t.value
  · obtain ⟨n, hn, hholds⟩ := exists_ofText?_of_fits hfits
    refine ⟨n, hn, iff_of_true hholds hfits, fun h => absurd hfits h, ?_, hread n hn⟩
    exact iff_of_true (Number.value?_of_holds hholds) (.inl hfits)
  · have hn := ofText?_of_not_fits hfits
    refine ⟨_, hn, iff_of_false id hfits, fun _ => rfl, ?_, hread _ hn⟩
    rw [Number.value?, Binary64.value?_ofInt_eq_iff, or_iff_right hfits]

/-- The literal of 2^64 + 1 is read as the double 2^64. -/
theorem not_holds_integerText :
    ∃ t : IntegerText, t.chars = "18446744073709551617".toList ∧ t.value = 18446744073709551617 ∧
      ∃ x, Number.ofText? t.chars = some (.float x) ∧ x.toInt? = some 18446744073709551616 ∧
        ¬(Number.float x).Holds t.value := by
  refine ⟨ofInt 18446744073709551617, by decide +kernel, by decide +kernel, ?_⟩
  refine ⟨.ofInt 18446744073709551617, by decide +kernel, by decide +kernel, ?_⟩
  exact id

end IntegerText

end ShapeModel
