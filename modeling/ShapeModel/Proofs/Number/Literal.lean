import ShapeModel.Number.Literal

/-!
# Integers as literals

The decimal text of an integer denotes it, as long as it fits 64 bits. Such a text holds digits and
at most a minus in front, so nothing is trimmed from it and it is not taken for a double.
-/

namespace ShapeModel

set_option autoImplicit false

theorem Char.toNat_bounds_of_isDigit {c : Char} (h : c.isDigit = true) :
    48 ≤ c.toNat ∧ c.toNat ≤ 57 := by
  simpa [Char.isDigit, UInt32.le_iff_toNat_le] using h

theorem Char.toLower_of_isDigit {c : Char} (h : c.isDigit = true) : c.toLower = c := by
  have hbounds := Char.toNat_bounds_of_isDigit h
  apply dif_neg
  intro h
  have hupper : 65 ≤ c.toNat := UInt32.le_iff_toNat_le.mp h.1
  omega

/-- The characters of integers. -/
def IsIntChar (c : Char) : Prop :=
  c = '-' ∨ c.isDigit = true

theorem IsIntChar.toNat_bounds {c : Char} (h : IsIntChar c) : 45 ≤ c.toNat ∧ c.toNat ≤ 57 := by
  rcases h with rfl | h
  · decide
  · have hbounds := Char.toNat_bounds_of_isDigit h
    omega

theorem IsIntChar.isBlank_eq {c : Char} (h : IsIntChar c) : Text.isBlank c = false := by
  have hbounds := h.toNat_bounds
  simp [Text.isBlank, Text.blankRanges, Text.Ranges.has]
  omega

theorem IsIntChar.not_mark {c : Char} (h : IsIntChar c) : ¬(c = '.' ∨ c = 'e' ∨ c = 'E') := by
  intro hmark
  rcases h with rfl | h
  · revert hmark
    decide
  · rcases hmark with rfl | rfl | rfl <;> cases h

theorem IsIntChar.ne {c d : Char} (h : IsIntChar c) (hd : d.toNat < 45 ∨ 57 < d.toNat) :
    c ≠ d := by
  rintro rfl
  have hbounds := h.toNat_bounds
  omega

theorem Text.trim_eq_self {cs : List Char} (h : ∀ c ∈ cs, isBlank c = false) : trim cs = cs := by
  have hdrop (ds : List Char) (hds : ∀ c ∈ ds, isBlank c = false) : ds.dropWhile isBlank = ds := by
    cases ds with
    | nil => rfl
    | cons d ds => rw [List.dropWhile_cons_of_neg (by simp [hds d List.mem_cons_self])]
  rw [trim, hdrop cs h, hdrop cs.reverse (by simpa using h), List.reverse_reverse]

theorem exists_toDigits_eq_cons (n : Nat) :
    ∃ d ds, Nat.toDigits 10 n = d :: ds ∧ ∀ c ∈ d :: ds, c.isDigit = true := by
  obtain ⟨d, ds, hds⟩ := List.exists_cons_of_ne_nil (@Nat.toDigits_ne_nil n 10)
  refine ⟨d, ds, hds, ?_⟩
  intro c hc
  exact Nat.isDigit_of_mem_toDigits (by omega) (by omega) (hds ▸ hc)

/-- The text of an integer: one or more digits, and in front of them a minus or nothing. -/
structure IntegerText where
  negative : Bool
  digits : List Char
  digits_ne_nil : digits ≠ []
  isDigit : ∀ c ∈ digits, c.isDigit = true

namespace IntegerText

variable (t : IntegerText)

def chars : List Char :=
  if t.negative then '-' :: t.digits else t.digits

def magnitude : Nat :=
  Nat.ofDigitChars 10 t.digits 0

/-- The integer that is written. -/
def value : Int :=
  Binary64.signed t.negative t.magnitude

/-- The text without needless zeros. -/
def ofInt (i : Int) : IntegerText where
  negative := i < 0
  digits := Nat.toDigits 10 i.natAbs
  digits_ne_nil := Nat.toDigits_ne_nil
  isDigit := fun _ hc => Nat.isDigit_of_mem_toDigits (by omega) (by omega) hc

theorem chars_ofInt (i : Int) : (ofInt i).chars = intText i := by
  rw [chars, intText, ofInt]
  simp only [decide_eq_true_eq]

theorem negative_ofInt (i : Int) : (ofInt i).negative = decide (i < 0) :=
  rfl

theorem magnitude_ofInt (i : Int) : (ofInt i).magnitude = i.natAbs :=
  Nat.ofDigitChars_ten_toDigits

theorem chars_ne_nil : t.chars ≠ [] := by
  rw [chars]
  split
  · exact List.cons_ne_nil _ _
  · exact t.digits_ne_nil

theorem isIntChar_of_mem_chars : ∀ c ∈ t.chars, IsIntChar c := by
  have hdigits : ∀ c ∈ t.digits, IsIntChar c := fun c hc => .inr (t.isDigit c hc)
  rw [chars]
  split
  · exact List.forall_mem_cons.mpr ⟨.inl rfl, hdigits⟩
  · exact hdigits

theorem isDigits_digits : Number.isDigits t.digits = true := by
  obtain ⟨d, ds, hds⟩ := List.exists_cons_of_ne_nil t.digits_ne_nil
  rw [Number.isDigits, List.all_eq_true.mpr t.isDigit, hds]
  rfl

theorem digitsToNat_digits : Number.digitsToNat t.digits = t.magnitude :=
  rfl

/-- The sign of a text of an integer is a minus: what else there may be is a digit. -/
theorem splitSign_chars : Number.splitSign t.chars = (t.negative, t.digits) := by
  rw [chars]
  split
  · next hneg =>
    rw [hneg]
    rfl
  · next hneg =>
    obtain ⟨d, ds, hds⟩ := List.exists_cons_of_ne_nil t.digits_ne_nil
    have hd := t.isDigit d (hds ▸ List.mem_cons_self)
    rw [Bool.not_eq_true] at hneg
    rw [hneg, hds]
    unfold Number.splitSign
    split
    · next h =>
      cases h
      cases hd
    · next h =>
      cases h
      cases hd
    · rfl

theorem integerLiteral?_chars :
    Number.integerLiteral? t.chars =
      if t.negative then
        if t.magnitude ≤ 2 ^ 63 then some (.int (Int64.ofInt (-(t.magnitude : Int)))) else none
      else
        if t.magnitude < 2 ^ 64 then some (.uint (UInt64.ofNat t.magnitude)) else none := by
  rw [Number.integerLiteral?, splitSign_chars]
  simp only [isDigits_digits, digitsToNat_digits, if_true]
  rfl

/-- What is not an integer of 64 bits is tried as a double. -/
theorem ofText?_chars :
    Number.ofText? t.chars =
      (Number.integerLiteral? t.chars).or ((Number.floatLiteral? t.chars).map .float) := by
  have htrim := Text.trim_eq_self fun c hc => (t.isIntChar_of_mem_chars c hc).isBlank_eq
  have hmark : t.chars.any (fun c => c = '.' ∨ c = 'e' ∨ c = 'E') = false := by
    rw [List.any_eq_false]
    intro c hc
    simpa using (t.isIntChar_of_mem_chars c hc).not_mark
  rw [Number.ofText?, htrim, hmark]
  rfl

end IntegerText

theorem intText_ne_nil (i : Int) : intText i ≠ [] :=
  IntegerText.chars_ofInt i ▸ (IntegerText.ofInt i).chars_ne_nil

theorem isIntChar_of_mem_intText {i : Int} : ∀ c ∈ intText i, IsIntChar c :=
  IntegerText.chars_ofInt i ▸ (IntegerText.ofInt i).isIntChar_of_mem_chars

namespace Number

theorem digitsToNat_toDigits (n : Nat) : digitsToNat (Nat.toDigits 10 n) = n :=
  Nat.ofDigitChars_ten_toDigits

theorem integerLiteral?_intText (i : Int) : integerLiteral? (intText i) = ofInt? i := by
  rw [← IntegerText.chars_ofInt, IntegerText.integerLiteral?_chars, IntegerText.negative_ofInt,
    IntegerText.magnitude_ofInt, ofInt?]
  by_cases hi : i < 0
  · have habs : -(i.natAbs : Int) = i := by omega
    rw [if_pos (decide_eq_true hi), if_neg (by omega : ¬(0 ≤ i ∧ i < 2 ^ 64)), habs]
    by_cases hfits : i.natAbs ≤ 2 ^ 63
    · rw [if_pos hfits, if_pos (by omega)]
    · rw [if_neg hfits, if_neg (by omega)]
  · have habs : i.natAbs = i.toNat := by omega
    rw [if_neg (mt of_decide_eq_true hi), habs]
    by_cases hfits : i.toNat < 2 ^ 64
    · rw [if_pos hfits, if_pos (by omega)]
    · rw [if_neg hfits, if_neg (by omega), if_neg (by omega)]

theorem ofText?_intText {i : Int} {n : Number} (h : ofInt? i = some n) :
    ofText? (intText i) = some n := by
  have hliteral := (integerLiteral?_intText i).trans h
  rw [← IntegerText.chars_ofInt] at hliteral ⊢
  rw [IntegerText.ofText?_chars, hliteral]
  rfl

theorem ofInt?_toNat (n : UInt64) : ofInt? n.toNat = some (.uint n) := by
  have hlt := n.toNat_lt
  rw [ofInt?, if_pos (by omega), Int.toNat_natCast, UInt64.ofNat_toNat]

/-- A signed integer is read back without a sign where it has none, which makes no difference. -/
theorem exists_ofInt?_toInt (n : Int64) :
    ∃ n', ofInt? n.toInt = some n' ∧ n'.same (.int n) = true := by
  have hlt := n.toInt_lt
  have hle := n.le_toInt
  by_cases hn : 0 ≤ n.toInt
  · refine ⟨_, if_pos (by omega), ?_⟩
    have htoNat : (UInt64.ofNat n.toInt.toNat).toNat = n.toInt.toNat := by
      rw [UInt64.toNat_ofNat', Nat.mod_eq_of_lt (by omega)]
    simp only [same, htoNat, decide_eq_true_eq]
    omega
  · rw [ofInt?, if_neg (by omega), if_pos (by omega), Int64.ofInt_toInt]
    exact ⟨_, rfl, decide_eq_true rfl⟩

end Number

end ShapeModel
