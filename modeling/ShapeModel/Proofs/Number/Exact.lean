import ShapeModel.Number

/-!
# Integers as doubles

Up to a magnitude of 2^53 the double nearest to an integer is the integer itself, and doubles that
are integers are compared as these.
-/

namespace ShapeModel

set_option autoImplicit false

namespace Binary64

theorem unitsPerOne_pos : 0 < unitsPerOne :=
  Nat.two_pow_pos _

/-- What has no more than 53 significant bits is its own rounding. -/
theorem roundUnits_one_of_dvd {n : Nat} (h : spacing n ∣ n) : roundUnits n 1 = n := by
  have hpos : 0 < spacing n := Nat.two_pow_pos _
  have hmod : n % spacing n = 0 := Nat.mod_eq_zero_of_dvd h
  have hquotient : roundQuotient n 1 = n / spacing n := by
    simp only [roundQuotient, Nat.div_one, Nat.one_mul, hmod]
    apply if_neg
    omega
  calc roundUnits n 1 = n / spacing n * spacing n := by rw [roundUnits, hquotient, Nat.div_one]
    _ = n := Nat.div_mul_cancel h

theorem mul_unitsPerOne_lt_limit {n : Nat} (h : n ≤ 2 ^ 53) : n * unitsPerOne < limit := by
  have hshift (k : Nat) : n * 2 ^ k < 2 ^ (1024 + k) := by
    calc n * 2 ^ k ≤ 2 ^ 53 * 2 ^ k := Nat.mul_le_mul_right _ h
      _ = 2 ^ (53 + k) := (Nat.pow_add 2 53 k).symm
      _ < 2 ^ (1024 + k) := Nat.pow_lt_pow_right (by omega) (by omega)
  exact hshift fractionBits

theorem toInt?_ofUnits {negative : Bool} {n : Nat}
    {h : 2 ^ ((n * unitsPerOne).log2 - 52) ∣ n * unitsPerOne} (hlimit : n * unitsPerOne < limit) :
    (ofUnits negative (n * unitsPerOne) h).toInt? = some (signed negative n) := by
  rw [ofUnits, dif_pos hlimit]
  simp only [toInt?, Nat.mul_mod_left, Nat.mul_div_cancel n unitsPerOne_pos, if_true]

theorem signed_natAbs (i : Int) : signed (decide (i < 0)) i.natAbs = i := by
  rw [signed]
  split
  · next h =>
    have hneg := of_decide_eq_true h
    omega
  · next h =>
    have hpos := mt decide_eq_true h
    omega

/-- An integer of safe magnitude is the double nearest to it. -/
theorem toInt?_ofInt {i : Int} (h : i.natAbs ≤ 2 ^ 53) : (ofInt i).toInt? = some i := by
  have hround := roundUnits_one_of_dvd (significant_mul_two_pow h fractionBits)
  calc (ofInt i).toInt? = some (signed (decide (i < 0)) i.natAbs) := by
        simp only [ofInt, ofRatio, unitsPerOne, hround]
        exact toInt?_ofUnits (mul_unitsPerOne_lt_limit h)
    _ = some i := by rw [signed_natAbs]

theorem rank?_of_toInt? {x : Binary64} {i : Int} (h : x.toInt? = some i) :
    x.rank? = some (i * unitsPerOne) := by
  cases x with
  | finite negative units hunits =>
    rw [toInt?] at h
    split at h
    · next hmod =>
      cases h
      have hunits : (units : Int) = (units / unitsPerOne : Nat) * unitsPerOne := by
        have hcancel := Nat.div_mul_cancel (Nat.dvd_of_mod_eq_zero hmod)
        exact_mod_cast hcancel.symm
      cases negative with
      | false => exact congrArg some hunits
      | true =>
        rw [rank?, signed, signed, if_pos rfl, if_pos rfl, Int.neg_mul, ← hunits]
    · cases h
  | _ => cases h

variable {x y : Binary64} {i j : Int}

theorem compare?_of_toInt? (hx : x.toInt? = some i) (hy : y.toInt? = some j) :
    x.compare? y = some (compare (i * unitsPerOne) (j * unitsPerOne)) := by
  rw [compare?, rank?_of_toInt? hx, rank?_of_toInt? hy]

theorem le_iff_of_toInt? (hx : x.toInt? = some i) (hy : y.toInt? = some j) :
    x.le y = true ↔ i ≤ j := by
  have hpos : (0 : Int) < unitsPerOne := Int.natCast_pos.mpr unitsPerOne_pos
  calc x.le y = true ↔ (compare (i * unitsPerOne) (j * unitsPerOne)).isLE = true := by
        rw [le, compare?_of_toInt? hx hy]
    _ ↔ i * unitsPerOne ≤ j * unitsPerOne := Std.isLE_compare
    _ ↔ i ≤ j := Int.mul_le_mul_right hpos

end Binary64

namespace Number

variable {x : Binary64} {n : Number} {i : Int}

theorem safeInt?_eq_some_iff :
    safeInt? x = some i ↔ x.toInt? = some i ∧ i.natAbs ≤ safeInteger := by
  rw [safeInt?, Option.filter_eq_some_iff, decide_eq_true_eq]

/-- An integer of safe magnitude is seen as it is. -/
theorem asFloat_of_toInt? (hn : n.toInt? = some i) (hi : i.natAbs ≤ safeInteger) :
    ∃ x, n.asFloat = some x ∧ x.toInt? = some i := by
  have hnearest : (Binary64.ofInt i).toInt? = some i := Binary64.toInt?_ofInt hi
  have hsafe : safeInt? (Binary64.ofInt i) = some i := safeInt?_eq_some_iff.mpr ⟨hnearest, hi⟩
  cases n with
  | uint m =>
    cases hn
    refine ⟨_, ?_, hnearest⟩
    rw [asFloat, toFloat, if_pos (Option.isSome_of_eq_some hsafe)]
  | int m =>
    cases hn
    refine ⟨_, ?_, hnearest⟩
    rw [asFloat, toFloat, if_pos (Option.isSome_of_eq_some hsafe)]
  | float x =>
    obtain ⟨hx, _⟩ := safeInt?_eq_some_iff.mp hn
    have hfinite : x.isFinite = true := by
      cases x with
      | finite => rfl
      | _ => cases hx
    exact ⟨x, if_pos hfinite, hx⟩

end Number

end ShapeModel
