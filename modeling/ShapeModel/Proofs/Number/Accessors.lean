import ShapeModel.Proofs.Number.Order

/-!
# How integers are seen

A number that is held as an integer is seen as a 64-bit integer, with or without sign, exactly where
it fits, and then as it is. It is seen as a double where the nearest double is of safe magnitude.
That is one integer more on either side than are safe themselves: 2^53 + 1 is seen as 2^53.
-/

namespace ShapeModel

set_option autoImplicit false

namespace Binary64

variable {i j : Int} {k : Nat}

theorem units_of_toInt? {negative : Bool} {units : Nat} {h : Representable units}
    (hj : (finite negative units h).toInt? = some j) : units = j.natAbs * unitsPerOne := by
  have hrank := Option.some.inj (rank?_of_toInt? hj)
  rw [← natAbs_mul_unitsPerOne, ← hrank, natAbs_signed]

/-- Rounding does not go below a smaller magnitude that is its own rounding. -/
theorem le_natAbs_of_toInt?_ofInt (hk : roundUnits (k * unitsPerOne) 1 = k * unitsPerOne)
    (hle : k ≤ i.natAbs) (hj : (ofInt i).toInt? = some j) : k ≤ j.natAbs := by
  by_cases hlimit : roundUnits (i.natAbs * unitsPerOne) 1 < limit
  · rw [ofInt_eq_finite hlimit] at hj
    apply Nat.le_of_mul_le_mul_right _ unitsPerOne_pos
    calc k * unitsPerOne = roundUnits (k * unitsPerOne) 1 := hk.symm
      _ ≤ roundUnits (i.natAbs * unitsPerOne) 1 := roundUnits_mono (Nat.mul_le_mul_right _ hle)
      _ = j.natAbs * unitsPerOne := units_of_toInt? hj
  · rw [ofInt_eq_infinite hlimit] at hj
    cases hj

/-- Up to 2^54, every even integer is a double. -/
theorem roundUnits_even (hk : k ≤ 2 ^ 53) :
    roundUnits (2 * k * unitsPerOne) 1 = 2 * k * unitsPerOne := by
  have hshift : 2 * k * unitsPerOne = k * 2 ^ (fractionBits + 1) := by
    rw [unitsPerOne, Nat.pow_succ, Nat.mul_comm 2 k, Nat.mul_assoc, Nat.mul_comm 2]
  rw [hshift]
  exact roundUnits_one_of_dvd (significant_mul_two_pow hk _)

/-- The least magnitude that is not a double is rounded to the even neighbour, which is less. -/
theorem toInt?_ofInt_tie (h : i.natAbs = 2 ^ 53 + 1) : (ofInt i).toInt? = some (i - i.sign) := by
  rcases Int.natAbs_eq i with hi | hi
  · rw [hi, h]
    decide +kernel
  · rw [hi, h]
    decide +kernel

end Binary64

namespace Number

variable {n : Number} {i : Int} {x : Binary64}

/-- The double nearest to an integer is of safe magnitude up to 2^53 + 1, which is rounded down. -/
theorem isSome_safeInt?_ofInt_iff :
    (safeInt? (.ofInt i)).isSome = true ↔ i.natAbs ≤ 2 ^ 53 + 1 := by
  constructor
  · intro h
    obtain ⟨j, hj⟩ := Option.isSome_iff_exists.mp h
    obtain ⟨hint, hsafe⟩ := safeInt?_eq_some_iff.mp hj
    by_contra hlarge
    -- The double next to 2^53 is 2^53 + 2, and rounding does not go below it.
    have hnext : 2 * (2 ^ 52 + 1) ≤ i.natAbs := by omega
    have hle := Binary64.le_natAbs_of_toInt?_ofInt (Binary64.roundUnits_even (by decide)) hnext hint
    rw [safeInteger] at hsafe
    omega
  · intro h
    rcases Nat.lt_or_eq_of_le h with hlt | heq
    · have hexact := Binary64.toInt?_ofInt (Nat.le_of_lt_succ hlt)
      exact Option.isSome_of_eq_some (safeInt?_eq_some_iff.mpr ⟨hexact, Nat.le_of_lt_succ hlt⟩)
    · have htie := Binary64.toInt?_ofInt_tie heq
      refine Option.isSome_of_eq_some (safeInt?_eq_some_iff.mpr ⟨htie, ?_⟩)
      rw [safeInteger]
      rcases Int.lt_or_lt_of_ne (a := i) (b := 0) (by omega) with hneg | hpos
      · rw [Int.sign_eq_neg_one_of_neg hneg]
        omega
      · rw [Int.sign_eq_one_of_pos hpos]
        omega

/-- An integer as the accessors see it: as a 64-bit integer where it fits, and as a double up to
2^53 + 1, where the double is the integer itself unless that is the last one. -/
structure Sees (n : Number) (i : Int) : Prop where
  unsigned : ∀ k : Nat, n.asUInt64 = some k ↔ (0 ≤ i ∧ i < 2 ^ 64) ∧ (k : Int) = i
  signed : ∀ k : Int, n.asInt64 = some k ↔ (-2 ^ 63 ≤ i ∧ i < 2 ^ 63) ∧ k = i
  float : ∀ x, n.asFloat = some x ↔ i.natAbs ≤ 2 ^ 53 + 1 ∧ x = .ofInt i
  exact : ∀ x, n.asFloat = some x → i.natAbs ≠ 2 ^ 53 + 1 → x.value? = some (i : ℚ)
  tie : ∀ x, n.asFloat = some x → i.natAbs = 2 ^ 53 + 1 → x.value? = some ((i - i.sign : Int) : ℚ)

theorem asUInt64_eq_some_iff (hn : n.toInt? = some i) (k : Nat) :
    n.asUInt64 = some k ↔ (0 ≤ i ∧ i < 2 ^ 64) ∧ (k : Int) = i := by
  rw [asUInt64, hn]
  simp only []
  split
  · next hfits =>
    rw [Option.some.injEq, and_iff_right hfits]
    omega
  · next hfits => exact iff_of_false nofun fun h => hfits h.1

theorem asInt64_eq_some_iff (hn : n.toInt? = some i) (k : Int) :
    n.asInt64 = some k ↔ (-2 ^ 63 ≤ i ∧ i < 2 ^ 63) ∧ k = i := by
  rw [asInt64, hn, Option.filter_some]
  split
  · next hfits => rw [Option.some.injEq, and_iff_right (of_decide_eq_true hfits), eq_comm]
  · next hfits => exact iff_of_false nofun fun h => hfits (decide_eq_true h.1)

theorem asFloat_eq_some_iff (hword : n.isWord = true) (hn : n.toInt? = some i) (x : Binary64) :
    n.asFloat = some x ↔ i.natAbs ≤ 2 ^ 53 + 1 ∧ x = .ofInt i := by
  have hseen : n.asFloat =
      if (safeInt? (.ofInt i)).isSome = true then some (.ofInt i) else none := by
    cases n with
    | float x => cases hword
    | _ =>
      cases hn
      rfl
  rw [hseen, ← isSome_safeInt?_ofInt_iff]
  split
  · next hsafe => rw [Option.some.injEq, and_iff_right hsafe, eq_comm]
  · next hsafe => exact iff_of_false nofun fun h => hsafe h.1

theorem sees_of_isWord (hword : n.isWord = true) (hn : n.toInt? = some i) : n.Sees i where
  unsigned := asUInt64_eq_some_iff hn
  signed := asInt64_eq_some_iff hn
  float := asFloat_eq_some_iff hword hn
  exact x hx hi := by
    have hnearest := (asFloat_eq_some_iff hword hn x).mp hx
    rw [hnearest.2]
    exact Binary64.value?_of_toInt? (Binary64.toInt?_ofInt (by omega))
  tie x hx hi := by
    rw [((asFloat_eq_some_iff hword hn x).mp hx).2]
    exact Binary64.value?_of_toInt? (Binary64.toInt?_ofInt_tie hi)

/-- Integers of both types are seen as they are, but for 2^53 + 1 and its opposite, which are seen
as the doubles next to them on the side of zero. -/
theorem sees_integer (m : UInt64) (k : Int64) :
    (uint m).Sees m.toNat ∧ (int k).Sees k.toInt :=
  ⟨sees_of_isWord rfl rfl, sees_of_isWord rfl rfl⟩

/-- The bound for what is seen as a double is tested behind the rounding, which has taken 2^53 + 1
and its opposite within it by then. -/
theorem asFloat_ne_value? :
    (∃ x, (uint 9007199254740993).asFloat = some x ∧ x.value? = some 9007199254740992 ∧
      (uint 9007199254740993).value? = some 9007199254740993) ∧
    ∃ x, (int (-9007199254740993)).asFloat = some x ∧ x.value? = some (-9007199254740992) ∧
      (int (-9007199254740993)).value? = some (-9007199254740993) := by
  have htie (i : Int) (hi : i.natAbs = 2 ^ 53 + 1) :
      (Binary64.ofInt i).value? = some ((i - i.sign : Int) : ℚ) :=
    Binary64.value?_of_toInt? (Binary64.toInt?_ofInt_tie hi)
  constructor
  · exact ⟨_, (asFloat_eq_some_iff rfl rfl _).mpr ⟨by decide, rfl⟩, htie _ rfl, rfl⟩
  · exact ⟨_, (asFloat_eq_some_iff rfl rfl _).mpr ⟨by decide, rfl⟩, htie _ rfl, rfl⟩

end Number

end ShapeModel
