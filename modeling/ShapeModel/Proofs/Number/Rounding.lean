import ShapeModel.Proofs.Number.Exact

/-!
# Rounding keeps the order

The double nearest to a larger number is not a smaller one. Within one power of two this is so
because all magnitudes there are rounded to multiples of the same spacing; and the roundings of two
powers of two are kept apart by the larger power, which is its own rounding.
-/

namespace ShapeModel.Binary64

set_option autoImplicit false

/-- How many steps a number amounts to, to the nearest; half a step counts towards the even one. -/
def nearest (step n : Nat) : Nat :=
  if step < 2 * (n % step) ∨ (2 * (n % step) = step ∧ n / step % 2 = 1) then n / step + 1
  else n / step

section Nearest

variable {step m n t : Nat}

theorem div_le_nearest : n / step ≤ nearest step n := by
  rw [nearest]
  split <;> omega

theorem nearest_le_div_add_one : nearest step n ≤ n / step + 1 := by
  rw [nearest]
  split <;> omega

theorem le_nearest (hstep : 0 < step) (h : t * step ≤ n) : t ≤ nearest step n :=
  Nat.le_trans ((Nat.le_div_iff_mul_le hstep).mpr h) div_le_nearest

theorem nearest_mul (hstep : 0 < step) : nearest step (t * step) = t := by
  rw [nearest, Nat.mul_mod_left, Nat.mul_div_cancel t hstep]
  apply if_neg
  omega

theorem nearest_mono (h : m ≤ n) : nearest step m ≤ nearest step n := by
  rcases Nat.lt_or_eq_of_le (Nat.div_le_div_right (c := step) h) with hlt | heq
  · calc nearest step m ≤ m / step + 1 := nearest_le_div_add_one
      _ ≤ n / step := hlt
      _ ≤ nearest step n := div_le_nearest
  · -- Within one step the remainder decides, and it is the larger one's that is larger.
    have hm := Nat.div_add_mod m step
    have hn := Nat.div_add_mod n step
    have hmod : m % step ≤ n % step := by
      rw [heq] at hm
      omega
    rw [nearest, nearest, heq]
    split
    · split <;> omega
    · split <;> omega

theorem nearest_le (hstep : 0 < step) (h : n ≤ t * step) : nearest step n ≤ t := by
  calc nearest step n ≤ nearest step (t * step) := nearest_mono h
    _ = t := nearest_mul hstep

end Nearest

variable {m n : Nat}

theorem spacing_pos (n : Nat) : 0 < spacing n :=
  Nat.two_pow_pos _

theorem roundUnits_one (n : Nat) : roundUnits n 1 = nearest (spacing n) n * spacing n := by
  rw [roundUnits, roundQuotient, nearest, Nat.div_one, Nat.one_mul]

theorem two_pow_eq_mul_spacing {k : Nat} (h : n.log2 ≤ k) :
    2 ^ k = 2 ^ (k - (n.log2 - 52)) * spacing n := by
  rw [spacing, ← Nat.pow_add]
  congr 1
  omega

theorem two_pow_log2_le_roundUnits (hn : n ≠ 0) : 2 ^ n.log2 ≤ roundUnits n 1 := by
  have hpow := two_pow_eq_mul_spacing (Nat.le_refl n.log2)
  rw [roundUnits_one, hpow]
  apply Nat.mul_le_mul_right
  apply le_nearest (spacing_pos n)
  rw [← hpow]
  exact Nat.log2_self_le hn

theorem roundUnits_le_two_pow (n : Nat) : roundUnits n 1 ≤ 2 ^ (n.log2 + 1) := by
  have hpow := two_pow_eq_mul_spacing (Nat.le_succ n.log2)
  rw [roundUnits_one, hpow]
  apply Nat.mul_le_mul_right
  apply nearest_le (spacing_pos n)
  rw [← hpow]
  exact Nat.le_of_lt Nat.lt_log2_self

theorem roundUnits_mono (h : m ≤ n) : roundUnits m 1 ≤ roundUnits n 1 := by
  by_cases hm : m = 0
  · subst hm
    exact Nat.zero_le _
  have hn : n ≠ 0 := by omega
  have hlog : m.log2 ≤ n.log2 := (Nat.le_log2 hn).mpr (Nat.le_trans (Nat.log2_self_le hm) h)
  rcases Nat.lt_or_eq_of_le hlog with hlt | heq
  · calc roundUnits m 1 ≤ 2 ^ (m.log2 + 1) := roundUnits_le_two_pow m
      _ ≤ 2 ^ n.log2 := Nat.pow_le_pow_right (by omega) hlt
      _ ≤ roundUnits n 1 := two_pow_log2_le_roundUnits hn
  · have hspacing : spacing m = spacing n := by rw [spacing, spacing, heq]
    rw [roundUnits_one, roundUnits_one, hspacing]
    exact Nat.mul_le_mul_right _ (nearest_mono h)

/-- A magnitude is its own rounding exactly if it has no more than 53 significant bits. -/
theorem roundUnits_eq_self_iff : roundUnits n 1 = n ↔ 2 ^ (n.log2 - 52) ∣ n := by
  constructor
  · intro h
    have hsignificant := significant_roundUnits n 1
    rwa [h] at hsignificant
  · exact roundUnits_one_of_dvd

/-- A number of units, rounded to 53 significant bits. -/
def rounded (u : Int) : Int :=
  signed (decide (u < 0)) (roundUnits u.natAbs 1)

theorem rounded_of_nonneg {u : Int} (h : 0 ≤ u) : rounded u = roundUnits u.natAbs 1 := by
  rw [rounded, decide_eq_false (by omega)]
  rfl

theorem rounded_of_neg {u : Int} (h : u < 0) : rounded u = -(roundUnits u.natAbs 1 : Int) := by
  rw [rounded, decide_eq_true h]
  rfl

theorem rounded_mono {u v : Int} (h : u ≤ v) : rounded u ≤ rounded v := by
  by_cases hv : v < 0
  · have hmono : roundUnits v.natAbs 1 ≤ roundUnits u.natAbs 1 := roundUnits_mono (by omega)
    rw [rounded_of_neg hv, rounded_of_neg (by omega)]
    omega
  by_cases hu : u < 0
  · rw [rounded_of_neg hu, rounded_of_nonneg (by omega)]
    omega
  · have hmono : roundUnits u.natAbs 1 ≤ roundUnits v.natAbs 1 := roundUnits_mono (by omega)
    rw [rounded_of_nonneg (by omega), rounded_of_nonneg (by omega)]
    omega

theorem natAbs_signed (negative : Bool) (n : Nat) : (signed negative n).natAbs = n := by
  cases negative with
  | false => exact Int.natAbs_natCast n
  | true => exact (Int.natAbs_neg n).trans (Int.natAbs_natCast n)

theorem rounded_eq_self_iff {u : Int} : rounded u = u ↔ roundUnits u.natAbs 1 = u.natAbs := by
  by_cases hu : u < 0
  · rw [rounded_of_neg hu]
    omega
  · rw [rounded_of_nonneg (by omega)]
    omega

/-- A finite double is its own rounding. -/
theorem rounded_signed {negative : Bool} (h : Representable n) :
    rounded (signed negative n) = signed negative n := by
  rw [rounded_eq_self_iff, natAbs_signed]
  exact roundUnits_one_of_dvd h.2

/-- Rounded numbers are ordered as the numbers themselves, as far as they are still different. -/
theorem compare_rounded {u v : Int} (h : rounded u = rounded v → u = v) :
    compare (rounded u) (rounded v) = compare u v := by
  rcases Int.lt_trichotomy u v with hlt | heq | hgt
  · have hle := rounded_mono (Int.le_of_lt hlt)
    have hne : rounded u ≠ rounded v := by
      intro heq
      have huv := h heq
      omega
    rw [Int.compare_eq_lt.mpr hlt, Int.compare_eq_lt.mpr (by omega)]
  · rw [heq, Int.compare_eq_eq.mpr rfl, Int.compare_eq_eq.mpr rfl]
  · have hle := rounded_mono (Int.le_of_lt hgt)
    have hne : rounded u ≠ rounded v := by
      intro heq
      have huv := h heq
      omega
    rw [Int.compare_eq_gt.mpr hgt, Int.compare_eq_gt.mpr (by omega)]

theorem natAbs_mul_unitsPerOne (i : Int) : (i * unitsPerOne).natAbs = i.natAbs * unitsPerOne :=
  Int.natAbs_mul i unitsPerOne

theorem signed_roundUnits (i : Int) :
    signed (decide (i < 0)) (roundUnits (i.natAbs * unitsPerOne) 1) =
      rounded (i * unitsPerOne) := by
  have hpos : (0 : Int) < unitsPerOne := Int.natCast_pos.mpr unitsPerOne_pos
  have hsign : i * unitsPerOne < 0 ↔ i < 0 := by
    constructor
    · intro h
      exact Int.neg_of_mul_neg_left h hpos
    · intro h
      exact Int.mul_neg_of_neg_of_pos h hpos
  rw [rounded, natAbs_mul_unitsPerOne, decide_eq_decide.mpr hsign]

theorem ofInt_eq_finite {i : Int} (h : roundUnits (i.natAbs * unitsPerOne) 1 < limit) :
    ofInt i = .finite (decide (i < 0)) (roundUnits (i.natAbs * unitsPerOne) 1)
      ⟨h, significant_roundUnits _ _⟩ := by
  rw [ofInt, ofRatio, ofUnits, dif_pos h]

theorem ofInt_eq_infinite {i : Int} (h : ¬roundUnits (i.natAbs * unitsPerOne) 1 < limit) :
    ofInt i = .infinite (decide (i < 0)) := by
  rw [ofInt, ofRatio, ofUnits, dif_neg h]

/-- Integers of up to 64 bits have a finite double next to them. -/
theorem roundUnits_lt_limit (h : n ≤ 2 ^ 64) : roundUnits (n * unitsPerOne) 1 < limit := by
  have hshift (k : Nat) : roundUnits (n * 2 ^ k) 1 < 2 ^ (1024 + k) := by
    have hself : roundUnits (2 ^ (64 + k)) 1 = 2 ^ (64 + k) := by
      apply roundUnits_one_of_dvd
      rw [spacing, Nat.log2_two_pow]
      exact Nat.pow_dvd_pow 2 (by omega)
    calc roundUnits (n * 2 ^ k) 1 ≤ roundUnits (2 ^ (64 + k)) 1 := by
          apply roundUnits_mono
          rw [Nat.pow_add]
          exact Nat.mul_le_mul_right _ h
      _ = 2 ^ (64 + k) := hself
      _ < 2 ^ (1024 + k) := Nat.pow_lt_pow_right (by omega) (by omega)
  exact hshift fractionBits

end ShapeModel.Binary64
