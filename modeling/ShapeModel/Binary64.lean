/-!
# Double-precision numbers

A finite double is a sign and a whole number of units, the unit being 2^-1074, of which at most
53 bits are significant. Rounding a quotient, comparing and converting from integers and decimals
are then exact arithmetic on natural numbers.
-/

namespace ShapeModel

set_option autoImplicit false

-- Powers of numbers are those of the core, whatever other instances of `Pow` are in reach.
attribute [instance (high)] instPowNat instNatPowNat Int.instNatPow
attribute [default_instance (high + 1)] instPowNat

/-- The binary places after the point of a finite double. -/
def Binary64.fractionBits : Nat := 1074

/-- The least magnitude, in units, that is too large for a finite double. -/
def Binary64.limit : Nat := 2 ^ (1024 + fractionBits)

theorem Binary64.limit_pos : 0 < limit :=
  Nat.two_pow_pos _

/-- A magnitude in units that some finite double has. -/
def Representable (units : Nat) : Prop :=
  units < Binary64.limit ∧ 2 ^ (units.log2 - 52) ∣ units

instance (units : Nat) : Decidable (Representable units) :=
  inferInstanceAs (Decidable (_ ∧ _))

inductive Binary64
  | nan
  | infinite (negative : Bool)
  | finite (negative : Bool) (units : Nat) (representable : Representable units)
deriving DecidableEq

theorem log2_lt_of_lt {n k : Nat} (hk : 0 < k) (h : n < 2 ^ k) : n.log2 < k := by
  by_cases hn : n = 0
  · subst hn
    simpa using hk
  · exact (Nat.log2_lt hn).2 h

/-- A number of at most 53 bits times a power of two has at most 53 significant bits. -/
theorem significant_mul_two_pow {m : Nat} (hm : m ≤ 2 ^ 53) (k : Nat) :
    2 ^ ((m * 2 ^ k).log2 - 52) ∣ m * 2 ^ k := by
  rcases Nat.lt_or_eq_of_le hm with hm | rfl
  · have h : m * 2 ^ k < 2 ^ (53 + k) := by
      rw [Nat.pow_add]
      exact Nat.mul_lt_mul_of_pos_right hm (Nat.two_pow_pos k)
    have := log2_lt_of_lt (by omega) h
    exact Nat.dvd_mul_left_of_dvd (Nat.pow_dvd_pow 2 (by omega)) m
  · have h : 2 ^ 53 * 2 ^ k < 2 ^ (54 + k) := by
      rw [← Nat.pow_add]
      exact Nat.pow_lt_pow_right (by omega) (by omega)
    have hl := log2_lt_of_lt (by omega) h
    rw [← Nat.pow_add] at hl ⊢
    exact Nat.pow_dvd_pow 2 (by omega)

namespace Binary64

def unitsPerOne : Nat := 2 ^ fractionBits

theorem representable_zero : Representable 0 :=
  ⟨limit_pos, Nat.dvd_zero _⟩

def zero (negative : Bool) : Binary64 :=
  .finite negative 0 representable_zero

/-- The double of a magnitude in units with at most 53 significant bits; from the limit on it is
infinite. -/
def ofUnits (negative : Bool) (units : Nat) (h : 2 ^ (units.log2 - 52) ∣ units) : Binary64 :=
  if hl : units < limit then .finite negative units ⟨hl, h⟩ else .infinite negative

/-- The distance between neighbours at this magnitude in units. -/
def spacing (units : Nat) : Nat :=
  2 ^ (units.log2 - 52)

/-- The quotient in multiples of the spacing there, to the nearest, a tie to the even one. -/
def roundQuotient (num den : Nat) : Nat :=
  let step := den * spacing (num / den)
  let q := num / step
  let r := num % step
  if step < 2 * r ∨ (2 * r = step ∧ q % 2 = 1) then q + 1 else q

/-- The quotient of two numbers of units, rounded to 53 significant bits. -/
def roundUnits (num den : Nat) : Nat :=
  roundQuotient num den * spacing (num / den)

theorem div_spacing_lt (n : Nat) : n / spacing n < 2 ^ 53 := by
  by_cases hn : n = 0
  · subst hn
    decide
  rw [spacing, Nat.div_lt_iff_lt_mul (Nat.two_pow_pos _), ← Nat.pow_add]
  have h : n < 2 ^ (n.log2 + 1) := Nat.lt_log2_self
  exact Nat.lt_of_lt_of_le h (Nat.pow_le_pow_right (by omega) (by omega))

theorem roundQuotient_le (num den : Nat) : roundQuotient num den ≤ 2 ^ 53 := by
  have h : num / (den * spacing (num / den)) < 2 ^ 53 := by
    rw [← Nat.div_div_eq_div_mul]
    exact div_spacing_lt _
  simp only [roundQuotient]
  split <;> omega

theorem significant_roundUnits (num den : Nat) :
    2 ^ ((roundUnits num den).log2 - 52) ∣ roundUnits num den :=
  significant_mul_two_pow (roundQuotient_le num den) _

/-- The double nearest to a quotient; of two equally near ones that with the even last bit. -/
def ofRatio (negative : Bool) (num den : Nat) : Binary64 :=
  ofUnits negative (roundUnits (num * unitsPerOne) den) (significant_roundUnits _ _)

def ofInt (n : Int) : Binary64 :=
  ofRatio (n < 0) n.natAbs 1

/-- The double nearest to `digits · 10 ^ exponent`. Exponents so large or so small that the result
is infinite or zero are settled without computing the power. -/
def ofDecimal (negative : Bool) (digits : Nat) (exponent : Int) : Binary64 :=
  if digits = 0 then zero negative
  else if 400 < exponent then .infinite negative
  else if exponent < -(400 + digits.log2 : Int) then zero negative
  else
    match exponent with
    | .ofNat e => ofRatio negative (digits * 10 ^ e) 1
    | .negSucc e => ofRatio negative digits (10 ^ (e + 1))

/-- The double with these bits: sign, 11 bits of exponent, 52 bits of fraction. -/
def ofBits (bits : UInt64) : Binary64 :=
  let n := bits.toNat
  let negative := 2 ^ 63 ≤ n
  let biased := n / 2 ^ 52 % 2 ^ 11
  let fraction := n % 2 ^ 52
  have hf : fraction < 2 ^ 52 := Nat.mod_lt _ (Nat.two_pow_pos _)
  if biased = 2047 then
    if fraction = 0 then .infinite negative else .nan
  else if biased = 0 then
    ofUnits negative (fraction * 2 ^ 0) (significant_mul_two_pow (by omega) 0)
  else
    ofUnits negative ((2 ^ 52 + fraction) * 2 ^ (biased - 1))
      (significant_mul_two_pow (by omega) _)

def toBits (x : Binary64) : Nat :=
  let sign (negative : Bool) := if negative then 2 ^ 63 else 0
  match x with
  | .nan => 2047 * 2 ^ 52 + 2 ^ 51
  | .infinite negative => sign negative + 2047 * 2 ^ 52
  | .finite negative units _ =>
    let shift := units.log2 - 52
    let m := units / 2 ^ shift
    sign negative + (if m < 2 ^ 52 then m else shift * 2 ^ 52 + m)

def isFinite : Binary64 → Bool
  | .finite .. => true
  | _ => false

def signed (negative : Bool) (units : Nat) : Int :=
  if negative then -(units : Int) else units

/-- The place of a double in the order, in units; the infinities stand at the limits. -/
def rank? : Binary64 → Option Int
  | .nan => none
  | .infinite negative => some (signed negative limit)
  | .finite negative units _ => some (signed negative units)

/-- The order of doubles: not-a-number compares with nothing, and both zeros are equal. -/
def compare? (x y : Binary64) : Option Ordering :=
  match x.rank?, y.rank? with
  | some a, some b => some (compare a b)
  | _, _ => none

def le (x y : Binary64) : Bool :=
  match x.compare? y with
  | some o => o.isLE
  | none => false

def same (x y : Binary64) : Bool :=
  x.compare? y == some .eq

instance : BEq Binary64 := ⟨same⟩

/-- The value of a finite double without a fraction. -/
def toInt? : Binary64 → Option Int
  | .finite negative units _ =>
    if units % unitsPerOne = 0 then some (signed negative (units / unitsPerOne)) else none
  | _ => none

end Binary64

end ShapeModel
