/-!
# Decimal fractions

A decimal fraction is a number of digits and the power of ten of the last one. This module writes
digits positionally or with an exponent; it says nothing about which digits stand for a number.
-/

namespace ShapeModel

set_option autoImplicit false

/-- The number `digits · 10 ^ exponent`. -/
structure Decimal where
  digits : Nat
  exponent : Int
deriving DecidableEq, Repr

namespace Decimal

/-- The same number with no zero at the end of its digits. -/
def normal (d : Decimal) : Decimal :=
  if h : d.digits ≠ 0 ∧ d.digits % 10 = 0 then normal ⟨d.digits / 10, d.exponent + 1⟩ else d
termination_by d.digits
decreasing_by omega

def digitText (d : Decimal) : List Char :=
  Nat.toDigits 10 d.digits

/-- The power of ten of the first digit. -/
def magnitude (d : Decimal) : Int :=
  d.exponent + d.digitText.length - 1

def zeros (n : Nat) : List Char :=
  List.replicate n '0'

/-- Positional notation. `whole` is what a number without fraction digits ends in. -/
def positional (d : Decimal) (whole : List Char) : List Char :=
  let ds := d.digitText
  if 0 ≤ d.exponent then
    ds ++ zeros d.exponent.toNat ++ whole
  else
    let places := (-d.exponent).toNat
    if ds.length ≤ places then
      '0' :: '.' :: zeros (places - ds.length) ++ ds
    else
      ds.take (ds.length - places) ++ '.' :: ds.drop (ds.length - places)

/-- One digit, the others after a point, and the exponent with its sign. -/
def scientific (d : Decimal) : List Char :=
  let mantissa :=
    match d.digitText with
    | [] => []
    | [c] => [c]
    | c :: cs => c :: '.' :: cs
  let e := d.magnitude
  mantissa ++ 'e' :: (if e < 0 then '-' else '+') :: Nat.toDigits 10 e.natAbs

end Decimal

end ShapeModel
