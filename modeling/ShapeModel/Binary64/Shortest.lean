import ShapeModel.Binary64
import ShapeModel.Decimal

/-!
# Shortest decimals

The decimal that stands for a finite double is the one with the fewest digits that reads back as
that double, and of those the nearest. Half way between two of them, either the one with an even
last digit is taken or the larger one. The numbers that read back form an interval around the
double; they are compared in quarters of a unit, where its ends are whole.
-/

namespace ShapeModel.Binary64

set_option autoImplicit false

/-- Which of two decimals stands for a magnitude half way between them. -/
inductive Tie
  | even
  | larger
deriving DecidableEq, Repr

/-- The numbers, in quarters of a unit, that round to a magnitude. -/
structure Interval where
  low : Nat
  high : Nat
  closed : Bool

/-- The interval reaches half way to both neighbours. Below a power of two the spacing is half as
wide. The ends belong to it when the last bit is even. -/
def interval (units : Nat) : Interval where
  low := 4 * units - (if 1 < spacing units ∧ units = 2 ^ units.log2 then 1 else 2) * spacing units
  high := 4 * units + 2 * spacing units
  closed := units / spacing units % 2 = 0

def Interval.has (i : Interval) (num den : Nat) : Bool :=
  if i.closed then i.low * den ≤ num && num ≤ i.high * den
  else i.low * den < num && num < i.high * den

/-- The multiple of `10 ^ e` next to the magnitude that lies in its interval, the nearer of two. -/
def onGrid (tie : Tie) (units : Nat) (e : Int) : Option Decimal :=
  let width := 4 * unitsPerOne * 10 ^ e.toNat
  let scale := 10 ^ (-e).toNat
  let place := 4 * units * scale
  let d := place / width
  let below := 0 < d && (interval units).has (d * width) scale
  let above := (interval units).has ((d + 1) * width) scale
  let r := place - d * width
  let nearer := 2 * r < width || (2 * r = width && tie = .even && d % 2 = 0)
  if below && (!above || nearer) then some ⟨d, e⟩
  else if above then some ⟨d + 1, e⟩
  else none

/-- The power of ten of the first digit of a positive magnitude. -/
def leadingPower (units : Nat) : Int :=
  (Nat.toDigits 10 (units * 10 ^ 324 / unitsPerOne)).length - 325

/-- Grids are tried from one digit up to seventeen, where one always holds a hit. -/
def shortest (tie : Tie) (units : Nat) : Decimal :=
  match (List.range 17).findSome? fun n : Nat => onGrid tie units (leadingPower units - n) with
  | some d => d.normal
  | none => ⟨units, 0⟩

end ShapeModel.Binary64
