import ShapeModel.Number
import ShapeModel.Text.Blank

/-!
# Number literals

Reading a number from a text of its own. A literal without point and exponent is an integer when it
fits 64 bits; every other literal, and an integer too large for them, is the nearest double.
-/

namespace ShapeModel.Number

set_option autoImplicit false

/-- The number that a run of decimal digits denotes. -/
def digitsToNat (cs : List Char) : Nat :=
  cs.foldl (fun n c => 10 * n + (c.toNat - '0'.toNat)) 0

/-- A sign in front, if there is one, and what follows it. -/
def splitSign : List Char → Bool × List Char
  | '-' :: cs => (true, cs)
  | '+' :: cs => (false, cs)
  | cs => (false, cs)

theorem length_splitSign_le (cs : List Char) : (splitSign cs).2.length ≤ cs.length := by
  unfold splitSign
  split <;> simp

def isDigits (cs : List Char) : Bool :=
  !cs.isEmpty && cs.all Char.isDigit

/-- A sign and digits, if the integer fits: without a minus 64 bits, with one 64 bits with sign. -/
def integerLiteral? (cs : List Char) : Option Number :=
  let (negative, ds) := splitSign cs
  if isDigits ds then
    if negative then
      if digitsToNat ds ≤ 2 ^ 63 then some (.int (Int64.ofInt (-(digitsToNat ds : Int)))) else none
    else
      if digitsToNat ds < 2 ^ 64 then some (.uint (UInt64.ofNat (digitsToNat ds))) else none
  else none

/-- An exponent mark, a sign if any, and digits up to the end; nothing is the exponent zero. -/
def exponent? : List Char → Option Int
  | [] => some 0
  | c :: cs =>
    if c = 'e' ∨ c = 'E' then
      let (negative, ds) := splitSign cs
      if isDigits ds then some (if negative then -(digitsToNat ds : Int) else digitsToNat ds)
      else none
    else none

/-- Digits with at most one point among them or at an end, and an exponent if any. -/
def decimalLiteral? (negative : Bool) (cs : List Char) : Option Binary64 :=
  let whole := cs.takeWhile Char.isDigit
  let rest := cs.dropWhile Char.isDigit
  let (fraction, rest) :=
    match rest with
    | '.' :: rest => (rest.takeWhile Char.isDigit, rest.dropWhile Char.isDigit)
    | rest => ([], rest)
  if whole.isEmpty && fraction.isEmpty then none
  else
    (exponent? rest).map fun e =>
      .ofDecimal negative (digitsToNat (whole ++ fraction)) (e - fraction.length)

/-- A double: a decimal, or the name of an infinity or of not-a-number in any case of letters. -/
def floatLiteral? (cs : List Char) : Option Binary64 :=
  let (negative, ds) := splitSign cs
  let name := ds.map Char.toLower
  if name = ['i', 'n', 'f'] ∨ name = ['i', 'n', 'f', 'i', 'n', 'i', 't', 'y'] then
    some (.infinite negative)
  else if name = ['n', 'a', 'n'] then some .nan
  else decimalLiteral? negative ds

/-- The number a text denotes; blanks around it do not count. -/
def ofText? (cs : List Char) : Option Number :=
  let cs := Text.trim cs
  let float := (floatLiteral? cs).map .float
  if cs.any fun c => c = '.' ∨ c = 'e' ∨ c = 'E' then float
  else (integerLiteral? cs).or float

end ShapeModel.Number
