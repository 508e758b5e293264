import ShapeModel.Binary64.Shortest

/-!
# Numbers

Unsigned and signed integers are kept exactly; all else is a double. Two numbers are compared as
integers when both are held as integers, and as doubles when one of them is a double. A double
counts as an integer only up to a magnitude of 2^53.
-/

namespace ShapeModel

set_option autoImplicit false

inductive Number
  | uint (n : UInt64)
  | int (n : Int64)
  | float (x : Binary64)
deriving DecidableEq

namespace Number

/-- Up to this magnitude every integer is a double. -/
def safeInteger : Nat := 2 ^ 53

def ofUInt64 (n : UInt64) : Number := .uint n

/-- An integer from 0 on is held unsigned, whatever type it comes from. -/
def ofInt64 (n : Int64) : Number :=
  if 0 ≤ n.toInt then .uint (UInt64.ofNat n.toInt.toNat) else .int n

/-- The integer as it is held, if it fits one of the two integer types. -/
def ofInt? (n : Int) : Option Number :=
  if 0 ≤ n ∧ n < 2 ^ 64 then some (.uint (UInt64.ofNat n.toNat))
  else if -2 ^ 63 ≤ n ∧ n < 0 then some (.int (Int64.ofInt n))
  else none

def toFloat : Number → Binary64
  | .uint n => .ofInt n.toNat
  | .int n => .ofInt n.toInt
  | .float x => x

/-- A double's value when it is an integer of safe magnitude. -/
def safeInt? (x : Binary64) : Option Int :=
  x.toInt?.filter (·.natAbs ≤ safeInteger)

/-- The integer a number holds: any for the integer types, a safe one for doubles. -/
def toInt? : Number → Option Int
  | .uint n => some n.toNat
  | .int n => some n.toInt
  | .float x => safeInt? x

def isInteger : Number → Bool
  | .uint _ | .int _ => true
  | .float x => x.toInt?.isSome

/-- The integer a number holds, if it fits 64 bits without sign. A negative zero counts. -/
def asUInt64 (n : Number) : Option Nat :=
  match n.toInt? with
  | some i => if 0 ≤ i ∧ i < 2 ^ 64 then some i.toNat else none
  | none => none

/-- The integer a number holds, if it fits 64 bits with sign. -/
def asInt64 (n : Number) : Option Int :=
  n.toInt?.filter fun i => -2 ^ 63 ≤ i ∧ i < 2 ^ 63

/-- The nearest double, if that is finite and, for integers, of safe magnitude. -/
def asFloat (n : Number) : Option Binary64 :=
  match n with
  | .float x => if x.isFinite then some x else none
  | .uint _ | .int _ =>
    let x := n.toFloat
    if (safeInt? x).isSome then some x else none

/-- Equality: as integers, or as doubles when one side is a double. -/
def same : Number → Number → Bool
  | .uint m, .uint n => m = n
  | .int m, .int n => m = n
  | .uint m, .int n => (m.toNat : Int) = n.toInt
  | .int m, .uint n => m.toInt = n.toNat
  | m, n => m.toFloat.same n.toFloat

instance : BEq Number := ⟨same⟩

/-- The order: as integers when both fit 64 bits with sign, else as doubles. -/
def compare? (m n : Number) : Option Ordering :=
  match m.asInt64, n.asInt64 with
  | some i, some j => some (compare i j)
  | _, _ => m.toFloat.compare? n.toFloat

def lt (m n : Number) : Bool :=
  m.compare? n == some .lt

def ge (m n : Number) : Bool :=
  match m.compare? n with
  | some o => o.isGE
  | none => false

end Number

/-- Positional notation with no more digits than needed, the larger ones at a tie. -/
def Binary64.toText (x : Binary64) : List Char :=
  match x with
  | .nan => ['N', 'a', 'N']
  | .infinite negative => (if negative then ['-'] else []) ++ ['i', 'n', 'f']
  | .finite negative units _ =>
    (if negative then ['-'] else []) ++
      (if units = 0 then ['0'] else (shortest .larger units).positional [])

def intText (i : Int) : List Char :=
  if i < 0 then '-' :: Nat.toDigits 10 i.natAbs else Nat.toDigits 10 i.natAbs

/-- Integers as such, doubles with an integral safe value among them. -/
def Number.toText (n : Number) : List Char :=
  match n.toInt?, n with
  | some i, _ => intText i
  | none, n => n.toFloat.toText

instance : ToString Binary64 := ⟨fun x => String.ofList x.toText⟩
instance : ToString Number := ⟨fun n => String.ofList n.toText⟩

end ShapeModel
