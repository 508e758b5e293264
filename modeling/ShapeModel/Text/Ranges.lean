/-!
# Sets of characters

A set of characters is written as a list of ranges of code points, both ends included. In normal
form the ranges are in order and apart from each other, so that each set has one normal form.
-/

namespace ShapeModel.Text

set_option autoImplicit false

abbrev Ranges := List (Nat × Nat)

namespace Ranges

def has (rs : Ranges) (c : Char) : Bool :=
  rs.any fun r => r.1 ≤ c.toNat && c.toNat ≤ r.2

/-- A range in front of others that start no earlier. Ranges that touch become one. -/
def cover (r : Nat × Nat) : Ranges → Ranges
  | [] => [r]
  | s :: rs => if s.1 ≤ r.2 + 1 then cover (r.1, max r.2 s.2) rs else r :: cover s rs

def normal (rs : Ranges) : Ranges :=
  match rs.mergeSort fun r s => r.1 ≤ s.1 with
  | [] => []
  | r :: rs => cover r rs

/-- The code point of the next character; surrogates are none. -/
def after (n : Nat) : Nat :=
  if n = 0xd7ff then 0xe000 else n + 1

def before (n : Nat) : Nat :=
  if n = 0xe000 then 0xd7ff else n - 1

/-- The characters from a code point on that are not in a set in normal form. -/
def gaps (start : Nat) : Ranges → Ranges
  | [] => if start ≤ 0x10ffff then [(start, 0x10ffff)] else []
  | r :: rs =>
    if start < r.1 then (start, before r.1) :: gaps (after r.2) rs else gaps (after r.2) rs

def complement (rs : Ranges) : Ranges :=
  gaps 0 rs

end Ranges

end ShapeModel.Text
