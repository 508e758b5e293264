import ShapeModel.Pattern.Word
import ShapeModel.Text.Blank
import ShapeModel.Text.Fold

/-!
# Character classes of patterns

The sets of characters that one place of a pattern matches, as they are written and as ranges.
-/

namespace ShapeModel.Pattern

set_option autoImplicit false

inductive ClassItem
  /-- All characters from one to another, both included. -/
  | range (low high : Char)
  | digit (negated : Bool)
  | word (negated : Bool)
  | space (negated : Bool)
deriving DecidableEq, Repr

/-- A set, or all that it leaves out. -/
def unlessNegated (negated : Bool) (rs : Text.Ranges) : Text.Ranges :=
  if negated then rs.complement else rs

def ClassItem.ranges : ClassItem → Text.Ranges
  | .range low high => [(low.toNat, high.toNat)]
  | .digit negated => unlessNegated negated digitRanges
  | .word negated => unlessNegated negated wordRanges
  | .space negated => unlessNegated negated Text.blankRanges

structure CharClass where
  negated : Bool
  items : List ClassItem
deriving DecidableEq, Repr

namespace CharClass

def single (c : Char) : CharClass := ⟨false, [.range c c]⟩

/-- Any character, line feeds only if `all`. -/
def point (all : Bool) : CharClass := ⟨true, if all then [] else [.range '\n' '\n']⟩

/-- The characters of a class in normal form. Case is left aside before the class is negated. -/
def ranges (k : CharClass) (ignoreCase : Bool) : Text.Ranges :=
  let rs := Text.Ranges.normal (k.items.flatMap ClassItem.ranges)
  unlessNegated k.negated (if ignoreCase then rs.withVariants else rs)

end CharClass

end ShapeModel.Pattern
