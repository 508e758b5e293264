import ShapeModel.Pattern.Engine
import ShapeModel.Pattern.Layout
import ShapeModel.Pattern.Nest
import ShapeModel.Pattern.Size

/-!
# Patterns

An engine for the common part of the notation of regular expressions, over the characters of a text.
A pattern is found in a text if it matches some stretch of it. A text is no pattern if it is
malformed, nests too deeply, or asks for too large an automaton. Programs run with this engine;
checks are defined for any.
-/

namespace ShapeModel

set_option autoImplicit false

structure Pattern where
  form : Pattern.Form
deriving DecidableEq, Repr

namespace Pattern

def heightLimit : Nat := 250

/-- The pattern a text denotes, unless it is refused. -/
def ofText? (text : String) : Option Pattern :=
  ((pieces? 0 text.toList).bind (nest (.start .none none) [] 0)).bind fun p =>
    if p.height ≤ heightLimit && p.form.size?.isSome then some ⟨p.form⟩ else none

/-- Whether some stretch of the text matches. -/
def isFoundIn (p : Pattern) (text : String) : Bool :=
  p.form.isFoundIn text

instance : PatternEngine where
  Compiled := Pattern
  compile text :=
    match ofText? text with
    | some p => .ok p
    | none => .error "the pattern is malformed"
  isMatch := isFoundIn

end Pattern

end ShapeModel
