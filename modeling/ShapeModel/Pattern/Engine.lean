/-!
# Engines for patterns

Regular expressions are the matter of a library. Checks use it through two operations, and no result
about them assumes anything of the patterns that it accepts or of the texts that it finds them in.
-/

namespace ShapeModel

set_option autoImplicit false

class PatternEngine where
  /-- What accepted patterns are turned into. -/
  Compiled : Type
  /-- The pattern that a text denotes, or what is wrong with the text. -/
  compile : String → Except String Compiled
  /-- Whether some stretch of a text matches. -/
  isMatch : Compiled → String → Bool

end ShapeModel
