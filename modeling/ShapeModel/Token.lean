import ShapeModel.Source
import ShapeModel.Text.Quoted

/-!
# Tokens

The words, punctuation, literals and documentation lines of a document, each with the text it was
read from and the position where that text starts.
-/

namespace ShapeModel

set_option autoImplicit false

inductive Token.Kind
  /-- Names, keywords, shape types and applied traits. -/
  | word (text : String)
  /-- One character of punctuation. -/
  | grammar (c : Char)
  /-- What a quoted or a block string stands for. -/
  | string (text : String)
  | number (text : String)
  /-- The text of a documentation line. -/
  | documentation (text : String)
  | newline
deriving DecidableEq, Repr

def Token.Kind.toText : Token.Kind → String
  | .word text => text
  | .grammar c => c.toString
  | .string text => quotedText text
  | .number text => text
  | .documentation text => "/// " ++ text
  | .newline => "newline"

structure Token where
  kind : Token.Kind
  lexeme : String
  position : Position
deriving DecidableEq, Repr

namespace Token

def stop (t : Token) : Nat :=
  t.position.offset + t.lexeme.utf8ByteSize

def message (t : Token) (s : Source) (kind text : String) : String :=
  s.message t.position.line t.position.column kind text

/-- The excerpt of a long lexeme, cut after `n` bytes unless that would split a character. -/
def shorten (n : Nat) (cs : List Char) : List Char :=
  let size := (String.ofList cs).utf8ByteSize
  if size ≤ n then cs
  else
    let kept := (List.range (n + 1)).find? fun k =>
      (String.ofList (cs.take k)).utf8ByteSize = n
    (match kept with
      | some k => cs.take k
      | none => cs) ++ ['.', '.', '.']

/-- Where the token stands and an excerpt of its text. -/
def summary (t : Token) : String :=
  let p := t.position
  toString p.line ++ ":" ++ toString p.column ++ ":" ++ toString p.offset ++ ":" ++
    toString t.stop ++ ", \"" ++
    String.ofList (shorten 32 (Text.excerpt t.lexeme.toList)) ++ "\""

end Token

end ShapeModel
