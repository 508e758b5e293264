import ShapeModel.Text.Mark
import ShapeModel.Text.Graphic

/-!
# Quoted text for messages

How messages show a text unambiguously: control characters have short names, and a character that
would not show, or would attach to the quote, is written by its number.
-/

namespace ShapeModel.Text

set_option autoImplicit false

def escapeNumber (c : Char) : List Char :=
  ['\\', 'u', '{'] ++ Nat.toDigits 16 c.toNat ++ ['}']

/-- A character in a message. Marks are written by number only where `marks` says so. -/
def escapeChar (marks : Bool) (c : Char) : List Char :=
  if c.toNat = 0 then ['\\', '0']
  else if c = '\t' then ['\\', 't']
  else if c = '\r' then ['\\', 'r']
  else if c = '\n' then ['\\', 'n']
  else if c = '\\' then ['\\', '\\']
  else if c = '"' then ['\\', '"']
  else if marks && attaches c then escapeNumber c
  else if isGraphic c then [c]
  else escapeNumber c

def quoted (cs : List Char) : List Char :=
  '"' :: cs.flatMap (escapeChar true) ++ ['"']

/-- A character of an excerpt, where the apostrophe is escaped too. -/
def escapeExcerptChar (marks : Bool) (c : Char) : List Char :=
  if c.toNat = 39 then ['\\', c] else escapeChar marks c

/-- A text without quotes. A mark is written by number only in front, where it has nothing to
attach to. -/
def excerpt : List Char → List Char
  | [] => []
  | c :: cs => escapeExcerptChar true c ++ cs.flatMap (escapeExcerptChar false)

end ShapeModel.Text

namespace ShapeModel

def quotedText (s : String) : String :=
  String.ofList (Text.quoted s.toList)

end ShapeModel
