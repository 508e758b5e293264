import ShapeModel.Proofs.Source.Position
import ShapeModel.Token.Lexer

/-!
# What a text reads as

Apart from any lexer, what stands at the front of a text is decided by its first characters and
reaches as far as it can: a gap, a token, or a fault. The tokens of a text are the fronts that
follow each other, each with the position that walking over the characters before it gives.
-/

namespace ShapeModel

set_option autoImplicit false

namespace Token

def blockDelimiter : List Char := ['"', '"', '"']

/-- The front of a text. Lengths count the characters behind the first one; a fault says how many
characters stand before it. -/
inductive Front
  | gap (more : Nat)
  | token (kind : Kind) (more : Nat)
  | fault (error : LexicalError) (before : Nat)

/-- Why a string cannot be read: its end is missing, or a place inside is wrong. -/
inductive StringFault
  | open
  | wrong (error : LexicalError) (before : Nat)

/-- The fault of a string some characters further on. -/
def StringFault.behind (n : Nat) : StringFault → StringFault
  | .open => .open
  | .wrong e before => .wrong e (before + n)

def StringFault.front : StringFault → Front
  | .open => .fault .unterminatedString 0
  | .wrong e before => .fault e before

/-- A string's contents and length with one more character in front that is written with `n`. -/
def pushChar (c : Char) (n : Nat) :
    Except StringFault (List Char × Nat) → Except StringFault (List Char × Nat)
  | .ok (s, length) => .ok (c :: s, length + n)
  | .error e => .error (e.behind n)

/-- The contents of a quoted string and its length, after the opening quote through the closing
one. -/
def quotedString : List Char → Except StringFault (List Char × Nat)
  | [] => .error .open
  | c :: cs =>
    if c = '"' then .ok ([], 1)
    else if c = '\n' then .error .open
    else if c = '\\' then
      match cs with
      | [] => .error .open
      | e :: cs =>
        if e = '\n' then .error .open
        else
          match unescape? e with
          | some x => pushChar x 2 (quotedString cs)
          | none => .error (.wrong (.unrecognizedEscape e) 1)
    else pushChar c 1 (quotedString cs)

/-- The number of characters before the first block delimiter. -/
def beforeDelimiter? : List Char → Option Nat
  | [] => none
  | c :: cs =>
    if blockDelimiter.isPrefixOf (c :: cs) then some 0 else (beforeDelimiter? cs).map (· + 1)

/-- The block that these lines start with, and its length through the closing delimiter. The
delimiter closes the block only as the first thing on a line. -/
def block : List (List Char) → Except StringFault (Block × Nat)
  | [] => .error .open
  | l :: ls =>
    let margin := (l.takeWhile isMargin).length
    let text := l.dropWhile isMargin
    if blockDelimiter.isPrefixOf text then .ok (⟨[], margin⟩, margin + blockDelimiter.length)
    else
      match beforeDelimiter? text with
      | some n => .error (.wrong .corruptBlockText (margin + n))
      | none =>
        if ls.isEmpty then .error .open
        else
          match block ls with
          | .ok (b, length) => .ok (b.push (Text.dropReturn l), length + (l.length + 1))
          | .error e => .error (e.behind (l.length + 1))

/-- A block string, after its opening delimiter: nothing else may stand on that line. -/
def blockString (cs : List Char) : Except StringFault (List Char × Nat) :=
  let gap := (cs.takeWhile isGap).length
  match cs.dropWhile isGap with
  | [] => .error .open
  | c :: body =>
    if c = '\n' then
      match block (Text.lines body) with
      | .ok (b, length) => .ok (b.contents, length + (gap + 1))
      | .error e => .error (e.behind (gap + 1))
    else .error (.wrong .corruptBlockText gap)

/-- A string with `n` characters of opening delimiter. -/
def stringFront (n : Nat) (read : Except StringFault (List Char × Nat)) : Front :=
  match read with
  | .ok (s, length) => .token (.string (String.ofList s)) (length + n - 1)
  | .error e => (e.behind n).front

/-- A comment up to the end of its line, after the first slash. Three slashes make it
documentation. -/
def commentFront (cs : List Char) : Front :=
  let line := cs.takeWhile (· ≠ '\n')
  match line with
  | '/' :: '/' :: text => .token (.documentation (String.ofList (Text.trim text))) line.length
  | _ => .gap line.length

/-- The longest run of such characters with `c` in front. -/
def runFront (c : Char) (isPart : Char → Bool) (make : String → Kind) (cs : List Char) : Front :=
  let more := cs.takeWhile isPart
  .token (make (String.ofList (c :: more))) more.length

def front (c : Char) (cs : List Char) : Front :=
  if isGap c then .gap (cs.takeWhile isGap).length
  else if c = '\n' then .token .newline 0
  else if c = '/' && cs.head? = some '/' then commentFront cs
  else if isGrammar c then .token (.grammar c) 0
  else if blockDelimiter.isPrefixOf (c :: cs) then stringFront 3 (blockString (cs.drop 2))
  else if c = '"' then stringFront 1 (quotedString cs)
  else if c.isDigit || (c = '-' && cs.head?.any Char.isDigit) then
    runFront c isNumberChar .number cs
  else if isWordChar c then runFront c isWordChar .word cs
  else .fault (.unrecognizedCharacter c) 0

/-- The tokens of a text that stands at a position. Its first `pending` characters belong to what
was read before. -/
def scanFrom (p : Position) (pending : Nat) :
    List Char → Except (LexicalError × Position) (List Token)
  | [] => .ok []
  | c :: cs =>
    match pending with
    | n + 1 => scanFrom (p.step c) n cs
    | 0 =>
      match front c cs with
      | .gap n => scanFrom (p.step c) n cs
      | .token kind n =>
        match scanFrom (p.step c) n cs with
        | .ok ts => .ok (⟨kind, String.ofList (c :: cs.take n), p⟩ :: ts)
        | .error e => .error e
      | .fault e n => .error (e, p.advance ((c :: cs).take n))

end Token

end ShapeModel
