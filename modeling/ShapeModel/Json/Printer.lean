import ShapeModel.Value

/-!
# Writing JSON

The compact text of a value and the indented one. Numbers are written as integers where they hold
one; a double that is not finite is written as null.
-/

namespace ShapeModel.Json

set_option autoImplicit false

def hexDigit (n : Nat) : Char :=
  Nat.digitChar n

/-- What stands for a character inside quotes. -/
def escape (c : Char) : List Char :=
  if c = '"' then ['\\', '"']
  else if c = '\\' then ['\\', '\\']
  else if c = '\n' then ['\\', 'n']
  else if c = '\r' then ['\\', 'r']
  else if c = '\t' then ['\\', 't']
  else if c.toNat = 8 then ['\\', 'b']
  else if c.toNat = 12 then ['\\', 'f']
  else if c.toNat < 32 then
    ['\\', 'u', '0', '0', hexDigit (c.toNat / 16), hexDigit (c.toNat % 16)]
  else [c]

def quote (s : String) : List Char :=
  '"' :: s.toList.flatMap escape ++ ['"']

/-- Positional notation from 10^-5 up to 10^16, with a digit after the point; else scientific. A tie
goes to the even digit. -/
def floatText (x : Binary64) : List Char :=
  match x with
  | .finite negative units _ =>
    let d : Decimal := if units = 0 then ⟨0, 0⟩ else Binary64.shortest .even units
    let text :=
      if -5 ≤ d.magnitude ∧ d.magnitude ≤ 15 then d.positional ['.', '0'] else d.scientific
    (if negative then ['-'] else []) ++ text
  | _ => ['n', 'u', 'l', 'l']

def numberText (n : Number) : List Char :=
  match n.toInt?, n with
  | some i, _ => intText i
  | none, n => floatText n.toFloat

mutual

def compact : Value → List Char
  | .null => ['n', 'u', 'l', 'l']
  | .bool true => ['t', 'r', 'u', 'e']
  | .bool false => ['f', 'a', 'l', 's', 'e']
  | .number n => numberText n
  | .string s => quote s
  | .array [] => ['[', ']']
  | .array (v :: vs) => '[' :: (compact v ++ compactItems vs)
  | .object [] => ['{', '}']
  | .object ((k, v) :: fs) => '{' :: (quote k ++ ':' :: (compact v ++ compactFields fs))

def compactItems : List Value → List Char
  | [] => [']']
  | v :: vs => ',' :: (compact v ++ compactItems vs)

def compactFields : List (String × Value) → List Char
  | [] => ['}']
  | (k, v) :: fs => ',' :: (quote k ++ ':' :: (compact v ++ compactFields fs))

end

/-- A line break and the indentation of a depth, two blanks a level. -/
def newline (depth : Nat) : List Char :=
  '\n' :: List.replicate (2 * depth) ' '

mutual

/-- One item or field a line. -/
def pretty (depth : Nat) : Value → List Char
  | .array (v :: vs) =>
    '[' :: (newline (depth + 1) ++ pretty (depth + 1) v ++ prettyItems depth vs)
  | .object ((k, v) :: fs) =>
    '{' :: (newline (depth + 1) ++ quote k ++ ':' :: ' ' :: pretty (depth + 1) v ++
      prettyFields depth fs)
  | .null => compact .null
  | .bool b => compact (.bool b)
  | .number n => compact (.number n)
  | .string s => compact (.string s)
  | .array [] => compact (.array [])
  | .object [] => compact (.object [])

def prettyItems (depth : Nat) : List Value → List Char
  | [] => newline depth ++ [']']
  | v :: vs => ',' :: (newline (depth + 1) ++ pretty (depth + 1) v ++ prettyItems depth vs)

def prettyFields (depth : Nat) : List (String × Value) → List Char
  | [] => newline depth ++ ['}']
  | (k, v) :: fs =>
    ',' :: (newline (depth + 1) ++ quote k ++ ':' :: ' ' :: pretty (depth + 1) v ++
      prettyFields depth fs)

end

end ShapeModel.Json

namespace ShapeModel.Value

def compactText (v : Value) : String :=
  String.ofList (Json.compact v)

def prettyText (v : Value) : String :=
  String.ofList (Json.pretty 0 v)

end ShapeModel.Value
