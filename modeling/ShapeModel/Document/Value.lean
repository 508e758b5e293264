import ShapeModel.Cursor
import ShapeModel.Document.Scope
import ShapeModel.Number.Literal
import ShapeModel.Value

/-!
# Values in a document

Literals, arrays, objects and references. Commas between the parts of an array or object may be left
out, and line breaks stand anywhere between them. What a bare word denotes depends on where the
value stands.
-/

namespace ShapeModel.Document

set_option autoImplicit false

/-- Where a value stands. -/
inductive Context
  /-- In the body of a shape: a word is a reference to a target. -/
  | body
  /-- In the value of an applied trait: a word is the text of an absolute name. -/
  | traitValue
  /-- In metadata: words are refused. -/
  | metadata
deriving DecidableEq, Repr

def reference (target : String) : Value :=
  .object [("target", .string target)]

/-- The value of a word in a context. -/
def wordValue (s : Scope) (ctx : Context) (w : String) : Except SyntaxError Value :=
  if w = "true" then .ok (.bool true)
  else if w = "false" then .ok (.bool false)
  else if w = "null" then .ok .null
  else
    match ctx with
    | .metadata => .error (.identifierInMetadata w)
    | .traitValue => .ok (.string (s.qualify false w))
    | .body => .ok (reference (s.qualify false w))

/-- The value of a token that is a value by itself; errors in it have no place of their own. -/
def atom? (s : Scope) (ctx : Context) : Token.Kind → Option (Except SyntaxError Value)
  | .string text => some (.ok (.string text))
  | .number text =>
    match Number.ofText? text.toList with
    | some n => some (.ok (.number n))
    | none => some (.error (.unexpectedToken text "a number"))
  | .word w => some (wordValue s ctx w)
  | _ => none

mutual

def readValue (s : Scope) (ctx : Context) (c : Cursor) : Outcome Value c.left :=
  match h : c.peek? with
  | none => .failed (c.unexpected "a value") c
  | some k =>
    have hlt := Cursor.left_advance_lt h
    if k = .grammar '{' then
      match readFields s ctx '}' c.advance with
      | .ok fields rest hr => .ok (.ofPairs fields) rest (Nat.lt_trans hr hlt)
      | .failed e rest => .failed e rest
    else if k = .grammar '[' then
      match readItems s ctx c.advance with
      | .ok items rest hr => .ok (.array items) rest (Nat.lt_trans hr hlt)
      | .failed e rest => .failed e rest
    else
      match atom? s ctx k with
      | some (.ok v) => .ok v c.advance hlt
      | some (.error e) => .failed ⟨e, none⟩ c.advance
      | none => .failed (c.unexpected "a value") c
termination_by 2 * c.left
decreasing_by all_goals omega

/-- Named values up to and with the closing character. -/
def readFields (s : Scope) (ctx : Context) (close : Char) (c : Cursor) :
    Outcome (List (String × Value)) c.left :=
  have h₀ := c.left_skipNewlines_le
  if h : c.skipNewlines.isGrammar close then
    .ok [] c.skipNewlines.advance
      (Nat.lt_of_lt_of_le (Cursor.left_advance_of_isGrammar h) h₀)
  else
    match c.skipNewlines.expectKey with
    | .failed e rest => .failed e rest
    | .ok key c₁ h₁ =>
      match c₁.expectGrammar ':' with
      | .failed e rest => .failed e rest
      | .ok () c₂ h₂ =>
        have h₃ := c₂.left_skipNewlines_le
        match readValue s ctx c₂.skipNewlines with
        | .failed e rest => .failed e rest
        | .ok v c₄ h₄ =>
          have h₅ := c₄.left_skipNewlines_le
          have h₆ := c₄.skipNewlines.left_skipGrammar_le ','
          match readFields s ctx close (c₄.skipNewlines.skipGrammar ',') with
          | .failed e rest => .failed e rest
          | .ok fields rest hr => .ok ((key, v) :: fields) rest (by omega)
termination_by 2 * c.left + 1
decreasing_by all_goals omega

/-- Values up to and with the closing bracket. -/
def readItems (s : Scope) (ctx : Context) (c : Cursor) : Outcome (List Value) c.left :=
  have h₀ := c.left_skipNewlines_le
  if h : c.skipNewlines.isGrammar ']' then
    .ok [] c.skipNewlines.advance
      (Nat.lt_of_lt_of_le (Cursor.left_advance_of_isGrammar h) h₀)
  else
    match readValue s ctx c.skipNewlines with
    | .failed e rest => .failed e rest
    | .ok v c₁ h₁ =>
      have h₂ := c₁.left_skipNewlines_le
      have h₃ := c₁.skipNewlines.left_skipGrammar_le ','
      match readItems s ctx (c₁.skipNewlines.skipGrammar ',') with
      | .failed e rest => .failed e rest
      | .ok items rest hr => .ok (v :: items) rest (by omega)
termination_by 2 * c.left + 1
decreasing_by all_goals omega

end

end ShapeModel.Document
