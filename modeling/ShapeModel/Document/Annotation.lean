import ShapeModel.Document.Value
import ShapeModel.Trait.Kind

/-!
# Annotations

Applied traits and documentation lines, as they stand before a shape or a member. Documentation
lines add up to one text; of a trait that is applied twice the last application is kept.
-/

namespace ShapeModel.Document

set_option autoImplicit false

/-- Trait values by absolute trait name. -/
abbrev Annotations := Table String Value

def documentationName : String := Trait.Kind.documentation.name

/-- A documentation line goes below the text so far. -/
def Annotations.document (ts : Annotations) (line : String) : Annotations :=
  let text :=
    match ts.get? documentationName with
    | some (.string before) => before ++ "\n" ++ line
    | _ => line
  ts.insert documentationName (.string text)

def isTraitWord (w : String) : Bool :=
  w.toList.head? = some '@'

def appliedName (w : String) : String :=
  String.ofList (w.toList.dropWhile (· = '@'))

/-- Whether a list of named values comes next, or the end of an empty one. -/
def startsFields (c : Cursor) : Bool :=
  let named :=
    match c.peek? with
    | some (.word _) | some (.string _) => true
    | _ => false
  (named && c.peekAhead? 1 = some (.grammar ':')) || c.isGrammar ')'

/-- The value of an applied trait, through the closing parenthesis: named values, or one value. -/
def readTraitValue (s : Scope) (c : Cursor) : Outcome Value c.left :=
  if startsFields c then
    match readFields s .traitValue ')' c with
    | .failed e rest => .failed e rest
    | .ok fields rest h => .ok (.ofPairs fields) rest h
  else
    match readValue s .traitValue c with
    | .failed e rest => .failed e rest
    | .ok v c₁ h₁ =>
      have h₂ := c₁.left_skipNewlines_le
      match c₁.skipNewlines.expectGrammar ')' with
      | .failed e rest => .failed e rest
      | .ok () rest h => .ok v rest (by omega)

/-- An applied trait: its absolute name and its value, the empty object if none is given. -/
def readTrait (s : Scope) (c : Cursor) : Outcome (String × Value) c.left :=
  match c.expectWord with
  | .failed e rest => .failed e rest
  | .ok w c₁ h₁ =>
    let name := s.qualify true (appliedName w)
    if hp : c₁.isGrammar '(' then
      have h₂ := Cursor.left_advance_of_isGrammar hp
      have h₃ := c₁.advance.left_skipNewlines_le
      match readTraitValue s c₁.advance.skipNewlines with
      | .failed e rest => .failed e rest
      | .ok v rest h => .ok (name, v) rest (by omega)
    else .ok (name, .emptyObject) c₁ h₁

/-- The annotations before a member, with line breaks anywhere between them. -/
def readAnnotations (s : Scope) (before : Annotations) (c : Cursor) :
    Outcome Annotations (c.left + 1) :=
  match h : c.peek? with
  | some .newline =>
    have h₁ := Cursor.left_advance_lt h
    match readAnnotations s before c.advance with
    | .failed e rest => .failed e rest
    | .ok ts rest hr => .ok ts rest (by omega)
  | some (.documentation line) =>
    have h₁ := Cursor.left_advance_lt h
    match readAnnotations s (before.document line) c.advance with
    | .failed e rest => .failed e rest
    | .ok ts rest hr => .ok ts rest (by omega)
  | some (.word w) =>
    if isTraitWord w then
      match readTrait s c with
      | .failed e rest => .failed e rest
      | .ok (name, v) c₁ h₁ =>
        match readAnnotations s (before.insert name v) c₁ with
        | .failed e rest => .failed e rest
        | .ok ts rest hr => .ok ts rest (by omega)
    else .ok before c (Nat.lt_succ_self _)
  | _ => .ok before c (Nat.lt_succ_self _)
termination_by c.left

/-- The value with these traits added to its `traits` field. Only an object can carry traits. -/
def attach (ts : Annotations) (entry : Value) : Except SyntaxError Value :=
  if ts.isEmpty then .ok entry
  else
    match entry with
    | .object fields =>
      match (Entries.find? "traits" fields).getD .emptyObject with
      | .object existing =>
        .ok (.object (Entries.insert "traits"
          (.object (Entries.insertAll existing ts.entries)) fields))
      | _ => .error .unattachedTraits
    | _ => .error .unattachedTraits

end ShapeModel.Document
