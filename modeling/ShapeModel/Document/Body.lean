import ShapeModel.Document.Annotation

/-!
# Shape bodies

The members between the braces of a shape, each with its annotations. In the body of an enumeration
a member is a bare name with a value if any; in every other body it is a name and a value.
-/

namespace ShapeModel.Document

set_option autoImplicit false

/-- The end of a body. Annotations right before it belong to no member. -/
def closeBody (ts : Annotations) (c : Cursor) (h : c.isGrammar '}') :
    Outcome (List (String × Value)) c.left :=
  if ts.isEmpty then .ok [] c.advance (Cursor.left_advance_of_isGrammar h)
  else .failed (c.failure .unattachedTraits) c

/-- Members up to and with the closing brace. -/
def readMembers (s : Scope) (c : Cursor) : Outcome (List (String × Value)) c.left :=
  match readAnnotations s .empty c with
  | .failed e rest => .failed e rest
  | .ok ts c₁ h₁ =>
    if hc : c₁.isGrammar '}' then
      match closeBody ts c₁ hc with
      | .failed e rest => .failed e rest
      | .ok ms rest h => .ok ms rest (Cursor.left_lt_of_lt_succ h₁ h)
    else
      match c₁.expectKey with
      | .failed e rest => .failed e rest
      | .ok name c₂ h₂ =>
        match c₂.expectGrammar ':' with
        | .failed e rest => .failed e rest
        | .ok () c₃ h₃ =>
          match readValue s .body c₃ with
          | .failed e rest => .failed e rest
          | .ok v c₄ h₄ =>
            match attach ts v with
            | .error e => .failed ⟨e, none⟩ c₄
            | .ok entry =>
              match c₄.expectSeparator '}' with
              | .failed e rest => .failed e rest
              | .ok () c₅ h₅ =>
                match readMembers s c₅ with
                | .failed e rest => .failed e rest
                | .ok ms rest h => .ok ((name, entry) :: ms) rest (by omega)
termination_by c.left
decreasing_by omega

def enumMember (ts : Annotations) : Value :=
  .ofPairs (("target", .string (Prelude.absolute Prelude.unitName)) ::
    (if ts.isEmpty then [] else [("traits", .object ts.entries)]))

/-- The value of an enumeration's member, if one is given, as a trait of it. -/
def readEnumValue (s : Scope) (ts : Annotations) (c : Cursor) :
    Outcome Annotations (c.left + 1) :=
  if h : c.isGrammar '=' then
    have h₁ := Cursor.left_advance_of_isGrammar h
    match readValue s .traitValue c.advance with
    | .failed e rest => .failed e rest
    | .ok v rest hr =>
      .ok (ts.insert Trait.Kind.enumValue.name v) rest (Nat.lt_succ_of_lt (Nat.lt_trans hr h₁))
  else .ok ts c c.left_lt_succ

/-- Members of an enumeration up to and with the closing brace. -/
def readEnumMembers (s : Scope) (c : Cursor) : Outcome (List (String × Value)) c.left :=
  match readAnnotations s .empty c with
  | .failed e rest => .failed e rest
  | .ok ts c₁ h₁ =>
    if hc : c₁.isGrammar '}' then
      match closeBody ts c₁ hc with
      | .failed e rest => .failed e rest
      | .ok ms rest h => .ok ms rest (Cursor.left_lt_of_lt_succ h₁ h)
    else
      match c₁.expectWord with
      | .failed e rest => .failed e rest
      | .ok name c₂ h₂ =>
        match readEnumValue s ts c₂ with
        | .failed e rest => .failed e rest
        | .ok ts c₃ h₃ =>
          match c₃.expectSeparator '}' with
          | .failed e rest => .failed e rest
          | .ok () c₄ h₄ =>
            match readEnumMembers s c₄ with
            | .failed e rest => .failed e rest
            | .ok ms rest h => .ok ((name, enumMember ts) :: ms) rest (by omega)
termination_by c.left
decreasing_by omega

/-- How the body of a shape becomes part of its entry. -/
inductive BodyStyle
  /-- Members of an enumeration, under `members`. -/
  | enumeration
  /-- Members under `members`. -/
  | members
  /-- Fields of the entry itself. -/
  | fields
deriving DecidableEq, Repr

def BodyStyle.ofKeyword (keyword : String) : BodyStyle :=
  if keyword = "enum" ∨ keyword = "intEnum" then .enumeration
  else if keyword = "structure" ∨ keyword = "union" then .members
  else .fields

/-- The body of a shape, from its opening brace on, and the entry with it. -/
def readBody (s : Scope) (style : BodyStyle) (entry : List (String × Value)) (c : Cursor) :
    Outcome (List (String × Value)) c.left :=
  match c.expectGrammar '{' with
  | .failed e rest => .failed e rest
  | .ok () c₁ h₁ =>
    match style with
    | .enumeration =>
      match readEnumMembers s c₁ with
      | .failed e rest => .failed e rest
      | .ok ms rest h => .ok (Entries.insert "members" (.ofPairs ms) entry) rest (by omega)
    | .members =>
      match readMembers s c₁ with
      | .failed e rest => .failed e rest
      | .ok ms rest h => .ok (Entries.insert "members" (.ofPairs ms) entry) rest (by omega)
    | .fields =>
      match readMembers s c₁ with
      | .failed e rest => .failed e rest
      | .ok ms rest h => .ok (Entries.insertAll entry ms) rest (by omega)

end ShapeModel.Document
