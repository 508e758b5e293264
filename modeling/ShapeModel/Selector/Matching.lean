import ShapeModel.Model

/-!
# Matching selectors

Whether a selector holds of a shape or member in a model, and the identifiers of all of which it
does: the shapes in the order of the model, each followed by its members.
-/

namespace ShapeModel

set_option autoImplicit false

/-- What a member refers to, if the model has it. -/
def Model.targetOf? (m : Model) (e : Element) : Option Element :=
  e.target?.bind m.find?

namespace Selector

mutual

def matches? (m : Model) (e : Element) : Selector → Bool
  | .all => true
  | .kind k => e.kind = k
  | .number => e.kind.isNumber
  | .simple => e.kind.isSimple
  | .collection => e.kind.isCollection
  | .hasTrait name => e.traits.contains name
  | .and ss => matchesAll m e ss
  | .or ss => matchesAny m e ss
  | .not s => !matches? m e s
  | .target s =>
    match m.targetOf? e with
    | some t => matches? m t s
    | none => false
  | .orTarget s =>
    matches? m e s ||
      match m.targetOf? e with
      | some t => matches? m t s
      | none => false

def matchesAll (m : Model) (e : Element) : List Selector → Bool
  | [] => true
  | s :: ss => matches? m e s && matchesAll m e ss

def matchesAny (m : Model) (e : Element) : List Selector → Bool
  | [] => false
  | s :: ss => matches? m e s || matchesAny m e ss

end

end Selector

namespace Model

/-- A shape and its named members, with their identifiers. -/
def elementsOf (id : Identifier) (s : Shape) : List (Identifier × Element) :=
  (id, .shape s) ::
    match s.members? with
    | some ms => ms.entries.map fun (name, x) => (id.withMember name, .member x)
    | none => []

/-- All shapes and named members. -/
def elements (m : Model) : List (Identifier × Element) :=
  m.shapes.entries.flatMap fun (id, s) => elementsOf id s

def selectWith (m : Model) (s : Selector) : List Identifier :=
  (m.elements.filter fun (_, e) => s.matches? m e).map (·.1)

def select (m : Model) (text : String) : Except Error (List Identifier) :=
  match Selector.parse text with
  | .ok s => .ok (m.selectWith s)
  | .error e => .error (.unrecognizedSelector e.text)

end Model

end ShapeModel
