import ShapeModel.Model.Conformance
import ShapeModel.Selector.Matching
import ShapeModel.Trait.Selector

/-!
# Validation of models

A model is valid when every reference in it leads to a shape of a fitting kind and every trait is
allowed where it stands and has a sensible value. The first fault found is reported: shapes in
order, in each shape the references in order and then its own traits.
-/

namespace ShapeModel

set_option autoImplicit false

variable [PatternEngine]

namespace Trait

/-- The definition that the model gives of a trait of that name. -/
def definitionOf? (m : Model) (name : String) : Option TraitDefinition :=
  (m.find? (.ofText name)).bind (·.traits.definition?)

/-- A custom trait may stand where its definition says; without a definition, or with one whose
selector is malformed, anywhere. -/
def customSelector (m : Model) (name : String) : Selector :=
  match (definitionOf? m name).bind (·.selector) with
  | some text =>
    match Selector.parse text with
    | .ok s => s
    | .error _ => .all
  | none => .all

def selectorIn (m : Model) : Trait → Selector
  | .custom name _ => customSelector m name
  | .extended _ _ s => s
  | t =>
    match t.kind? with
    | some k => k.selector
    | none => .all

/-- What is wrong with the value of a trait, whatever it is applied to. -/
def flawIn (m : Model) : Trait → Option String
  | .length b => b.flaw
  | .range b => b.flaw
  | .pattern p =>
    match PatternEngine.compile p with
    | .ok _ => none
    | .error reason => some reason
  | .custom name v =>
    if (definitionOf? m name).isSome then
      match m.checkValue v (.ofText name) with
      | .ok () => none
      | .error e => some e.message
    else none
  | _ => none

/-- The trait is allowed on an element, and its value is sensible. -/
def validate (m : Model) (e : Element) (id : Identifier) (t : Trait) : Except Error Unit :=
  if (t.selectorIn m).matches? m e then
    match t.flawIn m with
    | some reason => .error (.validation (.invalidTraitValue t.name id reason))
    | none => .ok ()
  else .error (.validation (.traitNotAllowed t.name id e.kind))

end Trait

namespace Model

/-- Checks one after the other, up to the first that fails. -/
def checkAll {α : Type} (check : α → Except Error Unit) : List α → Except Error Unit
  | [] => .ok ()
  | a :: as => do
    check a
    checkAll check as

def validateTraits (m : Model) (e : Element) (id : Identifier) : Except Error Unit :=
  checkAll (Trait.validate m e id) e.traits.values

/-- A member of a shape as a reference: its identifier, and the kind its target must be of, if that
is fixed. Other references may go to anything but members and service kinds. -/
structure Reference where
  id : Identifier
  member : Member
  expected : Option ShapeKind

/-- A target of this kind fits. -/
def Reference.check (r : Reference) (actual : ShapeKind) : Except Error Unit :=
  let illegal := Error.validation (.illegalTarget r.id r.member.target actual)
  match r.expected with
  | none => if actual.isServiceKind || actual = .member then .error illegal else .ok ()
  | some expected =>
    if actual = .member then .error illegal
    else if actual = expected then .ok ()
    else
      .error (.validation (.unexpectedTargetKind r.id r.member.target expected actual))

/-- The target exists and fits, and the traits of the member are in order. -/
def validateReference (m : Model) (r : Reference) : Except Error Unit :=
  match m.find? r.member.target with
  | none => .error (.validation (.targetNotFound r.id r.member.target))
  | some e => do
    r.check e.kind
    validateTraits m (.member r.member) r.id

/-- The references in a list, all under the name of the field. -/
def listReferences (id : Identifier) (name : String) (expected : ShapeKind) (xs : List Member) :
    List Reference :=
  xs.map (⟨id.withMember name, ·, some expected⟩)

/-- The named members, as references without a fixed kind. -/
def namedReferences (id : Identifier) (ms : Members) : List Reference :=
  ms.entries.map fun (name, x) => ⟨id.withMember name, x, none⟩

/-- The references of a shape at an identifier, in the order in which they are checked. -/
def references (id : Identifier) : Shape.Body → List Reference
  | .simple _ => []
  | .collection _ x => [⟨id.withMember "member", x, none⟩]
  | .map key value => [⟨id.withMember "key", key, none⟩, ⟨id.withMember "value", value, none⟩]
  | .aggregate _ ms => namedReferences id ms
  | .service s =>
    listReferences id "operations" .operation s.operations ++
      listReferences id "resources" .resource s.resources ++
      listReferences id "errors" (.aggregate .struct) s.errors
  | .operation o =>
    listReferences id "input" (.aggregate .struct) o.input.toList ++
      listReferences id "output" (.aggregate .struct) o.output.toList ++
      listReferences id "errors" (.aggregate .struct) o.errors
  | .resource r =>
    namedReferences id r.identifiers ++ namedReferences id r.properties ++
      (r.lifecycle.entries.map fun (name, x) => ⟨id.withMember name, x, some .operation⟩) ++
      listReferences id "operations" .operation r.operations ++
      listReferences id "collectionOperations" .operation r.collectionOperations ++
      listReferences id "resources" .resource r.resources

def validateShape (m : Model) (id : Identifier) (s : Shape) : Except Error Unit := do
  checkAll (validateReference m) (references id s.body)
  validateTraits m (.shape s) id

def validate (m : Model) : Except Error Unit :=
  checkAll (fun (id, s) => validateShape m id s) m.shapes.entries

end Model

end ShapeModel
