import ShapeModel.Error
import ShapeModel.Prelude

/-!
# Models

A version, metadata and shapes by identifier. Every model starts with the shapes of the prelude.
Changing a trait changes one shape or member, or fails when there is none. Changes are made in
place: they give what they leave of the model, also when they fail.
-/

namespace ShapeModel

set_option autoImplicit false

structure Model where
  version : String
  metadata : Table String Value
  shapes : Table Identifier Shape
deriving BEq

namespace Model

/-- The version of a model that does not say. -/
def defaultVersion : String := "1.0"

def prelude : Model :=
  ⟨defaultVersion, .empty, .ofList Prelude.shapes⟩

/-- The shape of that identifier, or the member if the identifier has a member part. Only aggregates
have members that are found. -/
def find? (m : Model) (id : Identifier) : Option Element :=
  match id.member with
  | none => (m.shapes.get? id).map .shape
  | some name => ((m.shapes.get? id.root).bind (·.member? name)).map .member

def insertShape (m : Model) (id : Identifier) (s : Shape) : Model :=
  { m with shapes := m.shapes.insert id s }

/-- A new model with these shapes added, the first one first. -/
def ofShapes (shapes : List (Identifier × Shape)) : Model :=
  shapes.foldl (fun m (id, s) => m.insertShape id s) prelude

def memberNotFound (id : Identifier) : Error :=
  .memberNotFound id.root (id.member.getD "")

/-- What a change in place leaves, unless it failed. -/
def changed {σ : Type} (result : σ × Except Error Unit) : Except Error σ :=
  result.2.map fun _ => result.1

end Model

namespace Shape

/-- Changes a named member in place. The identifier says which, and is named in the error if there
is no such member. -/
def changeMember (s : Shape) (id : Identifier) (f : Member → Member) : Shape × Except Error Unit :=
  match s.body with
  | .aggregate k ms =>
    let (ms, outcome) :=
      ms.changeAt (id.member.getD "") (Model.memberNotFound id) fun x => (f x, .ok ())
    ({ s with body := .aggregate k ms }, outcome)
  | _ => (s, .error (Model.memberNotFound id))

/-- The shape with a named member changed. -/
def updateMember (s : Shape) (id : Identifier) (f : Member → Member) : Except Error Shape :=
  Model.changed (s.changeMember id f)

end Shape

namespace Model

/-- Changes the traits of a shape or member in place. -/
def changeTraits (m : Model) (id : Identifier) (f : Traits → Traits) :
    Model × Except Error Unit :=
  let (shapes, outcome) := m.shapes.changeAt id.root (.shapeNotFound id.root) fun s =>
    if id.member.isSome then s.changeMember id fun x => { x with traits := f x.traits }
    else ({ s with traits := f s.traits }, .ok ())
  ({ m with shapes := shapes }, outcome)

/-- Adds a trait, over one of the same name if there is one. -/
def attachTrait (m : Model) (t : Trait) (id : Identifier) : Model × Except Error Unit :=
  m.changeTraits id (·.add t)

def detachTrait (m : Model) (name : String) (id : Identifier) : Model × Except Error Unit :=
  m.changeTraits id (·.erase name)

def updateTraits (m : Model) (id : Identifier) (f : Traits → Traits) : Except Error Model :=
  changed (m.changeTraits id f)

/-- The model with a trait added. -/
def addTrait (m : Model) (t : Trait) (id : Identifier) : Except Error Model :=
  changed (m.attachTrait t id)

def removeTrait (m : Model) (name : String) (id : Identifier) : Except Error Model :=
  changed (m.detachTrait name id)

end Model

end ShapeModel
