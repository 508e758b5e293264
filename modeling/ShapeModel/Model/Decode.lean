import ShapeModel.Model
import ShapeModel.Shape.Decode

/-!
# Decoding models

A model from abstract syntax. The entries of shapes are decoded in order, over the prelude. Entries
of type `apply` come after all others: each adds its traits to a shape or member that is there by
then.
-/

namespace ShapeModel

set_option autoImplicit false

namespace Model

/-- A decoding error in a shape names the shape. -/
def inShape (id : Identifier) : Error → Error
  | .decode e => .decode { e with context := "shape " ++ ticked id.toText ++ ", " ++ e.context }
  | e => e

/-- Traits that wait for the shape or member they are applied to. -/
structure Application where
  target : Identifier
  entry : Value

def decodeKind (id : Identifier) (entry : Value) : Except Error String := do
  match ← decodeText entry "type" with
  | some kind => .ok kind
  | none => .error (.decoding ("shape " ++ ticked id.toText) ("missing " ++ ticked "type"))

/-- Decodes shapes into a model and gathers the applications, in order. -/
def decodeShapes (shapes : ShapeRegistry) (traits : TraitRegistry) :
    List (String × Value) → Model → Except Error (Model × List Application)
  | [], m => .ok (m, [])
  | (name, entry) :: rest, m => do
    let id := Identifier.ofText name
    let kind ← decodeKind id entry
    if kind = "apply" then
      let (m, applications) ← decodeShapes shapes traits rest m
      .ok (m, ⟨id, entry⟩ :: applications)
    else
      let s ← (shapes.decode kind entry traits).mapError (inShape id)
      decodeShapes shapes traits rest (m.insertShape id s)

def addTraits (id : Identifier) : List Trait → Model → Except Error Model
  | [], m => .ok m
  | t :: ts, m => do addTraits id ts (← m.addTrait t id)

def applyAll (traits : TraitRegistry) : List Application → Model → Except Error Model
  | [], m => .ok m
  | a :: rest, m => do
    let ts ← (decodeTraits traits a.entry).mapError (inShape a.target)
    applyAll traits rest (← addTraits a.target ts.values m)

/-- The object in a field, none if it is absent. -/
def decodeObject (v : Value) (name : String) : Except Error (List (String × Value)) :=
  match v.present? name with
  | none => .ok []
  | some v => v.asObject.mapError (.inField name)

def decode (shapes : ShapeRegistry) (traits : TraitRegistry) (ast : Value) :
    Except Error Model := do
  let version ← decodeText ast "smithy"
  let metadata ← decodeObject ast "metadata"
  let entries ← decodeObject ast "shapes"
  let start : Model :=
    { prelude with version := version.getD defaultVersion, metadata := .ofList metadata }
  let (m, applications) ← decodeShapes shapes traits entries start
  applyAll traits applications m

end Model

end ShapeModel
