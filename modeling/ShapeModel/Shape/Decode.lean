import ShapeModel.Shape
import ShapeModel.Trait.Decode

/-!
# Decoding shapes

The entry of a shape in abstract syntax, read field by field for each kind. Missing fields and null
ones are taken for absent where a field is optional. The traits come last.
-/

namespace ShapeModel

set_option autoImplicit false

def decodeText (v : Value) (name : String) : Except Error (Option String) :=
  match v.present? name with
  | none => .ok none
  | some v => (v.asString.map some).mapError (.inField name)

/-- The traits in the field of that name, none if it is absent. -/
def decodeTraits (r : TraitRegistry) (v : Value) : Except Error Traits :=
  match v.present? "traits" with
  | none => .ok .empty
  | some v => Traits.decode r v

namespace Member

def decodeTarget (v : Value) : Except Error Identifier := do
  match ← decodeText v "target" with
  | some t => .ok (.ofText t)
  | none => .error (.decoding "member" ("missing " ++ ticked "target"))

def decode (r : TraitRegistry) (v : Value) : Except Error Member := do
  let target ← decodeTarget v
  let traits ← decodeTraits r v
  .ok ⟨target, traits⟩

def decodeAll (r : TraitRegistry) : List Value → Except Error (List Member)
  | [] => .ok []
  | v :: vs => do
    let m ← decode r v
    let ms ← decodeAll r vs
    .ok (m :: ms)

/-- The list in a field, empty if it is absent. -/
def decodeList (r : TraitRegistry) (v : Value) (name : String) : Except Error (List Member) :=
  match v.present? name with
  | none => .ok []
  | some v => do
    let items ← v.asArray.mapError (.inField name)
    decodeAll r items

/-- The member in a field, if there is one; errors in it are reported as errors in the field. -/
def decodeOptional (r : TraitRegistry) (v : Value) (name : String) : Except Error (Option Member) :=
  match v.present? name with
  | none => .ok none
  | some v =>
    ((decode r v).map some).mapError fun e => .decoding ("field " ++ ticked name) e.message

/-- A field that has to be there, for a shape that cannot do without. -/
def decodeRequired (r : TraitRegistry) (v : Value) (context name : String) : Except Error Member :=
  match v.get? name with
  | some v => decode r v
  | none => .error (.decoding context ("missing " ++ ticked name))

/-- Named members; an error in one is passed through `wrap` with its name. -/
def decodeFields (r : TraitRegistry) (wrap : String → Error → Error) :
    List (String × Value) → Members → Except Error Members
  | [], ms => .ok ms
  | (name, v) :: fs, ms => do
    let m ← (decode r v).mapError (wrap name)
    decodeFields r wrap fs (ms.insert name m)

/-- The named members in a field, none if it is absent. -/
def decodeNamed (r : TraitRegistry) (wrap : String → Error → Error) (v : Value) (name : String) :
    Except Error Members :=
  match v.present? name with
  | none => .ok .empty
  | some v => do
    let fields ← v.asObject.mapError (.inField name)
    decodeFields r wrap fields .empty

end Member

namespace Shape

def decodeService (r : TraitRegistry) (v : Value) : Except Error Service := do
  let version ← decodeText v "version"
  let operations ← Member.decodeList r v "operations"
  let resources ← Member.decodeList r v "resources"
  let errors ← Member.decodeList r v "errors"
  .ok ⟨version, operations, resources, errors⟩

def decodeOperation (r : TraitRegistry) (v : Value) : Except Error Operation := do
  let input ← Member.decodeOptional r v "input"
  let output ← Member.decodeOptional r v "output"
  let errors ← Member.decodeList r v "errors"
  .ok ⟨input, output, errors⟩

def decodeLifecycle (r : TraitRegistry) (v : Value) : Except Error Lifecycle := do
  let create ← Member.decodeOptional r v "create"
  let put ← Member.decodeOptional r v "put"
  let read ← Member.decodeOptional r v "read"
  let update ← Member.decodeOptional r v "update"
  let delete ← Member.decodeOptional r v "delete"
  let list ← Member.decodeOptional r v "list"
  .ok ⟨create, put, read, update, delete, list⟩

def decodeResource (r : TraitRegistry) (v : Value) : Except Error Resource := do
  let identifiers ← Member.decodeNamed r (fun _ e => e) v "identifiers"
  let properties ← Member.decodeNamed r (fun _ e => e) v "properties"
  let lifecycle ← decodeLifecycle r v
  let operations ← Member.decodeList r v "operations"
  let collectionOperations ← Member.decodeList r v "collectionOperations"
  let resources ← Member.decodeList r v "resources"
  .ok ⟨identifiers, properties, lifecycle, operations, collectionOperations, resources⟩

/-- An error in a member of an aggregate names the member. -/
def inMember (name : String) (e : Error) : Error :=
  .decoding ("member " ++ ticked name) e.message

def decodeMap (r : TraitRegistry) (v : Value) : Except Error Body := do
  let key ← Member.decodeRequired r v "map" "key"
  let value ← Member.decodeRequired r v "map" "value"
  .ok (.map key value)

/-- What a shape of this kind consists of; no shape is of the kind of members. -/
def decodeBody (r : TraitRegistry) (v : Value) : ShapeKind → Except Error Body
  | .simple k => .ok (.simple k)
  | .collection k => (Member.decodeRequired r v "collection" "member").map (.collection k)
  | .map => decodeMap r v
  | .aggregate k => (Member.decodeNamed r inMember v "members").map (.aggregate k)
  | .member => .error (.unrecognizedShapeKind ShapeKind.member.name)
  | .service => (decodeService r v).map .service
  | .operation => (decodeOperation r v).map .operation
  | .resource => (decodeResource r v).map .resource

def decode (k : ShapeKind) (v : Value) (r : TraitRegistry) : Except Error Shape := do
  let body ← decodeBody r v k
  let traits ← decodeTraits r v
  .ok ⟨body, traits⟩

end Shape

abbrev ShapeDecoder := Value → TraitRegistry → Except Error Shape

abbrev ShapeRegistry := Registry ShapeDecoder

namespace ShapeRegistry

def builtin : ShapeRegistry :=
  ⟨"SHAPE_REGISTRY",
    .ofList ((ShapeKind.all.filter (· ≠ .member)).map fun k => (k.name, Shape.decode k))⟩

def decode (r : ShapeRegistry) (kind : String) (v : Value) (ts : TraitRegistry) :
    Except Error Shape :=
  match r.get? kind with
  | some decode => decode v ts
  | none => .error (.unrecognizedShapeKind kind)

end ShapeRegistry

end ShapeModel
