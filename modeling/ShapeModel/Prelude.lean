import ShapeModel.Shape

/-!
# Shapes of the prelude

The shapes that every model starts with: one for each scalar kind, some with constraints or
defaults, and the unit structure.
-/

namespace ShapeModel.Prelude

set_option autoImplicit false

def identifier (name : String) : Identifier :=
  ⟨some space, name, none⟩

def simpleKind : String → SimpleKind
  | "Blob" => .blob
  | "Boolean" | "PrimitiveBoolean" => .boolean
  | "Byte" | "PrimitiveByte" => .byte
  | "Short" | "PrimitiveShort" => .short
  | "Integer" | "PrimitiveInteger" => .integer
  | "Long" | "PrimitiveLong" => .long
  | "Float" | "PrimitiveFloat" => .float
  | "Double" | "PrimitiveDouble" => .double
  | "BigInteger" => .bigInteger
  | "BigDecimal" => .bigDecimal
  | "Timestamp" => .timestamp
  | "Document" => .document
  | _ => .string

/-- The traits of a simple prelude shape: the nonempty text has a least length. -/
def simpleTraits (name : String) : Traits :=
  if name = "NonEmptyString" then .ofList [.length ⟨some 1, none⟩] else .empty

/-- The default of a primitive shape: false, or zero. -/
def primitiveDefault (name : String) : Value :=
  if name = "PrimitiveBoolean" then .bool false else .number (.uint 0)

def unit : Shape :=
  ⟨.aggregate .struct .empty, .ofList [.unitType]⟩

def shapes : List (Identifier × Shape) :=
  simpleNames.map (fun n => (identifier n, ⟨.simple (simpleKind n), simpleTraits n⟩)) ++
  primitiveNames.map (fun n =>
    (identifier n, ⟨.simple (simpleKind n), .ofList [.default (primitiveDefault n)]⟩)) ++
  [(identifier unitName, unit)]

end ShapeModel.Prelude
