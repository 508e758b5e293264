/-!
# Names of the prelude

The name space that every model starts with and the names of the shapes in it.
-/

namespace ShapeModel.Prelude

set_option autoImplicit false

def space : String := "smithy.api"

def absolute (name : String) : String :=
  space ++ "#" ++ name

def simpleNames : List String :=
  ["Blob", "Boolean", "String", "NonEmptyString", "ShapeIdString", "Byte", "Short", "Integer",
   "Long", "Float", "Double", "BigInteger", "BigDecimal", "Timestamp", "Document"]

def primitiveNames : List String :=
  ["PrimitiveBoolean", "PrimitiveByte", "PrimitiveShort", "PrimitiveInteger", "PrimitiveLong",
   "PrimitiveFloat", "PrimitiveDouble"]

def unitName : String := "Unit"

def isShapeName (name : String) : Bool :=
  name == unitName || simpleNames.contains name || primitiveNames.contains name

end ShapeModel.Prelude
