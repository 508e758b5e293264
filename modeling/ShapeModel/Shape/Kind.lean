/-!
# Kinds of shape

Every shape is of one of 23 kinds, and a member counts as a kind of its own. Kinds are spelled in
abstract syntax and in selectors.
-/

namespace ShapeModel

set_option autoImplicit false

inductive SimpleKind
  | blob
  | boolean
  | string
  | byte
  | short
  | integer
  | long
  | float
  | double
  | bigInteger
  | bigDecimal
  | timestamp
  | document
deriving DecidableEq, Repr

inductive CollectionKind
  | list
  | set
deriving DecidableEq, Repr

inductive AggregateKind
  | struct
  | union
  | enum
  | intEnum
deriving DecidableEq, Repr

inductive ShapeKind
  | simple (kind : SimpleKind)
  | collection (kind : CollectionKind)
  | map
  | aggregate (kind : AggregateKind)
  | member
  | service
  | operation
  | resource
deriving DecidableEq, Repr

namespace SimpleKind

def all : List SimpleKind :=
  [.blob, .boolean, .string, .byte, .short, .integer, .long, .float, .double, .bigInteger,
   .bigDecimal, .timestamp, .document]

def name : SimpleKind → String
  | .blob => "blob"
  | .boolean => "boolean"
  | .string => "string"
  | .byte => "byte"
  | .short => "short"
  | .integer => "integer"
  | .long => "long"
  | .float => "float"
  | .double => "double"
  | .bigInteger => "bigInteger"
  | .bigDecimal => "bigDecimal"
  | .timestamp => "timestamp"
  | .document => "document"

def isIntegral : SimpleKind → Bool
  | .byte | .short | .integer | .long | .bigInteger => true
  | _ => false

def isNumber : SimpleKind → Bool
  | .float | .double | .bigDecimal => true
  | k => k.isIntegral

end SimpleKind

def CollectionKind.all : List CollectionKind := [.list, .set]

def CollectionKind.name : CollectionKind → String
  | .list => "list"
  | .set => "set"

def AggregateKind.all : List AggregateKind := [.struct, .union, .enum, .intEnum]

def AggregateKind.name : AggregateKind → String
  | .struct => "structure"
  | .union => "union"
  | .enum => "enum"
  | .intEnum => "intEnum"

namespace ShapeKind

def all : List ShapeKind :=
  SimpleKind.all.map .simple ++ CollectionKind.all.map .collection ++ [.map] ++
    AggregateKind.all.map .aggregate ++ [.member, .service, .operation, .resource]

def name : ShapeKind → String
  | .simple k => k.name
  | .collection k => k.name
  | .map => "map"
  | .aggregate k => k.name
  | .member => "member"
  | .service => "service"
  | .operation => "operation"
  | .resource => "resource"

def ofName? (s : String) : Option ShapeKind :=
  all.find? (·.name == s)

theorem name_of_ofName? {s : String} {k : ShapeKind} (h : ofName? s = some k) : k.name = s := by
  simpa using List.find?_some h

def isNumber : ShapeKind → Bool
  | .simple k => k.isNumber
  | _ => false

def isIntegral : ShapeKind → Bool
  | .simple k => k.isIntegral
  | _ => false

def isSimple : ShapeKind → Bool
  | .simple _ => true
  | _ => false

def isCollection : ShapeKind → Bool
  | .collection _ => true
  | _ => false

/-- Kinds that plain members may not refer to. -/
def isServiceKind : ShapeKind → Bool
  | .service | .operation | .resource => true
  | _ => false

end ShapeKind

end ShapeModel
