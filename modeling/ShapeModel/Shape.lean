import ShapeModel.Identifier
import ShapeModel.Shape.Kind
import ShapeModel.Trait

/-!
# Shapes

A shape is what its kind calls for, with traits. Shapes refer to each other by identifiers only;
whatever refers to a shape is a member, which carries traits of its own.
-/

namespace ShapeModel

set_option autoImplicit false

structure Member where
  target : Identifier
  traits : Traits
deriving BEq

abbrev Members := Table String Member

structure Service where
  version : Option String
  operations : List Member
  resources : List Member
  errors : List Member
deriving BEq

structure Operation where
  input : Option Member
  output : Option Member
  errors : List Member
deriving BEq

/-- The operations that take a resource through its life. -/
structure Lifecycle where
  create : Option Member
  put : Option Member
  read : Option Member
  update : Option Member
  delete : Option Member
  list : Option Member
deriving BEq

/-- Those that are given, with their field names. -/
def Lifecycle.entries (l : Lifecycle) : List (String × Member) :=
  [("create", l.create), ("put", l.put), ("read", l.read), ("update", l.update),
    ("delete", l.delete), ("list", l.list)].filterMap fun (name, m) => m.map (name, ·)

structure Resource where
  identifiers : Members
  properties : Members
  lifecycle : Lifecycle
  operations : List Member
  collectionOperations : List Member
  resources : List Member
deriving BEq

/-- What a shape consists of besides its traits. -/
inductive Shape.Body
  | simple (kind : SimpleKind)
  | collection (kind : CollectionKind) (member : Member)
  | map (key value : Member)
  | aggregate (kind : AggregateKind) (members : Members)
  | service (s : Service)
  | operation (o : Operation)
  | resource (r : Resource)
deriving BEq

structure Shape where
  body : Shape.Body
  traits : Traits
deriving BEq

namespace Shape

def kind (s : Shape) : ShapeKind :=
  match s.body with
  | .simple k => .simple k
  | .collection k _ => .collection k
  | .map _ _ => .map
  | .aggregate k _ => .aggregate k
  | .service _ => .service
  | .operation _ => .operation
  | .resource _ => .resource

/-- The members by name. Only aggregates have them. -/
def members? (s : Shape) : Option Members :=
  match s.body with
  | .aggregate _ ms => some ms
  | _ => none

def member? (s : Shape) (name : String) : Option Member :=
  s.members?.bind (·.get? name)

end Shape

/-- What selectors and traits are about: a shape of a model, or a member inside one. -/
inductive Element
  | shape (s : Shape)
  | member (m : Member)

namespace Element

def kind : Element → ShapeKind
  | .shape s => s.kind
  | .member _ => .member

def traits : Element → Traits
  | .shape s => s.traits
  | .member m => m.traits

def target? : Element → Option Identifier
  | .shape _ => none
  | .member m => some m.target

end Element

end ShapeModel
