import ShapeModel.Table
import ShapeModel.Text.Blank
import ShapeModel.Text.Quoted

/-!
# Registries

Named tables of items by name. A name holds at least one character that is not blank.
-/

namespace ShapeModel

set_option autoImplicit false

structure Registry (α : Type) where
  name : String
  items : Table String α

/-- A name that no item can have. -/
structure RegistryError where
  name : String
  registry : String
deriving DecidableEq, Repr

def RegistryError.message (e : RegistryError) : String :=
  e.registry ++ " registration failed: The name '" ++ e.name ++
    "' is invalid (empty or whitespace-only names are not allowed)."

namespace Registry

variable {α : Type}

def empty (name : String) : Registry α :=
  ⟨name, .empty⟩

def isValidName (name : String) : Bool :=
  !name.toList.all Text.isBlank

/-- Puts an item under a name; the answer has the item that was there before. -/
def register (r : Registry α) (name : String) (item : α) :
    Except RegistryError (Option α × Registry α) :=
  if isValidName name then .ok (r.items.get? name, { r with items := r.items.insert name item })
  else .error ⟨name, r.name⟩

/-- Puts items in order up to the first with an invalid name. What was put before that stays. -/
def registerAll (r : Registry α) : List (String × α) → Registry α × Except RegistryError Unit
  | [] => (r, .ok ())
  | (name, item) :: rest =>
    match r.register name item with
    | .ok (_, r) => r.registerAll rest
    | .error e => (r, .error e)

def get? (r : Registry α) (name : String) : Option α :=
  r.items.get? name

def contains (r : Registry α) (name : String) : Bool :=
  r.items.contains name

def names (r : Registry α) : List String :=
  r.items.keys

/-- The name of the registry and those of its items. -/
def summary (r : Registry α) : String :=
  r"Registry { name: " ++ quotedText r.name ++ ", items: [" ++
    ", ".intercalate (r.names.map quotedText) ++ r"] }"

end Registry

end ShapeModel
