import ShapeModel.Identifier
import ShapeModel.Prelude.Names
import ShapeModel.Table

/-!
# Names in a document

What a written name refers to: the prelude first, then the names that were brought into use, then
the name space of the document.
-/

namespace ShapeModel.Document

set_option autoImplicit false

structure Scope where
  /-- The absolute names of the traits that are known. -/
  traitNames : List String
  space : Option String
  /-- Shape names brought into use, with their absolute names. -/
  aliases : Table String String

namespace Scope

def ofTraitNames (names : List String) : Scope :=
  ⟨names, none, .empty⟩

/-- A trait name is in the prelude when that trait is known, a shape name when the shape is. -/
def isPreludeName (s : Scope) (isTrait : Bool) (name : String) : Bool :=
  if isTrait then s.traitNames.contains (Prelude.absolute name) else Prelude.isShapeName name

/-- The absolute name of a shape name, if there is one. -/
def resolve (s : Scope) (isTrait : Bool) (name : String) : Option String :=
  if s.isPreludeName isTrait name then some (Prelude.absolute name)
  else
    match s.aliases.get? name with
    | some target => some target
    | none => s.space.map (· ++ "#" ++ name)

/-- The absolute form of a written name; one with a name space is left as it is. -/
def qualify (s : Scope) (isTrait : Bool) (name : String) : String :=
  let id := Identifier.ofText name
  if id.space.isSome then name
  else
    match s.resolve isTrait id.name, id.member with
    | some root, some member => root ++ "$" ++ member
    | some root, none => root
    | none, _ => name

end Scope

end ShapeModel.Document
