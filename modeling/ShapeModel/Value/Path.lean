import ShapeModel.Value

/-!
# Paths

The way from a value to one of its parts, as messages show it: from `$`, with `.key` for a field and
`[i]` for an item.
-/

namespace ShapeModel

set_option autoImplicit false

/-- The steps from the whole value on. -/
structure Path where
  steps : List Value.Step
deriving DecidableEq, Repr

namespace Path

def root : Path := ⟨[]⟩

def field (p : Path) (key : String) : Path := ⟨p.steps ++ [.key key]⟩

def item (p : Path) (i : Nat) : Path := ⟨p.steps ++ [.index i]⟩

def stepText : Value.Step → String
  | .key k => "." ++ k
  | .index i => "[" ++ toString i ++ "]"

def toText (p : Path) : String :=
  p.steps.foldl (fun text s => text ++ stepText s) "$"

end Path

end ShapeModel
