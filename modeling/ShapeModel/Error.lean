import ShapeModel.Cursor
import ShapeModel.Identifier
import ShapeModel.Registry
import ShapeModel.Selector
import ShapeModel.Value.Path

/-!
# Errors

All that can go wrong in loading, checking and changing a model, with one message for each cause.
-/

namespace ShapeModel

set_option autoImplicit false

/-- What a check of a model, or of a value against it, finds. -/
inductive ValidationError
  | targetNotFound (member target : Identifier)
  | illegalTarget (member target : Identifier) (kind : ShapeKind)
  | unexpectedTargetKind (member target : Identifier) (expected actual : ShapeKind)
  | traitNotAllowed (traitName : String) (shape : Identifier) (kind : ShapeKind)
  | invalidTraitValue (traitName : String) (shape : Identifier) (reason : String)
  | valueMismatch (path : Path) (shape : Identifier) (expected actual : String)
  | missingRequiredMember (path : Path) (member : String)
  | unknownMember (path : Path) (member : String)
  | constraintViolated (path : Path) (traitName : String) (reason : String)
deriving DecidableEq, Repr

def ticked (s : String) : String := "`" ++ s ++ "`"

def ValidationError.message : ValidationError → String
  | .targetNotFound member target =>
    "member " ++ ticked member.toText ++ " targets " ++ ticked target.toText ++
      " which does not exist"
  | .illegalTarget member target kind =>
    "member " ++ ticked member.toText ++ " cannot target " ++ ticked target.toText ++ ", a " ++
      kind.name ++ " shape"
  | .unexpectedTargetKind member target expected actual =>
    ticked member.toText ++ " must target a " ++ expected.name ++ " shape but " ++
      ticked target.toText ++ " is a " ++ actual.name
  | .traitNotAllowed traitName shape kind =>
    "trait " ++ ticked traitName ++ " cannot be applied to " ++ ticked shape.toText ++ ", a " ++
      kind.name ++ " shape"
  | .invalidTraitValue traitName shape reason =>
    "trait " ++ ticked traitName ++ " on " ++ ticked shape.toText ++ " is invalid: " ++ reason
  | .valueMismatch path shape expected actual =>
    "value at " ++ ticked path.toText ++ " does not match shape " ++ ticked shape.toText ++
      ": expected " ++ expected ++ ", got " ++ actual
  | .missingRequiredMember path member =>
    "value at " ++ ticked path.toText ++ " is missing required member " ++ ticked member
  | .unknownMember path member =>
    "value at " ++ ticked path.toText ++ " has unknown member " ++ ticked member
  | .constraintViolated path traitName reason =>
    "value at " ++ ticked path.toText ++ " violates " ++ ticked traitName ++ ": " ++ reason

/-- Abstract syntax that cannot be decoded: what was being decoded, and why it failed. -/
structure DecodeError where
  context : String
  reason : String
deriving DecidableEq, Repr

inductive Error
  | lexical (failure : LexicalFailure)
  | syntactic (failure : SyntaxFailure)
  | unrecognizedShapeKind (name : String)
  | decode (failure : DecodeError)
  | validation (error : ValidationError)
  | shapeNotFound (id : Identifier)
  | memberNotFound (shape : Identifier) (member : String)
  | unrecognizedSelector (text : String)
  | registry (error : RegistryError)
deriving DecidableEq, Repr

def SyntaxFailure.message (f : SyntaxFailure) : String :=
  match f.place with
  | some p => p.context
  | none => f.error.message

def Error.message : Error → String
  | .lexical f => f.place.context
  | .syntactic f => f.message
  | .unrecognizedShapeKind name => "unrecognized shape type " ++ ticked name
  | .decode f => "failed to decode " ++ f.context ++ ": " ++ f.reason
  | .validation e => e.message
  | .shapeNotFound id => "shape " ++ ticked id.toText ++ " does not exist"
  | .memberNotFound shape member =>
    "member " ++ ticked member ++ " does not exist in " ++ ticked shape.toText
  | .unrecognizedSelector text => "unrecognized selector " ++ ticked text
  | .registry e => e.message

namespace Error

def decoding (context reason : String) : Error :=
  .decode ⟨context, reason⟩

/-- A field is of another kind than it has to be. -/
def inField (name : String) (e : Value.KindError) : Error :=
  decoding ("field " ++ ticked name) e.message

end Error

end ShapeModel
