import ShapeModel.Prelude.Names

/-!
# Traits of the prelude

The kinds of trait that every model knows, and their names.
-/

namespace ShapeModel.Trait

set_option autoImplicit false

inductive Kind
  | documentation
  | required
  | deprecated
  | sensitive
  | pattern
  | length
  | range
  | enumValue
  | error
  | readonly
  | idempotent
  | input
  | output
  | default
  | tags
  | title
  | unitType
  | internal
  | definition
  | timestampFormat
  | paginated
  | uniqueItems
deriving DecidableEq, Repr

namespace Kind

def all : List Kind :=
  [.documentation, .required, .deprecated, .sensitive, .pattern, .length, .range, .enumValue,
   .error, .readonly, .idempotent, .input, .output, .default, .tags, .title, .unitType, .internal,
   .definition, .timestampFormat, .paginated, .uniqueItems]

def shortName : Kind → String
  | .documentation => "documentation"
  | .required => "required"
  | .deprecated => "deprecated"
  | .sensitive => "sensitive"
  | .pattern => "pattern"
  | .length => "length"
  | .range => "range"
  | .enumValue => "enumValue"
  | .error => "error"
  | .readonly => "readonly"
  | .idempotent => "idempotent"
  | .input => "input"
  | .output => "output"
  | .default => "default"
  | .tags => "tags"
  | .title => "title"
  | .unitType => "unitType"
  | .internal => "private"
  | .definition => "trait"
  | .timestampFormat => "timestampFormat"
  | .paginated => "paginated"
  | .uniqueItems => "uniqueItems"

def name (k : Kind) : String :=
  Prelude.absolute k.shortName

def ofShortName? (s : String) : Option Kind :=
  all.find? (·.shortName == s)

end Kind

end ShapeModel.Trait
