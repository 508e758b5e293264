import ShapeModel.Payload
import ShapeModel.Selector
import ShapeModel.Table
import ShapeModel.Trait.Kind

/-!
# Traits

What a shape or member is annotated with: a trait of the prelude with typed content, a custom trait
with a value as it is, or an extension, which brings its own selector. Traits are kept by name, one
of each name.
-/

namespace ShapeModel

set_option autoImplicit false

structure Deprecation where
  message : Option String
  since : Option String
deriving DecidableEq, Repr

structure LengthBounds where
  least : Option Int64
  most : Option Int64
deriving DecidableEq, Repr

namespace LengthBounds

/-- Whether a size is within the bounds. Sizes too large for 64 bits count as the largest. -/
def contains (b : LengthBounds) (n : Nat) : Bool :=
  let size : Int := min n (2 ^ 63 - 1)
  b.least.all (·.toInt ≤ size) && b.most.all (size ≤ ·.toInt)

def flaw (b : LengthBounds) : Option String :=
  match b.least, b.most with
  | some least, most =>
    if least.toInt < 0 then some ("min " ++ toString least.toInt ++ " is negative")
    else
      match most with
      | some most =>
        if most.toInt < least.toInt then
          some ("min " ++ toString least.toInt ++ " is greater than max " ++ toString most.toInt)
        else none
      | none => none
  | none, _ => none

end LengthBounds

structure RangeBounds where
  least : Option Binary64
  most : Option Binary64
deriving DecidableEq, BEq

namespace RangeBounds

def contains (b : RangeBounds) (x : Binary64) : Bool :=
  b.least.all (·.le x) && b.most.all x.le

def flaw (b : RangeBounds) : Option String :=
  match b.least, b.most with
  | some least, some most =>
    if most.compare? least = some .lt then
      some ("min " ++ toString least ++ " is greater than max " ++ toString most)
    else none
  | _, _ => none

end RangeBounds

inductive Fault
  | client
  | server
deriving DecidableEq, Repr

def Fault.name : Fault → String
  | .client => "client"
  | .server => "server"

/-- What makes a shape the definition of a trait. -/
structure TraitDefinition where
  selector : Option String
  conflicts : List String
  structurallyExclusive : Option String
deriving DecidableEq, Repr

structure Pagination where
  inputToken : Option String
  outputToken : Option String
  items : Option String
  pageSize : Option String
deriving DecidableEq, Repr

inductive Trait
  | documentation (text : String)
  | required
  | deprecated (d : Deprecation)
  | sensitive
  | pattern (text : String)
  | length (bounds : LengthBounds)
  | range (bounds : RangeBounds)
  | enumValue (v : Value)
  | error (fault : Fault)
  | readonly
  | idempotent
  | input
  | output
  | default (v : Value)
  | tags (tags : List String)
  | title (text : String)
  | unitType
  | internal
  | definition (d : TraitDefinition)
  | timestampFormat (format : String)
  | paginated (p : Pagination)
  | uniqueItems
  /-- A trait that no decoder is known for, with its value as it is. -/
  | custom (name : String) (v : Value)
  /-- A trait of a kind registered from outside, with its own selector. -/
  | extended (name : String) (v : Value) (selector : Selector)
deriving BEq

namespace Trait

def kind? : Trait → Option Kind
  | .documentation _ => some .documentation
  | .required => some .required
  | .deprecated _ => some .deprecated
  | .sensitive => some .sensitive
  | .pattern _ => some .pattern
  | .length _ => some .length
  | .range _ => some .range
  | .enumValue _ => some .enumValue
  | .error _ => some .error
  | .readonly => some .readonly
  | .idempotent => some .idempotent
  | .input => some .input
  | .output => some .output
  | .default _ => some .default
  | .tags _ => some .tags
  | .title _ => some .title
  | .unitType => some .unitType
  | .internal => some .internal
  | .definition _ => some .definition
  | .timestampFormat _ => some .timestampFormat
  | .paginated _ => some .paginated
  | .uniqueItems => some .uniqueItems
  | .custom .. => none
  | .extended .. => none

def name (t : Trait) : String :=
  match t with
  | .custom name _ => name
  | .extended name _ _ => name
  | t =>
    match t.kind? with
    | some k => k.name
    | none => ""

end Trait

abbrev Traits := Table String Trait

namespace Traits

def add (ts : Traits) (t : Trait) : Traits :=
  ts.insert t.name t

def addAll (ts : Traits) (new : List Trait) : Traits :=
  new.foldl add ts

def ofList (new : List Trait) : Traits :=
  addAll .empty new

/-- The prelude trait of a kind: what stands under its name, if it is of that kind. -/
def builtin? (ts : Traits) (k : Trait.Kind) : Option Trait :=
  (ts.get? k.name).filter fun t => t.kind? = some k

def has (ts : Traits) (k : Trait.Kind) : Bool :=
  ts.contains k.name

def length? (ts : Traits) : Option LengthBounds :=
  match ts.get? Trait.Kind.length.name with
  | some (.length b) => some b
  | _ => none

def range? (ts : Traits) : Option RangeBounds :=
  match ts.get? Trait.Kind.range.name with
  | some (.range b) => some b
  | _ => none

def pattern? (ts : Traits) : Option String :=
  match ts.get? Trait.Kind.pattern.name with
  | some (.pattern p) => some p
  | _ => none

def enumValue? (ts : Traits) : Option Value :=
  match ts.get? Trait.Kind.enumValue.name with
  | some (.enumValue v) => some v
  | _ => none

def definition? (ts : Traits) : Option TraitDefinition :=
  match ts.get? Trait.Kind.definition.name with
  | some (.definition d) => some d
  | _ => none

end Traits

end ShapeModel
