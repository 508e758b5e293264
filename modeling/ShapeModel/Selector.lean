import ShapeModel.Prelude.Names
import ShapeModel.Shape.Kind
import ShapeModel.Text.Blank

/-!
# Selectors

Predicates over the shapes and members of a model. This module holds their form and the textual
one, in which words that all have to match stand next to each other.
-/

namespace ShapeModel

set_option autoImplicit false

inductive Selector
  | all
  | kind (k : ShapeKind)
  | number
  | simple
  | collection
  /-- What carries the trait of that name. -/
  | hasTrait (name : String)
  | and (selectors : List Selector)
  | or (selectors : List Selector)
  | not (selector : Selector)
  /-- Members whose target matches. -/
  | target (selector : Selector)
  /-- What matches itself, and members whose target does. -/
  | orTarget (selector : Selector)

namespace Selector

instance : Inhabited Selector := ⟨.all⟩

mutual

def same : Selector → Selector → Bool
  | .all, .all | .number, .number | .simple, .simple | .collection, .collection => true
  | .kind a, .kind b => a == b
  | .hasTrait a, .hasTrait b => a == b
  | .and as, .and bs => sameAll as bs
  | .or as, .or bs => sameAll as bs
  | .not a, .not b => same a b
  | .target a, .target b => same a b
  | .orTarget a, .orTarget b => same a b
  | _, _ => false

def sameAll : List Selector → List Selector → Bool
  | [], [] => true
  | a :: as, b :: bs => same a b && sameAll as bs
  | _, _ => false

end

instance : BEq Selector := ⟨same⟩

/-- A selector that is not written as one: a word, or a text without words. -/
structure ParseError where
  text : String
deriving DecidableEq, Repr

def traitOpening : List Char := "[trait:".toList

/-- The name in `[trait:name]`, which may not be empty. -/
def bracketedName? (w : List Char) : Option (List Char) :=
  if traitOpening.isPrefixOf w then
    let rest := w.drop traitOpening.length
    if rest.getLast? = some ']' ∧ rest.dropLast ≠ [] then some rest.dropLast else none
  else none

/-- A trait name without name space is one of the prelude. -/
def traitNamed (name : List Char) : Selector :=
  let text := String.ofList name
  .hasTrait (if name.contains '#' then text else Prelude.absolute text)

def ofWord? (w : List Char) : Option Selector :=
  if w = ['*'] then some .all
  else if w = "number".toList then some .number
  else if w = "simpleType".toList then some .simple
  else if w = "collection".toList then some .collection
  else
    match bracketedName? w with
    | some name => some (traitNamed name)
    | none => (ShapeKind.ofName? (String.ofList w)).map .kind

/-- The selectors of all words, or the first word that is none. -/
def ofWords : List (List Char) → Except ParseError (List Selector)
  | [] => .ok []
  | w :: ws =>
    match ofWord? w with
    | none => .error ⟨String.ofList w⟩
    | some s =>
      match ofWords ws with
      | .ok ss => .ok (s :: ss)
      | .error e => .error e

/-- The textual form: words parted by blanks, at least one. -/
def parse (text : String) : Except ParseError Selector :=
  match ofWords (Text.words text.toList) with
  | .error e => .error e
  | .ok [] => .error ⟨text⟩
  | .ok [s] => .ok s
  | .ok ss => .ok (.and ss)

end Selector

end ShapeModel
