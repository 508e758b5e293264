import ShapeModel.Number
import ShapeModel.Table.Entries

/-!
# Dynamic values

The schemaless trees that metadata, trait payloads and abstract syntax are made of. The fields of an
object stand in ascending key order. Equality is equality of numbers, not of their representations,
so a value that holds not-a-number differs from itself.
-/

namespace ShapeModel

set_option autoImplicit false

inductive Value
  | null
  | bool (b : Bool)
  | number (n : Number)
  | string (s : String)
  | array (items : List Value)
  | object (fields : List (String × Value))

namespace Value

instance : Inhabited Value := ⟨.null⟩

abbrev Fields := List (String × Value)

mutual

def same : Value → Value → Bool
  | .null, .null => true
  | .bool a, .bool b => a == b
  | .number a, .number b => a == b
  | .string a, .string b => a == b
  | .array as, .array bs => sameItems as bs
  | .object as, .object bs => sameFields as bs
  | _, _ => false

def sameItems : List Value → List Value → Bool
  | [], [] => true
  | a :: as, b :: bs => same a b && sameItems as bs
  | _, _ => false

def sameFields : Fields → Fields → Bool
  | [], [] => true
  | (k, a) :: as, (j, b) :: bs => k == j && same a b && sameFields as bs
  | _, _ => false

end

instance : BEq Value := ⟨same⟩

/-- The kinds of value, which is what a reader of one kind expects. -/
inductive Kind
  | null
  | bool
  | number
  | string
  | array
  | object
deriving DecidableEq, Repr

def kind : Value → Kind
  | .null => .null
  | .bool _ => .bool
  | .number _ => .number
  | .string _ => .string
  | .array _ => .array
  | .object _ => .object

def Kind.name : Kind → String
  | .null => "null"
  | .bool => "boolean"
  | .number => "number"
  | .string => "string"
  | .array => "array"
  | .object => "object"

/-- A value is of another kind than the one asked for. -/
structure KindError where
  expected : Kind
deriving DecidableEq, Repr

def KindError.message (e : KindError) : String :=
  match e.expected with
  | .null => "not null"
  | .bool => "not a bool"
  | .number => "not a number"
  | .string => "not a string"
  | .array => "not an array"
  | .object => "not an object"

def asBool : Value → Except KindError Bool
  | .bool b => .ok b
  | _ => .error ⟨.bool⟩

def asNumber : Value → Except KindError Number
  | .number n => .ok n
  | _ => .error ⟨.number⟩

def asString : Value → Except KindError String
  | .string s => .ok s
  | _ => .error ⟨.string⟩

def asArray : Value → Except KindError (List Value)
  | .array items => .ok items
  | _ => .error ⟨.array⟩

def asObject : Value → Except KindError Fields
  | .object fields => .ok fields
  | _ => .error ⟨.object⟩

def isNull : Value → Bool
  | .null => true
  | _ => false

def isEmptyObject : Value → Bool
  | .object [] => true
  | _ => false

def emptyObject : Value := .object []

/-- The object of pairs in any order; the later of two with one key is kept. -/
def ofPairs (ps : Fields) : Value :=
  .object (Entries.ofList ps)

/-- The field of that name, of an object that has it. -/
def get? (v : Value) (key : String) : Option Value :=
  match v with
  | .object fields => Entries.find? key fields
  | _ => none

/-- The field of that name, unless it is missing or null. -/
def present? (v : Value) (key : String) : Option Value :=
  (v.get? key).filter (!·.isNull)

/-- One step from a value to a part of it. -/
inductive Step
  | index (i : Nat)
  | key (k : String)
deriving DecidableEq, Repr

/-- The part a step leads to, null when there is none. -/
def follow (v : Value) : Step → Value
  | .index i =>
    match v with
    | .array items => items[i]?.getD .null
    | _ => .null
  | .key k => (v.get? k).getD .null

/-- Writes a field; the answer has the field's value before. -/
def insert (v : Value) (key : String) (new : Value) : Except KindError (Option Value × Value) :=
  v.asObject.map fun fields => (Entries.find? key fields, .object (Entries.insert key new fields))

def push (v : Value) (item : Value) : Except KindError Value :=
  v.asArray.map fun items => .array (items ++ [item])

end Value

end ShapeModel
