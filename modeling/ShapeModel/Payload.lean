import ShapeModel.Identifier
import ShapeModel.Json.Printer
import ShapeModel.Text.Quoted

/-!
# Typed payloads

Reading typed data from a dynamic value. The value is first brought to plain form, in which a number
that holds an integer is one and a double that is not finite is null. A record is read from an
object by field names, or from an array by the order of its fields.
-/

namespace ShapeModel

set_option autoImplicit false

/-- The plain form of a number. -/
def Number.plain (n : Number) : Value :=
  match n.toInt?.bind ofInt?, n with
  | some n, _ => .number n
  | none, n => if n.toFloat.isFinite then .number (.float n.toFloat) else .null

mutual

def Value.plain : Value → Value
  | .number n => n.plain
  | .array items => .array (plainItems items)
  | .object fields => .object (plainFields fields)
  | .null => .null
  | .bool b => .bool b
  | .string s => .string s

def Value.plainItems : List Value → List Value
  | [] => []
  | v :: vs => v.plain :: plainItems vs

def Value.plainFields : List (String × Value) → List (String × Value)
  | [] => []
  | (k, v) :: fs => (k, v.plain) :: plainFields fs

end

/-- Reads typed data from a plain value, or says why it cannot. -/
abbrev Payload (α : Type) := Value → Except String α

namespace Payload

/-- A value as it is found where another one was expected. -/
def found : Value → String
  | .null => "null"
  | .bool b => "boolean `" ++ toString b ++ "`"
  | .number (.float x) => "floating point `" ++ String.ofList (Json.floatText x) ++ "`"
  | .number n => "integer `" ++ toString n ++ "`"
  | .string s => "string " ++ quotedText s
  | .array _ => "sequence"
  | .object _ => "map"

def invalidType {α : Type} (v : Value) (expected : String) : Except String α :=
  .error ("invalid type: " ++ found v ++ ", expected " ++ expected)

def invalidValue {α : Type} (v : Value) (expected : String) : Except String α :=
  .error ("invalid value: " ++ found v ++ ", expected " ++ expected)

def value : Payload Value := .ok

/-- Any value, which does not matter. -/
def ignored : Payload Unit := fun _ => .ok ()

def string : Payload String
  | .string s => .ok s
  | v => invalidType v "a string"

def identifierText : Payload String
  | .string s => .ok s
  | v => invalidType v "a shape identifier string"

def identifier : Payload Identifier := fun v =>
  (identifierText v).map .ofText

/-- An integer of a type with this name and these bounds. -/
def integer (type : String) (low high : Int) : Payload Int
  | .number (.float x) => invalidType (.number (.float x)) type
  | .number n =>
    match n.toInt? with
    | some i =>
      if low ≤ i ∧ i ≤ high then .ok i else invalidValue (.number n) type
    | none => invalidType (.number n) type
  | v => invalidType v type

def int64 : Payload Int64 := fun v =>
  (integer "i64" (-2 ^ 63) (2 ^ 63 - 1) v).map Int64.ofInt

/-- No built-in trait has one. The records that a client reads may. -/
def uint32 : Payload Nat := fun v =>
  (integer "u32" 0 (2 ^ 32 - 1) v).map Int.toNat

/-- A double; integers are rounded. -/
def float : Payload Binary64
  | .number n => .ok n.toFloat
  | v => invalidType v "f64"

/-- Null, or something. -/
def optional {α : Type} (p : Payload α) : Payload (Option α)
  | .null => .ok none
  | v => (p v).map some

def items {α : Type} (p : Payload α) : List Value → Except String (List α)
  | [] => .ok []
  | v :: vs => do
    let a ← p v
    let as ← items p vs
    .ok (a :: as)

def list {α : Type} (p : Payload α) : Payload (List α)
  | .array vs => items p vs
  | v => invalidType v "a sequence"

/-- One of the names in the list, as a text or as an object from that name to null. -/
def oneOf {α : Type} (choices : List (String × α)) : Payload α := fun v =>
  let choose (name : String) : Except String α :=
    match choices.find? (·.1 == name) with
    | some (_, a) => .ok a
    | none =>
      .error ("unknown variant `" ++ name ++ "`, expected " ++
        " or ".intercalate (choices.map fun c => "`" ++ c.1 ++ "`"))
  match v with
  | .string s => choose s
  | .object [(name, content)] => do
    let a ← choose name
    if content.isNull then .ok a else invalidType content "unit"
  | .object fields => invalidValue (.object fields) "map with a single key"
  | v => invalidType v "string or map"

/-- A field of a record that is filled step by step. -/
structure Field (ρ : Type) where
  name : String
  required : Bool
  set : Value → ρ → Except String ρ

def setByName {ρ : Type} (fields : List (Field ρ)) : List (String × Value) → ρ → Except String ρ
  | [], r => .ok r
  | (k, v) :: es, r =>
    match fields.find? (·.name == k) with
    | some f => do setByName fields es (← f.set v r)
    | none => setByName fields es r

def setInOrder {ρ : Type} : List (Field ρ × Value) → ρ → Except String ρ
  | [], r => .ok r
  | (f, v) :: rest, r => do setInOrder rest (← f.set v r)

/-- A record of that name. Fields that are not required keep their value in `start`. -/
def record {ρ : Type} (name : String) (fields : List (Field ρ)) (start : ρ) : Payload ρ
  | .object es => do
    let r ← setByName fields es start
    match fields.find? fun f => f.required && (Entries.find? f.name es).isNone with
    | some f => .error ("missing field `" ++ f.name ++ "`")
    | none => .ok r
  | .array vs => do
    let r ← setInOrder (fields.zip vs) start
    match (fields.drop vs.length).findIdx? (·.required) with
    | some i =>
      .error ("invalid length " ++ toString (vs.length + i) ++ ", expected struct " ++ name ++
        " with " ++ toString fields.length ++
        (if fields.length = 1 then " element" else " elements"))
    | none =>
      if fields.length < vs.length then
        .error ("invalid length " ++ toString vs.length ++
          ", expected fewer elements in array")
      else .ok r
  | v => invalidType v ("struct " ++ name)

def requiredField {ρ α : Type} (name : String) (p : Payload α) (put : α → ρ → ρ) : Field ρ :=
  ⟨name, true, fun v r => (p v).map (put · r)⟩

/-- A field that may be missing, but not null. -/
def field {ρ α : Type} (name : String) (p : Payload α) (put : α → ρ → ρ) : Field ρ :=
  { requiredField name p put with required := false }

/-- A field that may be null or missing. -/
def optionalField {ρ α : Type} (name : String) (p : Payload α) (put : Option α → ρ → ρ) : Field ρ :=
  field name (optional p) put

/-- Reads any value, in its plain form. -/
def read {α : Type} (p : Payload α) (v : Value) : Except String α :=
  p v.plain

end Payload

end ShapeModel
