import ShapeModel.Model
import ShapeModel.Pattern

/-!
# Conformance of values

Checks a dynamic value against a shape of a model, part by part. The first fault found is reported
with the path to it. The recursion goes down the value, so cycles among the shapes do no harm.
Patterns are left to an engine.
-/

namespace ShapeModel

set_option autoImplicit false

mutual

/-- A size of values in which the parts of a value, and a text in place of any field's name, are
smaller than the value. -/
def Value.weight : Value → Nat
  | .array items => weightItems items + 1
  | .object fields => weightFields fields + 1
  | _ => 1

def Value.weightItems : List Value → Nat
  | [] => 0
  | v :: vs => v.weight + weightItems vs + 1

def Value.weightFields : List (String × Value) → Nat
  | [] => 0
  | (_, v) :: fs => v.weight + weightFields fs + 2

end

/-- The size that length bounds are about: characters, items or fields. -/
def Value.size? : Value → Option Nat
  | .string s => some s.length
  | .array items => some items.length
  | .object fields => some fields.length
  | _ => none

/-- Whether the text matches; a malformed pattern matches everything. -/
def matchesPattern [PatternEngine] (pattern text : String) : Bool :=
  match PatternEngine.compile pattern with
  | .ok q => PatternEngine.isMatch q text
  | .error _ => true

/-- The first item that equals one before it, with its index. -/
def firstRepeat (before : List Value) : List Value → Option (Nat × Value)
  | [] => none
  | v :: vs =>
    if before.contains v then some (before.length, v) else firstRepeat (before ++ [v]) vs

namespace Model

variable [PatternEngine]

def violated (p : Path) (k : Trait.Kind) (reason : String) : Except Error Unit :=
  .error (.validation (.constraintViolated p k.name reason))

def mismatch (p : Path) (id : Identifier) (expected : String) (v : Value) : Except Error Unit :=
  .error (.validation (.valueMismatch p id expected v.kind.name))

def checkLength (p : Path) (v : Value) (ts : Traits) : Except Error Unit :=
  match ts.length?, v.size? with
  | some b, some n =>
    if b.contains n then .ok ()
    else violated p .length ("length " ++ toString n ++ " is out of bounds")
  | _, _ => .ok ()

def checkRange (p : Path) (v : Value) (ts : Traits) : Except Error Unit :=
  match ts.range?, v with
  | some b, .number n =>
    match n.asFloat with
    | some x =>
      if b.contains x then .ok () else violated p .range (toString x ++ " is out of range")
    | none => .ok ()
  | _, _ => .ok ()

def checkPattern (p : Path) (v : Value) (ts : Traits) : Except Error Unit :=
  match ts.pattern?, v with
  | some pattern, .string s =>
    if matchesPattern pattern s then .ok ()
    else violated p .pattern (ticked s ++ " does not match " ++ ticked pattern)
  | _, _ => .ok ()

/-- Length, range and pattern. A value of the wrong kind for a constraint meets it. -/
def checkConstraints (p : Path) (v : Value) (ts : Traits) : Except Error Unit := do
  checkLength p v ts
  checkRange p v ts
  checkPattern p v ts

def checkSimple (p : Path) (v : Value) (id : Identifier) (k : SimpleKind) : Except Error Unit :=
  match k with
  | .blob | .string =>
    match v with
    | .string _ => .ok ()
    | v => mismatch p id "a string" v
  | .boolean =>
    match v with
    | .bool _ => .ok ()
    | v => mismatch p id "a boolean" v
  | .byte | .short | .integer | .long | .bigInteger =>
    match v with
    | .number n => if n.isInteger then .ok () else mismatch p id "an integer" v
    | v => mismatch p id "an integer" v
  | .float | .double | .bigDecimal =>
    match v with
    | .number _ => .ok ()
    | v => mismatch p id "a number" v
  | .timestamp =>
    match v with
    | .string _ | .number _ => .ok ()
    | v => mismatch p id "a timestamp" v
  | .document => .ok ()

/-- Sets and lists of unique items hold no item twice. -/
def checkUnique (p : Path) (items : List Value) (id : Identifier) (k : CollectionKind)
    (ts : Traits) : Except Error Unit :=
  if k = .set ∨ ts.has .uniqueItems then
    match firstRepeat [] items with
    | some (i, v) => mismatch (p.item i) id "unique items" v
    | none => .ok ()
  else .ok ()

/-- Whether a value is that of a member of an enumeration: the value that is given for it, else,
for texts only, its name. -/
def isEnumValue (ints : Bool) (v : Value) (name : String) (m : Member) : Bool :=
  match m.traits.enumValue? with
  | some w => w == v
  | none =>
    match v with
    | .string s => !ints && s == name
    | _ => false

def checkEnum (p : Path) (v : Value) (id : Identifier) (ints : Bool) (ms : Members) :
    Except Error Unit :=
  if ms.entries.any fun (name, m) => isEnumValue ints v name m then .ok ()
  else mismatch p id (if ints then "a declared intEnum value" else "a declared enum value") v

/-- The first required member that an object lacks. -/
def missingMember? (ms : Members) (fields : List (String × Value)) : Option String :=
  (ms.entries.find? fun (name, m) =>
    m.traits.has .required && (Entries.find? name fields).isNone).map (·.1)

def checkRequired (p : Path) (ms : Members) (fields : List (String × Value)) :
    Except Error Unit :=
  match missingMember? ms fields with
  | some name => .error (.validation (.missingRequiredMember p name))
  | none => .ok ()

mutual

/-- A value of a member meets its constraints and conforms to its target. -/
def checkMember (m : Model) (p : Path) (v : Value) (x : Member) : Except Error Unit := do
  checkConstraints p v x.traits
  match m.find? x.target with
  | some (.shape s) => checkShape m p v s x.target
  | some (.member _) =>
    .error (.validation (.valueMismatch p x.target "a shape target" "a member"))
  | none => .error (.shapeNotFound x.target)
termination_by 2 * v.weight + 1

def checkShape (m : Model) (p : Path) (v : Value) (s : Shape) (id : Identifier) :
    Except Error Unit := do
  checkConstraints p v s.traits
  match s.body with
  | .simple k => checkSimple p v id k
  | .collection k x =>
    match v with
    | .array items =>
      checkItems m p 0 items x
      checkUnique p items id k s.traits
    | v => mismatch p id "an array" v
  | .map key value =>
    match v with
    | .object fields => checkEntries m p fields key value
    | v => mismatch p id "an object" v
  | .aggregate .struct ms =>
    match v with
    | .object fields =>
      checkFields m p fields ms
      checkRequired p ms fields
    | v => mismatch p id "an object" v
  | .aggregate .union ms =>
    match v with
    | .object [(name, w)] =>
      checkFields m p [(name, w)] ms
      checkRequired p ms [(name, w)]
    | v => mismatch p id "an object with exactly one member" v
  | .aggregate .enum ms => checkEnum p v id false ms
  | .aggregate .intEnum ms => checkEnum p v id true ms
  | .service _ | .operation _ | .resource _ => mismatch p id "a data shape" v
termination_by 2 * v.weight
decreasing_by
  all_goals
    simp only [Value.weight, Value.weightFields]
    omega

def checkItems (m : Model) (p : Path) (i : Nat) (items : List Value) (x : Member) :
    Except Error Unit :=
  match items with
  | [] => .ok ()
  | v :: vs => do
    checkMember m (p.item i) v x
    checkItems m p (i + 1) vs x
termination_by 2 * Value.weightItems items
decreasing_by
  all_goals
    simp only [Value.weightItems]
    omega

def checkEntries (m : Model) (p : Path) (fields : List (String × Value)) (key value : Member) :
    Except Error Unit :=
  match fields with
  | [] => .ok ()
  | (k, v) :: fs => do
    checkMember m (p.field k) (.string k) key
    checkMember m (p.field k) v value
    checkEntries m p fs key value
termination_by 2 * Value.weightFields fields
decreasing_by
  all_goals
    simp only [Value.weightFields, Value.weight]
    omega

/-- The fields of a structure or union, each of which is a member of it. -/
def checkFields (m : Model) (p : Path) (fields : List (String × Value)) (ms : Members) :
    Except Error Unit :=
  match fields with
  | [] => .ok ()
  | (name, v) :: fs =>
    match ms.get? name with
    | none => .error (.validation (.unknownMember p name))
    | some x => do
      checkMember m (p.field name) v x
      checkFields m p fs ms
termination_by 2 * Value.weightFields fields
decreasing_by
  all_goals
    simp only [Value.weightFields]
    omega

end

def checkValue (m : Model) (v : Value) (id : Identifier) : Except Error Unit :=
  match m.find? id with
  | some (.shape s) => checkShape m .root v s id
  | some (.member x) => checkMember m .root v x
  | none => .error (.shapeNotFound id)

end Model

end ShapeModel
