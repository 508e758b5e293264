import ShapeModel.Error
import ShapeModel.Trait

/-!
# Decoding traits

Every kind of the prelude reads its own typed payload. A table of trait values is decoded entry by
entry, through the decoders of a registry; what has no decoder is kept as a custom trait.
-/

namespace ShapeModel

set_option autoImplicit false

abbrev TraitDecoder := String → Value → Except Error Trait

abbrev TraitRegistry := Registry TraitDecoder

namespace Payload

def deprecation : Payload Deprecation :=
  record "DeprecatedTrait"
    [optionalField "message" string fun x d => { d with message := x },
     optionalField "since" string fun x d => { d with since := x }]
    ⟨none, none⟩

def lengthBounds : Payload LengthBounds :=
  record "LengthTrait"
    [optionalField "min" int64 fun x b => { b with least := x },
     optionalField "max" int64 fun x b => { b with most := x }]
    ⟨none, none⟩

def rangeBounds : Payload RangeBounds :=
  record "RangeTrait"
    [optionalField "min" float fun x b => { b with least := x },
     optionalField "max" float fun x b => { b with most := x }]
    ⟨none, none⟩

def fault : Payload Fault :=
  oneOf [(Fault.client.name, .client), (Fault.server.name, .server)]

def traitDefinition : Payload TraitDefinition :=
  record "TraitDefinitionTrait"
    [optionalField "selector" string fun x d => { d with selector := x },
     field "conflicts" (list string) fun x d => { d with conflicts := x },
     optionalField "structurallyExclusive" string fun x d => { d with structurallyExclusive := x }]
    ⟨none, [], none⟩

def pagination : Payload Pagination :=
  record "PaginatedTrait"
    [optionalField "inputToken" string fun x p => { p with inputToken := x },
     optionalField "outputToken" string fun x p => { p with outputToken := x },
     optionalField "items" string fun x p => { p with items := x },
     optionalField "pageSize" string fun x p => { p with pageSize := x }]
    ⟨none, none, none, none⟩

def ofKind (k : Trait.Kind) : Payload Trait := fun v =>
  let marker (t : Trait) := (ignored v).map fun _ => t
  match k with
  | .documentation => (string v).map .documentation
  | .required => marker .required
  | .deprecated => (deprecation v).map .deprecated
  | .sensitive => marker .sensitive
  | .pattern => (string v).map .pattern
  | .length => (lengthBounds v).map .length
  | .range => (rangeBounds v).map .range
  | .enumValue => (value v).map .enumValue
  | .error => (fault v).map .error
  | .readonly => marker .readonly
  | .idempotent => marker .idempotent
  | .input => marker .input
  | .output => marker .output
  | .default => (value v).map .default
  | .tags => (list string v).map .tags
  | .title => (string v).map .title
  | .unitType => marker .unitType
  | .internal => marker .internal
  | .definition => (traitDefinition v).map .definition
  | .timestampFormat => (string v).map .timestampFormat
  | .paginated => (pagination v).map .paginated
  | .uniqueItems => marker .uniqueItems

end Payload

namespace Trait

/-- Decodes typed data that stands under a trait name. -/
def decodePayload {α : Type} (p : Payload α) (name : String) (v : Value) : Except Error α :=
  match p.read v with
  | .ok a => .ok a
  | .error reason => .error (.decoding ("trait " ++ ticked name) reason)

def Kind.decode (k : Kind) : TraitDecoder :=
  decodePayload (Payload.ofKind k)

end Trait

def TraitRegistry.builtin : TraitRegistry :=
  ⟨"TRAIT_REGISTRY", .ofList (Trait.Kind.all.map fun k => (k.name, k.decode))⟩

/-- Decodes one trait, with the decoder of its name if there is one. -/
def TraitRegistry.decode (r : TraitRegistry) (name : String) (v : Value) : Except Error Trait :=
  match r.get? name with
  | some decode => decode name v
  | none => .ok (.custom name v)

namespace Traits

def decodeEntries (r : TraitRegistry) : List (String × Value) → Traits → Except Error Traits
  | [], ts => .ok ts
  | (name, v) :: es, ts =>
    match r.decode name v with
    | .ok t => decodeEntries r es (ts.add t)
    | .error e => .error e

def decode (r : TraitRegistry) (v : Value) : Except Error Traits :=
  match v with
  | .object es => decodeEntries r es .empty
  | _ => .error (.decoding "traits" (Value.KindError.mk .object).message)

end Traits

end ShapeModel
