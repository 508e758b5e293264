import ShapeModel.Document
import ShapeModel.Json.Reader
import ShapeModel.Model.Decode

/-!
# Dialects

The kinds of shape and of trait that are known when models are loaded. A dialect starts with all of
the built-in kinds; others can be registered, over those of the same name.
-/

namespace ShapeModel

set_option autoImplicit false

/-- A source with this text, unless the text is too long. -/
def Source.ofContents (file text : String) : Except Error Source :=
  if Source.maxSize < text.utf8ByteSize then
    .error (.decoding file ("exceeds maximum allowed model size " ++ toString Source.maxSize))
  else .ok ⟨file, text⟩

theorem Source.ofContents_eq_ok_iff {file text : String} {s : Source} :
    Source.ofContents file text = .ok s ↔
      text.utf8ByteSize ≤ Source.maxSize ∧ s = ⟨file, text⟩ := by
  unfold Source.ofContents
  by_cases h : Source.maxSize < text.utf8ByteSize
  · rw [if_pos h]
    exact iff_of_false nofun fun hs => Nat.not_le.mpr h hs.1
  · rw [if_neg h, and_iff_right (Nat.not_lt.mp h), Except.ok.injEq, eq_comm]

structure Dialect where
  shapes : ShapeRegistry
  traits : TraitRegistry

namespace Dialect

def builtin : Dialect := ⟨.builtin, .builtin⟩

def registerShapeKinds (d : Dialect) (kinds : List (String × ShapeDecoder)) :
    Except RegistryError Dialect :=
  match d.shapes.registerAll kinds with
  | (r, .ok ()) => .ok { d with shapes := r }
  | (_, .error e) => .error e

def registerTraitKinds (d : Dialect) (kinds : List (String × TraitDecoder)) :
    Except RegistryError Dialect :=
  match d.traits.registerAll kinds with
  | (r, .ok ()) => .ok { d with traits := r }
  | (_, .error e) => .error e

def syntaxTree (d : Dialect) (s : Source) : Except Error Value := do
  let ts ← s.tokens.mapError .lexical
  (Document.ofTokens d.traits.names s ts).mapError .syntactic

def ofValue (d : Dialect) (ast : Value) : Except Error Model :=
  Model.decode d.shapes d.traits ast

def ofSource (d : Dialect) (s : Source) : Except Error Model := do
  d.ofValue (← d.syntaxTree s)

/-- What a text without a file of its own is called in messages. -/
def unnamed : String := "<idl>"

def ofText (d : Dialect) (text : String) : Except Error Model :=
  d.ofSource ⟨unnamed, text⟩

/-- The model that a text of bounded size stands for. -/
def load (d : Dialect) (text : String) : Except Error Model := do
  d.ofSource (← Source.ofContents unnamed text)

theorem load_eq_ofText {text : String} (h : text.utf8ByteSize ≤ Source.maxSize) (d : Dialect) :
    d.load text = d.ofText text := by
  have hsource := Source.ofContents_eq_ok_iff.mpr ⟨h, Eq.refl (⟨unnamed, text⟩ : Source)⟩
  unfold load
  rw [hsource]
  rfl

def ofJson (d : Dialect) (json : String) : Except Error Model :=
  match Json.parse? json with
  | some ast => d.ofValue ast
  | none => .error (.decoding "JSON AST" "malformed JSON")

end Dialect

end ShapeModel
