import ShapeModel.Proofs.Document.Annotation
import ShapeModel.Proofs.Document.Grammar
import ShapeModel.Proofs.Document.Modes

/-!
# Spellings of a trait's value

Named values in the parentheses of an applied trait, and an object of the same named values there.
Both are read as one object, and with nothing named they are what a trait without parentheses is.
-/

namespace ShapeModel.Document

set_option autoImplicit false

open Token (Kind)

/-- A trait's word, and tokens in parentheses behind it. -/
def parenthesized (w : String) (ts : List Kind) : List Kind :=
  .word w :: .grammar '(' :: (ts ++ [.grammar ')'])

def braced (ts : List Kind) : List Kind :=
  .grammar '{' :: (ts ++ [.grammar '}'])

variable {s : Scope} {breaks gap gap' ts rest : List Kind} {pairs fields : Value.Fields}
  {w : String} {c : Cursor}

theorem IsObject.ofPairs_eq (h : IsObject pairs fields) : Value.ofPairs pairs = .object fields := by
  rw [isObject_iff.mp h]
  rfl

theorem isObject_nil : IsObject [] [] :=
  ⟨.nil, fun _ => rfl⟩

theorem isTraitValue_entries (h : DenoteEntries s .traitValue ts pairs) :
    IsTraitValue s (ts ++ [.grammar ')']) (.ofPairs pairs) := by
  refine .fields (areFields_of_denoteEntries h .nil) ?_
  cases h with
  | nil => simp
  | cons hk => cases hk <;> simp

theorem isTraitValue_braced (hbreaks : Breaks breaks) (hgap : Breaks gap)
    (h : DenoteEntries s .traitValue ts pairs) :
    IsTraitValue s (braced (breaks ++ ts) ++ (gap ++ [.grammar ')'])) (.ofPairs pairs) := by
  have hobject : IsValue s .traitValue (braced (breaks ++ ts)) (.ofPairs pairs) := by
    rw [braced, List.append_assoc]
    exact .object (areFields_of_denoteEntries h hbreaks)
  exact .value hobject hgap

theorem readTrait_entries (hbreaks : Breaks breaks) (h : DenoteEntries s .traitValue ts pairs)
    (hobject : IsObject pairs fields) (hc : c.kinds = parenthesized w (breaks ++ ts) ++ rest) :
    (readTrait s c).Gives (s.qualify true (appliedName w), .object fields) rest := by
  rw [← hobject.ofPairs_eq]
  apply readTrait_of_isTraitValue (isTraitValue_entries h) hbreaks
  rw [hc, parenthesized, List.append_assoc]

theorem readTrait_braced (hgap : Breaks gap) (hbreaks : Breaks breaks) (hgap' : Breaks gap')
    (h : DenoteEntries s .traitValue ts pairs) (hobject : IsObject pairs fields)
    (hc : c.kinds = parenthesized w (gap ++ (braced (breaks ++ ts) ++ gap')) ++ rest) :
    (readTrait s c).Gives (s.qualify true (appliedName w), .object fields) rest := by
  rw [← hobject.ofPairs_eq]
  apply readTrait_of_isTraitValue (isTraitValue_braced hbreaks hgap' h) hgap
  rw [hc, parenthesized, List.append_assoc, List.append_assoc]

/-- Named values in parentheses, and the object of them there, are read as the same trait with the
same object, to their last token. With nothing named, the trait is what it is without parentheses.
Where the place of reading is kept as a state, it is not in the value of a trait behind the
parentheses, also if what stands in them cannot be read. -/
theorem readTrait_spellings (s : Scope) (w : String) :
    (∀ (breaks ts : List Kind) (pairs fields : Value.Fields), Breaks breaks →
      DenoteEntries s .traitValue ts pairs → IsObject pairs fields →
      ∀ gap gap' : List Kind, Breaks gap → Breaks gap' → ∀ (c c' : Cursor) (rest rest' : List Kind),
        c.kinds = parenthesized w (breaks ++ ts) ++ rest →
        c'.kinds = parenthesized w (gap ++ (braced (breaks ++ ts) ++ gap')) ++ rest' →
          (readTrait s c).Gives (s.qualify true (appliedName w), .object fields) rest ∧
          (readTrait s c').Gives (s.qualify true (appliedName w), .object fields) rest') ∧
    (∀ (breaks : List Kind), Breaks breaks → ∀ (c : Cursor) (rest : List Kind),
      (c.kinds = .word w :: rest ∧ rest.head? ≠ some (.grammar '(')) ∨
        c.kinds = parenthesized w breaks ++ rest ∨
        c.kinds = parenthesized w (braced breaks) ++ rest →
          (readTrait s c).Gives (s.qualify true (appliedName w), .emptyObject) rest) ∧
    ∀ (m : Modes) (c : Cursor) (ks : List Kind), c.kinds = .word w :: .grammar '(' :: ks →
      (modalTrait s m c).2 = m.setTrait false ∧ (m.setTrait false).context ≠ .traitValue ∧
      (m.inMetadata = false → (modalTrait s m c).1 = readTrait s c) := by
  refine ⟨?_, ?_, ?_⟩
  · intro breaks ts pairs fields hbreaks h hobject gap gap' hgap hgap' c c' rest rest' hc hc'
    exact ⟨readTrait_entries hbreaks h hobject hc,
      readTrait_braced hgap hbreaks hgap' h hobject hc'⟩
  · rintro breaks hbreaks c rest (⟨hc, hrest⟩ | hc | hc)
    · exact readTrait_of_isTrait (.bare w) hc hrest
    · apply readTrait_entries hbreaks .nil isObject_nil
      rwa [List.append_nil]
    · apply readTrait_braced .nil hbreaks .nil .nil isObject_nil
      rwa [List.append_nil, List.append_nil, List.nil_append]
  · intro m c ks hc
    exact ⟨modes_modalTrait hc, m.context_setTrait_false, fun hm => modalTrait_eq hm c⟩

end ShapeModel.Document
