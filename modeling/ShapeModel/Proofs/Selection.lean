import ShapeModel.Selector.Matching

/-!
# What selectors mean

A selector stands for a property of shapes and members in a model. Matching decides that property.
-/

namespace ShapeModel.Selector

set_option autoImplicit false

/-- What a selector says of a shape or member of a model. -/
def Holds (m : Model) (e : Element) : Selector → Prop
  | .all => True
  | .kind k => e.kind = k
  | .number => e.kind.isNumber
  | .simple => e.kind.isSimple
  | .collection => e.kind.isCollection
  | .hasTrait name => ∃ t, e.traits.get? name = some t
  | .and ss => ∀ s ∈ ss, Holds m e s
  | .or ss => ∃ s, ∃ _ : s ∈ ss, Holds m e s
  | .not s => ¬ Holds m e s
  | .target s => ∃ t, m.targetOf? e = some t ∧ Holds m t s
  | .orTarget s => Holds m e s ∨ ∃ t, m.targetOf? e = some t ∧ Holds m t s

section

variable {m : Model} {e : Element}

theorem matchesAll_iff {ss : List Selector} :
    matchesAll m e ss = true ↔ ∀ s ∈ ss, matches? m e s = true := by
  induction ss with
  | nil => simp [matchesAll]
  | cons s ss ih => simp [matchesAll, ih]

theorem matchesAny_iff {ss : List Selector} :
    matchesAny m e ss = true ↔ ∃ s ∈ ss, matches? m e s = true := by
  induction ss with
  | nil => simp [matchesAny]
  | cons s ss ih => simp [matchesAny, ih]

end

theorem matches?_iff_holds {m : Model} (s : Selector) (e : Element) :
    s.matches? m e = true ↔ s.Holds m e := by
  cases s with
  | all => simp [matches?, Holds]
  | kind k => simp [matches?, Holds]
  | number => simp [matches?, Holds]
  | simple => simp [matches?, Holds]
  | collection => simp [matches?, Holds]
  | hasTrait name => simp [matches?, Holds, Table.contains, Option.isSome_iff_exists]
  | and ss =>
    rw [matches?, matchesAll_iff, Holds]
    exact forall₂_congr fun s hs => matches?_iff_holds s e
  | or ss =>
    rw [matches?, matchesAny_iff, Holds]
    refine exists_congr fun s => ?_
    rw [← exists_prop]
    exact exists_congr fun hs => matches?_iff_holds s e
  | not s =>
    have ih := matches?_iff_holds (m := m) s e
    rw [matches?, Holds, ← ih, Bool.not_eq_true', Bool.not_eq_true]
  | target s =>
    rw [matches?, Holds]
    cases m.targetOf? e with
    | none => simp
    | some t => simp [matches?_iff_holds s t]
  | orTarget s =>
    rw [matches?, Bool.or_eq_true, Holds, matches?_iff_holds s e]
    cases m.targetOf? e with
    | none => simp
    | some t => simp [matches?_iff_holds s t]

end ShapeModel.Selector
