import ShapeModel.Proofs.Conformance
import ShapeModel.Proofs.Model.UpdateTraits
import ShapeModel.Proofs.Validity

/-!
# Adding shapes

A shape under a new identifier takes nothing away. What was found is found again, so values that
conformed still do, and selectors say the same of members whose targets were there. Only custom
traits look for something that may be missing, a definition of theirs; so a valid model stays valid
with a new shape that is valid in it and defines no trait.
-/

namespace ShapeModel

set_option autoImplicit false

namespace Model

/-- Whatever the first model has at an identifier, the second has there too. -/
def Within (m m' : Model) : Prop :=
  ∀ id e, m.find? id = some e → m'.find? id = some e

/-- The target of a member is a shape of the model. Shapes have no target. -/
def Resolves (m : Model) (e : Element) : Prop :=
  ∀ id, e.target? = some id → ∃ s, m.find? id = some (.shape s)

section Conformance

variable [PatternEngine] {m m' : Model}

mutual

/-- A derivation of conformance only ever uses that something is found. -/
theorem MemberConforms.mono {v : Value} {x : Member} (h : m.Within m') :
    m.MemberConforms v x → m'.MemberConforms v x
  | .intro hx hs hv => .intro hx (h _ _ hs) (hv.mono h)

theorem Conforms.mono {v : Value} {s : Shape} (h : m.Within m') : m.Conforms v s → m'.Conforms v s
  | .intro hs hv => .intro hs (hv.mono h)

theorem Fits.mono {v : Value} {ts : Traits} {b : Shape.Body} (h : m.Within m') :
    m.Fits v ts b → m'.Fits v ts b
  | .simple hv => .simple hv
  | .collection hv hu => .collection (fun w hw => (hv w hw).mono h) hu
  | .map hk hv =>
    .map (fun name w hw => (hk name w hw).mono h) fun name w hw => (hv name w hw).mono h
  | .aggregate hk hn hv hr =>
    .aggregate hk hn (fun name w x hw hx => (hv name w x hw hx).mono h) hr
  | .enum hx hv => .enum hx hv
  | .intEnum hx hv => .intEnum hx hv

end

theorem checkValue_mono {v : Value} {id : Identifier} (h : m.Within m')
    (hv : m.checkValue v id = .ok ()) : m'.checkValue v id = .ok () := by
  unfold checkValue at hv ⊢
  split at hv
  · next s hs =>
    rw [h _ _ hs]
    exact (checkShape_eq_ok_iff ..).mpr (((checkShape_eq_ok_iff ..).mp hv).mono h)
  · next x hx =>
    rw [h _ _ hx]
    exact (checkMember_eq_ok_iff ..).mpr (((checkMember_eq_ok_iff ..).mp hv).mono h)
  · cases hv

end Conformance

section Within

variable {m m' : Model}

theorem Leads.mono {role : Role} {x : Member} (h : m.Within m') (hx : m.Leads role x) :
    m'.Leads role x := by
  obtain ⟨s, hs, hk⟩ := hx
  exact ⟨s, h _ _ hs, hk⟩

theorem targetOf?_eq {e : Element} (h : m.Within m') (he : m.Resolves e) :
    m'.targetOf? e = m.targetOf? e := by
  rw [targetOf?, targetOf?]
  cases hid : e.target? with
  | none => rw [Option.bind_none, Option.bind_none]
  | some id =>
    obtain ⟨s, hs⟩ := he id hid
    rw [Option.bind_some, Option.bind_some, hs, h _ _ hs]

theorem Resolves.target {e t : Element} (he : m.Resolves e) (ht : m.targetOf? e = some t) :
    m.Resolves t := by
  obtain ⟨id, hid, ht⟩ := Option.bind_eq_some_iff.mp ht
  obtain ⟨s, hs⟩ := he id hid
  cases hs.symm.trans ht
  rintro _ ⟨⟩

end Within

end Model

/-- Negated or not, a selector is about an element and what its target is. -/
theorem Selector.holds_congr {m m' : Model} (h : m.Within m') (s : Selector) (e : Element)
    (he : m.Resolves e) : s.Holds m' e ↔ s.Holds m e := by
  cases s with
  | and ss =>
    rw [Holds, Holds]
    exact forall₂_congr fun s hs => holds_congr h s e he
  | or ss =>
    rw [Holds, Holds]
    exact exists_congr fun s => exists_congr fun hs => holds_congr h s e he
  | not s => rw [Holds, Holds, holds_congr h s e he]
  | target s =>
    rw [Holds, Holds, Model.targetOf?_eq h he]
    exact exists_congr fun t => and_congr_right fun ht => holds_congr h s t (he.target ht)
  | orTarget s =>
    rw [Holds, Holds, Model.targetOf?_eq h he]
    refine or_congr (holds_congr h s e he) ?_
    exact exists_congr fun t => and_congr_right fun ht => holds_congr h s t (he.target ht)
  | _ => rw [Holds, Holds]

namespace Trait

variable {m m' : Model}

theorem selectorIn_congr (h : ∀ name, definitionOf? m' name = definitionOf? m name) (t : Trait) :
    t.selectorIn m' = t.selectorIn m := by
  cases t with
  | custom name v => rw [selectorIn, selectorIn, customSelector, customSelector, h]
  | _ => rfl

theorem InOrder.mono [PatternEngine] {lengths : LengthBounds → Prop} {t : Trait} (h : m.Within m')
    (hdefinitions : ∀ name, definitionOf? m' name = definitionOf? m name)
    (ht : t.InOrder lengths m) : t.InOrder lengths m' := by
  cases t with
  | custom name v =>
    rw [InOrder, ← isSome_definitionOf?_iff] at ht ⊢
    intro hsome
    rw [hdefinitions] at hsome
    exact Model.checkValue_mono h (ht hsome)
  | _ => exact ht

end Trait

namespace Model

section

variable [PatternEngine]

theorem TraitsInOrder.mono {m m' : Model} {lengths : LengthBounds → Prop} {e : Element}
    (h : m.Within m')
    (hdefinitions : ∀ name, Trait.definitionOf? m' name = Trait.definitionOf? m name)
    (he : m.Resolves e) (hts : m.TraitsInOrder lengths e) : m'.TraitsInOrder lengths e := by
  intro name t ht
  obtain ⟨hallowed, horder⟩ := hts name t ht
  refine ⟨?_, horder.mono h hdefinitions⟩
  rw [Trait.Allowed, Trait.selectorIn_congr hdefinitions]
  exact (Selector.holds_congr h _ e he).mpr hallowed

/-- Traits are defined by shapes only, never by members. -/
theorem definition?_eq_none_of_traitsInOrder {m : Model} {lengths : LengthBounds → Prop}
    {x : Member} (h : m.TraitsInOrder lengths (.member x)) : x.traits.definition? = none := by
  unfold Traits.definition?
  split
  · next d hd =>
    have hallowed := (h _ _ hd).1
    simp [Trait.Allowed, Trait.selectorIn, Trait.kind?, Trait.Kind.selector, Selector.Holds,
      Element.kind] at hallowed
  · rfl

end

section Insert

variable {m : Model} {x : Identifier} {s : Shape}

theorem within_insertShape (hx : m.shapes.get? x = none) (s : Shape) :
    m.Within (m.insertShape x s) := by
  have hget : ∀ k t, m.shapes.get? k = some t → (m.insertShape x s).shapes.get? k = some t := by
    intro k t ht
    have hk : k ≠ x := by
      rintro rfl
      cases hx.symm.trans ht
    rw [insertShape, Table.get?_insert_of_ne _ hk, ht]
  intro id e he
  unfold find? at he ⊢
  cases hid : id.member with
  | none =>
    simp only [hid] at he ⊢
    obtain ⟨t, ht, rfl⟩ := Option.map_eq_some_iff.mp he
    rw [hget id t ht, Option.map_some]
  | some name =>
    simp only [hid] at he ⊢
    obtain ⟨y, hy, rfl⟩ := Option.map_eq_some_iff.mp he
    obtain ⟨t, ht, hy⟩ := Option.bind_eq_some_iff.mp hy
    rw [hget id.root t ht, Option.bind_some, hy, Option.map_some]

/-- What is found in addition is the new shape, or a member of it. -/
theorem find?_insertShape_cases {id : Identifier} {e : Element} (hid : m.find? id = none)
    (he : (m.insertShape x s).find? id = some e) :
    e = .shape s ∨ ∃ name y, s.member? name = some y ∧ e = .member y := by
  unfold find? at hid he
  cases hmember : id.member with
  | none =>
    simp only [hmember] at hid he
    by_cases hx : id = x
    · rw [hx, insertShape, Table.get?_insert_self] at he
      cases he
      exact .inl rfl
    · rw [insertShape, Table.get?_insert_of_ne _ hx, hid] at he
      cases he
  | some name =>
    simp only [hmember] at hid he
    by_cases hx : id.root = x
    · rw [hx, insertShape, Table.get?_insert_self, Option.bind_some] at he
      obtain ⟨y, hy, rfl⟩ := Option.map_eq_some_iff.mp he
      exact .inr ⟨name, y, hy, rfl⟩
    · rw [insertShape, Table.get?_insert_of_ne _ hx, hid] at he
      cases he

variable [PatternEngine]

/-- No trait comes to be defined by a shape that defines none and is valid. -/
theorem definitionOf?_insertShape (hx : m.shapes.get? x = none)
    (hs : s.traits.definition? = none)
    (hvalid : (m.insertShape x s).validateShape x s = .ok ()) (name : String) :
    Trait.definitionOf? (m.insertShape x s) name = Trait.definitionOf? m name := by
  rw [Trait.definitionOf?, Trait.definitionOf?]
  cases hold : m.find? (.ofText name) with
  | some e => rw [within_insertShape hx s _ _ hold]
  | none =>
    cases hnew : (m.insertShape x s).find? (.ofText name) with
    | none => rfl
    | some e =>
      rcases find?_insertShape_cases hold hnew with rfl | ⟨name, y, hy, rfl⟩
      · exact hs
      · obtain ⟨k, ms, hbody, hy⟩ := Shape.exists_aggregate_of_member? hy
        have hy : s.body.Has .data y := hbody ▸ .named hy
        exact definition?_eq_none_of_traitsInOrder ((validateShape_eq_ok_iff.mp hvalid).1 _ _ hy).2

/-- A new shape that is valid where it stands, and that defines no trait, leaves every other shape
valid. -/
theorem validate_insertShape (hm : m.validate = .ok ()) (hx : m.shapes.get? x = none)
    (hs : s.traits.definition? = none)
    (hvalid : (m.insertShape x s).validateShape x s = .ok ()) :
    (m.insertShape x s).validate = .ok () := by
  have hwithin := within_insertShape hx s
  have hdefinitions := definitionOf?_insertShape hx hs hvalid
  rw [validate_eq_ok_iff] at hm ⊢
  intro id t ht
  by_cases hid : id = x
  · subst hid
    rw [insertShape, Table.get?_insert_self] at ht
    cases ht
    exact hvalid
  · rw [insertShape, Table.get?_insert_of_ne _ hid] at ht
    obtain ⟨hreferences, htraits⟩ := validateShape_eq_ok_iff.mp (hm id t ht)
    refine validateShape_eq_ok_iff.mpr ⟨?_, ?_⟩
    · intro role y hy
      obtain ⟨hleads, hmember⟩ := hreferences role y hy
      refine ⟨hleads.mono hwithin, hmember.mono hwithin hdefinitions ?_⟩
      rintro _ ⟨⟩
      obtain ⟨r, hr, _⟩ := hleads
      exact ⟨r, hr⟩
    · apply htraits.mono hwithin hdefinitions
      intro k hk
      cases hk

end Insert

/-- A trait for members whose targets are no services. -/
def serviceless : Trait :=
  .extended "a#serviceless" .null (.not (.target (.kind .service)))

/-- A custom trait on a text, under whose name nothing is found as yet, and a negated selector on a
member. -/
def taggedModel : Model :=
  .ofShapes
    [(.ofText "a#Text", ⟨.simple .string, .ofList [.custom "a#tag" .null]⟩),
      (.ofText "a#Pair", ⟨.aggregate .struct (.ofList
        [("first", ⟨.ofText "a#Text", .ofList [serviceless]⟩),
          ("second", ⟨.ofText "a#Pair", .empty⟩)]), .empty⟩)]

/-- A structure that refers to itself and to the shapes that were there. -/
def tagShape : Shape :=
  ⟨.aggregate .struct (.ofList
    [("pair", ⟨.ofText "a#Pair", .ofList [serviceless, .required]⟩),
      ("parent", ⟨.ofText "a#tag", .empty⟩)]), .empty⟩

/-- The custom trait now has a shape under its name, and stays in order. -/
theorem validate_insertShape_tag :
    taggedModel.validate = .ok () ∧ taggedModel.shapes.get? (.ofText "a#tag") = none ∧
    (taggedModel.insertShape (.ofText "a#tag") tagShape).validate = .ok () :=
  ⟨rfl, rfl, validate_insertShape rfl rfl rfl rfl⟩

end Model

end ShapeModel
