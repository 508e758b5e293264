import ShapeModel.Proofs.Model.UpdateTraits

/-!
# Adding traits

Adding a trait to a shape or a member succeeds where that is found, and changes this one trait and
nothing else: neither other traits, nor what shapes consist of, nor other shapes.
-/

namespace ShapeModel

set_option autoImplicit false

theorem Traits.get?_add (ts : Traits) (t : Trait) (name : String) :
    (ts.add t).get? name = if name = t.name then some t else ts.get? name := by
  split
  · next h => rw [h, Traits.add, Table.get?_insert_self]
  · next h => exact Table.get?_insert_of_ne _ h _

/-- The shape with a trait added, to the shape or to the member that is meant. -/
def Shape.addTrait? (s : Shape) (id : Identifier) (t : Trait) : Option Shape :=
  match id.member with
  | none => some { s with traits := s.traits.add t }
  | some name => s.updateMember? name fun x => { x with traits := x.traits.add t }

namespace Model

/-- A trait of the shape or member at an identifier. -/
def trait? (m : Model) (id : Identifier) (name : String) : Option Trait :=
  (m.find? id).bind (·.traits.get? name)

/-- The second model is the first with a trait at an identifier, over one of the same name if there
is one. Nothing else is changed. -/
structure TraitAdded (m : Model) (id : Identifier) (t : Trait) (m' : Model) : Prop where
  version : m'.version = m.version
  metadata : m'.metadata = m.metadata
  shapes : ∀ k, k ≠ id.root → m'.shapes.get? k = m.shapes.get? k
  bodies : ∀ k, (m'.shapes.get? k).map (·.body.bare) = (m.shapes.get? k).map (·.body.bare)
  traits : ∀ k name, m'.trait? k name =
    if k = id ∧ name = t.name then some t else m.trait? k name

variable {m m' : Model} {id : Identifier} {t : Trait} {s : Shape}

theorem trait?_eq (m : Model) (id : Identifier) (name : String) :
    m.trait? id name = (m.traits? id).bind (·.get? name) := by
  rw [trait?, traits?]
  cases m.find? id <;> rfl

theorem addTrait_eq_ok_iff (hs : m.shapes.get? id.root = some s) :
    m.addTrait t id = .ok m' ↔
      ∃ s', s.addTrait? id t = some s' ∧ m.insertShape id.root s' = m' :=
  updateTraits_eq_ok_iff hs

/-- A trait can be added wherever something is found. -/
theorem exists_addTrait (h : (m.find? id).isSome = true) (t : Trait) :
    ∃ m', m.addTrait t id = .ok m' :=
  exists_updateTraits_iff.mpr h

/-- One trait is changed where traits are updated at one name. -/
theorem TraitsUpdated.trait? {f : Traits → Traits} {new : Option Trait} {n : String}
    (h : m.TraitsUpdated id f m') (hfound : (m.find? id).isSome = true)
    (hf : ∀ ts name, (f ts).get? name = if name = n then new else ts.get? name)
    (k : Identifier) (name : String) :
    m'.trait? k name = if k = id ∧ name = n then new else m.trait? k name := by
  rw [trait?_eq, trait?_eq, h.traits]
  by_cases hk : k = id
  · rw [isSome_find?] at hfound
    obtain ⟨ts, hts⟩ := Option.isSome_iff_exists.mp hfound
    rw [if_pos hk, hk, hts, Option.map_some, Option.bind_some, Option.bind_some, hf]
    simp only [true_and]
  · rw [if_neg hk, if_neg fun h => hk h.1]

theorem traitAdded_of_addTrait (h : m.addTrait t id = .ok m') : m.TraitAdded id t m' := by
  have hupdated := traitsUpdated_of_updateTraits h
  have hfound := exists_updateTraits_iff.mp ⟨m', h⟩
  exact ⟨hupdated.version, hupdated.metadata, hupdated.shapes, hupdated.bodies,
    hupdated.trait? hfound fun ts => ts.get?_add t⟩

end Model

end ShapeModel
