import ShapeModel.Proofs.Model.AddTrait

/-!
# Changes of one trait

Attaching and detaching a trait are changes in place, of one trait at one identifier. They succeed
exactly where something is found; else they say what is missing and leave the model as it was, as
nothing is written before the member is found. A trait that was added under a new name can be
removed again, and then the model is the one before.
-/

namespace ShapeModel

set_option autoImplicit false

theorem Traits.get?_erase (ts : Traits) (n name : String) :
    (ts.erase n).get? name = if name = n then none else ts.get? name := by
  split
  · next h => rw [h, Table.get?_erase_self]
  · next h => exact Table.get?_erase_of_ne _ h

namespace Model

/-- The second model is the first with what stands under a name at an identifier replaced. What is
found stays, of the same kind and with the same target, and so do members and all other traits. -/
structure TraitReplaced (m : Model) (id : Identifier) (name : String) (new : Option Trait)
    (m' : Model) : Prop where
  version : m'.version = m.version
  metadata : m'.metadata = m.metadata
  found : ∀ k, (m'.find? k).map (fun e => (e.kind, e.target?)) =
    (m.find? k).map fun e => (e.kind, e.target?)
  traits : ∀ k n, m'.trait? k n = if k = id ∧ n = name then new else m.trait? k n
  shapes : ∀ k, k ≠ id.root → m'.shapes.get? k = m.shapes.get? k
  bodies : ∀ k, (m'.shapes.get? k).map (·.body.bare) = (m.shapes.get? k).map (·.body.bare)

/-- What comes of replacing a trait in place: success where something is found, with nothing else
changed, or else a failure that names what is missing and leaves the model as it was. -/
structure Replaces (m : Model) (id : Identifier) (name : String) (new : Option Trait)
    (result : Model × Except Error Unit) : Prop where
  succeeds : result.2 = .ok () ↔ (m.find? id).isSome = true
  replaced : result.2 = .ok () → m.TraitReplaced id name new result.1
  noShape : m.shapes.get? id.root = none → result.2 = .error (.shapeNotFound id.root)
  noMember : (m.shapes.get? id.root).isSome = true → m.find? id = none →
    result.2 = .error (.memberNotFound id.root (id.member.getD ""))
  unchanged : (∃ e, result.2 = .error e) → result.1 = m

variable {m m' : Model} {id : Identifier} {name : String} {new : Option Trait}

theorem updateTraits_eq_ok_of_changeTraits {f : Traits → Traits}
    (h : (m.changeTraits id f).2 = .ok ()) :
    m.updateTraits id f = .ok (m.changeTraits id f).1 :=
  changed_eq_ok_iff.mpr ⟨h, rfl⟩

/-- A change in place succeeds together with the model that it leaves. -/
theorem changeTraits_eq_ok_iff {f : Traits → Traits} :
    (m.changeTraits id f).2 = .ok () ↔ (m.find? id).isSome = true := by
  rw [← @exists_updateTraits_iff m id f]
  constructor
  · intro h
    exact ⟨_, updateTraits_eq_ok_of_changeTraits h⟩
  · rintro ⟨m', hm'⟩
    exact (changed_eq_ok_iff.mp hm').1

theorem traitReplaced_of_updateTraits {f : Traits → Traits}
    (hf : ∀ ts n, (f ts).get? n = if n = name then new else ts.get? n)
    (h : m.updateTraits id f = .ok m') : m.TraitReplaced id name new m' := by
  have hupdated := traitsUpdated_of_updateTraits h
  have hfound := exists_updateTraits_iff.mp ⟨m', h⟩
  exact ⟨hupdated.version, hupdated.metadata, hupdated.find?, hupdated.trait? hfound hf,
    hupdated.shapes, hupdated.bodies⟩

/-- Traits that are changed at one name, whatever they are. -/
theorem replaces_changeTraits {f : Traits → Traits}
    (hf : ∀ ts n, (f ts).get? n = if n = name then new else ts.get? n) :
    m.Replaces id name new (m.changeTraits id f) where
  succeeds := changeTraits_eq_ok_iff
  replaced h := traitReplaced_of_updateTraits hf (updateTraits_eq_ok_of_changeTraits h)
  noShape hnone := changed_eq_error_iff.mp (updateTraits_of_get?_eq_none hnone)
  noMember hshape hnone := by
    obtain ⟨s, hs⟩ := Option.isSome_iff_exists.mp hshape
    have htraits : m.traits? id = none := by rw [traits?, hnone, Option.map_none]
    rw [traits?_eq, hs, Option.bind_some, ← @Shape.updateTraits?_eq_none_iff s id f] at htraits
    apply changed_eq_error_iff.mp
    change m.updateTraits id f = _
    rw [updateTraits_of_get?_eq_some hs, htraits]
    rfl
  unchanged := by
    rintro ⟨e, he⟩
    exact changeTraits_eq_self he

theorem replaces_attachTrait (m : Model) (t : Trait) (id : Identifier) :
    m.Replaces id t.name (some t) (m.attachTrait t id) :=
  replaces_changeTraits fun ts => ts.get?_add t

theorem replaces_detachTrait (m : Model) (name : String) (id : Identifier) :
    m.Replaces id name none (m.detachTrait name id) :=
  replaces_changeTraits fun ts => ts.get?_erase name

/-- A trait that is taken away again leaves no trace if its name was free. -/
theorem removeTrait_of_addTrait {t : Trait} (h : m.addTrait t id = .ok m')
    (hfree : m.trait? id t.name = none) : m'.removeTrait t.name id = .ok m := by
  have hfound := exists_updateTraits_iff.mp ⟨m', h⟩
  rw [isSome_find?] at hfound
  obtain ⟨ts, hts⟩ := Option.isSome_iff_exists.mp hfound
  rw [trait?_eq, hts, Option.bind_some] at hfree
  change m'.updateTraits id _ = _
  rw [updateTraits_updateTraits h]
  exact updateTraits_eq_self hts (Table.erase_insert_self hfree t)

/-- Attaching a trait and detaching one replace what stands under its name and do nothing else, or
fail and do nothing. The second undoes the first exactly if the name was free. -/
theorem replaces_attachTrait_detachTrait (m : Model) (t : Trait) (id : Identifier) :
    m.Replaces id t.name (some t) (m.attachTrait t id) ∧
    (∀ name, m.Replaces id name none (m.detachTrait name id)) ∧
    ((m.attachTrait t id).2 = .ok () →
      ((m.attachTrait t id).1.detachTrait t.name id = (m, .ok ()) ↔
        m.trait? id t.name = none)) := by
  refine ⟨replaces_attachTrait m t id, fun name => replaces_detachTrait m name id, fun h => ?_⟩
  have hadded : m.addTrait t id = .ok (m.attachTrait t id).1 := changed_eq_ok_iff.mpr ⟨h, rfl⟩
  constructor
  · intro hremoved
    have hreplaces := replaces_detachTrait (m.attachTrait t id).1 t.name id
    rw [hremoved] at hreplaces
    rw [(hreplaces.replaced rfl).traits, if_pos ⟨rfl, rfl⟩]
  · intro hfree
    obtain ⟨houtcome, hmodel⟩ := changed_eq_ok_iff.mp (removeTrait_of_addTrait hadded hfree)
    exact Prod.ext hmodel houtcome

end Model

end ShapeModel
