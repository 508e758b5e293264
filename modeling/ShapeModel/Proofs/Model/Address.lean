import ShapeModel.Proofs.Model.Decode
import ShapeModel.Selector.Matching

/-!
# Looking up what is listed

A shape is found under its identifier unless that has a member part, for then a member is looked
for. Identifiers of the prelude have none, so whether all shapes of a decoded model are found is a
matter of the names of the entries.
-/

namespace ShapeModel

set_option autoImplicit false

/-- What the prelude holds goes by names of shapes. -/
theorem Prelude.member_eq_none {id : Identifier} {s : Shape} (h : (id, s) ∈ shapes) :
    id.member = none := by
  simp only [shapes, List.mem_append, List.mem_map, List.mem_singleton] at h
  rcases h with (⟨name, _, heq⟩ | ⟨name, _, heq⟩) | heq <;> cases heq <;> rfl

namespace Model

variable {m : Model} {id : Identifier} {s : Shape} {e : Element}

/-- Every shape is found under its identifier. -/
def Addressable (m : Model) : Prop :=
  ∀ id s, m.shapes.get? id = some s → m.find? id = some (.shape s)

theorem find?_eq_shape_iff (h : m.shapes.get? id = some s) :
    m.find? id = some (.shape s) ↔ id.member = none := by
  constructor
  · intro hfind
    cases hid : id.member with
    | none => rfl
    | some name =>
      rw [find?_of_member_eq_some hid] at hfind
      obtain ⟨x, _, heq⟩ := Option.map_eq_some_iff.mp hfind
      cases heq
  · intro hid
    rw [find?_of_member_eq_none hid, Identifier.root_of_member hid, h, Option.map_some]

theorem addressable_iff :
    m.Addressable ↔ ∀ id s, m.shapes.get? id = some s → id.member = none :=
  forall₂_congr fun _ _ => forall_congr' find?_eq_shape_iff

/-- Then members, too, are found where they are listed. -/
theorem Addressable.find?_of_mem_elements (h : m.Addressable) (he : (id, e) ∈ m.elements) :
    m.find? id = some e := by
  obtain ⟨⟨k, s⟩, hs, he⟩ := List.mem_flatMap.mp he
  have hs := Table.mem_entries_iff.mp hs
  unfold elementsOf at he
  rcases List.mem_cons.mp he with heq | he
  · cases heq
    exact h _ _ hs
  · split at he
    · next ms hms =>
      obtain ⟨⟨name, x⟩, hx, heq⟩ := List.mem_map.mp he
      cases heq
      have hk : k.member = none := (find?_eq_shape_iff hs).mp (h k s hs)
      have hroot : (k.withMember name).root = k := Identifier.root_of_member hk
      rw [find?_of_member_eq_some rfl, hroot, hs, Option.bind_some, Shape.member?, hms,
        Option.bind_some, Table.mem_entries_iff.mp hx, Option.map_some]
    · cases he

theorem mem_elements (h : m.shapes.get? id = some s) : (id, .shape s) ∈ m.elements :=
  List.mem_flatMap.mpr ⟨(id, s), Table.mem_entries_iff.mpr h, List.mem_cons_self⟩

theorem Addressable.exists_of_mem_selectWith {selector : Selector} (h : m.Addressable)
    (hid : id ∈ m.selectWith selector) :
    ∃ e, m.find? id = some e ∧ selector.matches? m e = true := by
  obtain ⟨⟨k, e⟩, he, rfl⟩ := List.mem_map.mp hid
  obtain ⟨he, hmatches⟩ := List.mem_filter.mp he
  exact ⟨e, h.find?_of_mem_elements he, hmatches⟩

end Model

variable {d : Dialect} {entries : Value.Fields} {m : Model}

theorem Dialect.Makes.addressable_iff (h : d.Makes entries m) :
    m.Addressable ↔ ∀ e ∈ declarations entries, (Identifier.ofText e.1).member = none := by
  rw [Model.addressable_iff]
  constructor
  · intro hm e he
    obtain ⟨s, _, hs⟩ := h.declared e he
    exact hm _ _ hs
  · intro hentries id s hs
    have hsome : (m.shapes.get? id).isSome = true := by rw [hs]; rfl
    rcases (h.ids id).mp hsome with hprelude | ⟨e, he, rfl⟩
    · obtain ⟨t, ht⟩ := Option.isSome_iff_exists.mp hprelude
      exact Prelude.member_eq_none (Table.mem_of_get?_ofList ht)
    · exact hentries e he

/-- All shapes of a decoded model are found where they are listed, unless an entry for a shape has a
name with a member part. Then all that is selected is found. -/
theorem addressable_of_ofValue {ast : Value} (entries : DistinctEntries)
    (hentries : Model.decodeObject ast "shapes" = .ok entries.list) (h : d.ofValue ast = .ok m) :
    (m.Addressable ↔ ∀ e ∈ declarations entries.list, (Identifier.ofText e.1).member = none) ∧
    (m.Addressable → ∀ selector id, id ∈ m.selectWith selector →
      ∃ e, m.find? id = some e ∧ selector.matches? m e = true) := by
  obtain ⟨_, _, hmakes⟩ := (ofValue_eq_ok_iff hentries entries.distinct).mp h
  exact ⟨hmakes.addressable_iff, fun hm _ _ => hm.exists_of_mem_selectWith⟩

/-- A structure with a member of its own kind. -/
def ringShape : DistinctEntries where
  list := [("a#Ring", .object [("members", .object [("next", .object [("target",
    .string "a#Ring")])]), ("type", .string "structure")])]
  distinct := by decide

theorem addressable_ringShape :
    ∃ m, Dialect.builtin.ofValue (.object [("shapes", .object ringShape.list)]) = .ok m ∧
      m.Addressable ∧ ∀ id ∈ m.selectWith .all, (m.find? id).isSome = true := by
  obtain ⟨m, hm⟩ :
      ∃ m, Dialect.builtin.ofValue (.object [("shapes", .object ringShape.list)]) = .ok m :=
    ⟨_, rfl⟩
  obtain ⟨haddressable, hselected⟩ := addressable_of_ofValue ringShape rfl hm
  have hm' : m.Addressable := by
    apply haddressable.mpr
    intro e he
    obtain ⟨he, _⟩ := mem_declarations.mp he
    obtain rfl := List.mem_singleton.mp he
    rfl
  refine ⟨m, hm, hm', ?_⟩
  intro id hid
  obtain ⟨e, he, _⟩ := hselected hm' .all id hid
  rw [he, Option.isSome_some]

/-- A shape under the name of a member of a shape that is not there. -/
def strayShape : Value.Fields :=
  [("a#B$c", .object [("type", .string "string")])]

/-- The shape is listed and selected. What is looked for is a member, of a shape that is missing. -/
theorem not_addressable_strayShape :
    ∃ m, Dialect.builtin.ofValue (.object [("shapes", .object strayShape)]) = .ok m ∧
      ¬ m.Addressable ∧ ∃ id ∈ m.selectWith .all, m.find? id = none := by
  obtain ⟨m, hm⟩ :
      ∃ m, Dialect.builtin.ofValue (.object [("shapes", .object strayShape)]) = .ok m := ⟨_, rfl⟩
  obtain ⟨_, _, hmakes⟩ := (ofValue_eq_ok_iff rfl (by decide)).mp hm
  have hentry : ("a#B$c", Value.object [("type", .string "string")]) ∈ declarations strayShape :=
    mem_declarations.mpr ⟨List.mem_cons_self, rfl⟩
  refine ⟨m, hm, ?_, .ofText "a#B$c", ?_, ?_⟩
  · intro haddressable
    cases hmakes.addressable_iff.mp haddressable _ hentry
  · obtain ⟨s, _, hs⟩ := hmakes.declared _ hentry
    apply List.mem_map.mpr
    exact ⟨_, List.mem_filter.mpr ⟨Model.mem_elements hs, rfl⟩, rfl⟩
  · have hroot : m.shapes.get? (Identifier.ofText "a#B$c").root = none := by
      rw [← Option.not_isSome_iff_eq_none, hmakes.ids]
      rintro (hprelude | ⟨e, he, heq⟩)
      · revert hprelude
        decide +kernel
      · obtain ⟨he, _⟩ := mem_declarations.mp he
        obtain rfl := List.mem_singleton.mp he
        cases heq
    rw [Model.find?_of_member_eq_some rfl, hroot]
    rfl

end ShapeModel
