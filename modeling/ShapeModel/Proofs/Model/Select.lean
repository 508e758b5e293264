import ShapeModel.Proofs.Model.Address

/-!
# What is selected

The elements of a model are listed in the order of their identifiers, the members right behind their
shape, and they are those that are found by an identifier. Selecting keeps those that match.
-/

namespace ShapeModel

set_option autoImplicit false

namespace Identifier

variable {a b : Identifier}

theorem compare_eq (a b : Identifier) :
    compare a b = (compare a.space b.space).then
      ((compare a.name b.name).then (compare a.member b.member)) :=
  rfl

/-- Members go with their shapes: the order of the roots decides. -/
theorem compare_of_root (h : compare a.root b.root = .lt) : compare a b = .lt := by
  rw [compare_eq, Ordering.then_eq_lt] at h ⊢
  refine h.imp_right (And.imp_right fun hname => ?_)
  rw [Ordering.then_eq_lt] at hname ⊢
  rcases hname with hname | ⟨_, hmember⟩
  · exact .inl hname
  · cases hmember

theorem compare_withMember (h : a.member = none) (name : String) :
    compare a (a.withMember name) = .lt := by
  rw [compare_eq, h]
  simp only [withMember, Std.compare_self, Ordering.then]
  rfl

theorem withMember_compare_withMember (a : Identifier) {name name' : String}
    (h : compare name name' = .lt) : compare (a.withMember name) (a.withMember name') = .lt := by
  rw [compare_eq]
  simp only [withMember, Std.compare_self, Ordering.then]
  exact h

end Identifier

namespace Model

variable {m : Model} {id k : Identifier} {s : Shape} {e : Element}

theorem root_of_mem_elementsOf (h : (id, e) ∈ elementsOf k s) : id.root = k.root := by
  unfold elementsOf at h
  rcases List.mem_cons.mp h with heq | h
  · cases heq
    rfl
  · split at h
    · obtain ⟨x, _, heq⟩ := List.mem_map.mp h
      cases heq
      rfl
    · cases h

/-- A shape comes first, and its members follow by name. -/
theorem ascending_elementsOf (hk : k.member = none) (s : Shape) :
    Entries.Ascending (elementsOf k s) := by
  unfold elementsOf
  split
  · next ms _ =>
    refine List.pairwise_cons.mpr ⟨fun x hx => ?_, ?_⟩
    · obtain ⟨y, _, rfl⟩ := List.mem_map.mp hx
      exact Identifier.compare_withMember hk _
    · rw [List.pairwise_map]
      exact ms.ascending.imp fun h => k.withMember_compare_withMember h
  · exact List.pairwise_singleton _ _

theorem ascending_elements (h : m.Addressable) : Entries.Ascending m.elements := by
  have hmember (x : Identifier × Shape) (hx : x ∈ m.shapes.entries) : x.1.member = none :=
    addressable_iff.mp h _ _ (Table.mem_entries_iff.mp hx)
  unfold elements Entries.Ascending
  rw [List.pairwise_flatMap]
  refine ⟨fun x hx => ascending_elementsOf (hmember x hx) _, ?_⟩
  refine m.shapes.ascending.imp_of_mem fun {x y} hx hy hlt a ha b hb => ?_
  apply Identifier.compare_of_root
  rw [root_of_mem_elementsOf ha, root_of_mem_elementsOf hb,
    Identifier.root_of_member (hmember x hx), Identifier.root_of_member (hmember y hy)]
  exact hlt

theorem mem_elementsOf_member {ms : Members} {name : String} {x : Member}
    (hms : s.members? = some ms) (hx : ms.get? name = some x) :
    (k.withMember name, .member x) ∈ elementsOf k s := by
  unfold elementsOf
  rw [hms]
  apply List.mem_cons_of_mem
  exact List.mem_map.mpr ⟨(name, x), Table.mem_entries_iff.mpr hx, rfl⟩

theorem mem_elements_of_find? (h : m.find? id = some e) : (id, e) ∈ m.elements := by
  cases hid : id.member with
  | none =>
    rw [find?_of_member_eq_none hid, Identifier.root_of_member hid, Option.map_eq_some_iff] at h
    obtain ⟨s, hs, rfl⟩ := h
    exact mem_elements hs
  | some name =>
    rw [find?_of_member_eq_some hid, Option.map_eq_some_iff] at h
    obtain ⟨x, hx, rfl⟩ := h
    obtain ⟨s, hs, hx⟩ := Option.bind_eq_some_iff.mp hx
    obtain ⟨ms, hms, hx⟩ := Option.bind_eq_some_iff.mp hx
    have hroot : id.root.withMember name = id := by
      obtain ⟨space, shape, member⟩ := id
      cases hid
      rfl
    rw [← hroot]
    exact List.mem_flatMap.mpr ⟨_, Table.mem_entries_iff.mpr hs, mem_elementsOf_member hms hx⟩

/-- The elements are what is found, each under its identifier. -/
theorem mem_elements_iff (h : m.Addressable) : (id, e) ∈ m.elements ↔ m.find? id = some e :=
  ⟨h.find?_of_mem_elements, mem_elements_of_find?⟩

theorem mem_selectWith_iff (h : m.Addressable) {selector : Selector} :
    id ∈ m.selectWith selector ↔
      ∃ e, m.find? id = some e ∧ selector.matches? m e = true := by
  simp [selectWith, mem_elements_iff h]

/-- If no shape goes by the name of a member, selecting gives identifiers in strictly ascending
order: those of the shapes and members that are found and match. -/
theorem pairwise_selectWith_and_mem_iff (h : ∀ id ∈ m.shapes.keys, id.member = none)
    (selector : Selector) :
    (m.selectWith selector).Pairwise (fun a b => compare a b = .lt) ∧
    ∀ id, id ∈ m.selectWith selector ↔
      ∃ e, m.find? id = some e ∧ selector.matches? m e = true := by
  have haddressable : m.Addressable := addressable_iff.mpr fun id s hs =>
    h id (List.mem_map.mpr ⟨(id, s), Table.mem_entries_iff.mpr hs, rfl⟩)
  refine ⟨?_, fun id => mem_selectWith_iff haddressable⟩
  unfold selectWith
  rw [List.pairwise_map]
  exact (ascending_elements haddressable).filter _

/-- A text, a union and a structure, with their members in between, before the prelude. -/
def interleavedModel : Model :=
  let member (target : String) : Member := ⟨.ofText target, .empty⟩
  .ofShapes
    [(.ofText "b#A", ⟨.simple .string, .empty⟩),
      (.ofText "a#AB", ⟨.aggregate .union (.ofList [("x", member "b#A")]), .empty⟩),
      (.ofText "a#A", ⟨.aggregate .struct (.ofList [("z", member "a#AB"), ("b", member "b#A")]),
        .empty⟩)]

/-- Strings, and members that are strings. -/
def stringSelector : Selector :=
  .orTarget (.kind (.simple .string))

theorem pairwise_selectWith_interleavedModel :
    (∀ id ∈ interleavedModel.shapes.keys, id.member = none) ∧
    interleavedModel.selectWith stringSelector =
      [.ofText "a#A$b", .ofText "a#AB$x", .ofText "b#A", .ofText "smithy.api#NonEmptyString",
        .ofText "smithy.api#ShapeIdString", .ofText "smithy.api#String"] ∧
    (interleavedModel.selectWith stringSelector).Pairwise (fun a b => compare a b = .lt) ∧
    ∀ id, id ∈ interleavedModel.selectWith stringSelector ↔
      ∃ e, interleavedModel.find? id = some e ∧
        stringSelector.matches? interleavedModel e = true := by
  have hkeys : ∀ id ∈ interleavedModel.shapes.keys, id.member = none := by decide
  exact ⟨hkeys, by decide, pairwise_selectWith_and_mem_iff hkeys stringSelector⟩

end Model

end ShapeModel
