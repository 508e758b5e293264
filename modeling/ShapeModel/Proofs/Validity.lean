import ShapeModel.Proofs.Checks
import ShapeModel.Proofs.Selection

/-!
# What validity of a model means

A model is well formed when its references lead to shapes of fitting kinds and every trait may stand
where it stands with the value it has. The roles of members are listed by hand, position by position
and apart from the check, so that the main statement also says that the check leaves no position
out.
-/

namespace ShapeModel

set_option autoImplicit false

/-- What a member is to the shape that holds it. -/
inductive Role
  /-- Data: the target may be any shape but one of a service kind. -/
  | data
  | operation
  | resource
  | struct
deriving DecidableEq, Repr

namespace Role

/-- The kinds of target that fit a role. -/
def Admits : Role → ShapeKind → Prop
  | .data, k => k ≠ .service ∧ k ≠ .operation ∧ k ≠ .resource
  | .operation, k => k = .operation
  | .resource, k => k = .resource
  | .struct, k => k = .aggregate .struct

end Role

/-- The members of a shape, each in its role. -/
inductive Shape.Body.Has : Shape.Body → Role → Member → Prop
  | item (k : CollectionKind) (x : Member) : Has (.collection k x) .data x
  | key (x y : Member) : Has (.map x y) .data x
  | value (x y : Member) : Has (.map x y) .data y
  | named {k : AggregateKind} {ms : Members} {name : String} {x : Member} :
      ms.get? name = some x → Has (.aggregate k ms) .data x
  | serviceOperation {s : Service} {x : Member} : x ∈ s.operations → Has (.service s) .operation x
  | serviceResource {s : Service} {x : Member} : x ∈ s.resources → Has (.service s) .resource x
  | serviceError {s : Service} {x : Member} : x ∈ s.errors → Has (.service s) .struct x
  | input {o : Operation} {x : Member} : o.input = some x → Has (.operation o) .struct x
  | output {o : Operation} {x : Member} : o.output = some x → Has (.operation o) .struct x
  | operationError {o : Operation} {x : Member} : x ∈ o.errors → Has (.operation o) .struct x
  | identifier {r : Resource} {name : String} {x : Member} :
      r.identifiers.get? name = some x → Has (.resource r) .data x
  | property {r : Resource} {name : String} {x : Member} :
      r.properties.get? name = some x → Has (.resource r) .data x
  | create {r : Resource} {x : Member} :
      r.lifecycle.create = some x → Has (.resource r) .operation x
  | put {r : Resource} {x : Member} : r.lifecycle.put = some x → Has (.resource r) .operation x
  | read {r : Resource} {x : Member} : r.lifecycle.read = some x → Has (.resource r) .operation x
  | update {r : Resource} {x : Member} :
      r.lifecycle.update = some x → Has (.resource r) .operation x
  | delete {r : Resource} {x : Member} :
      r.lifecycle.delete = some x → Has (.resource r) .operation x
  | list {r : Resource} {x : Member} : r.lifecycle.list = some x → Has (.resource r) .operation x
  | resourceOperation {r : Resource} {x : Member} :
      x ∈ r.operations → Has (.resource r) .operation x
  | collectionOperation {r : Resource} {x : Member} :
      x ∈ r.collectionOperations → Has (.resource r) .operation x
  | childResource {r : Resource} {x : Member} : x ∈ r.resources → Has (.resource r) .resource x

/-- The lower bound is not above the upper one. -/
def LengthBounds.Ordered (b : LengthBounds) : Prop :=
  ∀ least most, b.least = some least → b.most = some most → least.toInt ≤ most.toInt

/-- Ordered bounds of which the lower one is not negative. -/
def LengthBounds.Natural (b : LengthBounds) : Prop :=
  (∀ least, b.least = some least → 0 ≤ least.toInt) ∧ b.Ordered

/-- The upper bound does not come before the lower one. Not-a-number comes before nothing. -/
def RangeBounds.Ordered (b : RangeBounds) : Prop :=
  ∀ least most, b.least = some least → b.most = some most → most.compare? least ≠ some .lt

namespace Trait

/-- The trait may be applied to the shape or member. -/
def Allowed (m : Model) (e : Element) (t : Trait) : Prop :=
  (t.selectorIn m).Holds m e

/-- The value of the trait is in order; `lengths` says which length bounds are. A custom trait is
checked only against a shape that defines a trait. -/
def InOrder [PatternEngine] (lengths : LengthBounds → Prop) (m : Model) : Trait → Prop
  | .length b => lengths b
  | .range b => b.Ordered
  | .pattern p => ∃ q, PatternEngine.compile p = .ok q
  | .custom name v =>
    (∃ e d, m.find? (.ofText name) = some e ∧ e.traits.definition? = some d) →
      m.checkValue v (.ofText name) = .ok ()
  | _ => True

end Trait

namespace Model

/-- The member refers to a shape that fits its role. -/
def Leads (m : Model) (role : Role) (x : Member) : Prop :=
  ∃ s, m.find? x.target = some (.shape s) ∧ role.Admits s.kind

/-- All traits of a shape or member may stand there, with values in order. -/
def TraitsInOrder [PatternEngine] (lengths : LengthBounds → Prop) (m : Model) (e : Element) :
    Prop :=
  ∀ name t, e.traits.get? name = some t → t.Allowed m e ∧ t.InOrder lengths m

/-- Well-formedness up to what is asked of length bounds. -/
structure WellFormedWith [PatternEngine] (lengths : LengthBounds → Prop) (m : Model) : Prop where
  leads : ∀ id s role x, m.shapes.get? id = some s → s.body.Has role x → m.Leads role x
  memberTraits : ∀ id s role x, m.shapes.get? id = some s → s.body.Has role x →
    m.TraitsInOrder lengths (.member x)
  shapeTraits : ∀ id s, m.shapes.get? id = some s → m.TraitsInOrder lengths (.shape s)

def WellFormed [PatternEngine] (m : Model) : Prop :=
  m.WellFormedWith LengthBounds.Natural

end Model

theorem LengthBounds.flaw_eq_none_iff {b : LengthBounds} : b.flaw = none ↔ b.Natural := by
  obtain ⟨least, most⟩ := b
  cases least with
  | none => simp [flaw, Natural, Ordered]
  | some least =>
    cases most with
    | none => simp [flaw, Natural, Ordered]
    | some most =>
      simp only [flaw, Natural, Ordered]
      split
      · next h =>
        have hn : ¬ 0 ≤ least.toInt := Int.not_le.mpr h
        simp [hn]
      · split <;> simp <;> omega

theorem RangeBounds.flaw_eq_none_iff {b : RangeBounds} : b.flaw = none ↔ b.Ordered := by
  obtain ⟨least, most⟩ := b
  cases least with
  | none => simp [flaw, Ordered]
  | some least =>
    cases most with
    | none => simp [flaw, Ordered]
    | some most => simp [flaw, Ordered]

namespace Trait

theorem isSome_definitionOf?_iff {m : Model} {name : String} :
    (definitionOf? m name).isSome ↔
      ∃ e d, m.find? (.ofText name) = some e ∧ e.traits.definition? = some d := by
  rw [definitionOf?, Option.isSome_iff_exists]
  constructor
  · rintro ⟨d, h⟩
    obtain ⟨e, he, hd⟩ := Option.bind_eq_some_iff.mp h
    exact ⟨e, d, he, hd⟩
  · rintro ⟨e, d, he, hd⟩
    exact ⟨d, Option.bind_eq_some_iff.mpr ⟨e, he, hd⟩⟩

section

variable [PatternEngine]

theorem flawIn_eq_none_iff {m : Model} {t : Trait} :
    t.flawIn m = none ↔ t.InOrder LengthBounds.Natural m := by
  cases t with
  | length b => exact LengthBounds.flaw_eq_none_iff
  | range b => exact RangeBounds.flaw_eq_none_iff
  | pattern p =>
    simp only [flawIn, InOrder]
    cases PatternEngine.compile p <;> simp
  | custom name v =>
    simp only [flawIn, InOrder, ← isSome_definitionOf?_iff]
    split
    · next h =>
      cases hv : m.checkValue v (.ofText name) with
      | ok u => simp
      | error e => simp [h]
    · next h => simp [h]
  | _ => simp [flawIn, InOrder]

theorem validate_eq_ok_iff {m : Model} {e : Element} {id : Identifier} {t : Trait} :
    t.validate m e id = .ok () ↔ t.Allowed m e ∧ t.InOrder LengthBounds.Natural m := by
  rw [Allowed, ← Selector.matches?_iff_holds, ← flawIn_eq_none_iff, validate]
  split
  · next h =>
    cases t.flawIn m with
    | none => simp [h]
    | some reason => simp
  · next h => simp [h]

end

end Trait

namespace Model

theorem mem_values_iff {ts : Traits} {t : Trait} :
    t ∈ ts.values ↔ ∃ name, ts.get? name = some t := by
  simp [Table.values, ← Table.mem_entries_iff]

theorem validateTraits_eq_ok_iff [PatternEngine] {m : Model} {e : Element} {id : Identifier} :
    m.validateTraits e id = .ok () ↔ m.TraitsInOrder LengthBounds.Natural e := by
  simp only [validateTraits, checkAll_eq_ok_iff, Trait.validate_eq_ok_iff, mem_values_iff]
  constructor
  · intro h name t ht
    exact h t ⟨name, ht⟩
  · rintro h t ⟨name, ht⟩
    exact h name t ht

end Model

/-- The kind that the target of a reference is asked for. -/
def Role.expected : Role → Option ShapeKind
  | .data => none
  | .operation => some .operation
  | .resource => some .resource
  | .struct => some (.aggregate .struct)

namespace Model

theorem shape_kind_ne_member (s : Shape) : s.kind ≠ .member := by
  obtain ⟨body, traits⟩ := s
  cases body <;> simp [Shape.kind]

theorem check_eq_ok_iff {r : Reference} {role : Role} {k : ShapeKind}
    (hr : r.expected = role.expected) :
    r.check k = .ok () ↔ k ≠ .member ∧ role.Admits k := by
  cases role with
  | data =>
    simp only [Reference.check, hr, Role.expected, Role.Admits]
    cases k <;> simp [ShapeKind.isServiceKind]
  | operation =>
    simp only [Reference.check, hr, Role.expected, Role.Admits]
    cases k <;> simp
  | resource =>
    simp only [Reference.check, hr, Role.expected, Role.Admits]
    cases k <;> simp
  | struct =>
    simp only [Reference.check, hr, Role.expected, Role.Admits]
    cases k <;> simp

theorem validateReference_eq_ok_iff [PatternEngine] {m : Model} {r : Reference} {role : Role}
    (hr : r.expected = role.expected) :
    m.validateReference r = .ok () ↔
      m.Leads role r.member ∧ m.TraitsInOrder LengthBounds.Natural (.member r.member) := by
  simp only [validateReference, Leads]
  cases m.find? r.member.target with
  | none => simp
  | some e =>
    simp only [andThen_eq_ok_iff, check_eq_ok_iff hr, validateTraits_eq_ok_iff]
    apply and_congr_left
    intro _
    cases e with
    | shape s => simp [Element.kind, shape_kind_ne_member]
    | member x => simp [Element.kind]

/-- A member is among the references, with the kind of target that its role asks for. -/
def Covers (rs : List Reference) (role : Role) (x : Member) : Prop :=
  ∃ r ∈ rs, r.member = x ∧ r.expected = role.expected

section Covers

variable {id : Identifier} {role : Role} {x : Member}

theorem covers_append {rs qs : List Reference} :
    Covers (rs ++ qs) role x ↔ Covers rs role x ∨ Covers qs role x := by
  simp [Covers, or_and_right, exists_or]

theorem covers_single {name : Identifier} {k : Option ShapeKind} {y : Member} :
    Covers [⟨name, y, k⟩] role x ↔ y = x ∧ k = role.expected := by
  simp [Covers]

theorem covers_listReferences {name : String} {k : ShapeKind} {xs : List Member} :
    Covers (listReferences id name k xs) role x ↔ x ∈ xs ∧ some k = role.expected := by
  constructor
  · rintro ⟨r, hr, rfl, hk⟩
    obtain ⟨y, hy, rfl⟩ := List.mem_map.mp hr
    exact ⟨hy, hk⟩
  · rintro ⟨hx, hk⟩
    exact ⟨_, List.mem_map.mpr ⟨x, hx, rfl⟩, rfl, hk⟩

theorem covers_namedReferences {ms : Members} :
    Covers (namedReferences id ms) role x ↔
      (∃ name, ms.get? name = some x) ∧ none = role.expected := by
  constructor
  · rintro ⟨r, hr, rfl, hk⟩
    obtain ⟨⟨name, y⟩, hy, rfl⟩ := List.mem_map.mp hr
    exact ⟨⟨name, Table.mem_entries_iff.mp hy⟩, hk⟩
  · rintro ⟨⟨name, hx⟩, hk⟩
    exact ⟨_, List.mem_map.mpr ⟨(name, x), Table.mem_entries_iff.mpr hx, rfl⟩, rfl, hk⟩

theorem exists_mem_lifecycle_entries_iff {l : Lifecycle} :
    (∃ name, (name, x) ∈ l.entries) ↔ l.create = some x ∨ l.put = some x ∨ l.read = some x ∨
      l.update = some x ∨ l.delete = some x ∨ l.list = some x := by
  simp [Lifecycle.entries, exists_or]

theorem covers_lifecycle {l : Lifecycle} :
    Covers (l.entries.map fun (name, x) => ⟨id.withMember name, x, some .operation⟩) role x ↔
      (∃ name, (name, x) ∈ l.entries) ∧ some .operation = role.expected := by
  constructor
  · rintro ⟨r, hr, rfl, hk⟩
    obtain ⟨⟨name, y⟩, hy, rfl⟩ := List.mem_map.mp hr
    exact ⟨⟨name, hy⟩, hk⟩
  · rintro ⟨⟨name, hx⟩, hk⟩
    exact ⟨_, List.mem_map.mpr ⟨(name, x), hx, rfl⟩, rfl, hk⟩

end Covers

/-- The references of a shape are its members, each with its role. -/
theorem covers_references_iff {id : Identifier} {b : Shape.Body} {role : Role} {x : Member} :
    Covers (references id b) role x ↔ b.Has role x := by
  cases b with
  | simple k =>
    constructor
    · rintro ⟨r, hr, _⟩
      cases hr
    · rintro ⟨⟩
  | collection k y =>
    rw [references, covers_single]
    constructor
    · rintro ⟨rfl, hk⟩
      cases role <;> cases hk
      exact .item k y
    · rintro ⟨⟩
      exact ⟨rfl, rfl⟩
  | map key value =>
    rw [references, ← List.singleton_append, covers_append, covers_single, covers_single]
    constructor
    · rintro (⟨rfl, hk⟩ | ⟨rfl, hk⟩) <;> cases role <;> cases hk
      · exact .key ..
      · exact .value ..
    · rintro (⟨⟩ | ⟨⟩)
      · exact .inl ⟨rfl, rfl⟩
      · exact .inr ⟨rfl, rfl⟩
  | aggregate k ms =>
    rw [references, covers_namedReferences]
    constructor
    · rintro ⟨⟨name, hx⟩, hk⟩
      cases role <;> cases hk
      exact .named hx
    · rintro ⟨⟩
      rename_i name hx
      exact ⟨⟨name, hx⟩, rfl⟩
  | service s =>
    simp only [references, covers_append, covers_listReferences]
    constructor
    · rintro ((⟨hx, hk⟩ | ⟨hx, hk⟩) | ⟨hx, hk⟩) <;> cases role <;> cases hk
      · exact .serviceOperation hx
      · exact .serviceResource hx
      · exact .serviceError hx
    · intro h
      cases h <;> simp_all [Role.expected]
  | operation o =>
    simp only [references, covers_append, covers_listReferences, Option.mem_toList]
    constructor
    · rintro ((⟨hx, hk⟩ | ⟨hx, hk⟩) | ⟨hx, hk⟩) <;> cases role <;> cases hk
      · exact .input hx
      · exact .output hx
      · exact .operationError hx
    · intro h
      cases h <;> simp_all [Role.expected]
  | resource r =>
    simp only [references, covers_append, covers_listReferences, covers_namedReferences,
      covers_lifecycle, exists_mem_lifecycle_entries_iff]
    constructor
    · rintro (((((⟨⟨_, hx⟩, hk⟩ | ⟨⟨_, hx⟩, hk⟩) | ⟨hx, hk⟩) | ⟨hx, hk⟩) | ⟨hx, hk⟩) | ⟨hx, hk⟩) <;>
        cases role <;> cases hk
      · exact .identifier hx
      · exact .property hx
      · rcases hx with hx | hx | hx | hx | hx | hx
        · exact .create hx
        · exact .put hx
        · exact .read hx
        · exact .update hx
        · exact .delete hx
        · exact .list hx
      · exact .resourceOperation hx
      · exact .collectionOperation hx
      · exact .childResource hx
    · intro h
      cases h with
      | identifier hx => exact .inl (.inl (.inl (.inl (.inl ⟨⟨_, hx⟩, rfl⟩))))
      | property hx => exact .inl (.inl (.inl (.inl (.inr ⟨⟨_, hx⟩, rfl⟩))))
      | _ => simp_all [Role.expected]

/-- No reference asks for a kind of target that no role asks for. -/
theorem exists_role_of_mem_references {id : Identifier} {b : Shape.Body} {r : Reference}
    (h : r ∈ references id b) : ∃ role : Role, r.expected = role.expected := by
  have data : none = Role.data.expected := rfl
  have operation : some .operation = Role.operation.expected := rfl
  have resource : some .resource = Role.resource.expected := rfl
  have struct : some (.aggregate .struct) = Role.struct.expected := rfl
  cases b <;>
    simp only [references, listReferences, namedReferences, List.mem_append, List.mem_map,
      List.mem_cons, List.not_mem_nil, or_false] at h
  case collection =>
    subst h
    exact ⟨_, data⟩
  case map => rcases h with rfl | rfl <;> exact ⟨_, data⟩
  case aggregate =>
    obtain ⟨e, _, rfl⟩ := h
    exact ⟨_, data⟩
  case service =>
    rcases h with (⟨x, _, rfl⟩ | ⟨x, _, rfl⟩) | ⟨x, _, rfl⟩
    · exact ⟨_, operation⟩
    · exact ⟨_, resource⟩
    · exact ⟨_, struct⟩
  case operation =>
    rcases h with (⟨x, _, rfl⟩ | ⟨x, _, rfl⟩) | ⟨x, _, rfl⟩ <;> exact ⟨_, struct⟩
  case resource =>
    rcases h with (((((⟨e, _, rfl⟩ | ⟨e, _, rfl⟩) | ⟨e, _, rfl⟩) | ⟨x, _, rfl⟩) | ⟨x, _, rfl⟩) |
      ⟨x, _, rfl⟩)
    · exact ⟨_, data⟩
    · exact ⟨_, data⟩
    · exact ⟨_, operation⟩
    · exact ⟨_, operation⟩
    · exact ⟨_, operation⟩
    · exact ⟨_, resource⟩

section

variable [PatternEngine]

theorem checkReferences_eq_ok_iff {m : Model} {id : Identifier} {b : Shape.Body} :
    checkAll (validateReference m) (references id b) = .ok () ↔
      ∀ role x, b.Has role x →
        m.Leads role x ∧ m.TraitsInOrder LengthBounds.Natural (.member x) := by
  rw [checkAll_eq_ok_iff]
  constructor
  · intro h role x hx
    obtain ⟨r, hr, rfl, hk⟩ := covers_references_iff.mpr hx
    exact (validateReference_eq_ok_iff hk).mp (h r hr)
  · intro h r hr
    obtain ⟨role, hk⟩ := exists_role_of_mem_references hr
    have hx : b.Has role r.member := covers_references_iff.mp ⟨r, hr, rfl, hk⟩
    exact (validateReference_eq_ok_iff hk).mpr (h role r.member hx)

theorem validateShape_eq_ok_iff {m : Model} {id : Identifier} {s : Shape} :
    m.validateShape id s = .ok () ↔
      (∀ role x, s.body.Has role x →
        m.Leads role x ∧ m.TraitsInOrder LengthBounds.Natural (.member x)) ∧
      m.TraitsInOrder LengthBounds.Natural (.shape s) := by
  rw [validateShape, andThen_eq_ok_iff, checkReferences_eq_ok_iff, validateTraits_eq_ok_iff]

theorem validate_eq_ok_iff {m : Model} :
    m.validate = .ok () ↔ ∀ id s, m.shapes.get? id = some s → m.validateShape id s = .ok () := by
  rw [validate, checkAll_eq_ok_iff]
  constructor
  · intro h id s hs
    exact h (id, s) (Table.mem_entries_iff.mpr hs)
  · rintro h ⟨id, s⟩ hs
    exact h id s (Table.mem_entries_iff.mp hs)

theorem wellFormed_of_validate {m : Model} (h : m.validate = .ok ()) : m.WellFormed := by
  simp only [validate_eq_ok_iff, validateShape_eq_ok_iff] at h
  constructor
  · intro id s role x hid hx
    exact ((h id s hid).1 role x hx).1
  · intro id s role x hid hx
    exact ((h id s hid).1 role x hx).2
  · intro id s hid
    exact (h id s hid).2

theorem WellFormed.validate {m : Model} (h : m.WellFormed) : m.validate = .ok () := by
  simp only [validate_eq_ok_iff, validateShape_eq_ok_iff]
  intro id s hid
  refine ⟨?_, h.shapeTraits id s hid⟩
  intro role x hx
  exact ⟨h.leads id s role x hid hx, h.memberTraits id s role x hid hx⟩

/-- Validation accepts exactly the well-formed models. -/
theorem validate_eq_ok_iff_wellFormed (m : Model) : m.validate = .ok () ↔ m.WellFormed :=
  ⟨wellFormed_of_validate, WellFormed.validate⟩

end

/-- A shape is only found where it stands. -/
theorem get?_of_find?_eq_shape {m : Model} {id : Identifier} {s : Shape}
    (h : m.find? id = some (.shape s)) : m.shapes.get? id = some s := by
  unfold find? at h
  split at h
  · obtain ⟨t, ht, heq⟩ := Option.map_eq_some_iff.mp h
    cases heq
    exact ht
  · obtain ⟨x, _, heq⟩ := Option.map_eq_some_iff.mp h
    cases heq

theorem TraitsInOrder.imp [PatternEngine] {m : Model} {e : Element}
    {lengths lengths' : LengthBounds → Prop} (h : m.TraitsInOrder lengths e)
    (himp : ∀ b, lengths b → lengths' b) : m.TraitsInOrder lengths' e := by
  intro name t ht
  obtain ⟨hallowed, horder⟩ := h name t ht
  refine ⟨hallowed, ?_⟩
  cases t with
  | length b => exact himp b horder
  | _ => exact horder

/-- A text of at least minus one characters. -/
def negativeLeast : Shape :=
  ⟨.simple .string, .ofList [.length ⟨some (-1), none⟩]⟩

def negativeLeastModel : Model :=
  .ofShapes [(.ofText "a#B", negativeLeast)]

/-- Of the shapes of this model, those of the prelude are valid. -/
theorem validateShape_negativeLeastModel [PatternEngine] {id : Identifier} {s : Shape}
    (hs : negativeLeastModel.shapes.get? id = some s) (hid : id ≠ .ofText "a#B") :
    negativeLeastModel.validateShape id s = .ok () := by
  have hall : checkAll (fun e => negativeLeastModel.validateShape e.1 e.2)
      prelude.shapes.entries = .ok () := rfl
  have hprelude : prelude.shapes.get? id = some s := by
    rw [← hs]
    exact (Table.get?_insert_of_ne _ hid _).symm
  exact checkAll_eq_ok_iff.mp hall (id, s) (Table.mem_entries_iff.mpr hprelude)

theorem traitsInOrder_negativeLeast [PatternEngine] :
    negativeLeastModel.TraitsInOrder LengthBounds.Ordered (.shape negativeLeast) := by
  intro name t ht
  by_cases hname : name = Trait.Kind.length.name
  · subst hname
    obtain rfl := Option.some.inj ((Table.get?_insert_self ..).symm.trans ht)
    constructor
    · exact (Selector.matches?_iff_holds _ _).mp rfl
    · rintro least most _ ⟨⟩
  · have hne := (Table.get?_insert_of_ne (Table.empty : Traits) hname _).symm.trans ht
    cases hne

/-- Order of the bounds alone is not enough: a negative lower bound is refused, even without an
upper one to compare it with. -/
theorem not_validate_iff_of_negative_least :
    ¬ (negativeLeastModel.validate = .ok () ↔
      negativeLeastModel.WellFormedWith LengthBounds.Ordered) := by
  have hself : negativeLeastModel.shapes.get? (.ofText "a#B") = some negativeLeast :=
    Table.get?_insert_self ..
  have hordered : ∀ b, LengthBounds.Natural b → LengthBounds.Ordered b := fun b hb => hb.2
  have hmembers : ∀ id s role x, negativeLeastModel.shapes.get? id = some s → s.body.Has role x →
      negativeLeastModel.Leads role x ∧
        negativeLeastModel.TraitsInOrder LengthBounds.Ordered (.member x) := by
    intro id s role x hs hx
    by_cases hid : id = .ofText "a#B"
    · subst hid
      obtain rfl := Option.some.inj (hself.symm.trans hs)
      cases hx
    · have hvalid := validateShape_eq_ok_iff.mp (validateShape_negativeLeastModel hs hid)
      obtain ⟨hleads, htraits⟩ := hvalid.1 role x hx
      exact ⟨hleads, htraits.imp hordered⟩
  intro h
  have hwell : negativeLeastModel.WellFormedWith LengthBounds.Ordered := by
    constructor
    · intro id s role x hs hx
      exact (hmembers id s role x hs hx).1
    · intro id s role x hs hx
      exact (hmembers id s role x hs hx).2
    · intro id s hs
      by_cases hid : id = .ofText "a#B"
      · subst hid
        obtain rfl := Option.some.inj (hself.symm.trans hs)
        exact traitsInOrder_negativeLeast
      · have hvalid := validateShape_eq_ok_iff.mp (validateShape_negativeLeastModel hs hid)
        exact hvalid.2.imp hordered
  have hvalid := validate_eq_ok_iff.mp (h.mpr hwell) _ negativeLeast hself
  have horder := (validateShape_eq_ok_iff.mp hvalid).2 _ _ (Table.get?_insert_self ..)
  exact absurd (horder.2.1 _ rfl) (by decide)

end Model

end ShapeModel
