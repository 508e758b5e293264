import ShapeModel.Model
import ShapeModel.Proofs.Table.Entries

/-!
# Updates of traits

A change of the traits of a shape or member succeeds where that is found. It keeps what shapes
consist of, all other traits and all other shapes, and changes in a row are one change.
-/

namespace ShapeModel

set_option autoImplicit false

theorem Identifier.eq_iff_member_eq {k id : Identifier} (h : k.root = id.root) :
    k = id ↔ k.member = id.member := by
  constructor
  · rintro rfl
    rfl
  · intro hmember
    obtain ⟨space, name, member⟩ := k
    obtain ⟨space', name', member'⟩ := id
    simp only [root, Identifier.mk.injEq] at h hmember ⊢
    exact ⟨h.1, h.2.1, hmember⟩

theorem Identifier.root_of_member {id : Identifier} (h : id.member = none) : id.root = id := by
  rw [root, ← h]

namespace Shape

/-- What a shape consists of, without the traits of its members. -/
def Body.bare : Body → Body
  | .aggregate k ms => .aggregate k (ms.map fun _ x => { x with traits := .empty })
  | b => b

/-- The traits of the shape, or of the named member. -/
def traits? (s : Shape) : Option String → Option Traits
  | none => some s.traits
  | some name => (s.member? name).map (·.traits)

/-- The shape with one of its named members changed, if it has that member. -/
def updateMember? (s : Shape) (name : String) (f : Member → Member) : Option Shape :=
  match s.body with
  | .aggregate k ms => (ms.get? name).map fun m =>
    { s with body := .aggregate k (ms.insert name (f m)) }
  | _ => none

/-- The shape with a change of its traits, or of those of the member that is meant. -/
def updateTraits? (s : Shape) (id : Identifier) (f : Traits → Traits) : Option Shape :=
  match id.member with
  | none => some { s with traits := f s.traits }
  | some name => s.updateMember? name fun x => { x with traits := f x.traits }

theorem exists_aggregate_of_member? {s : Shape} {name : String} {x : Member}
    (h : s.member? name = some x) :
    ∃ ak ms, s.body = .aggregate ak ms ∧ ms.get? name = some x := by
  rw [member?, members?] at h
  split at h
  · next ak ms hbody => exact ⟨ak, ms, hbody, h⟩
  · cases h

theorem member?_eq {s : Shape} {ak : AggregateKind} {ms : Members} (h : s.body = .aggregate ak ms)
    (name : String) : s.member? name = ms.get? name := by
  rw [member?, members?, h]
  rfl

theorem updateMember?_eq {s : Shape} {ak : AggregateKind} {ms : Members} {name : String}
    {x : Member} (hbody : s.body = .aggregate ak ms) (hx : ms.get? name = some x)
    (f : Member → Member) :
    s.updateMember? name f = some { s with body := .aggregate ak (ms.insert name (f x)) } := by
  rw [updateMember?, hbody]
  simp only [hx, Option.map_some]

theorem exists_of_updateMember? {s s' : Shape} {name : String} {f : Member → Member}
    (h : s.updateMember? name f = some s') :
    ∃ ak ms x, s.body = .aggregate ak ms ∧ ms.get? name = some x ∧
      s' = { s with body := .aggregate ak (ms.insert name (f x)) } := by
  rw [updateMember?] at h
  split at h
  · next ak ms hbody =>
    obtain ⟨x, hx, hs'⟩ := Option.map_eq_some_iff.mp h
    exact ⟨ak, ms, x, hbody, hx, hs'.symm⟩
  · cases h

/-- A member is changed in place, or nothing is. -/
theorem changeMember_eq (s : Shape) (id : Identifier) (f : Member → Member) :
    s.changeMember id f =
      match s.updateMember? (id.member.getD "") f with
      | some s' => (s', .ok ())
      | none => (s, .error (Model.memberNotFound id)) := by
  obtain ⟨body, ts⟩ := s
  cases body with
  | aggregate k ms =>
    simp only [changeMember, updateMember?, Table.changeAt]
    cases ms.get? (id.member.getD "") <;> rfl
  | _ => rfl

theorem changeMember_eq_self {s : Shape} {id : Identifier} {f : Member → Member} {e : Error}
    (h : (s.changeMember id f).2 = .error e) : (s.changeMember id f).1 = s := by
  rw [changeMember_eq] at h ⊢
  cases hs : s.updateMember? (id.member.getD "") f with
  | none => rfl
  | some s' =>
    rw [hs] at h
    cases h

theorem Body.bare_aggregate_insert {ak : AggregateKind} {ms : Members} {name : String}
    {x x' : Member} (hx : ms.get? name = some x) (htarget : x'.target = x.target) :
    Body.bare (.aggregate ak (ms.insert name x')) = Body.bare (.aggregate ak ms) := by
  rw [bare, bare]
  congr 1
  apply Table.ext_get?
  intro k
  rw [Table.get?_map, Table.get?_map]
  by_cases hk : k = name
  · rw [hk, Table.get?_insert_self, hx, Option.map_some, Option.map_some, htarget]
  · rw [Table.get?_insert_of_ne _ hk]

section

variable {s s' : Shape} {id : Identifier} {f : Traits → Traits}

theorem updateTraits?_eq_none_iff : s.updateTraits? id f = none ↔ s.traits? id.member = none := by
  rw [updateTraits?]
  cases hid : id.member with
  | none => simp [traits?]
  | some name =>
    rw [traits?, Option.map_eq_none_iff, member?, members?]
    simp only [updateMember?]
    cases s.body <;> simp

/-- What a shape consists of stays. -/
theorem bare_of_updateTraits? (h : s.updateTraits? id f = some s') :
    s'.body.bare = s.body.bare := by
  rw [updateTraits?] at h
  split at h
  · cases h
    rfl
  · obtain ⟨ak, ms, x, hbody, hx, rfl⟩ := exists_of_updateMember? h
    rw [hbody]
    exact Body.bare_aggregate_insert hx rfl

/-- The traits that are meant are changed, and no others. -/
theorem traits?_of_updateTraits? (h : s.updateTraits? id f = some s') (member : Option String) :
    s'.traits? member =
      if member = id.member then (s.traits? member).map f else s.traits? member := by
  rw [updateTraits?] at h
  split at h
  · next hid =>
    cases h
    rw [hid]
    cases member <;> simp [traits?, member?, members?]
  · next name hid =>
    obtain ⟨ak, ms, x, hbody, hx, rfl⟩ := exists_of_updateMember? h
    rw [hid]
    cases member with
    | none => simp [traits?]
    | some name' =>
      rw [traits?, traits?, member?_eq hbody, member?_eq rfl]
      by_cases hname : name' = name
      · subst hname
        rw [Table.get?_insert_self, if_pos rfl, hx]
        rfl
      · rw [Table.get?_insert_of_ne _ hname, if_neg (by simpa using hname)]

theorem updateTraits?_updateTraits? (h : s.updateTraits? id f = some s') (g : Traits → Traits) :
    s'.updateTraits? id g = s.updateTraits? id (g ∘ f) := by
  rw [updateTraits?] at h ⊢
  rw [updateTraits?]
  split at h
  · cases h
    rfl
  · obtain ⟨ak, ms, x, hbody, hx, rfl⟩ := exists_of_updateMember? h
    rw [updateMember?_eq hbody hx, updateMember?_eq rfl (Table.get?_insert_self _ _ _),
      Table.insert_insert]
    rfl

theorem updateTraits?_eq_self {ts : Traits} (hs : s.traits? id.member = some ts)
    (hf : f ts = ts) : s.updateTraits? id f = some s := by
  rw [updateTraits?]
  cases hid : id.member with
  | none =>
    rw [hid] at hs
    cases hs
    simp only [hf]
  | some name =>
    rw [hid] at hs
    obtain ⟨x, hx, rfl⟩ := Option.map_eq_some_iff.mp hs
    obtain ⟨ak, ms, hbody, hx⟩ := exists_aggregate_of_member? hx
    simp only [updateMember?_eq hbody hx, hf]
    rw [Table.insert_eq_self hx, ← hbody]

theorem kind_of_bare (h : s'.body.bare = s.body.bare) : s'.kind = s.kind := by
  obtain ⟨body, ts⟩ := s
  obtain ⟨body', ts'⟩ := s'
  cases body <;> cases body' <;> simp_all [Body.bare, kind]

theorem targets_of_bare (h : s'.body.bare = s.body.bare) (name : String) :
    (s'.member? name).map (·.target) = (s.member? name).map (·.target) := by
  obtain ⟨body, ts⟩ := s
  obtain ⟨body', ts'⟩ := s'
  cases body with
  | aggregate ak ms =>
    cases body' with
    | aggregate ak' ms' =>
      have hms := congrArg (Table.get? · name) (Body.aggregate.inj h).2
      simp only [Table.get?_map] at hms
      have htargets := congrArg (Option.map (·.target)) hms
      rw [Option.map_map, Option.map_map] at htargets
      exact htargets
    | _ => cases h
  | _ => cases body' <;> first | rfl | cases h

end

end Shape

namespace Model

/-- The traits of the shape or member at an identifier. -/
def traits? (m : Model) (id : Identifier) : Option Traits :=
  (m.find? id).map (·.traits)

variable {m m' : Model} {id : Identifier} {f : Traits → Traits} {s : Shape}

theorem find?_of_member_eq_none (hid : id.member = none) :
    m.find? id = (m.shapes.get? id.root).map .shape := by
  rw [find?, hid, Identifier.root_of_member hid]

theorem find?_of_member_eq_some {name : String} (hid : id.member = some name) :
    m.find? id = ((m.shapes.get? id.root).bind (·.member? name)).map .member := by
  rw [find?, hid]

theorem traits?_eq (m : Model) (id : Identifier) :
    m.traits? id = (m.shapes.get? id.root).bind (·.traits? id.member) := by
  rw [traits?]
  cases hid : id.member with
  | none =>
    rw [find?_of_member_eq_none hid]
    cases m.shapes.get? id.root <;> rfl
  | some name =>
    rw [find?_of_member_eq_some hid]
    cases m.shapes.get? id.root with
    | none => rfl
    | some s =>
      simp only [Option.bind_some, Shape.traits?]
      cases s.member? name <;> rfl

theorem isSome_find? (m : Model) (id : Identifier) :
    (m.find? id).isSome = (m.traits? id).isSome := by
  rw [traits?, Option.isSome_map]

theorem changed_eq_ok_iff {σ : Type} {result : σ × Except Error Unit} {a : σ} :
    changed result = .ok a ↔ result.2 = .ok () ∧ result.1 = a := by
  obtain ⟨b, outcome⟩ := result
  cases outcome <;> simp [changed, Except.map]

theorem changed_eq_error_iff {σ : Type} {result : σ × Except Error Unit} {e : Error} :
    changed result = .error e ↔ result.2 = .error e := by
  obtain ⟨b, outcome⟩ := result
  cases outcome <;> simp [changed, Except.map]

/-- A change of traits that fails has changed nothing before. -/
theorem changeTraits_eq_self {e : Error} (h : (m.changeTraits id f).2 = .error e) :
    (m.changeTraits id f).1 = m := by
  have hshapes := Table.changeAt_eq_self (fun s _ e he => ?_) h
  · unfold changeTraits
    simp only [hshapes]
  · split at he
    · next hid =>
      rw [if_pos hid]
      exact Shape.changeMember_eq_self he
    · cases he

theorem updateTraits_eq (m : Model) (id : Identifier) (f : Traits → Traits) :
    m.updateTraits id f =
      match m.shapes.get? id.root with
      | none => .error (.shapeNotFound id.root)
      | some s =>
        if id.member.isSome then
          (s.updateMember id fun x => { x with traits := f x.traits }).map (m.insertShape id.root)
        else .ok (m.insertShape id.root { s with traits := f s.traits }) := by
  simp only [updateTraits, changeTraits, Table.changeAt, Shape.updateMember, changed]
  cases m.shapes.get? id.root with
  | none => rfl
  | some s =>
    cases hid : id.member.isSome with
    | false => rfl
    | true =>
      simp only [if_true]
      cases (s.changeMember id fun x => { x with traits := f x.traits }).2 <;> rfl

theorem updateTraits_of_get?_eq_none (h : m.shapes.get? id.root = none) :
    m.updateTraits id f = .error (.shapeNotFound id.root) := by
  rw [updateTraits_eq, h]

theorem updateTraits_of_get?_eq_some (h : m.shapes.get? id.root = some s) :
    m.updateTraits id f =
      match s.updateTraits? id f with
      | some s' => .ok (m.insertShape id.root s')
      | none => .error (memberNotFound id) := by
  rw [updateTraits_eq, h, Shape.updateTraits?]
  cases hid : id.member with
  | none => rfl
  | some name =>
    simp only [Option.isSome_some, if_true, Shape.updateMember, Shape.changeMember_eq, hid,
      Option.getD_some]
    cases s.updateMember? name fun x => { x with traits := f x.traits } <;> rfl

theorem updateTraits_eq_ok_iff (h : m.shapes.get? id.root = some s) :
    m.updateTraits id f = .ok m' ↔
      ∃ s', s.updateTraits? id f = some s' ∧ m.insertShape id.root s' = m' := by
  rw [updateTraits_of_get?_eq_some h]
  cases s.updateTraits? id f <;> simp

theorem exists_of_updateTraits (h : m.updateTraits id f = .ok m') :
    ∃ s s', m.shapes.get? id.root = some s ∧ s.updateTraits? id f = some s' ∧
      m.insertShape id.root s' = m' := by
  cases hs : m.shapes.get? id.root with
  | none =>
    rw [updateTraits_of_get?_eq_none hs] at h
    cases h
  | some s =>
    obtain ⟨s', hs', hm'⟩ := (updateTraits_eq_ok_iff hs).mp h
    exact ⟨s, s', rfl, hs', hm'⟩

/-- Traits can be changed wherever something is found. -/
theorem exists_updateTraits_iff :
    (∃ m', m.updateTraits id f = .ok m') ↔ (m.find? id).isSome = true := by
  rw [isSome_find?, traits?_eq]
  cases hs : m.shapes.get? id.root with
  | none => simp [updateTraits_of_get?_eq_none hs]
  | some s =>
    rw [Option.bind_some, Option.isSome_iff_ne_none, Ne, ← @Shape.updateTraits?_eq_none_iff s id f]
    simp only [updateTraits_eq_ok_iff hs]
    cases s.updateTraits? id f <;> simp

/-- The second model is the first with a change of the traits at an identifier, and of nothing
else. -/
structure TraitsUpdated (m : Model) (id : Identifier) (f : Traits → Traits) (m' : Model) :
    Prop where
  version : m'.version = m.version
  metadata : m'.metadata = m.metadata
  shapes : ∀ k, k ≠ id.root → m'.shapes.get? k = m.shapes.get? k
  bodies : ∀ k, (m'.shapes.get? k).map (·.body.bare) = (m.shapes.get? k).map (·.body.bare)
  traits : ∀ k, m'.traits? k = if k = id then (m.traits? k).map f else m.traits? k

theorem traitsUpdated_of_updateTraits (h : m.updateTraits id f = .ok m') :
    m.TraitsUpdated id f m' := by
  obtain ⟨s, s', hs, hs', rfl⟩ := exists_of_updateTraits h
  refine ⟨rfl, rfl, fun k hk => Table.get?_insert_of_ne _ hk _, fun k => ?_, fun k => ?_⟩
  · rw [insertShape]
    by_cases hk : k = id.root
    · rw [hk, Table.get?_insert_self, hs, Option.map_some, Option.map_some,
        Shape.bare_of_updateTraits? hs']
    · rw [Table.get?_insert_of_ne _ hk]
  · rw [traits?_eq, traits?_eq, insertShape]
    by_cases hk : k.root = id.root
    · rw [hk, Table.get?_insert_self, hs, Option.bind_some, Option.bind_some,
        Shape.traits?_of_updateTraits? hs']
      simp only [Identifier.eq_iff_member_eq hk]
    · rw [Table.get?_insert_of_ne _ hk, if_neg]
      rintro rfl
      exact hk rfl

/-- What is found stays, of the same kind and with the same target. -/
theorem TraitsUpdated.find? (h : m.TraitsUpdated id f m') (k : Identifier) :
    (m'.find? k).map (fun e => (e.kind, e.target?)) =
      (m.find? k).map fun e => (e.kind, e.target?) := by
  have hbodies := h.bodies k.root
  cases hk : k.member with
  | none =>
    rw [find?_of_member_eq_none hk, find?_of_member_eq_none hk]
    cases hs : m.shapes.get? k.root with
    | none =>
      rw [hs, Option.map_none, Option.map_eq_none_iff] at hbodies
      rw [hbodies]
    | some s =>
      rw [hs, Option.map_some, Option.map_eq_some_iff] at hbodies
      obtain ⟨s', hs', hbare⟩ := hbodies
      rw [hs']
      simp [Element.kind, Element.target?, Shape.kind_of_bare hbare]
  | some name =>
    rw [find?_of_member_eq_some hk, find?_of_member_eq_some hk]
    cases hs : m.shapes.get? k.root with
    | none =>
      rw [hs, Option.map_none, Option.map_eq_none_iff] at hbodies
      rw [hbodies]
    | some s =>
      rw [hs, Option.map_some, Option.map_eq_some_iff] at hbodies
      obtain ⟨s', hs', hbare⟩ := hbodies
      have htargets := congrArg (Option.map fun t => (ShapeKind.member, some t))
        (Shape.targets_of_bare hbare name)
      rw [Option.map_map, Option.map_map] at htargets
      rw [hs', Option.bind_some, Option.bind_some, Option.map_map, Option.map_map]
      exact htargets

theorem updateTraits_updateTraits (h : m.updateTraits id f = .ok m') (g : Traits → Traits) :
    m'.updateTraits id g = m.updateTraits id (g ∘ f) := by
  obtain ⟨s, s', hs, hs', rfl⟩ := exists_of_updateTraits h
  have hget : (m.insertShape id.root s').shapes.get? id.root = some s' :=
    Table.get?_insert_self _ _ _
  rw [updateTraits_of_get?_eq_some hs, updateTraits_of_get?_eq_some hget,
    Shape.updateTraits?_updateTraits? hs']
  simp only [insertShape, Table.insert_insert]

theorem updateTraits_eq_self {ts : Traits} (hts : m.traits? id = some ts) (hf : f ts = ts) :
    m.updateTraits id f = .ok m := by
  rw [traits?_eq] at hts
  obtain ⟨s, hs, hts⟩ := Option.bind_eq_some_iff.mp hts
  rw [updateTraits_of_get?_eq_some hs, Shape.updateTraits?_eq_self hts hf]
  simp only [insertShape, Table.insert_eq_self hs]

end Model

end ShapeModel
