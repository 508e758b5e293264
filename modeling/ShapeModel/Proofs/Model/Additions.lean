import ShapeModel.Model.Decode
import ShapeModel.Proofs.Checks
import ShapeModel.Proofs.Model.UpdateTraits

/-!
# Traits added in bulk

Adding traits one by one, here and there, comes to adding to each shape and member what is meant for
it, in the order given. So additions to different shapes or members do not get into each other's
way, and they fail only where there is nothing to add to.
-/

namespace ShapeModel

set_option autoImplicit false

namespace Traits

variable {ts : Traits}

theorem addAll_append (ts : Traits) (new more : List Trait) :
    ts.addAll (new ++ more) = (ts.addAll new).addAll more := by
  rw [addAll, addAll, addAll, List.foldl_append]

theorem entries_addAll (ts : Traits) (new : List Trait) :
    (ts.addAll new).entries = Entries.insertAll ts.entries (new.map fun t => (t.name, t)) := by
  induction new generalizing ts with
  | nil => rfl
  | cons t new ih => exact ih (ts.add t)

/-- Each trait stands under its own name. -/
def Keyed (ts : Traits) : Prop :=
  ∀ name t, ts.get? name = some t → t.name = name

theorem keyed_empty : Keyed .empty := by
  intro name t h
  rw [Table.get?_empty] at h
  cases h

theorem Keyed.add (h : ts.Keyed) (t : Trait) : (ts.add t).Keyed := by
  intro name u hu
  rw [Traits.add] at hu
  by_cases hname : name = t.name
  · rw [hname, Table.get?_insert_self] at hu
    cases hu
    exact hname.symm
  · rw [Table.get?_insert_of_ne _ hname] at hu
    exact h name u hu

theorem Keyed.decodeEntries {r : TraitRegistry} {es : List (String × Value)} {ts' : Traits}
    (hts : ts.Keyed) (h : decodeEntries r es ts = .ok ts') : ts'.Keyed := by
  induction es generalizing ts with
  | nil =>
    cases h
    exact hts
  | cons e es ih =>
    obtain ⟨name, v⟩ := e
    rw [Traits.decodeEntries] at h
    split at h
    · next t _ => exact ih (hts.add t) h
    · cases h

theorem keyed_of_decode {r : TraitRegistry} {v : Value} (h : decode r v = .ok ts) : ts.Keyed := by
  unfold decode at h
  split at h
  · exact keyed_empty.decodeEntries h
  · cases h

/-- Traits of a table that are added come over those of the same name, and no others. -/
theorem Keyed.get?_addAll (h : ts.Keyed) (old : Traits) (name : String) :
    (old.addAll ts.values).get? name = (ts.get? name).or (old.get? name) := by
  have hkeys : ∀ e ∈ ts.entries, (e.2.name, e.2) = e := by
    rintro ⟨k, t⟩ ht
    rw [h k t (Table.mem_entries_iff.mp ht)]
  have hentries : (ts.values.map fun t => (t.name, t)) = ts.entries := by
    rw [Table.values, List.map_map]
    exact (List.map_congr_left hkeys).trans ts.entries.map_id
  rw [Table.get?, entries_addAll, hentries]
  cases hts : ts.get? name with
  | some t =>
    rw [Option.some_or]
    apply Entries.find?_insertAll_of_mem
    · intro u hu
      exact Option.some.inj ((Table.mem_entries_iff.mp hu).symm.trans hts)
    · exact .inl (Table.mem_entries_iff.mpr hts)
  | none =>
    rw [Option.none_or]
    apply Entries.find?_insertAll_of_forall_ne
    rintro ⟨k, t⟩ ht rfl
    cases hts.symm.trans (Table.mem_entries_iff.mp ht)

end Traits

namespace Shape

/-- The shape with traits added to it and to its named members, over those of the same name. -/
def addAll (s : Shape) (new : Option String → List Trait) : Shape where
  body :=
    match s.body with
    | .aggregate k ms =>
      .aggregate k (ms.map fun name x => { x with traits := x.traits.addAll (new (some name)) })
    | b => b
  traits := s.traits.addAll (new none)

/-- A shape is what it consists of and its traits, those of its members included. -/
theorem ext_of_bare {s s' : Shape} (hbare : s'.body.bare = s.body.bare)
    (htraits : ∀ member, s'.traits? member = s.traits? member) : s' = s := by
  obtain ⟨body, ts⟩ := s
  obtain ⟨body', ts'⟩ := s'
  obtain rfl : ts' = ts := Option.some.inj (htraits none)
  cases body with
  | aggregate k ms =>
    cases body' with
    | aggregate k' ms' =>
      obtain ⟨rfl, hms⟩ := Body.aggregate.inj hbare
      have hms : ms' = ms := by
        apply Table.ext_get?
        intro name
        have hget := congrArg (Table.get? · name) hms
        have htraits : (ms'.get? name).map (·.traits) = (ms.get? name).map (·.traits) :=
          htraits (some name)
        simp only [Table.get?_map] at hget
        cases hx : ms.get? name <;> cases hx' : ms'.get? name <;> rw [hx, hx'] at hget htraits
        · cases hget
        · cases hget
        · next x x' =>
          obtain ⟨target, traits⟩ := x
          obtain ⟨target', traits'⟩ := x'
          simp_all
      rw [hms]
    | _ => cases hbare
  | _ => cases body' <;> simp_all [Body.bare]

section

variable (s : Shape) (new more : Option String → List Trait)

theorem bare_addAll : (s.addAll new).body.bare = s.body.bare := by
  obtain ⟨body, ts⟩ := s
  cases body with
  | aggregate k ms =>
    rw [addAll, Body.bare, Body.bare]
    congr 1
    apply Table.ext_get?
    intro name
    simp only [Table.get?_map, Option.map_map, Function.comp_def]
  | _ => rfl

theorem traits?_addAll (member : Option String) :
    (s.addAll new).traits? member = (s.traits? member).map (·.addAll (new member)) := by
  obtain ⟨body, ts⟩ := s
  cases member with
  | none => rfl
  | some name =>
    cases body with
    | aggregate k ms =>
      simp only [traits?, member?, members?, addAll, Option.bind_some, Table.get?_map,
        Option.map_map, Function.comp_def]
    | _ => rfl

theorem addAll_nil : s.addAll (fun _ => []) = s := by
  apply ext_of_bare (bare_addAll ..)
  intro member
  rw [traits?_addAll]
  exact Option.map_id'

theorem addAll_addAll :
    (s.addAll new).addAll more = s.addAll fun member => new member ++ more member := by
  apply ext_of_bare
  · rw [bare_addAll, bare_addAll, bare_addAll]
  · intro member
    simp only [traits?_addAll, Option.map_map, Function.comp_def, Traits.addAll_append]

end

end Shape

/-- What is to be added to each shape, by the name of a member or to the shape itself. -/
abbrev Additions := Identifier → Option String → List Trait

/-- Traits for one shape or member. -/
def Additions.single (id : Identifier) (ts : List Trait) : Additions :=
  fun root member => if root = id.root ∧ member = id.member then ts else []

namespace Additions

variable {id root : Identifier}

theorem single_root (id : Identifier) (ts : List Trait) :
    single id ts id.root = fun member => if member = id.member then ts else [] := by
  funext member
  simp only [single, true_and]

theorem single_of_ne (h : root ≠ id.root) (ts : List Trait) : single id ts root = fun _ => [] := by
  funext member
  exact if_neg fun hroot => h hroot.1

theorem single_nil (id : Identifier) : single id [] = fun _ _ => [] := by
  funext root member
  exact ite_self []

theorem single_append (id : Identifier) (ts us : List Trait) :
    (fun root member => single id ts root member ++ single id us root member) =
      single id (ts ++ us) := by
  funext root member
  simp only [single]
  split <;> rfl

end Additions

theorem Shape.eq_addAll_of_updateTraits? {s s' : Shape} {id : Identifier} {t : Trait}
    (h : s.updateTraits? id (·.add t) = some s') :
    s' = s.addAll (Additions.single id [t] id.root) := by
  apply ext_of_bare
  · rw [bare_of_updateTraits? h, bare_addAll]
  · intro member
    rw [traits?_of_updateTraits? h, traits?_addAll, Additions.single_root]
    by_cases hmember : member = id.member
    · simp only [if_pos hmember]
      rfl
    · simp only [if_neg hmember]
      exact Option.map_id'.symm

namespace Model

def addAll (m : Model) (new : Additions) : Model :=
  { m with shapes := m.shapes.map fun id s => s.addAll (new id) }

variable {m m' : Model} {new more : Additions} {id : Identifier} {ts : List Trait} {t : Trait}

theorem get?_addAll (m : Model) (new : Additions) (id : Identifier) :
    (m.addAll new).shapes.get? id = (m.shapes.get? id).map (·.addAll (new id)) :=
  Table.get?_map ..

theorem ext_shapes (hversion : m.version = m'.version) (hmetadata : m.metadata = m'.metadata)
    (hshapes : ∀ id, m.shapes.get? id = m'.shapes.get? id) : m = m' := by
  obtain ⟨version, metadata, shapes⟩ := m
  obtain rfl : shapes = m'.shapes := Table.ext_get? hshapes
  obtain rfl : version = m'.version := hversion
  obtain rfl : metadata = m'.metadata := hmetadata
  rfl

theorem addAll_nil (m : Model) : m.addAll (fun _ _ => []) = m := by
  apply ext_shapes
  · rfl
  · rfl
  · intro id
    simp only [get?_addAll, Shape.addAll_nil, Option.map_id']

theorem addAll_addAll (m : Model) (new more : Additions) :
    (m.addAll new).addAll more =
      m.addAll fun root member => new root member ++ more root member := by
  apply ext_shapes
  · rfl
  · rfl
  · intro id
    simp only [get?_addAll, Option.map_map, Function.comp_def, Shape.addAll_addAll]

/-- Additions change neither what is there nor where it is found. -/
theorem isSome_find?_addAll (m : Model) (new : Additions) (id : Identifier) :
    ((m.addAll new).find? id).isSome = (m.find? id).isSome := by
  rw [isSome_find?, isSome_find?, traits?_eq, traits?_eq, get?_addAll]
  cases m.shapes.get? id.root with
  | none => rfl
  | some s =>
    rw [Option.map_some, Option.bind_some, Option.bind_some, Shape.traits?_addAll,
      Option.isSome_map]

theorem eq_addAll_of_addTrait (h : m.addTrait t id = .ok m') :
    m' = m.addAll (.single id [t]) := by
  obtain ⟨s, s', hs, hs', rfl⟩ := exists_of_updateTraits h
  apply ext_shapes
  · rfl
  · rfl
  · intro k
    rw [get?_addAll, insertShape]
    by_cases hk : k = id.root
    · rw [hk, Table.get?_insert_self, hs, Option.map_some, Shape.eq_addAll_of_updateTraits? hs']
    · rw [Table.get?_insert_of_ne _ hk, Additions.single_of_ne hk]
      simp only [Shape.addAll_nil, Option.map_id']

theorem addTrait_eq_ok_iff_addAll :
    m.addTrait t id = .ok m' ↔ (m.find? id).isSome = true ∧ m.addAll (.single id [t]) = m' := by
  constructor
  · intro h
    exact ⟨exists_updateTraits_iff.mp ⟨m', h⟩, (eq_addAll_of_addTrait h).symm⟩
  · rintro ⟨hfound, rfl⟩
    obtain ⟨m', h⟩ := exists_updateTraits_iff.mpr hfound
    rw [← eq_addAll_of_addTrait h]
    exact h

/-- Something has to be there only if there is anything to add. -/
theorem addTraits_eq_ok_iff :
    addTraits id ts m = .ok m' ↔
      (ts ≠ [] → (m.find? id).isSome = true) ∧ m.addAll (.single id ts) = m' := by
  induction ts generalizing m with
  | nil =>
    rw [addTraits, Additions.single_nil, addAll_nil]
    simp
  | cons t ts ih =>
    rw [addTraits, bind_eq_ok_iff]
    constructor
    · rintro ⟨m₁, hadd, hrest⟩
      obtain ⟨hfound, rfl⟩ := addTrait_eq_ok_iff_addAll.mp hadd
      obtain ⟨_, rfl⟩ := ih.mp hrest
      rw [addAll_addAll, Additions.single_append]
      exact ⟨fun _ => hfound, rfl⟩
    · rintro ⟨hfound, rfl⟩
      have hfound := hfound (List.cons_ne_nil t ts)
      refine ⟨_, addTrait_eq_ok_iff_addAll.mpr ⟨hfound, rfl⟩, ih.mpr ⟨fun _ => ?_, ?_⟩⟩
      · rw [isSome_find?_addAll, hfound]
      · rw [addAll_addAll, Additions.single_append]
        rfl

end Model

end ShapeModel
