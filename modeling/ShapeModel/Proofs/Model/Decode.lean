import ShapeModel.Dialect
import ShapeModel.Proofs.Checks
import ShapeModel.Proofs.Identifier.Text
import ShapeModel.Proofs.Model.Additions
import ShapeModel.Proofs.Table.Decode

/-!
# What models are decoded to

The entries of shapes make a model over the prelude, shape by shape: each entry is decoded on its
own, and entries of type `apply` add traits to what is there in the end. Only which entries there
are counts, not in what order they stand.
-/

namespace ShapeModel

set_option autoImplicit false

/-- Entries in any order, of which no two have one name. -/
structure DistinctEntries where
  list : Value.Fields
  distinct : (list.map (·.1)).Nodup

/-- Whether the entry adds traits to a shape or member, instead of being a shape. -/
def Value.isApplication (entry : Value) : Bool :=
  match decodeText entry "type" with
  | .ok (some kind) => kind = "apply"
  | _ => false

/-- The entries that are shapes. -/
def declarations (entries : Value.Fields) : Value.Fields :=
  entries.filter fun e => !e.2.isApplication

/-- The entries that add traits. -/
def applications (entries : Value.Fields) : List Model.Application :=
  (entries.filter (·.2.isApplication)).map fun e => ⟨.ofText e.1, e.2⟩

namespace Dialect

variable (d : Dialect)

def decodeEntry (name : String) (entry : Value) : Except Error Shape := do
  let kind ← Model.decodeKind (.ofText name) entry
  (d.shapes.decode kind entry d.traits).mapError (Model.inShape (.ofText name))

/-- The traits of an entry, in the order of their names. -/
def traitsOf (entry : Value) : List Trait :=
  match decodeTraits d.traits entry with
  | .ok ts => ts.values
  | .error _ => []

/-- All that is to be added. -/
def additions (as : List Model.Application) : Additions := fun root member =>
  as.flatMap fun a => Additions.single a.target (d.traitsOf a.entry) root member

/-- The model has the shapes of the prelude and of the entries, an entry's instead of the prelude's
where there are both, with the added traits on them and on their members. -/
structure Makes (entries : Value.Fields) (m : Model) : Prop where
  ids : ∀ id, (m.shapes.get? id).isSome = true ↔
    (Model.prelude.shapes.get? id).isSome = true ∨ ∃ e ∈ declarations entries, .ofText e.1 = id
  declared : ∀ e ∈ declarations entries, ∃ s, d.decodeEntry e.1 e.2 = .ok s ∧
    m.shapes.get? (.ofText e.1) =
      some (s.addAll (d.additions (applications entries) (.ofText e.1)))
  inherited : ∀ id s, Model.prelude.shapes.get? id = some s →
    (∀ e ∈ declarations entries, Identifier.ofText e.1 ≠ id) →
    m.shapes.get? id = some (s.addAll (d.additions (applications entries) id))
  applied : ∀ a ∈ applications entries, ∃ ts, decodeTraits d.traits a.entry = .ok ts ∧
    d.additions (applications entries) a.target.root a.target.member = ts.values ∧
    (ts.values ≠ [] → (m.find? a.target).isSome = true)

end Dialect

theorem Model.decodeKind_eq_ok_iff {id : Identifier} {entry : Value} {kind : String} :
    decodeKind id entry = .ok kind ↔ decodeText entry "type" = .ok (some kind) := by
  rw [decodeKind, bind_eq_ok_iff]
  constructor
  · rintro ⟨_ | k, htext, hk⟩
    · cases hk
    · cases hk
      exact htext
  · intro h
    exact ⟨some kind, h, rfl⟩

theorem Value.isApplication_iff {entry : Value} :
    entry.isApplication = true ↔ decodeText entry "type" = .ok (some "apply") := by
  rw [isApplication]
  split
  · next kind h => simp [h]
  · next hne =>
    constructor
    · intro h
      cases h
    · intro h
      exact absurd h (hne "apply")

section Passes

variable {d : Dialect} {entries : Value.Fields} {m m' : Model} {as : List Model.Application}

theorem mem_declarations {e : String × Value} :
    e ∈ declarations entries ↔ e ∈ entries ∧ e.2.isApplication = false := by
  simp [declarations]

theorem declarations_cons_of_isApplication {e : String × Value}
    (h : e.2.isApplication = true) : declarations (e :: entries) = declarations entries := by
  simp only [declarations, List.filter_cons, h, Bool.not_true, Bool.false_eq_true, if_false]

theorem declarations_cons {e : String × Value} (h : ¬ e.2.isApplication = true) :
    declarations (e :: entries) = e :: declarations entries := by
  simp only [declarations, List.filter_cons, h, Bool.not_false, if_true]

theorem applications_cons_of_isApplication {e : String × Value}
    (h : e.2.isApplication = true) :
    applications (e :: entries) = ⟨.ofText e.1, e.2⟩ :: applications entries := by
  simp only [applications, List.filter_cons, h, if_true, List.map_cons]

theorem applications_cons {e : String × Value} (h : ¬ e.2.isApplication = true) :
    applications (e :: entries) = applications entries := by
  simp only [applications, List.filter_cons, if_neg h]

theorem decodeShapes_cons_of_isApplication {e : String × Value}
    (h : e.2.isApplication = true) (m : Model) :
    Model.decodeShapes d.shapes d.traits (e :: entries) m =
      (Model.decodeShapes d.shapes d.traits entries m).map
        fun r => (r.1, ⟨.ofText e.1, e.2⟩ :: r.2) := by
  have hkind : Model.decodeKind (.ofText e.1) e.2 = .ok "apply" :=
    Model.decodeKind_eq_ok_iff.mpr (Value.isApplication_iff.mp h)
  rw [Model.decodeShapes, hkind]
  cases Model.decodeShapes d.shapes d.traits entries m <;>
    simp [bind, Except.bind, Except.map]

theorem decodeShapes_cons {e : String × Value} (h : ¬ e.2.isApplication = true) (m : Model) :
    Model.decodeShapes d.shapes d.traits (e :: entries) m =
      d.decodeEntry e.1 e.2 >>= fun s =>
        Model.decodeShapes d.shapes d.traits entries (m.insertShape (.ofText e.1) s) := by
  rw [Model.decodeShapes, Dialect.decodeEntry]
  cases hkind : Model.decodeKind (.ofText e.1) e.2 with
  | error err => rfl
  | ok kind =>
    have hne : kind ≠ "apply" := by
      rintro rfl
      exact h (Value.isApplication_iff.mpr (Model.decodeKind_eq_ok_iff.mp hkind))
    simp only [bind, Except.bind, if_neg hne]

/-- The first pass decodes the shapes into the model and gathers the rest. -/
theorem decodeShapes_eq_ok_iff :
    Model.decodeShapes d.shapes d.traits entries m = .ok (m', as) ↔
      ∃ shapes, decodeInto Identifier.ofText d.decodeEntry (declarations entries) m.shapes =
        .ok shapes ∧ { m with shapes := shapes } = m' ∧ applications entries = as := by
  induction entries generalizing m as with
  | nil => simp [Model.decodeShapes, declarations, applications, decodeInto]
  | cons e entries ih =>
    by_cases happly : e.2.isApplication = true
    · rw [decodeShapes_cons_of_isApplication happly, declarations_cons_of_isApplication happly,
        applications_cons_of_isApplication happly, map_eq_ok_iff]
      constructor
      · rintro ⟨⟨m₁, as₁⟩, hrest, heq⟩
        cases heq
        obtain ⟨shapes, hshapes, hm, rfl⟩ := ih.mp hrest
        exact ⟨shapes, hshapes, hm, rfl⟩
      · rintro ⟨shapes, hshapes, hm, rfl⟩
        exact ⟨_, ih.mpr ⟨shapes, hshapes, hm, rfl⟩, rfl⟩
    · rw [decodeShapes_cons happly, declarations_cons happly, applications_cons happly, decodeInto]
      cases d.decodeEntry e.1 e.2 with
      | error err => simp [bind, Except.bind]
      | ok s => exact ih

theorem traitsOf_eq {entry : Value} {ts : Traits} (h : decodeTraits d.traits entry = .ok ts) :
    d.traitsOf entry = ts.values := by
  rw [Dialect.traitsOf, h]

theorem additions_cons (a : Model.Application) (as : List Model.Application) :
    d.additions (a :: as) = fun root member =>
      Additions.single a.target (d.traitsOf a.entry) root member ++
        d.additions as root member := by
  funext root member
  exact List.flatMap_cons

/-- The second pass adds traits wherever something is found. -/
theorem applyAll_eq_ok_iff :
    Model.applyAll d.traits as m = .ok m' ↔
      (∀ a ∈ as, ∃ ts, decodeTraits d.traits a.entry = .ok ts ∧
        (ts.values ≠ [] → (m.find? a.target).isSome = true)) ∧
      m.addAll (d.additions as) = m' := by
  induction as generalizing m with
  | nil =>
    have hnil : m.addAll (d.additions []) = m := m.addAll_nil
    rw [Model.applyAll, hnil]
    simp
  | cons a as ih =>
    rw [Model.applyAll, bind_eq_ok_iff, List.forall_mem_cons]
    simp only [mapError_eq_ok_iff, bind_eq_ok_iff, Model.addTraits_eq_ok_iff]
    constructor
    · rintro ⟨ts, hts, m₁, ⟨hfound, rfl⟩, hrest⟩
      obtain ⟨hlater, rfl⟩ := ih.mp hrest
      refine ⟨⟨⟨ts, hts, hfound⟩, ?_⟩, ?_⟩
      · simpa only [Model.isSome_find?_addAll] using hlater
      · rw [Model.addAll_addAll, additions_cons, traitsOf_eq hts]
    · rintro ⟨⟨⟨ts, hts, hfound⟩, hrest⟩, rfl⟩
      refine ⟨ts, hts, _, ⟨hfound, rfl⟩, ih.mpr ⟨?_, ?_⟩⟩
      · simpa only [Model.isSome_find?_addAll] using hrest
      · rw [Model.addAll_addAll, additions_cons, traitsOf_eq hts]

end Passes

section Names

variable {d : Dialect} {entries entries' : Value.Fields} {m : Model}
  {as as' : List Model.Application}

theorem pairwise_declarations (hnames : (entries.map (·.1)).Nodup) :
    (declarations entries).Pairwise fun e e' => Identifier.ofText e.1 ≠ .ofText e'.1 := by
  have hpairwise := List.pairwise_map.mp hnames
  apply (hpairwise.filter _).imp
  intro e e' hne heq
  exact hne (Identifier.ofText_inj heq)

theorem pairwise_applications (hnames : (entries.map (·.1)).Nodup) :
    (applications entries).Pairwise fun a b => a.target ≠ b.target := by
  have hpairwise := List.pairwise_map.mp hnames
  apply List.pairwise_map.mpr
  apply (hpairwise.filter _).imp
  intro e e' hne heq
  exact hne (Identifier.ofText_inj heq)

theorem additions_of_forall_ne {root : Identifier} {member : Option String}
    (h : ∀ a ∈ as, ¬ (root = a.target.root ∧ member = a.target.member)) :
    d.additions as root member = [] := by
  apply List.flatMap_eq_nil_iff.mpr
  intro a ha
  exact if_neg (h a ha)

/-- To each shape or member no more than one entry adds traits. -/
theorem additions_of_mem (has : as.Pairwise fun a b => a.target ≠ b.target)
    {a : Model.Application} (ha : a ∈ as) :
    d.additions as a.target.root a.target.member = d.traitsOf a.entry := by
  induction as with
  | nil => cases ha
  | cons b bs ih =>
    obtain ⟨hne, hbs⟩ := List.pairwise_cons.mp has
    rw [additions_cons]
    rcases List.mem_cons.mp ha with rfl | ha
    · have hlater : d.additions bs a.target.root a.target.member = [] := by
        apply additions_of_forall_ne
        rintro c hc ⟨hroot, hmember⟩
        exact hne c hc ((Identifier.eq_iff_member_eq hroot).mpr hmember)
      simp only [hlater, Additions.single_root, if_pos, List.append_nil]
    · have hfirst : Additions.single b.target (d.traitsOf b.entry) a.target.root a.target.member =
          [] := by
        apply if_neg
        rintro ⟨hroot, hmember⟩
        exact hne a ha ((Identifier.eq_iff_member_eq hroot).mpr hmember).symm
      simp only [hfirst, List.nil_append]
      exact ih hbs ha

theorem Dialect.Makes.exists_decodeInto (h : d.Makes entries m) :
    ∃ shapes, decodeInto Identifier.ofText d.decodeEntry (declarations entries)
      Model.prelude.shapes = .ok shapes := by
  apply ShapeModel.exists_decodeInto
  intro e he
  obtain ⟨s, hs, _⟩ := h.declared e he
  exact ⟨s, hs⟩

section Shapes

variable {shapes : Table Identifier Shape}
variable (hnames : (entries.map (·.1)).Nodup)
variable (hshapes : decodeInto Identifier.ofText d.decodeEntry (declarations entries)
  Model.prelude.shapes = .ok shapes)
include hnames hshapes

/-- A model that entries make is found again by its decoded shapes. -/
theorem Dialect.Makes.addAll_eq (h : d.Makes entries m) :
    { m with shapes := shapes }.addAll (d.additions (applications entries)) = m := by
  have hdistinct := pairwise_declarations hnames
  apply Model.ext_shapes
  · rfl
  · rfl
  · intro id
    rw [Model.get?_addAll]
    by_cases hid : ∃ e ∈ declarations entries, .ofText e.1 = id
    · obtain ⟨e, he, rfl⟩ := hid
      obtain ⟨s, hs, hget⟩ := exists_of_mem_decodeInto hdistinct hshapes he
      obtain ⟨s', hs', hget'⟩ := h.declared e he
      cases hs.symm.trans hs'
      rw [hget, hget', Option.map_some]
    · have hne e (he : e ∈ declarations entries) : Identifier.ofText e.1 ≠ id :=
        fun heq => hid ⟨e, he, heq⟩
      rw [get?_decodeInto_of_forall_ne hshapes hne]
      cases hprelude : Model.prelude.shapes.get? id with
      | some s => rw [h.inherited id s hprelude hne, Option.map_some]
      | none =>
        rw [Option.map_none, eq_comm, ← Option.not_isSome_iff_eq_none, h.ids, hprelude]
        rintro (hsome | hsome)
        · cases hsome
        · exact hid hsome

theorem makes_of_addAll_eq
    (happlied : ∀ a ∈ applications entries, ∃ ts, decodeTraits d.traits a.entry = .ok ts ∧
      (ts.values ≠ [] → ({ m with shapes := shapes }.find? a.target).isSome = true))
    (hm : { m with shapes := shapes }.addAll (d.additions (applications entries)) = m) :
    d.Makes entries m := by
  have hdistinct := pairwise_declarations hnames
  have hget id : m.shapes.get? id =
      (shapes.get? id).map (·.addAll (d.additions (applications entries) id)) := by
    have hadded := Model.get?_addAll { m with shapes := shapes }
      (d.additions (applications entries)) id
    rw [hm] at hadded
    exact hadded
  refine ⟨?_, ?_, ?_, ?_⟩
  · intro id
    rw [hget, Option.isSome_map]
    by_cases hid : ∃ e ∈ declarations entries, .ofText e.1 = id
    · obtain ⟨e, he, rfl⟩ := hid
      obtain ⟨s, _, hs⟩ := exists_of_mem_decodeInto hdistinct hshapes he
      rw [hs]
      exact ⟨fun _ => .inr ⟨e, he, rfl⟩, fun _ => rfl⟩
    · rw [get?_decodeInto_of_forall_ne hshapes fun e he heq => hid ⟨e, he, heq⟩]
      exact (or_iff_left hid).symm
  · intro e he
    obtain ⟨s, hs, hshape⟩ := exists_of_mem_decodeInto hdistinct hshapes he
    refine ⟨s, hs, ?_⟩
    rw [hget, hshape, Option.map_some]
  · intro id s hs hne
    rw [hget, get?_decodeInto_of_forall_ne hshapes hne, hs, Option.map_some]
  · intro a ha
    obtain ⟨ts, hts, hfound⟩ := happlied a ha
    refine ⟨ts, hts, ?_, ?_⟩
    · rw [additions_of_mem (pairwise_applications hnames) ha, traitsOf_eq hts]
    · rw [← hm, Model.isSome_find?_addAll]
      exact hfound

end Shapes

/-- What a model holds says how it was made. -/
theorem makes_iff (hnames : (entries.map (·.1)).Nodup) :
    d.Makes entries m ↔ ∃ shapes,
      decodeInto Identifier.ofText d.decodeEntry (declarations entries) Model.prelude.shapes =
        .ok shapes ∧
      (∀ a ∈ applications entries, ∃ ts, decodeTraits d.traits a.entry = .ok ts ∧
        (ts.values ≠ [] → ({ m with shapes := shapes }.find? a.target).isSome = true)) ∧
      { m with shapes := shapes }.addAll (d.additions (applications entries)) = m := by
  constructor
  · intro h
    obtain ⟨shapes, hshapes⟩ := h.exists_decodeInto
    have hm := h.addAll_eq hnames hshapes
    refine ⟨shapes, hshapes, ?_, hm⟩
    intro a ha
    obtain ⟨ts, hts, _, hfound⟩ := h.applied a ha
    refine ⟨ts, hts, ?_⟩
    rw [← Model.isSome_find?_addAll _ (d.additions (applications entries)), hm]
    exact hfound
  · rintro ⟨shapes, hshapes, happlied, hm⟩
    exact makes_of_addAll_eq hnames hshapes happlied hm

/-- Decoding gives the model that is made from the entries, if there is one. -/
theorem ofValue_eq_ok_iff {ast : Value} (hentries : Model.decodeObject ast "shapes" = .ok entries)
    (hnames : (entries.map (·.1)).Nodup) :
    d.ofValue ast = .ok m ↔
      (∃ version, decodeText ast "smithy" = .ok version ∧
        version.getD Model.defaultVersion = m.version) ∧
      (∃ metadata, Model.decodeObject ast "metadata" = .ok metadata ∧
        .ofList metadata = m.metadata) ∧
      d.Makes entries m := by
  rw [Dialect.ofValue, Model.decode, makes_iff hnames]
  simp only [bind_eq_ok_iff, hentries, Except.ok.injEq, exists_eq_left', Prod.exists]
  constructor
  · rintro ⟨version, hversion, metadata, hmetadata, m₁, as, hfirst, hsecond⟩
    obtain ⟨shapes, hshapes, rfl, rfl⟩ := decodeShapes_eq_ok_iff.mp hfirst
    obtain ⟨happlied, rfl⟩ := applyAll_eq_ok_iff.mp hsecond
    exact ⟨⟨version, hversion, rfl⟩, ⟨metadata, hmetadata, rfl⟩, shapes, hshapes, happlied, rfl⟩
  · rintro ⟨⟨version, hversion, hv⟩, ⟨metadata, hmetadata, hd⟩, shapes, hshapes, happlied, hm⟩
    rw [← hv, ← hd] at happlied hm
    exact ⟨version, hversion, metadata, hmetadata, _, _,
      decodeShapes_eq_ok_iff.mpr ⟨shapes, hshapes, rfl, rfl⟩,
      applyAll_eq_ok_iff.mpr ⟨happlied, hm⟩⟩

end Names

end ShapeModel
