import ShapeModel.Proofs.Document.Entry
import ShapeModel.Proofs.Document.Grammar
import ShapeModel.Proofs.Document.Order
import ShapeModel.Proofs.Value.Plain

/-!
# Syntax in order

Every object in the abstract syntax of a document has its fields in key order, so that it is the
object of its own fields again.
-/

namespace ShapeModel

set_option autoImplicit false

open Token (Kind)

namespace Document

variable {s : Scope} {ctx : Context}

theorem WordDenotes.ordered {w : String} {v : Value} (h : WordDenotes s ctx w v) : v.Ordered := by
  cases h with
  | true => exact .bool _
  | false => exact .bool _
  | null => exact .null
  | reference => exact .object (List.pairwise_singleton _ _) (by simpa using .string _)
  | name => exact .string _

mutual

theorem ordered_of_isValue {ts : List Kind} {v : Value} (h : IsValue s ctx ts v) : v.Ordered := by
  cases h with
  | atom ha =>
    rcases atom?_eq_some_ok_iff.mp ha with ⟨_, -, rfl⟩ | ⟨_, _, -, -, rfl⟩ | ⟨_, -, hw⟩
    · exact .string _
    · exact .number _
    · exact hw.ordered
  | object hfields => exact Value.ordered_ofPairs (ordered_of_areFields hfields)
  | array hitems => exact .array (ordered_of_areItems hitems)
termination_by ts.length

theorem ordered_of_areFields {close : Char} {ts : List Kind} {fields : Value.Fields}
    (h : AreFields s ctx close ts fields) : ∀ f ∈ fields, f.2.Ordered := by
  cases h with
  | close => exact List.forall_mem_nil _
  | field _ _ _ hv _ _ hmore =>
    exact List.forall_mem_cons.mpr ⟨ordered_of_isValue hv, ordered_of_areFields hmore⟩
termination_by ts.length
decreasing_by
  all_goals
    subst_vars
    simp only [List.length_append, List.length_cons]
    omega

theorem ordered_of_areItems {ts : List Kind} {items : List Value} (h : AreItems s ctx ts items) :
    ∀ v ∈ items, v.Ordered := by
  cases h with
  | close => exact List.forall_mem_nil _
  | item _ hv _ _ hmore =>
    exact List.forall_mem_cons.mpr ⟨ordered_of_isValue hv, ordered_of_areItems hmore⟩
termination_by ts.length
decreasing_by
  all_goals
    have hvalue := List.length_pos_iff.mpr hv.ne_nil
    have hrest := List.length_pos_iff.mpr hmore.ne_nil
    subst_vars
    simp only [List.length_append]
    omega

end

/-- The table, as an object, is in order. -/
def OrderedTable (t : Table String Value) : Prop :=
  (Value.object t.entries).Ordered

section

variable {t as as' : Annotations} {ts : List Kind} {name : String} {v entry : Value}

theorem orderedTable_empty : OrderedTable .empty :=
  .emptyObject

theorem OrderedTable.insert (h : OrderedTable t) (hv : v.Ordered) (name : String) :
    OrderedTable (t.insert name v) :=
  Value.Ordered.insert h hv name

theorem OrderedTable.get? (h : OrderedTable t) (hget : t.get? name = some v) : v.Ordered :=
  Value.Ordered.find? h hget

theorem OrderedTable.document (h : OrderedTable as) (line : String) :
    OrderedTable (as.document line) :=
  h.insert (.string _) _

theorem ordered_of_isTrait (h : IsTrait s ts name v) : v.Ordered := by
  cases h with
  | bare => exact .emptyObject
  | applied _ _ hv =>
    cases hv with
    | fields hfields => exact Value.ordered_ofPairs (ordered_of_areFields hfields)
    | value hv => exact ordered_of_isValue hv

theorem AreAnnotations.orderedTable (h : AreAnnotations s as ts as') (has : OrderedTable as) :
    OrderedTable as' := by
  induction h with
  | done => exact has
  | newline _ ih => exact ih has
  | documentation _ ih => exact ih (has.document _)
  | applied _ htrait _ ih => exact ih (has.insert (ordered_of_isTrait htrait) _)

theorem ordered_of_attach (h : attach as v = .ok entry) (has : OrderedTable as) (hv : v.Ordered) :
    entry.Ordered := by
  rcases attach_eq_ok h with ⟨-, rfl⟩ | ⟨fields, ts, rfl, rfl, hts⟩
  · exact hv
  · have hexisting : (Value.object ts).Ordered := by
      cases hfind : Entries.find? "traits" fields with
      | none =>
        rw [hfind] at hts
        exact hts ▸ .emptyObject
      | some w =>
        rw [hfind] at hts
        exact hts ▸ hv.find? hfind
    exact hv.insert (hexisting.insertAll fun _ hp => Value.Ordered.of_mem has hp) "traits"

theorem ordered_attached (key : String) (hv : v.Ordered) (has : OrderedTable as) :
    (Value.ofPairs ((key, v) ::
      (if as.isEmpty then [] else [("traits", .object as.entries)]))).Ordered := by
  apply Value.ordered_ofPairs
  refine List.forall_mem_cons.mpr ⟨hv, ?_⟩
  split
  · exact nofun
  · exact List.forall_mem_singleton.mpr has

theorem AreMembers.ordered {isMember : Annotations → List Kind → String → Value → Prop}
    {ms : Value.Fields} (h : AreMembers s isMember ts ms)
    (hmember : ∀ as us name entry, OrderedTable as → isMember as us name entry → entry.Ordered) :
    ∀ m ∈ ms, m.2.Ordered := by
  induction h with
  | close => exact nofun
  | member hannotations hm _ _ ih =>
    have has := hannotations.orderedTable orderedTable_empty
    exact List.forall_mem_cons.mpr ⟨hmember _ _ _ _ has hm, ih⟩

theorem ordered_of_isMember (has : OrderedTable as) (h : IsMember s as ts name entry) :
    entry.Ordered := by
  cases h with
  | valued _ _ hv hattach => exact ordered_of_attach hattach has (ordered_of_isValue hv)

theorem ordered_of_isEnumMember (has : OrderedTable as) (h : IsEnumMember s as ts name entry) :
    entry.Ordered := by
  cases h with
  | named => exact ordered_attached _ (.string _) has
  | valued _ hv => exact ordered_attached _ (.string _) (has.insert (ordered_of_isValue hv) _)

theorem IsBody.ordered {style : BodyStyle} {start fields : Value.Fields}
    (h : IsBody s start style ts fields) (hstart : (Value.object start).Ordered) :
    (Value.object fields).Ordered := by
  cases h with
  | enumeration hms =>
    have hvalues := hms.ordered fun _ _ _ _ => ordered_of_isEnumMember
    exact hstart.insert (Value.ordered_ofPairs hvalues) _
  | members hms =>
    have hvalues := hms.ordered fun _ _ _ _ => ordered_of_isMember
    exact hstart.insert (Value.ordered_ofPairs hvalues) _
  | fields hms => exact hstart.insertAll (hms.ordered fun _ _ _ _ => ordered_of_isMember)

end

namespace Draft

/-- All values that have been read are in order. -/
structure Ordered (d : Draft) : Prop where
  metadata : OrderedTable d.metadata
  shapes : OrderedTable d.shapes
  pending : OrderedTable d.pending

variable {d d' : Draft} {ts ks rest : List Kind}

theorem ordered_start (names : List String) : (start names).Ordered :=
  ⟨orderedTable_empty, orderedTable_empty, orderedTable_empty⟩

theorem IsShape.ordered (h : IsShape d ts d') (hd : d.Ordered) : d'.Ordered := by
  have hstart (keyword : String) : (Value.object (shapeEntry keyword d.pending)).Ordered :=
    ordered_attached _ (.string _) hd.pending
  cases h with
  | bare => exact ⟨hd.metadata, hd.shapes.insert (hstart _) _, orderedTable_empty⟩
  | body _ hbody =>
    exact ⟨hd.metadata, hd.shapes.insert (hbody.ordered (hstart _)) _, orderedTable_empty⟩

theorem ordered_of_applyTo {id : Identifier} {as : Annotations} {v entry : Value}
    (h : applyTo id as v = .ok entry) (has : OrderedTable as) (hv : v.Ordered) :
    entry.Ordered := by
  rw [applyTo] at h
  cases hmember : id.member with
  | none =>
    rw [hmember] at h
    exact ordered_of_attach h has hv
  | some m =>
    rw [hmember] at h
    obtain ⟨fields, w, w', rfl, hw, hupdate, rfl⟩ := updateField_eq_ok_iff.mp h
    obtain ⟨ms, u, u', rfl, hu, hattach, rfl⟩ := updateField_eq_ok_iff.mp hupdate
    have hmembers := hv.find? hw
    exact hv.insert (hmembers.insert (ordered_of_attach hattach has (hmembers.find? hu)) _) _

theorem IsApplication.ordered (h : IsApplication d ts d') (hd : d.Ordered) : d'.Ordered := by
  cases h with
  | intro hentry _ htrait happly =>
    have hentry' := ordered_of_applyTo happly
      (orderedTable_empty.insert (ordered_of_isTrait htrait) _) (hd.shapes.get? hentry)
    exact ⟨hd.metadata, hd.shapes.insert hentry' _, hd.pending⟩

theorem IsStatement.ordered (h : IsStatement d ts d') (hd : d.Ordered) : d'.Ordered := by
  cases h with
  | space => exact ⟨hd.metadata, hd.shapes, hd.pending⟩
  | metadata _ _ hv => exact ⟨hd.metadata.insert (ordered_of_isValue hv) _, hd.shapes, hd.pending⟩
  | use => exact ⟨hd.metadata, hd.shapes, hd.pending⟩
  | application _ happlication => exact happlication.ordered hd
  | shape _ _ hshape => exact hshape.ordered hd

theorem IsStep.ordered (h : IsStep d ks rest d') (hd : d.Ordered) : d'.Ordered := by
  cases h with
  | statement hs => exact hs.ordered hd
  | applied _ htrait =>
    exact ⟨hd.metadata, hd.shapes, hd.pending.insert (ordered_of_isTrait htrait) _⟩

theorem Reads.ordered (h : Reads d ks d') (hd : d.Ordered) : d'.Ordered := by
  induction h with
  | done => exact hd
  | newline _ _ ih => exact ih hd
  | documentation _ ih => exact ih ⟨hd.metadata, hd.shapes, hd.pending.document _⟩
  | step hstep _ ih => exact ih (hstep.ordered hd)

theorem ReadsDocument.ordered (h : ReadsDocument d ks d') (hd : d.Ordered) : d'.Ordered := by
  induction h with
  | version _ _ ih => exact ih ⟨hd.metadata, hd.shapes, hd.pending⟩
  | statements _ hreads => exact hreads.ordered hd

theorem Ordered.toValue (h : d.Ordered) : d.toValue.Ordered := by
  apply Value.ordered_ofPairs
  intro p hp
  rcases List.mem_append.mp hp with hp | hp
  · cases hversion : d.version with
    | none => simp [hversion] at hp
    | some v =>
      rw [hversion, List.mem_singleton] at hp
      exact hp ▸ .string v
  · simp only [List.mem_cons, List.not_mem_nil, or_false] at hp
    rcases hp with rfl | rfl
    · exact h.metadata
    · exact h.shapes

end Draft

end Document

theorem Dialect.ordered_syntaxTree {d : Dialect} {s : Source} {ast : Value}
    (h : d.syntaxTree s = .ok ast) : ast.Ordered := by
  obtain ⟨ts, -, hts⟩ := bind_eq_ok_iff.mp h
  obtain ⟨draft, hreads, rfl⟩ := Document.ofTokens_eq_ok_iff.mp (mapError_eq_ok_iff.mp hts)
  exact (hreads.ordered (Document.Draft.ordered_start _)).toValue

end ShapeModel
