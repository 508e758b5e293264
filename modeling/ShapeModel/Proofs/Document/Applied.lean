import ShapeModel.Proofs.Document.Entry
import ShapeModel.Proofs.Model.AddTrait
import ShapeModel.Proofs.Shape.Decode
import ShapeModel.Proofs.Trait.Decode

/-!
# Applied traits in entries

Applying a trait to an entry and decoding it gives the shape that was decoded before, with the
decoded trait added to it or to its member; it fails only where the trait itself is not decoded.
-/

namespace ShapeModel

set_option autoImplicit false

namespace Document

variable {fields : Value.Fields} {keyword name : String} {v : Value}

/-- An entry with one trait applied. -/
def withTrait (name : String) (v : Value) (fields : Value.Fields) : Value.Fields :=
  withTraits (Entries.insert name v (traitFields fields)) fields

theorem attach_eq_withTrait (h : HoldsTraits fields) (name : String) (v : Value) :
    attach (Table.empty.insert name v) (.object fields) = .ok (.object (withTrait name v fields)) :=
  h.attach_eq rfl

theorem decodeTraits_object (h : HoldsTraits fields) (r : TraitRegistry) :
    decodeTraits r (.object fields) = Traits.decodeEntries r (traitFields fields) .empty := by
  rw [decodeTraits, Value.present?, Value.get?, traitFields]
  cases hfind : Entries.find? "traits" fields with
  | none => rfl
  | some v =>
    obtain ⟨ts, rfl, _⟩ := h v hfind
    rfl

theorem traitFields_withTraits (ts fields : Value.Fields) :
    traitFields (withTraits ts fields) = ts := by
  rw [traitFields, withTraits, Entries.find?_insert_self]

theorem decodeTraits_withTrait {ts : Traits} (h : HoldsTraits fields)
    (hts : decodeTraits .builtin (.object fields) = .ok ts) (name : String) (v : Value) :
    decodeTraits .builtin (.object (withTrait name v fields)) =
      (TraitRegistry.builtin.decode name v).map ts.add := by
  have hascending := h.ascending.insert name v
  rw [decodeTraits_object h] at hts
  rw [withTrait, decodeTraits_object (holdsTraits_withTraits hascending fields),
    traitFields_withTraits]
  exact Traits.decodeEntries_insert h.ascending hts name v

theorem get?_withTrait {key : String} (h : key ≠ "traits") (name : String) (v : Value)
    (fields : Value.Fields) :
    (Value.object (withTrait name v fields)).get? key = (Value.object fields).get? key :=
  find?_withTraits h _ fields

theorem decode_member_withTrait {x : Member} (h : HoldsTraits fields)
    (hx : Member.decode .builtin (.object fields) = .ok x) (name : String) (v : Value) :
    Member.decode .builtin (.object (withTrait name v fields)) =
      (TraitRegistry.builtin.decode name v).map fun t => { x with traits := x.traits.add t } := by
  obtain ⟨target, htarget, hx⟩ := bind_eq_ok_iff.mp hx
  obtain ⟨ts, hts, hx⟩ := bind_eq_ok_iff.mp hx
  cases hx
  have htarget' := Member.decodeTarget_congr (get?_withTrait (by decide) name v fields)
  rw [Member.decode, htarget', htarget, decodeTraits_withTrait h hts]
  cases TraitRegistry.builtin.decode name v <;> rfl

/-- A trait applied to the shape itself. -/
theorem decode_shape_withTrait {k : ShapeKind} {s : Shape} (h : HoldsTraits fields)
    (hs : Shape.decode k (.object fields) .builtin = .ok s) (name : String) (v : Value)
    (s' : Shape) :
    Shape.decode k (.object (withTrait name v fields)) .builtin = .ok s' ↔
      ∃ t, TraitRegistry.builtin.decode name v = .ok t ∧
        { s with traits := s.traits.add t } = s' := by
  obtain ⟨hbody, htraits⟩ := Shape.decode_eq_ok_iff.mp hs
  rw [Shape.decode_eq_ok_iff, decodeTraits_withTrait h htraits, map_eq_ok_iff,
    Shape.decodeBody_congr fun key hkey => get?_withTrait hkey name v fields, hbody]
  constructor
  · rintro ⟨hbody', t, ht, htraits'⟩
    refine ⟨t, ht, ?_⟩
    rw [htraits', Except.ok.inj hbody']
  · rintro ⟨t, ht, rfl⟩
    exact ⟨rfl, t, ht, rfl⟩

/-- The members of an aggregate stand in its entry. -/
theorem IsEntry.exists_members {ak : AggregateKind} {ms : Members} {x : Member}
    (h : IsEntry ak.name fields)
    (hms : Member.decodeNamed .builtin Shape.inMember (.object fields) "members" = .ok ms)
    (hx : ms.get? name = some x) :
    ∃ es member, Entries.find? "members" fields = some (.object es) ∧ Entries.Ascending es ∧
      Member.decodeFields .builtin Shape.inMember es .empty = .ok ms ∧
      Entries.find? name es = some (.object member) ∧ HoldsTraits member ∧
      Member.decode .builtin (.object member) = .ok x := by
  have hstyle : BodyStyle.ofKeyword ak.name ≠ .fields := by
    cases ak <;> decide
  have hkey (j k : String) (hj : id j = id k) : j = k := hj
  rw [Member.decodeNamed, Value.present?, Value.get?] at hms
  cases hfind : Entries.find? "members" fields with
  | none =>
    rw [hfind] at hms
    cases hms
    cases hx
  | some w =>
    obtain ⟨es, rfl, hes, hmembers⟩ := h.members hstyle w hfind
    rw [hfind] at hms
    have hdecode : Member.decodeFields .builtin Shape.inMember es .empty = .ok ms := hms
    have hinto := hdecode
    rw [Member.decodeFields_eq] at hinto
    obtain ⟨u, hname, hu⟩ := exists_find?_of_decodeInto hkey hes hinto rfl hx
    have hu := mapError_eq_ok_iff.mp hu
    obtain ⟨member, rfl⟩ := Member.exists_object_of_decode hu
    exact ⟨es, member, rfl, hes, hdecode, hname, hmembers name member hname, hu⟩

theorem decodeFields_withTrait {es member : Value.Fields} {ms : Members} {x : Member}
    (hes : Entries.Ascending es)
    (hms : Member.decodeFields .builtin Shape.inMember es .empty = .ok ms)
    (hmember : HoldsTraits member) (hx : Member.decode .builtin (.object member) = .ok x)
    (name traitName : String) (v : Value) (ms' : Members) :
    Member.decodeFields .builtin Shape.inMember
        (Entries.insert name (.object (withTrait traitName v member)) es) .empty = .ok ms' ↔
      ∃ t, TraitRegistry.builtin.decode traitName v = .ok t ∧
        ms.insert name { x with traits := x.traits.add t } = ms' := by
  have hkey (j k : String) (hj : id j = id k) : j = k := hj
  rw [Member.decodeFields_eq] at hms
  rw [Member.decodeFields_eq, decodeInto_insert hkey hes hms,
    decode_member_withTrait hmember hx, map_eq_ok_iff]
  constructor
  · rintro ⟨x', hx', hms'⟩
    obtain ⟨t, ht, rfl⟩ := map_eq_ok_iff.mp (mapError_eq_ok_iff.mp hx')
    exact ⟨t, ht, hms'⟩
  · rintro ⟨t, ht, hms'⟩
    exact ⟨_, mapError_eq_ok_iff.mpr (map_eq_ok_iff.mpr ⟨t, ht, rfl⟩), hms'⟩

theorem decodeBody_insert_members (r : TraitRegistry) (ak : AggregateKind)
    (es fields : Value.Fields) :
    Shape.decodeBody r (.object (Entries.insert "members" (.object es) fields)) (.aggregate ak) =
      (Member.decodeFields r Shape.inMember es .empty).map (.aggregate ak) := by
  rw [Shape.decodeBody, Member.decodeNamed, Value.present?, Value.get?, Entries.find?_insert_self]
  rfl

theorem decodeTraits_insert_members (r : TraitRegistry) (w : Value) (fields : Value.Fields) :
    decodeTraits r (.object (Entries.insert "members" w fields)) =
      decodeTraits r (.object fields) := by
  apply decodeTraits_congr
  exact Entries.find?_insert_of_ne (by decide) w fields

/-- A trait applied to a member of an aggregate. -/
theorem decode_shape_withMember {ak : AggregateKind} {s : Shape} {ms : Members} {x : Member}
    {es member : Value.Fields} (hs : Shape.decode (.aggregate ak) (.object fields) .builtin = .ok s)
    (hbody : s.body = .aggregate ak ms) (hname : ms.get? name = some x)
    (hes : Entries.Ascending es)
    (hms : Member.decodeFields .builtin Shape.inMember es .empty = .ok ms)
    (hmember : HoldsTraits member) (hx : Member.decode .builtin (.object member) = .ok x)
    (traitName : String) (v : Value) (s' : Shape) :
    Shape.decode (.aggregate ak) (.object (Entries.insert "members"
        (.object (Entries.insert name (.object (withTrait traitName v member)) es)) fields))
        .builtin = .ok s' ↔
      ∃ t, TraitRegistry.builtin.decode traitName v = .ok t ∧
        s.updateMember? name (fun x => { x with traits := x.traits.add t }) = some s' := by
  have htraits := (Shape.decode_eq_ok_iff.mp hs).2
  have hupdate := Shape.updateMember?_eq hbody hname
  rw [Shape.decode_eq_ok_iff, decodeBody_insert_members, decodeTraits_insert_members, htraits,
    map_eq_ok_iff]
  constructor
  · rintro ⟨⟨ms', hms', hbody'⟩, htraits'⟩
    obtain ⟨t, ht, rfl⟩ := (decodeFields_withTrait hes hms hmember hx _ _ _ _).mp hms'
    refine ⟨t, ht, ?_⟩
    rw [hupdate, hbody', Except.ok.inj htraits']
  · rintro ⟨t, ht, hs'⟩
    rw [hupdate] at hs'
    obtain rfl := Option.some.inj hs'
    exact ⟨⟨_, (decodeFields_withTrait hes hms hmember hx _ _ _ _).mpr ⟨t, ht, rfl⟩, rfl⟩, rfl⟩

/-- A trait can be applied to every entry that was decoded, and what is decoded then is the shape
with the trait added. -/
theorem exists_applyTo {s : Shape} {id : Identifier} (h : IsEntry keyword fields)
    (hs : ShapeRegistry.builtin.decode keyword (.object fields) .builtin = .ok s)
    (hid : ∀ m, id.member = some m → (s.member? m).isSome = true) (name : String) (v : Value) :
    ∃ fields', Draft.applyTo id (Table.empty.insert name v) (.object fields) =
        .ok (.object fields') ∧
      ∀ s', ShapeRegistry.builtin.decode keyword (.object fields') .builtin = .ok s' ↔
        ∃ t, TraitRegistry.builtin.decode name v = .ok t ∧ s.addTrait? id t = some s' := by
  obtain ⟨k, rfl, hk⟩ := ShapeRegistry.exists_kind_of_decode hs
  rw [hk] at hs
  unfold Draft.applyTo Shape.addTrait?
  cases hmember : id.member with
  | none =>
    refine ⟨_, attach_eq_withTrait h.traits name v, fun s' => ?_⟩
    rw [hk, decode_shape_withTrait h.traits hs]
    simp only [Option.some.injEq]
  | some m =>
    obtain ⟨x, hx⟩ := Option.isSome_iff_exists.mp (hid m hmember)
    obtain ⟨ak, ms, hbody, hm⟩ := Shape.exists_aggregate_of_member? hx
    obtain ⟨hdecode, _⟩ := Shape.decode_eq_ok_iff.mp hs
    rw [hbody] at hdecode
    obtain ⟨rfl, hms⟩ := Shape.decodeBody_eq_aggregate hdecode
    obtain ⟨es, member, hfind, hes, hms, hfindm, hmember, hdecoded⟩ := h.exists_members hms hm
    have hattach := attach_eq_withTrait hmember name v
    have hupdate := (@updateField_eq_ok_iff m _ (.applyToUndeclaredShape id.toText) _ _).mpr
      ⟨es, _, _, rfl, hfindm, hattach, rfl⟩
    refine ⟨_, updateField_eq_ok_iff.mpr ⟨fields, _, _, rfl, hfind, hupdate, rfl⟩, fun s' => ?_⟩
    rw [hk]
    exact decode_shape_withMember hs hbody hm hes hms hmember hdecoded name v s'

end Document

end ShapeModel
