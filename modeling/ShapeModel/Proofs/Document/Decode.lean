import ShapeModel.Dialect
import ShapeModel.Proofs.Checks
import ShapeModel.Proofs.Document.Applied
import ShapeModel.Proofs.Identifier.Text
import ShapeModel.Proofs.Token.Lexer

/-!
# Models of documents

The model of a draft, shape by shape: each entry is decoded on its own, over the prelude, and no
traits are left to be applied. So a changed entry changes the shape of that name only.
-/

namespace ShapeModel

set_option autoImplicit false

open Token (Kind kinds)
open Document (Draft HasEntries IsEntry)

/-- The model of a text is that of the draft it is read with. -/
theorem Dialect.ofText_eq {text : String} {ks : List Kind} {d : Draft}
    (hks : kinds text.toList = .ok ks)
    (hd : Draft.ReadsDocument (.start TraitRegistry.builtin.names) (dropBreaks ks) d) :
    Dialect.builtin.ofText text = Dialect.builtin.ofValue d.toValue := by
  obtain ⟨ts, hts, hkinds⟩ := (@Token.tokens_kinds_iff ⟨unnamed, text⟩ ks).mpr hks
  have hcursor : (Cursor.ofTokens ⟨unnamed, text⟩ ts).kinds = ks := hkinds
  rw [← hcursor] at hd
  obtain ⟨c, h, hread, _⟩ := Draft.readDocument_gives_iff.mpr ⟨rfl, hd⟩
  rw [ofText, ofSource, syntaxTree, hts]
  simp only [mapError_ok, bind, Except.bind]
  rw [Document.ofTokens, show builtin.traits.names = TraitRegistry.builtin.names from rfl, hread]
  rfl

/-- The shape of an entry, as the decoder of its kind gives it. -/
def decodeEntry (name : String) (entry : Value) : Except Error Shape := do
  let kind ← Model.decodeKind (.ofText name) entry
  (ShapeRegistry.builtin.decode kind entry .builtin).mapError (Model.inShape (.ofText name))

namespace Document

variable {keyword : String} {fields : Value.Fields} {shapes : Table String Value}

theorem IsEntry.decodeKind_eq (h : IsEntry keyword fields) (id : Identifier) :
    Model.decodeKind id (.object fields) = .ok keyword := by
  rw [Model.decodeKind, decodeText, Value.present?, Value.get?, h.kind]
  rfl

theorem IsEntry.decodeEntry_eq_ok_iff {s : Shape} (h : IsEntry keyword fields) (name : String) :
    decodeEntry name (.object fields) = .ok s ↔
      ShapeRegistry.builtin.decode keyword (.object fields) .builtin = .ok s := by
  rw [decodeEntry, h.decodeKind_eq]
  exact mapError_eq_ok_iff

theorem HasEntries.exists_of_mem (h : HasEntries shapes) {name : String} {v : Value}
    (hmem : (name, v) ∈ shapes.entries) :
    ∃ keyword fields, v = .object fields ∧ IsEntry keyword fields :=
  h name v (Table.mem_entries_iff.mp hmem)

/-- Without entries of applied traits, shapes are decoded one by one. -/
theorem decodeShapes_eq {es : List (String × Value)}
    (h : ∀ name v, (name, v) ∈ es → ∃ keyword fields, v = .object fields ∧ IsEntry keyword fields)
    (m : Model) :
    Model.decodeShapes .builtin .builtin es m =
      (decodeInto Identifier.ofText decodeEntry es m.shapes).map
        fun shapes => ({ m with shapes := shapes }, []) := by
  induction es generalizing m with
  | nil => rfl
  | cons e es ih =>
    obtain ⟨name, v⟩ := e
    obtain ⟨keyword, fields, rfl, hfields⟩ := h name v List.mem_cons_self
    have htail := ih fun name v hmem => h name v (List.mem_cons_of_mem _ hmem)
    have hkind := hfields.decodeKind_eq (.ofText name)
    rw [Model.decodeShapes, decodeInto, decodeEntry, hkind]
    cases hdecode : ShapeRegistry.builtin.decode keyword (.object fields) .builtin with
    | error e => simp [hfields.declared, hdecode, bind, Except.bind, mapError_error, Except.map]
    | ok s =>
      simp only [hfields.declared, hdecode, bind, Except.bind, mapError_ok, if_false]
      exact htail _

end Document

namespace Document.Draft

variable {d : Draft} {m : Model}

theorem get?_toValue (d : Draft) (name : String) :
    d.toValue.get? name =
      if name = "shapes" then some (.object d.shapes.entries)
      else if name = "metadata" then some (.object d.metadata.entries)
      else if name = "smithy" then d.version.map .string
      else none := by
  rw [toValue, Value.ofPairs, Value.get?]
  cases d.version <;> simp [Entries.ofList, Entries.find?_insert]

theorem decodeText_toValue (d : Draft) : decodeText d.toValue "smithy" = .ok d.version := by
  rw [decodeText, Value.present?, get?_toValue]
  cases d.version <;> rfl

theorem decodeObject_metadata_toValue (d : Draft) :
    Model.decodeObject d.toValue "metadata" = .ok d.metadata.entries := by
  rw [Model.decodeObject, Value.present?, get?_toValue]
  rfl

theorem decodeObject_shapes_toValue (d : Draft) :
    Model.decodeObject d.toValue "shapes" = .ok d.shapes.entries := by
  rw [Model.decodeObject, Value.present?, get?_toValue]
  rfl

/-- The model of a draft has its version, its metadata and its decoded shapes. -/
theorem ofValue_toValue_eq_ok_iff (hd : HasEntries d.shapes) :
    Dialect.builtin.ofValue d.toValue = .ok m ↔
      decodeInto Identifier.ofText decodeEntry d.shapes.entries Model.prelude.shapes =
        .ok m.shapes ∧
      m.version = d.version.getD Model.defaultVersion ∧
      m.metadata = .ofList d.metadata.entries := by
  rw [Dialect.ofValue, Model.decode, decodeText_toValue, decodeObject_metadata_toValue,
    decodeObject_shapes_toValue]
  simp only [bind, Except.bind]
  rw [Dialect.builtin, decodeShapes_eq fun _ _ hmem => hd.exists_of_mem hmem]
  cases decodeInto Identifier.ofText decodeEntry d.shapes.entries Model.prelude.shapes with
  | error e => simp [Except.map]
  | ok shapes =>
    simp only [Except.map, Model.applyAll, Except.ok.injEq]
    constructor
    · rintro rfl
      exact ⟨rfl, rfl, rfl⟩
    · rintro ⟨rfl, hversion, hmetadata⟩
      rw [← hversion, ← hmetadata]

/-- The shape that was decoded from an entry. -/
theorem exists_shape_of_get? (hd : HasEntries d.shapes)
    (hm : Dialect.builtin.ofValue d.toValue = .ok m) {name : String} {v : Value}
    (hv : d.shapes.get? name = some v) :
    ∃ keyword fields s, v = .object fields ∧ IsEntry keyword fields ∧
      ShapeRegistry.builtin.decode keyword (.object fields) .builtin = .ok s ∧
      m.shapes.get? (.ofText name) = some s := by
  obtain ⟨keyword, fields, rfl, hfields⟩ := hd name v hv
  obtain ⟨hdecode, _⟩ := (ofValue_toValue_eq_ok_iff hd).mp hm
  obtain ⟨s, hs, hget⟩ :=
    exists_of_decodeInto (fun _ _ => Identifier.ofText_inj) d.shapes.ascending hdecode hv
  exact ⟨keyword, fields, s, rfl, hfields, (hfields.decodeEntry_eq_ok_iff name).mp hs, hget⟩

/-- The model of a draft with one entry changed. -/
theorem ofValue_toValue_insert_eq_ok_iff (hd : HasEntries d.shapes)
    (hm : Dialect.builtin.ofValue d.toValue = .ok m) {keyword name : String}
    {fields : Value.Fields} (hfields : IsEntry keyword fields) (m' : Model) :
    Dialect.builtin.ofValue
        { d with shapes := d.shapes.insert name (.object fields) }.toValue = .ok m' ↔
      ∃ s, ShapeRegistry.builtin.decode keyword (.object fields) .builtin = .ok s ∧
        m.insertShape (.ofText name) s = m' := by
  obtain ⟨hdecode, hversion, hmetadata⟩ := (ofValue_toValue_eq_ok_iff hd).mp hm
  have hinsert := decodeInto_insert (fun _ _ => Identifier.ofText_inj) d.shapes.ascending hdecode
    name (.object fields)
  rw [ofValue_toValue_eq_ok_iff (hd.insert hfields name), Table.insert, hinsert, map_eq_ok_iff]
  simp only [hfields.decodeEntry_eq_ok_iff]
  constructor
  · rintro ⟨⟨s, hs, hshapes⟩, hversion', hmetadata'⟩
    refine ⟨s, hs, ?_⟩
    rw [Model.insertShape, hshapes, hversion, hmetadata, ← hversion', ← hmetadata']
  · rintro ⟨s, hs, rfl⟩
    exact ⟨⟨s, hs, rfl⟩, hversion, hmetadata⟩

end Document.Draft

end ShapeModel
