import ShapeModel.Proofs.Trait.Plain
import ShapeModel.Shape.Decode

/-!
# Shapes from plain values

The entry of a shape without doubles and its plain form are decoded alike, field by field: texts are
the same in both, and all that is kept of other values are traits.
-/

namespace ShapeModel

set_option autoImplicit false

namespace Value

variable {v : Value}

theorem isNull_plain (hv : v.Integral) : v.plain.isNull = v.isNull := by
  cases v with
  | number n =>
    obtain ⟨m, hm⟩ := exists_plain_number hv
    rw [hm]
    rfl
  | _ => rfl

theorem get?_plain (hv : v.Integral) (key : String) :
    v.plain.get? key = (v.get? key).map plain := by
  cases v with
  | number n =>
    obtain ⟨m, hm⟩ := exists_plain_number hv
    rw [hm]
    rfl
  | object fields =>
    rw [plain, get?, get?, plainFields_eq_map]
    exact Entries.find?_map (fun _ v => v.plain) key fields
  | _ => rfl

theorem Integral.get? {w : Value} {key : String} (hv : v.Integral) (h : v.get? key = some w) :
    w.Integral := by
  cases v with
  | object fields => exact hv.of_mem_fields _ (Entries.mem_of_find? h)
  | _ => cases h

/-- A field that is there is there in plain form. -/
theorem get?_plain_cases (hv : v.Integral) (key : String) :
    v.get? key = none ∧ v.plain.get? key = none ∨
      ∃ w, w.Integral ∧ v.get? key = some w ∧ v.plain.get? key = some w.plain := by
  have hplain := get?_plain hv key
  cases hget : v.get? key with
  | none =>
    rw [hget] at hplain
    exact .inl ⟨rfl, hplain⟩
  | some w =>
    rw [hget] at hplain
    exact .inr ⟨w, hv.get? hget, rfl, hplain⟩

theorem present?_plain_cases (hv : v.Integral) (key : String) :
    v.present? key = none ∧ v.plain.present? key = none ∨
      ∃ w, w.Integral ∧ v.present? key = some w ∧ v.plain.present? key = some w.plain := by
  rcases get?_plain_cases hv key with ⟨hnone, hplain⟩ | ⟨w, hw, hsome, hplain⟩
  · exact .inl ⟨by rw [present?, hnone]; rfl, by rw [present?, hplain]; rfl⟩
  · rw [present?, present?, hsome, hplain, Option.filter_some, Option.filter_some, isNull_plain hw]
    cases w.isNull with
    | true => exact .inl ⟨rfl, rfl⟩
    | false => exact .inr ⟨w, hw, rfl, rfl⟩

theorem asString_plain (hv : v.Integral) : v.plain.asString = v.asString := by
  cases v with
  | number n =>
    obtain ⟨m, hm⟩ := exists_plain_number hv
    rw [hm]
    rfl
  | _ => rfl

theorem agree_asArray (hv : v.Integral) :
    Agree (fun vs ws => (∀ v ∈ vs, v.Integral) ∧ ws = plainItems vs) v.asArray v.plain.asArray := by
  cases v with
  | number n =>
    obtain ⟨m, hm⟩ := exists_plain_number hv
    rw [hm]
    exact .error _
  | array items => exact .ok ⟨hv.of_mem_items, rfl⟩
  | _ => exact .error _

theorem agree_asObject (hv : v.Integral) :
    Agree (fun fs gs => (∀ f ∈ fs, f.2.Integral) ∧ gs = plainFields fs)
      v.asObject v.plain.asObject := by
  cases v with
  | number n =>
    obtain ⟨m, hm⟩ := exists_plain_number hv
    rw [hm]
    exact .error _
  | object fields => exact .ok ⟨hv.of_mem_fields, rfl⟩
  | _ => exact .error _

end Value

theorem decodeText_plain {v : Value} (hv : v.Integral) (name : String) :
    decodeText v.plain name = decodeText v name := by
  rw [decodeText, decodeText]
  rcases v.present?_plain_cases hv name with ⟨hnone, hplain⟩ | ⟨w, hw, hsome, hplain⟩
  · rw [hnone, hplain]
  · simp only [hsome, hplain, Value.asString_plain hw]

theorem agree_decodeText {v : Value} (hv : v.Integral) (name : String) :
    Agree Same (decodeText v name) (decodeText v.plain name) := by
  rw [decodeText_plain hv]
  exact .refl fun _ _ => BEq.rfl

theorem TraitRegistry.TakesPlain.traits {r : TraitRegistry} (h : r.TakesPlain) {v : Value}
    (hv : v.Integral) : Agree Same (decodeTraits r v) (decodeTraits r v.plain) := by
  rw [decodeTraits, decodeTraits]
  rcases v.present?_plain_cases hv "traits" with ⟨hnone, hplain⟩ | ⟨w, hw, hsome, hplain⟩
  · rw [hnone, hplain]
    exact .ok rfl
  · rw [hsome, hplain]
    exact h.table hw

namespace Member

variable {r : TraitRegistry} {v : Value}

theorem same_mk {target : Identifier} {ts us : Traits} (h : Same ts us) :
    Same (Member.mk target ts) ⟨target, us⟩ := by
  change (target == target && ts == us) = true
  rw [BEq.rfl, h]
  rfl

theorem agree_decodeTarget (hv : v.Integral) :
    Agree Eq (decodeTarget v) (decodeTarget v.plain) := by
  rw [decodeTarget, decodeTarget, decodeText_plain hv]
  exact .refl fun _ _ => rfl

theorem agree_decode (h : r.TakesPlain) (hv : v.Integral) :
    Agree Same (decode r v) (decode r v.plain) := by
  refine (agree_decodeTarget hv).bind ?_
  rintro target _ rfl
  exact (h.traits hv).bind fun ts us hts => .ok (same_mk hts)

theorem agree_decodeAll (h : r.TakesPlain) {vs : List Value} (hvs : ∀ v ∈ vs, v.Integral) :
    Agree Same (decodeAll r vs) (decodeAll r (Value.plainItems vs)) := by
  induction vs with
  | nil => exact .ok rfl
  | cons v vs ih =>
    obtain ⟨hv, hvs⟩ := List.forall_mem_cons.mp hvs
    refine (agree_decode h hv).bind fun m m' hm => ?_
    exact (ih hvs).bind fun ms ms' hms => .ok (same_cons hm hms)

theorem agree_decodeFields (h : r.TakesPlain) (wrap : String → Error → Error)
    {fs : Value.Fields} (hfs : ∀ f ∈ fs, f.2.Integral) {ms ms' : Members} (hms : Same ms ms') :
    Agree Same (decodeFields r wrap fs ms) (decodeFields r wrap (Value.plainFields fs) ms') := by
  induction fs generalizing ms ms' with
  | nil => exact .ok hms
  | cons f fs ih =>
    obtain ⟨name, v⟩ := f
    obtain ⟨hv, hfs⟩ := List.forall_mem_cons.mp hfs
    refine ((agree_decode h hv).mapError (wrap name)).bind fun m m' hm => ?_
    exact ih hfs (Table.same_insert hms hm name)

theorem agree_decodeList (h : r.TakesPlain) (hv : v.Integral) (name : String) :
    Agree Same (decodeList r v name) (decodeList r v.plain name) := by
  rw [decodeList, decodeList]
  rcases v.present?_plain_cases hv name with ⟨hnone, hplain⟩ | ⟨w, hw, hsome, hplain⟩
  · rw [hnone, hplain]
    exact .ok rfl
  · rw [hsome, hplain]
    refine ((Value.agree_asArray hw).mapError (Error.inField name)).bind ?_
    rintro vs _ ⟨hvs, rfl⟩
    exact agree_decodeAll h hvs

theorem agree_decodeOptional (h : r.TakesPlain) (hv : v.Integral) (name : String) :
    Agree Same (decodeOptional r v name) (decodeOptional r v.plain name) := by
  rw [decodeOptional, decodeOptional]
  rcases v.present?_plain_cases hv name with ⟨hnone, hplain⟩ | ⟨w, hw, hsome, hplain⟩
  · rw [hnone, hplain]
    exact .ok rfl
  · rw [hsome, hplain]
    exact ((agree_decode h hw).map fun m m' => same_some).mapError _

theorem agree_decodeRequired (h : r.TakesPlain) (hv : v.Integral) (context name : String) :
    Agree Same (decodeRequired r v context name) (decodeRequired r v.plain context name) := by
  rw [decodeRequired, decodeRequired]
  rcases v.get?_plain_cases hv name with ⟨hnone, hplain⟩ | ⟨w, hw, hsome, hplain⟩
  · rw [hnone, hplain]
    exact .error _
  · rw [hsome, hplain]
    exact agree_decode h hw

theorem agree_decodeNamed (h : r.TakesPlain) (hv : v.Integral) (wrap : String → Error → Error)
    (name : String) : Agree Same (decodeNamed r wrap v name) (decodeNamed r wrap v.plain name) := by
  rw [decodeNamed, decodeNamed]
  rcases v.present?_plain_cases hv name with ⟨hnone, hplain⟩ | ⟨w, hw, hsome, hplain⟩
  · rw [hnone, hplain]
    exact .ok rfl
  · rw [hsome, hplain]
    refine ((Value.agree_asObject hw).mapError (Error.inField name)).bind ?_
    rintro fs _ ⟨hfs, rfl⟩
    exact agree_decodeFields h wrap hfs rfl

end Member

namespace Shape

variable {r : TraitRegistry} {v : Value}

theorem agree_decodeService (h : r.TakesPlain) (hv : v.Integral) :
    Agree Same (decodeService r v) (decodeService r v.plain) := by
  refine (agree_decodeText hv _).bind fun version version' hversion => ?_
  refine (Member.agree_decodeList h hv _).bind fun operations operations' hoperations => ?_
  refine (Member.agree_decodeList h hv _).bind fun resources resources' hresources => ?_
  refine (Member.agree_decodeList h hv _).bind fun errors errors' herrors => .ok ?_
  change (version == version' && (operations == operations' &&
    (resources == resources' && errors == errors'))) = true
  rw [hversion, hoperations, hresources, herrors]
  rfl

theorem agree_decodeOperation (h : r.TakesPlain) (hv : v.Integral) :
    Agree Same (decodeOperation r v) (decodeOperation r v.plain) := by
  refine (Member.agree_decodeOptional h hv _).bind fun input input' hinput => ?_
  refine (Member.agree_decodeOptional h hv _).bind fun output output' houtput => ?_
  refine (Member.agree_decodeList h hv _).bind fun errors errors' herrors => .ok ?_
  change (input == input' && (output == output' && errors == errors')) = true
  rw [hinput, houtput, herrors]
  rfl

theorem agree_decodeLifecycle (h : r.TakesPlain) (hv : v.Integral) :
    Agree Same (decodeLifecycle r v) (decodeLifecycle r v.plain) := by
  refine (Member.agree_decodeOptional h hv _).bind fun create create' hcreate => ?_
  refine (Member.agree_decodeOptional h hv _).bind fun put put' hput => ?_
  refine (Member.agree_decodeOptional h hv _).bind fun read read' hread => ?_
  refine (Member.agree_decodeOptional h hv _).bind fun update update' hupdate => ?_
  refine (Member.agree_decodeOptional h hv _).bind fun delete delete' hdelete => ?_
  refine (Member.agree_decodeOptional h hv _).bind fun list list' hlist => .ok ?_
  change (create == create' && (put == put' && (read == read' && (update == update' &&
    (delete == delete' && list == list'))))) = true
  rw [hcreate, hput, hread, hupdate, hdelete, hlist]
  rfl

theorem agree_decodeResource (h : r.TakesPlain) (hv : v.Integral) :
    Agree Same (decodeResource r v) (decodeResource r v.plain) := by
  refine (Member.agree_decodeNamed h hv _ _).bind fun identifiers identifiers' hidentifiers => ?_
  refine (Member.agree_decodeNamed h hv _ _).bind fun properties properties' hproperties => ?_
  refine (agree_decodeLifecycle h hv).bind fun lifecycle lifecycle' hlifecycle => ?_
  refine (Member.agree_decodeList h hv _).bind fun operations operations' hoperations => ?_
  refine (Member.agree_decodeList h hv _).bind fun collection collection' hcollection => ?_
  refine (Member.agree_decodeList h hv _).bind fun resources resources' hresources => .ok ?_
  change (identifiers == identifiers' && (properties == properties' &&
    (lifecycle == lifecycle' && (operations == operations' && (collection == collection' &&
      resources == resources'))))) = true
  rw [hidentifiers, hproperties, hlifecycle, hoperations, hcollection, hresources]
  rfl

theorem agree_decodeMap (h : r.TakesPlain) (hv : v.Integral) :
    Agree Same (decodeMap r v) (decodeMap r v.plain) := by
  refine (Member.agree_decodeRequired h hv _ _).bind fun key key' hkey => ?_
  refine (Member.agree_decodeRequired h hv _ _).bind fun value value' hvalue => .ok ?_
  change (key == key' && value == value') = true
  rw [hkey, hvalue]
  rfl

theorem agree_decodeBody (h : r.TakesPlain) (hv : v.Integral) (k : ShapeKind) :
    Agree Same (decodeBody r v k) (decodeBody r v.plain k) := by
  cases k with
  | simple k =>
    have hkind : (k == k) = true := BEq.rfl
    exact .ok hkind
  | collection k =>
    refine (Member.agree_decodeRequired h hv _ _).map fun m m' hm => ?_
    exact Bool.and_eq_true_iff.mpr ⟨BEq.rfl, hm⟩
  | map => exact agree_decodeMap h hv
  | aggregate k =>
    refine (Member.agree_decodeNamed h hv _ _).map fun ms ms' hms => ?_
    exact Bool.and_eq_true_iff.mpr ⟨BEq.rfl, hms⟩
  | member => exact .error _
  | service => exact (agree_decodeService h hv).map fun _ _ hs => hs
  | operation => exact (agree_decodeOperation h hv).map fun _ _ ho => ho
  | resource => exact (agree_decodeResource h hv).map fun _ _ hr => hr

end Shape

/-- The outcome is the same for an entry without doubles and for its plain form. -/
def ShapeDecoder.TakesPlain (decode : ShapeDecoder) (r : TraitRegistry) : Prop :=
  ∀ v, v.Integral → Agree Same (decode v r) (decode v.plain r)

theorem Shape.takesPlain_decode {r : TraitRegistry} (h : r.TakesPlain) (k : ShapeKind) :
    ShapeDecoder.TakesPlain (Shape.decode k) r := by
  intro v hv
  refine (agree_decodeBody h hv k).bind fun body body' hbody => ?_
  refine (h.traits hv).bind fun ts us hts => .ok ?_
  exact Bool.and_eq_true_iff.mpr ⟨hbody, hts⟩

end ShapeModel
