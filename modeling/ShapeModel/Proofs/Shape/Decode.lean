import ShapeModel.Shape.Decode
import ShapeModel.Proofs.Checks
import ShapeModel.Proofs.Table.Decode

/-!
# Decoded shapes

Which fields of an entry the decoder of a shape looks at: the body does not depend on the traits,
and the traits depend on their own field only. Named members are decoded like the entries of any
table.
-/

namespace ShapeModel

set_option autoImplicit false

variable {v v' : Value} {r : TraitRegistry} {name : String}

theorem Value.present?_congr (h : v.get? name = v'.get? name) :
    v.present? name = v'.present? name := by
  rw [present?, present?, h]

theorem decodeText_congr (h : v.get? name = v'.get? name) :
    decodeText v name = decodeText v' name := by
  rw [decodeText, decodeText, Value.present?_congr h]

theorem decodeTraits_congr (h : v.get? "traits" = v'.get? "traits") :
    decodeTraits r v = decodeTraits r v' := by
  rw [decodeTraits, decodeTraits, Value.present?_congr h]

namespace Member

theorem decodeTarget_congr (h : v.get? "target" = v'.get? "target") :
    decodeTarget v = decodeTarget v' := by
  rw [decodeTarget, decodeTarget, decodeText_congr h]

theorem decodeList_congr (h : v.get? name = v'.get? name) :
    decodeList r v name = decodeList r v' name := by
  rw [decodeList, decodeList, Value.present?_congr h]

theorem decodeOptional_congr (h : v.get? name = v'.get? name) :
    decodeOptional r v name = decodeOptional r v' name := by
  rw [decodeOptional, decodeOptional, Value.present?_congr h]

theorem decodeRequired_congr (h : v.get? name = v'.get? name) (context : String) :
    decodeRequired r v context name = decodeRequired r v' context name := by
  rw [decodeRequired, decodeRequired, h]

theorem decodeNamed_congr (h : v.get? name = v'.get? name) (wrap : String → Error → Error) :
    decodeNamed r wrap v name = decodeNamed r wrap v' name := by
  rw [decodeNamed, decodeNamed, Value.present?_congr h]

theorem decodeFields_eq (wrap : String → Error → Error) (fs : List (String × Value))
    (ms : Members) :
    decodeFields r wrap fs ms =
      decodeInto id (fun name v => (decode r v).mapError (wrap name)) fs ms := by
  induction fs generalizing ms with
  | nil => rfl
  | cons e fs ih =>
    obtain ⟨name, v⟩ := e
    rw [decodeFields, decodeInto]
    cases decode r v with
    | error e => rfl
    | ok m => exact ih _

/-- Only objects are members. -/
theorem exists_object_of_decode {m : Member} (h : decode r v = .ok m) :
    ∃ fields, v = .object fields := by
  obtain ⟨target, htarget, _⟩ := bind_eq_ok_iff.mp h
  cases v with
  | object fields => exact ⟨fields, rfl⟩
  | _ => cases htarget

end Member

namespace Shape

/-- The body of a shape does not depend on the traits. -/
theorem decodeBody_congr (h : ∀ name, name ≠ "traits" → v.get? name = v'.get? name)
    (k : ShapeKind) : decodeBody r v k = decodeBody r v' k := by
  have hlist (name : String) (hname : name ≠ "traits") :=
    Member.decodeList_congr (r := r) (h name hname)
  have hoptional (name : String) (hname : name ≠ "traits") :=
    Member.decodeOptional_congr (r := r) (h name hname)
  have hrequired (name : String) (hname : name ≠ "traits") :=
    Member.decodeRequired_congr (r := r) (h name hname)
  have hnamed (name : String) (hname : name ≠ "traits") :=
    Member.decodeNamed_congr (r := r) (h name hname)
  cases k with
  | simple k => rfl
  | member => rfl
  | collection k => rw [decodeBody, decodeBody, hrequired "member" (by decide)]
  | map =>
    rw [decodeBody, decodeBody, decodeMap, decodeMap, hrequired "key" (by decide),
      hrequired "value" (by decide)]
  | aggregate k => rw [decodeBody, decodeBody, hnamed "members" (by decide)]
  | service =>
    rw [decodeBody, decodeBody, decodeService, decodeService,
      decodeText_congr (h "version" (by decide)), hlist "operations" (by decide),
      hlist "resources" (by decide), hlist "errors" (by decide)]
  | operation =>
    rw [decodeBody, decodeBody, decodeOperation, decodeOperation, hoptional "input" (by decide),
      hoptional "output" (by decide), hlist "errors" (by decide)]
  | resource =>
    rw [decodeBody, decodeBody, decodeResource, decodeResource, decodeLifecycle, decodeLifecycle,
      hnamed "identifiers" (by decide), hnamed "properties" (by decide),
      hoptional "create" (by decide), hoptional "put" (by decide), hoptional "read" (by decide),
      hoptional "update" (by decide), hoptional "delete" (by decide), hoptional "list" (by decide),
      hlist "operations" (by decide), hlist "collectionOperations" (by decide),
      hlist "resources" (by decide)]

theorem decode_eq_ok_iff {k : ShapeKind} {s : Shape} :
    decode k v r = .ok s ↔ decodeBody r v k = .ok s.body ∧ decodeTraits r v = .ok s.traits := by
  rw [decode, bind_eq_ok_iff]
  constructor
  · rintro ⟨body, hbody, h⟩
    obtain ⟨traits, htraits, h⟩ := bind_eq_ok_iff.mp h
    cases h
    exact ⟨hbody, htraits⟩
  · rintro ⟨hbody, htraits⟩
    exact ⟨s.body, hbody, bind_eq_ok_iff.mpr ⟨s.traits, htraits, rfl⟩⟩

/-- Shapes with members are decoded from the field of that name. -/
theorem decodeBody_eq_aggregate {k : ShapeKind} {ak : AggregateKind} {ms : Members}
    (h : decodeBody r v k = .ok (.aggregate ak ms)) :
    k = .aggregate ak ∧ Member.decodeNamed r inMember v "members" = .ok ms := by
  cases k with
  | simple k => cases h
  | member => cases h
  | aggregate k =>
    obtain ⟨ms', hms, hbody⟩ := map_eq_ok_iff.mp h
    cases hbody
    exact ⟨rfl, hms⟩
  | map =>
    obtain ⟨key, _, h⟩ := bind_eq_ok_iff.mp h
    obtain ⟨value, _, h⟩ := bind_eq_ok_iff.mp h
    cases h
  | _ =>
    obtain ⟨_, _, hbody⟩ := map_eq_ok_iff.mp h
    cases hbody

end Shape

theorem ShapeRegistry.exists_kind_of_decode {keyword : String} {s : Shape}
    (h : ShapeRegistry.builtin.decode keyword v r = .ok s) :
    ∃ k : ShapeKind, keyword = k.name ∧
      ∀ v, ShapeRegistry.builtin.decode keyword v r = Shape.decode k v r := by
  unfold decode at h
  split at h
  · next d hd =>
    obtain ⟨k, _, hk⟩ := List.mem_map.mp (Table.mem_of_get?_ofList hd)
    cases hk
    refine ⟨k, rfl, fun v => ?_⟩
    rw [decode, hd]
  · cases h

end ShapeModel
