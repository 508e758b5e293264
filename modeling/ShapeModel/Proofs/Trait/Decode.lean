import ShapeModel.Trait.Decode
import ShapeModel.Proofs.Checks
import ShapeModel.Proofs.Table.Decode

/-!
# Decoded traits

Every built-in decoder gives a trait of its own kind, so a trait that was decoded stands under the
name it was decoded from. Decoding a table of traits is decoding each of them: none is lost, and
none makes a difference to another one.
-/

namespace ShapeModel

set_option autoImplicit false

theorem Payload.kind?_ofKind {k : Trait.Kind} {v : Value} {t : Trait}
    (h : Payload.ofKind k v = .ok t) : t.kind? = some k := by
  cases k
  all_goals
    simp only [Payload.ofKind, map_eq_ok_iff] at h
    obtain ⟨_, _, rfl⟩ := h
    rfl

theorem Trait.name_of_kind? {t : Trait} {k : Trait.Kind} (h : t.kind? = some k) :
    t.name = k.name := by
  cases t <;> cases h <;> rfl

theorem Trait.Kind.name_decode {k : Trait.Kind} {name : String} {v : Value} {t : Trait}
    (h : k.decode name v = .ok t) : t.name = k.name := by
  rw [Trait.Kind.decode, Trait.decodePayload] at h
  split at h
  · next u hu =>
    cases h
    exact Trait.name_of_kind? (Payload.kind?_ofKind hu)
  · cases h

theorem Trait.Kind.mem_all (k : Trait.Kind) : k ∈ all := by
  cases k <;> decide

theorem Trait.Kind.ofShortName?_shortName (k : Trait.Kind) :
    ofShortName? k.shortName = some k := by
  cases k <;> rfl

theorem Trait.Kind.name_inj {k k' : Trait.Kind} (h : k.name = k'.name) : k = k' := by
  rw [name, name, Prelude.absolute, Prelude.absolute, String.append_right_inj] at h
  have hk := ofShortName?_shortName k
  rw [h, ofShortName?_shortName] at hk
  exact (Option.some.inj hk).symm

namespace TraitRegistry

theorem get?_builtin (k : Trait.Kind) : builtin.get? k.name = some k.decode := by
  apply Entries.find?_insertAll_of_mem
  · intro decode hmem
    obtain ⟨k', _, hk⟩ := List.mem_map.mp hmem
    obtain ⟨hname, rfl⟩ := Prod.mk.inj hk
    rw [Trait.Kind.name_inj hname]
  · exact .inl (List.mem_map.mpr ⟨k, k.mem_all, rfl⟩)

theorem exists_of_get?_builtin {name : String} {decode : TraitDecoder}
    (h : builtin.get? name = some decode) :
    ∃ k : Trait.Kind, name = k.name ∧ decode = k.decode := by
  obtain ⟨k, _, hk⟩ := List.mem_map.mp (Table.mem_of_get?_ofList h)
  cases hk
  exact ⟨k, rfl, rfl⟩

/-- A decoded trait has the name it was decoded from. -/
theorem name_decode {name : String} {v : Value} {t : Trait} (h : builtin.decode name v = .ok t) :
    t.name = name := by
  rw [decode] at h
  split at h
  · next d hd =>
    obtain ⟨k, rfl, rfl⟩ := exists_of_get?_builtin hd
    exact Trait.Kind.name_decode h
  · cases h
    rfl

end TraitRegistry

theorem Trait.decodePayload_eq_ok_iff {α : Type} {p : Payload α} {name : String} {v : Value}
    {a : α} : decodePayload p name v = .ok a ↔ p.read v = .ok a := by
  rw [decodePayload]
  cases p.read v <;> simp

/-- The trait that a payload under a name stands for. -/
inductive Trait.IsDecoded : String → Value → Trait → Prop
  /-- Under the name of a prelude trait, one of that kind with the content that was read. -/
  | typed {k : Kind} {v : Value} {t : Trait} : (Payload.ofKind k).read v = .ok t →
      t.kind? = some k → IsDecoded k.name v t
  /-- Under any other name, a custom trait with the payload as it is. -/
  | custom {name : String} {v : Value} : (∀ k : Kind, k.name ≠ name) →
      IsDecoded name v (.custom name v)

theorem TraitRegistry.get?_builtin_eq_none_iff {name : String} :
    builtin.get? name = none ↔ ∀ k : Trait.Kind, k.name ≠ name := by
  constructor
  · rintro hnone k rfl
    cases hnone.symm.trans (get?_builtin k)
  · intro hne
    rw [Option.eq_none_iff_forall_ne_some]
    intro decode hsome
    obtain ⟨k, rfl, _⟩ := exists_of_get?_builtin hsome
    exact hne k rfl

theorem TraitRegistry.decode_builtin_eq_ok_iff {name : String} {v : Value} {t : Trait} :
    builtin.decode name v = .ok t ↔ Trait.IsDecoded name v t := by
  rw [decode]
  constructor
  · intro h
    split at h
    · next hsome =>
      obtain ⟨k, rfl, rfl⟩ := exists_of_get?_builtin hsome
      have hread := Trait.decodePayload_eq_ok_iff.mp h
      exact .typed hread (Payload.kind?_ofKind hread)
    · next hnone =>
      cases h
      exact .custom (get?_builtin_eq_none_iff.mp hnone)
  · intro h
    cases h with
    | typed hread =>
      rw [get?_builtin]
      exact Trait.decodePayload_eq_ok_iff.mpr hread
    | custom hne => rw [get?_builtin_eq_none_iff.mpr hne]

theorem Traits.decodeEntries_eq (es : List (String × Value)) (ts : Traits) :
    Traits.decodeEntries .builtin es ts = decodeInto id TraitRegistry.builtin.decode es ts := by
  induction es generalizing ts with
  | nil => rfl
  | cons e es ih =>
    obtain ⟨name, v⟩ := e
    rw [Traits.decodeEntries, decodeInto]
    cases h : TraitRegistry.builtin.decode name v with
    | error e => rfl
    | ok t =>
      simp only [Traits.add, TraitRegistry.name_decode h]
      exact ih _

/-- One more trait makes the difference of adding it, where all others are decoded. -/
theorem Traits.decodeEntries_insert {es : List (String × Value)} {ts : Traits}
    (hes : Entries.Ascending es) (h : Traits.decodeEntries .builtin es .empty = .ok ts)
    (name : String) (v : Value) :
    Traits.decodeEntries .builtin (Entries.insert name v es) .empty =
      (TraitRegistry.builtin.decode name v).map ts.add := by
  have hkey (j k : String) (hj : id j = id k) : j = k := hj
  rw [Traits.decodeEntries_eq] at h ⊢
  rw [decodeInto_insert hkey hes h]
  cases hdecode : TraitRegistry.builtin.decode name v with
  | error e => rfl
  | ok t =>
    simp only [Except.map, Traits.add, TraitRegistry.name_decode hdecode, id_eq]

/-- An object of payloads is decoded exactly if each payload under the name of a prelude trait is
one of that trait, whatever stands beside it. The traits are then one for each name, in the order of
the names, and each is the one that its payload stands for. -/
theorem Traits.decode_faithful (fields : Table String Value) :
    ((∃ ts, Traits.decode .builtin (.object fields.entries) = .ok ts) ↔
      ∀ (k : Trait.Kind) (v : Value), fields.get? k.name = some v →
        ∃ t, (Payload.ofKind k).read v = .ok t) ∧
    ∀ ts : Traits, Traits.decode .builtin (.object fields.entries) = .ok ts ↔
      List.Forall₂ (fun e e' => e'.1 = e.1 ∧ e'.2.name = e.1 ∧ Trait.IsDecoded e.1 e.2 e'.2)
        fields.entries ts.entries := by
  have hdecode : Traits.decode .builtin (.object fields.entries) =
      decodeInto id TraitRegistry.builtin.decode fields.entries .empty :=
    Traits.decodeEntries_eq fields.entries .empty
  rw [hdecode]
  refine ⟨⟨?_, ?_⟩, ?_⟩
  · rintro ⟨ts, hts⟩ k v hv
    obtain ⟨t, ht, -⟩ := exists_of_decodeInto (fun _ _ h => h) fields.ascending hts hv
    rw [TraitRegistry.decode, TraitRegistry.get?_builtin] at ht
    exact ⟨t, Trait.decodePayload_eq_ok_iff.mp ht⟩
  · intro h
    apply exists_decodeInto
    rintro ⟨name, v⟩ hmem
    by_cases hname : ∃ k : Trait.Kind, k.name = name
    · obtain ⟨k, rfl⟩ := hname
      obtain ⟨t, ht⟩ := h k v (Table.mem_entries_iff.mp hmem)
      exact ⟨t, TraitRegistry.decode_builtin_eq_ok_iff.mpr (.typed ht (Payload.kind?_ofKind ht))⟩
    · exact ⟨_, TraitRegistry.decode_builtin_eq_ok_iff.mpr (.custom (not_exists.mp hname))⟩
  · intro ts
    rw [decodeInto_id_empty_eq_ok_iff fields.ascending]
    constructor
    · apply List.Forall₂.imp
      rintro e e' ⟨hkey, ht⟩
      exact ⟨hkey, TraitRegistry.name_decode ht, TraitRegistry.decode_builtin_eq_ok_iff.mp ht⟩
    · apply List.Forall₂.imp
      rintro e e' ⟨hkey, -, ht⟩
      exact ⟨hkey, TraitRegistry.decode_builtin_eq_ok_iff.mpr ht⟩

end ShapeModel
