import ShapeModel.Proofs.Agreement
import ShapeModel.Proofs.Trait.Decode
import ShapeModel.Proofs.Value.Plain

/-!
# Traits from plain values

A built-in trait is decoded from the plain form of its value, so it is decoded alike from a value
without doubles and from the plain form of that. What a decoder gives is equal to itself, which is
not a matter of course for a trait that holds doubles.
-/

namespace ShapeModel

set_option autoImplicit false

namespace Binary64

theorem ofInt_ne_nan (n : Int) : ofInt n ≠ .nan := by
  rw [ofInt, ofRatio, ofUnits]
  split <;> exact nofun

theorem same_self {x : Binary64} (h : x ≠ .nan) : x.same x = true := by
  have hrank : ∃ a, x.rank? = some a := by
    cases x with
    | nan => exact absurd rfl h
    | _ => exact ⟨_, rfl⟩
  obtain ⟨a, ha⟩ := hrank
  rw [same, compare?, ha]
  simp

end Binary64

namespace Payload

variable {v : Value}

theorem same_self_of_float {x : Binary64} (hv : v.Integral) (h : float v = .ok x) : Same x x := by
  have hnan : x ≠ .nan := by
    cases hv with
    | uint n =>
      have hx : Binary64.ofInt n.toNat = x := Except.ok.inj h
      exact hx ▸ Binary64.ofInt_ne_nan _
    | int n =>
      have hx : Binary64.ofInt n.toInt = x := Except.ok.inj h
      exact hx ▸ Binary64.ofInt_ne_nan _
    | _ => cases h
  exact Binary64.same_self hnan

section

variable {ρ : Type} {fields : List (Field ρ)} {P : ρ → Prop}

/-- No field breaks the property when it is filled from a value without doubles. -/
def Preserve (fields : List (Field ρ)) (P : ρ → Prop) : Prop :=
  ∀ f ∈ fields, ∀ v r r', v.Integral → f.set v r = .ok r' → P r → P r'

theorem Preserve.setByName (hP : Preserve fields P) {es : Value.Fields}
    (hes : ∀ e ∈ es, e.2.Integral) {r r' : ρ} (hr : P r)
    (h : setByName fields es r = .ok r') : P r' := by
  induction es generalizing r with
  | nil =>
    cases h
    exact hr
  | cons e es ih =>
    obtain ⟨k, v⟩ := e
    obtain ⟨hv, hes⟩ := List.forall_mem_cons.mp hes
    rw [Payload.setByName] at h
    split at h
    · next f hf =>
      obtain ⟨r₁, hset, hmore⟩ := bind_eq_ok_iff.mp h
      exact ih hes (hP f (List.mem_of_find?_eq_some hf) v r r₁ hv hset hr) hmore
    · exact ih hes hr h

theorem Preserve.setInOrder (hP : Preserve fields P) {fs : List (Field ρ × Value)}
    (hfs : ∀ e ∈ fs, e.1 ∈ fields ∧ e.2.Integral) {r r' : ρ} (hr : P r)
    (h : setInOrder fs r = .ok r') : P r' := by
  induction fs generalizing r with
  | nil =>
    cases h
    exact hr
  | cons e fs ih =>
    obtain ⟨⟨hf, hv⟩, hfs⟩ := List.forall_mem_cons.mp hfs
    obtain ⟨r₁, hset, hmore⟩ := bind_eq_ok_iff.mp h
    exact ih hfs (hP e.1 hf e.2 r r₁ hv hset hr) hmore

theorem Preserve.record (hP : Preserve fields P) {name : String} {start r : ρ} (hv : v.Integral)
    (hstart : P start) (h : record name fields start v = .ok r) : P r := by
  cases hv with
  | object hes =>
    obtain ⟨r', hset, hend⟩ := bind_eq_ok_iff.mp h
    split at hend
    · cases hend
    · exact Except.ok.inj hend ▸ hP.setByName hes hstart hset
  | @array vs hvs =>
    have hzip : ∀ e ∈ fields.zip vs, e.1 ∈ fields ∧ e.2.Integral := by
      rintro ⟨f, w⟩ he
      obtain ⟨hf, hw⟩ := List.of_mem_zip he
      exact ⟨hf, hvs w hw⟩
    obtain ⟨r', hset, hend⟩ := bind_eq_ok_iff.mp h
    split at hend
    · cases hend
    · split at hend
      · cases hend
      · exact Except.ok.inj hend ▸ hP.setInOrder hzip hstart hset
  | _ => cases h

end

theorem same_self_of_optional_float {x : Option Binary64} (hv : v.Integral)
    (h : optional float v = .ok x) : Same x x := by
  unfold optional at h
  split at h
  · cases h
    rfl
  · obtain ⟨y, hy, rfl⟩ := map_eq_ok_iff.mp h
    exact same_some (same_self_of_float hv hy)

theorem same_rangeBounds {b c : RangeBounds} (hleast : Same b.least c.least)
    (hmost : Same b.most c.most) : Same b c := by
  change (b.least == c.least && b.most == c.most) = true
  rw [hleast, hmost]
  rfl

theorem same_self_of_rangeBounds {b : RangeBounds} (hv : v.Integral)
    (h : rangeBounds v = .ok b) : Same b b := by
  refine @Preserve.record _ _ _ (fun b => Same b b) ?_ _ _ _ hv rfl h
  intro f hf w r r' hw hset hr
  obtain ⟨hleast, hmost⟩ := Bool.and_eq_true_iff.mp hr
  simp only [List.mem_cons, List.not_mem_nil, or_false] at hf
  rcases hf with rfl | rfl
  · obtain ⟨x, hx, rfl⟩ := map_eq_ok_iff.mp hset
    exact same_rangeBounds (same_self_of_optional_float hw hx) hmost
  · obtain ⟨x, hx, rfl⟩ := map_eq_ok_iff.mp hset
    exact same_rangeBounds hleast (same_self_of_optional_float hw hx)

/-- A trait decoded from a value without doubles is equal to itself. -/
theorem same_self_of_ofKind {k : Trait.Kind} {t : Trait} (hv : v.Integral)
    (h : ofKind k v = .ok t) : Same t t := by
  cases k
  case range =>
    obtain ⟨b, hb, rfl⟩ := map_eq_ok_iff.mp h
    exact same_self_of_rangeBounds hv hb
  case enumValue =>
    cases h
    exact Value.same_self hv
  case default =>
    cases h
    exact Value.same_self hv
  -- The others hold data whose equality is identity.
  all_goals
    simp only [ofKind, map_eq_ok_iff] at h
    obtain ⟨a, -, rfl⟩ := h
    first
    | rfl
    | exact beq_self_eq_true a

end Payload

/-- The outcome is the same for a value without doubles and for its plain form. -/
def TraitDecoder.TakesPlain (decode : TraitDecoder) : Prop :=
  ∀ name v, v.Integral → Agree Same (decode name v) (decode name v.plain)

theorem Trait.Kind.takesPlain_decode (k : Kind) : TraitDecoder.TakesPlain k.decode := by
  intro name v hv
  have hplain : k.decode name v.plain = k.decode name v := by
    rw [decode, decodePayload, decodePayload, Payload.read, Payload.read, Value.plain_plain hv]
  rw [hplain]
  refine .refl fun t ht => ?_
  rw [decode, decodePayload] at ht
  split at ht
  · next u hu =>
    cases ht
    exact Payload.same_self_of_ofKind hv.plain hu
  · cases ht

theorem Trait.kind?_eq_of_same {t u : Trait} (h : Same t u) : t.kind? = u.kind? := by
  have hkind (t : Trait) : t.kind? = Kind.all[t.ctorIdx]? := by cases t <;> rfl
  have hindex : t.ctorIdx = u.ctorIdx := by
    change instBEqTrait.beq t u = true at h
    unfold instBEqTrait.beq at h
    split at h
    · assumption
    · cases h
  rw [hkind, hkind, hindex]

/-- Equal traits stand under the same name. -/
theorem Trait.name_eq_of_same {t u : Trait} (h : Same t u) : t.name = u.name := by
  have hkind := kind?_eq_of_same h
  cases hu : u.kind? with
  | some k => rw [name_of_kind? (hkind.trans hu), name_of_kind? hu]
  | none =>
    rw [hu] at hkind
    cases t <;> cases hkind <;> cases u <;> cases hu
    · exact eq_of_beq (Bool.and_eq_true_iff.mp h).1
    · cases h
    · cases h
    · exact eq_of_beq (Bool.and_eq_true_iff.mp h).1

/-- Every decoder gives the same outcome for a value without doubles and for its plain form. -/
def TraitRegistry.TakesPlain (r : TraitRegistry) : Prop :=
  ∀ name decode, r.get? name = some decode → TraitDecoder.TakesPlain decode

theorem TraitRegistry.takesPlain_builtin : builtin.TakesPlain := by
  intro name decode h
  obtain ⟨k, -, rfl⟩ := exists_of_get?_builtin h
  exact k.takesPlain_decode

theorem Value.same_plain_right {v : Value} (hv : v.Integral) : Same v v.plain := by
  rw [Same, Value.beq_comm]
  exact Value.same_plain hv

theorem Traits.same_add {ts us : Traits} {t u : Trait} (hs : Same ts us) (h : Same t u) :
    Same (ts.add t) (us.add u) := by
  rw [add, add, Trait.name_eq_of_same h]
  exact Table.same_insert hs h _

theorem Traits.decodeEntries_cons (r : TraitRegistry) (name : String) (v : Value)
    (es : Value.Fields) (ts : Traits) :
    decodeEntries r ((name, v) :: es) ts =
      r.decode name v >>= fun t => decodeEntries r es (ts.add t) := by
  rw [decodeEntries]
  cases r.decode name v <;> rfl

namespace TraitRegistry.TakesPlain

variable {r : TraitRegistry} {v : Value}

theorem trait (h : r.TakesPlain) (hv : v.Integral) (name : String) :
    Agree Same (r.decode name v) (r.decode name v.plain) := by
  rw [TraitRegistry.decode, TraitRegistry.decode]
  cases hget : r.get? name with
  | some decode => exact h name decode hget name v hv
  | none =>
    have hcustom : Same (Trait.custom name v) (.custom name v.plain) := by
      change (name == name && v == v.plain) = true
      rw [BEq.rfl, Value.same_plain_right hv]
      rfl
    exact .ok hcustom

theorem entries (h : r.TakesPlain) {es : Value.Fields} (hes : ∀ e ∈ es, e.2.Integral)
    {ts us : Traits} (hs : Same ts us) :
    Agree Same (Traits.decodeEntries r es ts)
      (Traits.decodeEntries r (Value.plainFields es) us) := by
  induction es generalizing ts us with
  | nil => exact .ok hs
  | cons e es ih =>
    obtain ⟨name, v⟩ := e
    obtain ⟨hv, hes⟩ := List.forall_mem_cons.mp hes
    rw [Value.plainFields, Traits.decodeEntries_cons, Traits.decodeEntries_cons]
    exact (h.trait hv name).bind fun t u ht => ih hes (Traits.same_add hs ht)

theorem table (h : r.TakesPlain) (hv : v.Integral) :
    Agree Same (Traits.decode r v) (Traits.decode r v.plain) := by
  cases v with
  | object es => exact h.entries hv.of_mem_fields rfl
  | number n =>
    obtain ⟨m, hm⟩ := Value.exists_plain_number hv
    rw [hm]
    exact .error _
  | _ => exact .error _

end TraitRegistry.TakesPlain

end ShapeModel
