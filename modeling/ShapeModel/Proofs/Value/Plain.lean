import ShapeModel.Payload
import ShapeModel.Proofs.Number.Literal
import ShapeModel.Proofs.Table.Entries
import ShapeModel.Proofs.Value.Equality

/-!
# Plain values

A value without doubles and its plain form are equal: all that changes is that integers from zero on
lose a sign that they do not need. What is in plain form stays as it is.
-/

namespace ShapeModel

set_option autoImplicit false

namespace Value

/-- The fields of all objects in a value are in order. -/
inductive Ordered : Value → Prop
  | null : Ordered .null
  | bool (b : Bool) : Ordered (.bool b)
  | number (n : Number) : Ordered (.number n)
  | string (s : String) : Ordered (.string s)
  | array {items : List Value} : (∀ v ∈ items, Ordered v) → Ordered (.array items)
  | object {fields : Fields} : Entries.Ascending fields → (∀ f ∈ fields, Ordered f.2) →
      Ordered (.object fields)

/-- All numbers in a value are held as integers. -/
inductive Integral : Value → Prop
  | null : Integral .null
  | bool (b : Bool) : Integral (.bool b)
  | uint (n : UInt64) : Integral (.number (.uint n))
  | int (n : Int64) : Integral (.number (.int n))
  | string (s : String) : Integral (.string s)
  | array {items : List Value} : (∀ v ∈ items, Integral v) → Integral (.array items)
  | object {fields : Fields} : (∀ f ∈ fields, Integral f.2) → Integral (.object fields)

mutual

/-- How deep arrays and objects are nested in a value. -/
def depth : Value → Nat
  | .array items => depthItems items + 1
  | .object fields => depthFields fields + 1
  | .null => 0
  | .bool _ => 0
  | .number _ => 0
  | .string _ => 0

def depthItems : List Value → Nat
  | [] => 0
  | v :: vs => max v.depth (depthItems vs)

def depthFields : Fields → Nat
  | [] => 0
  | (_, v) :: fs => max v.depth (depthFields fs)

end

section

variable {items : List Value} {fields pairs : Fields} {key : String} {v : Value}

theorem Ordered.emptyObject : Ordered .emptyObject :=
  .object .nil (List.forall_mem_nil _)

theorem Ordered.ascending (h : (Value.object fields).Ordered) : Entries.Ascending fields := by
  cases h with
  | object hfields => exact hfields

theorem Ordered.of_mem {f : String × Value} (h : (Value.object fields).Ordered) (hf : f ∈ fields) :
    f.2.Ordered := by
  cases h with
  | object _ hvalues => exact hvalues f hf

theorem Ordered.insert (h : (Value.object fields).Ordered) (hv : v.Ordered) (key : String) :
    (Value.object (Entries.insert key v fields)).Ordered := by
  refine .object (h.ascending.insert key v) fun f hf => ?_
  rcases Entries.mem_insert hf with rfl | hf
  · exact hv
  · exact h.of_mem hf

theorem Ordered.insertAll (h : (Value.object fields).Ordered) (hpairs : ∀ p ∈ pairs, p.2.Ordered) :
    (Value.object (Entries.insertAll fields pairs)).Ordered := by
  refine .object (h.ascending.insertAll pairs) fun f hf => ?_
  rcases Entries.mem_insertAll hf with hf | hf
  · exact hpairs f hf
  · exact h.of_mem hf

theorem ordered_ofPairs (hpairs : ∀ p ∈ pairs, p.2.Ordered) : (ofPairs pairs).Ordered :=
  Ordered.emptyObject.insertAll hpairs

theorem Ordered.find? (h : (Value.object fields).Ordered)
    (hfind : Entries.find? key fields = some v) : v.Ordered :=
  h.of_mem (Entries.mem_of_find? hfind)

theorem Integral.of_mem_items (h : (Value.array items).Integral) : ∀ v ∈ items, v.Integral := by
  cases h with
  | array hitems => exact hitems

theorem Integral.of_mem_fields (h : (Value.object fields).Integral) :
    ∀ f ∈ fields, f.2.Integral := by
  cases h with
  | object hfields => exact hfields

end

end Value

/-- A value of which all objects have their fields in order, as every value has that is built up
field by field. -/
structure OrderedValue where
  value : Value
  ordered : value.Ordered

namespace Number

variable {n m : Number} {i : Int}

theorem plain_of_toInt? (hi : n.toInt? = some i) (hm : ofInt? i = some m) :
    n.plain = .number m := by
  unfold plain
  rw [hi, Option.bind_some, hm]

theorem plain_uint (n : UInt64) : (uint n).plain = .number (.uint n) :=
  plain_of_toInt? rfl (ofInt?_toNat n)

theorem toInt?_of_ofInt? (h : ofInt? i = some n) : n.toInt? = some i := by
  rw [ofInt?] at h
  split at h
  · next hi =>
    cases h
    rw [toInt?, UInt64.toNat_ofNat', Nat.mod_eq_of_lt (by omega), Int.toNat_of_nonneg hi.1]
  · split at h
    · next hi =>
      cases h
      rw [toInt?, Int64.toInt_ofInt_of_le (by simpa using hi.1) (by omega)]
    · cases h

/-- An integer that is held the way plain numbers are. -/
theorem plain_of_ofInt? (h : ofInt? i = some n) : n.plain = .number n :=
  plain_of_toInt? (toInt?_of_ofInt? h) h

theorem integral_of_ofInt? (h : ofInt? i = some n) : (Value.number n).Integral := by
  rw [ofInt?] at h
  split at h
  · cases h
    exact .uint _
  · split at h
    · cases h
      exact .int _
    · cases h

end Number

namespace Value

section

variable {v : Value} {vs : List Value} {fs : Fields}

theorem sameItems_map {f : Value → Value} (h : ∀ v ∈ vs, (f v).same v = true) :
    sameItems (vs.map f) vs = true := by
  induction vs with
  | nil => rfl
  | cons v vs ih =>
    obtain ⟨hv, hvs⟩ := List.forall_mem_cons.mp h
    rw [List.map_cons, sameItems, hv, ih hvs]
    rfl

theorem sameFields_map {f : Value → Value} (h : ∀ e ∈ fs, (f e.2).same e.2 = true) :
    sameFields (fs.map fun e => (e.1, f e.2)) fs = true := by
  induction fs with
  | nil => rfl
  | cons e fs ih =>
    obtain ⟨he, hfs⟩ := List.forall_mem_cons.mp h
    rw [List.map_cons, sameFields, he, ih hfs, BEq.rfl]
    rfl

theorem plainItems_eq_map (vs : List Value) : plainItems vs = vs.map plain := by
  induction vs with
  | nil => rfl
  | cons v vs ih => rw [plainItems, ih, List.map_cons]

theorem plainFields_eq_map (fs : Fields) : plainFields fs = fs.map fun e => (e.1, e.2.plain) := by
  induction fs with
  | nil => rfl
  | cons e fs ih => rw [plainFields, ih, List.map_cons]

/-- Bringing the fields to plain form leaves their keys. -/
theorem ascending_plainFields (h : Entries.Ascending fs) : Entries.Ascending (plainFields fs) := by
  rw [plainFields_eq_map]
  exact h.map fun _ v => v.plain

theorem exists_plain_int (n : Int64) :
    ∃ m, (Number.int n).plain = .number m ∧ Number.ofInt? n.toInt = some m ∧
      m.same (.int n) = true := by
  obtain ⟨m, hm, hsame⟩ := Number.exists_ofInt?_toInt n
  exact ⟨m, Number.plain_of_toInt? rfl hm, hm, hsame⟩

theorem exists_plain_number {n : Number} (hn : (Value.number n).Integral) :
    ∃ m, (Value.number n).plain = .number m := by
  cases hn with
  | uint n => exact ⟨_, Number.plain_uint n⟩
  | int n =>
    obtain ⟨m, hm, -⟩ := exists_plain_int n
    exact ⟨m, hm⟩

/-- Values without doubles are equal to themselves, which not-a-number is not. -/
theorem same_self (hv : v.Integral) : v.same v = true := by
  induction hv with
  | null => rfl
  | bool b => exact BEq.rfl
  | uint n => exact decide_eq_true rfl
  | int n => exact decide_eq_true rfl
  | string s => exact BEq.rfl
  | @array vs _ ih =>
    have hitems := @sameItems_map vs id ih
    rwa [List.map_id] at hitems
  | @object fs _ ih =>
    have hfields := @sameFields_map fs id ih
    rwa [show (fs.map fun e => (e.1, id e.2)) = fs from List.map_id fs] at hfields

theorem same_plain (hv : v.Integral) : v.plain.same v = true := by
  induction hv with
  | null => rfl
  | bool b => exact BEq.rfl
  | uint n =>
    rw [plain, Number.plain_uint]
    exact decide_eq_true rfl
  | int n =>
    obtain ⟨m, hm, -, hsame⟩ := exists_plain_int n
    rw [plain, hm]
    exact hsame
  | string s => exact BEq.rfl
  | array _ ih =>
    rw [plain, same, plainItems_eq_map]
    exact sameItems_map ih
  | object _ ih =>
    rw [plain, same, plainFields_eq_map]
    exact sameFields_map ih

theorem plain_plain (hv : v.Integral) : v.plain.plain = v.plain := by
  induction hv with
  | uint n => rw [plain, Number.plain_uint, plain, Number.plain_uint]
  | int n =>
    obtain ⟨m, hm, hofInt, -⟩ := exists_plain_int n
    rw [plain, hm, plain, Number.plain_of_ofInt? hofInt]
  | array _ ih =>
    rw [plain, plain, plainItems_eq_map, plainItems_eq_map, List.map_map]
    exact congrArg array (List.map_congr_left ih)
  | object _ ih =>
    rw [plain, plain, plainFields_eq_map, plainFields_eq_map, List.map_map]
    exact congrArg object (List.map_congr_left fun e he => congrArg (e.1, ·) (ih e he))
  -- The others hold nothing that changes.
  | _ => rfl

theorem Integral.plain (hv : v.Integral) : v.plain.Integral := by
  induction hv with
  | null => exact .null
  | bool b => exact .bool b
  | uint n =>
    rw [Value.plain, Number.plain_uint]
    exact .uint n
  | int n =>
    obtain ⟨m, hm, hofInt, -⟩ := exists_plain_int n
    rw [Value.plain, hm]
    exact Number.integral_of_ofInt? hofInt
  | string s => exact .string s
  | array _ ih =>
    rw [Value.plain, plainItems_eq_map]
    exact .array (List.forall_mem_map.mpr ih)
  | object _ ih =>
    rw [Value.plain, plainFields_eq_map]
    exact .object (List.forall_mem_map.mpr ih)

end

end Value

end ShapeModel
