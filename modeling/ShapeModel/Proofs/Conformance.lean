import ShapeModel.Proofs.Checks
import ShapeModel.Proofs.Value.Equality

/-!
# What it means that a value conforms

Conformance is a relation between values and the shapes and members of a model: the least one closed
under the rules for each kind of shape. Models may be cyclic, but every rule goes down the value.
The check of values decides this relation, whatever path it reports faults with.
-/

namespace ShapeModel

set_option autoImplicit false

/-- The value is within the length bounds, range and pattern among the traits, as far as these are
about values of its kind. A malformed pattern constrains nothing. -/
structure Value.Meets [PatternEngine] (v : Value) (ts : Traits) : Prop where
  length : ∀ b n, ts.length? = some b → v.size? = some n → b.contains n = true
  range : ∀ b n x, ts.range? = some b → v = .number n → n.asFloat = some x → b.contains x = true
  pattern : ∀ p q t, ts.pattern? = some p → PatternEngine.compile p = .ok q → v = .string t →
    PatternEngine.isMatch q t = true

/-- The values of a scalar kind. -/
inductive SimpleKind.Takes : SimpleKind → Value → Prop
  | blob (t : String) : Takes .blob (.string t)
  | string (t : String) : Takes .string (.string t)
  | boolean (b : Bool) : Takes .boolean (.bool b)
  | integer {k : SimpleKind} {n : Number} : k ∈ [.byte, .short, .integer, .long, .bigInteger] →
      n.isInteger = true → Takes k (.number n)
  | number {k : SimpleKind} (n : Number) : k ∈ [.float, .double, .bigDecimal] → Takes k (.number n)
  | timestampText (t : String) : Takes .timestamp (.string t)
  | timestampNumber (n : Number) : Takes .timestamp (.number n)
  | document (v : Value) : Takes .document v

/-- The value is that of a member of an enumeration: the one that is given for it, else, but not
for integers, its name. -/
inductive Member.Denotes (x : Member) (name : String) : Bool → Value → Prop
  | given {ints : Bool} {v w : Value} : x.traits.enumValue? = some w → (w == v) = true →
      Denotes x name ints v
  | name : x.traits.enumValue? = none → Denotes x name false (.string name)

/-- No two items are equal. -/
def Value.Distinct (items : List Value) : Prop :=
  items.Pairwise fun v w => (v == w) = false

namespace Model

section Rules

variable [PatternEngine]

mutual

/-- A value of a member meets its own constraints and conforms to its target. -/
inductive MemberConforms (m : Model) : Value → Member → Prop
  | intro {v : Value} {x : Member} {s : Shape} : v.Meets x.traits →
      m.find? x.target = some (.shape s) → Conforms m v s → MemberConforms m v x

/-- A value of a shape meets its constraints and is of the form that its kind asks for. -/
inductive Conforms (m : Model) : Value → Shape → Prop
  | intro {v : Value} {s : Shape} : v.Meets s.traits → Fits m v s.traits s.body → Conforms m v s

/-- The forms of value for each kind of shape. No value is of a service kind. -/
inductive Fits (m : Model) : Value → Traits → Shape.Body → Prop
  | simple {v : Value} {ts : Traits} {k : SimpleKind} : k.Takes v → Fits m v ts (.simple k)
  | collection {items : List Value} {ts : Traits} {k : CollectionKind} {x : Member} :
      (∀ v ∈ items, MemberConforms m v x) →
      (k = .set ∨ ts.has .uniqueItems = true → Value.Distinct items) →
      Fits m (.array items) ts (.collection k x)
  | map {fields : Value.Fields} {ts : Traits} {key value : Member} :
      (∀ name v, (name, v) ∈ fields → MemberConforms m (.string name) key) →
      (∀ name v, (name, v) ∈ fields → MemberConforms m v value) →
      Fits m (.object fields) ts (.map key value)
  | aggregate {fields : Value.Fields} {ts : Traits} {k : AggregateKind} {ms : Members} :
      k = .struct ∨ (k = .union ∧ fields.length = 1) →
      (∀ name v, (name, v) ∈ fields → ∃ x, ms.get? name = some x) →
      (∀ name v x, (name, v) ∈ fields → ms.get? name = some x → MemberConforms m v x) →
      (∀ name x, ms.get? name = some x → x.traits.has .required = true →
        ∃ v, (name, v) ∈ fields) →
      Fits m (.object fields) ts (.aggregate k ms)
  | enum {v : Value} {ts : Traits} {ms : Members} {name : String} {x : Member} :
      ms.get? name = some x → x.Denotes name false v → Fits m v ts (.aggregate .enum ms)
  | intEnum {v : Value} {ts : Traits} {ms : Members} {name : String} {x : Member} :
      ms.get? name = some x → x.Denotes name true v → Fits m v ts (.aggregate .intEnum ms)

end

/-- The value conforms to what stands at the identifier, a shape or a member. -/
def ConformsTo (m : Model) (v : Value) (id : Identifier) : Prop :=
  (∃ s, m.find? id = some (.shape s) ∧ m.Conforms v s) ∨
    ∃ x, m.find? id = some (.member x) ∧ m.MemberConforms v x

end Rules

section Constraints

variable {p : Path} {v : Value} {ts : Traits}

theorem checkLength_eq_ok_iff :
    checkLength p v ts = .ok () ↔
      ∀ b n, ts.length? = some b → v.size? = some n → b.contains n = true := by
  unfold checkLength
  cases ts.length? with
  | none => simp
  | some b =>
    cases v.size? with
    | none => simp
    | some n => cases h : b.contains n <;> simp [violated, h]

theorem checkRange_eq_ok_iff :
    checkRange p v ts = .ok () ↔ ∀ b n x, ts.range? = some b → v = .number n →
      n.asFloat = some x → b.contains x = true := by
  unfold checkRange
  cases ts.range? with
  | none => simp
  | some b =>
    cases v with
    | number n =>
      cases hx : n.asFloat with
      | none =>
        simp only [hx, true_iff]
        rintro _ _ x _ ⟨⟩ hx'
        cases hx.symm.trans hx'
      | some x =>
        constructor
        · rintro h _ _ _ ⟨⟩ ⟨⟩ hx'
          obtain rfl := Option.some.inj (hx.symm.trans hx')
          simp only [hx] at h
          split at h
          · assumption
          · cases h
        · intro h
          simp [hx, h b n x rfl rfl hx]
    | _ => simp

variable [PatternEngine]

theorem matchesPattern_iff (pattern text : String) :
    matchesPattern pattern text = true ↔
      ∀ q, PatternEngine.compile pattern = .ok q → PatternEngine.isMatch q text = true := by
  unfold matchesPattern
  cases PatternEngine.compile pattern <;> simp

theorem checkPattern_eq_ok_iff :
    checkPattern p v ts = .ok () ↔ ∀ r q t, ts.pattern? = some r →
      PatternEngine.compile r = .ok q → v = .string t → PatternEngine.isMatch q t = true := by
  unfold checkPattern
  cases ts.pattern? with
  | none => simp
  | some r =>
    cases v with
    | string t =>
      have hm := matchesPattern_iff r t
      cases h : matchesPattern r t <;> simp_all [violated]
    | _ => simp

theorem checkConstraints_eq_ok_iff : checkConstraints p v ts = .ok () ↔ v.Meets ts := by
  rw [checkConstraints, andThen_eq_ok_iff, andThen_eq_ok_iff, checkLength_eq_ok_iff,
    checkRange_eq_ok_iff, checkPattern_eq_ok_iff]
  constructor
  · rintro ⟨hl, hr, hp⟩
    exact ⟨hl, hr, hp⟩
  · intro h
    exact ⟨h.length, h.range, h.pattern⟩

end Constraints

theorem mismatch_iff {p : Path} {id : Identifier} {expected : String} {v : Value} {P : Prop}
    (h : ¬P) : mismatch p id expected v = .ok () ↔ P := by
  constructor
  · intro h'
    cases h'
  · intro h'
    exact absurd h' h

theorem checkSimple_eq_ok_iff {p : Path} {v : Value} {id : Identifier} {k : SimpleKind} :
    checkSimple p v id k = .ok () ↔ k.Takes v := by
  constructor
  · intro h
    cases k <;> cases v <;> simp [checkSimple, mismatch] at h <;>
      first
      | exact .blob _
      | exact .string _
      | exact .boolean _
      | exact .integer (by decide) h
      | exact .number _ (by decide)
      | exact .timestampText _
      | exact .timestampNumber _
      | exact .document _
  · intro h
    cases h with
    | integer hk hn =>
      rename_i n
      simp only [List.mem_cons, List.not_mem_nil, or_false] at hk
      rcases hk with rfl | rfl | rfl | rfl | rfl <;> simp [checkSimple, hn]
    | number n hk =>
      simp only [List.mem_cons, List.not_mem_nil, or_false] at hk
      rcases hk with rfl | rfl | rfl <;> rfl
    | _ => rfl

theorem firstRepeat_eq_none_iff {before items : List Value} :
    firstRepeat before items = none ↔
      (∀ v ∈ before, ∀ w ∈ items, (v == w) = false) ∧ Value.Distinct items := by
  induction items generalizing before with
  | nil => simp [firstRepeat, Value.Distinct]
  | cons w items ih =>
    have contained : before.contains w = true ↔ ∃ v ∈ before, (v == w) = true := by
      simp [List.contains_eq_any_beq, Value.beq_comm w]
    rw [firstRepeat]
    split
    · next h =>
      obtain ⟨v, hv, hw⟩ := contained.mp h
      simp only [reduceCtorEq, false_iff, not_and]
      intro hd
      have hn := hd v hv w List.mem_cons_self
      simp [hn] at hw
    · next h =>
      have hw : ∀ v ∈ before, (v == w) = false := by
        intro v hv
        apply Bool.eq_false_iff.mpr
        intro hvw
        exact h (contained.mpr ⟨v, hv, hvw⟩)
      rw [ih, Value.Distinct, Value.Distinct, List.pairwise_cons]
      constructor
      · rintro ⟨hd, hp⟩
        refine ⟨?_, fun u hu => hd w (by simp) u hu, hp⟩
        intro v hv u hu
        rcases List.mem_cons.mp hu with rfl | hu
        · exact hw v hv
        · exact hd v (by simp [hv]) u hu
      · rintro ⟨hd, hwd, hp⟩
        refine ⟨?_, hp⟩
        intro v hv u hu
        rcases List.mem_append.mp hv with hv | hv
        · exact hd v hv u (List.mem_cons_of_mem _ hu)
        · obtain rfl := List.mem_singleton.mp hv
          exact hwd u hu

theorem checkUnique_eq_ok_iff {p : Path} {items : List Value} {id : Identifier}
    {k : CollectionKind} {ts : Traits} :
    checkUnique p items id k ts = .ok () ↔
      (k = .set ∨ ts.has .uniqueItems = true → Value.Distinct items) := by
  unfold checkUnique
  split
  · next h =>
    have hr := @firstRepeat_eq_none_iff [] items
    cases hf : firstRepeat [] items <;> simp_all [mismatch]
  · next h => simp [h]

theorem isEnumValue_iff {ints : Bool} {v : Value} {name : String} {x : Member} :
    isEnumValue ints v name x = true ↔ x.Denotes name ints v := by
  constructor
  · intro h
    unfold isEnumValue at h
    split at h
    · next w hw => exact .given hw h
    · next hn =>
      split at h
      · cases ints with
        | false =>
          obtain rfl : _ = name := by simpa using h
          exact .name hn
        | true => cases h
      · cases h
  · intro h
    cases h with
    | given hw he => simp [isEnumValue, hw, he]
    | name hn => simp [isEnumValue, hn]

theorem checkEnum_eq_ok_iff {p : Path} {v : Value} {id : Identifier} {ints : Bool}
    {ms : Members} :
    checkEnum p v id ints ms = .ok () ↔
      ∃ name x, ms.get? name = some x ∧ x.Denotes name ints v := by
  have hany : (ms.entries.any fun e => isEnumValue ints v e.1 e.2) = true ↔
      ∃ name x, ms.get? name = some x ∧ x.Denotes name ints v := by
    simp [List.any_eq_true, isEnumValue_iff, Table.mem_entries_iff]
  rw [checkEnum]
  split
  · next h => simp [hany.mp h]
  · next h => simp [mismatch, mt hany.mpr h]

theorem find?_eq_none_iff {name : String} {fields : Value.Fields} :
    Entries.find? name fields = none ↔ ∀ v, (name, v) ∉ fields := by
  induction fields with
  | nil => simp
  | cons f fields ih =>
    obtain ⟨k, v⟩ := f
    by_cases hk : name = k
    · subst hk
      simp only [Entries.find?, Std.compare_self, if_true, reduceCtorEq, false_iff]
      intro h
      exact h v List.mem_cons_self
    · have hc : compare name k ≠ .eq := fun e => hk (Std.LawfulEqOrd.eq_of_compare e)
      simp [Entries.find?, hc, ih, hk]

theorem checkRequired_eq_ok_iff {p : Path} {ms : Members} {fields : Value.Fields} :
    checkRequired p ms fields = .ok () ↔ ∀ name x, ms.get? name = some x →
      x.traits.has .required = true → ∃ v, (name, v) ∈ fields := by
  have hnone : missingMember? ms fields = none ↔ ∀ name x, ms.get? name = some x →
      x.traits.has .required = true → ∃ v, (name, v) ∈ fields := by
    simp [missingMember?, find?_eq_none_iff, Table.mem_entries_iff]
  rw [checkRequired, ← hnone]
  cases missingMember? ms fields <;> simp

section Parts

variable [PatternEngine] {m : Model} {p : Path} {x key value : Member} {ms : Members}

theorem checkItems_eq_ok_iff {items : List Value} {i : Nat}
    (h : ∀ v ∈ items, ∀ q, m.checkMember q v x = .ok () ↔ m.MemberConforms v x) :
    m.checkItems p i items x = .ok () ↔ ∀ v ∈ items, m.MemberConforms v x := by
  induction items generalizing i with
  | nil => simp [checkItems]
  | cons v vs ih =>
    rw [checkItems, andThen_eq_ok_iff, h v List.mem_cons_self,
      ih fun w hw => h w (List.mem_cons_of_mem _ hw)]
    simp

theorem checkEntries_eq_ok_iff {fields : Value.Fields}
    (hk : ∀ name v, (name, v) ∈ fields → ∀ q,
      m.checkMember q (.string name) key = .ok () ↔ m.MemberConforms (.string name) key)
    (hv : ∀ name v, (name, v) ∈ fields → ∀ q,
      m.checkMember q v value = .ok () ↔ m.MemberConforms v value) :
    m.checkEntries p fields key value = .ok () ↔ ∀ name v, (name, v) ∈ fields →
      m.MemberConforms (.string name) key ∧ m.MemberConforms v value := by
  induction fields with
  | nil => simp [checkEntries]
  | cons f fs ih =>
    obtain ⟨k, w⟩ := f
    rw [checkEntries, andThen_eq_ok_iff, andThen_eq_ok_iff, hk k w List.mem_cons_self,
      hv k w List.mem_cons_self, ih (fun n v h => hk n v (List.mem_cons_of_mem _ h))
        fun n v h => hv n v (List.mem_cons_of_mem _ h)]
    constructor
    · rintro ⟨hkey, hvalue, hrest⟩ name v hmem
      cases hmem with
      | head => exact ⟨hkey, hvalue⟩
      | tail _ hmem => exact hrest name v hmem
    · intro hall
      obtain ⟨hkey, hvalue⟩ := hall k w List.mem_cons_self
      exact ⟨hkey, hvalue, fun name v hmem => hall name v (List.mem_cons_of_mem _ hmem)⟩

/-- Each field is that of a member, and conforms to it. -/
theorem checkFields_eq_ok_iff {fields : Value.Fields}
    (h : ∀ name v, (name, v) ∈ fields → ∀ x q,
      m.checkMember q v x = .ok () ↔ m.MemberConforms v x) :
    m.checkFields p fields ms = .ok () ↔ ∀ name v, (name, v) ∈ fields →
      ∃ x, ms.get? name = some x ∧ m.MemberConforms v x := by
  induction fields with
  | nil => simp [checkFields]
  | cons f fs ih =>
    obtain ⟨k, w⟩ := f
    rw [checkFields]
    cases hx : ms.get? k with
    | none =>
      simp only [reduceCtorEq, false_iff]
      intro hall
      obtain ⟨x, hsome, _⟩ := hall k w List.mem_cons_self
      cases hx.symm.trans hsome
    | some x =>
      simp only []
      rw [andThen_eq_ok_iff, h k w List.mem_cons_self,
        ih fun n v hm => h n v (List.mem_cons_of_mem _ hm)]
      constructor
      · rintro ⟨hw, hrest⟩ name v hmem
        cases hmem with
        | head => exact ⟨x, hx, hw⟩
        | tail _ hmem => exact hrest name v hmem
      · intro hall
        refine ⟨?_, fun name v hmem => hall name v (List.mem_cons_of_mem _ hmem)⟩
        obtain ⟨y, hy, hw⟩ := hall k w List.mem_cons_self
        cases hx.symm.trans hy
        exact hw

end Parts

theorem weight_lt_of_mem_items {v : Value} {items : List Value} (h : v ∈ items) :
    v.weight < (Value.array items).weight := by
  induction items with
  | nil => cases h
  | cons w ws ih =>
    simp only [Value.weight, Value.weightItems] at *
    cases h with
    | head => omega
    | tail _ h =>
      have := ih h
      omega

theorem weight_lt_of_mem_fields {name : String} {v : Value} {fields : Value.Fields}
    (h : (name, v) ∈ fields) :
    v.weight < (Value.object fields).weight ∧
      (Value.string name).weight < (Value.object fields).weight := by
  induction fields with
  | nil => cases h
  | cons f fs ih =>
    obtain ⟨k, w⟩ := f
    simp only [Value.weight, Value.weightFields] at *
    cases h with
    | head => omega
    | tail _ h =>
      have := ih h
      omega

section Forms

variable [PatternEngine] {m : Model} {v : Value} {items : List Value} {fields : Value.Fields}
  {ts : Traits} {ms : Members}

theorem conforms_iff {s : Shape} :
    m.Conforms v s ↔ v.Meets s.traits ∧ m.Fits v s.traits s.body := by
  constructor
  · rintro ⟨hc, hf⟩
    exact ⟨hc, hf⟩
  · rintro ⟨hc, hf⟩
    exact .intro hc hf

theorem fits_simple_iff {k : SimpleKind} : m.Fits v ts (.simple k) ↔ k.Takes v := by
  constructor
  · rintro ⟨h⟩
    exact h
  · exact .simple

theorem fits_collection_iff {k : CollectionKind} {x : Member} :
    m.Fits (.array items) ts (.collection k x) ↔
      (∀ v ∈ items, m.MemberConforms v x) ∧
        (k = .set ∨ ts.has .uniqueItems = true → Value.Distinct items) := by
  constructor
  · intro h
    cases h with
    | collection hi hu => exact ⟨hi, hu⟩
  · rintro ⟨hi, hu⟩
    exact .collection hi hu

theorem fits_map_iff {key value : Member} :
    m.Fits (.object fields) ts (.map key value) ↔ ∀ name v, (name, v) ∈ fields →
      m.MemberConforms (.string name) key ∧ m.MemberConforms v value := by
  constructor
  · intro h name v hmem
    cases h with
    | map hk hv => exact ⟨hk name v hmem, hv name v hmem⟩
  · intro h
    exact .map (fun name v hmem => (h name v hmem).1) fun name v hmem => (h name v hmem).2

theorem fits_enum_iff : m.Fits v ts (.aggregate .enum ms) ↔
    ∃ name x, ms.get? name = some x ∧ x.Denotes name false v := by
  constructor
  · intro h
    cases h with
    | enum hx hd => exact ⟨_, _, hx, hd⟩
    | aggregate hk => rcases hk with hk | ⟨hk, _⟩ <;> cases hk
  · rintro ⟨name, x, hx, hd⟩
    exact .enum hx hd

theorem fits_intEnum_iff : m.Fits v ts (.aggregate .intEnum ms) ↔
    ∃ name x, ms.get? name = some x ∧ x.Denotes name true v := by
  constructor
  · intro h
    cases h with
    | intEnum hx hd => exact ⟨_, _, hx, hd⟩
    | aggregate hk => rcases hk with hk | ⟨hk, _⟩ <;> cases hk
  · rintro ⟨name, x, hx, hd⟩
    exact .intEnum hx hd

theorem Fits.length_eq_one (h : m.Fits (.object fields) ts (.aggregate .union ms)) :
    fields.length = 1 := by
  cases h with
  | aggregate hk =>
    rcases hk with hk | ⟨_, hk⟩
    · cases hk
    · exact hk

/-- The fields of a structure or union conform: each to its member, with no required one missing. -/
theorem fits_aggregate_iff {k : AggregateKind}
    (hk : k = .struct ∨ (k = .union ∧ fields.length = 1)) :
    m.Fits (.object fields) ts (.aggregate k ms) ↔
      (∀ name v, (name, v) ∈ fields → ∃ x, ms.get? name = some x ∧ m.MemberConforms v x) ∧
        ∀ name x, ms.get? name = some x → x.traits.has .required = true →
          ∃ v, (name, v) ∈ fields := by
  constructor
  · intro h
    cases h with
    | aggregate _ hn hc hr =>
      refine ⟨?_, hr⟩
      intro name v hmem
      obtain ⟨x, hx⟩ := hn name v hmem
      exact ⟨x, hx, hc name v x hmem hx⟩
    | enum => rcases hk with hk | ⟨hk, _⟩ <;> cases hk
    | intEnum => rcases hk with hk | ⟨hk, _⟩ <;> cases hk
  · rintro ⟨hf, hr⟩
    refine .aggregate hk ?_ ?_ hr
    · intro name v hmem
      obtain ⟨x, hx, _⟩ := hf name v hmem
      exact ⟨x, hx⟩
    · intro name v x hmem hx
      obtain ⟨y, hy, hc⟩ := hf name v hmem
      cases hx.symm.trans hy
      exact hc

end Forms

variable [PatternEngine]

mutual

/-- The recursion is that of the check, down the value: a member's target is checked against the
same value, the parts of the value are smaller. -/
theorem checkMember_eq_ok_iff (m : Model) (p : Path) (v : Value) (x : Member) :
    m.checkMember p v x = .ok () ↔ m.MemberConforms v x := by
  rw [checkMember, andThen_eq_ok_iff, checkConstraints_eq_ok_iff]
  constructor
  · rintro ⟨hc, ht⟩
    split at ht
    · next s hs => exact .intro hc hs ((checkShape_eq_ok_iff m p v s x.target).mp ht)
    · cases ht
    · cases ht
  · rintro ⟨hc, hs, hv⟩
    refine ⟨hc, ?_⟩
    rw [hs]
    exact (checkShape_eq_ok_iff m p v _ x.target).mpr hv
termination_by 2 * v.weight + 1

theorem checkShape_eq_ok_iff (m : Model) (p : Path) (v : Value) (s : Shape) (id : Identifier) :
    m.checkShape p v s id = .ok () ↔ m.Conforms v s := by
  rw [checkShape, andThen_eq_ok_iff, checkConstraints_eq_ok_iff, conforms_iff]
  refine and_congr_right fun _ => ?_
  cases s.body with
  | simple k => exact checkSimple_eq_ok_iff.trans fits_simple_iff.symm
  | collection k x =>
    cases v with
    | array items =>
      simp only []
      rw [andThen_eq_ok_iff, checkUnique_eq_ok_iff, fits_collection_iff,
        checkItems_eq_ok_iff fun w hw q => checkMember_eq_ok_iff m q w x]
    | _ => exact mismatch_iff nofun
  | map key value =>
    cases v with
    | object fields =>
      simp only []
      rw [fits_map_iff,
        checkEntries_eq_ok_iff (fun name w hw q => checkMember_eq_ok_iff m q (.string name) key)
          fun name w hw q => checkMember_eq_ok_iff m q w value]
    | _ => exact mismatch_iff nofun
  | aggregate k ms =>
    cases k with
    | struct =>
      cases v with
      | object fields =>
        simp only []
        rw [andThen_eq_ok_iff, checkRequired_eq_ok_iff, fits_aggregate_iff (.inl rfl),
          checkFields_eq_ok_iff fun name w hw x q => checkMember_eq_ok_iff m q w x]
      | _ => exact mismatch_iff nofun
    | union =>
      cases v with
      | object fields =>
        rcases fields with _ | ⟨⟨name, w⟩, _ | ⟨f, fs⟩⟩
        · exact mismatch_iff fun hf => by simpa using hf.length_eq_one
        · simp only []
          rw [andThen_eq_ok_iff, checkRequired_eq_ok_iff, fits_aggregate_iff (.inr ⟨rfl, rfl⟩),
            checkFields_eq_ok_iff fun n u hu x q => checkMember_eq_ok_iff m q u x]
        · exact mismatch_iff fun hf => by simpa using hf.length_eq_one
      | _ => exact mismatch_iff nofun
    | enum => exact checkEnum_eq_ok_iff.trans fits_enum_iff.symm
    | intEnum => exact checkEnum_eq_ok_iff.trans fits_intEnum_iff.symm
  | _ => exact mismatch_iff nofun
termination_by 2 * v.weight
decreasing_by
  · have := weight_lt_of_mem_items hw
    omega
  all_goals
    have := weight_lt_of_mem_fields (by assumption)
    omega

end

section

variable {m : Model} {v : Value} {id : Identifier}

theorem conformsTo_of_checkValue (h : m.checkValue v id = .ok ()) : m.ConformsTo v id := by
  unfold checkValue at h
  unfold ConformsTo
  cases hfind : m.find? id with
  | none =>
    rw [hfind] at h
    cases h
  | some e =>
    rw [hfind] at h
    cases e with
    | shape s => exact .inl ⟨s, rfl, (checkShape_eq_ok_iff ..).mp h⟩
    | member x => exact .inr ⟨x, rfl, (checkMember_eq_ok_iff ..).mp h⟩

theorem ConformsTo.checkValue (h : m.ConformsTo v id) : m.checkValue v id = .ok () := by
  unfold Model.checkValue
  rcases h with ⟨s, hfind, h⟩ | ⟨x, hfind, h⟩
  · rw [hfind]
    exact (checkShape_eq_ok_iff ..).mpr h
  · rw [hfind]
    exact (checkMember_eq_ok_iff ..).mpr h

end

end Model

end ShapeModel
