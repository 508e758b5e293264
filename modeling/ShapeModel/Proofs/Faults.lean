import ShapeModel.Proofs.Conformance
import ShapeModel.Proofs.Model.UpdateTraits
import ShapeModel.Proofs.Validity

/-!
# Faults of values

The check of a value passes, finds fault with a part of the value, or follows a member to where
there is no shape. The path of a fault leads to the part it is about. In a valid model every member
refers to a shape, so there it never comes to the third.
-/

namespace ShapeModel

set_option autoImplicit false

/-- What stands at a path in a value: the parts of the value, and the name of a field where its
value stands. -/
inductive Value.At (v : Value) : Path → Value → Prop
  | root : At v .root v
  | item {p : Path} {items : List Value} {i : Nat} {w : Value} : At v p (.array items) →
      items[i]? = some w → At v (p.item i) w
  | field {p : Path} {fields : Value.Fields} {name : String} {w : Value} :
      At v p (.object fields) → (name, w) ∈ fields → At v (p.field name) w
  | name {p : Path} {fields : Value.Fields} {name : String} {w : Value} :
      At v p (.object fields) → (name, w) ∈ fields → At v (p.field name) (.string name)

/-- The error is about what stands at its path. -/
inductive ValidationError.Blames (v : Value) : ValidationError → Prop
  | mismatch {p : Path} {w : Value} (id : Identifier) (expected : String) : v.At p w →
      Blames v (.valueMismatch p id expected w.kind.name)
  | constraint {p : Path} {w : Value} (name reason : String) : v.At p w →
      Blames v (.constraintViolated p name reason)
  | unknown {p : Path} {fields : Value.Fields} {name : String} {w : Value} :
      v.At p (.object fields) → (name, w) ∈ fields → Blames v (.unknownMember p name)
  | missing {p : Path} {fields : Value.Fields} {name : String} : v.At p (.object fields) →
      Entries.find? name fields = none → Blames v (.missingRequiredMember p name)

namespace Model

/-- Some member for data refers to the identifier. -/
def Refers (m : Model) (id : Identifier) : Prop :=
  ∃ k s x, m.shapes.get? k = some s ∧ s.body.Has .data x ∧ x.target = id

/-- What may come of checks of a value or of parts of it. -/
inductive Verdict (m : Model) (v : Value) : Except Error Unit → Prop
  | passed : Verdict m v (.ok ())
  | fault {e : ValidationError} : e.Blames v → Verdict m v (.error (.validation e))
  | noTarget {id : Identifier} : m.Refers id → m.find? id = none →
      Verdict m v (.error (.shapeNotFound id))
  | memberTarget {p : Path} {id : Identifier} {w : Value} {x : Member} : m.Refers id →
      m.find? id = some (.member x) → v.At p w →
      Verdict m v (.error (.validation (.valueMismatch p id "a shape target" "a member")))

section Parts

variable {m : Model} {v w : Value} {p : Path} {id : Identifier}

theorem Verdict.andThen {x y : Except Error Unit} (hx : m.Verdict v x) (hy : m.Verdict v y) :
    m.Verdict v (do x; y) := by
  cases hx with
  | passed => exact hy
  | fault he => exact .fault he
  | noTarget hid hfind => exact .noTarget hid hfind
  | memberTarget hid hfind hw => exact .memberTarget hid hfind hw

theorem verdict_mismatch (id : Identifier) (expected : String) (hw : v.At p w) :
    m.Verdict v (mismatch p id expected w) :=
  .fault (.mismatch id expected hw)

theorem verdict_violated (k : Trait.Kind) (reason : String) (hw : v.At p w) :
    m.Verdict v (violated p k reason) :=
  .fault (.constraint k.name reason hw)

theorem verdict_checkLength (ts : Traits) (hw : v.At p w) : m.Verdict v (checkLength p w ts) := by
  unfold checkLength
  split
  · split
    · exact .passed
    · exact verdict_violated _ _ hw
  · exact .passed

theorem verdict_checkRange (ts : Traits) (hw : v.At p w) : m.Verdict v (checkRange p w ts) := by
  unfold checkRange
  split
  · split
    · split
      · exact .passed
      · exact verdict_violated _ _ hw
    · exact .passed
  · exact .passed

theorem verdict_checkSimple (id : Identifier) (k : SimpleKind) (hw : v.At p w) :
    m.Verdict v (checkSimple p w id k) := by
  unfold checkSimple
  repeat' split
  all_goals first | exact .passed | exact verdict_mismatch _ _ hw

theorem getElem?_of_firstRepeat {before items : List Value} {i : Nat}
    (h : firstRepeat before items = some (i, w)) : (before ++ items)[i]? = some w := by
  induction items generalizing before with
  | nil => cases h
  | cons u us ih =>
    rw [firstRepeat] at h
    split at h
    · cases h
      rw [List.getElem?_append_right (Nat.le_refl _), Nat.sub_self, List.getElem?_cons_zero]
    · rw [List.append_cons]
      exact ih h

theorem verdict_checkUnique {items : List Value} (id : Identifier) (k : CollectionKind)
    (ts : Traits) (hitems : v.At p (.array items)) :
    m.Verdict v (checkUnique p items id k ts) := by
  unfold checkUnique
  split
  · split
    · next h => exact verdict_mismatch _ _ (.item hitems (getElem?_of_firstRepeat h))
    · exact .passed
  · exact .passed

theorem verdict_checkEnum (id : Identifier) (ints : Bool) (ms : Members) (hw : v.At p w) :
    m.Verdict v (checkEnum p w id ints ms) := by
  unfold checkEnum
  split
  · exact .passed
  · exact verdict_mismatch _ _ hw

theorem find?_eq_none_of_missingMember? {ms : Members} {fields : Value.Fields} {name : String}
    (h : missingMember? ms fields = some name) : Entries.find? name fields = none := by
  obtain ⟨⟨name, x⟩, hx, rfl⟩ := Option.map_eq_some_iff.mp h
  have hmissing := List.find?_some hx
  exact Option.isNone_iff_eq_none.mp (Bool.and_eq_true_iff.mp hmissing).2

theorem verdict_checkRequired {fields : Value.Fields} (ms : Members)
    (hfields : v.At p (.object fields)) : m.Verdict v (checkRequired p ms fields) := by
  unfold checkRequired
  split
  · next h => exact .fault (.missing hfields (find?_eq_none_of_missingMember? h))
  · exact .passed

variable [PatternEngine]

theorem verdict_checkPattern (ts : Traits) (hw : v.At p w) :
    m.Verdict v (checkPattern p w ts) := by
  unfold checkPattern
  split
  · split
    · exact .passed
    · exact verdict_violated _ _ hw
  · exact .passed

theorem verdict_checkConstraints (ts : Traits) (hw : v.At p w) :
    m.Verdict v (checkConstraints p w ts) :=
  (verdict_checkLength ts hw).andThen
    ((verdict_checkRange ts hw).andThen (verdict_checkPattern ts hw))

theorem verdict_checkItems {x : Member} {items : List Value} {i : Nat}
    (h : ∀ j w, items[j]? = some w → m.Verdict v (m.checkMember (p.item (i + j)) w x)) :
    m.Verdict v (m.checkItems p i items x) := by
  induction items generalizing i with
  | nil =>
    rw [checkItems]
    exact .passed
  | cons w ws ih =>
    rw [checkItems]
    apply Verdict.andThen
    · exact h 0 w rfl
    · apply ih
      intro j u hu
      rw [Nat.add_assoc, Nat.add_comm 1 j]
      exact h (j + 1) u hu

theorem verdict_checkEntries {key value : Member} {fields : Value.Fields}
    (hkey : ∀ name w, (name, w) ∈ fields →
      m.Verdict v (m.checkMember (p.field name) (.string name) key))
    (hvalue : ∀ name w, (name, w) ∈ fields →
      m.Verdict v (m.checkMember (p.field name) w value)) :
    m.Verdict v (m.checkEntries p fields key value) := by
  induction fields with
  | nil =>
    rw [checkEntries]
    exact .passed
  | cons f fs ih =>
    obtain ⟨name, w⟩ := f
    rw [checkEntries]
    apply Verdict.andThen
    · exact hkey name w List.mem_cons_self
    apply Verdict.andThen
    · exact hvalue name w List.mem_cons_self
    · exact ih (fun n u hu => hkey n u (List.mem_cons_of_mem _ hu))
        fun n u hu => hvalue n u (List.mem_cons_of_mem _ hu)

theorem verdict_checkFields {ms : Members} {whole fields : Value.Fields}
    (hwhole : v.At p (.object whole)) (hfields : fields ⊆ whole)
    (h : ∀ name w x, (name, w) ∈ fields → ms.get? name = some x →
      m.Verdict v (m.checkMember (p.field name) w x)) :
    m.Verdict v (m.checkFields p fields ms) := by
  induction fields with
  | nil =>
    rw [checkFields]
    exact .passed
  | cons f fs ih =>
    obtain ⟨name, w⟩ := f
    obtain ⟨hmem, hfields⟩ := List.cons_subset.mp hfields
    rw [checkFields]
    split
    · exact .fault (.unknown hwhole hmem)
    · next x hx =>
      apply Verdict.andThen
      · exact h name w x List.mem_cons_self hx
      · exact ih hfields fun n u y hu => h n u y (List.mem_cons_of_mem _ hu)

end Parts

/-- A member that is found is one for data. -/
theorem refers_of_find?_eq_member {m : Model} {id : Identifier} {x : Member}
    (h : m.find? id = some (.member x)) : m.Refers x.target := by
  unfold find? at h
  split at h
  · obtain ⟨t, _, heq⟩ := Option.map_eq_some_iff.mp h
    cases heq
  · obtain ⟨y, hy, heq⟩ := Option.map_eq_some_iff.mp h
    cases heq
    obtain ⟨s, hs, hx⟩ := Option.bind_eq_some_iff.mp hy
    obtain ⟨k, ms, hbody, hx⟩ := Shape.exists_aggregate_of_member? hx
    exact ⟨id.root, s, x, hs, hbody ▸ .named hx, rfl⟩

section

variable [PatternEngine]

/-- A shape of the model, given what comes of the members of smaller values. -/
theorem verdict_checkShape {m : Model} {v w : Value} {p : Path} {s : Shape} {k : Identifier}
    (id : Identifier) (hs : m.shapes.get? k = some s) (hw : v.At p w)
    (h : ∀ q u x, u.weight < w.weight → m.Refers x.target → v.At q u →
      m.Verdict v (m.checkMember q u x)) :
    m.Verdict v (m.checkShape p w s id) := by
  have hrefers x (hx : s.body.Has .data x) : m.Refers x.target := ⟨k, s, x, hs, hx, rfl⟩
  rw [checkShape]
  apply (verdict_checkConstraints s.traits hw).andThen
  cases hbody : s.body with
  | simple k => exact verdict_checkSimple id k hw
  | collection k x =>
    have hx := hrefers x (hbody ▸ .item k x)
    cases w with
    | array items =>
      apply Verdict.andThen
      · apply verdict_checkItems
        intro j u hu
        have hlt := weight_lt_of_mem_items (List.mem_of_getElem? hu)
        rw [Nat.zero_add]
        exact h _ u x hlt hx (.item hw hu)
      · exact verdict_checkUnique id k s.traits hw
    | _ => exact verdict_mismatch _ _ hw
  | map key value =>
    have hkey := hrefers key (hbody ▸ .key key value)
    have hvalue := hrefers value (hbody ▸ .value key value)
    cases w with
    | object fields =>
      apply verdict_checkEntries
      · intro name u hu
        exact h _ _ key (weight_lt_of_mem_fields hu).2 hkey (.name hw hu)
      · intro name u hu
        exact h _ u value (weight_lt_of_mem_fields hu).1 hvalue (.field hw hu)
    | _ => exact verdict_mismatch _ _ hw
  | aggregate k ms =>
    have hfields {fields : Value.Fields} (hw : v.At p (.object fields))
        (h : ∀ q u x, u.weight < (Value.object fields).weight → m.Refers x.target → v.At q u →
          m.Verdict v (m.checkMember q u x)) :
        m.Verdict v (do m.checkFields p fields ms; checkRequired p ms fields) := by
      apply Verdict.andThen
      · apply verdict_checkFields hw (List.Subset.refl fields)
        intro name u x hu hx
        have hx := hrefers x (hbody ▸ .named hx)
        exact h _ u x (weight_lt_of_mem_fields hu).1 hx (.field hw hu)
      · exact verdict_checkRequired ms hw
    cases k with
    | struct =>
      cases w with
      | object fields => exact hfields hw h
      | _ => exact verdict_mismatch _ _ hw
    | union =>
      cases w with
      | object fields =>
        rcases fields with _ | ⟨f, _ | ⟨g, fs⟩⟩
        · exact verdict_mismatch _ _ hw
        · exact hfields hw h
        · exact verdict_mismatch _ _ hw
      | _ => exact verdict_mismatch _ _ hw
    | enum => exact verdict_checkEnum id false ms hw
    | intEnum => exact verdict_checkEnum id true ms hw
  | _ => exact verdict_mismatch _ _ hw

theorem verdict_checkMember {m : Model} {v w : Value} {p : Path} {x : Member}
    (hx : m.Refers x.target) (hw : v.At p w) : m.Verdict v (m.checkMember p w x) := by
  rw [checkMember]
  apply (verdict_checkConstraints x.traits hw).andThen
  split
  · next s hs =>
    apply verdict_checkShape x.target (get?_of_find?_eq_shape hs) hw
    intro q u y _ hy hu
    exact verdict_checkMember hy hu
  · next y hy => exact .memberTarget hx hy hw
  · next hnone => exact .noTarget hx hnone
termination_by w.weight

/-- A check from an identifier at which something is found. -/
theorem verdict_checkValue {m : Model} {id : Identifier} (hid : (m.find? id).isSome = true)
    (v : Value) : m.Verdict v (m.checkValue v id) := by
  obtain ⟨e, he⟩ := Option.isSome_iff_exists.mp hid
  rw [checkValue, he]
  cases e with
  | shape s =>
    apply verdict_checkShape id (get?_of_find?_eq_shape he) .root
    intro q w x _ hx hw
    exact verdict_checkMember hx hw
  | member x => exact verdict_checkMember (refers_of_find?_eq_member he) .root

/-- In a valid model, members for data refer to shapes. -/
theorem Refers.exists_shape {m : Model} {id : Identifier} (h : m.Refers id)
    (hm : m.validate = .ok ()) : ∃ s, m.find? id = some (.shape s) := by
  obtain ⟨k, s, x, hs, hx, rfl⟩ := h
  have hvalid := validate_eq_ok_iff.mp hm k s hs
  obtain ⟨t, ht, _⟩ := ((validateShape_eq_ok_iff.mp hvalid).1 .data x hx).1
  exact ⟨t, ht⟩

theorem Verdict.blames_of_validate {m : Model} {v : Value} {x : Except Error Unit}
    (h : m.Verdict v x) (hm : m.validate = .ok ()) :
    x = .ok () ∨ ∃ e, x = .error (.validation e) ∧ e.Blames v := by
  cases h with
  | passed => exact .inl rfl
  | fault he => exact .inr ⟨_, rfl, he⟩
  | noTarget hid hfind =>
    obtain ⟨s, hs⟩ := hid.exists_shape hm
    cases hs.symm.trans hfind
  | memberTarget hid hfind _ =>
    obtain ⟨s, hs⟩ := hid.exists_shape hm
    cases hs.symm.trans hfind

end

end Model

theorem Value.Kind.name_ne_member (k : Kind) : k.name ≠ "a member" := by
  cases k <;> decide

/-- A fault is never that something is a member. -/
theorem ValidationError.Blames.not_member {v : Value} {p : Path} {id : Identifier}
    {expected : String} : ¬ Blames v (.valueMismatch p id expected "a member") := by
  generalize hactual : "a member" = actual
  intro h
  cases h
  exact Value.Kind.name_ne_member _ hactual.symm

namespace Model

/-- Against a valid model, a value passes or is to blame: what is checked against is always
there. -/
theorem checkValue_of_validate [PatternEngine] {m : Model} {id : Identifier}
    (hm : m.validate = .ok ()) (hid : (m.find? id).isSome = true) (v : Value) :
    (m.checkValue v id = .ok () ∨
      ∃ e, m.checkValue v id = .error (.validation e) ∧ e.Blames v) ∧
    (∀ k, m.checkValue v id ≠ .error (.shapeNotFound k)) ∧
    ∀ p k expected,
      m.checkValue v id ≠ .error (.validation (.valueMismatch p k expected "a member")) := by
  have h := (verdict_checkValue hid v).blames_of_validate hm
  refine ⟨h, ?_, ?_⟩
  · intro k hk
    rw [hk] at h
    rcases h with h | ⟨e, h, _⟩ <;> cases h
  · intro p k expected hk
    rw [hk] at h
    rcases h with h | ⟨e, h, hblames⟩
    · cases h
    · cases h
      exact hblames.not_member

/-- A structure whose first member is again one of its kind. -/
def chainModel : Model :=
  .ofShapes
    [(.ofText "a#Node", ⟨.aggregate .struct (.ofList
        [("next", ⟨.ofText "a#Node", .empty⟩),
          ("tags", ⟨.ofText "a#Tags", .ofList [.required]⟩)]), .empty⟩),
      (.ofText "a#Tags", ⟨.collection .set ⟨.ofText "a#Tag", .empty⟩, .empty⟩),
      (.ofText "a#Tag", ⟨.simple .string, .ofList [.length ⟨some 1, none⟩]⟩)]

/-- A chain of nodes with a node at the end that is not even an object. -/
theorem checkValue_chain :
    let v := Value.object [("next", .object [("next", .string "end"), ("tags", .array [])]),
      ("tags", .array [.string "x", .string "x"])]
    chainModel.validate = .ok () ∧ (chainModel.find? (.ofText "a#Node$next")).isSome = true ∧
    (chainModel.checkValue v (.ofText "a#Node$next") = .ok () ∨
      ∃ e, chainModel.checkValue v (.ofText "a#Node$next") = .error (.validation e) ∧
        e.Blames v) := by
  intro v
  have hvalid : chainModel.validate = .ok () := rfl
  have hfound : (chainModel.find? (.ofText "a#Node$next")).isSome = true := rfl
  exact ⟨hvalid, hfound, (checkValue_of_validate hvalid hfound v).1⟩

end Model

end ShapeModel
