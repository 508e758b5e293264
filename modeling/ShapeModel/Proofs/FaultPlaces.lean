import Mathlib
import ShapeModel.Proofs.Faults

/-!
# Where the faults of a value are

The path of an error is the text of a way down the checked value, with `.key` for each field and
`[i]` for each item that it goes through, and the way ends at a part of the value. If the error is
about a member, that part is an object, which has the member or lacks it.
-/

namespace ShapeModel

set_option autoImplicit false

namespace Path

theorem toText_field (p : Path) (key : String) : (p.field key).toText = p.toText ++ "." ++ key := by
  simp only [toText, field, List.foldl_append, List.foldl_cons, List.foldl_nil, stepText,
    String.append_assoc]

theorem toText_item (p : Path) (i : Nat) :
    (p.item i).toText = p.toText ++ "[" ++ toString i ++ "]" := by
  simp only [toText, item, List.foldl_append, List.foldl_cons, List.foldl_nil, stepText,
    String.append_assoc]

end Path

namespace Value

/-- The text leads from the value to one of its parts, over fields and items that are there. -/
inductive Leads (v : Value) : String → Value → Prop
  | whole : Leads v "$" v
  | field {text key : String} {fields : Fields} {w : Value} : Leads v text (.object fields) →
      (key, w) ∈ fields → Leads v (text ++ "." ++ key) w
  | item {text : String} {items : List Value} {i : Nat} {w : Value} :
      Leads v text (.array items) → items[i]? = some w →
      Leads v (text ++ "[" ++ toString i ++ "]") w

/-- A path leads to what stands there, or to the field whose name stands there. -/
theorem At.exists_leads {v w : Value} {p : Path} (h : v.At p w) :
    ∃ u, v.Leads p.toText u ∧ (w = u ∨ ∃ name, w = .string name) := by
  induction h with
  | root => exact ⟨v, .whole, .inl rfl⟩
  | item _ hi ih =>
    obtain ⟨u, hu, rfl | ⟨name, hname⟩⟩ := ih
    · rw [Path.toText_item]
      exact ⟨_, hu.item hi, .inl rfl⟩
    · cases hname
  | field _ hmem ih =>
    obtain ⟨u, hu, rfl | ⟨name, hname⟩⟩ := ih
    · rw [Path.toText_field]
      exact ⟨_, hu.field hmem, .inl rfl⟩
    · cases hname
  | @name p fields key w _ hmem ih =>
    obtain ⟨u, hu, rfl | ⟨name, hname⟩⟩ := ih
    · rw [Path.toText_field]
      exact ⟨w, hu.field hmem, .inr ⟨key, rfl⟩⟩
    · cases hname

theorem At.leads_object {v : Value} {p : Path} {fields : Fields} (h : v.At p (.object fields)) :
    v.Leads p.toText (.object fields) := by
  obtain ⟨u, hu, rfl | ⟨name, hname⟩⟩ := h.exists_leads
  · exact hu
  · cases hname

end Value

/-- The path of the error leads to a part of the value. A member that is said to be unknown is one
of that object's fields, and one that is said to be missing is not. -/
inductive ValidationError.PointsInto (v : Value) : ValidationError → Prop
  | mismatch {p : Path} {w : Value} (id : Identifier) (expected actual : String) :
      v.Leads p.toText w → PointsInto v (.valueMismatch p id expected actual)
  | constraint {p : Path} {w : Value} (name reason : String) : v.Leads p.toText w →
      PointsInto v (.constraintViolated p name reason)
  | unknown {p : Path} {fields : Value.Fields} {name : String} {w : Value} :
      v.Leads p.toText (.object fields) → (name, w) ∈ fields → PointsInto v (.unknownMember p name)
  | missing {p : Path} {fields : Value.Fields} {name : String} :
      v.Leads p.toText (.object fields) → (∀ w, (name, w) ∉ fields) →
      PointsInto v (.missingRequiredMember p name)

theorem ValidationError.Blames.pointsInto {v : Value} {e : ValidationError} (h : e.Blames v) :
    e.PointsInto v := by
  cases h with
  | mismatch id expected hw =>
    obtain ⟨u, hu, -⟩ := hw.exists_leads
    exact .mismatch id expected _ hu
  | constraint name reason hw =>
    obtain ⟨u, hu, -⟩ := hw.exists_leads
    exact .constraint name reason hu
  | unknown hw hmem => exact .unknown hw.leads_object hmem
  | missing hw hnone => exact .missing hw.leads_object (Model.find?_eq_none_iff.mp hnone)

namespace Model

/-- Whatever the model, an error that is found in a value says where in the value. -/
theorem pointsInto_of_checkValue [PatternEngine] {m : Model} {v : Value} {id : Identifier}
    {e : ValidationError} (h : m.checkValue v id = .error (.validation e)) : e.PointsInto v := by
  cases hid : m.find? id with
  | none =>
    rw [checkValue, hid] at h
    cases h
  | some found =>
    have hverdict := verdict_checkValue (by rw [hid]; rfl) v
    rw [h] at hverdict
    cases hverdict with
    | fault he => exact he.pointsInto
    | memberTarget _ _ hw =>
      obtain ⟨u, hu, -⟩ := hw.exists_leads
      exact .mismatch _ _ _ hu

/-- Two nodes, of which the second one has a tag twice. -/
theorem pointsInto_of_checkValue_chain :
    let v := Value.object [("next", .object [("tags", .array [.string "x", .string "x"])])]
    let e := ValidationError.valueMismatch ⟨[.key "next", .key "tags", .index 1]⟩ (.ofText "a#Tags")
      "unique items" "string"
    chainModel.checkValue v (.ofText "a#Node") = .error (.validation e) ∧ e.PointsInto v := by
  intro v e
  have hcheck : chainModel.checkValue v (.ofText "a#Node") = .error (.validation e) := by
    decide +kernel
  exact ⟨hcheck, pointsInto_of_checkValue hcheck⟩

end Model

end ShapeModel
