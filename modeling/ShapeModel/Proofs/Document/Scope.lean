import ShapeModel.Document.Scope
import ShapeModel.Proofs.Identifier.Text

/-!
# What names stand for

The absolute form of a written shape name as a relation: a name of the prelude first, else one that
was brought into use, else one of the document's own name space. Qualifying a name computes it.
-/

namespace ShapeModel

set_option autoImplicit false

theorem Prelude.hash_mem_absolute (name : String) : '#' ∈ (absolute name).toList := by
  simp [absolute]

namespace Document.Scope

/-- The absolute name of a shape name, if there is one. -/
inductive Resolves (s : Scope) (name : String) : String → Prop
  | prelude : Prelude.isShapeName name = true → Resolves s name ("smithy.api#" ++ name)
  | used {target : String} : Prelude.isShapeName name = false →
      s.aliases.get? name = some target → Resolves s name target
  | space {space : String} : Prelude.isShapeName name = false → s.aliases.get? name = none →
      s.space = some space → Resolves s name (space ++ "#" ++ name)

/-- The name that a written name stands for. A member stays with the shape it belongs to, and a name
that nothing is known about stands for itself. -/
inductive Qualifies (s : Scope) : String → String → Prop
  | absolute {w : String} : '#' ∈ w.toList → Qualifies s w w
  | shape {w target : String} : '#' ∉ w.toList → '$' ∉ w.toList → Resolves s w target →
      Qualifies s w target
  | member {name member target : String} : '#' ∉ (name ++ "$" ++ member).toList →
      '$' ∉ name.toList → Resolves s name target →
      Qualifies s (name ++ "$" ++ member) (target ++ "$" ++ member)
  | unknownShape {w : String} : '#' ∉ w.toList → '$' ∉ w.toList → (∀ t, ¬Resolves s w t) →
      Qualifies s w w
  | unknownMember {name member : String} : '#' ∉ (name ++ "$" ++ member).toList →
      '$' ∉ name.toList → (∀ t, ¬Resolves s name t) →
      Qualifies s (name ++ "$" ++ member) (name ++ "$" ++ member)

variable {s : Scope} {name w : String}

theorem resolve_eq_some_iff {target : String} :
    s.resolve false name = some target ↔ s.Resolves name target := by
  rw [resolve, isPreludeName]
  simp only [Bool.false_eq_true, if_false]
  constructor
  · intro h
    split at h
    · next hprelude =>
      cases h
      exact .prelude hprelude
    · next hprelude =>
      split at h
      · next halias =>
        cases h
        exact .used (Bool.not_eq_true _ ▸ hprelude) halias
      · next halias =>
        obtain ⟨space, hspace, rfl⟩ := Option.map_eq_some_iff.mp h
        exact .space (Bool.not_eq_true _ ▸ hprelude) halias hspace
  · intro h
    cases h with
    | prelude hprelude =>
      rw [if_pos hprelude]
      rfl
    | used hprelude halias => rw [if_neg (by simp [hprelude]), halias]
    | space hprelude halias hspace =>
      rw [if_neg (by simp [hprelude]), halias, hspace]
      rfl

theorem resolve_eq_none_iff : s.resolve false name = none ↔ ∀ t, ¬s.Resolves name t := by
  simp only [← resolve_eq_some_iff, Option.eq_none_iff_forall_ne_some]

theorem qualify_of_space (isTrait : Bool) (h : '#' ∈ w.toList) : s.qualify isTrait w = w := by
  rw [qualify]
  exact if_pos (Identifier.isSome_space_ofText_iff.mpr h)

theorem ofText_shape (hspace : '#' ∉ w.toList) (hmember : '$' ∉ w.toList) :
    Identifier.ofText w = ⟨none, w, none⟩ := by
  rw [Identifier.ofText, Identifier.ofChars_of_not_mem hspace, Identifier.ofRest,
    splitFirst_eq_none hmember, String.ofList_toList]

theorem ofText_member {member : String} (hspace : '#' ∉ (name ++ "$" ++ member).toList)
    (hmember : '$' ∉ name.toList) :
    Identifier.ofText (name ++ "$" ++ member) = ⟨none, name, some member⟩ := by
  have htext : (name ++ "$" ++ member).toList = name.toList ++ '$' :: member.toList := by
    simp
  rw [Identifier.ofText, Identifier.ofChars_of_not_mem hspace, Identifier.ofRest, htext,
    splitFirst_append _ hmember]
  simp only [String.ofList_toList]

theorem qualify_shape (hspace : '#' ∉ w.toList) (hmember : '$' ∉ w.toList) (isTrait : Bool) :
    s.qualify isTrait w = (s.resolve isTrait w).getD w := by
  rw [qualify, ofText_shape hspace hmember]
  simp only [Option.isSome_none, Bool.false_eq_true, if_false]
  cases s.resolve isTrait w <;> rfl

theorem qualify_member {member : String} (hspace : '#' ∉ (name ++ "$" ++ member).toList)
    (hmember : '$' ∉ name.toList) (isTrait : Bool) :
    s.qualify isTrait (name ++ "$" ++ member) =
      match s.resolve isTrait name with
      | some target => target ++ "$" ++ member
      | none => name ++ "$" ++ member := by
  rw [qualify, ofText_member hspace hmember]
  simp only [Option.isSome_none, Bool.false_eq_true, if_false]
  cases s.resolve isTrait name <;> rfl

/-- A written name has a name space, or is a shape name, or that of a member. -/
theorem written_cases (w : String) :
    '#' ∈ w.toList ∨ ('#' ∉ w.toList ∧ '$' ∉ w.toList) ∨
      ∃ name member, w = name ++ "$" ++ member ∧ '#' ∉ w.toList ∧ '$' ∉ name.toList := by
  by_cases hspace : '#' ∈ w.toList
  · exact .inl hspace
  rcases splitFirst_cases '$' w.toList with ⟨_, hmember⟩ | ⟨name, member, _, hw, hname⟩
  · exact .inr (.inl ⟨hspace, hmember⟩)
  · refine .inr (.inr ⟨String.ofList name, String.ofList member, ?_, hspace, by simpa using hname⟩)
    apply String.toList_inj.mp
    rw [hw]
    simp

theorem qualify_eq_iff {target : String} :
    s.qualify false w = target ↔ s.Qualifies w target := by
  constructor
  · rintro rfl
    rcases written_cases w with hspace | ⟨hspace, hmember⟩ | ⟨name, member, rfl, hspace, hname⟩
    · rw [qualify_of_space _ hspace]
      exact .absolute hspace
    · rw [qualify_shape hspace hmember]
      cases h : s.resolve false w with
      | none => exact .unknownShape hspace hmember (resolve_eq_none_iff.mp h)
      | some target => exact .shape hspace hmember (resolve_eq_some_iff.mp h)
    · rw [qualify_member hspace hname]
      cases h : s.resolve false name with
      | none => exact .unknownMember hspace hname (resolve_eq_none_iff.mp h)
      | some target => exact .member hspace hname (resolve_eq_some_iff.mp h)
  · intro h
    cases h with
    | absolute hspace => exact qualify_of_space _ hspace
    | shape hspace hmember h =>
      rw [qualify_shape hspace hmember, resolve_eq_some_iff.mpr h, Option.getD_some]
    | member hspace hname h => rw [qualify_member hspace hname, resolve_eq_some_iff.mpr h]
    | unknownShape hspace hmember h =>
      rw [qualify_shape hspace hmember, resolve_eq_none_iff.mpr h, Option.getD_none]
    | unknownMember hspace hname h => rw [qualify_member hspace hname, resolve_eq_none_iff.mpr h]

end Document.Scope

end ShapeModel
