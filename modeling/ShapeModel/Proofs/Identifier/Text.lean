import ShapeModel.Identifier

/-!
# Identifiers and their texts

The text of an identifier that was read is what it was read from, so different texts are different
identifiers. In the other direction a text gives back the identifiers whose parts hold no separator
that would be taken for another one; all that were read are of that form, and so are their roots.
-/

namespace ShapeModel

set_option autoImplicit false

theorem splitFirst_cons (separator c : Char) (cs : List Char) :
    splitFirst separator (c :: cs) =
      if c = separator then some ([], cs)
      else (splitFirst separator cs).map fun (before, behind) => (c :: before, behind) := by
  rw [splitFirst, splitFirst]
  by_cases h : c = separator
  · simp [h]
  · simp only [ne_eq, h, not_false_eq_true, decide_true, List.dropWhile_cons_of_pos,
      List.takeWhile_cons_of_pos, if_false]
    split <;> rfl

theorem splitFirst_eq_none {separator : Char} {cs : List Char} (h : separator ∉ cs) :
    splitFirst separator cs = none := by
  induction cs with
  | nil => rfl
  | cons c cs ih =>
    obtain ⟨hc, hcs⟩ := not_or.mp (mt List.mem_cons.mpr h)
    rw [splitFirst_cons, if_neg (Ne.symm hc), ih hcs]
    rfl

theorem splitFirst_append {separator : Char} {before : List Char} (behind : List Char)
    (h : separator ∉ before) :
    splitFirst separator (before ++ separator :: behind) = some (before, behind) := by
  induction before with
  | nil => rw [List.nil_append, splitFirst_cons, if_pos rfl]
  | cons c cs ih =>
    obtain ⟨hc, hcs⟩ := not_or.mp (mt List.mem_cons.mpr h)
    rw [List.cons_append, splitFirst_cons, if_neg (Ne.symm hc), ih hcs]
    rfl

/-- A text holds no separator, or is split at the first one. -/
theorem splitFirst_cases (separator : Char) (cs : List Char) :
    (splitFirst separator cs = none ∧ separator ∉ cs) ∨
      ∃ before behind, splitFirst separator cs = some (before, behind) ∧
        cs = before ++ separator :: behind ∧ separator ∉ before := by
  induction cs with
  | nil => exact .inl ⟨rfl, List.not_mem_nil⟩
  | cons c cs ih =>
    rw [splitFirst_cons]
    by_cases hc : c = separator
    · subst hc
      exact .inr ⟨[], cs, if_pos rfl, rfl, List.not_mem_nil⟩
    · rw [if_neg hc]
      rcases ih with ⟨hnone, hcs⟩ | ⟨before, behind, hsome, rfl, hbefore⟩
      · refine .inl ⟨by rw [hnone]; rfl, ?_⟩
        simp [Ne.symm hc, hcs]
      · refine .inr ⟨c :: before, behind, by rw [hsome]; rfl, rfl, ?_⟩
        simp [Ne.symm hc, hbefore]

namespace Identifier

/-- No part holds a separator that would be taken for another one. -/
structure Plain (id : Identifier) : Prop where
  name : '$' ∉ id.name.toList
  space : ∀ s, id.space = some s → '#' ∉ s.toList
  rest : id.space = none → '#' ∉ id.name.toList ∧ ∀ m, id.member = some m → '#' ∉ m.toList

theorem Plain.root {id : Identifier} (h : id.Plain) : id.root.Plain where
  name := h.name
  space := h.space
  rest hs := ⟨(h.rest hs).1, nofun⟩

/-- What is read behind the name space, if there is one. -/
def ofRest (space : Option String) (cs : List Char) : Identifier :=
  match splitFirst '$' cs with
  | some (name, member) => ⟨space, String.ofList name, some (String.ofList member)⟩
  | none => ⟨space, String.ofList cs, none⟩

theorem ofChars_of_not_mem {cs : List Char} (h : '#' ∉ cs) : ofChars cs = ofRest none cs := by
  rw [ofChars, splitFirst_eq_none h]
  rfl

theorem ofChars_append {space : List Char} (h : '#' ∉ space) (cs : List Char) :
    ofChars (space ++ '#' :: cs) = ofRest (some (String.ofList space)) cs := by
  rw [ofChars, splitFirst_append cs h]
  rfl

/-- The part of the text behind the name space. -/
def restText (id : Identifier) : String :=
  id.name ++ (match id.member with
    | some m => "$" ++ m
    | none => "")

theorem toText_eq (id : Identifier) :
    id.toText = (match id.space with
      | some s => s ++ "#"
      | none => "") ++ id.restText := by
  rw [toText, restText]
  exact String.append_assoc

theorem ofRest_restText {id : Identifier} (h : '$' ∉ id.name.toList) :
    ofRest id.space id.restText.toList = id := by
  obtain ⟨space, name, member⟩ := id
  cases member with
  | none => simp [ofRest, restText, splitFirst_eq_none h]
  | some m =>
    have hsplit := splitFirst_append m.toList h
    simp [ofRest, restText, hsplit]

theorem restText_ofRest (space : Option String) (cs : List Char) :
    (ofRest space cs).restText.toList = cs ∧ '$' ∉ (ofRest space cs).name.toList := by
  rw [ofRest]
  rcases splitFirst_cases '$' cs with ⟨hnone, hcs⟩ | ⟨name, member, hsome, rfl, hname⟩
  · rw [hnone]
    simp [restText, hcs]
  · rw [hsome]
    simp [restText, hname]

theorem space_ofRest (space : Option String) (cs : List Char) :
    (ofRest space cs).space = space := by
  rw [ofRest]
  split <;> rfl

theorem hash_mem_restText_iff {id : Identifier} :
    '#' ∈ id.restText.toList ↔
      '#' ∈ id.name.toList ∨ ∃ m, id.member = some m ∧ '#' ∈ m.toList := by
  rw [restText]
  cases id.member <;> simp

theorem ofText_toText {id : Identifier} (h : id.Plain) : ofText id.toText = id := by
  have hrest := ofRest_restText h.name
  rw [ofText, toText_eq]
  cases hs : id.space with
  | none =>
    obtain ⟨hname, hmember⟩ := h.rest hs
    have hhash : '#' ∉ id.restText.toList := by
      intro hmem
      rcases hash_mem_restText_iff.mp hmem with hmem | ⟨m, hm, hmem⟩
      · exact hname hmem
      · exact hmember m hm hmem
    rw [hs] at hrest
    simp only [String.empty_append]
    rw [ofChars_of_not_mem hhash, hrest]
  | some s =>
    have htext : (s ++ "#" ++ id.restText).toList = s.toList ++ '#' :: id.restText.toList := by
      simp
    rw [hs] at hrest
    simp only [htext]
    rw [ofChars_append (h.space s hs), String.ofList_toList, hrest]

theorem toText_ofText (t : String) : (ofText t).toText = t := by
  rw [ofText, toText_eq]
  apply String.toList_inj.mp
  rcases splitFirst_cases '#' t.toList with ⟨_, ht⟩ | ⟨space, rest, _, ht, hspace⟩
  · rw [ofChars_of_not_mem ht, space_ofRest]
    simp [restText_ofRest]
  · rw [ht, ofChars_append hspace, space_ofRest]
    simp [restText_ofRest]

theorem ofText_inj {s t : String} (h : ofText s = ofText t) : s = t := by
  rw [← toText_ofText s, h, toText_ofText]

theorem plain_ofText (t : String) : (ofText t).Plain := by
  rw [ofText]
  rcases splitFirst_cases '#' t.toList with ⟨_, ht⟩ | ⟨space, rest, _, ht, hspace⟩
  · rw [ofChars_of_not_mem ht]
    obtain ⟨hrest, hname⟩ := restText_ofRest none t.toList
    have hhash := mt hash_mem_restText_iff.mpr (hrest.symm ▸ ht)
    refine ⟨hname, ?_, ?_⟩
    · intro s hs
      rw [space_ofRest] at hs
      cases hs
    · intro _
      exact ⟨fun h => hhash (.inl h), fun m hm h => hhash (.inr ⟨m, hm, h⟩)⟩
  · rw [ht, ofChars_append hspace]
    refine ⟨(restText_ofRest _ rest).2, ?_, ?_⟩
    · intro s hs
      rw [space_ofRest] at hs
      cases hs
      rwa [String.toList_ofList]
    · intro hs
      rw [space_ofRest] at hs
      cases hs

theorem ofText_toText_iff {id : Identifier} : ofText id.toText = id ↔ id.Plain := by
  constructor
  · intro h
    rw [← h]
    exact plain_ofText id.toText
  · exact ofText_toText

/-- A `#` may stand behind a name space but not in one, and nowhere if there is none. -/
theorem plain_mk_iff {space : Option String} {name : String} {member : Option String} :
    Plain ⟨space, name, member⟩ ↔
      '$' ∉ name.toList ∧
        ((∃ s, space = some s ∧ '#' ∉ s.toList) ∨
          (space = none ∧ '#' ∉ name.toList ∧ ∀ m, member = some m → '#' ∉ m.toList)) := by
  constructor
  · intro h
    refine ⟨h.name, ?_⟩
    cases space with
    | none => exact .inr ⟨rfl, h.rest rfl⟩
    | some s => exact .inl ⟨s, rfl, h.space s rfl⟩
  · rintro ⟨hname, ⟨s, rfl, hs⟩ | ⟨rfl, hrest⟩⟩
    · refine ⟨hname, ?_, nofun⟩
      intro t ht
      rwa [← Option.some.inj ht]
    · exact ⟨hname, nofun, fun _ => hrest⟩

/-- Texts and identifiers stand for each other as far as they can: every text is the text of what is
read from it, and an identifier is read back exactly where no separator in it is taken for another
one. So no two texts are read as one identifier. -/
theorem toText_faithful :
    (∀ t : String, (ofText t).toText = t) ∧
    (∀ (space : Option String) (name : String) (member : Option String),
      ofText (toText ⟨space, name, member⟩) = ⟨space, name, member⟩ ↔
        '$' ∉ name.toList ∧
          ((∃ s, space = some s ∧ '#' ∉ s.toList) ∨
            (space = none ∧ '#' ∉ name.toList ∧ ∀ m, member = some m → '#' ∉ m.toList))) ∧
    Function.Injective ofText := by
  refine ⟨toText_ofText, ?_, ?_⟩
  · intro space name member
    rw [ofText_toText_iff, plain_mk_iff]
  · intro s t h
    exact ofText_inj h

theorem isSome_space_ofText_iff {t : String} : (ofText t).space.isSome = true ↔ '#' ∈ t.toList := by
  rw [ofText]
  rcases splitFirst_cases '#' t.toList with ⟨_, ht⟩ | ⟨space, rest, _, ht, hspace⟩
  · rw [ofChars_of_not_mem ht, space_ofRest]
    exact iff_of_false Bool.false_ne_true ht
  · rw [ht, ofChars_append hspace, space_ofRest]
    exact iff_of_true rfl (List.mem_append_right space List.mem_cons_self)

theorem space_ofText_eq_none {t : String} (h : '#' ∉ t.toList) : (ofText t).space = none :=
  Option.not_isSome_iff_eq_none.mp (mt isSome_space_ofText_iff.mp h)

theorem toText_root_of_space_eq_none {id : Identifier} (h : id.space = none) :
    id.root.toText = id.name := by
  rw [toText_eq, restText, root, h]
  simp

/-- The root keeps the name space. -/
theorem hash_mem_toText_root {t : String} (h : '#' ∈ t.toList) :
    '#' ∈ (ofText t).root.toText.toList := by
  rw [← isSome_space_ofText_iff, ofText_toText (plain_ofText t).root]
  exact isSome_space_ofText_iff.mpr h

/-- The root of an identifier that was read is read from its own text. -/
theorem ofText_toText_root (t : String) : ofText (ofText t).root.toText = (ofText t).root :=
  ofText_toText (plain_ofText t).root

end Identifier

end ShapeModel
