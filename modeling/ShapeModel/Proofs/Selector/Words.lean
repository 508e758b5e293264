import Mathlib.Data.List.Forall2
import ShapeModel.Proofs.Selection
import ShapeModel.Proofs.Text.Words

/-!
# Selectors in words

What each word of a textual selector stands for. A text is a selector exactly if it has words and
each of them stands for one, and then it says what all of them say together.
-/

namespace ShapeModel

set_option autoImplicit false

namespace Selector

open Text (AreWords)

/-- What a word stands for. A trait that is named without a name space is one of the prelude. -/
inductive WordDenotes : List Char → Selector → Prop
  | all : WordDenotes "*".toList .all
  | number : WordDenotes "number".toList .number
  | simple : WordDenotes "simpleType".toList .simple
  | collection : WordDenotes "collection".toList .collection
  | kind (k : ShapeKind) : WordDenotes k.name.toList (.kind k)
  | absoluteTrait {name : List Char} : '#' ∈ name →
      WordDenotes ("[trait:".toList ++ (name ++ [']'])) (.hasTrait (String.ofList name))
  | preludeTrait {name : List Char} : name ≠ [] → '#' ∉ name →
      WordDenotes ("[trait:".toList ++ (name ++ [']']))
        (.hasTrait ("smithy.api#" ++ String.ofList name))

variable {w : List Char} {s : Selector}

theorem bracketedName?_eq_some_iff {name : List Char} :
    bracketedName? w = some name ↔ name ≠ [] ∧ w = "[trait:".toList ++ (name ++ [']']) := by
  rw [bracketedName?]
  constructor
  · intro h
    split at h
    · next hopen =>
      obtain ⟨rest, rfl⟩ := List.isPrefixOf_iff_prefix.mp hopen
      simp only [List.drop_left, Option.ite_none_right_eq_some, Option.some.injEq] at h
      obtain ⟨⟨hlast, hne⟩, rfl⟩ := h
      obtain ⟨front, rfl⟩ := List.getLast?_eq_some_iff.mp hlast
      rw [List.dropLast_concat] at hne ⊢
      exact ⟨hne, rfl⟩
    · cases h
  · rintro ⟨hne, rfl⟩
    have hopen : traitOpening.isPrefixOf ("[trait:".toList ++ (name ++ [']'])) = true :=
      List.isPrefixOf_iff_prefix.mpr (List.prefix_append _ _)
    have hdrop : ("[trait:".toList ++ (name ++ [']'])).drop traitOpening.length = name ++ [']'] :=
      List.drop_left
    rw [if_pos hopen]
    simp only [hdrop, List.dropLast_concat]
    exact if_pos ⟨List.getLast?_concat, hne⟩

theorem ofWord?_kind (k : ShapeKind) : ofWord? k.name.toList = some (.kind k) := by
  cases k with
  | simple k | collection k | aggregate k => cases k <;> rfl
  | _ => rfl

theorem ofWord?_bracketed {name : List Char} (hne : name ≠ []) :
    ofWord? ("[trait:".toList ++ (name ++ [']'])) = some (traitNamed name) := by
  have hname := bracketedName?_eq_some_iff.mpr ⟨hne, rfl⟩
  rw [ofWord?, hname]
  rfl

theorem traitNamed_of_mem {name : List Char} (h : '#' ∈ name) :
    traitNamed name = .hasTrait (String.ofList name) := by
  rw [traitNamed, if_pos (List.contains_iff_mem.mpr h)]

theorem traitNamed_of_not_mem {name : List Char} (h : '#' ∉ name) :
    traitNamed name = .hasTrait ("smithy.api#" ++ String.ofList name) := by
  rw [traitNamed, if_neg (mt List.contains_iff_mem.mp h)]
  rfl

theorem wordDenotes_bracketed {name : List Char} (hne : name ≠ []) :
    WordDenotes ("[trait:".toList ++ (name ++ [']'])) (traitNamed name) := by
  by_cases hspace : '#' ∈ name
  · rw [traitNamed_of_mem hspace]
    exact .absoluteTrait hspace
  · rw [traitNamed_of_not_mem hspace]
    exact .preludeTrait hne hspace

/-- The forms that a word is compared with one after the other do not overlap. -/
theorem ofWord?_eq_some_iff : ofWord? w = some s ↔ WordDenotes w s := by
  constructor
  · intro h
    rw [ofWord?] at h
    split at h
    · next hw =>
      cases h
      exact hw ▸ .all
    split at h
    · next hw =>
      cases h
      exact hw ▸ .number
    split at h
    · next hw =>
      cases h
      exact hw ▸ .simple
    split at h
    · next hw =>
      cases h
      exact hw ▸ .collection
    split at h
    · next name hname =>
      cases h
      obtain ⟨hne, rfl⟩ := bracketedName?_eq_some_iff.mp hname
      exact wordDenotes_bracketed hne
    · obtain ⟨k, hk, rfl⟩ := Option.map_eq_some_iff.mp h
      have hw : k.name.toList = w := by
        rw [ShapeKind.name_of_ofName? hk, String.toList_ofList]
      exact hw ▸ .kind k
  · intro h
    cases h with
    | kind k => exact ofWord?_kind k
    | absoluteTrait hspace =>
      rw [ofWord?_bracketed (List.ne_nil_of_mem hspace), traitNamed_of_mem hspace]
    | preludeTrait hne hspace => rw [ofWord?_bracketed hne, traitNamed_of_not_mem hspace]
    | _ => rfl

theorem ofWords_eq_ok_iff {ws : List (List Char)} {ss : List Selector} :
    ofWords ws = .ok ss ↔ List.Forall₂ WordDenotes ws ss := by
  constructor
  · intro h
    induction ws generalizing ss with
    | nil =>
      cases h
      exact .nil
    | cons w ws ih =>
      rw [ofWords] at h
      split at h
      · cases h
      next hw =>
      split at h
      · next hws =>
        cases h
        exact .cons (ofWord?_eq_some_iff.mp hw) (ih hws)
      · cases h
  · intro h
    induction h with
    | nil => rfl
    | cons hw _ ih => rw [ofWords, ofWord?_eq_some_iff.mpr hw, ih]

/-- A selector alone, or several together. -/
inductive Joins : List Selector → Selector → Prop
  | one (s : Selector) : Joins [s] s
  | several (s t : Selector) (ss : List Selector) : Joins (s :: t :: ss) (.and (s :: t :: ss))

theorem exists_joins {ss : List Selector} (h : ss ≠ []) : ∃ s, Joins ss s := by
  match ss, h with
  | [s], _ => exact ⟨s, .one s⟩
  | s :: t :: ss, _ => exact ⟨_, .several s t ss⟩

theorem Joins.ne_nil {ss : List Selector} (h : Joins ss s) : ss ≠ [] := by
  cases h <;> exact List.cons_ne_nil _ _

theorem Joins.matches?_iff {ss : List Selector} (h : Joins ss s) (m : Model) (e : Element) :
    s.matches? m e = true ↔ ∀ t ∈ ss, t.matches? m e = true := by
  cases h with
  | one => simp
  | several => rw [matches?, matchesAll_iff]

theorem parse_eq_ok_iff {text : String} :
    parse text = .ok s ↔
      ∃ ws ss, AreWords text.toList ws ∧ List.Forall₂ WordDenotes ws ss ∧ Joins ss s := by
  rw [parse]
  constructor
  · intro h
    split at h
    · cases h
    · cases h
    · next t hwords =>
      cases h
      exact ⟨_, [s], Text.areWords_words _, ofWords_eq_ok_iff.mp hwords, .one s⟩
    · next ss hnil hone hwords =>
      cases h
      refine ⟨_, ss, Text.areWords_words _, ofWords_eq_ok_iff.mp hwords, ?_⟩
      match ss, hnil, hone with
      | [s], _, hone => exact absurd rfl (hone s)
      | s :: t :: ss, _, _ => exact .several s t ss
  · rintro ⟨ws, ss, hws, hss, hjoins⟩
    rw [hws.words_eq, ofWords_eq_ok_iff.mpr hss]
    cases hjoins <;> rfl

theorem WordDenotes.unique {t : Selector} (h : WordDenotes w s) (h' : WordDenotes w t) : s = t := by
  rw [← ofWord?_eq_some_iff] at h h'
  exact Option.some.inj (h.symm.trans h')

theorem exists_denoted {ws : List (List Char)} (h : ∀ w ∈ ws, ∃ s, WordDenotes w s) :
    ∃ ss, List.Forall₂ WordDenotes ws ss := by
  induction ws with
  | nil => exact ⟨[], .nil⟩
  | cons w ws ih =>
    obtain ⟨s, hs⟩ := h w List.mem_cons_self
    obtain ⟨ss, hss⟩ := ih fun v hv => h v (List.mem_cons_of_mem _ hv)
    exact ⟨s :: ss, .cons hs hss⟩

/-- What holds of all selectors holds of what each word stands for. -/
theorem forall_mem_denoted_iff {ws : List (List Char)} {ss : List Selector}
    (h : List.Forall₂ WordDenotes ws ss) (p : Selector → Prop) :
    (∀ s ∈ ss, p s) ↔ ∀ w ∈ ws, ∃ s, WordDenotes w s ∧ p s := by
  induction h with
  | nil => exact iff_of_true nofun nofun
  | @cons w s ws ss hs _ ih =>
    rw [List.forall_mem_cons, List.forall_mem_cons, ih]
    refine and_congr_left fun _ => ⟨fun hp => ⟨s, hs, hp⟩, ?_⟩
    rintro ⟨t, ht, hp⟩
    rwa [hs.unique ht]

theorem exists_parse_iff {text : String} :
    (∃ s, parse text = .ok s) ↔
      ∃ ws, AreWords text.toList ws ∧ ws ≠ [] ∧ ∀ w ∈ ws, ∃ s, WordDenotes w s := by
  constructor
  · rintro ⟨s, h⟩
    obtain ⟨ws, ss, hws, hss, hjoins⟩ := parse_eq_ok_iff.mp h
    refine ⟨ws, hws, ?_, ?_⟩
    · rintro rfl
      cases hss
      exact hjoins.ne_nil rfl
    · intro w hw
      obtain ⟨t, ht, -⟩ := (forall_mem_denoted_iff hss fun _ => True).mp (fun _ _ => trivial) w hw
      exact ⟨t, ht⟩
  · rintro ⟨ws, hws, hne, hdenoted⟩
    obtain ⟨ss, hss⟩ := exists_denoted hdenoted
    have hsome : ss ≠ [] := by
      rintro rfl
      cases hss
      exact hne rfl
    obtain ⟨s, hjoins⟩ := exists_joins hsome
    exact ⟨s, parse_eq_ok_iff.mpr ⟨ws, ss, hws, hss, hjoins⟩⟩

theorem matches?_of_parse {text : String} {ws : List (List Char)} (h : parse text = .ok s)
    (hws : AreWords text.toList ws) (m : Model) (e : Element) :
    s.matches? m e = true ↔ ∀ w ∈ ws, ∃ t, WordDenotes w t ∧ t.matches? m e = true := by
  obtain ⟨ws', ss, hws', hss, hjoins⟩ := parse_eq_ok_iff.mp h
  obtain rfl : ws' = ws := hws'.words_eq.symm.trans hws.words_eq
  rw [hjoins.matches?_iff, forall_mem_denoted_iff hss]

theorem exists_parse_append {first second gap : String} {s t : Selector}
    (hs : parse first = .ok s) (ht : parse second = .ok t) (hne : gap ≠ "")
    (hgap : ∀ c ∈ gap.toList, Text.isBlank c = true) :
    ∃ both, parse (first ++ gap ++ second) = .ok both ∧
      ∀ (m : Model) (e : Element), both.matches? m e = (s.matches? m e && t.matches? m e) := by
  obtain ⟨ws, ss, hws, hss, hjoins⟩ := parse_eq_ok_iff.mp hs
  obtain ⟨vs, ts, hvs, hts, hjoins'⟩ := parse_eq_ok_iff.mp ht
  have hwords : AreWords (first ++ gap ++ second).toList (ws ++ vs) := by
    rw [String.toList_append, String.toList_append, List.append_assoc]
    exact hws.append (mt String.toList_eq_nil_iff.mp hne) hgap hvs
  have hdenoted : List.Forall₂ WordDenotes (ws ++ vs) (ss ++ ts) := List.rel_append hss hts
  obtain ⟨both, hboth⟩ := exists_joins (List.append_ne_nil_of_left_ne_nil hjoins.ne_nil ts)
  refine ⟨both, parse_eq_ok_iff.mpr ⟨_, _, hwords, hdenoted, hboth⟩, ?_⟩
  intro m e
  rw [Bool.eq_iff_iff, Bool.and_eq_true, hboth.matches?_iff, hjoins.matches?_iff,
    hjoins'.matches?_iff]
  exact List.forall_mem_append

/-- A text is a selector exactly if it has words and each of them stands for one, and it matches
what all of its words match. So two texts with blanks between them match what both match. -/
theorem parse_conjunction :
    (∀ text : String, (∃ s, parse text = .ok s) ↔
      ∃ ws, AreWords text.toList ws ∧ ws ≠ [] ∧ ∀ w ∈ ws, ∃ s, WordDenotes w s) ∧
    (∀ (text : String) (s : Selector) (ws : List (List Char)), parse text = .ok s →
      AreWords text.toList ws → ∀ (m : Model) (e : Element),
        s.matches? m e = true ↔ ∀ w ∈ ws, ∃ t, WordDenotes w t ∧ t.matches? m e = true) ∧
    ∀ (first second gap : String) (s t : Selector), parse first = .ok s → parse second = .ok t →
      gap ≠ "" → (∀ c ∈ gap.toList, Text.isBlank c = true) →
        ∃ both both', parse (first ++ gap ++ second) = .ok both ∧
          parse (second ++ gap ++ first) = .ok both' ∧ ∀ (m : Model) (e : Element),
            both.matches? m e = (s.matches? m e && t.matches? m e) ∧
            both'.matches? m e = (s.matches? m e && t.matches? m e) := by
  refine ⟨fun _ => exists_parse_iff, fun _ _ _ => matches?_of_parse, ?_⟩
  intro first second gap s t hs ht hne hgap
  obtain ⟨both, hparse, hmatches⟩ := exists_parse_append hs ht hne hgap
  obtain ⟨both', hparse', hmatches'⟩ := exists_parse_append ht hs hne hgap
  refine ⟨both, both', hparse, hparse', ?_⟩
  intro m e
  exact ⟨hmatches m e, (hmatches' m e).trans (Bool.and_comm _ _)⟩

end Selector

end ShapeModel
