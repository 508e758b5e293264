import ShapeModel.Document.Annotation
import ShapeModel.Proofs.Document.Value

/-!
# The grammar of annotations

Applied traits and documentation lines as a grammar, with what they add to the annotations so far.
A trait without parentheses ends where no parenthesis follows, and annotations end where no other
one starts; up to these conditions the readers take what the grammar derives.
-/

namespace ShapeModel.Document

set_option autoImplicit false

open Token (Kind)

variable {s : Scope}

/-- The tokens of the value of an applied trait, through the closing parenthesis. -/
inductive IsTraitValue (s : Scope) : List Kind → Value → Prop
  | fields {ts : List Kind} {fields : Value.Fields} : AreFields s .traitValue ')' ts fields →
      ts.head? ≠ some .newline → IsTraitValue s ts (.ofPairs fields)
  | value {ts gap : List Kind} {v : Value} : IsValue s .traitValue ts v → Breaks gap →
      IsTraitValue s (ts ++ (gap ++ [.grammar ')'])) v

/-- The tokens of an applied trait, with its absolute name and its value. -/
inductive IsTrait (s : Scope) : List Kind → String → Value → Prop
  | bare (w : String) : IsTrait s [.word w] (s.qualify true (appliedName w)) .emptyObject
  | applied {ts gap : List Kind} {v : Value} (w : String) : Breaks gap → IsTraitValue s ts v →
      IsTrait s (.word w :: .grammar '(' :: (gap ++ ts)) (s.qualify true (appliedName w)) v

/-- The tokens of annotations, which turn some annotations into others. -/
inductive AreAnnotations (s : Scope) : Annotations → List Kind → Annotations → Prop
  | done (as : Annotations) : AreAnnotations s as [] as
  | newline {as as' : Annotations} {ts : List Kind} : AreAnnotations s as ts as' →
      AreAnnotations s as (.newline :: ts) as'
  | documentation {as as' : Annotations} {line : String} {ts : List Kind} :
      AreAnnotations s (as.document line) ts as' →
      AreAnnotations s as (.documentation line :: ts) as'
  | applied {as as' : Annotations} {w name : String} {v : Value} {us ts : List Kind} :
      isTraitWord w = true → IsTrait s (.word w :: us) name v →
      AreAnnotations s (as.insert name v) ts as' → AreAnnotations s as (.word w :: (us ++ ts)) as'

/-- The tokens that annotations start with. -/
def startsAnnotation : Kind → Bool
  | .newline => true
  | .documentation _ => true
  | .word w => isTraitWord w
  | _ => false

/-- Named values start with a name and a colon, or close. -/
theorem startsFields_iff (c : Cursor) :
    startsFields c = true ↔ (∃ k key ks, IsKey k key ∧ c.kinds = k :: .grammar ':' :: ks) ∨
      ∃ ks, c.kinds = .grammar ')' :: ks := by
  rw [startsFields, Cursor.peek?_eq, Cursor.peekAhead?_eq, Bool.or_eq_true, Cursor.isGrammar_iff,
    List.head?_eq_some_iff]
  refine or_congr_left ?_
  constructor
  · intro h
    obtain ⟨hnamed, hcolon⟩ := Bool.and_eq_true_iff.mp h
    rcases hks : c.kinds with _ | ⟨k, _ | ⟨k', ks⟩⟩ <;> rw [hks] at hnamed hcolon
    · cases hnamed
    · cases of_decide_eq_true hcolon
    · cases Option.some.inj (of_decide_eq_true hcolon)
      cases k with
      | word w => exact ⟨_, w, ks, .word w, rfl⟩
      | string t => exact ⟨_, t, ks, .string t, rfl⟩
      | _ => cases hnamed
  · rintro ⟨k, key, ks, hk, hks⟩
    rw [hks]
    cases hk <;> rfl

theorem isTraitValue_of_readTraitValue {c : Cursor} {v : Value} {rest : List Kind}
    (h : (readTraitValue s c).Gives v rest) :
    ∃ ts, c.kinds = ts ++ rest ∧ IsTraitValue s ts v := by
  rw [readTraitValue] at h
  split at h
  · next hstart =>
    split at h
    · exact absurd h Outcome.not_gives_failed
    next fields c₁ h₁ hfields =>
    obtain ⟨rfl, rfl⟩ := Outcome.gives_ok_iff.mp h
    obtain ⟨ts, hts, hderived⟩ := areFields_of_readFields _ (Outcome.gives_of_eq hfields)
    refine ⟨ts, hts, .fields hderived fun hnewline => ?_⟩
    obtain ⟨us, rfl⟩ := List.head?_eq_some_iff.mp hnewline
    rcases (startsFields_iff c).mp hstart with ⟨k, key, ks, hk, hks⟩ | ⟨ks, hks⟩
    · obtain ⟨rfl, _⟩ := List.cons.inj (hts.symm.trans hks)
      cases hk
    · cases (List.cons.inj (hts.symm.trans hks)).1
  · split at h
    · exact absurd h Outcome.not_gives_failed
    next v' c₁ h₁ hvalue =>
    split at h
    · exact absurd h Outcome.not_gives_failed
    next c₂ h₂ hclose =>
    obtain ⟨rfl, rfl⟩ := Outcome.gives_ok_iff.mp h
    obtain ⟨ts, hts, hderived⟩ := isValue_of_readValue _ (Outcome.gives_of_eq hvalue)
    obtain ⟨gap, hgap, hgapped⟩ := exists_breaks c₁.kinds
    have hclose := Cursor.expectGrammar_gives_iff.mp (Outcome.gives_of_eq hclose)
    rw [Cursor.kinds_skipNewlines] at hclose
    refine ⟨_, ?_, .value hderived hgap⟩
    rw [hts, hgapped, hclose]
    simp only [List.append_assoc, List.singleton_append]

theorem IsTraitValue.startsFields {ts : List Kind} {fields : Value.Fields} {c : Cursor}
    {rest : List Kind} (h : AreFields s .traitValue ')' ts fields)
    (hne : ts.head? ≠ some .newline) (hc : c.kinds = ts ++ rest) :
    Document.startsFields c = true := by
  rw [startsFields_iff]
  cases h with
  | @close _ breaks hbreaks =>
    rcases breaks with _ | ⟨k, breaks⟩
    · exact .inr ⟨rest, hc⟩
    · obtain rfl := hbreaks k List.mem_cons_self
      exact absurd rfl hne
  | @field _ breaks _ _ _ _ _ k key _ _ hbreaks hk =>
    rcases breaks with _ | ⟨k, breaks⟩
    · exact .inl ⟨k, key, _, hk, hc⟩
    · obtain rfl := hbreaks k List.mem_cons_self
      exact absurd rfl hne

/-- A value in parentheses is no name with a colon behind it. -/
theorem IsValue.not_startsFields {ts gap : List Kind} {v : Value} {c : Cursor} {rest : List Kind}
    (h : IsValue s .traitValue ts v) (hgap : Breaks gap)
    (hc : c.kinds = ts ++ (gap ++ .grammar ')' :: rest)) : startsFields c = false := by
  rw [Bool.eq_false_iff]
  intro hstart
  rcases (startsFields_iff c).mp hstart with ⟨k, key, ks, hk, hks⟩ | ⟨ks, hks⟩
  · rw [hc] at hks
    cases h with
    | atom =>
      obtain ⟨_, htail⟩ := List.cons.inj hks
      rcases gap with _ | ⟨k', gap⟩
      · cases htail
      · obtain rfl := hgap k' List.mem_cons_self
        cases htail
    | object =>
      obtain ⟨rfl, _⟩ := List.cons.inj hks
      cases hk
    | array =>
      obtain ⟨rfl, _⟩ := List.cons.inj hks
      cases hk
  · have hclose : (ts ++ (gap ++ .grammar ')' :: rest)).head? = some (.grammar ')') := by
      rw [← hc, hks, List.head?_cons]
    exact h.head?_ne (by decide) _ hclose

theorem readTraitValue_of_isTraitValue {ts : List Kind} {v : Value} (h : IsTraitValue s ts v)
    {c : Cursor} {rest : List Kind} (hc : c.kinds = ts ++ rest) :
    (readTraitValue s c).Gives v rest := by
  rw [readTraitValue]
  cases h with
  | fields hfields hne =>
    obtain ⟨c₁, h₁, hread, hrest⟩ :=
      readFields_of_areFields hfields (by decide) (congrArg dropBreaks hc)
    rw [if_pos (IsTraitValue.startsFields hfields hne hc), hread]
    exact Outcome.gives_ok_iff.mpr ⟨rfl, hrest⟩
  | @value ts gap v hv hgap =>
    simp only [List.append_assoc, List.singleton_append] at hc
    obtain ⟨c₁, h₁, hread, hc₁⟩ := readValue_of_isValue hv hc
    have hclose : c₁.skipNewlines.kinds = .grammar ')' :: rest := by
      rw [Cursor.kinds_skipNewlines, hc₁, dropBreaks_append hgap, dropBreaks_of_ne (by simp)]
    obtain ⟨c₂, h₂, hexpect, hrest⟩ := Cursor.expectGrammar_gives_iff.mpr hclose
    rw [if_neg (by simp [hv.not_startsFields hgap hc])]
    simp only [hread, hexpect]
    exact Outcome.gives_ok_iff.mpr ⟨rfl, hrest⟩

theorem isTrait_of_readTrait {c : Cursor} {name : String} {v : Value} {rest : List Kind}
    (h : (readTrait s c).Gives (name, v) rest) :
    ∃ w us, c.kinds = .word w :: (us ++ rest) ∧ IsTrait s (.word w :: us) name v := by
  rw [readTrait] at h
  split at h
  · exact absurd h Outcome.not_gives_failed
  next w c₁ h₁ hword =>
  have hword := Cursor.expectWord_gives_iff.mp (Outcome.gives_of_eq hword)
  split at h
  · next hopen =>
    split at h
    · exact absurd h Outcome.not_gives_failed
    next v' c₂ h₂ hvalue =>
    obtain ⟨hpair, rfl⟩ := Outcome.gives_ok_iff.mp h
    obtain ⟨rfl, rfl⟩ := Prod.mk.inj hpair
    obtain ⟨ks, hks⟩ := List.head?_eq_some_iff.mp (Cursor.isGrammar_iff.mp hopen)
    obtain ⟨gap, hgap, hgapped⟩ := exists_breaks c₁.advance.kinds
    obtain ⟨ts, hts, hderived⟩ := isTraitValue_of_readTraitValue (Outcome.gives_of_eq hvalue)
    rw [Cursor.kinds_skipNewlines] at hts
    refine ⟨w, _, ?_, .applied w hgap hderived⟩
    rw [hword, hks, ← Cursor.kinds_advance_of_cons hks, hgapped, hts]
    simp only [List.append_assoc, List.cons_append]
  · obtain ⟨hpair, rfl⟩ := Outcome.gives_ok_iff.mp h
    obtain ⟨rfl, rfl⟩ := Prod.mk.inj hpair
    exact ⟨w, [], hword, .bare w⟩

theorem IsTraitValue.dropBreaks_append {ts : List Kind} {v : Value} (h : IsTraitValue s ts v)
    (ks : List Kind) : dropBreaks (ts ++ ks) = ts ++ ks := by
  cases h with
  | fields hfields hne =>
    obtain ⟨k, us, rfl⟩ := List.exists_cons_of_ne_nil hfields.ne_nil
    exact dropBreaks_of_ne (fun hk => hne (congrArg some hk)) _
  | value hv hgap => rw [List.append_assoc, hv.dropBreaks_append]

theorem readTrait_of_isTraitValue {ts gap : List Kind} {v : Value} (h : IsTraitValue s ts v)
    (hgap : Breaks gap) {w : String} {c : Cursor} {rest : List Kind}
    (hc : c.kinds = .word w :: .grammar '(' :: (gap ++ ts) ++ rest) :
    (readTrait s c).Gives (s.qualify true (appliedName w), v) rest := by
  rw [readTrait]
  rw [List.cons_append, List.cons_append] at hc
  obtain ⟨c₁, h₁, hword, hc₁⟩ := Cursor.expectWord_gives_iff.mpr hc
  simp only [hword]
  have hopen : c₁.isGrammar '(' = true := by
    rw [Cursor.isGrammar_iff, hc₁]
    rfl
  have hvalue : c₁.advance.skipNewlines.kinds = ts ++ rest := by
    rw [Cursor.kinds_skipNewlines, Cursor.kinds_advance_of_cons hc₁, List.append_assoc,
      dropBreaks_append hgap, h.dropBreaks_append]
  obtain ⟨c₂, h₂, hread, hc₂⟩ := readTraitValue_of_isTraitValue h hvalue
  split
  · rw [hread]
    exact Outcome.gives_ok_iff.mpr ⟨rfl, hc₂⟩
  · next hno => exact absurd hopen hno

/-- A parenthesis behind a trait would be taken for the start of its value. -/
theorem readTrait_of_isTrait {ts : List Kind} {name : String} {v : Value} (h : IsTrait s ts name v)
    {c : Cursor} {rest : List Kind} (hc : c.kinds = ts ++ rest)
    (hrest : rest.head? ≠ some (.grammar '(')) : (readTrait s c).Gives (name, v) rest := by
  cases h with
  | bare w =>
    obtain ⟨c₁, h₁, hword, hc₁⟩ := Cursor.expectWord_gives_iff.mpr hc
    rw [readTrait]
    simp only [hword]
    split
    · next hopen =>
      rw [Cursor.isGrammar_iff, hc₁] at hopen
      exact absurd hopen hrest
    · exact Outcome.gives_ok_iff.mpr ⟨rfl, hc₁⟩
  | applied w hgap hv => exact readTrait_of_isTraitValue hv hgap hc

theorem AreAnnotations.head?_ne {as as' : Annotations} {ts : List Kind} {ch : Char}
    (h : AreAnnotations s as ts as') {rest : List Kind} (hrest : rest.head? ≠ some (.grammar ch)) :
    (ts ++ rest).head? ≠ some (.grammar ch) := by
  cases h with
  | done => exact hrest
  | _ => simp

section

variable {as as' : Annotations} {c : Cursor} {ks rest : List Kind}

theorem readAnnotations_newline_iff (hc : c.kinds = .newline :: ks) :
    (readAnnotations s as c).Gives as' rest ↔ (readAnnotations s as c.advance).Gives as' rest := by
  have hpeek : c.peek? = some .newline := Cursor.peek?_of_cons hc
  rw [readAnnotations]
  split
  · cases readAnnotations s as c.advance with
    | failed => exact iff_of_false Outcome.not_gives_failed Outcome.not_gives_failed
    | ok => exact Outcome.gives_ok_iff.trans Outcome.gives_ok_iff.symm
  · next hk => cases hpeek.symm.trans hk
  · next hk => cases hpeek.symm.trans hk
  · next hne _ _ => exact absurd hpeek hne

theorem readAnnotations_documentation_iff {line : String}
    (hc : c.kinds = .documentation line :: ks) :
    (readAnnotations s as c).Gives as' rest ↔
      (readAnnotations s (as.document line) c.advance).Gives as' rest := by
  have hpeek : c.peek? = some (.documentation line) := Cursor.peek?_of_cons hc
  rw [readAnnotations]
  split
  · next hk => cases hpeek.symm.trans hk
  · next hk =>
    cases hpeek.symm.trans hk
    cases readAnnotations s (as.document line) c.advance with
    | failed => exact iff_of_false Outcome.not_gives_failed Outcome.not_gives_failed
    | ok => exact Outcome.gives_ok_iff.trans Outcome.gives_ok_iff.symm
  · next hk => cases hpeek.symm.trans hk
  · next _ hne _ => exact absurd hpeek (hne line)

theorem readAnnotations_applied_iff {w : String} (hc : c.kinds = .word w :: ks)
    (hw : isTraitWord w = true) :
    (readAnnotations s as c).Gives as' rest ↔
      ∃ name v c₁ h₁, readTrait s c = .ok (name, v) c₁ h₁ ∧
        (readAnnotations s (as.insert name v) c₁).Gives as' rest := by
  have hpeek : c.peek? = some (.word w) := Cursor.peek?_of_cons hc
  rw [readAnnotations]
  split
  · next hk => cases hpeek.symm.trans hk
  · next hk => cases hpeek.symm.trans hk
  · next hk =>
    cases hpeek.symm.trans hk
    rw [if_pos hw]
    cases readTrait s c with
    | failed =>
      refine iff_of_false Outcome.not_gives_failed ?_
      rintro ⟨_, _, _, _, ⟨⟩, _⟩
    | ok a c₁ h₁ =>
      obtain ⟨name, v⟩ := a
      simp only [Outcome.ok.injEq, Prod.mk.injEq]
      constructor
      · intro h
        refine ⟨name, v, c₁, h₁, ⟨⟨rfl, rfl⟩, rfl⟩, ?_⟩
        split at h
        · exact absurd h Outcome.not_gives_failed
        · next hread =>
          rw [hread]
          exact Outcome.gives_ok_iff.mpr (Outcome.gives_ok_iff.mp h)
      · rintro ⟨_, _, _, _, ⟨⟨rfl, rfl⟩, rfl⟩, c₂, h₂, hread, hc₂⟩
        simp only [hread]
        exact Outcome.gives_ok_iff.mpr ⟨rfl, hc₂⟩
  · next _ _ hne => exact absurd hpeek (hne w)

/-- Annotations end where no other one starts. -/
theorem readAnnotations_done_iff (hstop : ∀ k ∈ c.kinds.head?, startsAnnotation k = false) :
    (readAnnotations s as c).Gives as' rest ↔ as = as' ∧ c.kinds = rest := by
  rw [← Cursor.peek?_eq] at hstop
  rw [readAnnotations]
  split
  · next hk => cases hstop _ hk
  · next hk => cases hstop _ hk
  · next w hk =>
    have hw : isTraitWord w = false := hstop _ hk
    rw [if_neg (by simp [hw])]
    exact Outcome.gives_ok_iff
  · exact Outcome.gives_ok_iff

end

theorem areAnnotations_of_readAnnotations {as as' : Annotations} (c : Cursor) {rest : List Kind}
    (h : (readAnnotations s as c).Gives as' rest) :
    ∃ ts, c.kinds = ts ++ rest ∧ AreAnnotations s as ts as' ∧
      ∀ k ∈ rest.head?, startsAnnotation k = false := by
  by_cases hstop : ∀ k ∈ c.kinds.head?, startsAnnotation k = false
  · obtain ⟨rfl, rfl⟩ := (readAnnotations_done_iff hstop).mp h
    exact ⟨[], rfl, .done as, hstop⟩
  simp only [Classical.not_forall, Bool.not_eq_false] at hstop
  obtain ⟨k, hhead, hstart⟩ := hstop
  obtain ⟨ks, hks⟩ := List.head?_eq_some_iff.mp hhead
  have hlt : c.advance.left < c.left :=
    Cursor.left_advance_lt ((Cursor.peek?_eq c).trans hhead)
  cases k with
  | newline =>
    obtain ⟨ts, hts, hderived, hafter⟩ :=
      areAnnotations_of_readAnnotations _ ((readAnnotations_newline_iff hks).mp h)
    rw [Cursor.kinds_advance_of_cons hks] at hts
    exact ⟨_, by rw [hks, hts]; rfl, .newline hderived, hafter⟩
  | documentation line =>
    obtain ⟨ts, hts, hderived, hafter⟩ :=
      areAnnotations_of_readAnnotations _ ((readAnnotations_documentation_iff hks).mp h)
    rw [Cursor.kinds_advance_of_cons hks] at hts
    exact ⟨_, by rw [hks, hts]; rfl, .documentation hderived, hafter⟩
  | word w =>
    obtain ⟨name, v, c₁, h₁, htrait, hread⟩ := (readAnnotations_applied_iff hks hstart).mp h
    obtain ⟨w', us, hus, hderived⟩ := isTrait_of_readTrait (Outcome.gives_of_eq htrait)
    obtain ⟨ts, hts, hmore, hafter⟩ := areAnnotations_of_readAnnotations _ hread
    cases (List.cons.inj (hks.symm.trans hus)).1
    refine ⟨_, ?_, .applied hstart hderived hmore, hafter⟩
    rw [hus, hts]
    simp only [List.append_assoc, List.cons_append]
  | _ => cases hstart
termination_by c.left

theorem readAnnotations_of_areAnnotations {as as' : Annotations} {ts : List Kind}
    (h : AreAnnotations s as ts as') {c : Cursor} {rest : List Kind} (hc : c.kinds = ts ++ rest)
    (hstop : ∀ k ∈ rest.head?, startsAnnotation k = false)
    (hopen : rest.head? ≠ some (.grammar '(')) : (readAnnotations s as c).Gives as' rest := by
  induction h generalizing c with
  | done as =>
    rw [List.nil_append] at hc
    rw [readAnnotations_done_iff (hc ▸ hstop)]
    exact ⟨rfl, hc⟩
  | newline _ ih =>
    rw [readAnnotations_newline_iff hc]
    exact ih (Cursor.kinds_advance_of_cons hc)
  | documentation _ ih =>
    rw [readAnnotations_documentation_iff hc]
    exact ih (Cursor.kinds_advance_of_cons hc)
  | applied hw htrait hmore ih =>
    rw [List.cons_append, List.append_assoc] at hc
    obtain ⟨c₁, h₁, happlied, hc₁⟩ := readTrait_of_isTrait htrait hc (hmore.head?_ne hopen)
    rw [readAnnotations_applied_iff hc hw]
    exact ⟨_, _, c₁, h₁, happlied, ih hc₁⟩

end ShapeModel.Document
