import Mathlib.Data.List.Forall2
import ShapeModel.Document

/-!
# Reading in lockstep

Two lists of tokens of the same kinds are read alike: the readers return the same values, or fail
with the same errors, and go the same way through both lists. Only the places of errors differ, as
the tokens do at which the errors stand.
-/

namespace ShapeModel

set_option autoImplicit false

/-- Two sources, the tokens of the first, and which tokens of the one belong to which tokens of the
other. -/
structure Pairing where
  first : Source
  second : Source
  tokens : List Token
  Paired : Token → Token → Prop
  kind_eq : ∀ {t t' : Token}, Paired t t' → t'.kind = t.kind

namespace Pairing

variable (r : Pairing)

/-- The cursors stand at the same place between paired tokens. -/
structure Cursors (c c' : Cursor) : Prop where
  first : c.source = r.first
  second : c'.source = r.second
  passed : List.Forall₂ r.Paired c.passed c'.passed
  ahead : List.Forall₂ r.Paired c.ahead c'.ahead
  whole : c.passed.reverse ++ c.ahead = r.tokens

/-- The same error, without a place or at paired tokens. -/
inductive Failures : SyntaxFailure → SyntaxFailure → Prop
  | unplaced (e : SyntaxError) : Failures ⟨e, none⟩ ⟨e, none⟩
  | placed (e : SyntaxError) {t t' : Token} : r.Paired t t' →
      Failures ⟨e, some (r.first.place t.position e.message)⟩
        ⟨e, some (r.second.place t'.position e.message)⟩

/-- The same value or the same error, with the cursors at the same place. -/
inductive Outcomes {α : Type} {n n' : Nat} : Outcome α n → Outcome α n' → Prop
  | ok (a : α) {c c' : Cursor} {h : c.left < n} {h' : c'.left < n'} :
      r.Cursors c c' → Outcomes (.ok a c h) (.ok a c' h')
  | failed {e e' : SyntaxFailure} {c c' : Cursor} : r.Failures e e' → r.Cursors c c' →
      Outcomes (.failed e c) (.failed e' c')

/-- The same value, or the same error at paired tokens. -/
inductive Results {α : Type} : Except SyntaxFailure α → Except SyntaxFailure α → Prop
  | ok (a : α) : Results (.ok a) (.ok a)
  | error (e : SyntaxError) {t t' : Token} : r.Paired t t' →
      Results (.error ⟨e, some (r.first.place t.position e.message)⟩)
        (.error ⟨e, some (r.second.place t'.position e.message)⟩)

variable {r}

/-- What is done with two outcomes is related if it is so for two failures and for two
successes. -/
@[elab_as_elim]
theorem Outcomes.elim {α : Type} {n n' : Nat} {o : Outcome α n} {o' : Outcome α n'}
    {motive : Outcome α n → Outcome α n' → Prop} (h : r.Outcomes o o')
    (failed : ∀ {e e' : SyntaxFailure} {c c' : Cursor}, r.Failures e e' → r.Cursors c c' →
      motive (.failed e c) (.failed e' c'))
    (ok : ∀ (a : α) {c c' : Cursor} (hc : c.left < n) (hc' : c'.left < n'), r.Cursors c c' →
      motive (.ok a c hc) (.ok a c' hc')) : motive o o' := by
  cases h with
  | ok a hc => exact ok a _ _ hc
  | failed he hc => exact failed he hc

namespace Cursors

variable {c c' : Cursor}

theorem ofTokens {ts' : List Token} (h : List.Forall₂ r.Paired r.tokens ts') :
    r.Cursors (.ofTokens r.first r.tokens) (.ofTokens r.second ts') :=
  ⟨rfl, rfl, .nil, h, rfl⟩

/-- Both cursors are at the end, or they have tokens of the same kind ahead. -/
inductive View (r : Pairing) : Cursor → Cursor → Prop
  | done (passed passed' : List Token) : View r ⟨r.first, passed, []⟩ ⟨r.second, passed', []⟩
  | token (k : Token.Kind) {x x' : String} {p p' : Position} {passed passed' ts ts' : List Token} :
      View r ⟨r.first, passed, ⟨k, x, p⟩ :: ts⟩ ⟨r.second, passed', ⟨k, x', p'⟩ :: ts'⟩

theorem view (h : r.Cursors c c') : View r c c' := by
  obtain ⟨s, passed, ahead⟩ := c
  obtain ⟨s', passed', ahead'⟩ := c'
  obtain ⟨rfl, rfl, hpassed, hahead, -⟩ := h
  cases hahead with
  | nil => exact .done passed passed'
  | @cons t t' ts ts' ht _ =>
    obtain ⟨k, x, p⟩ := t
    obtain ⟨k', x', p'⟩ := t'
    obtain rfl : k' = k := r.kind_eq ht
    exact .token k'

theorem peek?_eq (h : r.Cursors c c') : c'.peek? = c.peek? := by
  cases h.view with
  | done => rfl
  | token => rfl

theorem peekAhead?_eq (h : r.Cursors c c') (n : Nat) : c'.peekAhead? n = c.peekAhead? n := by
  rw [Cursor.peekAhead?, Cursor.peekAhead?]
  have hahead := h.ahead
  generalize c.ahead = ts, c'.ahead = ts' at hahead
  induction hahead generalizing n with
  | nil => rfl
  | cons ht _ ih =>
    cases n with
    | zero => exact congrArg some (r.kind_eq ht)
    | succ n => exact ih n

theorem isGrammar_eq (h : r.Cursors c c') (ch : Char) : c'.isGrammar ch = c.isGrammar ch := by
  rw [Cursor.isGrammar, Cursor.isGrammar, h.peek?_eq]

theorem advance (h : r.Cursors c c') : r.Cursors c.advance c'.advance := by
  obtain ⟨s, passed, ahead⟩ := c
  obtain ⟨s', passed', ahead'⟩ := c'
  obtain ⟨hs, hs', hpassed, hahead, hwhole⟩ := h
  cases hahead with
  | nil => exact ⟨hs, hs', hpassed, .nil, hwhole⟩
  | cons ht hrest =>
    exact ⟨hs, hs', .cons ht hpassed, hrest, by simpa [Cursor.advance] using hwhole⟩

theorem back (h : r.Cursors c c') : r.Cursors c.back c'.back := by
  obtain ⟨s, passed, ahead⟩ := c
  obtain ⟨s', passed', ahead'⟩ := c'
  obtain ⟨hs, hs', hpassed, hahead, hwhole⟩ := h
  cases hpassed with
  | nil => exact ⟨hs, hs', .nil, hahead, hwhole⟩
  | cons ht hrest =>
    exact ⟨hs, hs', hrest, .cons ht hahead, by simpa [Cursor.back] using hwhole⟩

theorem skipNewlinesFrom {s s' : Source} {passed passed' ahead ahead' : List Token}
    (hs : s = r.first) (hs' : s' = r.second) (hpassed : List.Forall₂ r.Paired passed passed')
    (hahead : List.Forall₂ r.Paired ahead ahead') (hwhole : passed.reverse ++ ahead = r.tokens) :
    r.Cursors (.skipNewlinesFrom s passed ahead) (.skipNewlinesFrom s' passed' ahead') := by
  induction hahead generalizing passed passed' with
  | nil => exact ⟨hs, hs', hpassed, .nil, hwhole⟩
  | cons ht hrest ih =>
    rw [Cursor.skipNewlinesFrom, Cursor.skipNewlinesFrom, r.kind_eq ht]
    split
    · exact ih (.cons ht hpassed) (by simpa using hwhole)
    · exact ⟨hs, hs', hpassed, .cons ht hrest, hwhole⟩

theorem skipNewlines (h : r.Cursors c c') : r.Cursors c.skipNewlines c'.skipNewlines :=
  skipNewlinesFrom h.first h.second h.passed h.ahead h.whole

theorem skipNewline (h : r.Cursors c c') : r.Cursors c.skipNewline c'.skipNewline := by
  rw [Cursor.skipNewline, Cursor.skipNewline, h.peek?_eq]
  split
  · exact h.advance
  · exact h

theorem skipGrammar (h : r.Cursors c c') (ch : Char) :
    r.Cursors (c.skipGrammar ch) (c'.skipGrammar ch) := by
  rw [Cursor.skipGrammar, Cursor.skipGrammar, h.isGrammar_eq]
  split
  · exact h.advance
  · exact h

/-- Errors are placed at the current tokens, which are paired, unless there are no tokens at all. -/
theorem failure_eq (h : r.Cursors c c') (e : SyntaxError) :
    (r.tokens = [] ∧ c.failure e = ⟨e, none⟩ ∧ c'.failure e = ⟨e, none⟩) ∨
      ∃ t t', r.Paired t t' ∧ c.failure e = ⟨e, some (r.first.place t.position e.message)⟩ ∧
        c'.failure e = ⟨e, some (r.second.place t'.position e.message)⟩ := by
  obtain ⟨s, passed, ahead⟩ := c
  obtain ⟨s', passed', ahead'⟩ := c'
  obtain ⟨rfl, rfl, hpassed, hahead, hwhole⟩ := h
  cases hahead with
  | nil =>
    cases hpassed with
    | nil => exact .inl ⟨hwhole.symm, rfl, rfl⟩
    | cons ht _ => exact .inr ⟨_, _, ht, rfl, rfl⟩
  | cons ht _ => exact .inr ⟨_, _, ht, rfl, rfl⟩

theorem failure (h : r.Cursors c c') (e : SyntaxError) :
    r.Failures (c.failure e) (c'.failure e) := by
  obtain ⟨-, hfirst, hsecond⟩ | ⟨t, t', ht, hfirst, hsecond⟩ := h.failure_eq e
  · rw [hfirst, hsecond]
    exact .unplaced e
  · rw [hfirst, hsecond]
    exact .placed e ht

theorem unexpected (h : r.Cursors c c') (expected : String) :
    r.Failures (c.unexpected expected) (c'.unexpected expected) := by
  rw [Cursor.unexpected, Cursor.unexpected, h.peek?_eq]
  split
  · exact h.failure _
  · exact h.failure _

theorem expect {α : Type} (h : r.Cursors c c') (read : Token.Kind → Option α) (expected : String) :
    r.Outcomes (c.expect read expected) (c'.expect read expected) := by
  rw [Cursor.expect, Cursor.expect]
  cases h.view with
  | done => exact .failed (h.unexpected expected) h
  | token k =>
    dsimp only [Cursor.peek?, List.head?_cons, Option.map_some]
    split
    · exact .ok _ h.advance
    · exact .failed (h.unexpected expected) h

theorem expectGrammar (h : r.Cursors c c') (ch : Char) :
    r.Outcomes (c.expectGrammar ch) (c'.expectGrammar ch) :=
  h.expect _ _

theorem expectWord (h : r.Cursors c c') : r.Outcomes c.expectWord c'.expectWord :=
  h.expect _ _

theorem expectKey (h : r.Cursors c c') : r.Outcomes c.expectKey c'.expectKey :=
  h.expect _ _

theorem expectString (h : r.Cursors c c') : r.Outcomes c.expectString c'.expectString :=
  h.expect _ _

theorem expectSeparator (h : r.Cursors c c') (close : Char) :
    r.Outcomes (c.expectSeparator close) (c'.expectSeparator close) := by
  rw [Cursor.expectSeparator, Cursor.expectSeparator, h.peek?_eq]
  split
  · split
    · exact .ok () h.advance
    split
    · exact .ok () h
    · exact .failed (h.unexpected _) h
  · exact .failed (h.unexpected _) h

theorem endStatement (h : r.Cursors c c') : r.Outcomes c.endStatement c'.endStatement := by
  rw [Cursor.endStatement, Cursor.endStatement, h.peek?_eq]
  split
  · exact .ok () h
  split
  · exact .ok () h.advance
  · exact .failed (h.unexpected _) h

end Cursors

end Pairing

namespace Document

variable {r : Pairing} {s : Scope} {ctx : Context}

mutual

theorem outcomes_readValue {c c' : Cursor} (h : r.Cursors c c') :
    r.Outcomes (readValue s ctx c) (readValue s ctx c') := by
  have hlt := fun k => @Cursor.left_advance_lt c k
  rw [readValue, readValue]
  -- Where the next token is given, the match on it with its proof can be reduced on both sides.
  cases h.view with
  | done => exact .failed (h.unexpected _) h
  | token k =>
    have hlt := hlt k rfl
    dsimp only [Cursor.peek?, List.head?_cons, Option.map_some]
    split
    · refine (outcomes_readFields h.advance).elim .failed fun fields _ _ _ _ hrest => ?_
      exact .ok _ hrest
    split
    · refine (outcomes_readItems h.advance).elim .failed fun items _ _ _ _ hrest => ?_
      exact .ok _ hrest
    split
    · exact .ok _ h.advance
    · exact .failed (.unplaced _) h.advance
    · exact .failed (h.unexpected _) h
termination_by 2 * c.left
decreasing_by
  all_goals
    subst_vars
    omega

theorem outcomes_readFields {c c' : Cursor} {close : Char} (h : r.Cursors c c') :
    r.Outcomes (readFields s ctx close c) (readFields s ctx close c') := by
  have h₀ := c.left_skipNewlines_le
  rw [readFields, readFields]
  simp only [h.skipNewlines.isGrammar_eq]
  split
  · exact .ok _ h.skipNewlines.advance
  refine h.skipNewlines.expectKey.elim .failed fun key c₁ c₁' h₁ _ hc₁ => ?_
  dsimp only
  refine (hc₁.expectGrammar ':').elim .failed fun _ c₂ c₂' h₂ _ hc₂ => ?_
  dsimp only
  have h₃ := c₂.left_skipNewlines_le
  refine (outcomes_readValue hc₂.skipNewlines).elim .failed fun v c₃ c₃' h₄ _ hc₃ => ?_
  dsimp only
  have h₅ := c₃.left_skipNewlines_le
  have h₆ := c₃.skipNewlines.left_skipGrammar_le ','
  refine (outcomes_readFields (hc₃.skipNewlines.skipGrammar ',')).elim .failed
    fun fields _ _ _ _ hrest => ?_
  exact .ok _ hrest
termination_by 2 * c.left + 1

theorem outcomes_readItems {c c' : Cursor} (h : r.Cursors c c') :
    r.Outcomes (readItems s ctx c) (readItems s ctx c') := by
  have h₀ := c.left_skipNewlines_le
  rw [readItems, readItems]
  simp only [h.skipNewlines.isGrammar_eq]
  split
  · exact .ok _ h.skipNewlines.advance
  refine (outcomes_readValue h.skipNewlines).elim .failed fun v c₁ c₁' h₁ _ hc₁ => ?_
  dsimp only
  have h₂ := c₁.left_skipNewlines_le
  have h₃ := c₁.skipNewlines.left_skipGrammar_le ','
  refine (outcomes_readItems (hc₁.skipNewlines.skipGrammar ',')).elim .failed
    fun items _ _ _ _ hrest => ?_
  exact .ok _ hrest
termination_by 2 * c.left + 1

end

variable {c c' : Cursor}

theorem startsFields_eq (h : r.Cursors c c') : startsFields c' = startsFields c := by
  rw [startsFields, startsFields, h.peek?_eq, h.peekAhead?_eq, h.isGrammar_eq]

theorem outcomes_readTraitValue (h : r.Cursors c c') :
    r.Outcomes (readTraitValue s c) (readTraitValue s c') := by
  rw [readTraitValue, readTraitValue, startsFields_eq h]
  split
  · refine (outcomes_readFields h).elim .failed fun fields _ _ _ _ hrest => ?_
    exact .ok _ hrest
  · refine (outcomes_readValue h).elim .failed fun v _ _ _ _ h₁ => ?_
    dsimp only
    refine (h₁.skipNewlines.expectGrammar ')').elim .failed fun _ _ _ _ _ hrest => ?_
    exact .ok _ hrest

theorem outcomes_readTrait (h : r.Cursors c c') : r.Outcomes (readTrait s c) (readTrait s c') := by
  rw [readTrait, readTrait]
  refine h.expectWord.elim .failed fun w _ _ _ _ h₁ => ?_
  simp only [h₁.isGrammar_eq]
  split
  · refine (outcomes_readTraitValue h₁.advance.skipNewlines).elim .failed fun v _ _ _ _ hrest => ?_
    exact .ok _ hrest
  · exact .ok _ h₁

theorem outcomes_readAnnotations {as : Annotations} {c c' : Cursor} (h : r.Cursors c c') :
    r.Outcomes (readAnnotations s as c) (readAnnotations s as c') := by
  have hlt := fun k => @Cursor.left_advance_lt c k
  rw [readAnnotations.eq_def s as c, readAnnotations.eq_def s as c']
  cases h.view with
  | done => exact .ok as h
  | token k =>
    have hlt := hlt k rfl
    dsimp only [Cursor.peek?, List.head?_cons, Option.map_some]
    cases k with
    | newline =>
      dsimp only
      refine (outcomes_readAnnotations h.advance).elim .failed fun as' _ _ _ _ hrest => ?_
      exact .ok as' hrest
    | documentation line =>
      dsimp only
      refine (outcomes_readAnnotations h.advance).elim .failed fun as' _ _ _ _ hrest => ?_
      exact .ok as' hrest
    | word w =>
      dsimp only
      split
      · refine (outcomes_readTrait h).elim .failed fun a _ _ h₁ _ hc₁ => ?_
        dsimp only
        refine (outcomes_readAnnotations hc₁).elim .failed fun as' _ _ _ _ hrest => ?_
        exact .ok as' hrest
      · exact .ok as h
    | _ => exact .ok as h
termination_by c.left
decreasing_by
  all_goals
    subst_vars
    omega

theorem outcomes_closeBody {as : Annotations} (h : r.Cursors c c') (hc : c.isGrammar '}' = true)
    (hc' : c'.isGrammar '}' = true) : r.Outcomes (closeBody as c hc) (closeBody as c' hc') := by
  rw [closeBody, closeBody]
  split
  · exact .ok [] h.advance
  · exact .failed (h.failure _) h

theorem outcomes_readMembers {c c' : Cursor} (h : r.Cursors c c') :
    r.Outcomes (readMembers s c) (readMembers s c') := by
  rw [readMembers, readMembers]
  refine (outcomes_readAnnotations h).elim .failed fun as c₁ _ h₁ _ hc₁ => ?_
  simp only [hc₁.isGrammar_eq]
  split
  · next hclose =>
    refine (outcomes_closeBody hc₁ hclose _).elim .failed fun ms _ _ _ _ hrest => ?_
    exact .ok ms hrest
  refine hc₁.expectKey.elim .failed fun name c₂ _ h₂ _ hc₂ => ?_
  dsimp only
  refine (hc₂.expectGrammar ':').elim .failed fun _ c₃ _ h₃ _ hc₃ => ?_
  dsimp only
  refine (outcomes_readValue hc₃).elim .failed fun v c₄ _ h₄ _ hc₄ => ?_
  dsimp only
  split
  · exact .failed (.unplaced _) hc₄
  refine (hc₄.expectSeparator '}').elim .failed fun _ c₅ _ h₅ _ hc₅ => ?_
  dsimp only
  refine (outcomes_readMembers hc₅).elim .failed fun ms _ _ _ _ hrest => ?_
  exact .ok _ hrest
termination_by c.left

theorem outcomes_readEnumValue {as : Annotations} (h : r.Cursors c c') :
    r.Outcomes (readEnumValue s as c) (readEnumValue s as c') := by
  rw [readEnumValue, readEnumValue]
  simp only [h.isGrammar_eq]
  split
  · refine (outcomes_readValue h.advance).elim .failed fun v _ _ _ _ hrest => ?_
    exact .ok _ hrest
  · exact .ok as h

theorem outcomes_readEnumMembers {c c' : Cursor} (h : r.Cursors c c') :
    r.Outcomes (readEnumMembers s c) (readEnumMembers s c') := by
  rw [readEnumMembers, readEnumMembers]
  refine (outcomes_readAnnotations h).elim .failed fun as c₁ _ h₁ _ hc₁ => ?_
  simp only [hc₁.isGrammar_eq]
  split
  · next hclose =>
    refine (outcomes_closeBody hc₁ hclose _).elim .failed fun ms _ _ _ _ hrest => ?_
    exact .ok ms hrest
  refine hc₁.expectWord.elim .failed fun name c₂ _ h₂ _ hc₂ => ?_
  dsimp only
  refine (outcomes_readEnumValue hc₂).elim .failed fun as' c₃ _ h₃ _ hc₃ => ?_
  dsimp only
  refine (hc₃.expectSeparator '}').elim .failed fun _ c₄ _ h₄ _ hc₄ => ?_
  dsimp only
  refine (outcomes_readEnumMembers hc₄).elim .failed fun ms _ _ _ _ hrest => ?_
  exact .ok _ hrest
termination_by c.left

theorem outcomes_readBody {style : BodyStyle} {entry : List (String × Value)}
    (h : r.Cursors c c') :
    r.Outcomes (readBody s style entry c) (readBody s style entry c') := by
  rw [readBody, readBody]
  refine (h.expectGrammar '{').elim .failed fun _ _ _ _ _ h₁ => ?_
  dsimp only
  cases style with
  | enumeration =>
    refine (outcomes_readEnumMembers h₁).elim .failed fun ms _ _ _ _ hrest => ?_
    exact .ok _ hrest
  | members =>
    refine (outcomes_readMembers h₁).elim .failed fun ms _ _ _ _ hrest => ?_
    exact .ok _ hrest
  | fields =>
    refine (outcomes_readMembers h₁).elim .failed fun ms _ _ _ _ hrest => ?_
    exact .ok _ hrest

namespace Draft

variable {d : Draft}

theorem outcomes_readMetadata (h : r.Cursors c c') :
    r.Outcomes (readMetadata d c) (readMetadata d c') := by
  rw [readMetadata, readMetadata]
  refine h.expectKey.elim .failed fun key _ _ _ _ h₁ => ?_
  dsimp only
  refine (h₁.expectGrammar '=').elim .failed fun _ _ _ _ _ h₂ => ?_
  dsimp only
  refine (outcomes_readValue h₂).elim .failed fun v _ _ _ _ h₃ => ?_
  dsimp only
  refine h₃.endStatement.elim .failed fun _ _ _ _ _ hrest => ?_
  exact .ok _ hrest

theorem outcomes_readWordStatement (h : r.Cursors c c') :
    r.Outcomes (readWordStatement c) (readWordStatement c') := by
  rw [readWordStatement, readWordStatement]
  refine h.expectWord.elim .failed fun w _ _ _ _ h₁ => ?_
  dsimp only
  refine h₁.endStatement.elim .failed fun _ _ _ _ _ hrest => ?_
  exact .ok w hrest

theorem outcomes_readShape (h : r.Cursors c c') : r.Outcomes (readShape d c) (readShape d c') := by
  rw [readShape, readShape]
  refine h.expectWord.elim .failed fun keyword _ _ _ _ h₁ => ?_
  dsimp only
  refine h₁.expectWord.elim .failed fun name _ _ _ _ h₂ => ?_
  dsimp only
  split
  · exact .failed (.unplaced _) h₂
  rw [h₂.peek?_eq]
  split
  · refine h₂.endStatement.elim .failed fun _ _ _ _ _ hrest => ?_
    exact .ok _ hrest
  · refine (outcomes_readBody h₂).elim .failed fun entry _ _ _ _ h₃ => ?_
    dsimp only
    refine h₃.endStatement.elim .failed fun _ _ _ _ _ hrest => ?_
    exact .ok _ hrest

theorem outcomes_readApplied (h : r.Cursors c c') :
    r.Outcomes (readApplied s c) (readApplied s c') := by
  rw [readApplied, readApplied, h.peek?_eq]
  split
  · split
    · exact outcomes_readTrait h
    · exact .failed (h.unexpected _) h
  · exact .failed (h.unexpected _) h

theorem outcomes_readApply (h : r.Cursors c c') : r.Outcomes (readApply d c) (readApply d c') := by
  rw [readApply, readApply]
  refine h.expectWord.elim .failed fun target _ _ _ _ h₁ => ?_
  dsimp only
  split
  · exact .failed (.unplaced _) h₁
  refine (outcomes_readApplied h₁).elim .failed fun applied _ _ _ _ h₂ => ?_
  dsimp only
  split
  · exact .failed (.unplaced _) h₂
  refine h₂.endStatement.elim .failed fun _ _ _ _ _ hrest => ?_
  exact .ok _ hrest

theorem outcomes_readStatement {w : String} (h : r.Cursors c c') (hc : c.peek? = some (.word w))
    (hc' : c'.peek? = some (.word w)) :
    r.Outcomes (readStatement d w c hc) (readStatement d w c' hc') := by
  rw [readStatement, readStatement]
  split
  · split
    · exact .failed (h.failure _) h
    split
    · exact .failed (h.failure _) h
    refine (outcomes_readWordStatement h.advance).elim .failed fun space _ _ _ _ hrest => ?_
    exact .ok _ hrest
  split
  · split
    · exact .failed (h.failure _) h
    refine (outcomes_readMetadata h.advance).elim .failed fun d' _ _ _ _ hrest => ?_
    exact .ok d' hrest
  split
  · split
    · exact .failed (h.failure _) h
    refine (outcomes_readWordStatement h.advance).elim .failed fun target _ _ _ _ hrest => ?_
    exact .ok _ hrest
  split
  · split
    · exact .failed (h.failure _) h
    refine (outcomes_readApply h.advance).elim .failed fun d' _ _ _ _ hrest => ?_
    exact .ok d' hrest
  split
  · refine (outcomes_readTrait h).elim .failed fun applied _ _ _ _ h₁ => ?_
    exact .ok _ h₁.skipNewline
  · exact outcomes_readShape h

theorem readVersions_of_ne {d : Draft} (h : c.peek? ≠ some (.word "$version")) :
    readVersions d c = .ok d c c.left_lt_succ := by
  rw [readVersions]
  split
  · next hk => exact absurd hk h
  · rfl

theorem outcomes_readVersions {d : Draft} {c c' : Cursor} (h : r.Cursors c c') :
    r.Outcomes (readVersions d c) (readVersions d c') := by
  by_cases hk : c.peek? = some (.word "$version")
  · have h₀ := Cursor.left_advance_lt hk
    rw [readVersions.eq_def d c, readVersions.eq_def d c']
    cases h.view with
    | done => cases hk
    | token k =>
      cases hk
      dsimp only [Cursor.peek?, List.head?_cons, Option.map_some]
      refine (h.advance.expectGrammar ':').elim .failed fun _ c₁ _ h₁ _ hc₁ => ?_
      dsimp only
      refine hc₁.expectString.elim .failed fun v c₂ _ h₂ _ hc₂ => ?_
      dsimp only
      refine hc₂.endStatement.elim .failed fun _ c₃ _ h₃ _ hc₃ => ?_
      dsimp only
      have h₄ := c₃.left_skipNewlines_le
      refine (outcomes_readVersions hc₃.skipNewlines).elim .failed fun d' _ _ _ _ hrest => ?_
      exact .ok d' hrest
  · rw [readVersions_of_ne hk, readVersions_of_ne (h.peek?_eq ▸ hk)]
    exact .ok d h
termination_by c.left
decreasing_by
  subst_vars
  omega

theorem readMetadataSection_of_ne {d : Draft} (h : c.peek? ≠ some (.word "metadata")) :
    readMetadataSection d c = .ok d c c.left_lt_succ := by
  rw [readMetadataSection]
  split
  · next hk => exact absurd hk h
  · rfl

theorem outcomes_readMetadataSection {d : Draft} {c c' : Cursor} (h : r.Cursors c c') :
    r.Outcomes (readMetadataSection d c) (readMetadataSection d c') := by
  by_cases hk : c.peek? = some (.word "metadata")
  · have h₀ := Cursor.left_advance_lt hk
    rw [readMetadataSection, readMetadataSection]
    cases h.view with
    | done => cases hk
    | token k =>
      cases hk
      dsimp only [Cursor.peek?, List.head?_cons, Option.map_some]
      refine (outcomes_readMetadata h.advance).elim .failed fun d₁ c₁ _ h₁ _ hc₁ => ?_
      dsimp only
      have h₂ := c₁.left_skipNewlines_le
      refine (outcomes_readMetadataSection hc₁.skipNewlines).elim .failed
        fun d' _ _ _ _ hrest => ?_
      exact .ok d' hrest
  · rw [readMetadataSection_of_ne hk, readMetadataSection_of_ne (h.peek?_eq ▸ hk)]
    exact .ok d h
termination_by c.left
decreasing_by
  subst_vars
  omega

theorem outcomes_readStatements {d : Draft} {c c' : Cursor} (h : r.Cursors c c') :
    r.Outcomes (readStatements d c) (readStatements d c') := by
  have hlt := fun k => @Cursor.left_advance_lt c k
  have hle := c.advance.left_skipNewline_le
  rw [readStatements.eq_def d c, readStatements.eq_def d c']
  cases h.view with
  | done =>
    dsimp only [Cursor.peek?, List.head?_nil, Option.map_none]
    split
    · exact .ok d h
    · exact .failed (h.failure _) h
  | token k =>
    have hlt := hlt k rfl
    dsimp only [Cursor.peek?, List.head?_cons, Option.map_some]
    cases k with
    | newline =>
      dsimp only
      split
      · exact .failed (h.failure _) h
      refine (outcomes_readStatements h.advance).elim .failed fun d' _ _ _ _ hrest => ?_
      exact .ok d' hrest
    | documentation line =>
      dsimp only
      refine (outcomes_readStatements h.advance.skipNewline).elim .failed
        fun d' _ _ _ _ hrest => ?_
      exact .ok d' hrest
    | word w =>
      dsimp only
      refine (outcomes_readStatement h rfl rfl).elim .failed fun d₁ _ _ h₁ _ hc₁ => ?_
      dsimp only
      refine (outcomes_readStatements hc₁).elim .failed fun d' _ _ _ _ hrest => ?_
      exact .ok d' hrest
    | _ => exact .failed (h.unexpected _) h
termination_by c.left
decreasing_by
  all_goals
    subst_vars
    omega

end Draft

theorem outcomes_readDocument {names : List String} (h : r.Cursors c c') :
    r.Outcomes (readDocument names c) (readDocument names c') := by
  rw [readDocument, readDocument]
  refine (Draft.outcomes_readVersions h.skipNewlines).elim .failed fun d₁ _ _ _ _ h₁ => ?_
  dsimp only
  refine (Draft.outcomes_readMetadataSection h₁).elim .failed fun d₂ _ _ _ _ h₂ => ?_
  dsimp only
  refine (Draft.outcomes_readStatements h₂).elim .failed fun d _ _ _ _ hrest => ?_
  exact .ok d hrest

theorem ofTokens_nil (names : List String) (s : Source) :
    ofTokens names s [] = .ok (Draft.start names).toValue := by
  have hnone : (Cursor.ofTokens s []).skipNewlines.peek? = none := rfl
  rw [ofTokens, readDocument, Draft.readVersions_of_ne (by simp [hnone])]
  dsimp only
  rw [Draft.readMetadataSection_of_ne (by simp [hnone])]
  dsimp only
  rw [Draft.readStatements]
  rfl

/-- Paired tokens are the same document, or have the same error at paired tokens. -/
theorem results_ofTokens (names : List String) {ts' : List Token}
    (h : List.Forall₂ r.Paired r.tokens ts') :
    r.Results (ofTokens names r.first r.tokens) (ofTokens names r.second ts') := by
  by_cases hne : r.tokens = []
  · rw [hne] at h ⊢
    cases h
    rw [ofTokens_nil, ofTokens_nil]
    exact .ok _
  rw [ofTokens, ofTokens]
  refine (outcomes_readDocument (.ofTokens h)).elim (fun he hrest => ?_) fun d _ _ _ _ _ => .ok _
  cases he with
  | unplaced e =>
    obtain ⟨hnil, -⟩ | ⟨t, t', ht, hfirst, hsecond⟩ := hrest.back.failure_eq e
    · exact absurd hnil hne
    dsimp only
    rw [hfirst, hsecond]
    exact .error e ht
  | placed e ht => exact .error e ht

end Document

end ShapeModel
