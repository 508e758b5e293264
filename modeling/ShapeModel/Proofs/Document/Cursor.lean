import ShapeModel.Cursor

/-!
# What cursors see

Readers decide by the kinds of the tokens ahead, and what they leave is again known by its kinds.
Each move of a cursor and each small reader is described on the list of kinds.
-/

namespace ShapeModel

set_option autoImplicit false

/-- The kinds of the tokens ahead. -/
def Cursor.kinds (c : Cursor) : List Token.Kind :=
  c.ahead.map (·.kind)

/-- What is left behind line breaks. -/
def dropBreaks (ks : List Token.Kind) : List Token.Kind :=
  ks.dropWhile (· = .newline)

theorem dropBreaks_newline (ks : List Token.Kind) : dropBreaks (.newline :: ks) = dropBreaks ks :=
  rfl

theorem dropBreaks_of_ne {k : Token.Kind} (h : k ≠ .newline) (ks : List Token.Kind) :
    dropBreaks (k :: ks) = k :: ks := by
  rw [dropBreaks, List.dropWhile_cons, if_neg (by simpa using h)]

/-- The reader succeeds with this value and leaves tokens of these kinds. -/
def Outcome.Gives {α : Type} {n : Nat} (o : Outcome α n) (a : α) (ks : List Token.Kind) : Prop :=
  ∃ c h, o = .ok a c h ∧ c.kinds = ks

namespace Outcome

variable {α : Type} {n : Nat} {a : α} {ks : List Token.Kind}

theorem gives_ok_iff {c : Cursor} {h : c.left < n} {a' : α} :
    (ok a' c h : Outcome α n).Gives a ks ↔ a' = a ∧ c.kinds = ks := by
  constructor
  · rintro ⟨c, h, ⟨⟩, hks⟩
    exact ⟨rfl, hks⟩
  · rintro ⟨rfl, hks⟩
    exact ⟨c, h, rfl, hks⟩

theorem gives_of_eq {o : Outcome α n} {c : Cursor} {h : c.left < n} (ho : o = .ok a c h) :
    o.Gives a c.kinds :=
  ⟨c, h, ho, rfl⟩

theorem not_gives_failed {e : SyntaxFailure} {c : Cursor} :
    ¬(failed e c : Outcome α n).Gives a ks := by
  rintro ⟨_, _, ⟨⟩, _⟩

/-- Two outcomes that differ in their bounds at most. -/
def Same {m : Nat} (o : Outcome α n) (o' : Outcome α m) : Prop :=
  (∃ a c h h', o = .ok a c h ∧ o' = .ok a c h') ∨ ∃ e c, o = .failed e c ∧ o' = .failed e c

theorem Same.gives_iff {m : Nat} {o : Outcome α n} {o' : Outcome α m} (h : o.Same o') :
    o.Gives a ks ↔ o'.Gives a ks := by
  rcases h with ⟨_, _, _, _, rfl, rfl⟩ | ⟨_, _, rfl, rfl⟩
  · exact gives_ok_iff.trans gives_ok_iff.symm
  · exact iff_of_false not_gives_failed not_gives_failed

end Outcome

/-- The tokens that name a field: a bare word or a quoted string. -/
inductive IsKey : Token.Kind → String → Prop
  | word (w : String) : IsKey (.word w) w
  | string (s : String) : IsKey (.string s) s

theorem IsKey.dropBreaks_cons {k : Token.Kind} {key : String} (h : IsKey k key)
    (ks : List Token.Kind) : dropBreaks (k :: ks) = k :: ks := by
  cases h <;> rfl

theorem IsKey.head?_ne {k : Token.Kind} {key : String} (h : IsKey k key) {ch : Char}
    {ks : List Token.Kind} : (k :: ks).head? ≠ some (.grammar ch) := by
  cases h <;> simp

namespace Cursor

variable {c : Cursor} {ks : List Token.Kind}

theorem peek?_eq (c : Cursor) : c.peek? = c.kinds.head? := by
  rw [peek?, kinds, List.head?_map]

theorem peek?_of_cons {k : Token.Kind} (h : c.kinds = k :: ks) : c.peek? = some k := by
  rw [peek?_eq, h, List.head?_cons]

theorem peekAhead?_eq (c : Cursor) (n : Nat) : c.peekAhead? n = c.kinds[n]? := by
  rw [peekAhead?, kinds, List.getElem?_map]

theorem kinds_advance (c : Cursor) : c.advance.kinds = c.kinds.tail := by
  obtain ⟨s, passed, ahead⟩ := c
  cases ahead <;> rfl

theorem kinds_advance_of_cons {k : Token.Kind} (h : c.kinds = k :: ks) : c.advance.kinds = ks := by
  rw [kinds_advance, h, List.tail_cons]

theorem isGrammar_iff {ch : Char} : c.isGrammar ch = true ↔ c.kinds.head? = some (.grammar ch) := by
  rw [isGrammar, decide_eq_true_iff, peek?_eq]

theorem kinds_skipNewlinesFrom (s : Source) (passed ts : List Token) :
    (skipNewlinesFrom s passed ts).kinds = dropBreaks (ts.map (·.kind)) := by
  induction ts generalizing passed with
  | nil => rfl
  | cons t ts ih =>
    rw [skipNewlinesFrom, List.map_cons]
    split
    · next h => rw [ih, h, dropBreaks_newline]
    · next h =>
      rw [dropBreaks_of_ne h]
      rfl

theorem kinds_skipNewlines (c : Cursor) : c.skipNewlines.kinds = dropBreaks c.kinds :=
  kinds_skipNewlinesFrom _ _ _

theorem kinds_skipGrammar (c : Cursor) (ch : Char) :
    (c.skipGrammar ch).kinds =
      if c.kinds.head? = some (.grammar ch) then c.kinds.tail else c.kinds := by
  rw [skipGrammar]
  by_cases h : c.isGrammar ch = true
  · rw [if_pos h, if_pos (isGrammar_iff.mp h), kinds_advance]
  · rw [if_neg h, if_neg (mt isGrammar_iff.mpr h)]

theorem expect_gives_iff {α : Type} {read : Token.Kind → Option α} {expected : String} {a : α} :
    (c.expect read expected).Gives a ks ↔ ∃ k, read k = some a ∧ c.kinds = k :: ks := by
  have hpeek := peek?_eq c
  have hadvance := kinds_advance c
  rw [expect]
  split
  · next k hk =>
    obtain ⟨rest, hrest⟩ := List.head?_eq_some_iff.mp (hpeek.symm.trans hk)
    rw [hrest, List.tail_cons] at hadvance
    split
    · next a' ha' =>
      rw [Outcome.gives_ok_iff, hadvance, hrest]
      constructor
      · rintro ⟨rfl, rfl⟩
        exact ⟨k, ha', rfl⟩
      · rintro ⟨k', ha, hks⟩
        cases hks
        exact ⟨Option.some.inj (ha'.symm.trans ha), rfl⟩
    · next hnone =>
      refine iff_of_false Outcome.not_gives_failed ?_
      rintro ⟨k', ha, hks⟩
      rw [hrest] at hks
      cases hks
      cases hnone.symm.trans ha
  · next hnone =>
    refine iff_of_false Outcome.not_gives_failed ?_
    rintro ⟨k', ha, hks⟩
    rw [hpeek, hks] at hnone
    cases hnone

theorem expectGrammar_gives_iff {ch : Char} :
    (c.expectGrammar ch).Gives () ks ↔ c.kinds = .grammar ch :: ks := by
  rw [expectGrammar, expect_gives_iff]
  constructor
  · rintro ⟨k, hk, hks⟩
    split at hk
    · next h => exact h ▸ hks
    · cases hk
  · intro hks
    exact ⟨_, if_pos rfl, hks⟩

theorem expectWord_gives_iff {w : String} :
    c.expectWord.Gives w ks ↔ c.kinds = .word w :: ks := by
  rw [expectWord, expect_gives_iff]
  constructor
  · rintro ⟨k, hk, hks⟩
    cases k <;> cases hk
    exact hks
  · intro hks
    exact ⟨_, rfl, hks⟩

theorem expectString_gives_iff {s : String} :
    c.expectString.Gives s ks ↔ c.kinds = .string s :: ks := by
  rw [expectString, expect_gives_iff]
  constructor
  · rintro ⟨k, hk, hks⟩
    cases k <;> cases hk
    exact hks
  · intro hks
    exact ⟨_, rfl, hks⟩

theorem expectKey_gives_iff {key : String} :
    c.expectKey.Gives key ks ↔ ∃ k, IsKey k key ∧ c.kinds = k :: ks := by
  rw [expectKey, expect_gives_iff]
  constructor
  · rintro ⟨k, hk, hks⟩
    cases k <;> cases hk
    · exact ⟨_, .word _, hks⟩
    · exact ⟨_, .string _, hks⟩
  · rintro ⟨k, hk, hks⟩
    refine ⟨k, ?_, hks⟩
    cases hk <;> rfl

theorem expectSeparator_gives_iff {close : Char} (hclose : close ≠ ',') :
    (c.expectSeparator close).Gives () ks ↔ c.kinds = .grammar ',' :: ks ∨
      c.kinds = .newline :: ks ∨ (c.kinds = ks ∧ ks.head? = some (.grammar close)) := by
  have hadvance := kinds_advance c
  rw [expectSeparator, peek?_eq]
  cases hks : c.kinds with
  | nil =>
    refine iff_of_false Outcome.not_gives_failed ?_
    rintro (h | h | ⟨rfl, h⟩) <;> cases h
  | cons k rest =>
    rw [hks, List.tail_cons] at hadvance
    simp only [List.head?_cons]
    by_cases hpassed : k = .grammar ',' ∨ k = .newline
    · rw [if_pos hpassed, Outcome.gives_ok_iff, hadvance]
      constructor
      · rintro ⟨-, rfl⟩
        rcases hpassed with rfl | rfl
        · exact .inl rfl
        · exact .inr (.inl rfl)
      · rintro (h | h | ⟨rfl, h⟩)
        · exact ⟨rfl, (List.cons.inj h).2⟩
        · exact ⟨rfl, (List.cons.inj h).2⟩
        · rcases hpassed with rfl | rfl <;> cases h
          exact absurd rfl hclose
    · obtain ⟨hcomma, hnewline⟩ := not_or.mp hpassed
      rw [if_neg hpassed]
      by_cases hk : k = .grammar close
      · rw [if_pos hk, Outcome.gives_ok_iff, hks]
        constructor
        · rintro ⟨-, rfl⟩
          exact .inr (.inr ⟨rfl, congrArg some hk⟩)
        · rintro (h | h | ⟨rfl, _⟩)
          · exact absurd (List.cons.inj h).1 hcomma
          · exact absurd (List.cons.inj h).1 hnewline
          · exact ⟨rfl, rfl⟩
      · rw [if_neg hk]
        refine iff_of_false Outcome.not_gives_failed ?_
        rintro (h | h | ⟨rfl, h⟩)
        · exact hcomma (List.cons.inj h).1
        · exact hnewline (List.cons.inj h).1
        · exact hk (Option.some.inj h)

theorem endStatement_gives_iff :
    c.endStatement.Gives () ks ↔ c.kinds = .newline :: ks ∨ (c.kinds = [] ∧ ks = []) := by
  have hadvance := kinds_advance c
  rw [endStatement, peek?_eq]
  cases hks : c.kinds with
  | nil =>
    simp only [List.head?_nil]
    rw [Outcome.gives_ok_iff, hks]
    simp [eq_comm]
  | cons k rest =>
    rw [hks, List.tail_cons] at hadvance
    simp only [List.head?_cons]
    by_cases hk : k = .newline
    · rw [if_pos hk, Outcome.gives_ok_iff, hadvance]
      simp [hk]
    · rw [if_neg hk]
      simp [Outcome.not_gives_failed, hk]

end Cursor

end ShapeModel
