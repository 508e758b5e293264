import ShapeModel.Proofs.Document.Movement

/-!
# Runs of moves

A cursor keeps the tokens before it and those ahead. Whatever moves it makes, the two are the tokens
it started with, so a cursor is known by how many tokens it has passed. A move that fails leaves the
cursor where it is, and one that succeeds passes a single token, which `back` undoes. Two moves
differ: line breaks are skipped all at once, and the end of an entry may be a closing character,
which stays ahead unless it is a comma.
-/

namespace ShapeModel

set_option autoImplicit false

def Outcome.isOk {α : Type} {n : Nat} : Outcome α n → Bool
  | .ok .. => true
  | .failed .. => false

namespace Cursor

/-- How many tokens are passed. -/
def index (c : Cursor) : Nat :=
  c.passed.length

inductive Move
  | peek
  | advance
  | back
  | skipNewlines
  | expectGrammar (ch : Char)
  | expectWord
  | expectKey
  | expectString
  | expectSeparator (close : Char)
deriving DecidableEq, Repr

/-- The cursor after a move. -/
def next (c : Cursor) : Move → Cursor
  | .peek => c
  | .advance => c.advance
  | .back => c.back
  | .skipNewlines => c.skipNewlines
  | .expectGrammar ch => (c.expectGrammar ch).cursor
  | .expectWord => c.expectWord.cursor
  | .expectKey => c.expectKey.cursor
  | .expectString => c.expectString.cursor
  | .expectSeparator close => (c.expectSeparator close).cursor

/-- Whether a move succeeds. Peeks, steps back and skips always do. -/
def succeeds (c : Cursor) : Move → Bool
  | .peek | .back | .skipNewlines => true
  | .advance => c.peek?.isSome
  | .expectGrammar ch => (c.expectGrammar ch).isOk
  | .expectWord => c.expectWord.isOk
  | .expectKey => c.expectKey.isOk
  | .expectString => c.expectString.isOk
  | .expectSeparator close => (c.expectSeparator close).isOk

/-- The cursor after some moves, made whether or not those before them fail. -/
def run (c : Cursor) (moves : List Move) : Cursor :=
  moves.foldl next c

/-- The moves that take the token ahead. -/
inductive Move.Takes : Move → Prop
  | advance : Takes .advance
  | expectGrammar (ch : Char) : Takes (.expectGrammar ch)
  | expectWord : Takes .expectWord
  | expectKey : Takes .expectKey
  | expectString : Takes .expectString

/-- The second cursor is one token further, and a step back leads to the first one. -/
structure PassesOne (c c' : Cursor) : Prop where
  index_eq : c'.index = c.index + 1
  back_eq : c'.back = c

section

variable {α : Type} (c : Cursor) (read : Token.Kind → Option α) (expected : String)

theorem passesOne_advance {k : Token.Kind} (h : c.peek? = some k) : c.PassesOne c.advance := by
  obtain ⟨s, passed, ahead⟩ := c
  cases ahead with
  | nil => cases h
  | cons t ts => exact ⟨rfl, rfl⟩

theorem index_back : c.back.index = c.index - 1 := by
  obtain ⟨s, passed, ahead⟩ := c
  cases passed <;> rfl

theorem expect_cases :
    ((c.expect read expected).isOk = false ∧ (c.expect read expected).cursor = c) ∨
      ((c.expect read expected).isOk = true ∧ c.PassesOne (c.expect read expected).cursor) := by
  rw [expect]
  split
  · next k hk =>
    split
    · exact .inr ⟨rfl, c.passesOne_advance hk⟩
    · exact .inl ⟨rfl, rfl⟩
  · exact .inl ⟨rfl, rfl⟩

/-- What the end of an entry can be, and how far it is passed. -/
theorem expectSeparator_cases (close : Char) :
    ((c.expectSeparator close).isOk = false ∧ (c.expectSeparator close).cursor = c) ∨
      ((c.expectSeparator close).isOk = true ∧
        (((c.isGrammar ',' ∨ c.peek? = some .newline) ∧
            c.PassesOne (c.expectSeparator close).cursor) ∨
          (c.isGrammar close ∧ close ≠ ',' ∧ (c.expectSeparator close).cursor = c))) := by
  rw [expectSeparator]
  split
  · next k hk =>
    have hpeek (ch : Char) : c.isGrammar ch ↔ k = .grammar ch := by
      rw [isGrammar, decide_eq_true_iff, hk, Option.some.injEq]
    split
    · next hseparates =>
      refine .inr ⟨rfl, .inl ⟨?_, c.passesOne_advance hk⟩⟩
      rwa [hpeek, hk, Option.some.injEq]
    · next hno =>
      split
      · next hclose =>
        refine .inr ⟨rfl, .inr ⟨(hpeek close).mpr hclose, ?_, rfl⟩⟩
        rintro rfl
        exact hno (.inl hclose)
      · exact .inl ⟨rfl, rfl⟩
  · exact .inl ⟨rfl, rfl⟩

theorem takes_cases {m : Move} (hm : m.Takes) :
    (c.succeeds m = false ∧ c.next m = c) ∨ (c.succeeds m = true ∧ c.PassesOne (c.next m)) := by
  cases hm with
  | advance =>
    obtain ⟨s, passed, ahead⟩ := c
    cases ahead with
    | nil => exact .inl ⟨rfl, rfl⟩
    | cons t ts => exact .inr ⟨rfl, passesOne_advance ⟨s, passed, t :: ts⟩ rfl⟩
  | expectGrammar ch => exact c.expect_cases _ _
  | expectWord => exact c.expect_cases _ _
  | expectKey => exact c.expect_cases _ _
  | expectString => exact c.expect_cases _ _

end

theorem next_of_not_succeeds {c : Cursor} {m : Move} (h : c.succeeds m = false) :
    c.next m = c := by
  have htakes (hm : m.Takes) : c.next m = c := by
    rcases c.takes_cases hm with ⟨-, hc⟩ | ⟨hok, -⟩
    · exact hc
    · cases h.symm.trans hok
  cases m with
  | peek | back | skipNewlines => cases h
  | advance => exact htakes .advance
  | expectGrammar ch => exact htakes (.expectGrammar ch)
  | expectWord => exact htakes .expectWord
  | expectKey => exact htakes .expectKey
  | expectString => exact htakes .expectString
  | expectSeparator close =>
    rcases c.expectSeparator_cases close with ⟨-, hc⟩ | ⟨hok, -⟩
    · exact hc
    · cases h.symm.trans hok

theorem passesOne_of_takes {c : Cursor} {m : Move} (hm : m.Takes) (h : c.succeeds m = true) :
    c.PassesOne (c.next m) := by
  rcases c.takes_cases hm with ⟨hno, -⟩ | ⟨-, hone⟩
  · cases h.symm.trans hno
  · exact hone

theorem movesTo_expectSeparator (c : Cursor) (close : Char) :
    c.MovesTo (c.expectSeparator close).cursor := by
  rw [expectSeparator]
  split
  · split
    · exact c.movesTo_advance
    · split <;> exact .refl c
  · exact .refl c

theorem index_skip (c : Cursor) {n : Nat} (hn : n ≤ c.left) : (c.skip n).index = c.index + n := by
  rw [left] at hn
  rw [index, skip, List.length_append, List.length_reverse, List.length_take_of_le hn, index,
    Nat.add_comm]

theorem peek?_skip (c : Cursor) (n : Nat) : (c.skip n).peek? = c.peekAhead? n := by
  rw [peek?, skip, List.head?_drop, peekAhead?]

/-- Line breaks are skipped up to the first token that is none. -/
theorem skipNewlines_eq_skip (c : Cursor) :
    ∃ n, n ≤ c.left ∧ c.skipNewlines = c.skip n ∧ (∀ k < n, c.peekAhead? k = some .newline) ∧
      c.peekAhead? n ≠ some .newline := by
  obtain ⟨s, passed, ahead⟩ := c
  induction ahead generalizing passed with
  | nil => exact ⟨0, Nat.zero_le _, rfl, fun _ h => absurd h (Nat.not_lt_zero _), nofun⟩
  | cons t ts ih =>
    by_cases ht : t.kind = .newline
    · obtain ⟨n, hn, hskip, hbefore, hat⟩ := ih (t :: passed)
      refine ⟨n + 1, Nat.succ_le_succ hn, ?_, ?_, hat⟩
      · rw [skipNewlines, skipNewlinesFrom, if_pos ht, Nat.add_comm]
        exact hskip.trans (skip_skip ⟨s, passed, t :: ts⟩ (Nat.le_add_left 1 _) n)
      · intro k hk
        cases k with
        | zero => exact congrArg some ht
        | succ k => exact hbefore k (Nat.lt_of_succ_lt_succ hk)
    · refine ⟨0, Nat.zero_le _, ?_, fun _ h => absurd h (Nat.not_lt_zero _), ?_⟩
      · rw [skipNewlines, skipNewlinesFrom, if_neg ht]
        rfl
      · exact fun h => ht (Option.some.inj h)

/-- The cursor stands between tokens of this list. -/
structure Within (s : Source) (ts : List Token) (c : Cursor) : Prop where
  source_eq : c.source = s
  tokens_eq : c.passed.reverse ++ c.ahead = ts

namespace Within

variable {s : Source} {ts : List Token} {c c' : Cursor}

theorem ofTokens (s : Source) (ts : List Token) : Within s ts (.ofTokens s ts) :=
  ⟨rfl, rfl⟩

theorem skip (h : Within s ts c) (n : Nat) : Within s ts (c.skip n) := by
  refine ⟨h.source_eq, ?_⟩
  rw [← h.tokens_eq, Cursor.skip, List.reverse_append, List.reverse_reverse, List.append_assoc,
    List.take_append_drop]

theorem movesTo (h : Within s ts c) (hmoves : c.MovesTo c') : Within s ts c' := by
  obtain ⟨n, -, rfl⟩ := hmoves
  exact h.skip n

theorem back (h : Within s ts c) : Within s ts c.back := by
  obtain ⟨s, passed, ahead⟩ := c
  cases passed with
  | nil => exact h
  | cons t ts =>
    refine ⟨h.source_eq, ?_⟩
    rw [← h.tokens_eq]
    simp [Cursor.back]

theorem next (h : Within s ts c) (m : Move) : Within s ts (c.next m) := by
  cases m with
  | peek => exact h
  | advance => exact h.movesTo c.movesTo_advance
  | back => exact h.back
  | skipNewlines => exact h.movesTo c.movesTo_skipNewlines
  | expectGrammar ch => exact h.movesTo (c.movesTo_expect _ _)
  | expectWord => exact h.movesTo (c.movesTo_expect _ _)
  | expectKey => exact h.movesTo (c.movesTo_expect _ _)
  | expectString => exact h.movesTo (c.movesTo_expect _ _)
  | expectSeparator close => exact h.movesTo (c.movesTo_expectSeparator close)

theorem run (h : Within s ts c) (moves : List Move) : Within s ts (c.run moves) := by
  induction moves generalizing c with
  | nil => exact h
  | cons m moves ih => exact ih (h.next m)

theorem index_le (h : Within s ts c) : c.index ≤ ts.length := by
  rw [← h.tokens_eq, List.length_append, List.length_reverse]
  exact Nat.le_add_right _ _

theorem eq_skip (h : Within s ts c) : c = (Cursor.ofTokens s ts).skip c.index := by
  obtain ⟨s', passed, ahead⟩ := c
  obtain ⟨rfl, rfl⟩ := h
  simp [Cursor.skip, Cursor.ofTokens, index]

theorem peek?_eq (h : Within s ts c) : c.peek? = ts[c.index]?.map (·.kind) := by
  rw [peek?, ← h.tokens_eq, index, List.getElem?_append_right (by simp), List.length_reverse,
    Nat.sub_self, List.head?_eq_getElem?]

end Within

/-- What can be relied on of a cursor over a list of tokens. -/
structure Sound (s : Source) (ts : List Token) (c : Cursor) : Prop where
  /-- The tokens are those at the start: nothing but the number of passed ones has changed. -/
  eq_skip : c = (ofTokens s ts).skip c.index
  index_le : c.index ≤ ts.length
  peek?_eq : c.peek? = ts[c.index]?.map (·.kind)
  index_back : c.back.index = c.index - 1
  fails : ∀ m, c.succeeds m = false → c.next m = c
  takes : ∀ m, m.Takes → c.succeeds m = true → c.PassesOne (c.next m)
  separator : ∀ close, c.succeeds (.expectSeparator close) = true →
    ((c.isGrammar ',' ∨ c.peek? = some .newline) ∧ c.PassesOne (c.next (.expectSeparator close))) ∨
      (c.isGrammar close ∧ close ≠ ',' ∧ c.next (.expectSeparator close) = c)
  newlines : ∃ n, c.skipNewlines.index = c.index + n ∧
    (∀ k < n, c.peekAhead? k = some .newline) ∧ c.skipNewlines.peek? ≠ some .newline

theorem sound_run (s : Source) (ts : List Token) (moves : List Move) :
    Sound s ts ((ofTokens s ts).run moves) := by
  have hwithin : Within s ts ((ofTokens s ts).run moves) := (Within.ofTokens s ts).run moves
  generalize (ofTokens s ts).run moves = c at hwithin
  refine ⟨hwithin.eq_skip, hwithin.index_le, hwithin.peek?_eq, c.index_back,
    fun _ => next_of_not_succeeds, fun _ => passesOne_of_takes, fun close hok => ?_, ?_⟩
  · rcases c.expectSeparator_cases close with ⟨hno, -⟩ | ⟨-, h⟩
    · cases hok.symm.trans hno
    · exact h
  · obtain ⟨n, hn, hskip, hbefore, hat⟩ := c.skipNewlines_eq_skip
    refine ⟨n, ?_, hbefore, ?_⟩
    · rw [hskip, index_skip c hn]
    · rwa [hskip, peek?_skip]

/-- A comma is passed also where it is the closing character. -/
theorem index_expectSeparator_comma :
    let c := ofTokens ⟨"<idl>", ","⟩ [⟨.grammar ',', ",", .start⟩]
    c.isGrammar ',' = true ∧ c.succeeds (.expectSeparator ',') = true ∧
      (c.next (.expectSeparator ',')).index = c.index + 1 := by
  decide

end Cursor

end ShapeModel
