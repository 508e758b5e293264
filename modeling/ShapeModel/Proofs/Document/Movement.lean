import ShapeModel.Document.Value
import ShapeModel.Proofs.Document.Cursor

/-!
# How far readers move

Readers only move a cursor on: what they pass was ahead before, in that order, and it is passed also
where they fail. So none of them runs past the tokens.
-/

namespace ShapeModel

set_option autoImplicit false

namespace Cursor

/-- The cursor so many tokens further. -/
def skip (c : Cursor) (n : Nat) : Cursor :=
  ⟨c.source, (c.ahead.take n).reverse ++ c.passed, c.ahead.drop n⟩

/-- The second cursor is the first one moved on. -/
def MovesTo (c c' : Cursor) : Prop :=
  ∃ n, n ≤ c.left ∧ c' = c.skip n

theorem skip_zero (c : Cursor) : c.skip 0 = c := rfl

theorem skip_skip (c : Cursor) {n : Nat} (hn : n ≤ c.left) (k : Nat) :
    (c.skip n).skip k = c.skip (n + k) := by
  obtain ⟨s, passed, ahead⟩ := c
  simp only [skip, List.drop_drop, List.take_add, List.reverse_append, List.append_assoc]

theorem left_skip (c : Cursor) (n : Nat) : (c.skip n).left = c.left - n := by
  rw [left, skip, List.length_drop, left]

theorem length_kinds (c : Cursor) : c.kinds.length = c.left := by
  rw [kinds, List.length_map, left]

theorem MovesTo.refl (c : Cursor) : c.MovesTo c :=
  ⟨0, Nat.zero_le _, c.skip_zero.symm⟩

theorem MovesTo.trans {a b c : Cursor} (hab : a.MovesTo b) (hbc : b.MovesTo c) : a.MovesTo c := by
  obtain ⟨n, hn, rfl⟩ := hab
  obtain ⟨k, hk, rfl⟩ := hbc
  rw [left_skip] at hk
  exact ⟨n + k, by omega, a.skip_skip hn k⟩

theorem movesTo_advance (c : Cursor) : c.MovesTo c.advance := by
  obtain ⟨s, passed, ahead⟩ := c
  cases ahead with
  | nil => exact .refl _
  | cons t ts => exact ⟨1, Nat.le_add_left 1 _, rfl⟩

theorem movesTo_skipNewlinesFrom (s : Source) (passed ts : List Token) :
    MovesTo ⟨s, passed, ts⟩ (skipNewlinesFrom s passed ts) := by
  induction ts generalizing passed with
  | nil => exact .refl _
  | cons t ts ih =>
    rw [skipNewlinesFrom]
    split
    · exact (movesTo_advance ⟨s, passed, t :: ts⟩).trans (ih (t :: passed))
    · exact .refl _

theorem movesTo_skipNewlines (c : Cursor) : c.MovesTo c.skipNewlines :=
  movesTo_skipNewlinesFrom _ _ _

theorem movesTo_skipGrammar (c : Cursor) (ch : Char) : c.MovesTo (c.skipGrammar ch) := by
  rw [skipGrammar]
  split
  · exact c.movesTo_advance
  · exact .refl c

end Cursor

/-- The cursor that a reader leaves, whether it succeeds or fails. -/
def Outcome.cursor {α : Type} {n : Nat} : Outcome α n → Cursor
  | .ok _ rest _ => rest
  | .failed _ rest => rest

theorem Cursor.movesTo_expect {α : Type} (c : Cursor) (read : Token.Kind → Option α)
    (expected : String) : c.MovesTo (c.expect read expected).cursor := by
  rw [expect]
  split
  · split
    · exact c.movesTo_advance
    · exact .refl c
  · exact .refl c

namespace Document

open Cursor (MovesTo)

variable {s : Scope} {ctx : Context}

mutual

theorem movesTo_readValue (c : Cursor) : c.MovesTo (readValue s ctx c).cursor := by
  have hadvance := c.movesTo_advance
  rw [readValue]
  split
  · exact .refl c
  next k hk =>
  have hlt := Cursor.left_advance_lt hk
  split
  · have hfields := movesTo_readFields c.advance '}'
    split
    all_goals
      next hread =>
      rw [hread] at hfields
      exact hadvance.trans hfields
  split
  · have hitems := movesTo_readItems c.advance
    split
    all_goals
      next hread =>
      rw [hread] at hitems
      exact hadvance.trans hitems
  split
  · exact hadvance
  · exact hadvance
  · exact .refl c
termination_by 2 * c.left

theorem movesTo_readFields (c : Cursor) (close : Char) :
    c.MovesTo (readFields s ctx close c).cursor := by
  have hskip := c.movesTo_skipNewlines
  have h₀ := c.left_skipNewlines_le
  rw [readFields]
  split
  · exact hskip.trans (Cursor.movesTo_advance _)
  have hkey : c.MovesTo c.skipNewlines.expectKey.cursor := hskip.trans (Cursor.movesTo_expect _ _ _)
  split
  · next hread =>
    rw [hread] at hkey
    exact hkey
  next key c₁ h₁ hread =>
  rw [hread] at hkey
  have hcolon : c.MovesTo (c₁.expectGrammar ':').cursor := hkey.trans (Cursor.movesTo_expect _ _ _)
  split
  · next hread =>
    rw [hread] at hcolon
    exact hcolon
  next c₂ h₂ hread =>
  rw [hread] at hcolon
  have h₃ := c₂.left_skipNewlines_le
  have hvalue : c.MovesTo (readValue s ctx c₂.skipNewlines).cursor :=
    hcolon.trans ((Cursor.movesTo_skipNewlines _).trans (movesTo_readValue c₂.skipNewlines))
  split
  · next hread =>
    rw [hread] at hvalue
    exact hvalue
  next v c₃ h₄ hread =>
  rw [hread] at hvalue
  have h₅ := c₃.left_skipNewlines_le
  have h₆ := c₃.skipNewlines.left_skipGrammar_le ','
  have hmore : c.MovesTo (readFields s ctx close (c₃.skipNewlines.skipGrammar ',')).cursor :=
    hvalue.trans ((Cursor.movesTo_skipNewlines _).trans ((Cursor.movesTo_skipGrammar _ _).trans
      (movesTo_readFields (c₃.skipNewlines.skipGrammar ',') close)))
  split
  all_goals
    next hread =>
    rw [hread] at hmore
    exact hmore
termination_by 2 * c.left + 1

theorem movesTo_readItems (c : Cursor) : c.MovesTo (readItems s ctx c).cursor := by
  have hskip := c.movesTo_skipNewlines
  have h₀ := c.left_skipNewlines_le
  rw [readItems]
  split
  · exact hskip.trans (Cursor.movesTo_advance _)
  have hvalue : c.MovesTo (readValue s ctx c.skipNewlines).cursor :=
    hskip.trans (movesTo_readValue _)
  split
  · next hread =>
    rw [hread] at hvalue
    exact hvalue
  next v c₁ h₁ hread =>
  rw [hread] at hvalue
  have h₂ := c₁.left_skipNewlines_le
  have h₃ := c₁.skipNewlines.left_skipGrammar_le ','
  have hmore : c.MovesTo (readItems s ctx (c₁.skipNewlines.skipGrammar ',')).cursor :=
    hvalue.trans ((Cursor.movesTo_skipNewlines _).trans ((Cursor.movesTo_skipGrammar _ _).trans
      (movesTo_readItems (c₁.skipNewlines.skipGrammar ','))))
  split
  all_goals
    next hread =>
    rw [hread] at hmore
    exact hmore
termination_by 2 * c.left + 1

end

end Document

end ShapeModel
