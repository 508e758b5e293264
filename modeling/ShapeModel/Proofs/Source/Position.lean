import Mathlib
import ShapeModel.Proofs.Text.Lines
import ShapeModel.Source

/-!
# Positions, counted

A position moves character by character: a line feed starts a line, other characters take columns.
Counting instead what stands before it gives the same: bytes, line feeds, and the widths of the
characters on its line.
-/

namespace ShapeModel

set_option autoImplicit false

namespace Text

/-- The characters behind the last line feed. -/
def lastLine (cs : List Char) : List Char :=
  (cs.reverse.takeWhile (· ≠ '\n')).reverse

/-- How wide characters are on a line, where a tab is as wide as four others. -/
def width (cs : List Char) : Nat :=
  (cs.map fun c => if c = '\t' then 4 else 1).sum

theorem lastLine_append_newline (cs : List Char) : lastLine (cs ++ ['\n']) = [] := by
  simp [lastLine]

theorem lastLine_append_of_ne {c : Char} (h : c ≠ '\n') (cs : List Char) :
    lastLine (cs ++ [c]) = lastLine cs ++ [c] := by
  simp [lastLine, h]

theorem width_append_singleton (cs : List Char) (c : Char) :
    width (cs ++ [c]) = width cs + if c = '\t' then 4 else 1 := by
  simp [width]

end Text

namespace Position

/-- The position behind a character. -/
def step (p : Position) (c : Char) : Position :=
  if c = '\n' then ⟨p.offset + c.utf8Size, p.line + 1, 1⟩
  else ⟨p.offset + c.utf8Size, p.line, p.column + width c⟩

/-- The position behind these characters. -/
def advance (p : Position) (cs : List Char) : Position :=
  cs.foldl step p

theorem offset_step (p : Position) (c : Char) : (p.step c).offset = p.offset + c.utf8Size := by
  unfold step
  split <;> rfl

theorem advance_append (p : Position) (a b : List Char) :
    p.advance (a ++ b) = (p.advance a).advance b :=
  List.foldl_append

theorem offset_advance (p : Position) (cs : List Char) :
    (p.advance cs).offset = p.offset + String.utf8Len cs := by
  induction cs generalizing p with
  | nil => rfl
  | cons c cs ih =>
    calc (p.advance (c :: cs)).offset
        = ((p.step c).advance cs).offset := rfl
      _ = p.offset + c.utf8Size + String.utf8Len cs := by rw [ih, offset_step]
      _ = p.offset + String.utf8Len (c :: cs) := by
        rw [String.utf8Len_cons]
        omega

theorem width_eq (c : Char) : width c = .ofNat (if c = '\t' then 4 else 1) := by
  unfold width
  split <;> rfl

/-- The position is the one behind these characters. Columns are counted in 32 bits. -/
structure Behind (p : Position) (before : List Char) : Prop where
  offset : p.offset = (String.ofList before).utf8ByteSize
  line : p.line = 1 + before.count '\n'
  column : p.column = .ofNat (1 + Text.width (Text.lastLine before))

theorem Behind.start : start.Behind [] :=
  ⟨rfl, rfl, rfl⟩

theorem Behind.step {p : Position} {before : List Char} (h : p.Behind before) (c : Char) :
    (p.step c).Behind (before ++ [c]) := by
  have hoffset : p.offset + c.utf8Size = (String.ofList (before ++ [c])).utf8ByteSize := by
    rw [h.offset, String.utf8ByteSize_ofList, String.utf8ByteSize_ofList, String.utf8Len_append,
      String.utf8Len_cons, String.utf8Len_nil, Nat.zero_add]
  unfold Position.step
  by_cases hc : c = '\n'
  · rw [if_pos hc]
    refine ⟨hoffset, ?_, ?_⟩
    · rw [h.line, hc, List.count_append]
      rfl
    · rw [hc, Text.lastLine_append_newline]
      rfl
  · rw [if_neg hc]
    refine ⟨hoffset, ?_, ?_⟩
    · rw [h.line, List.count_append, List.count_singleton, if_neg (by simpa using hc)]
      rfl
    · rw [h.column, width_eq, Text.lastLine_append_of_ne hc, Text.width_append_singleton,
        ← UInt32.ofNat_add, Nat.add_assoc]

theorem Behind.advance {p : Position} {before : List Char} (h : p.Behind before)
    (cs : List Char) : (p.advance cs).Behind (before ++ cs) := by
  induction cs generalizing p before with
  | nil =>
    rw [List.append_nil]
    exact h
  | cons c cs ih =>
    rw [List.append_cons]
    exact ih (h.step c)

end Position

end ShapeModel
