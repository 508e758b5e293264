import ShapeModel.Text.Blank

/-!
# Lines of a text

A text has one line more than line feeds. A carriage return right before a line feed belongs to the
line break. What the lines are is also said by what stands around each: line feeds before it, a line
break or the end of the text behind it.
-/

namespace ShapeModel.Text

set_option autoImplicit false

/-- The pieces between line feeds. -/
def lines : List Char → List (List Char)
  | [] => [[]]
  | c :: cs =>
    if c = '\n' then [] :: lines cs
    else
      match lines cs with
      | [] => [[c]]
      | l :: ls => (c :: l) :: ls

/-- The lines as they show; the last one ends with the text, not with a line break. -/
def physicalLines (cs : List Char) : List (List Char) :=
  let ls := lines cs
  ls.dropLast.map dropReturn ++ ls.getLast?.toList

theorem lines_ne_nil (cs : List Char) : lines cs ≠ [] := by
  cases cs with
  | nil => exact List.cons_ne_nil _ _
  | cons c cs =>
    rw [lines]
    split
    · exact List.cons_ne_nil _ _
    · split <;> exact List.cons_ne_nil _ _

theorem lines_append_newline (a b : List Char) :
    lines (a ++ '\n' :: b) = lines a ++ lines b := by
  induction a with
  | nil => simp [lines]
  | cons c cs ih =>
    rw [List.cons_append, lines, lines, ih]
    split
    · rfl
    · cases h : lines cs with
      | nil => exact absurd h (lines_ne_nil cs)
      | cons l ls => rfl

/-- Each line but the last has a line feed behind it. -/
theorem length_flatten_lines (cs : List Char) :
    (lines cs).flatten.length + (lines cs).length = cs.length + 1 := by
  induction cs with
  | nil => rfl
  | cons c cs ih =>
    rw [lines]
    split
    · rw [List.flatten_cons, List.nil_append, List.length_cons, List.length_cons]
      omega
    · cases h : lines cs with
      | nil => exact absurd h (lines_ne_nil cs)
      | cons l ls =>
        rw [h, List.flatten_cons, List.length_append, List.length_cons] at ih
        simp only [List.flatten_cons, List.length_append, List.length_cons]
        omega

theorem lines_of_not_mem {l : List Char} (h : '\n' ∉ l) : lines l = [l] := by
  induction l with
  | nil => rfl
  | cons c l ih =>
    obtain ⟨hc, hl⟩ := not_or.mp (mt List.mem_cons.mpr h)
    rw [lines, if_neg (Ne.symm hc), ih hl]

/-- The first line is all of the text, or the line feed behind it comes before the other lines. -/
theorem eq_of_lines_eq_cons {cs l : List Char} {ls : List (List Char)} (h : lines cs = l :: ls) :
    '\n' ∉ l ∧ ((cs = l ∧ ls = []) ∨ ∃ rest, cs = l ++ '\n' :: rest ∧ ls = lines rest) := by
  induction cs generalizing l with
  | nil =>
    cases h
    exact ⟨List.not_mem_nil, .inl ⟨rfl, rfl⟩⟩
  | cons c cs ih =>
    rw [lines] at h
    by_cases hc : c = '\n'
    · rw [if_pos hc] at h
      cases h
      exact ⟨List.not_mem_nil, .inr ⟨cs, by rw [hc, List.nil_append], rfl⟩⟩
    · rw [if_neg hc] at h
      cases hlines : lines cs with
      | nil => exact absurd hlines (lines_ne_nil cs)
      | cons m ms =>
        rw [hlines] at h
        cases h
        obtain ⟨hm, hcs⟩ := ih hlines
        refine ⟨List.not_mem_cons_of_ne_of_not_mem (Ne.symm hc) hm, ?_⟩
        rcases hcs with ⟨rfl, hms⟩ | ⟨rest, rfl, hms⟩
        · exact .inl ⟨rfl, hms⟩
        · exact .inr ⟨rest, rfl, hms⟩

theorem length_lines (cs : List Char) : (lines cs).length = cs.count '\n' + 1 := by
  induction cs with
  | nil => rfl
  | cons c cs ih =>
    rw [lines, List.count_cons]
    by_cases hc : c = '\n'
    · simp [hc, ih]
    · rw [if_neg hc, if_neg (by simpa using hc), Nat.add_zero, ← ih]
      cases h : lines cs with
      | nil => exact absurd h (lines_ne_nil cs)
      | cons l ls => rfl

theorem length_physicalLines (cs : List Char) :
    (physicalLines cs).length = cs.count '\n' + 1 := by
  rw [← length_lines, physicalLines]
  cases h : lines cs with
  | nil => exact absurd h (lines_ne_nil cs)
  | cons l ls => simp

/-- Nothing, or lines that are ended by line feeds. -/
def WholeLines (cs : List Char) : Prop :=
  ∀ c ∈ cs.getLast?, c = '\n'

theorem WholeLines.eq_nil_or_append {cs : List Char} (h : WholeLines cs) :
    cs = [] ∨ ∃ ds, cs = ds ++ ['\n'] := by
  rcases List.eq_nil_or_concat cs with rfl | ⟨ds, c, rfl⟩
  · exact .inl rfl
  · obtain rfl := h c (by simp)
    exact .inr ⟨ds, by simp⟩

theorem WholeLines.cons {c : Char} {cs : List Char} (h : WholeLines cs)
    (hc : cs = [] → c = '\n') : WholeLines (c :: cs) := by
  intro d hd
  cases cs with
  | nil =>
    cases hd
    exact hc rfl
  | cons e cs =>
    rw [List.getLast?_cons_cons] at hd
    exact h d hd

theorem WholeLines.lines_append {before : List Char} (h : WholeLines before) (cs : List Char) :
    lines (before ++ cs) = (lines before).dropLast ++ lines cs := by
  rcases h.eq_nil_or_append with rfl | ⟨ds, rfl⟩
  · rfl
  · rw [List.append_assoc, List.singleton_append, lines_append_newline, lines_append_newline, lines,
      List.dropLast_concat]

theorem dropReturn_of_ne {l : List Char} (h : l.getLast? ≠ some '\r') : dropReturn l = l :=
  if_neg h

theorem dropReturn_append (l : List Char) : dropReturn (l ++ ['\r']) = l := by
  simp [dropReturn]

end ShapeModel.Text
