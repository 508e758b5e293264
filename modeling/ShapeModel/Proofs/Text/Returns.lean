import ShapeModel.Proofs.Source.LineTable

/-!
# Carriage returns before line feeds

A text with a carriage return put before each of its line feeds. It has the same lines, when there
were no carriage returns before.
-/

namespace ShapeModel

set_option autoImplicit false

namespace Text

/-- Every line feed gets a carriage return in front of it. -/
def withReturns (cs : List Char) : List Char :=
  cs.flatMap fun c => if c = '\n' then ['\r', '\n'] else [c]

theorem withReturns_newline (cs : List Char) :
    withReturns ('\n' :: cs) = '\r' :: '\n' :: withReturns cs := rfl

theorem withReturns_cons {c : Char} (h : c ≠ '\n') (cs : List Char) :
    withReturns (c :: cs) = c :: withReturns cs := by
  simp [withReturns, h]

theorem withReturns_append (a b : List Char) :
    withReturns (a ++ b) = withReturns a ++ withReturns b :=
  List.flatMap_append

theorem withReturns_of_not_mem {l : List Char} (h : '\n' ∉ l) : withReturns l = l := by
  induction l with
  | nil => rfl
  | cons c l ih =>
    obtain ⟨hc, hl⟩ := not_or.mp (mt List.mem_cons.mpr h)
    rw [withReturns_cons (Ne.symm hc), ih hl]

theorem withReturns_append_line {l : List Char} (h : '\n' ∉ l) (rest : List Char) :
    withReturns (l ++ '\n' :: rest) = l ++ ['\r'] ++ '\n' :: withReturns rest := by
  rw [withReturns_append, withReturns_of_not_mem h, withReturns_newline, List.append_cons]

/-- A text is one line, or a line and a text with a line feed between them. -/
theorem not_mem_or_exists_append (cs : List Char) :
    '\n' ∉ cs ∨ ∃ l rest, '\n' ∉ l ∧ cs = l ++ '\n' :: rest := by
  by_cases h : '\n' ∈ cs
  · obtain ⟨l, rest, hcs, hl⟩ := List.eq_append_cons_of_mem h
    exact .inr ⟨l, rest, hl, hcs⟩
  · exact .inl h

theorem lines_append_line {l : List Char} (h : '\n' ∉ l) (cs : List Char) :
    lines (l ++ '\n' :: cs) = l :: lines cs := by
  rw [lines_append_newline, lines_of_not_mem h, List.singleton_append]

theorem lines_withReturns_append {l : List Char} (h : '\n' ∉ l) (cs : List Char) :
    lines (withReturns (l ++ '\n' :: cs)) = (l ++ ['\r']) :: lines (withReturns cs) := by
  have hline : '\n' ∉ l ++ ['\r'] := by simp [h]
  rw [withReturns_append_line h, lines_append_line hline]

theorem physicalLines_append {l : List Char} (h : '\n' ∉ l) (cs : List Char) :
    physicalLines (l ++ '\n' :: cs) = dropReturn l :: physicalLines cs := by
  obtain ⟨m, ms, hms⟩ := List.exists_cons_of_ne_nil (lines_ne_nil cs)
  simp only [physicalLines, lines_append_line h, hms, List.dropLast_cons_cons, List.map_cons,
    List.getLast?_cons_cons, List.cons_append]

theorem dropReturn_of_not_mem {l : List Char} (h : '\r' ∉ l) : dropReturn l = l :=
  dropReturn_of_ne fun hlast => h (List.mem_of_getLast? hlast)

theorem physicalLines_withReturns {cs : List Char} (h : '\r' ∉ cs) :
    physicalLines (withReturns cs) = physicalLines cs := by
  rcases not_mem_or_exists_append cs with hcs | ⟨l, rest, hl, rfl⟩
  · rw [withReturns_of_not_mem hcs]
  · obtain ⟨hreturn, hrest⟩ := not_or.mp (mt List.mem_append.mpr h)
    have hrest : '\r' ∉ rest := fun hmem => hrest (List.mem_cons_of_mem _ hmem)
    have hline : '\n' ∉ l ++ ['\r'] := by simp [hl]
    rw [withReturns_append_line hl, physicalLines_append hline, physicalLines_append hl,
      dropReturn_append, dropReturn_of_not_mem hreturn, physicalLines_withReturns hrest]
termination_by cs.length
decreasing_by
  subst_vars
  rw [List.length_append, List.length_cons]
  omega

end Text

namespace Source

/-- The source with carriage returns before its line feeds. -/
def withReturns (s : Source) : Source :=
  { s with text := String.ofList (Text.withReturns s.text.toList) }

theorem toList_withReturns (s : Source) :
    s.withReturns.text.toList = Text.withReturns s.text.toList :=
  String.toList_ofList

variable {s : Source} (h : '\r' ∉ s.text.toList)
include h

theorem lines_withReturns : s.withReturns.lines = s.lines := by
  rw [lines_eq, toList_withReturns, Text.physicalLines_withReturns h, lines_eq]

theorem line_withReturns (i : Nat) : s.withReturns.line i = s.line i := by
  rw [line, line, lines_withReturns h]

end Source

end ShapeModel
