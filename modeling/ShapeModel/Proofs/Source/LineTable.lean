import ShapeModel.Proofs.Source.Position

/-!
# The table of lines

Behind each character, the pass over a text has noted the lines that have ended before it, and knows
where the present one starts. So the table holds the lines of the text, each between the offsets at
which it stands.
-/

namespace ShapeModel

set_option autoImplicit false

namespace Source

/-- Between two offsets is what stands between them. -/
theorem slice_eq {s : Source} {before l after : List Char}
    (h : s.text.toList = before ++ (l ++ after)) :
    s.slice (String.utf8Len before) (String.utf8Len (before ++ l)) = String.ofList l := by
  have htext : s.text = String.ofList (before ++ l ++ after) := by
    rw [List.append_assoc, ← h, String.ofList_toList]
  rw [slice, htext, String.utf8Len_append]
  exact String.extract_of_valid before l after

end Source

namespace LineScan

/-- What the pass knows behind whole lines and a part of the next one. -/
structure Behind (source : Source) (scan : LineScan) (before part : List Char) : Prop where
  whole : Text.WholeLines before
  unbroken : '\n' ∉ part
  offset : scan.offset = String.utf8Len (before ++ part)
  start : scan.start = String.utf8Len before
  last : scan.last = (before ++ part).getLast?.getD ' '
  lastOffset : scan.lastOffset = String.utf8Len (before ++ part).dropLast
  ended : scan.ended.reverse.map (fun (start, stop) => source.slice start stop) =
    (Text.lines before).dropLast.map fun l => String.ofList (Text.dropReturn l)

variable {source : Source} {scan : LineScan} {before part : List Char}

theorem Behind.initial : initial.Behind source [] [] :=
  ⟨nofun, List.not_mem_nil, rfl, rfl, rfl, rfl, rfl⟩

/-- A carriage return before a line feed does not belong to the line. -/
theorem Behind.stop_eq (h : scan.Behind source before part) :
    (if scan.last = '\r' then scan.lastOffset else scan.offset) =
      String.utf8Len (before ++ Text.dropReturn part) := by
  rw [h.last, h.lastOffset, h.offset]
  rcases List.eq_nil_or_concat part with rfl | ⟨part, c, rfl⟩
  · have hlast : ¬(before ++ []).getLast?.getD ' ' = '\r' := by
      rw [List.append_nil]
      cases hbefore : before.getLast? with
      | none => decide
      | some c =>
        rw [h.whole c hbefore]
        decide
    rw [if_neg hlast]
    rfl
  · rw [List.concat_eq_append, ← List.append_assoc, List.getLast?_concat, List.dropLast_concat,
      Option.getD_some]
    by_cases hc : c = '\r'
    · rw [if_pos hc, hc, Text.dropReturn_append]
    · have hlast : (part ++ [c]).getLast? ≠ some '\r' := by simpa using hc
      rw [if_neg hc, Text.dropReturn_of_ne hlast, List.append_assoc]

theorem Behind.slice_eq (h : scan.Behind source before part) {after : List Char}
    (htext : source.text.toList = before ++ (part ++ after)) :
    source.slice scan.start (if scan.last = '\r' then scan.lastOffset else scan.offset) =
      String.ofList (Text.dropReturn part) := by
  obtain ⟨more, hmore⟩ : Text.dropReturn part <+: part := by
    unfold Text.dropReturn
    split
    · exact List.dropLast_prefix part
    · exact List.prefix_refl part
  have hdropped : source.text.toList = before ++ (Text.dropReturn part ++ (more ++ after)) := by
    rw [htext, ← List.append_assoc _ more, hmore]
  rw [h.stop_eq, h.start]
  exact Source.slice_eq hdropped

/-- A line feed ends the present line. -/
theorem Behind.step_newline (h : scan.Behind source before part) {after : List Char}
    (htext : source.text.toList = before ++ (part ++ after)) :
    (scan.step '\n').Behind source (before ++ part ++ ['\n']) [] := by
  have hlines : (Text.lines (before ++ part ++ ['\n'])).dropLast =
      (Text.lines before).dropLast ++ [part] := by
    rw [Text.lines_append_newline, Text.lines, List.dropLast_concat, h.whole.lines_append,
      Text.lines_of_not_mem h.unbroken]
  have hsize : scan.offset + 1 = String.utf8Len (before ++ part ++ ['\n']) := by
    rw [h.offset, String.utf8Len_append _ ['\n']]
    rfl
  unfold step
  rw [if_pos rfl]
  refine ⟨fun c hc => ?_, List.not_mem_nil, ?_, hsize, ?_, ?_, ?_⟩
  · rw [List.getLast?_concat] at hc
    exact (Option.some.inj hc).symm
  · rw [List.append_nil, ← hsize]
    rfl
  · rw [List.append_nil, List.getLast?_concat]
    rfl
  · rw [List.append_nil, List.dropLast_concat]
    exact h.offset
  · rw [hlines, List.map_append, ← h.ended, List.reverse_cons, List.map_append, List.map_singleton,
      List.map_singleton]
    exact congrArg (_ ++ [·]) (h.slice_eq htext)

/-- Any other character belongs to the present line. -/
theorem Behind.step_of_ne (h : scan.Behind source before part) {c : Char} (hc : c ≠ '\n') :
    (scan.step c).Behind source before (part ++ [c]) := by
  have hpart : '\n' ∉ part ++ [c] := by
    rw [List.mem_append, List.mem_singleton, not_or]
    exact ⟨h.unbroken, Ne.symm hc⟩
  unfold step
  rw [if_neg hc]
  refine ⟨h.whole, hpart, ?_, h.start, ?_, ?_, h.ended⟩
  · rw [← List.append_assoc, String.utf8Len_append _ [c], ← h.offset]
    exact congrArg (scan.offset + ·) (Nat.zero_add _).symm
  · rw [← List.append_assoc, List.getLast?_concat]
    rfl
  · rw [← List.append_assoc, List.dropLast_concat]
    exact h.offset

/-- Along the rest of a text, the pass comes to its last line. -/
theorem Behind.foldl (h : scan.Behind source before part) {after : List Char}
    (htext : source.text.toList = before ++ (part ++ after)) :
    ∃ before' part', source.text.toList = before' ++ part' ∧
      (after.foldl step scan).Behind source before' part' := by
  induction after generalizing scan before part with
  | nil =>
    rw [List.append_nil] at htext
    exact ⟨before, part, htext, h⟩
  | cons c after ih =>
    rw [List.foldl_cons]
    by_cases hc : c = '\n'
    · subst hc
      apply ih (h.step_newline htext)
      rw [htext, List.nil_append, List.append_assoc, List.append_assoc, List.singleton_append]
    · apply ih (h.step_of_ne hc)
      rw [htext, List.append_assoc, List.singleton_append]

end LineScan

namespace Source

/-- The table has the lines of the text. -/
theorem lines_eq (s : Source) : s.lines = (Text.physicalLines s.text.toList).map String.ofList := by
  have hall : s.text.toList = [] ++ ([] ++ s.text.toList) := rfl
  obtain ⟨before, part, htext, h⟩ := LineScan.Behind.initial.foldl hall
  have hsize : s.text.utf8ByteSize = String.utf8Len (before ++ part) := by
    rw [← htext, String.utf8Len_toList]
  unfold lines lineTable
  generalize s.text.toList.foldl LineScan.step .initial = scan at h
  have hlast : (if scan.start < s.text.utf8ByteSize ∨ s.text.utf8ByteSize = 0 then
      (scan.start, s.text.utf8ByteSize) else (s.text.utf8ByteSize, s.text.utf8ByteSize)) =
      (String.utf8Len before, String.utf8Len (before ++ part)) := by
    rw [h.start, hsize, String.utf8Len_append]
    split
    · rfl
    · congr 1
      omega
  have hpart : s.text.toList = before ++ (part ++ []) := by rw [htext, List.append_nil]
  have hslice := slice_eq hpart
  have hlines : Text.lines s.text.toList = (Text.lines before).dropLast ++ [part] := by
    rw [htext, h.whole.lines_append, Text.lines_of_not_mem h.unbroken]
  simp only [hlast, List.map_append, List.map_singleton, h.ended, hslice]
  rw [Text.physicalLines, hlines, List.dropLast_concat, List.getLast?_concat, Option.toList_some,
    List.map_append, List.map_map, List.map_singleton]
  rfl

theorem length_lines (s : Source) : s.lines.length = 1 + s.text.toList.count '\n' := by
  rw [lines_eq, List.length_map, Text.length_physicalLines, Nat.add_comm]

end Source

end ShapeModel
