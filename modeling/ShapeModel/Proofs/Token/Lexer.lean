import ShapeModel.Proofs.Source.LineTable
import ShapeModel.Proofs.Token.Kinds

/-!
# The lexer walks along its text

Each reader takes the front of the text ahead, as long as the front is, and has then counted what
walking over those characters counts. So the tokens that a lexer reads are those of the text, at
their positions in it, and a lexer fails where the text has a fault.
-/

namespace ShapeModel

set_option autoImplicit false

namespace Lexer

open Token

/-- The lexer behind so many more characters. -/
def walk (l : Lexer) (n : Nat) : Lexer :=
  let p := l.position.advance (l.ahead.take n)
  ⟨l.source, l.ahead.drop n, p.offset, p.line, p.column⟩

theorem walk_walk (l : Lexer) (m n : Nat) : (l.walk m).walk n = l.walk (m + n) := by
  have hposition : (l.position.advance (l.ahead.take m)).advance ((l.ahead.drop m).take n) =
      l.position.advance (l.ahead.take (m + n)) := by
    rw [← Position.advance_append, List.take_add]
  calc (l.walk m).walk n
      = let p := (l.position.advance (l.ahead.take m)).advance ((l.ahead.drop m).take n)
        ⟨l.source, (l.ahead.drop m).drop n, p.offset, p.line, p.column⟩ := rfl
    _ = l.walk (m + n) := by rw [hposition, List.drop_drop]; rfl

section

variable {l : Lexer} {c : Char} {cs : List Char}

theorem bump_eq (h : l.ahead = c :: cs) (hc : c ≠ '\n') : l.bump = l.walk 1 := by
  obtain ⟨_, _, _, _, _⟩ := l
  subst h
  simp [bump, next, peek, walk, position, Position.advance, Position.step, hc]

theorem newline_eq (h : l.ahead = '\n' :: cs) : l.newline = l.walk 1 := by
  obtain ⟨_, _, _, _, _⟩ := l
  subst h
  simp [newline, next, walk, position, Position.advance, Position.step]

theorem line_bump (l : Lexer) : l.bump.line = l.line := by
  obtain ⟨_, ahead, _, _, _⟩ := l
  cases ahead <;> rfl

theorem ahead_walk_one (h : l.ahead = c :: cs) : (l.walk 1).ahead = cs := by
  simp only [walk, h, List.drop_succ_cons, List.drop_zero]

theorem peek_zero (h : l.ahead = c :: cs) : l.peek 0 = c := by
  rw [peek, h]
  rfl

end

/-- The lexer has these characters of its source behind it and the other ones ahead. -/
structure Stands (l : Lexer) (before : List Char) : Prop where
  text : l.source.text.toList = before ++ l.ahead
  offset : l.offset = String.utf8Len before

section

variable {l : Lexer} {before : List Char}

theorem Stands.walk (h : l.Stands before) (n : Nat) :
    (l.walk n).Stands (before ++ l.ahead.take n) := by
  constructor
  · rw [List.append_assoc, Lexer.walk, List.take_append_drop]
    exact h.text
  · rw [String.utf8Len_append, ← h.offset]
    exact Position.offset_advance _ _

/-- What is sliced out of the source are the characters that were passed. -/
theorem Stands.slice (h : l.Stands before) (n : Nat) :
    l.source.slice l.offset (l.walk n).offset = String.ofList (l.ahead.take n) := by
  have htext : l.source.text.toList = before ++ (l.ahead.take n ++ l.ahead.drop n) := by
    rw [List.take_append_drop]
    exact h.text
  rw [h.offset, (h.walk n).offset]
  exact Source.slice_eq htext

theorem Stands.token (h : l.Stands before) (n : Nat) (kind : Kind) :
    l.token (l.walk n) kind = ⟨kind, String.ofList (l.ahead.take n), l.position⟩ := by
  rw [Lexer.token, h.slice]

end

theorem readWhile_eq {test : Char → Bool} (htest : test '\n' = false) (l : Lexer) :
    l.readWhile test = (l.ahead.takeWhile test, l.walk (l.ahead.takeWhile test).length) := by
  fun_induction readWhile test l with
  | case1 l h =>
    rw [h]
    rfl
  | case2 l c cs h hc more rest heq ih =>
    have hne : c ≠ '\n' := by
      rintro rfl
      cases htest.symm.trans hc
    rw [heq, bump_eq h hne, ahead_walk_one h, walk_walk] at ih
    obtain ⟨rfl, rfl⟩ := Prod.mk.inj ih
    rw [h, List.takeWhile_cons_of_pos hc, List.length_cons, Nat.add_comm 1]
  | case3 l c cs h hc =>
    rw [h, List.takeWhile_cons_of_neg hc]
    rfl

theorem bumpWhile_eq {test : Char → Bool} (htest : test '\n' = false) (l : Lexer) :
    l.bumpWhile test = l.walk (l.ahead.takeWhile test).length := by
  rw [bumpWhile, readWhile_eq htest]

/-- What reading a string that starts at one lexer comes to, at another one inside the string. -/
def stringOutcome {α : Type} (start l : Lexer) :
    Except StringFault (α × Nat) → Except LexicalFailure (α × Lexer)
  | .ok (x, n) => .ok (x, l.walk n)
  | .error .open => .error start.unterminated
  | .error (.wrong e n) => .error ⟨e, l.source.place (l.walk n).position e.message⟩

/-- A fault further on is one that stands so many characters behind the lexer. -/
theorem stringOutcome_behind {α : Type} (start l : Lexer) (n : Nat) (e : StringFault) :
    stringOutcome start l (.error (e.behind n) : Except StringFault (α × Nat)) =
      stringOutcome start (l.walk n) (.error e) := by
  cases e with
  | «open» => rfl
  | wrong e m =>
    rw [StringFault.behind, stringOutcome, stringOutcome, walk_walk, Nat.add_comm n]
    rfl

theorem stringOutcome_add {α : Type} (start l : Lexer) (x : α) (m n : Nat) :
    stringOutcome start l (.ok (x, m + n)) = stringOutcome start (l.walk n) (.ok (x, m)) := by
  rw [stringOutcome, stringOutcome, walk_walk, Nat.add_comm n]

/-- What a quoted string comes to, behind a part of it that is read already. -/
def quotedOutcome (start l : Lexer) (text : String) (r : Except StringFault (List Char × Nat)) :
    Except LexicalFailure (String × Lexer) :=
  (stringOutcome start l r).map (Prod.map (fun cs => text ++ String.ofList cs) id)

theorem quotedOutcome_pushChar (start l : Lexer) (text : String) (x : Char) (n : Nat)
    (r : Except StringFault (List Char × Nat)) :
    quotedOutcome start l text (pushChar x n r) =
      quotedOutcome start (l.walk n) (text.push x) r := by
  rcases r with e | ⟨cs, m⟩
  · rw [pushChar, quotedOutcome, stringOutcome_behind]
    cases e <;> rfl
  · have htext : text ++ String.ofList (x :: cs) = text.push x ++ String.ofList cs := by
      rw [← String.toList_inj]
      simp
    rw [pushChar, quotedOutcome, stringOutcome_add, quotedOutcome]
    simp only [stringOutcome, Except.map, Prod.map, htext]

theorem readQuoted_eq (start : Lexer) (text : String) (l : Lexer) (hline : l.line = start.line) :
    readQuoted start text l = quotedOutcome start l text (quotedString l.ahead) := by
  fun_induction readQuoted start text l with
  | case2 text l cs =>
    rename_i h
    rw [h, quotedString_quote, bump_eq h (by decide)]
    simp only [quotedOutcome, stringOutcome, Except.map, Prod.map, String.ofList_nil,
      String.append_empty, id]
  | case3 text l cs h =>
    rw [h]
    cases cs <;> rfl
  | case5 text l e cs x hx hquote hnewline _ h ih =>
    have he : e ≠ '\n' := by
      rintro rfl
      cases hx
    have hbump := bump_eq h hnewline
    have hahead : l.bump.ahead = e :: cs := by rw [hbump, ahead_walk_one h]
    have hbump' : l.bump.bump = l.walk 2 := by rw [bump_eq hahead he, hbump, walk_walk]
    have hahead' : l.bump.bump.ahead = cs := by rw [ahead_bump, hahead, List.tail_cons]
    rw [ih ((line_bump _).trans ((line_bump _).trans hline)), hahead', h,
      quotedString_escape cs he hx, quotedOutcome_pushChar, hbump']
  | case7 text l e cs hx he hquote hnewline _ h =>
    have hbump := bump_eq h hnewline
    have hline' : (l.walk 1).position.line = start.line := by
      rw [← hline, ← line_bump, hbump]
      rfl
    rw [h, quotedString, if_neg hquote, if_neg hnewline, if_pos rfl]
    simp only [if_neg he, hx, quotedOutcome, stringOutcome, Except.map]
    rw [hbump, failure, Source.place, hline']
    rfl
  | case8 text l c cs h hquote hnewline hbackslash ih =>
    rw [ih ((line_bump _).trans hline), ahead_bump, h, quotedString_plain cs hbackslash hquote
      hnewline, quotedOutcome_pushChar, bump_eq h hnewline, List.tail_cons]
  | _ =>
    rename_i h
    rw [h]
    rfl

theorem readString_eq {l : Lexer} {cs : List Char} (h : l.ahead = '"' :: cs) :
    l.readString = (stringOutcome l (l.walk 1) (quotedString cs)).map fun (s, rest) =>
      (l.token rest (.string (String.ofList s)), rest) := by
  unfold readString
  rw [readQuoted_eq l "" l.bump (line_bump l), ahead_bump, h, List.tail_cons,
    bump_eq h (by decide), quotedOutcome]
  cases stringOutcome l (l.walk 1) (quotedString cs) with
  | error f => rfl
  | ok r => simp only [Except.map, Prod.map, String.empty_append, id]

theorem isBlockDelimiter_eq (l : Lexer) :
    l.isBlockDelimiter = blockDelimiter.isPrefixOf l.ahead := by
  unfold isBlockDelimiter peek
  rcases l.ahead with _ | ⟨c, _ | ⟨d, _ | ⟨e, cs⟩⟩⟩
  · rfl
  · simp [blockDelimiter, List.isPrefixOf]
  · simp [blockDelimiter, List.isPrefixOf]
  · rw [Bool.eq_iff_iff]
    simp [blockDelimiter, List.isPrefixOf, eq_comm (a := '"'), and_assoc]

/-- No delimiter reaches over the end of a line. -/
theorem isPrefixOf_append_of_newline {line rest : List Char} (hrest : ∀ c ∈ rest.head?, c = '\n') :
    blockDelimiter.isPrefixOf (line ++ rest) = blockDelimiter.isPrefixOf line := by
  cases rest with
  | nil => rw [List.append_nil]
  | cons c rest =>
    obtain rfl := hrest c rfl
    cases line with
    | nil => rfl
    | cons c line => exact blockDelimiter_isPrefixOf_append_newline c line rest

theorem readLine_eq {l : Lexer} {line rest : List Char} (h : l.ahead = line ++ rest)
    (hline : '\n' ∉ line) (hrest : ∀ c ∈ rest.head?, c = '\n') :
    l.readLine = match beforeDelimiter? line with
      | none => .ok (line, l.walk line.length)
      | some n =>
        let e := LexicalError.corruptBlockText
        .error ⟨e, l.source.place (l.walk n).position e.message⟩ := by
  induction line generalizing l with
  | nil =>
    unfold readLine
    split
    · rfl
    · next c cs hahead =>
      rw [List.nil_append] at h
      rw [if_pos (hrest c (by rw [← h, hahead]; rfl))]
      rfl
  | cons c line ih =>
    obtain ⟨hc, hline⟩ := List.ne_and_not_mem_of_not_mem_cons hline
    have hbump := bump_eq h (Ne.symm hc)
    have hahead : (l.walk 1).ahead = line ++ rest := ahead_walk_one h
    unfold readLine
    split
    · next hnil => cases hnil.symm.trans h
    · next d ds hcons =>
      cases h.symm.trans hcons
      rw [if_neg (Ne.symm hc), isBlockDelimiter_eq, h, isPrefixOf_append_of_newline hrest,
        beforeDelimiter?]
      split
      · rfl
      · rw [hbump, ih hahead hline]
        cases beforeDelimiter? line with
        | none => simp only [Option.map_none, walk_walk, List.length_cons, Nat.add_comm 1]
        | some n =>
          simp only [Option.map_some, walk_walk, Nat.add_comm 1]
          rfl

theorem bump_delimiter {l : Lexer} (h : blockDelimiter.isPrefixOf l.ahead = true) :
    l.bump.bump.bump = l.walk 3 := by
  obtain ⟨cs, hcs⟩ := List.isPrefixOf_iff_prefix.mp h
  have hfirst := bump_eq hcs.symm (by decide)
  have hsecond := bump_eq (ahead_walk_one hcs.symm) (by decide)
  have hthird := bump_eq (ahead_walk_one (ahead_walk_one hcs.symm)) (by decide)
  rw [hfirst, hsecond, hthird, walk_walk, walk_walk]

/-- A block string is read line by line. -/
theorem readBlock_step (start l : Lexer) :
    readBlock start l =
      let margin := (l.readWhile isMargin).1
      let text := (l.readWhile isMargin).2
      if text.ahead.isEmpty then .error start.unterminated
      else if text.isBlockDelimiter then .ok (⟨[], margin.length⟩, text.bump.bump.bump)
      else
        text.readLine.bind fun (cs, feed) =>
          if feed.ahead.isEmpty then .error start.unterminated
          else
            (readBlock start feed.newline).map fun (b, rest) =>
              (b.push (Text.dropReturn (margin ++ cs)), rest) := by
  rw [readBlock]
  simp only []
  split
  · rfl
  split
  · rfl
  split
  · next f hline =>
    rw [hline]
    rfl
  · next cs feed hline =>
    rw [hline]
    simp only [Except.bind]
    split
    · next hfeed =>
      rw [hfeed]
      rfl
    · next hfeed =>
      rw [hfeed]
      simp only [List.isEmpty_cons, Bool.false_eq_true, if_false]
      split
      · next hblock =>
        rw [hblock]
        rfl
      · next hblock =>
        rw [hblock]
        rfl

/-- A text is its first line and then, if there are more lines, a line feed and those. -/
theorem exists_rest_of_lines {cs line : List Char} {ls : List (List Char)}
    (h : Text.lines cs = line :: ls) : ∃ rest, cs = line ++ rest ∧ (∀ c ∈ rest.head?, c = '\n') ∧
      (rest = [] ∧ ls = [] ∨ ∃ more, rest = '\n' :: more ∧ ls = Text.lines more) := by
  obtain ⟨_, ⟨rfl, hls⟩ | ⟨more, rfl, hls⟩⟩ := Text.eq_of_lines_eq_cons h
  · exact ⟨[], (List.append_nil _).symm, by simp, .inl ⟨rfl, hls⟩⟩
  · refine ⟨_, rfl, fun c hc => ?_, .inr ⟨more, rfl, hls⟩⟩
    exact (Option.some.inj hc).symm

theorem readMargin_eq {l : Lexer} {line rest : List Char} (h : l.ahead = line ++ rest)
    (hrest : ∀ c ∈ rest.head?, c = '\n') :
    l.readWhile isMargin = (line.takeWhile isMargin, l.walk (line.takeWhile isMargin).length) ∧
      (l.walk (line.takeWhile isMargin).length).ahead = line.dropWhile isMargin ++ rest := by
  constructor
  · rw [readWhile_eq (by decide), h, takeWhile_append_of_head?]
    intro c hc
    rw [hrest c hc]
    rfl
  · rw [walk, h, List.drop_append_of_le_length, drop_length_takeWhile]
    exact (List.takeWhile_sublist _).length_le

theorem readBlock_eq (start l : Lexer) :
    readBlock start l = stringOutcome start l (block (Text.lines l.ahead)) := by
  generalize hlines : Text.lines l.ahead = ls
  induction ls generalizing l with
  | nil => exact absurd hlines (Text.lines_ne_nil _)
  | cons line ls ih =>
    obtain ⟨hline, -⟩ := Text.eq_of_lines_eq_cons hlines
    obtain ⟨rest, hrest, hfeed, hls⟩ := exists_rest_of_lines hlines
    obtain ⟨hmargin, htext⟩ := readMargin_eq hrest hfeed
    have hread := readLine_eq htext (fun h => hline ((List.dropWhile_sublist _).mem h)) hfeed
    have hsplit := @List.takeWhile_append_dropWhile _ isMargin line
    rw [readBlock_step, block]
    simp only [hmargin, isBlockDelimiter_eq, htext, isPrefixOf_append_of_newline hfeed]
    generalize line.takeWhile isMargin = margin at *
    generalize line.dropWhile isMargin = text at *
    by_cases hempty : (text ++ rest).isEmpty = true
    · rw [List.isEmpty_iff, List.append_eq_nil_iff] at hempty
      obtain ⟨rfl, rfl⟩ := hempty
      rcases hls with ⟨_, rfl⟩ | ⟨more, hmore, _⟩
      · rfl
      · cases hmore
    rw [if_neg hempty]
    by_cases hclose : blockDelimiter.isPrefixOf text = true
    · have hahead : blockDelimiter.isPrefixOf (l.walk margin.length).ahead = true := by
        rw [htext, isPrefixOf_append_of_newline hfeed]
        exact hclose
      rw [if_pos hclose, if_pos hclose, bump_delimiter hahead, walk_walk]
      rfl
    rw [if_neg hclose, if_neg hclose, hread]
    cases beforeDelimiter? text with
    | some n =>
      simp only [walk_walk]
      rfl
    | none =>
      have hwalk : (l.walk margin.length).walk text.length = l.walk line.length := by
        rw [walk_walk, ← List.length_append, hsplit]
      have hend : (l.walk line.length).ahead = rest := by rw [walk, hrest, List.drop_left]
      simp only [Except.bind, hwalk, hend, hsplit]
      rcases hls with ⟨rfl, rfl⟩ | ⟨more, rfl, rfl⟩
      · rfl
      -- The other lines are read from behind the line feed, with what is left of the text.
      have hnewline : (l.walk line.length).newline = l.walk (line.length + 1) := by
        rw [newline_eq hend, walk_walk]
      have hmore : (l.walk (line.length + 1)).ahead = more := by
        rw [← walk_walk, ahead_walk_one hend]
      have hlines : (Text.lines more).isEmpty = false := by
        rw [List.isEmpty_eq_false_iff]
        exact Text.lines_ne_nil more
      rw [hnewline, ih _ (by rw [hmore]), hlines]
      simp only [List.isEmpty_cons, Bool.false_eq_true, if_false]
      cases block (Text.lines more) with
      | error e =>
        rw [stringOutcome_behind]
        cases e <;> rfl
      | ok r =>
        rw [stringOutcome_add]
        rfl

/-- A block string starts behind the line of its opening delimiter. -/
theorem readBlockString_eq {l : Lexer} {cs : List Char} (h : l.ahead = blockDelimiter ++ cs) :
    l.readBlockString = (stringOutcome l (l.walk 3) (blockString cs)).map fun (s, rest) =>
      (l.token rest (.string (String.ofList s)), rest) := by
  have hdelimiter : blockDelimiter.isPrefixOf l.ahead = true :=
    List.isPrefixOf_iff_prefix.mpr ⟨cs, h.symm⟩
  have hahead : (l.walk 3).ahead = cs := by rw [walk, h]; rfl
  have hgap : (l.walk 3).bumpWhile isGap = l.walk (3 + (cs.takeWhile isGap).length) := by
    rw [bumpWhile_eq (by decide), hahead, walk_walk]
  have hopened : (l.walk (3 + (cs.takeWhile isGap).length)).ahead = cs.dropWhile isGap := by
    rw [← walk_walk, walk, hahead, drop_length_takeWhile]
  unfold readBlockString blockString
  simp only [bump_delimiter hdelimiter, hgap, hopened]
  cases hbody : cs.dropWhile isGap with
  | nil => rfl
  | cons c body =>
    rw [hbody] at hopened
    simp only [List.isEmpty_cons, Bool.false_eq_true, if_false, peek_zero hopened]
    by_cases hc : c = '\n'
    · subst hc
      rw [if_neg (not_not.mpr rfl), if_pos rfl, newline_eq hopened, readBlock_eq,
        ahead_walk_one hopened, walk_walk]
      cases block (Text.lines body) with
      | error e =>
        simp only [stringOutcome_behind, walk_walk, Nat.add_assoc]
        cases e <;> rfl
      | ok r =>
        simp only [stringOutcome_add, walk_walk, Nat.add_assoc]
        rfl
    · rw [if_pos hc, if_neg hc]
      simp only [stringOutcome, walk_walk]
      rfl

/-- What reading the front of the text ahead comes to. -/
def frontOutcome (l : Lexer) : Front → Except LexicalFailure (Option Token × Lexer)
  | .gap n => .ok (none, l.walk (n + 1))
  | .token kind n =>
    .ok (some ⟨kind, String.ofList (l.ahead.take (n + 1)), l.position⟩, l.walk (n + 1))
  | .fault e n => .error ⟨e, l.source.place (l.walk n).position e.message⟩

section

variable {l : Lexer} {before cs : List Char} {c : Char} (hl : l.Stands before)

include hl

theorem frontOutcome_stringFront {n : Nat} (hn : 0 < n)
    (r : Except StringFault (List Char × Nat)) :
    l.frontOutcome (stringFront n r) =
      ((stringOutcome l (l.walk n) r).map fun (s, rest) =>
        (l.token rest (.string (String.ofList s)), rest)).map (Prod.map some id) := by
  rcases r with (_ | ⟨e, m⟩) | ⟨s, m⟩
  · rfl
  · simp only [stringFront, StringFault.behind, StringFault.front, stringOutcome, walk_walk,
      Nat.add_comm m]
    rfl
  · have hsum : m + n - 1 + 1 = n + m := by omega
    simp only [stringFront, stringOutcome, frontOutcome, walk_walk, hsum, Except.map, Prod.map,
      hl.token, id]

theorem frontOutcome_runFront (h : l.ahead = c :: cs) (test : Char → Bool) (make : String → Kind)
    {rest : Lexer} (hrest : rest = l.walk ((cs.takeWhile test).length + 1)) :
    l.frontOutcome (runFront c test make cs) =
      .ok (some (l.token rest (make (l.source.slice l.offset rest.offset))), rest) := by
  have htake : l.ahead.take ((cs.takeWhile test).length + 1) = c :: cs.takeWhile test := by
    rw [h, List.take_succ_cons, take_length_takeWhile]
  rw [hrest, hl.token, hl.slice, htake, runFront, frontOutcome, htake]

theorem readWord_eq (h : l.ahead = c :: cs) (hc : isWordChar c = true) :
    .ok (l.readWord.map some id) = l.frontOutcome (runFront c isWordChar .word cs) := by
  have hnewline : isWordChar '\n' = false := isWordChar_of_mem_markChars _ (by decide)
  have hrest : l.bumpWhile isWordChar = l.walk ((cs.takeWhile isWordChar).length + 1) := by
    rw [bumpWhile_eq hnewline, h, List.takeWhile_cons_of_pos hc, List.length_cons]
  exact (frontOutcome_runFront hl h isWordChar .word hrest).symm

theorem readNumber_eq (h : l.ahead = c :: cs) (hc : c.isDigit = true ∨ c = '-') :
    .ok (l.readNumber.map some id) = l.frontOutcome (runFront c isNumberChar .number cs) := by
  have hrest : (if l.peek 0 = '-' then l.bump else l).bumpWhile isNumberChar =
      l.walk ((cs.takeWhile isNumberChar).length + 1) := by
    rw [peek_zero h, bumpWhile_eq (by decide)]
    by_cases hminus : c = '-'
    · subst hminus
      rw [if_pos rfl, bump_eq h (by decide), ahead_walk_one h, walk_walk, Nat.add_comm]
    · have hnumber : isNumberChar c = true :=
        Bool.or_eq_true_iff.mpr (.inl (hc.resolve_right hminus))
      rw [if_neg hminus, h, List.takeWhile_cons_of_pos hnumber, List.length_cons]
  exact (frontOutcome_runFront hl h isNumberChar .number hrest).symm

theorem readComment_eq (h : l.ahead = '/' :: '/' :: cs) :
    .ok l.readComment = l.frontOutcome (commentFront ('/' :: cs)) := by
  have hslashes : l.bump.bump = l.walk 2 := by
    rw [bump_eq h (by decide), bump_eq (ahead_walk_one h) (by decide), walk_walk]
  have hahead : (l.walk 2).ahead = cs := by
    rw [walk, h]
    rfl
  have hrest {n : Nat} {cs : List Char} (h : (l.walk n).ahead = cs) :
      (l.walk n).bumpWhile (· ≠ '\n') = l.walk ((cs.takeWhile (· ≠ '\n')).length + n) := by
    rw [bumpWhile_eq (by decide), h, walk_walk, Nat.add_comm]
  unfold readComment
  simp only [hslashes]
  by_cases hslash : (l.walk 2).peek 0 = '/'
  · obtain ⟨text, rfl⟩ : ∃ text, cs = '/' :: text := by
      cases cs with
      | nil =>
        rw [peek, hahead] at hslash
        cases hslash
      | cons c text =>
        rw [peek_zero hahead] at hslash
        exact ⟨text, by rw [hslash]⟩
    have htext : (l.walk 3).ahead = text := by
      rw [← walk_walk l 2 1, ahead_walk_one hahead]
    have hslice : l.source.slice (l.walk 3).offset
        (l.walk ((text.takeWhile (· ≠ '\n')).length + 3)).offset =
          String.ofList (text.takeWhile (· ≠ '\n')) := by
      have hslice := (hl.walk 3).slice (text.takeWhile (· ≠ '\n')).length
      rwa [walk_walk, Nat.add_comm 3, htext, take_length_takeWhile] at hslice
    rw [if_pos hslash, bump_eq hahead (by decide), walk_walk, hrest htext, hslice,
      String.toList_ofList, hl.token, commentFront, List.takeWhile_cons_of_pos (by decide),
      List.takeWhile_cons_of_pos (by decide)]
    rfl
  · have hdocumentation : ¬∃ text, ('/' :: cs).takeWhile (· ≠ '\n') = '/' :: '/' :: text := by
      rintro ⟨text, htext⟩
      rw [List.takeWhile_cons_of_pos (by decide)] at htext
      cases cs with
      | nil => cases htext
      | cons c cs =>
        rw [peek_zero hahead] at hslash
        obtain ⟨_, htext⟩ := List.cons.inj htext
        have hc : c = '/' := by
          rw [List.takeWhile_cons] at htext
          split at htext
          · exact (List.cons.inj htext).1
          · cases htext
        exact hslash hc
    rw [if_neg hslash, hrest hahead, commentFront_of_not_exists hdocumentation,
      List.takeWhile_cons_of_pos (by decide)]
    rfl

theorem readFront_eq (h : l.ahead = c :: cs) (hgap : isGap c = false) :
    l.readFront c = l.frontOutcome (front c cs) := by
  have hpeek : l.peek 1 = cs.head?.getD '\x00' := by
    rw [peek, h]
    cases cs <;> rfl
  have hslash : (l.peek 1 = '/') = (cs.head? = some '/') := by
    rw [hpeek]
    cases cs <;> simp
  have hdigit : (l.peek 1).isDigit = cs.head?.any Char.isDigit := by
    rw [hpeek]
    cases cs <;> rfl
  have htake : l.ahead.take 1 = [c] := by rw [h]; rfl
  unfold readFront front
  rw [hgap, isBlockDelimiter_eq, h, hdigit]
  simp only [Bool.false_eq_true, if_false, hslash]
  split
  · next hc =>
    subst hc
    rw [newline_eq h, hl.token, frontOutcome]
  next hnewline =>
  split
  · next hc =>
    simp only [Bool.and_eq_true, decide_eq_true_eq] at hc
    obtain ⟨rfl, hcs⟩ := hc
    obtain ⟨cs, rfl⟩ := List.head?_eq_some_iff.mp hcs
    exact readComment_eq hl h
  split
  · rw [bump_eq h hnewline, hl.token, frontOutcome]
  split
  · next hc =>
    obtain ⟨rest, hrest⟩ := List.isPrefixOf_iff_prefix.mp hc
    cases hrest
    rw [readBlockString_eq h, frontOutcome_stringFront hl (Nat.zero_lt_succ 2)]
    rfl
  split
  · next hc =>
    subst hc
    rw [readString_eq h, frontOutcome_stringFront hl Nat.one_pos]
  split
  · next hc =>
    simp only [Bool.or_eq_true, Bool.and_eq_true, decide_eq_true_eq] at hc
    exact readNumber_eq hl h (hc.imp_right And.left)
  split
  · next hc => exact readWord_eq hl h hc
  · rfl

end

/-- The walk along the text ahead. -/
def scan (l : Lexer) : Except (LexicalError × Position) (List Token) :=
  scanFrom l.position 0 l.ahead

section

variable {l : Lexer} {c : Char} {cs : List Char}

theorem scanFrom_step (h : l.ahead = c :: cs) (n : Nat) :
    scanFrom (l.position.step c) n cs = (l.walk (n + 1)).scan := by
  rw [scanFrom_eq, scan, walk, h]
  rfl

theorem scan_of_gap {n : Nat} (h : l.ahead = c :: cs) (hfront : front c cs = .gap n) :
    l.scan = (l.walk (n + 1)).scan := by
  rw [← scanFrom_step h, scan, h, scanFrom_of_gap _ hfront]

theorem scan_of_token {kind : Kind} {n : Nat} (h : l.ahead = c :: cs)
    (hfront : front c cs = .token kind n) :
    l.scan = (l.walk (n + 1)).scan.map
      (⟨kind, String.ofList (l.ahead.take (n + 1)), l.position⟩ :: ·) := by
  rw [← scanFrom_step h, scan, h, scanFrom_of_token _ hfront, List.take_succ_cons]

theorem scan_of_fault {e : LexicalError} {n : Nat} (h : l.ahead = c :: cs)
    (hfront : front c cs = .fault e n) : l.scan = .error (e, (l.walk n).position) := by
  rw [scan, h, scanFrom_of_fault _ hfront, ← h]
  rfl

theorem scan_bumpWhile_isGap (l : Lexer) : (l.bumpWhile isGap).scan = l.scan := by
  rw [bumpWhile_eq (by decide)]
  cases h : l.ahead with
  | nil => rfl
  | cons c cs =>
    by_cases hc : isGap c = true
    · rw [scan_of_gap h (front_of_isGap hc), List.takeWhile_cons_of_pos hc, List.length_cons]
    · rw [List.takeWhile_cons_of_neg hc]
      rfl

end

end Lexer

/-- What a walk along the text comes to. -/
def Source.scanned (s : Source) :
    Except (LexicalError × Position) (List Token) → Except LexicalFailure (List Token)
  | .ok ts => .ok ts
  | .error (e, p) => .error ⟨e, s.place p e.message⟩

namespace Lexer

open Token

/-- What is next for a lexer: nothing, a failure, or a token and then what comes behind it. -/
inductive Reads (l : Lexer) : Except LexicalFailure (Option (Token × Lexer)) → Prop
  | done : l.scan = .ok [] → Reads l (.ok none)
  | failure {f : LexicalFailure} : l.source.scanned l.scan = .error f → Reads l (.error f)
  | token {t : Token} (n : Nat) : l.scan = (l.walk n).scan.map (t :: ·) →
      Reads l (.ok (some (t, l.walk n)))

section

variable {l : Lexer} {before : List Char}

/-- Characters that leave no token can be passed first. -/
theorem Reads.of_scan_eq {n : Nat} {r : Except LexicalFailure (Option (Token × Lexer))}
    (h : (l.walk n).Reads r) (hscan : (l.walk n).scan = l.scan) : l.Reads r := by
  cases h with
  | done h => exact .done (hscan ▸ h)
  | failure h => exact .failure (hscan ▸ h)
  | token m h =>
    rw [walk_walk] at h ⊢
    exact .token (n + m) (hscan ▸ h)

/-- Behind a gap, reading a front leaves a failure, a token, or nothing. -/
theorem reads_of_readFront {r : Except LexicalFailure (Option Token × Lexer)} {c : Char}
    {cs : List Char} (hl : l.Stands before) (hahead : (l.bumpWhile isGap).ahead = c :: cs)
    (hread : (l.bumpWhile isGap).readFront c = r) :
    (∀ f, r = .error f → l.Reads (.error f)) ∧
      (∀ t rest, r = .ok (some t, rest) → l.Reads (.ok (some (t, rest)))) ∧
      ∀ rest, r = .ok (none, rest) → ∃ n, rest = l.walk n ∧ rest.scan = l.scan := by
  have hscan := scan_bumpWhile_isGap l
  rw [bumpWhile_eq (by decide)] at hahead hread hscan
  generalize hm : (l.ahead.takeWhile isGap).length = m at hahead hread hscan
  have hgap : isGap c = false := by
    have hhead := List.head?_dropWhile_not isGap l.ahead
    have hdrop : l.ahead.dropWhile isGap = c :: cs := by
      rw [← drop_length_takeWhile, hm]
      exact hahead
    rw [hdrop] at hhead
    exact hhead
  rw [readFront_eq (hl.walk m) hahead hgap] at hread
  subst hread
  cases hfront : front c cs with
  | gap n =>
    refine ⟨nofun, nofun, ?_⟩
    rintro _ ⟨⟩
    have hrest := scan_of_gap hahead hfront
    rw [walk_walk] at hrest ⊢
    exact ⟨_, rfl, hrest.symm.trans hscan⟩
  | token kind n =>
    refine ⟨nofun, ?_, nofun⟩
    rintro _ _ ⟨⟩
    exact (Reads.token (n + 1) (scan_of_token hahead hfront)).of_scan_eq hscan
  | fault e n =>
    refine ⟨?_, nofun, nofun⟩
    rintro _ ⟨⟩
    have hfailure : (l.walk m).Reads (.error ⟨e, l.source.place ((l.walk m).walk n).position
        e.message⟩) := by
      apply Reads.failure
      rw [scan_of_fault hahead hfront]
      rfl
    exact hfailure.of_scan_eq hscan

theorem reads_nextToken (hl : l.Stands before) : l.Reads l.nextToken := by
  fun_induction nextToken l generalizing before with
  | case1 l hahead =>
    apply Reads.done
    rw [← scan_bumpWhile_isGap, scan, hahead]
    rfl
  | case2 l c cs hahead f hfront => exact (reads_of_readFront hl hahead hfront).1 f rfl
  | case3 l c cs hahead t rest hfront => exact (reads_of_readFront hl hahead hfront).2.1 t rest rfl
  | case4 l c cs hahead rest hfront ih =>
    obtain ⟨n, rfl, hscan⟩ := (reads_of_readFront hl hahead hfront).2.2 rest rfl
    exact (ih (hl.walk n)).of_scan_eq hscan

/-- A lexer reads the tokens of the text ahead, or fails where the text has a fault. -/
theorem tokens_eq (hl : l.Stands before) : l.tokens = l.source.scanned l.scan := by
  fun_induction tokens l generalizing before with
  | case1 l f h =>
    have hreads := reads_nextToken hl
    rw [h] at hreads
    cases hreads with
    | failure hscan => exact hscan.symm
  | case2 l h =>
    have hreads := reads_nextToken hl
    rw [h] at hreads
    cases hreads with
    | done hscan =>
      rw [hscan]
      rfl
  | case3 l t rest h ih =>
    have hreads := reads_nextToken hl
    rw [h] at hreads
    cases hreads with
    | token n hscan =>
      rw [ih (hl.walk n), hscan]
      cases (l.walk n).scan with
      | ok ts => rfl
      | error e => rfl

theorem stands_ofSource (s : Source) : (ofSource s).Stands [] :=
  ⟨rfl, rfl⟩

end

end Lexer

theorem Source.tokens_eq (s : Source) :
    s.tokens = s.scanned (Token.scanFrom .start 0 s.text.toList) :=
  Lexer.tokens_eq (Lexer.stands_ofSource s)

namespace Token

theorem tokens_eq_ok_iff {s : Source} {ts : List Token} :
    s.tokens = .ok ts ↔ scanFrom .start 0 s.text.toList = .ok ts := by
  rw [Source.tokens_eq]
  cases scanFrom .start 0 s.text.toList with
  | ok us => simp only [Source.scanned, Except.ok.injEq]
  | error e => exact ⟨nofun, nofun⟩

/-- A text has tokens of these kinds. -/
theorem tokens_kinds_iff {s : Source} {ks : List Kind} :
    (∃ ts, s.tokens = .ok ts ∧ ts.map (·.kind) = ks) ↔ kinds s.text.toList = .ok ks := by
  rw [← scannedKinds_scanFrom_zero .start, Source.tokens_eq]
  cases scanFrom .start 0 s.text.toList with
  | ok ts => simp [Source.scanned, scannedKinds]
  | error e => simp [Source.scanned, scannedKinds]

end Token

end ShapeModel
