import ShapeModel.Token
import ShapeModel.Text.Blank
import ShapeModel.Text.Letter

/-!
# From text to tokens

A lexer passes over the characters of a source and counts bytes, lines and columns as it goes. The
first characters that are not passed decide what is read next, and every reader takes as much as it
can. A token keeps what the lexer had counted where the token starts.
-/

namespace ShapeModel

set_option autoImplicit false

inductive LexicalError
  | unrecognizedCharacter (c : Char)
  | unrecognizedEscape (c : Char)
  | unterminatedString
  | corruptBlockText
deriving DecidableEq, Repr

def LexicalError.message : LexicalError → String
  | .unrecognizedCharacter c => "unrecognized character `" ++ c.toString ++ "`"
  | .unrecognizedEscape c => "unrecognized escape character `" ++ c.toString ++ "`"
  | .unterminatedString => "unterminated string"
  | .corruptBlockText => "corrupt block text delimiter"

structure LexicalFailure where
  error : LexicalError
  place : Place
deriving DecidableEq, Repr

namespace Token

def isGap (c : Char) : Bool :=
  c = ' ' || c = '\t' || c = '\r'

def grammarChars : List Char :=
  ['(', ')', '{', '}', '[', ']', ':', ',', '=']

def isGrammar (c : Char) : Bool :=
  grammarChars.contains c

def isWordChar (c : Char) : Bool :=
  Text.isAlphanumeric c || ['@', '.', '#', '$', '_'].contains c

def isNumberChar (c : Char) : Bool :=
  c.isDigit || c = '.'

/-- Blanks that indent a line of a block string. -/
def isMargin (c : Char) : Bool :=
  c = ' ' || c = '\t'

def unescape? (c : Char) : Option Char :=
  if c = 'n' then some '\n'
  else if c = 't' then some '\t'
  else if c = '"' then some '"'
  else if c = '\\' then some '\\'
  else none

/-- The lines of a block string and the indentation of its closing delimiter. -/
structure Block where
  lines : List (List Char)
  closing : Nat

def Block.push (line : List Char) (b : Block) : Block :=
  { b with lines := line :: b.lines }

def indentation (l : List Char) : Nat :=
  (l.takeWhile isMargin).length

/-- The least indentation of the closing delimiter and of the lines that are not blank. -/
def Block.indent (b : Block) : Nat :=
  ((b.lines.filter fun l => !l.all Text.isBlank).map indentation).foldl min b.closing

/-- The lines without the common indentation, each with a line feed. -/
def Block.contents (b : Block) : List Char :=
  b.lines.flatMap fun l => l.drop b.indent ++ ['\n']

end Token

structure Lexer where
  source : Source
  /-- The characters that are not passed yet. -/
  ahead : List Char
  offset : Nat
  line : Nat
  column : UInt32

namespace Lexer

open Token

def ofSource (s : Source) : Lexer :=
  ⟨s, s.text.toList, 0, 1, 1⟩

def position (l : Lexer) : Position :=
  ⟨l.offset, l.line, l.column⟩

/-- The character after `n` others, the null character behind the end. -/
def peek (l : Lexer) (n : Nat) : Char :=
  l.ahead[n]?.getD '\x00'

/-- Passes a character without counting columns or lines. -/
def next (l : Lexer) : Lexer :=
  match l.ahead with
  | [] => l
  | c :: cs => { l with ahead := cs, offset := l.offset + c.utf8Size }

/-- Passes a character on a line. -/
def bump (l : Lexer) : Lexer :=
  { l.next with column := l.column + Position.width (l.peek 0) }

/-- Passes the end of a line. -/
def newline (l : Lexer) : Lexer :=
  { l.next with line := l.line + 1, column := 1 }

theorem ahead_bump (l : Lexer) : l.bump.ahead = l.ahead.tail := by
  obtain ⟨_, cs, _, _, _⟩ := l
  cases cs <;> rfl

theorem ahead_newline (l : Lexer) : l.newline.ahead = l.ahead.tail := by
  obtain ⟨_, cs, _, _, _⟩ := l
  cases cs <;> rfl

theorem length_bump_lt {l : Lexer} {c : Char} {cs : List Char} (h : l.ahead = c :: cs) :
    l.bump.ahead.length < l.ahead.length := by
  rw [ahead_bump, h]
  exact Nat.lt_succ_self _

theorem length_bump_le (l : Lexer) : l.bump.ahead.length ≤ l.ahead.length := by
  rw [ahead_bump, List.length_tail]
  omega

theorem length_newline_le (l : Lexer) : l.newline.ahead.length ≤ l.ahead.length := by
  rw [ahead_newline, List.length_tail]
  omega

/-- Passes characters that stand a test, and gathers them. -/
def readWhile (test : Char → Bool) (l : Lexer) : List Char × Lexer :=
  match _h : l.ahead with
  | [] => ([], l)
  | c :: _ =>
    if test c then
      let (cs, rest) := readWhile test l.bump
      (c :: cs, rest)
    else ([], l)
termination_by l.ahead.length
decreasing_by exact length_bump_lt _h

def bumpWhile (test : Char → Bool) (l : Lexer) : Lexer :=
  (l.readWhile test).2

theorem length_readWhile_le (test : Char → Bool) (l : Lexer) :
    (l.readWhile test).2.ahead.length ≤ l.ahead.length := by
  fun_induction readWhile test l with
  | case1 => exact Nat.le_refl _
  | case2 l c cs h hc rest more heq ih =>
    rw [heq] at ih
    exact Nat.le_trans ih (length_bump_le l)
  | case3 => exact Nat.le_refl _

theorem length_bumpWhile_le (test : Char → Bool) (l : Lexer) :
    (l.bumpWhile test).ahead.length ≤ l.ahead.length :=
  length_readWhile_le test l

theorem length_bumpWhile_lt {test : Char → Bool} {l : Lexer} {c : Char} {cs : List Char}
    (h : l.ahead = c :: cs) (hc : test c = true) :
    (l.bumpWhile test).ahead.length < l.ahead.length := by
  unfold bumpWhile readWhile
  split
  · next hnil => cases hnil.symm.trans h
  · next d ds hcons =>
    cases h.symm.trans hcons
    rw [if_pos hc]
    exact Nat.lt_of_le_of_lt (length_readWhile_le test l.bump) (length_bump_lt h)

/-- What went wrong, at a line and a column. -/
def failure (l : Lexer) (line : Nat) (column : UInt32) (e : LexicalError) : LexicalFailure :=
  ⟨e, ⟨line, column, l.source.message line column "error" e.message⟩⟩

/-- A string that starts at a lexer and is not closed. -/
def unterminated (start : Lexer) : LexicalFailure :=
  start.failure start.line start.column .unterminatedString

/-- What was read from a lexer on up to another one. -/
def token (start rest : Lexer) (kind : Kind) : Token :=
  ⟨kind, start.source.slice start.offset rest.offset, start.position⟩

def readWord (l : Lexer) : Token × Lexer :=
  let rest := l.bumpWhile isWordChar
  (l.token rest (.word (l.source.slice l.offset rest.offset)), rest)

def readNumber (l : Lexer) : Token × Lexer :=
  let digits := if l.peek 0 = '-' then l.bump else l
  let rest := digits.bumpWhile isNumberChar
  (l.token rest (.number (l.source.slice l.offset rest.offset)), rest)

/-- Passes a comment. Three slashes make it documentation. -/
def readComment (l : Lexer) : Option Token × Lexer :=
  let slashes := l.bump.bump
  if slashes.peek 0 = '/' then
    let text := slashes.bump
    let rest := text.bumpWhile (· ≠ '\n')
    let words := Text.trim (l.source.slice text.offset rest.offset).toList
    (some (l.token rest (.documentation (String.ofList words))), rest)
  else (none, slashes.bumpWhile (· ≠ '\n'))

/-- Reads on in a quoted string up to its closing quote. -/
def readQuoted (start : Lexer) (text : String) (l : Lexer) :
    Except LexicalFailure (String × Lexer) :=
  match _h : l.ahead with
  | [] => .error start.unterminated
  | c :: cs =>
    if c = '"' then .ok (text, l.bump)
    else if c = '\n' then .error start.unterminated
    else if c = '\\' then
      match cs with
      | [] => .error start.unterminated
      | e :: _ =>
        match unescape? e with
        | some x => readQuoted start (text.push x) l.bump.bump
        | none =>
          if e = '\n' then .error start.unterminated
          else .error (l.failure start.line l.bump.column (.unrecognizedEscape e))
    else readQuoted start (text.push c) l.bump
termination_by l.ahead.length
decreasing_by
  · exact Nat.lt_of_le_of_lt (length_bump_le l.bump) (length_bump_lt _h)
  · exact length_bump_lt _h

def readString (l : Lexer) : Except LexicalFailure (Token × Lexer) :=
  match readQuoted l "" l.bump with
  | .ok (text, rest) => .ok (l.token rest (.string text), rest)
  | .error f => .error f

/-- Three quotes open and close a block string. -/
def isBlockDelimiter (l : Lexer) : Bool :=
  l.peek 0 = '"' && l.peek 1 = '"' && l.peek 2 = '"'

/-- Reads on in a line of a block string up to its end. No delimiter may stand in it. -/
def readLine (l : Lexer) : Except LexicalFailure (List Char × Lexer) :=
  match _h : l.ahead with
  | [] => .ok ([], l)
  | c :: _ =>
    if c = '\n' then .ok ([], l)
    else if l.isBlockDelimiter then .error (l.failure l.line l.column .corruptBlockText)
    else
      match readLine l.bump with
      | .ok (cs, rest) => .ok (c :: cs, rest)
      | .error f => .error f
termination_by l.ahead.length
decreasing_by exact length_bump_lt _h

theorem length_readLine_le {l rest : Lexer} {cs : List Char} (h : l.readLine = .ok (cs, rest)) :
    rest.ahead.length ≤ l.ahead.length := by
  fun_induction readLine l generalizing cs with
  | case1 => cases h; exact Nat.le_refl _
  | case2 => cases h; exact Nat.le_refl _
  | case3 => cases h
  | case4 l c ds hl hc hdelimiter es more heq ih =>
    cases h
    exact Nat.le_trans (ih heq) (length_bump_le l)
  | case5 => cases h

/-- Reads on in a block string, from the start of a line up to the closing delimiter, which is the
first thing on a line. -/
def readBlock (start l : Lexer) : Except LexicalFailure (Block × Lexer) :=
  let margin := (l.readWhile isMargin).1
  let text := (l.readWhile isMargin).2
  if text.ahead.isEmpty then .error start.unterminated
  else if text.isBlockDelimiter then .ok (⟨[], margin.length⟩, text.bump.bump.bump)
  else
    match _hline : text.readLine with
    | .error f => .error f
    | .ok (cs, feed) =>
      match _hfeed : feed.ahead with
      | [] => .error start.unterminated
      | _ :: _ =>
        match readBlock start feed.newline with
        | .ok (b, rest) => .ok (b.push (Text.dropReturn (margin ++ cs)), rest)
        | .error f => .error f
termination_by l.ahead.length
decreasing_by
  have hle := Nat.le_trans (length_readLine_le _hline) (length_readWhile_le isMargin l)
  rw [_hfeed, List.length_cons] at hle
  rw [ahead_newline, _hfeed, List.tail_cons]
  omega

/-- Reads a block string. Nothing else may stand on the line of its opening delimiter. -/
def readBlockString (l : Lexer) : Except LexicalFailure (Token × Lexer) :=
  let opened := l.bump.bump.bump.bumpWhile isGap
  if opened.ahead.isEmpty then .error l.unterminated
  else if opened.peek 0 ≠ '\n' then
    .error (opened.failure opened.line opened.column .corruptBlockText)
  else
    match readBlock l opened.newline with
    | .ok (b, rest) => .ok (l.token rest (.string (String.ofList b.contents)), rest)
    | .error f => .error f

/-- Reads what starts with this character, which is no gap. A comment leaves no token. -/
def readFront (l : Lexer) (c : Char) : Except LexicalFailure (Option Token × Lexer) :=
  if c = '\n' then .ok (some (l.token l.newline .newline), l.newline)
  else if c = '/' && l.peek 1 = '/' then .ok l.readComment
  else if isGrammar c then .ok (some (l.token l.bump (.grammar c)), l.bump)
  else if l.isBlockDelimiter then l.readBlockString.map (Prod.map some id)
  else if c = '"' then l.readString.map (Prod.map some id)
  else if c.isDigit || (c = '-' && (l.peek 1).isDigit) then .ok (l.readNumber.map some id)
  else if isWordChar c then .ok (l.readWord.map some id)
  else .error (l.failure l.line l.column (.unrecognizedCharacter c))

section

variable {l rest : Lexer} {c : Char} {cs : List Char}

theorem length_readNumber_lt (h : l.ahead = c :: cs) (hc : c.isDigit = true ∨ c = '-') :
    l.readNumber.2.ahead.length < l.ahead.length := by
  have hpeek : l.peek 0 = c := by
    rw [peek, h]
    rfl
  unfold readNumber
  rw [hpeek]
  by_cases hminus : c = '-'
  · rw [if_pos hminus]
    exact Nat.lt_of_le_of_lt (length_bumpWhile_le _ _) (length_bump_lt h)
  · rw [if_neg hminus]
    exact length_bumpWhile_lt h (Bool.or_eq_true_iff.mpr (.inl (hc.resolve_right hminus)))

theorem length_readComment_lt (h : l.ahead = c :: cs) :
    l.readComment.2.ahead.length < l.ahead.length := by
  have hbump := length_bump_lt h
  have hbump' := length_bump_le l.bump
  have hbump'' := length_bump_le l.bump.bump
  have hdocumentation := length_bumpWhile_le (· ≠ '\n') l.bump.bump.bump
  have hcomment := length_bumpWhile_le (· ≠ '\n') l.bump.bump
  simp only [readComment]
  split
  · simp only
    omega
  · simp only
    omega

theorem length_readQuoted_le {start : Lexer} {text text' : String}
    (h : readQuoted start text l = .ok (text', rest)) :
    rest.ahead.length ≤ l.ahead.length := by
  fun_induction readQuoted start text l with
  | case2 =>
    cases h
    exact length_bump_le _
  | case5 =>
    rename_i ih
    exact Nat.le_trans (ih h) (Nat.le_trans (length_bump_le _) (length_bump_le _))
  | case8 =>
    rename_i ih
    exact Nat.le_trans (ih h) (length_bump_le _)
  | _ => cases h

theorem length_readString_lt {t : Token} (h : l.ahead = c :: cs)
    (hread : l.readString = .ok (t, rest)) : rest.ahead.length < l.ahead.length := by
  unfold readString at hread
  split at hread
  · next hquoted =>
    cases hread
    exact Nat.lt_of_le_of_lt (length_readQuoted_le hquoted) (length_bump_lt h)
  · cases hread

theorem length_readBlock_le {start : Lexer} {b : Block} (h : readBlock start l = .ok (b, rest)) :
    rest.ahead.length ≤ l.ahead.length := by
  fun_induction readBlock start l generalizing b with
  | case2 l _ text =>
    cases h
    have hmargin : text.ahead.length ≤ l.ahead.length := length_readWhile_le isMargin l
    have hfirst := length_bump_le text
    have hsecond := length_bump_le text.bump
    have hthird := length_bump_le text.bump.bump
    omega
  | case5 l _ text =>
    rename_i feed hline _ _ _ _ _ hblock ih
    cases h
    have hmargin : text.ahead.length ≤ l.ahead.length := length_readWhile_le isMargin l
    have hfeed := length_newline_le feed
    have hle := length_readLine_le hline
    have hrest := ih hblock
    omega
  | _ => cases h

theorem length_readBlockString_lt {t : Token} (h : l.ahead = c :: cs)
    (hread : l.readBlockString = .ok (t, rest)) : rest.ahead.length < l.ahead.length := by
  have hfirst := length_bump_lt h
  have hsecond := length_bump_le l.bump
  have hthird := length_bump_le l.bump.bump
  have hgap := length_bumpWhile_le isGap l.bump.bump.bump
  have hfeed := length_newline_le (l.bump.bump.bump.bumpWhile isGap)
  simp only [readBlockString] at hread
  split at hread
  · cases hread
  split at hread
  · cases hread
  split at hread
  · next hblock =>
    cases hread
    have hle := length_readBlock_le hblock
    omega
  · cases hread

theorem ok_of_map_some {α : Type} {x : Except LexicalFailure (α × Lexer)} {a : Option α}
    (h : x.map (Prod.map some id) = .ok (a, rest)) : ∃ b, x = .ok (b, rest) := by
  cases x with
  | error f => cases h
  | ok r =>
    cases h
    exact ⟨_, rfl⟩

/-- Whatever is read, a character is passed. -/
theorem length_readFront_lt {t : Option Token} (h : l.ahead = c :: cs)
    (hread : l.readFront c = .ok (t, rest)) : rest.ahead.length < l.ahead.length := by
  unfold readFront at hread
  split at hread
  · cases hread
    rw [ahead_newline, h]
    exact Nat.lt_succ_self _
  split at hread
  · have hrest : l.readComment.2 = rest := congrArg Prod.snd (Except.ok.inj hread)
    rw [← hrest]
    exact length_readComment_lt h
  split at hread
  · cases hread
    exact length_bump_lt h
  split at hread
  · obtain ⟨_, hblock⟩ := ok_of_map_some hread
    exact length_readBlockString_lt h hblock
  split at hread
  · obtain ⟨_, hstring⟩ := ok_of_map_some hread
    exact length_readString_lt h hstring
  split at hread
  · next hc =>
    cases hread
    apply length_readNumber_lt h
    simp only [Bool.or_eq_true, Bool.and_eq_true, decide_eq_true_eq] at hc
    exact hc.imp_right And.left
  split at hread
  · next hc =>
    cases hread
    exact length_bumpWhile_lt h hc
  · cases hread

end

/-- The next token and what comes after it, if there is one. -/
def nextToken (l : Lexer) : Except LexicalFailure (Option (Token × Lexer)) :=
  match _hahead : (l.bumpWhile isGap).ahead with
  | [] => .ok none
  | c :: _ =>
    match _hfront : (l.bumpWhile isGap).readFront c with
    | .error f => .error f
    | .ok (some t, rest) => .ok (some (t, rest))
    | .ok (none, rest) => nextToken rest
termination_by l.ahead.length
decreasing_by
  exact Nat.lt_of_lt_of_le (length_readFront_lt _hahead _hfront) (length_bumpWhile_le isGap l)

theorem length_nextToken_lt {l rest : Lexer} {t : Token}
    (h : l.nextToken = .ok (some (t, rest))) : rest.ahead.length < l.ahead.length := by
  fun_induction nextToken l with
  | case3 l =>
    rename_i hahead _ _ hfront
    cases h
    exact Nat.lt_of_lt_of_le (length_readFront_lt hahead hfront) (length_bumpWhile_le isGap l)
  | case4 l =>
    rename_i hahead _ hfront ih
    have hlt := length_readFront_lt hahead hfront
    exact Nat.lt_trans (ih h) (Nat.lt_of_lt_of_le hlt (length_bumpWhile_le isGap l))
  | _ => cases h

/-- All tokens that are ahead. -/
def tokens (l : Lexer) : Except LexicalFailure (List Token) :=
  match _h : l.nextToken with
  | .error f => .error f
  | .ok none => .ok []
  | .ok (some (t, rest)) => (tokens rest).map (t :: ·)
termination_by l.ahead.length
decreasing_by exact length_nextToken_lt _h

end Lexer

def Source.tokens (s : Source) : Except LexicalFailure (List Token) :=
  (Lexer.ofSource s).tokens

end ShapeModel
