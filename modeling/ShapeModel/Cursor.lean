import ShapeModel.Token.Lexer

/-!
# Cursors

A place between the tokens of a source: those already passed, the nearest first, and those ahead. A
reader moves a cursor forward; when it fails, its outcome says where it stopped. Every outcome of
success carries the proof that few enough tokens are left, which is why loops of readers end.
-/

namespace ShapeModel

set_option autoImplicit false

inductive SyntaxError
  | unexpectedToken (found expected : String)
  | unexpectedEnd (expected : String)
  | unattachedTraits
  | duplicateNamespace
  | declarationAfterShapes (keyword : String)
  | applyToUndeclaredShape (id : String)
  | duplicateShape (id : String)
  | identifierInMetadata (name : String)
deriving DecidableEq, Repr

def SyntaxError.message : SyntaxError → String
  | .unexpectedToken found expected =>
    "unexpected token `" ++ found ++ "`, expecting " ++ expected
  | .unexpectedEnd expected => "unexpected end of input, expecting " ++ expected
  | .unattachedTraits => "traits not attached to a shape"
  | .duplicateNamespace => "namespace has already been declared"
  | .declarationAfterShapes keyword =>
    "`" ++ keyword ++ "` must appear before any shape declaration"
  | .applyToUndeclaredShape id =>
    "cannot apply traits to `" ++ id ++ "`, shape has not been declared"
  | .duplicateShape id => "shape `" ++ id ++ "` has already been declared"
  | .identifierInMetadata name =>
    "identifier `" ++ name ++ "` is not allowed in a metadata value"

/-- A syntax error, with its place unless it is left to the caller to find. -/
structure SyntaxFailure where
  error : SyntaxError
  place : Option Place
deriving DecidableEq, Repr

structure Cursor where
  source : Source
  passed : List Token
  ahead : List Token

/-- The number of tokens ahead. -/
def Cursor.left (c : Cursor) : Nat :=
  c.ahead.length

/-- The end of a reader that started with fewer than `bound` tokens ahead, or with exactly `bound`
if it has to move on. -/
inductive Outcome (α : Type) (bound : Nat)
  | ok (value : α) (rest : Cursor) (fewer : rest.left < bound)
  | failed (failure : SyntaxFailure) (rest : Cursor)

namespace Cursor

def ofTokens (s : Source) (ts : List Token) : Cursor :=
  ⟨s, [], ts⟩

def peek? (c : Cursor) : Option Token.Kind :=
  c.ahead.head?.map (·.kind)

/-- The token `n` places behind the next one. -/
def peekAhead? (c : Cursor) (n : Nat) : Option Token.Kind :=
  c.ahead[n]?.map (·.kind)

def advance (c : Cursor) : Cursor :=
  match c.ahead with
  | [] => c
  | t :: ts => ⟨c.source, t :: c.passed, ts⟩

def back (c : Cursor) : Cursor :=
  match c.passed with
  | [] => c
  | t :: ts => ⟨c.source, ts, t :: c.ahead⟩

def skipNewlinesFrom (s : Source) (passed : List Token) : List Token → Cursor
  | [] => ⟨s, passed, []⟩
  | t :: ts =>
    if t.kind = .newline then skipNewlinesFrom s (t :: passed) ts else ⟨s, passed, t :: ts⟩

def skipNewlines (c : Cursor) : Cursor :=
  skipNewlinesFrom c.source c.passed c.ahead

def skipNewline (c : Cursor) : Cursor :=
  if c.peek? = some .newline then c.advance else c

def isGrammar (c : Cursor) (ch : Char) : Bool :=
  c.peek? = some (.grammar ch)

def isWord (c : Cursor) (w : String) : Bool :=
  c.peek? = some (.word w)

def skipGrammar (c : Cursor) (ch : Char) : Cursor :=
  if c.isGrammar ch then c.advance else c

/-- The token ahead, or at the end the last one. -/
def current? (c : Cursor) : Option Token :=
  match c.ahead with
  | t :: _ => some t
  | [] => c.passed.head?

def place? (c : Cursor) (text : String) : Option Place :=
  c.current?.map fun t => c.source.place t.position text

def failure (c : Cursor) (e : SyntaxError) : SyntaxFailure :=
  ⟨e, c.place? e.message⟩

/-- The next token, or the end of the input, is not what has to come here. -/
def unexpected (c : Cursor) (expected : String) : SyntaxFailure :=
  match c.peek? with
  | some k => c.failure (.unexpectedToken k.toText expected)
  | none => c.failure (.unexpectedEnd expected)

theorem left_lt_succ (c : Cursor) : c.left < c.left + 1 :=
  Nat.lt_succ_self _

theorem left_lt_succ_of_lt {a b c : Cursor} (h : b.left < a.left) (h' : c.left < b.left + 1) :
    c.left < a.left + 1 :=
  Nat.lt_trans h' (Nat.succ_lt_succ h)

theorem left_lt_of_lt_succ {a b c : Cursor} (h : b.left < a.left + 1) (h' : c.left < b.left) :
    c.left < a.left :=
  Nat.lt_of_lt_of_le h' (Nat.le_of_lt_succ h)

theorem left_advance_le (c : Cursor) : c.advance.left ≤ c.left := by
  unfold advance
  split <;> simp_all [left]

theorem left_advance_lt {c : Cursor} {k : Token.Kind} (h : c.peek? = some k) :
    c.advance.left < c.left := by
  unfold advance
  split <;> simp_all [peek?, left]

theorem left_skipNewlinesFrom_le (s : Source) (passed ts : List Token) :
    (skipNewlinesFrom s passed ts).left ≤ ts.length := by
  induction ts generalizing passed with
  | nil => simp [skipNewlinesFrom, left]
  | cons t ts ih =>
    unfold skipNewlinesFrom
    split
    · exact Nat.le_succ_of_le (ih _)
    · simp [left]

theorem left_skipNewlines_le (c : Cursor) : c.skipNewlines.left ≤ c.left :=
  left_skipNewlinesFrom_le _ _ _

theorem left_skipNewline_le (c : Cursor) : c.skipNewline.left ≤ c.left := by
  unfold skipNewline
  split
  · exact left_advance_le c
  · exact Nat.le_refl _

theorem left_skipGrammar_le (c : Cursor) (ch : Char) : (c.skipGrammar ch).left ≤ c.left := by
  unfold skipGrammar
  split
  · exact left_advance_le c
  · exact Nat.le_refl _

theorem left_advance_of_isGrammar {c : Cursor} {ch : Char} (h : c.isGrammar ch) :
    c.advance.left < c.left :=
  left_advance_lt (of_decide_eq_true h)

def expect {α : Type} (c : Cursor) (read : Token.Kind → Option α) (expected : String) :
    Outcome α c.left :=
  match h : c.peek? with
  | some k =>
    match read k with
    | some a => .ok a c.advance (left_advance_lt h)
    | none => .failed (c.unexpected expected) c
  | none => .failed (c.unexpected expected) c

def expectGrammar (c : Cursor) (ch : Char) : Outcome Unit c.left :=
  c.expect (fun k => if k = .grammar ch then some () else none) ("`" ++ ch.toString ++ "`")

def expectWord (c : Cursor) : Outcome String c.left :=
  c.expect (fun k => match k with | .word w => some w | _ => none) "an identifier"

/-- The name of a field: a bare word or a quoted string. -/
def expectKey (c : Cursor) : Outcome String c.left :=
  c.expect (fun k => match k with | .word w => some w | .string s => some s | _ => none)
    "an identifier or string"

def expectString (c : Cursor) : Outcome String c.left :=
  c.expect (fun k => match k with | .string s => some s | _ => none) "a string"

/-- The end of an entry in a body: a comma or a line break, which is passed, or the closing
character, which is not. -/
def expectSeparator (c : Cursor) (close : Char) : Outcome Unit (c.left + 1) :=
  match c.peek? with
  | some k =>
    if k = .grammar ',' ∨ k = .newline then
      .ok () c.advance (Nat.lt_succ_of_le (left_advance_le c))
    else if k = .grammar close then .ok () c (Nat.lt_succ_self _)
    else .failed (c.unexpected ("`,`, newline or `" ++ close.toString ++ "`")) c
  | none => .failed (c.unexpected ("`,`, newline or `" ++ close.toString ++ "`")) c

/-- The end of a statement: a line break or the end of the input. -/
def endStatement (c : Cursor) : Outcome Unit (c.left + 1) :=
  match c.peek? with
  | none => .ok () c (Nat.lt_succ_self _)
  | some k =>
    if k = .newline then .ok () c.advance (Nat.lt_succ_of_le (left_advance_le c))
    else .failed (c.unexpected "a newline") c

end Cursor

end ShapeModel
