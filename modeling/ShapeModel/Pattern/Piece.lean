import ShapeModel.Number.Literal
import ShapeModel.Pattern.Class

/-!
# The pieces of a pattern

A pattern is written as a sequence of pieces: places that match one character, ends of the text,
bars, repetitions and the two ends of groups. A text that is no sequence of pieces is refused.
-/

namespace ShapeModel.Pattern

set_option autoImplicit false

/-- How the rest of a group matches. -/
structure Flags where
  ignoreCase : Bool
  /-- A point matches line feeds too. -/
  dotAll : Bool
  /-- The ends of lines count as ends. -/
  multiLine : Bool
deriving DecidableEq, Repr

def Flags.none : Flags := ⟨false, false, false⟩

inductive Piece
  /-- A place that matches one character, and how deep its class is nested. -/
  | place (k : CharClass) (height : Nat)
  | point
  | atStart
  | atEnd
  /-- Ends of the whole text, whatever the flags. -/
  | textStart
  | textEnd
  | bar
  /-- A repetition, which prefers few rounds if `lazy`. -/
  | times (least : Nat) (most : Option Nat) (lazy : Bool)
  /-- A group, which has a number or may change the flags. -/
  | opening (numbered : Bool) (change : Flags → Flags)
  /-- A change of flags in the group it stands in. -/
  | flags (change : Flags → Flags)
  | closing

/-- Characters that stand for themselves behind a backslash. -/
def isEscapable (c : Char) : Bool :=
  c.toNat < 128 && !c.isAlphanum && c ≠ '<' && c ≠ '>'

/-- What a backslash and a character stand for inside a class. -/
def classEscape? (c : Char) : Option ClassItem :=
  match c with
  | 'd' => some (.digit false)
  | 'D' => some (.digit true)
  | 'w' => some (.word false)
  | 'W' => some (.word true)
  | 's' => some (.space false)
  | 'S' => some (.space true)
  | 'n' => some (.range '\n' '\n')
  | 't' => some (.range '\t' '\t')
  | 'r' => some (.range '\r' '\r')
  | 'f' => some (.range (Char.ofNat 12) (Char.ofNat 12))
  | 'v' => some (.range (Char.ofNat 11) (Char.ofNat 11))
  | 'a' => some (.range (Char.ofNat 7) (Char.ofNat 7))
  | c => if isEscapable c then some (.range c c) else none

/-- A piece and the number of characters it takes behind its first one. -/
abbrev Taken := Piece × Nat

def escapePiece? : List Char → Option Taken
  | [] => none
  | 'A' :: _ => some (.textStart, 1)
  | 'z' :: _ => some (.textEnd, 1)
  | c :: _ => (classEscape? c).map fun i => (.place ⟨false, [i]⟩ 0, 1)

/-- One member of a class and its length. -/
def classMember? : List Char → Option (ClassItem × Nat)
  | [] => none
  | '\\' :: c :: _ => (classEscape? c).map (·, 2)
  | '\\' :: [] => none
  | c :: _ => some (.range c c, 1)

/-- A member or a range of members, which goes from a character to one that is not below it. -/
def classItem? (cs : List Char) : Option (ClassItem × Nat) :=
  match classMember? cs with
  | none => none
  | some (item, n) =>
    match cs.drop n with
    | '-' :: ']' :: _ => some (item, n)
    | '-' :: rest =>
      match item, classMember? rest with
      | .range low _, some (.range high _, m) =>
        if low ≤ high then some (.range low high, n + 1 + m) else none
      | _, _ => none
    | _ => some (item, n)

/-- The items of a class through the closing bracket, with their length. The first `pending`
characters belong to what was read before. -/
def classItems? (pending : Nat) : List Char → Option (List ClassItem × Nat)
  | [] => none
  | c :: cs =>
    match pending with
    | n + 1 => (classItems? n cs).map fun (items, m) => (items, m + 1)
    | 0 =>
      if c = ']' then some ([], 1)
      else if c = '[' then none
      else
        match classItem? (c :: cs) with
        | none => none
        | some (item, n) =>
          (classItems? (n - 1) cs).map fun (items, m) => (item :: items, m + 1)

/-- What is a member at the front of a class though it would not be one behind it: hyphens, or else
a closing bracket. -/
def classFront (cs : List Char) : List Char :=
  match cs with
  | ']' :: _ => [']']
  | cs => cs.takeWhile (· = '-')

def classPiece? (cs : List Char) : Option Taken :=
  let caret := cs.takeWhile (· = '^') |>.take 1
  let front := classFront (cs.drop caret.length)
  let n := caret.length + front.length
  (classItems? 0 (cs.drop n)).map fun (rest, m) =>
    let items := front.map (fun c => .range c c) ++ rest
    (.place ⟨!caret.isEmpty, items⟩ (if items.length = 1 then 1 else 2), n + m)

/-- A bound of a repetition with the blanks around it, and its length. -/
def bound? (cs : List Char) : Option (Nat × Nat) :=
  let lead := cs.takeWhile Text.isBlank
  let digits := (cs.drop lead.length).takeWhile Char.isDigit
  let tail := (cs.drop (lead.length + digits.length)).takeWhile Text.isBlank
  let n := Number.digitsToNat digits
  if digits.isEmpty || 2 ^ 32 ≤ n then none
  else some (n, lead.length + digits.length + tail.length)

def timesPiece? (cs : List Char) : Option Taken :=
  match bound? cs with
  | none => none
  | some (least, n) =>
    match cs.drop n with
    | '}' :: _ => some (.times least (some least) false, n + 1)
    | ',' :: '}' :: _ => some (.times least none false, n + 2)
    | ',' :: rest =>
      match bound? rest with
      | none => none
      | some (most, m) =>
        match rest.drop m with
        | '}' :: _ =>
          if least ≤ most then some (.times least (some most) false, n + m + 2) else none
        | _ => none
    | _ => none

def flagChange? (on : Bool) (c : Char) : Option (Flags → Flags) :=
  match c with
  | 'i' => some fun f => { f with ignoreCase := on }
  | 's' => some fun f => { f with dotAll := on }
  | 'm' => some fun f => { f with multiLine := on }
  | 'U' | 'u' => some id
  | _ => none

/-- The flags of a group after `(?`, through `)` or `:`. No flag comes twice. -/
def flagsPiece? (seen : List Char) (on : Bool) (change : Flags → Flags) (n : Nat) :
    List Char → Option Taken
  | [] => none
  | ')' :: _ => some (.flags change, n + 1)
  | ':' :: _ => some (.opening false change, n + 1)
  | '-' :: ')' :: _ | '-' :: ':' :: _ => none
  | '-' :: cs => if on then flagsPiece? seen false change (n + 1) cs else none
  | c :: cs =>
    match flagChange? on c with
    | some f =>
      if seen.contains c then none else flagsPiece? (c :: seen) on (f ∘ change) (n + 1) cs
    | none => none

/-- The name of a group through its closing angle bracket. -/
def groupName? (n : Nat) (cs : List Char) : Option Taken :=
  let name := cs.takeWhile fun c => c.isAlphanum || c = '_'
  match name, cs.drop name.length with
  | c :: _, '>' :: _ => if c.isDigit then none else some (.opening true id, n + name.length + 1)
  | _, _ => none

def groupPiece? (cs : List Char) : Option Taken :=
  match cs with
  | '?' :: 'P' :: '<' :: rest => groupName? 3 rest
  | '?' :: '<' :: rest => groupName? 2 rest
  | '?' :: ')' :: _ => none
  | '?' :: rest => flagsPiece? [] true id 1 rest
  | _ => some (.opening true id, 0)

/-- A repetition and the question mark behind it, if there is one. -/
def repeated (t : Taken) (cs : List Char) : Taken :=
  match t.1, cs.drop t.2 with
  | .times least most _, '?' :: _ => (.times least most true, t.2 + 1)
  | _, _ => t

def piece? (c : Char) (cs : List Char) : Option Taken :=
  match c with
  | '\\' => escapePiece? cs
  | '[' => classPiece? cs
  | '(' => groupPiece? cs
  | ')' => some (.closing, 0)
  | '|' => some (.bar, 0)
  | '.' => some (.point, 0)
  | '^' => some (.atStart, 0)
  | '$' => some (.atEnd, 0)
  | '*' => some (repeated (.times 0 none false, 0) cs)
  | '+' => some (repeated (.times 1 none false, 0) cs)
  | '?' => some (repeated (.times 0 (some 1) false, 0) cs)
  | '{' => (timesPiece? cs).map (repeated · cs)
  | c => some (.place (.single c) 0, 0)

/-- The pieces of a pattern. The first `pending` characters belong to what was read before. -/
def pieces? (pending : Nat) : List Char → Option (List Piece)
  | [] => some []
  | c :: cs =>
    match pending with
    | n + 1 => pieces? n cs
    | 0 =>
      match piece? c cs with
      | none => none
      | some (p, n) => (pieces? n cs).map (p :: ·)

end ShapeModel.Pattern
