import ShapeModel.Text.Ranges

/-!
# What patterns match

A form says what a pattern matches, free of how it is written. Forms are built by functions that
simplify: texts that follow each other are one text, alternatives of single characters are one set,
and what all alternatives begin with stands in front of them once. Sequences and alternatives are
chains, in which no member is a chain of the same kind.
-/

namespace ShapeModel.Pattern

set_option autoImplicit false

/-- A condition on a place in a text. -/
inductive Look
  | textStart
  | textEnd
  | lineStart
  | lineEnd
deriving DecidableEq, Repr

inductive Form
  | empty
  /-- One of several texts, none of them empty. -/
  | words (ws : List (List Char))
  /-- One character of a set in normal form. -/
  | set (rs : Text.Ranges)
  | look (l : Look)
  /-- A group and its number. -/
  | group (index : Nat) (a : Form)
  | times (a : Form) (least : Nat) (most : Option Nat) (lazy : Bool)
  | seq (a b : Form)
  | alt (a b : Form)
deriving DecidableEq, Repr

namespace Form

/-- Whether nothing but the empty text can match. -/
def takesNothing : Form → Bool
  | .empty | .look _ => true
  | .words _ | .set _ => false
  | .group _ a => a.takesNothing
  | .times a _ most _ => most.isSome && a.takesNothing
  | .seq a b | .alt a b => a.takesNothing && b.takesNothing

/-- How many characters any match has at least; none where a set without characters occurs. -/
def leastLength : Form → Option Nat
  | .empty | .look _ => some 0
  | .words ws => (ws.map List.length).min?
  | .set rs => if rs.isEmpty then none else some 1
  | .group _ a => a.leastLength
  | .times a least _ _ => a.leastLength.map (least * ·)
  | .seq a b => a.leastLength.bind fun m => b.leastLength.map (m + ·)
  | .alt a b => a.leastLength.bind fun m => b.leastLength.map (min m)

/-- Whether every match is certain to take some character. -/
def takesSome (a : Form) : Bool :=
  match a.leastLength with
  | some n => 0 < n
  | none => false

/-- Whether matches are certain to start where the text does. -/
def isAnchored : Form → Bool
  | .look l => l = .textStart
  | .empty | .words _ | .set _ => false
  | .group _ a => a.isAnchored
  | .times a least _ _ => 0 < least && a.isAnchored
  | .seq a b => a.isAnchored || (a.takesNothing && b.isAnchored)
  | .alt a b => a.isAnchored && b.isAnchored

def ofRanges : Text.Ranges → Form
  | [(low, high)] =>
    if low = high then .words [[Char.ofNat low]] else .set [(low, high)]
  | rs => .set rs

def parts : Form → List Form
  | .empty => []
  | .seq a b => a :: b.parts
  | a => [a]

def branches : Form → List Form
  | .alt a b => a :: b.branches
  | .words ws => ws.map fun w => .words [w]
  | a => [a]

/-- A part in front of others. Two texts become one. -/
def consPart : Form → List Form → List Form
  | .words [v], .words [w] :: rest => .words [v ++ w] :: rest
  | a, rest => a :: rest

def ofParts : List Form → Form
  | [] => .empty
  | [a] => a
  | a :: as => .seq a (ofParts as)

def sequence (as : List Form) : Form :=
  ofParts ((as.flatMap parts).foldr consPart [])

def ofBranches : List Form → Form
  | [] => .set []
  | [a] => a
  | a :: as => .alt a (ofBranches as)

def text? : Form → Option (List Char)
  | .words [w] => some w
  | _ => none

def character? : Form → Option Char
  | .words [[c]] => some c
  | _ => none

def set? : Form → Option Text.Ranges
  | .set rs => some rs
  | _ => none

/-- One of several forms: a set if all are characters, or all are sets. -/
def choice (as : List Form) : Form :=
  match as.mapM character?, as.mapM set?, as.mapM text? with
  | some cs, _, _ => ofRanges (Text.Ranges.normal (cs.map fun c => (c.toNat, c.toNat)))
  | none, some rss, _ => ofRanges (Text.Ranges.normal rss.flatten)
  | none, none, some ws => .words ws
  | none, none, none => ofBranches as

/-- The parts that two lists begin with. -/
def commonParts : List Form → List Form → List Form
  | a :: as, b :: bs => if a = b then a :: commonParts as bs else []
  | _, _ => []

/-- The parts of a sequence of two or more. -/
def sequenceParts : Form → List Form
  | .seq a b => a :: b.parts
  | _ => []

/-- One of several forms. If all of them are sequences that begin alike, their common parts stand in
front and the choice is between what is left. -/
def alternatives (as : List Form) : Form :=
  let as := as.flatMap branches
  match as.map sequenceParts with
  | [] => .set []
  | ps :: pss =>
    match pss.foldl commonParts ps with
    | [] => choice as
    | common =>
      let rests := as.flatMap fun a => (sequence (a.parts.drop common.length)).branches
      sequence (common ++ [choice rests])

/-- A form several times over. What takes nothing is not repeated. -/
def repetition (a : Form) (least : Nat) (most : Option Nat) (lazy : Bool) : Form :=
  let least := if a.takesNothing then min least 1 else least
  let most := if a.takesNothing then some (min (most.getD 1) 1) else most
  if most = some 0 then .empty
  else if least = 1 && most = some 1 then a
  else .times a least most lazy

end Form

end ShapeModel.Pattern
