import ShapeModel.Pattern.Form

/-!
# Patterns laid over a text

Matching goes by sets of places, where place `i` stands behind the first `i` characters of a text.
A pattern leads from the places where a match may start to all the places where it may end. A set
of places is a number whose bit `i` tells whether place `i` belongs to it, so a whole set takes a
step at once.
-/

namespace ShapeModel.Pattern

set_option autoImplicit false

abbrev Places := Nat

namespace Places

/-- The places in front of the characters that a test passes. -/
def inFrontOf (test : Char → Bool) (cs : List Char) : Places :=
  cs.foldr (fun c s => 2 * s + (if test c then 1 else 0)) 0

def all (cs : List Char) : Places :=
  1 <<< (cs.length + 1) - 1

def diff (s t : Places) : Places :=
  s ^^^ (s &&& t)

end Places

/-- A pattern with what one text says about its places. -/
inductive Layout
  /-- A match that takes nothing, at some places. -/
  | stay (s : Places)
  /-- A match that takes one character, from some places on. -/
  | step (s : Places)
  | seq (a b : Layout)
  | alt (a b : Layout)
  | times (a : Layout) (least : Nat) (rounds : Nat)

/-- Rounds until no new place is reached, up to a bound. -/
def reach (step : Places → Places) : Nat → Places → Places → Places
  | 0, seen, _ => seen
  | n + 1, seen, fresh =>
    let more := Places.diff (step fresh) seen
    if more = 0 then seen else reach step n (seen ||| more) more

/-- The places after so many rounds. Once a round changes nothing, no further one does. -/
def exactly (step : Places → Places) : Nat → Places → Places
  | 0, s => s
  | n + 1, s =>
    let t := step s
    if t = s then s else exactly step n t

/-- The places where matches that start at given places can end. -/
def Layout.ends : Layout → Places → Places
  | .stay t, s => s &&& t
  | .step t, s => 2 * (s &&& t)
  | .seq a b, s => b.ends (a.ends s)
  | .alt a b, s => a.ends s ||| b.ends s
  | .times a least rounds, s =>
    let t := exactly a.ends least s
    reach a.ends rounds t t

def Look.places (cs : List Char) : Look → Places
  | .textStart => 1
  | .textEnd => 1 <<< cs.length
  | .lineStart => 1 ||| 2 * Places.inFrontOf (· = '\n') cs
  | .lineEnd => 1 <<< cs.length ||| Places.inFrontOf (· = '\n') cs

namespace Form

def layWord (cs : List Char) : List Char → Layout
  | [] => .stay (Places.all cs)
  | [c] => .step (Places.inFrontOf (· = c) cs)
  | c :: w => .seq (.step (Places.inFrontOf (· = c) cs)) (layWord cs w)

/-- A form laid over a text. No number of rounds can lead to more new places than the text has. -/
def lay (cs : List Char) : Form → Layout
  | .empty => .stay (Places.all cs)
  | .words ws => ws.foldr (fun w l => .alt (layWord cs w) l) (.stay 0)
  | .set rs => .step (Places.inFrontOf rs.has cs)
  | .look l => .stay (l.places cs)
  | .group _ a => a.lay cs
  | .times a least most _ =>
    let rounds := match most with
      | some m => min (m - least) (cs.length + 1)
      | none => cs.length + 1
    .times (a.lay cs) least rounds
  | .seq a b => .seq (a.lay cs) (b.lay cs)
  | .alt a b => .alt (a.lay cs) (b.lay cs)

def isFoundIn (a : Form) (text : String) : Bool :=
  let cs := text.toList
  (a.lay cs).ends (Places.all cs) ≠ 0

end Form

end ShapeModel.Pattern
