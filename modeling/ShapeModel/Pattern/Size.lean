import ShapeModel.Pattern.Bytes
import ShapeModel.Pattern.Form
import Std.Data.HashMap

/-!
# The size of a pattern's automaton

A pattern is refused if the automaton that reads texts for it byte by byte would be too large. A
state takes 32 bytes. One that tells several ranges of bytes apart takes 8 more for each of them,
and one that only forks takes 4 more for each way out. Repetitions are written out as often as they
say, so the size is counted part by part, and the count stops where the limit is passed.
-/

namespace ShapeModel.Pattern

set_option autoImplicit false

structure Size where
  states : Nat
  linkBytes : Nat
deriving DecidableEq, Repr

namespace Size

def bytes (s : Size) : Nat := 32 * s.states + s.linkBytes

/-- Ten mebibytes. -/
def limit : Nat := 10 * (1 <<< 20)

/-- A larger size, unless it passes the limit. -/
def grow? (s : Size) (states linkBytes : Nat) : Option Size :=
  let t : Size := ⟨s.states + states, s.linkBytes + linkBytes⟩
  if t.bytes ≤ limit then some t else none

end Size

/-- A link of a state: a range of bytes and the number of the state behind it. -/
abbrev Link := UInt8 × UInt8 × Nat

/-- The states of a set while they are written. Equal states are written once as long as they are
remembered; there are 10000 slots for that, each of which holds the last state that fell into it. -/
structure Notes where
  size : Size
  slots : Std.HashMap UInt64 (List Link × Nat)

/-- The slot of a state: a multiplicative hash of its links. -/
def slotOf (links : List Link) : UInt64 :=
  let mix (h x : UInt64) : UInt64 := (h ^^^ x) * 0x100000001b3
  links.foldl (fun h l => mix (mix (mix h l.1.toUInt64) l.2.1.toUInt64) l.2.2.toUInt64)
    0xcbf29ce484222325 % 10000

/-- The number of a state with given links, which is written unless it is remembered. -/
def Notes.state (n : Notes) (links : List Link) : Nat × Notes :=
  let slot := slotOf links
  let number := n.size.states
  let size : Size := ⟨number + 1, n.size.linkBytes + 8 * links.length⟩
  let written : Nat × Notes := (number, ⟨size, n.slots.insert slot (links, number)⟩)
  match n.slots[slot]? with
  | some (known, earlier) => if known = links then (earlier, n) else written
  | none => written

/-- The links that lead into a tree, whose states are written first. Its ends are one state. -/
def Notes.links (goal : Nat) : ByteTree → Notes → List Link × Notes
  | .done, n => ([], n)
  | .link low high below next, n =>
    let (ls, n) := Notes.links goal below n
    let (number, n) := if ls.isEmpty then (goal, n) else n.state ls
    let (more, n) := Notes.links goal next n
    ((low, high, number) :: more, n)

/-- The size with a set that is not all ASCII. -/
def Size.withTree (t : ByteTree) (s : Size) : Size :=
  let (ls, n) := Notes.links s.states t ⟨⟨s.states + 1, s.linkBytes⟩, ∅⟩
  (n.state ls).2.size

/-- Stretches of words between empty ones. -/
def stretches : List (List UInt8) → List (List (List UInt8))
  | [] => [[]]
  | [] :: ws => [] :: stretches ws
  | w :: ws =>
    match stretches ws with
    | [] => [[w]]
    | c :: cs => (w :: c) :: cs

/-- What is behind each byte that the words start with. -/
def behindFirst (ws : List (List UInt8)) : List (List (List UInt8)) :=
  (ws.filterMap List.head?).eraseDups.map fun b =>
    ws.filterMap fun w => if w.head? = some b then some w.tail else none

/-- The size of a tree of words that share what they begin with, down to some depth. A word that
ends inside the tree parts the ways out there, as it goes before the later ones. -/
def wordTree : Nat → List (List UInt8) → Size
  | 0, _ => ⟨0, 0⟩
  | depth + 1, ws =>
    if ws.all List.isEmpty then ⟨0, 0⟩
    else
      let ends := (ws.takeWhile List.isEmpty).length
      let parts := stretches (ws.drop (ends - 1))
      let tails := (parts.filter (!·.isEmpty)).map behindFirst
      let ways := tails.length + (parts.length - 1)
      tails.foldl (fun s ts =>
          ts.foldl (fun s t =>
              let below := wordTree depth t
              ⟨s.states + below.states, s.linkBytes + below.linkBytes⟩)
            ⟨s.states + 1, s.linkBytes + (if ts.length = 1 then 0 else 8 * ts.length)⟩)
        ⟨1, 4 * ways⟩

/-- An automaton up to the end of a part. -/
structure Grown where
  size : Size
  /-- Whether the last state has any number of ways out, so that one more makes it larger. -/
  forks : Bool

/-- What adding a part does to an automaton. -/
abbrev Growth := Size → Option Grown

/-- The size with what follows, of which the way there is a part. -/
def Grown.extend? (g : Grown) (states linkBytes : Nat) : Option Size :=
  g.size.grow? states (linkBytes + if g.forks then 4 else 0)

namespace Growth

def plain (states linkBytes : Nat) : Growth := fun s =>
  (s.grow? states linkBytes).map (⟨·, false⟩)

def followedBy (g h : Growth) : Growth := fun s =>
  (g s).bind fun a => (a.extend? 0 0).bind h

def chain (g : Growth) : Nat → Grown → Option Grown
  | 0, a => some a
  | n + 1, a =>
    match (a.extend? 0 0).bind g with
    | none => none
    | some b => chain g n b

def copies (g : Growth) : Nat → Growth
  | 0 => plain 1 0
  | n + 1 => fun s => (g s).bind (chain g n)

/-- A part between two states, of which the first one has some bytes of links. -/
def enclosed (g : Growth) (linkBytes : Nat) : Growth :=
  ((plain 1 linkBytes).followedBy g).followedBy (plain 1 0)

/-- Any number of rounds of a part that takes something in each. -/
def loop (g : Growth) : Growth := fun s =>
  ((plain 1 4).followedBy g s).bind fun a => (a.extend? 0 0).map (⟨·, true⟩)

def rounds (g : Growth) : Growth := fun s =>
  (g s).bind fun a => (a.extend? 1 4).map (⟨·, true⟩)

/-- Some copies, and then more that can be left out, each with all behind it. -/
def upTo (g : Growth) (least most : Nat) : Growth := fun s =>
  (copies g least s).bind fun a =>
    (a.size.grow? 1 0).bind fun t =>
      (chain ((plain 1 8).followedBy g) (most - least) ⟨t, a.forks⟩).bind fun b =>
        (b.extend? 0 0).map (⟨·, false⟩)

def times (g : Growth) (takesSome : Bool) (least : Nat) (most : Option Nat) : Growth :=
  match least, most with
  | 0, some 1 => g.enclosed 8
  | 0, none => if takesSome then g.loop else g.followedBy (plain 3 16)
  | 1, none => g.rounds
  | n + 1, none => (g.copies n).followedBy g.rounds
  | m, some n => if m = n then g.copies m else g.upTo m n

/-- The choice between parts. The two states that open and close it come behind the second one. -/
def choice : List Growth → Growth
  | [] => plain 2 0
  | [g] => g
  | g :: h :: gs => fun s => do
    let a ← (← g s).extend? 0 4
    let b ← (← h a).extend? 2 4
    let c ← gs.foldlM (fun t k => (k t).bind (·.extend? 0 4)) b
    return ⟨c, false⟩

end Growth

namespace Form

/-- How each member of a choice grows an automaton; a form that is no choice has one. -/
def growths : Form → List Growth
  | .empty | .look _ => [.plain 1 0]
  | .words [w] => [.plain (w.flatMap String.utf8EncodeChar).length 0]
  | .words ws =>
    let bytes := ws.map fun w => w.flatMap String.utf8EncodeChar
    let size := wordTree (bytes.foldl (fun n w => max n w.length) 0) bytes
    [.plain (size.states + 1) size.linkBytes]
  | .set rs =>
    if rs.all (·.2 < 128) then [.plain 2 (8 * rs.length)]
    else
      let tree := ByteTree.ofRanges rs
      [fun s => ((s.withTree tree).grow? 0 0).map (⟨·, false⟩)]
  | .group _ a => [(Growth.choice a.growths).enclosed 0]
  | .times a least most _ => [(Growth.choice a.growths).times a.takesSome least most]
  | .seq a b => [(Growth.choice a.growths).followedBy (.choice b.growths)]
  | .alt a b => .choice a.growths :: b.growths

/-- The size of the whole automaton, unless it passes the limit. It finds matches anywhere, for
which it needs a loop in front if matches are not bound to the start of the text. -/
def size? (a : Form) : Option Size :=
  let front : Size := if a.isAnchored then ⟨1, 0⟩ else ⟨3, 16⟩
  (((Growth.choice a.growths).enclosed 0).followedBy (.plain 1 0) front).map (·.size)

end Form

end ShapeModel.Pattern
