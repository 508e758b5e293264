/-!
# Sets of characters, byte by byte

How an automaton that reads UTF-8 tells a set of characters. The ranges of the set are cut into
blocks in which every byte runs over a range of its own, and blocks that begin alike share their
first bytes in a tree.
-/

namespace ShapeModel.Pattern

set_option autoImplicit false

/-- The code points that take one, two, three, and four bytes; surrogates are left out. -/
def byteSpans : List (Nat × Nat) :=
  [(0, 0x7f), (0x80, 0x7ff), (0x800, 0xd7ff), (0xe000, 0xffff), (0x10000, 0x10ffff)]

/-- A range in up to three pieces: the whole units in it, and what stands before and behind them. -/
def cut (unit : Nat) (r : Nat × Nat) : List (Nat × Nat) :=
  if r.1 / unit = r.2 / unit then [r]
  else
    let first := (r.1 + unit - 1) / unit * unit
    let last := (r.2 + 1) / unit * unit
    (if r.1 < first then [(r.1, first - 1)] else []) ++
      (if first < last then [(first, last - 1)] else []) ++
      (if last ≤ r.2 then [(last, r.2)] else [])

/-- A range in blocks. Every byte but the first one holds six bits. -/
def blocks (r : Nat × Nat) : List (Nat × Nat) :=
  byteSpans.flatMap fun span =>
    let low := max r.1 span.1
    let high := min r.2 span.2
    if high < low then []
    else if span.1 = 0 then [(low, high)]
    else ((cut 0x40 (low, high)).flatMap (cut 0x1000)).flatMap (cut 0x40000)

/-- The ranges of the bytes of a block. -/
def blockBytes (r : Nat × Nat) : List (UInt8 × UInt8) :=
  (String.utf8EncodeChar (Char.ofNat r.1)).zip (String.utf8EncodeChar (Char.ofNat r.2))

/-- What can follow in a block: nothing more, or one of several ranges of bytes, each with what is
below it. -/
inductive ByteTree
  | done
  | link (low high : UInt8) (below next : ByteTree)
deriving DecidableEq, Repr

namespace ByteTree

/-- A tree with one more block in front. -/
def insert : List (UInt8 × UInt8) → ByteTree → ByteTree
  | [], t => t
  | r :: rs, .done => .link r.1 r.2 (insert rs .done) .done
  | r :: rs, .link low high below next =>
    if r = (low, high) then .link low high (insert rs below) next
    else .link r.1 r.2 (insert rs .done) (.link low high below next)

def ofRanges (rs : List (Nat × Nat)) : ByteTree :=
  (rs.flatMap blocks).foldr (fun r t => t.insert (blockBytes r)) .done

end ByteTree

end ShapeModel.Pattern
