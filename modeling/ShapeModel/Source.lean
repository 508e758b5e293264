/-!
# Source texts and positions

A position counts what stands before it: bytes, lines, and columns on its line. A source finds its
lines in one pass that notes where each of them starts and ends. A message about a position shows
its line with a mark under the column.
-/

namespace ShapeModel

set_option autoImplicit false

/-- Columns are 32 bits wide, and tabs can make a line wider than that. Offsets and lines are
bounded by the size of the text. -/
structure Position where
  offset : Nat
  line : Nat
  column : UInt32
deriving DecidableEq, Repr

namespace Position

instance coeColumn : Coe UInt32 Nat := ⟨UInt32.toNat⟩

def start : Position := ⟨0, 1, 1⟩

/-- How many columns a character takes. -/
def width (c : Char) : UInt32 :=
  if c = '\t' then 4 else 1

end Position

structure Source where
  file : String
  text : String
deriving DecidableEq, Repr

/-- What the pass over a text knows: its place, where the present line starts, the last character
and its place, and the lines that have ended, the last one first. -/
structure LineScan where
  offset : Nat
  start : Nat
  last : Char
  lastOffset : Nat
  ended : List (Nat × Nat)

namespace LineScan

def initial : LineScan := ⟨0, 0, ' ', 0, []⟩

/-- A line ends before a line feed, or before the carriage return in front of that. -/
def step (s : LineScan) (c : Char) : LineScan :=
  let next := { s with offset := s.offset + c.utf8Size, last := c, lastOffset := s.offset }
  if c = '\n' then
    let stop := if s.last = '\r' then s.lastOffset else s.offset
    { next with start := s.offset + 1, ended := (s.start, stop) :: s.ended }
  else next

end LineScan

namespace Source

/-- The size of the longest text that is loaded, so that offsets and lines fit in 32 bits. -/
def maxSize : Nat := 4294967293

/-- The text between two offsets. -/
def slice (s : Source) (start stop : Nat) : String :=
  String.Pos.Raw.extract s.text ⟨start⟩ ⟨stop⟩

/-- Where the lines start and end. The last one ends with the text. -/
def lineTable (s : Source) : List (Nat × Nat) :=
  let scan := s.text.toList.foldl LineScan.step .initial
  let size := s.text.utf8ByteSize
  let last := if scan.start < size ∨ size = 0 then (scan.start, size) else (size, size)
  scan.ended.reverse ++ [last]

def lines (s : Source) : List String :=
  s.lineTable.map fun (start, stop) => s.slice start stop

/-- The line of that index from zero, empty when there is none. -/
def line (s : Source) (i : Nat) : String :=
  s.lines[i]?.getD ""

def blanks (n : Nat) : String :=
  String.ofList (List.replicate n ' ')

/-- A message about a line and a column, both counted from one. -/
def message (s : Source) (line column : Nat) (kind text : String) : String :=
  if line = 0 ∨ s.lines.length < line then
    s.file ++ ": invalid line " ++ toString line ++ " specified"
  else
    let number := toString line
    let gutter := blanks (number.length + 1)
    "\n--> " ++ s.file ++ ":" ++ number ++ ":" ++ toString column ++ "\n" ++
      gutter ++ "|\n" ++
      number ++ " | " ++ s.line (line - 1) ++ "\n" ++
      gutter ++ "| " ++ blanks (column - 1) ++ "^\n" ++
      kind ++ ": " ++ text

end Source

/-- Where an error stands, and the message that shows the place. -/
structure Place where
  line : Nat
  column : UInt32
  context : String
deriving DecidableEq, Repr

def Source.place (s : Source) (p : Position) (text : String) : Place :=
  ⟨p.line, p.column, s.message p.line p.column "error" text⟩

end ShapeModel
