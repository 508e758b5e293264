import ShapeModel.Pattern.Form
import ShapeModel.Pattern.Piece

/-!
# From pieces to forms

The pieces of a pattern nest: bars separate the branches of a group, and groups stand inside each
other. While the form is put together its height is counted, since a pattern that nests too deeply
is refused.
-/

namespace ShapeModel.Pattern

set_option autoImplicit false

/-- A part of a pattern that was read. -/
structure Part where
  form : Form
  /-- How deep it nests: classes, repetitions, groups, sequences, and choices count. -/
  height : Nat

namespace Part

/-- Parts under a common head; one part stands for itself. -/
def join (build : List Form → Form) : List Part → Part
  | [] => ⟨.empty, 0⟩
  | [p] => p
  | ps => ⟨build (ps.map (·.form)), ps.foldl (fun n p => max n p.height) 0 + 1⟩

def repeated (p : Part) (least : Nat) (most : Option Nat) (lazy : Bool) : Part :=
  ⟨p.form.repetition least most lazy, p.height + 1⟩

def grouped (p : Part) (index : Option Nat) : Part :=
  ⟨match index with
    | some n => .group n p.form
    | none => p.form, p.height + 1⟩

end Part

/-- A group that is being read. -/
structure Frame where
  flags : Flags
  index : Option Nat
  /-- The branches before the last bar, the last one first. -/
  branches : List Part
  /-- The parts behind it, the last one first. -/
  parts : List Part

namespace Frame

def start (flags : Flags) (index : Option Nat) : Frame := ⟨flags, index, [], []⟩

def branch (f : Frame) : Part :=
  .join .sequence f.parts.reverse

def close (f : Frame) : Part :=
  .join .alternatives (f.branch :: f.branches).reverse

def push (f : Frame) (p : Part) : Frame :=
  { f with parts := p :: f.parts }

def pushForm (f : Frame) (a : Form) : Frame :=
  f.push ⟨a, 0⟩

def pushSet (f : Frame) (rs : Text.Ranges) (height : Nat) : Frame :=
  f.push ⟨.ofRanges rs, height⟩

end Frame

/-- The part that pieces make inside nested groups, the innermost first, when so many groups are
numbered already. A repetition has to follow something that matches: neither a bar, nor the start of
a group, nor a change of flags. -/
def nest (f : Frame) (outer : List Frame) (numbered : Nat) : List Piece → Option Part
  | [] => if outer.isEmpty then some f.close else none
  | p :: ps =>
    match p with
    | .place k height =>
      nest (f.pushSet (k.ranges f.flags.ignoreCase) height) outer numbered ps
    | .point =>
      nest (f.pushSet ((CharClass.point f.flags.dotAll).ranges false) 0) outer numbered ps
    | .atStart =>
      nest (f.pushForm (.look (if f.flags.multiLine then .lineStart else .textStart)))
        outer numbered ps
    | .atEnd =>
      nest (f.pushForm (.look (if f.flags.multiLine then .lineEnd else .textEnd))) outer numbered ps
    | .textStart => nest (f.pushForm (.look .textStart)) outer numbered ps
    | .textEnd => nest (f.pushForm (.look .textEnd)) outer numbered ps
    | .bar => nest { f with branches := f.branch :: f.branches, parts := [] } outer numbered ps
    | .flags change =>
      match ps with
      | .times .. :: _ => none
      | ps => nest { f.pushForm .empty with flags := change f.flags } outer numbered ps
    | .times least most lazy =>
      match f.parts with
      | [] => none
      | p :: parts => nest { f with parts := p.repeated least most lazy :: parts } outer numbered ps
    | .opening isNumbered change =>
      if isNumbered then
        nest (.start (change f.flags) (some (numbered + 1))) (f :: outer) (numbered + 1) ps
      else nest (.start (change f.flags) none) (f :: outer) numbered ps
    | .closing =>
      match outer with
      | [] => none
      | g :: outer => nest (g.push (f.close.grouped f.index)) outer numbered ps

end ShapeModel.Pattern
