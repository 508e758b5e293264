/-!
# Identifiers

The address of a shape or of one of its members, written `space#name$member`. Every text is read as
an identifier: the first `#` ends the name space, and the first `$` behind it ends the name.
Identifiers are ordered by name space, name and member, what is absent before what is present.
-/

namespace ShapeModel

set_option autoImplicit false

structure Identifier where
  space : Option String
  name : String
  member : Option String
deriving DecidableEq, Repr

/-- The text before and behind the first separator, if there is one. -/
def splitFirst (separator : Char) (cs : List Char) : Option (List Char × List Char) :=
  match cs.dropWhile (· ≠ separator) with
  | [] => none
  | _ :: behind => some (cs.takeWhile (· ≠ separator), behind)

namespace Identifier

def ofChars (cs : List Char) : Identifier :=
  let (space, rest) :=
    match splitFirst '#' cs with
    | some (space, rest) => (some (String.ofList space), rest)
    | none => (none, cs)
  match splitFirst '$' rest with
  | some (name, member) => ⟨space, String.ofList name, some (String.ofList member)⟩
  | none => ⟨space, String.ofList rest, none⟩

def ofText (s : String) : Identifier :=
  ofChars s.toList

def toText (id : Identifier) : String :=
  (match id.space with
    | some s => s ++ "#"
    | none => "") ++ id.name ++
  (match id.member with
    | some m => "$" ++ m
    | none => "")

instance : ToString Identifier := ⟨toText⟩

/-- The address of the shape, without the member. -/
def root (id : Identifier) : Identifier :=
  { id with member := none }

def withMember (id : Identifier) (member : String) : Identifier :=
  { id with member := some member }

/-- By name space, then by name, then by member. -/
instance : Ord Identifier :=
  ⟨compareLex (compareOn space) (compareLex (compareOn name) (compareOn member))⟩

instance : Std.TransOrd Identifier :=
  inferInstanceAs (Std.TransCmp (compareLex (compareOn space)
    (compareLex (compareOn name) (compareOn member))))

theorem eq_of_compare_eq {a b : Identifier} (h : compare a b = .eq) : a = b := by
  obtain ⟨s, n, m⟩ := a
  obtain ⟨t, k, l⟩ := b
  simp only [compare, compareLex, Ordering.then_eq_eq, compareOn] at h
  obtain ⟨h₁, h₂, h₃⟩ := h
  obtain rfl := Std.LawfulEqOrd.eq_of_compare (α := Option String) h₁
  obtain rfl := Std.LawfulEqOrd.eq_of_compare (α := String) h₂
  obtain rfl := Std.LawfulEqOrd.eq_of_compare (α := Option String) h₃
  rfl

instance : Std.LawfulEqOrd Identifier where
  eq_of_compare := eq_of_compare_eq
  compare_self := Std.ReflCmp.compare_self

end Identifier

end ShapeModel
