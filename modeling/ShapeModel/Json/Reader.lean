import ShapeModel.Value
import ShapeModel.Number.Literal

/-!
# Reading JSON

A strict reader: the whole text is one value, with blanks between its parts only. Arrays and objects
may be nested up to a depth; of two fields with one name the last is kept; a number that is too
large for a double, a lone surrogate and a raw control character are refused. Every reader leaves
less text than it was given, so reading ends.
-/

namespace ShapeModel.Json

set_option autoImplicit false

/-- What was read at the front of a text of `n` characters, and what is left of it. -/
structure Read (α : Type) (n : Nat) where
  value : α
  rest : List Char
  shorter : rest.length < n

def isSpace (c : Char) : Bool :=
  c = ' ' || c = '\t' || c = '\n' || c = '\r'

def skip (cs : List Char) : List Char :=
  cs.dropWhile isSpace

theorem length_skip_le (cs : List Char) : (skip cs).length ≤ cs.length :=
  (List.dropWhile_sublist _).length_le

def hexValue? (c : Char) : Option Nat :=
  if '0' ≤ c ∧ c ≤ '9' then some (c.toNat - '0'.toNat)
  else if 'a' ≤ c ∧ c ≤ 'f' then some (c.toNat - 'a'.toNat + 10)
  else if 'A' ≤ c ∧ c ≤ 'F' then some (c.toNat - 'A'.toNat + 10)
  else none

def hexUnit? (cs : List Char) : Option (Read Nat cs.length) :=
  match cs with
  | a :: b :: c :: d :: rest => do
    let a ← hexValue? a
    let b ← hexValue? b
    let c ← hexValue? c
    let d ← hexValue? d
    some ⟨((a * 16 + b) * 16 + c) * 16 + d, rest, by simp; omega⟩
  | _ => none

def isHighSurrogate (n : Nat) : Bool := 0xd800 ≤ n && n < 0xdc00

def isLowSurrogate (n : Nat) : Bool := 0xdc00 ≤ n && n < 0xe000

/-- The digits of an escaped code unit; a high surrogate goes on with an escaped low one. -/
def codePoint? (cs : List Char) : Option (Read Char cs.length) :=
  match hexUnit? cs with
  | none => none
  | some ⟨n, rest, h⟩ =>
    if isHighSurrogate n then
      match rest with
      | '\\' :: 'u' :: rest =>
        match hexUnit? rest with
        | some ⟨m, rest, _⟩ =>
          if isLowSurrogate m then
            some ⟨Char.ofNat (0x10000 + (n - 0xd800) * 0x400 + (m - 0xdc00)), rest,
              by simp at h; omega⟩
          else none
        | none => none
      | _ => none
    else if isLowSurrogate n then none
    else some ⟨Char.ofNat n, rest, h⟩

/-- The character an escape stands for, after the backslash. -/
def escaped? (cs : List Char) : Option (Read Char cs.length) :=
  match cs with
  | [] => none
  | c :: rest =>
    let plain (c : Char) : Option (Read Char (rest.length + 1)) :=
      some ⟨c, rest, Nat.lt_succ_self _⟩
    if c = '"' then plain '"'
    else if c = '\\' then plain '\\'
    else if c = '/' then plain '/'
    else if c = 'b' then plain (Char.ofNat 8)
    else if c = 'f' then plain (Char.ofNat 12)
    else if c = 'n' then plain '\n'
    else if c = 'r' then plain '\r'
    else if c = 't' then plain '\t'
    else if c = 'u' then
      (codePoint? rest).map fun r => ⟨r.value, r.rest, Nat.lt_succ_of_lt r.shorter⟩
    else none

/-- The contents of a string, after its opening quote. -/
def contents? (cs : List Char) : Option (Read (List Char) cs.length) :=
  match cs with
  | [] => none
  | c :: rest =>
    if c = '"' then some ⟨[], rest, by simp⟩
    else if c = '\\' then
      match escaped? rest with
      | none => none
      | some ⟨e, rest', _⟩ =>
        (contents? rest').map fun r =>
          ⟨e :: r.value, r.rest, by have := r.shorter; simp; omega⟩
    else if c.toNat < 32 then none
    else
      (contents? rest).map fun r =>
        ⟨c :: r.value, r.rest, by have := r.shorter; simp; omega⟩
termination_by cs.length
decreasing_by all_goals simp; try omega

def string? (cs : List Char) : Option (Read String cs.length) :=
  match cs with
  | '"' :: rest =>
    (contents? rest).map fun r =>
      ⟨String.ofList r.value, r.rest, by have := r.shorter; simp; omega⟩
  | _ => none

/-- A run of digits, a zero only by itself. -/
def splitWhole (cs : List Char) : List Char × List Char :=
  match cs with
  | '0' :: rest => (['0'], rest)
  | cs => (cs.takeWhile Char.isDigit, cs.dropWhile Char.isDigit)

theorem append_splitWhole (cs : List Char) : (splitWhole cs).1 ++ (splitWhole cs).2 = cs := by
  unfold splitWhole
  split <;> simp

/-- The digits behind a mark, and no digits when there is no mark; `none` when the mark stands
without any. -/
def splitMarked (isMark : Char → Bool) (cs : List Char) : Option (List Char × List Char) :=
  match cs with
  | c :: rest =>
    if isMark c then
      if (rest.takeWhile Char.isDigit).isEmpty then none
      else some (rest.takeWhile Char.isDigit, rest.dropWhile Char.isDigit)
    else some ([], c :: rest)
  | [] => some ([], [])

theorem length_splitMarked_le {isMark : Char → Bool} {cs ds rest : List Char}
    (h : splitMarked isMark cs = some (ds, rest)) : rest.length ≤ cs.length := by
  unfold splitMarked at h
  split at h
  · split at h
    · split at h
      · simp at h
      · obtain ⟨-, rfl⟩ := by simpa using h
        exact Nat.le_succ_of_le (List.dropWhile_sublist _).length_le
    · obtain ⟨-, rfl⟩ := by simpa using h
      exact Nat.le_refl _
  · obtain ⟨-, rfl⟩ := by simpa using h
    exact Nat.le_refl _

/-- An exponent, `none` inside when there is no mark. -/
def splitExponent (cs : List Char) : Option (Option Int × List Char) :=
  match cs with
  | c :: rest =>
    if c = 'e' ∨ c = 'E' then
      let (negative, ds) := Number.splitSign rest
      let digits := ds.takeWhile Char.isDigit
      let e : Int := Number.digitsToNat digits
      if digits.isEmpty then none
      else some (some (if negative then -e else e), ds.dropWhile Char.isDigit)
    else some (none, c :: rest)
  | [] => some (none, [])

theorem length_splitExponent_le {cs rest : List Char} {e : Option Int}
    (h : splitExponent cs = some (e, rest)) : rest.length ≤ cs.length := by
  unfold splitExponent at h
  split at h
  · next c tail =>
    split at h
    · have hs := Number.length_splitSign_le tail
      have hd := (List.dropWhile_sublist Char.isDigit (l := (Number.splitSign tail).2)).length_le
      dsimp only at h
      split at h
      · simp at h
      · obtain ⟨-, rfl⟩ := by simpa using h
        simp only [List.length_cons]
        omega
    · obtain ⟨-, rfl⟩ := by simpa using h
      exact Nat.le_refl _
  · obtain ⟨-, rfl⟩ := by simpa using h
    exact Nat.le_refl _

/-- The number with these parts: an integer if it has neither fraction nor exponent and fits. A
negative zero is a double, since the integers have none. Doubles are rounded correctly here; a
reader that scales the digits by a power of ten instead may be off in the last place. -/
def numberOfParts? (negative : Bool) (whole fraction : List Char) (exponent : Option Int) :
    Option Number :=
  let n := Number.digitsToNat whole
  let float : Option Number :=
    let x := Binary64.ofDecimal negative (Number.digitsToNat (whole ++ fraction))
      (exponent.getD 0 - fraction.length)
    if x.isFinite then some (.float x) else none
  if fraction.isEmpty && exponent.isNone then
    let i : Int := if negative then -(n : Int) else n
    if negative && n == 0 then float else (Number.ofInt? i).or float
  else float

def magnitude? (negative : Bool) (cs : List Char) : Option (Read Number cs.length) :=
  match hw : splitWhole cs with
  | ([], _) => none
  | (w :: ws, rest₁) =>
    match hf : splitMarked (· = '.') rest₁ with
    | none => none
    | some (fraction, rest₂) =>
      match he : splitExponent rest₂ with
      | none => none
      | some (exponent, rest₃) =>
        (numberOfParts? negative (w :: ws) fraction exponent).map fun n => ⟨n, rest₃, by
          have h₁ := congrArg List.length (append_splitWhole cs)
          have h₂ := length_splitMarked_le hf
          have h₃ := length_splitExponent_le he
          simp only [hw, List.length_append, List.length_cons] at h₁
          omega⟩

def number? (cs : List Char) : Option (Read Number cs.length) :=
  match cs with
  | '-' :: rest =>
    (magnitude? true rest).map fun r => ⟨r.value, r.rest, Nat.lt_succ_of_lt r.shorter⟩
  | cs => magnitude? false cs

/-- A value that is no array and no object. -/
def scalar? (cs : List Char) : Option (Read Value cs.length) :=
  match cs with
  | 'n' :: 'u' :: 'l' :: 'l' :: rest => some ⟨.null, rest, by simp; omega⟩
  | 't' :: 'r' :: 'u' :: 'e' :: rest => some ⟨.bool true, rest, by simp; omega⟩
  | 'f' :: 'a' :: 'l' :: 's' :: 'e' :: rest => some ⟨.bool false, rest, by simp; omega⟩
  | '"' :: rest => (string? ('"' :: rest)).map fun r => ⟨.string r.value, r.rest, r.shorter⟩
  | cs => (number? cs).map fun r => ⟨.number r.value, r.rest, r.shorter⟩

mutual

/-- A value inside which arrays and objects may be nested to a depth. -/
def value? (depth : Nat) (cs : List Char) : Option (Read Value cs.length) :=
  match cs, depth with
  | '[' :: rest, depth + 1 =>
    match hr : skip rest with
    | ']' :: rest' => some ⟨.array [], rest', by have := length_skip_le rest; simp_all; omega⟩
    | _ =>
      (elements? depth (skip rest)).map fun r =>
        ⟨.array r.value, r.rest, by have := length_skip_le rest; have := r.shorter; simp; omega⟩
  | '{' :: rest, depth + 1 =>
    match hr : skip rest with
    | '}' :: rest' => some ⟨.object [], rest', by have := length_skip_le rest; simp_all; omega⟩
    | _ =>
      (members? depth (skip rest)).map fun r =>
        ⟨.ofPairs r.value, r.rest, by have := length_skip_le rest; have := r.shorter; simp; omega⟩
  | cs, _ => scalar? cs
termination_by 2 * cs.length
decreasing_by all_goals have := length_skip_le rest; simp; omega

/-- Values up to and with the closing bracket; the text starts with one. -/
def elements? (depth : Nat) (cs : List Char) : Option (Read (List Value) cs.length) :=
  match value? depth cs with
  | none => none
  | some ⟨v, rest, h⟩ =>
    match hr : skip rest with
    | ']' :: rest' => some ⟨[v], rest', by have := length_skip_le rest; simp_all; omega⟩
    | ',' :: rest' =>
      (elements? depth (skip rest')).map fun r =>
        ⟨v :: r.value, r.rest, by
          have := length_skip_le rest; have := length_skip_le rest'; have := r.shorter
          simp_all; omega⟩
    | _ => none
termination_by 2 * cs.length + 1
decreasing_by
  · omega
  · have := length_skip_le rest; have := length_skip_le rest'; simp_all; omega

/-- Fields up to and with the closing brace; the text starts with one. -/
def members? (depth : Nat) (cs : List Char) :
    Option (Read (List (String × Value)) cs.length) :=
  match string? cs with
  | none => none
  | some ⟨k, rest, h⟩ =>
    match hr : skip rest with
    | ':' :: rest₁ =>
      match value? depth (skip rest₁) with
      | none => none
      | some ⟨v, rest₂, h₂⟩ =>
        match hr₂ : skip rest₂ with
        | '}' :: rest₃ => some ⟨[(k, v)], rest₃, by
            have := length_skip_le rest; have := length_skip_le rest₁
            have := length_skip_le rest₂; simp_all; omega⟩
        | ',' :: rest₃ =>
          (members? depth (skip rest₃)).map fun r =>
            ⟨(k, v) :: r.value, r.rest, by
              have := length_skip_le rest; have := length_skip_le rest₁
              have := length_skip_le rest₂; have := length_skip_le rest₃
              have := r.shorter; simp_all; omega⟩
        | _ => none
    | _ => none
termination_by 2 * cs.length + 1
decreasing_by
  · have := length_skip_le rest; have := length_skip_le rest₁; simp_all; omega
  · have := length_skip_le rest; have := length_skip_le rest₁
    have := length_skip_le rest₂; have := length_skip_le rest₃; simp_all; omega

end

/-- How deep arrays and objects of a text may be nested. -/
def maxDepth : Nat := 127

def parse? (text : String) : Option Value :=
  match value? maxDepth (skip text.toList) with
  | some r => if (skip r.rest).isEmpty then some r.value else none
  | none => none

end ShapeModel.Json
