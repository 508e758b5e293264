import ShapeModel.Document.Annotation
import ShapeModel.Proofs.Document.Cursor

/-!
# Reading with modes

The place where a value stands can be kept as a state of the reader instead: whether it is in
metadata, and whether it is in the value of an applied trait. A trait switches the second mode on
for what stands in its parentheses and off behind them, however reading them ends. What is read is
the same as with the place given.
-/

namespace ShapeModel

set_option autoImplicit false

namespace Document

structure Modes where
  inMetadata : Bool
  inTrait : Bool
deriving DecidableEq, Repr

/-- The place that the modes stand for. Metadata has no traits. -/
def Modes.context (m : Modes) : Context :=
  if m.inMetadata then .metadata
  else if m.inTrait then .traitValue
  else .body

/-- The end of a reader, and the modes it ends in. -/
abbrev Modal (α : Type) (bound : Nat) := Outcome α bound × Modes

/-- Goes on behind what was read, in the modes that are left. A failure keeps its modes. -/
def Modal.andThen {α β : Type} {n k : Nat} (r : Modal α n)
    (next : α → (rest : Cursor) → rest.left < n → Modes → Modal β k) : Modal β k :=
  match r with
  | (.ok a rest h, m) => next a rest h m
  | (.failed e rest, m) => (.failed e rest, m)

end Document

section Bounds

variable {a b c d : Cursor} {ch : Char}

theorem Cursor.left_lt_of_skipNewlines (h : b.left < a.skipNewlines.left) : b.left < a.left :=
  Nat.lt_of_lt_of_le h a.left_skipNewlines_le

theorem Cursor.left_lt_of_skipGrammar (h : b.left < (a.skipNewlines.skipGrammar ch).left) :
    b.left < a.left :=
  left_lt_of_skipNewlines (Nat.lt_of_lt_of_le h (a.skipNewlines.left_skipGrammar_le ch))

end Bounds

namespace Document

mutual

def modalValue (s : Scope) (m : Modes) (c : Cursor) : Modal Value c.left :=
  match h : c.peek? with
  | none => (.failed (c.unexpected "a value") c, m)
  | some k =>
    have hlt := Cursor.left_advance_lt h
    if k = .grammar '{' then
      (modalFields s '}' m c.advance).andThen fun fields rest hr m =>
        (.ok (.ofPairs fields) rest (Nat.lt_trans hr hlt), m)
    else if k = .grammar '[' then
      (modalItems s m c.advance).andThen fun items rest hr m =>
        (.ok (.array items) rest (Nat.lt_trans hr hlt), m)
    else
      match atom? s m.context k with
      | some (.ok v) => (.ok v c.advance hlt, m)
      | some (.error e) => (.failed ⟨e, none⟩ c.advance, m)
      | none => (.failed (c.unexpected "a value") c, m)
termination_by 2 * c.left
decreasing_by all_goals omega

def modalFields (s : Scope) (close : Char) (m : Modes) (c : Cursor) :
    Modal (List (String × Value)) c.left :=
  if h : c.skipNewlines.isGrammar close then
    have hlt := Cursor.left_lt_of_skipNewlines (Cursor.left_advance_of_isGrammar h)
    (.ok [] c.skipNewlines.advance hlt, m)
  else
    Modal.andThen (c.skipNewlines.expectKey, m) fun key c₁ h₁ m =>
      Modal.andThen (c₁.expectGrammar ':', m) fun _ c₂ h₂ m =>
        (modalValue s m c₂.skipNewlines).andThen fun v c₃ h₃ m =>
          have h₁ := Cursor.left_lt_of_skipNewlines h₁
          have h₃ := Nat.lt_trans (Nat.lt_trans (Cursor.left_lt_of_skipNewlines h₃) h₂) h₁
          (modalFields s close m (c₃.skipNewlines.skipGrammar ',')).andThen fun fields rest hr m =>
            have hr := Nat.lt_trans (Cursor.left_lt_of_skipGrammar hr) h₃
            (.ok ((key, v) :: fields) rest hr, m)
termination_by 2 * c.left + 1
decreasing_by
  · have := c.left_skipNewlines_le
    have := c₂.left_skipNewlines_le
    omega
  · have := c₃.left_skipNewlines_le
    have := c₃.skipNewlines.left_skipGrammar_le ','
    omega

def modalItems (s : Scope) (m : Modes) (c : Cursor) : Modal (List Value) c.left :=
  if h : c.skipNewlines.isGrammar ']' then
    have hlt := Cursor.left_lt_of_skipNewlines (Cursor.left_advance_of_isGrammar h)
    (.ok [] c.skipNewlines.advance hlt, m)
  else
    (modalValue s m c.skipNewlines).andThen fun v c₁ h₁ m =>
      have h₁ := Cursor.left_lt_of_skipNewlines h₁
      (modalItems s m (c₁.skipNewlines.skipGrammar ',')).andThen fun items rest hr m =>
        have hr := Nat.lt_trans (Cursor.left_lt_of_skipGrammar hr) h₁
        (.ok (v :: items) rest hr, m)
termination_by 2 * c.left + 1
decreasing_by
  · have := c.left_skipNewlines_le
    omega
  · have := c₁.left_skipNewlines_le
    have := c₁.skipNewlines.left_skipGrammar_le ','
    omega

end

def modalTraitValue (s : Scope) (m : Modes) (c : Cursor) : Modal Value c.left :=
  if startsFields c then
    (modalFields s ')' m c).andThen fun fields rest h m => (.ok (.ofPairs fields) rest h, m)
  else
    (modalValue s m c).andThen fun v c₁ h₁ m =>
      Modal.andThen (c₁.skipNewlines.expectGrammar ')', m) fun _ rest h m =>
        have hlt := Nat.lt_trans (Cursor.left_lt_of_skipNewlines h) h₁
        (.ok v rest hlt, m)

def Modes.setTrait (on : Bool) (m : Modes) : Modes :=
  { m with inTrait := on }

/-- An applied trait, with its mode on for its value and off behind it. -/
def modalTrait (s : Scope) (m : Modes) (c : Cursor) : Modal (String × Value) c.left :=
  Modal.andThen (c.expectWord, m) fun w c₁ h₁ m =>
    let name := s.qualify true (appliedName w)
    if hp : c₁.isGrammar '(' then
      have h₂ := Nat.lt_trans (Cursor.left_advance_of_isGrammar hp) h₁
      let (o, m) := modalTraitValue s (m.setTrait true) c₁.advance.skipNewlines
      Modal.andThen (o, m.setTrait false) fun v rest h m =>
        have hlt := Cursor.left_lt_of_skipNewlines h
        (.ok (name, v) rest (Nat.lt_trans hlt h₂), m)
    else (.ok (name, .emptyObject) c₁ h₁, m)

variable {s : Scope} {m : Modes}

mutual

theorem modalValue_eq (c : Cursor) : modalValue s m c = (readValue s m.context c, m) := by
  have hlt := fun k => @Cursor.left_advance_lt c k
  rw [modalValue, readValue]
  -- Where the next token is given, the match on it with its proof can be reduced on both sides.
  obtain ⟨source, passed, ahead⟩ := c
  cases ahead with
  | nil => rfl
  | cons t ts =>
    have hlt := hlt t.kind rfl
    dsimp only [Cursor.peek?, List.head?_cons, Option.map_some]
    split
    · rw [modalFields_eq]
      cases readFields s m.context '}' (Cursor.advance ⟨source, passed, t :: ts⟩) <;> rfl
    split
    · rw [modalItems_eq]
      cases readItems s m.context (Cursor.advance ⟨source, passed, t :: ts⟩) <;> rfl
    · rcases atom? s m.context t.kind with _ | _ | _ <;> rfl
termination_by 2 * c.left
decreasing_by
  all_goals
    subst_vars
    omega

theorem modalFields_eq (c : Cursor) (close : Char) :
    modalFields s close m c = (readFields s m.context close c, m) := by
  have h₀ := c.left_skipNewlines_le
  rw [modalFields, readFields]
  split
  · rfl
  cases c.skipNewlines.expectKey with
  | failed => rfl
  | ok key c₁ h₁ =>
  dsimp only [Modal.andThen]
  cases c₁.expectGrammar ':' with
  | failed => rfl
  | ok _ c₂ h₂ =>
  have h₃ := c₂.left_skipNewlines_le
  dsimp only
  rw [modalValue_eq]
  cases readValue s m.context c₂.skipNewlines with
  | failed => rfl
  | ok v c₃ h₄ =>
  have h₅ := c₃.left_skipNewlines_le
  have h₆ := c₃.skipNewlines.left_skipGrammar_le ','
  dsimp only
  rw [modalFields_eq]
  cases readFields s m.context close (c₃.skipNewlines.skipGrammar ',') <;> rfl
termination_by 2 * c.left + 1

theorem modalItems_eq (c : Cursor) : modalItems s m c = (readItems s m.context c, m) := by
  have h₀ := c.left_skipNewlines_le
  rw [modalItems, readItems]
  split
  · rfl
  rw [modalValue_eq]
  cases readValue s m.context c.skipNewlines with
  | failed => rfl
  | ok v c₁ h₁ =>
  have h₂ := c₁.left_skipNewlines_le
  have h₃ := c₁.skipNewlines.left_skipGrammar_le ','
  dsimp only [Modal.andThen]
  rw [modalItems_eq]
  cases readItems s m.context (c₁.skipNewlines.skipGrammar ',') <;> rfl
termination_by 2 * c.left + 1

end

theorem modes_modalTraitValue (c : Cursor) : (modalTraitValue s m c).2 = m := by
  rw [modalTraitValue, modalFields_eq, modalValue_eq]
  split
  · cases readFields s m.context ')' c <;> rfl
  · cases readValue s m.context c with
    | failed => rfl
    | ok v c₁ h₁ =>
      dsimp only [Modal.andThen]
      cases c₁.skipNewlines.expectGrammar ')' <;> rfl

theorem modalTraitValue_eq (hm : m.context = .traitValue) (c : Cursor) :
    (modalTraitValue s m c).1 = readTraitValue s c := by
  rw [modalTraitValue, readTraitValue, modalFields_eq, modalValue_eq, hm]
  split
  · cases readFields s .traitValue ')' c <;> rfl
  · cases readValue s .traitValue c with
    | failed => rfl
    | ok v c₁ h₁ =>
      dsimp only [Modal.andThen]
      cases c₁.skipNewlines.expectGrammar ')' <;> rfl

/-- Behind parentheses the mode of traits is off, however reading them ended. -/
theorem modes_modalTrait {w : String} {c : Cursor} {ks : List Token.Kind}
    (hc : c.kinds = .word w :: .grammar '(' :: ks) : (modalTrait s m c).2 = m.setTrait false := by
  obtain ⟨c₁, h₁, hword, hc₁⟩ := Cursor.expectWord_gives_iff.mpr hc
  have hopen : c₁.isGrammar '(' = true := Cursor.isGrammar_iff.mpr (congrArg List.head? hc₁)
  have hmodes : (modalTraitValue s (m.setTrait true) c₁.advance.skipNewlines).2 = m.setTrait true :=
    modes_modalTraitValue _
  rw [modalTrait, hword]
  dsimp only [Modal.andThen]
  rw [dif_pos hopen, hmodes]
  cases (modalTraitValue s (m.setTrait true) c₁.advance.skipNewlines).1 with
  | ok => rfl
  | failed => rfl

theorem modalTrait_eq (hm : m.inMetadata = false) (c : Cursor) :
    (modalTrait s m c).1 = readTrait s c := by
  have hcontext : (m.setTrait true).context = .traitValue := by
    simp only [Modes.context, Modes.setTrait, hm, Bool.false_eq_true, if_false, if_true]
  rw [modalTrait, readTrait]
  cases c.expectWord with
  | failed => rfl
  | ok w c₁ h₁ =>
    dsimp only [Modal.andThen]
    split
    · rw [modalTraitValue_eq hcontext]
      cases readTraitValue s c₁.advance.skipNewlines <;> rfl
    · rfl

theorem Modes.context_setTrait_false (m : Modes) : (m.setTrait false).context ≠ .traitValue := by
  rw [Modes.context, Modes.setTrait]
  cases m.inMetadata with
  | true => decide
  | false => decide

end Document

end ShapeModel
