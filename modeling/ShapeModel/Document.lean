import ShapeModel.Document.Body

/-!
# Documents

A document is a sequence of statements: versions, metadata, and then the name space, names brought
into use, shapes and traits applied to them. Reading it gives its abstract syntax, a value with the
shapes as entries by absolute name. An error that has no place of its own is placed at the token
passed last.
-/

namespace ShapeModel.Document

set_option autoImplicit false

/-- What has been read of a document. -/
structure Draft where
  scope : Scope
  version : Option String
  metadata : Table String Value
  shapes : Table String Value
  /-- Annotations that wait for their shape. -/
  pending : Annotations

namespace Draft

def start (traitNames : List String) : Draft :=
  ⟨.ofTraitNames traitNames, none, .empty, .empty, .empty⟩

def toValue (d : Draft) : Value :=
  .ofPairs
    ((match d.version with
      | some v => [("smithy", .string v)]
      | none => []) ++
      [("metadata", .object d.metadata.entries), ("shapes", .object d.shapes.entries)])

/-- `$version: "text"`, as often as it stands there. -/
def readVersions (d : Draft) (c : Cursor) : Outcome Draft (c.left + 1) :=
  match h : c.peek? with
  | some (.word "$version") =>
    have h₀ := Cursor.left_advance_lt h
    match c.advance.expectGrammar ':' with
    | .failed e rest => .failed e rest
    | .ok () c₁ h₁ =>
      match c₁.expectString with
      | .failed e rest => .failed e rest
      | .ok v c₂ h₂ =>
        match c₂.endStatement with
        | .failed e rest => .failed e rest
        | .ok () c₃ h₃ =>
          have h₄ := c₃.left_skipNewlines_le
          match readVersions { d with version := some v } c₃.skipNewlines with
          | .failed e rest => .failed e rest
          | .ok d rest h => .ok d rest (by omega)
  | _ => .ok d c (Nat.lt_succ_self _)
termination_by c.left
decreasing_by omega

/-- `metadata key = value`, after the keyword. -/
def readMetadata (d : Draft) (c : Cursor) : Outcome Draft (c.left + 1) :=
  match c.expectKey with
  | .failed e rest => .failed e rest
  | .ok key c₁ h₁ =>
    match c₁.expectGrammar '=' with
    | .failed e rest => .failed e rest
    | .ok () c₂ h₂ =>
      match readValue d.scope .metadata c₂ with
      | .failed e rest => .failed e rest
      | .ok v c₃ h₃ =>
        match c₃.endStatement with
        | .failed e rest => .failed e rest
        | .ok () rest h =>
          .ok { d with metadata := d.metadata.insert key v } rest
            (Cursor.left_lt_succ_of_lt (Nat.lt_trans h₃ (Nat.lt_trans h₂ h₁)) h)

/-- The metadata statements before all others. -/
def readMetadataSection (d : Draft) (c : Cursor) : Outcome Draft (c.left + 1) :=
  match h : c.peek? with
  | some (.word "metadata") =>
    have h₀ := Cursor.left_advance_lt h
    match readMetadata d c.advance with
    | .failed e rest => .failed e rest
    | .ok d c₁ h₁ =>
      have h₂ := c₁.left_skipNewlines_le
      match readMetadataSection d c₁.skipNewlines with
      | .failed e rest => .failed e rest
      | .ok d rest h => .ok d rest (by omega)
  | _ => .ok d c (Nat.lt_succ_self _)
termination_by c.left
decreasing_by omega

/-- `namespace` and `use` carry no annotations and come before all shapes. -/
def checkDeclaration (d : Draft) (keyword : String) : Except SyntaxError Unit :=
  if !d.pending.isEmpty then .error .unattachedTraits
  else if !d.shapes.isEmpty then .error (.declarationAfterShapes keyword)
  else .ok ()

def readWordStatement (c : Cursor) : Outcome String (c.left + 1) :=
  match c.expectWord with
  | .failed e rest => .failed e rest
  | .ok w c₁ h₁ =>
    match c₁.endStatement with
    | .failed e rest => .failed e rest
    | .ok () rest h => .ok w rest (Cursor.left_lt_succ_of_lt h₁ h)

def setSpace (d : Draft) (space : String) : Draft :=
  { d with scope := { d.scope with space := some space } }

/-- Brings the root of an identifier into use under its shape name. -/
def addAlias (d : Draft) (target : String) : Draft :=
  let id := Identifier.ofText target
  { d with scope := { d.scope with aliases := d.scope.aliases.insert id.name id.root.toText } }

def shapeEntry (keyword : String) (ts : Annotations) : List (String × Value) :=
  Entries.ofList (("type", .string keyword) ::
    (if ts.isEmpty then [] else [("traits", .object ts.entries)]))

/-- The absolute name of a shape that is declared here. -/
def shapeName (d : Draft) (name : String) : String :=
  match d.scope.space with
  | some space => space ++ "#" ++ name
  | none => name

/-- A shape type, a name and the body, if there is one. -/
def readShape (d : Draft) (c : Cursor) : Outcome Draft c.left :=
  match c.expectWord with
  | .failed e rest => .failed e rest
  | .ok keyword c₁ h₁ =>
    match c₁.expectWord with
    | .failed e rest => .failed e rest
    | .ok name c₂ h₂ =>
      let id := d.shapeName name
      if d.shapes.contains id then .failed ⟨.duplicateShape id, none⟩ c₂
      else
        let entry := shapeEntry keyword d.pending
        let finish (entry : List (String × Value)) (c₃ : Cursor) (h₃ : c₃.left ≤ c₂.left) :
            Outcome Draft c.left :=
          match c₃.endStatement with
          | .failed e rest => .failed e rest
          | .ok () rest h =>
            .ok { d with shapes := d.shapes.insert id (.object entry), pending := .empty } rest
              (Nat.lt_of_lt_of_le h (Nat.lt_of_le_of_lt h₃ (Nat.lt_trans h₂ h₁)))
        if c₂.peek? = none ∨ c₂.peek? = some .newline then finish entry c₂ (Nat.le_refl _)
        else
          match readBody d.scope (.ofKeyword keyword) entry c₂ with
          | .failed e rest => .failed e rest
          | .ok entry c₃ h₃ => finish entry c₃ (Nat.le_of_lt h₃)

/-- Changes the field of that name, of an object that has it. -/
def updateField (key : String) (f : Value → Except SyntaxError Value) (missing : SyntaxError) :
    Value → Except SyntaxError Value
  | .object fields =>
    match Entries.find? key fields with
    | some v => (f v).map fun v => .object (Entries.insert key v fields)
    | none => .error missing
  | _ => .error missing

/-- Adds traits to the entry of a shape, or to that of a member under its `members`. -/
def applyTo (id : Identifier) (ts : Annotations) (entry : Value) : Except SyntaxError Value :=
  let missing := SyntaxError.applyToUndeclaredShape id.toText
  match id.member with
  | none => attach ts entry
  | some m => updateField "members" (updateField m (attach ts) missing) missing entry

def readApplied (s : Scope) (c : Cursor) : Outcome (String × Value) c.left :=
  match c.peek? with
  | some (.word w) => if isTraitWord w then readTrait s c else .failed (c.unexpected "a trait") c
  | _ => .failed (c.unexpected "a trait") c

/-- `apply target @trait`, after the keyword. The target is declared before. -/
def readApply (d : Draft) (c : Cursor) : Outcome Draft (c.left + 1) :=
  match c.expectWord with
  | .failed e rest => .failed e rest
  | .ok target c₁ h₁ =>
    let id := Identifier.ofText (d.scope.qualify false target)
    match d.shapes.get? id.root.toText with
    | none => .failed ⟨.applyToUndeclaredShape id.toText, none⟩ c₁
    | some entry =>
      match readApplied d.scope c₁ with
      | .failed e rest => .failed e rest
      | .ok (name, v) c₂ h₂ =>
        match applyTo id (Table.empty.insert name v) entry with
        | .error e => .failed ⟨e, none⟩ c₂
        | .ok entry =>
          match c₂.endStatement with
          | .failed e rest => .failed e rest
          | .ok () rest h =>
            .ok { d with shapes := d.shapes.insert id.root.toText entry } rest (by omega)

/-- A statement that starts with a word, with the cursor before it. -/
def readStatement (d : Draft) (w : String) (c : Cursor) (h : c.peek? = some (.word w)) :
    Outcome Draft c.left :=
  have hlt := Cursor.left_advance_lt h
  if w = "namespace" then
    match d.checkDeclaration "namespace" with
    | .error e => .failed (c.failure e) c
    | .ok () =>
      if d.scope.space.isSome then .failed (c.failure .duplicateNamespace) c
      else
        match readWordStatement c.advance with
        | .failed e rest => .failed e rest
        | .ok space rest hr => .ok (d.setSpace space) rest (by omega)
  else if w = "metadata" then
    if !d.pending.isEmpty then .failed (c.failure .unattachedTraits) c
    else
      match readMetadata d c.advance with
      | .failed e rest => .failed e rest
      | .ok d rest hr => .ok d rest (by omega)
  else if w = "use" then
    match d.checkDeclaration "use" with
    | .error e => .failed (c.failure e) c
    | .ok () =>
      match readWordStatement c.advance with
      | .failed e rest => .failed e rest
      | .ok target rest hr => .ok (d.addAlias target) rest (by omega)
  else if w = "apply" then
    if !d.pending.isEmpty then .failed (c.failure .unattachedTraits) c
    else
      match readApply d c.advance with
      | .failed e rest => .failed e rest
      | .ok d rest hr => .ok d rest (by omega)
  else if isTraitWord w then
    match readTrait d.scope c with
    | .failed e rest => .failed e rest
    | .ok (name, v) c₁ h₁ =>
      .ok { d with pending := d.pending.insert name v } c₁.skipNewline
        (Nat.lt_of_le_of_lt c₁.left_skipNewline_le h₁)
  else readShape d c

/-- All statements up to the end of the input. A blank line may not part annotations from their
shape. -/
def readStatements (d : Draft) (c : Cursor) : Outcome Draft (c.left + 1) :=
  match h : c.peek? with
  | none =>
    if d.pending.isEmpty then .ok d c (Nat.lt_succ_self _)
    else .failed (c.failure .unattachedTraits) c
  | some .newline =>
    if !d.pending.isEmpty then .failed (c.failure .unattachedTraits) c
    else
      have h₁ := Cursor.left_advance_lt h
      match readStatements d c.advance with
      | .failed e rest => .failed e rest
      | .ok d rest hr => .ok d rest (by omega)
  | some (.documentation line) =>
    have h₁ := Cursor.left_advance_lt h
    have h₂ := c.advance.left_skipNewline_le
    match readStatements { d with pending := d.pending.document line } c.advance.skipNewline with
    | .failed e rest => .failed e rest
    | .ok d rest hr => .ok d rest (by omega)
  | some (.word w) =>
    match readStatement d w c h with
    | .failed e rest => .failed e rest
    | .ok d c₁ h₁ =>
      match readStatements d c₁ with
      | .failed e rest => .failed e rest
      | .ok d rest hr => .ok d rest (by omega)
  | some _ => .failed (c.unexpected "a shape declaration") c
termination_by c.left
decreasing_by all_goals omega

end Draft

/-- A whole document, section after section. -/
def readDocument (traitNames : List String) (c : Cursor) : Outcome Draft (c.left + 1) :=
  have h₀ := c.left_skipNewlines_le
  match Draft.readVersions (.start traitNames) c.skipNewlines with
  | .failed e rest => .failed e rest
  | .ok d c₁ h₁ =>
    match Draft.readMetadataSection d c₁ with
    | .failed e rest => .failed e rest
    | .ok d c₂ h₂ =>
      match Draft.readStatements d c₂ with
      | .failed e rest => .failed e rest
      | .ok d rest h => .ok d rest (by omega)

def ofTokens (traitNames : List String) (s : Source) (ts : List Token) :
    Except SyntaxFailure Value :=
  match readDocument traitNames (.ofTokens s ts) with
  | .ok d _ _ => .ok d.toValue
  | .failed e rest =>
    match e.place with
    | some _ => .error e
    | none => .error (rest.back.failure e.error)

end ShapeModel.Document
