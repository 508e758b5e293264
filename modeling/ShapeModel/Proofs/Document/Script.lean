import ShapeModel.Proofs.Document.Run

/-!
# Statements as data

What each statement of a document says, taken by itself; a declaration is one with the notes before
it. Reading takes the tokens apart into such statements and carries them out one after the other.
-/

namespace ShapeModel

set_option autoImplicit false

namespace Document

open Token (Kind)

/-- What is written before a shape: a line of documentation, or a trait with its value. -/
inductive Note
  | line (text : String)
  | applied (name : String) (v : Value)

/-- The trait that a note is about. -/
def Note.name : Note → String
  | .line _ => documentationName
  | .applied name _ => name

def Annotations.note (as : Annotations) : Note → Annotations
  | .line text => as.document text
  | .applied name v => as.insert name v

/-- What notes add up to. -/
def annotationsOf (ns : List Note) : Annotations :=
  ns.foldl Annotations.note .empty

/-- A shape as it is declared, with the parts of its body in the order they are written. -/
structure Declaration where
  notes : List Note
  keyword : String
  name : String
  body : Option Value.Fields

/-- What the parts of a body make of an entry. -/
def BodyStyle.extend (entry ms : Value.Fields) : BodyStyle → Value.Fields
  | .fields => Entries.insertAll entry ms
  | _ => Entries.insert "members" (.ofPairs ms) entry

/-- The entry of a shape as its declaration gives it. -/
def Declaration.entry (x : Declaration) : Value.Fields :=
  let start := Draft.shapeEntry x.keyword (annotationsOf x.notes)
  match x.body with
  | none => start
  | some ms => (BodyStyle.ofKeyword x.keyword).extend start ms

inductive Statement
  | space (name : String)
  | metadata (key : String) (v : Value)
  | use (target : String)
  | application (target : Identifier) (name : String) (v : Value)
  | declaration (x : Declaration)

theorem annotationsOf_nil : annotationsOf [] = .empty := rfl

theorem annotationsOf_append (ns : List Note) (n : Note) :
    annotationsOf (ns ++ [n]) = (annotationsOf ns).note n := by
  rw [annotationsOf, List.foldl_append]
  rfl

theorem eq_nil_of_isEmpty_annotationsOf {ns : List Note}
    (h : (annotationsOf ns).isEmpty = true) : ns = [] := by
  rcases List.eq_nil_or_concat ns with rfl | ⟨ns, n, rfl⟩
  · rfl
  · rw [List.concat_eq_append, annotationsOf_append] at h
    cases n <;> cases (Table.isEmpty_insert _ _ _).symm.trans h

/-- The tokens of a note. -/
inductive IsNote (s : Scope) : List Kind → Note → Prop
  | line (text : String) : IsNote s [.documentation text] (.line text)
  | applied {w name : String} {v : Value} {ts : List Kind} : isTraitWord w = true →
      IsTrait s (.word w :: ts) name v → IsNote s (.word w :: ts) (.applied name v)

/-- A line break, or nothing. -/
inductive OptionalBreak : List Kind → Prop
  | absent : OptionalBreak []
  | present : OptionalBreak [.newline]

/-- The tokens of notes, with one line break at most behind each. -/
inductive AreNotes (s : Scope) : List Kind → List Note → Prop
  | nil : AreNotes s [] []
  | cons {ts gap rest : List Kind} {n : Note} {ns : List Note} : IsNote s ts n →
      OptionalBreak gap → AreNotes s rest ns → AreNotes s (ts ++ (gap ++ rest)) (n :: ns)

/-- The form of the parts of a body. -/
def IsPart (s : Scope) : BodyStyle → Annotations → List Kind → String → Value → Prop
  | .enumeration => IsEnumMember s
  | _ => IsMember s

/-- The tokens of a shape type, a name and the body, if there is one. -/
inductive IsHead (s : Scope) (keyword name : String) : List Kind → Option Value.Fields → Prop
  | bare : IsHead s keyword name [.word keyword, .word name] none
  | body {ts : List Kind} {ms : Value.Fields} :
      AreMembers s (IsPart s (.ofKeyword keyword)) ts ms →
      IsHead s keyword name (.word keyword :: .word name :: .grammar '{' :: ts) (some ms)

/-- The tokens of a declaration, from its notes on, without its end. -/
inductive IsDeclaration (s : Scope) : List Kind → Declaration → Prop
  | intro {us ts : List Kind} {x : Declaration} : AreNotes s us x.notes →
      x.keyword ∉ Draft.keywords → isTraitWord x.keyword = false →
      IsHead s x.keyword x.name ts x.body → IsDeclaration s (us ++ ts) x

/-- The tokens of a statement, without its end. -/
inductive Spells (s : Scope) : List Kind → Statement → Prop
  | space (name : String) : Spells s [.word "namespace", .word name] (.space name)
  | metadata {k : Kind} {key : String} {ts : List Kind} {v : Value} : IsKey k key →
      IsValue s .metadata ts v →
      Spells s (.word "metadata" :: k :: .grammar '=' :: ts) (.metadata key v)
  | use (target : String) : Spells s [.word "use", .word target] (.use target)
  | application {target w name : String} {us : List Kind} {v : Value} : isTraitWord w = true →
      IsTrait s (.word w :: us) name v →
      Spells s (.word "apply" :: .word target :: .word w :: us)
        (.application (.ofText (s.qualify false target)) name v)
  | declaration {ts : List Kind} {x : Declaration} : IsDeclaration s ts x →
      Spells s ts (.declaration x)

namespace Draft

/-- The shape is there, and no annotations wait any more. -/
def declare (d : Draft) (x : Declaration) : Draft :=
  { d with
    shapes := d.shapes.insert (d.shapeName x.name) (.object x.entry), pending := .empty }

/-- Carrying out a statement takes one draft to the next, if the statement may come here. -/
inductive Performs (d : Draft) : Statement → Draft → Prop
  | space {name : String} : d.checkDeclaration "namespace" = .ok () → d.scope.space = none →
      Performs d (.space name) (d.setSpace name)
  | metadata {key : String} {v : Value} :
      Performs d (.metadata key v) { d with metadata := d.metadata.insert key v }
  | use {target : String} : d.checkDeclaration "use" = .ok () →
      Performs d (.use target) (d.addAlias target)
  | application {target : Identifier} {name : String} {v entry entry' : Value} :
      d.shapes.get? target.root.toText = some entry →
      applyTo target (Table.empty.insert name v) entry = .ok entry' →
      Performs d (.application target name v)
        { d with shapes := d.shapes.insert target.root.toText entry' }
  | declaration {x : Declaration} : d.shapes.contains (d.shapeName x.name) = false →
      Performs d (.declaration x) (d.declare x)

/-- Statements take one draft to another while their tokens are read to the end. -/
inductive Runs : Draft → List Kind → List Statement → Draft → Prop
  | done {d : Draft} : Runs d [] [] d
  | newline {d d' : Draft} {ks : List Kind} {es : List Statement} : Runs d ks es d' →
      Runs d (.newline :: ks) es d'
  | statement {d d₁ d' : Draft} {ts fin rest : List Kind} {e : Statement} {es : List Statement} :
      Spells d.scope ts e → Performs d e d₁ → Ends fin rest → Runs d₁ rest es d' →
      Runs d (ts ++ (fin ++ rest)) (e :: es) d'

end Draft

section

variable {s : Scope} {keyword name : String} {entry entry' : Value.Fields} {ts : List Kind}

theorem isBody_iff {style : BodyStyle} :
    IsBody s entry style (.grammar '{' :: ts) entry' ↔
      ∃ ms, AreMembers s (IsPart s style) ts ms ∧ style.extend entry ms = entry' := by
  constructor
  · intro h
    cases h with
    | enumeration h => exact ⟨_, h, rfl⟩
    | members h => exact ⟨_, h, rfl⟩
    | fields h => exact ⟨_, h, rfl⟩
  · rintro ⟨ms, h, rfl⟩
    cases style with
    | enumeration => exact .enumeration h
    | members => exact .members h
    | fields => exact .fields h

theorem IsHead.eq_cons {body : Option Value.Fields} (h : IsHead s keyword name ts body) :
    ∃ us, ts = .word keyword :: .word name :: us := by
  cases h <;> exact ⟨_, rfl⟩

end

/-- There is a cursor before any tokens. -/
theorem exists_cursor (ks : List Kind) : ∃ c : Cursor, c.kinds = ks :=
  ⟨⟨⟨"", ""⟩, [], ks.map (⟨·, "", .start⟩)⟩, by simp [Cursor.kinds, Function.comp_def]⟩

/-- What can stand right behind a note and belongs to it no more. -/
def Follows (ks : List Kind) : Prop :=
  ks.head? ≠ some .newline ∧ ks.head? ≠ some (.grammar '(')

theorem follows_word (w : String) (ks : List Kind) : Follows (.word w :: ks) :=
  ⟨by simp, by simp⟩

section

variable {s : Scope} {us ks gap : List Kind} {ns : List Note}

theorem AreNotes.follows (h : AreNotes s us ns) (hks : Follows ks) : Follows (us ++ ks) := by
  cases h with
  | nil => exact hks
  | cons hn =>
    cases hn with
    | line => exact ⟨by simp, by simp⟩
    | applied => exact ⟨by simp, by simp⟩

theorem AreNotes.append {ts : List Kind} {n : Note} (h : AreNotes s us ns) (hn : IsNote s ts n)
    (hgap : OptionalBreak gap) : AreNotes s (us ++ (ts ++ gap)) (ns ++ [n]) := by
  induction h with
  | nil =>
    have hone := AreNotes.cons hn hgap .nil
    rwa [List.append_nil] at hone
  | cons hn' hgap' _ ih =>
    rw [List.append_assoc, List.append_assoc]
    exact .cons hn' hgap' ih

theorem exists_optionalBreak (ks : List Kind) :
    ∃ gap, OptionalBreak gap ∧ ks = gap ++ Draft.dropBreak ks := by
  by_cases h : ks.head? = some .newline
  · obtain ⟨us, rfl⟩ := List.head?_eq_some_iff.mp h
    exact ⟨_, .present, rfl⟩
  · exact ⟨[], .absent, by rw [Draft.dropBreak, if_neg h, List.nil_append]⟩

theorem OptionalBreak.dropBreak_append (h : OptionalBreak gap) (hks : Follows ks) :
    Draft.dropBreak (gap ++ ks) = ks := by
  cases h with
  | absent => exact if_neg hks.1
  | present => rfl

theorem OptionalBreak.head?_ne (h : OptionalBreak gap) (hks : Follows ks) :
    (gap ++ ks).head? ≠ some (.grammar '(') := by
  cases h with
  | absent => exact hks.2
  | present => simp

end

namespace Draft

variable {d d₁ d' : Draft} {ks ts us rest : List Kind} {n : Note} {ns : List Note}
  {x : Declaration}

theorem isShape_iff {keyword : String} :
    IsShape d (.word keyword :: ts) d' ↔ ∃ name body,
      IsHead d.scope keyword name (.word keyword :: ts) body ∧
      d.shapes.contains (d.shapeName name) = false ∧
      d' = { d with
        shapes := d.shapes.insert (d.shapeName name) (.object (match body with
          | none => shapeEntry keyword d.pending
          | some ms => (BodyStyle.ofKeyword keyword).extend (shapeEntry keyword d.pending) ms)),
        pending := .empty } := by
  constructor
  · intro h
    cases h with
    | bare hnew => exact ⟨_, _, .bare, hnew, rfl⟩
    | body hnew hbody =>
      obtain ⟨us, rfl⟩ := hbody.head_eq
      obtain ⟨ms, hms, rfl⟩ := isBody_iff.mp hbody
      exact ⟨_, _, .body hms, hnew, rfl⟩
  · rintro ⟨name, body, hhead, hnew, rfl⟩
    cases hhead with
    | bare => exact .bare hnew
    | body hms => exact .body hnew (isBody_iff.mpr ⟨_, hms, rfl⟩)

/-- The annotations that wait get one more note. -/
def note (d : Draft) (n : Note) : Draft :=
  { d with pending := d.pending.note n }

theorem foldl_note (d : Draft) (ns : List Note) :
    ns.foldl note d = { d with pending := ns.foldl Annotations.note d.pending } := by
  induction ns generalizing d with
  | nil => rfl
  | cons n ns ih => exact ih (d.note n)

theorem foldl_note_of_pending (hpending : d.pending = .empty) (ns : List Note) :
    ns.foldl note d = { d with pending := annotationsOf ns } := by
  rw [foldl_note, hpending, annotationsOf]

theorem Reads.exists_readStatement {w : String} (h : Reads d (.word w :: ks) d') :
    ∃ (c : Cursor) (hc : c.peek? = some (.word w)) (d₁ : Draft) (rest : List Kind),
      c.kinds = .word w :: ks ∧ (readStatement d w c hc).Gives d₁ rest ∧ Reads d₁ rest d' := by
  obtain ⟨c, hc⟩ := exists_cursor (.word w :: ks)
  have hw : c.peek? = some (.word w) := Cursor.peek?_of_cons hc
  obtain ⟨d₁, c₁, h₁, hstatement, hmore⟩ :=
    (readStatements_word_iff hw).mp (readStatements_of_reads h hc)
  exact ⟨c, hw, d₁, _, hc, Outcome.gives_of_eq hstatement, (reads_of_readStatements _ hmore).2⟩

/-- Reading is a function of the tokens: the step that is possible is the one that is taken. -/
theorem Reads.of_readStatement {w : String} (hreads : Reads d (.word w :: ks) d')
    (h : ∀ {c : Cursor} {hc : c.peek? = some (.word w)}, c.kinds = .word w :: ks →
      (readStatement d w c hc).Gives d₁ rest) : Reads d₁ rest d' := by
  obtain ⟨c, hw, d₂, _, hc, ⟨c₁, h₁, hstatement, rfl⟩, hmore⟩ := hreads.exists_readStatement
  obtain ⟨_, _, hstep, hc₁⟩ := @h c hw hc
  cases hstatement.symm.trans hstep
  exact hc₁ ▸ hmore

theorem IsStatement.reads_iff {fin : List Kind} (h : IsStatement d ts d₁) (hends : Ends fin rest) :
    Reads d (ts ++ (fin ++ rest)) d' ↔ Reads d₁ rest d' := by
  refine ⟨fun hreads => ?_, .step (.statement h hends)⟩
  obtain ⟨w, us, rfl, -⟩ := h.head_eq
  exact hreads.of_readStatement (readStatement_of_isStatement h hends)

theorem reads_applied_iff {w name : String} {v : Value} (hw : isTraitWord w = true)
    (htrait : IsTrait d.scope (.word w :: us) name v) (hks : ks.head? ≠ some (.grammar '(')) :
    Reads d (.word w :: (us ++ ks)) d' ↔ Reads (d.annotate name v) (dropBreak ks) d' := by
  refine ⟨fun hreads => hreads.of_readStatement fun hc => ?_, .step (.applied hw htrait)⟩
  have hread := readTrait_of_isTrait htrait hc hks
  exact (readStatement_applied_iff hw).mpr ⟨name, v, ks, hread, rfl, rfl⟩

theorem Reads.documentation_iff {line : String} :
    Reads d (.documentation line :: ks) d' ↔ Reads (d.document line) (dropBreak ks) d' := by
  refine ⟨fun h => ?_, .documentation⟩
  cases h with
  | documentation h => exact h
  | step hs =>
    obtain ⟨w, us, hus⟩ := hs.head_eq
    cases hus

theorem Reads.note_iff {gap : List Kind} (h : IsNote d.scope ts n) (hgap : OptionalBreak gap)
    (hks : Follows ks) : Reads d (ts ++ (gap ++ ks)) d' ↔ Reads (d.note n) ks d' := by
  have hdrop := hgap.dropBreak_append hks
  cases h with
  | line text =>
    rw [List.singleton_append, Reads.documentation_iff, hdrop]
    rfl
  | applied hw htrait =>
    rw [List.cons_append, reads_applied_iff hw htrait (hgap.head?_ne hks), hdrop]
    rfl

theorem Reads.notes_iff (h : AreNotes d.scope us ns) (hks : Follows ks) :
    Reads d (us ++ ks) d' ↔ Reads (ns.foldl note d) ks d' := by
  induction ns generalizing d us with
  | nil =>
    cases h
    rfl
  | cons n ns ih =>
    cases h with
    | cons hn hgap hmore =>
      rw [List.append_assoc, List.append_assoc, Reads.note_iff hn hgap (hmore.follows hks)]
      exact ih hmore

theorem Reads.contains_eq_false {keyword name : String} (hkeyword : keyword ∉ keywords)
    (hw : isTraitWord keyword = false) (h : Reads d (.word keyword :: .word name :: ks) d') :
    d.shapes.contains (d.shapeName name) = false := by
  obtain ⟨c, hc, d₁, rest, hkinds, hread, -⟩ := h.exists_readStatement
  rw [readStatement_shape hkeyword hw] at hread
  obtain ⟨keyword', ts, fin, hts, hshape, -⟩ := isShape_of_readShape hread
  obtain ⟨name', body, hhead, hnew, -⟩ := isShape_iff.mp hshape
  obtain ⟨us, hus⟩ := hhead.eq_cons
  cases (List.cons.inj hus).2
  rw [hkinds, List.cons_append] at hts
  simp only [List.cons.injEq, Kind.word.injEq] at hts
  obtain ⟨-, rfl, -⟩ := hts
  exact hnew

theorem isShape_of_isHead {keyword name : String} {body : Option Value.Fields}
    (h : IsHead d.scope keyword name ts body) (hpending : d.pending = annotationsOf ns)
    (hnew : d.shapes.contains (d.shapeName name) = false) :
    IsShape d ts (d.declare ⟨ns, keyword, name, body⟩) := by
  cases h with
  | bare => exact isShape_iff.mpr ⟨_, _, .bare, hnew, by rw [hpending]; rfl⟩
  | body hms => exact isShape_iff.mpr ⟨_, _, .body hms, hnew, by rw [hpending]; rfl⟩

section

variable (hpending : d.pending = .empty) (h : IsDeclaration d.scope us x)
include hpending h

theorem Reads.declaration_new (hreads : Reads d (us ++ ks) d') :
    d.shapes.contains (d.shapeName x.name) = false := by
  obtain ⟨hnotes, hkeyword, hw, hhead⟩ := h
  obtain ⟨us, rfl⟩ := hhead.eq_cons
  rw [List.append_assoc, List.cons_append, List.cons_append,
    Reads.notes_iff hnotes (follows_word _ _), foldl_note_of_pending hpending] at hreads
  have hnew := hreads.contains_eq_false hkeyword hw
  exact hnew

theorem Reads.declaration (hnew : d.shapes.contains (d.shapeName x.name) = false) :
    Reads d us (d.declare x) := by
  obtain ⟨hnotes, hkeyword, hw, hhead⟩ := h
  obtain ⟨us, rfl⟩ := hhead.eq_cons
  rw [Reads.notes_iff hnotes (follows_word _ _), foldl_note_of_pending hpending]
  have hshape := isShape_of_isHead (d := { d with pending := annotationsOf x.notes }) hhead rfl hnew
  have hstep := IsStep.statement (.shape hkeyword hw hshape) .input
  rw [List.append_nil, List.append_nil] at hstep
  exact .step hstep (.done rfl)

end

theorem IsStatement.reads (h : IsStatement d ts d₁) (hpending : d₁.pending = .empty) :
    Reads d ts d₁ := by
  have hstep := IsStep.statement h .input
  rw [List.append_nil, List.append_nil] at hstep
  exact .step hstep (.done (by rw [hpending]; rfl))

/-- A statement that is possible is read to its end. -/
theorem reads_of_spells {e : Statement} (hpending : d.pending = .empty) (h : Spells d.scope ts e)
    (hperforms : Performs d e d₁) : Reads d ts d₁ ∧ d₁.pending = .empty := by
  have hempty : d.pending.isEmpty = true := by
    rw [hpending]
    rfl
  cases hperforms with
  | space hcheck hspace =>
    cases h
    exact ⟨IsStatement.reads (.space hcheck hspace) hpending, hpending⟩
  | metadata =>
    cases h with
    | metadata hk hv => exact ⟨IsStatement.reads (.metadata hempty hk hv) hpending, hpending⟩
  | use hcheck =>
    cases h
    exact ⟨IsStatement.reads (.use hcheck) hpending, hpending⟩
  | application hentry happly =>
    cases h with
    | application hw htrait =>
      have happlication := IsApplication.intro hentry hw htrait happly
      exact ⟨IsStatement.reads (.application hempty happlication) hpending, hpending⟩
  | declaration hnew =>
    cases h with
    | declaration hx => exact ⟨Reads.declaration hpending hx hnew, rfl⟩

theorem Reads.head?_append_ne (h : Reads d (dropBreak ks) d') (us : List Kind) :
    (ks ++ .newline :: us).head? ≠ some (.grammar '(') := by
  cases ks with
  | nil => simp
  | cons k ks =>
    rintro ⟨⟩
    exact h.head?_ne '(' rfl

/-- What is read behind a line break goes on from what is read before it. -/
theorem Reads.append_newline_iff {d'' : Draft} (h : Reads d ks d') :
    Reads d (ks ++ .newline :: us) d'' ↔ Reads d' us d'' := by
  refine ⟨fun hreads => ?_, h.append_newline⟩
  induction h with
  | done => exact hreads.of_newline.2
  | newline _ _ ih => exact ih hreads.of_newline.2
  | documentation h ih =>
    rw [List.cons_append, Reads.documentation_iff,
      h.dropBreak_append (Table.isEmpty_insert _ _ _)] at hreads
    exact ih hreads
  | step hstep h ih =>
    cases hstep with
    | @statement ts fin rest d₁ hs hends =>
      rw [List.append_assoc, List.append_assoc] at hreads
      cases hends with
      | newline => exact ih ((hs.reads_iff (.newline _)).mp hreads)
      | input =>
        have hends : Ends [.newline] us := .newline _
        cases h.eq_of_nil
        exact (hs.reads_iff hends).mp hreads
    | @applied w name v vs ks hw htrait =>
      rw [List.cons_append, List.append_assoc] at hreads
      rw [reads_applied_iff hw htrait (h.head?_append_ne us),
        h.dropBreak_append (Table.isEmpty_insert _ _ _)] at hreads
      exact ih hreads

theorem Runs.reads {es : List Statement} (h : Runs d ks es d') (hpending : d.pending = .empty) :
    Reads d ks d' := by
  induction h with
  | done => exact .done (by rw [hpending]; rfl)
  | newline _ ih => exact .newline (by rw [hpending]; rfl) (ih hpending)
  | statement h hperforms hends hruns ih =>
    obtain ⟨hreads, hpending⟩ := reads_of_spells hpending h hperforms
    cases hends with
    | newline => exact hreads.append_newline (ih hpending)
    | input =>
      cases (ih hpending).eq_of_nil
      rwa [List.append_nil, List.append_nil]

theorem isEmpty_of_checkDeclaration {keyword : String}
    (h : d.checkDeclaration keyword = .ok ()) : d.pending.isEmpty = true := by
  cases hpending : d.pending.isEmpty with
  | true => rfl
  | false => simp [checkDeclaration, hpending] at h

theorem checkDeclaration_ne_ok (h : d.shapes.isEmpty = false) (keyword : String) :
    d.checkDeclaration keyword ≠ .ok () := by
  rw [checkDeclaration]
  cases d.pending.isEmpty <;> simp [h]

/-- A statement that is read behind notes is a declaration with these, or there are no notes. -/
theorem IsStatement.exists_spells (h : IsStatement { d with pending := annotationsOf ns } ts d₁)
    (hnotes : AreNotes d.scope us ns) (hpending : d.pending = .empty) :
    ∃ e, Spells d.scope (us ++ ts) e ∧ Performs d e d₁ ∧ d₁.pending = .empty := by
  have hnone (hempty : (annotationsOf ns).isEmpty = true) :
      us = [] ∧ { d with pending := annotationsOf ns } = d := by
    cases eq_nil_of_isEmpty_annotationsOf hempty
    cases hnotes
    exact ⟨rfl, by rw [annotationsOf_nil, ← hpending]⟩
  cases h with
  | space hcheck hspace =>
    obtain ⟨rfl, hd⟩ := hnone (isEmpty_of_checkDeclaration hcheck)
    rw [hd] at hcheck hspace ⊢
    exact ⟨_, .space _, .space hcheck hspace, hpending⟩
  | metadata hempty hk hv =>
    obtain ⟨rfl, hd⟩ := hnone hempty
    rw [hd] at hv ⊢
    exact ⟨_, .metadata hk hv, .metadata, hpending⟩
  | use hcheck =>
    obtain ⟨rfl, hd⟩ := hnone (isEmpty_of_checkDeclaration hcheck)
    rw [hd] at hcheck ⊢
    exact ⟨_, .use _, .use hcheck, hpending⟩
  | application hempty happlication =>
    obtain ⟨rfl, hd⟩ := hnone hempty
    rw [hd] at happlication
    obtain ⟨hentry, hw, htrait, happly⟩ := happlication
    exact ⟨_, .application hw htrait, .application hentry happly, hpending⟩
  | shape hkeyword hw hshape =>
    obtain ⟨name, body, hhead, hnew, rfl⟩ := isShape_iff.mp hshape
    have hx : IsDeclaration d.scope (us ++ _) ⟨ns, _, name, body⟩ := .intro hnotes hkeyword hw hhead
    exact ⟨_, .declaration hx, .declaration hnew, rfl⟩

theorem exists_runs_of_reads (h : Reads d ks d') {d₀ : Draft} (hnotes : AreNotes d₀.scope us ns)
    (hpending : d₀.pending = .empty) (hd : d = { d₀ with pending := annotationsOf ns }) :
    ∃ es, Runs d₀ (us ++ ks) es d' := by
  induction h generalizing d₀ us ns with
  | done hempty =>
    subst hd
    cases eq_nil_of_isEmpty_annotationsOf hempty
    cases hnotes
    exact ⟨[], by rw [annotationsOf_nil, ← hpending]; exact .done⟩
  | newline hempty _ ih =>
    subst hd
    cases eq_nil_of_isEmpty_annotationsOf hempty
    cases hnotes
    obtain ⟨es, hruns⟩ := ih .nil hpending rfl
    exact ⟨es, .newline hruns⟩
  | @documentation _ _ line ks h ih =>
    subst hd
    obtain ⟨gap, hgap, hks⟩ := exists_optionalBreak ks
    have hmore := hnotes.append (.line line) hgap
    obtain ⟨es, hruns⟩ := ih hmore hpending (by rw [annotationsOf_append]; rfl)
    rw [List.append_assoc, List.append_assoc, ← hks] at hruns
    exact ⟨es, hruns⟩
  | step hstep h ih =>
    subst hd
    cases hstep with
    | statement hs hends =>
      obtain ⟨e, hspells, hperforms, hpending⟩ := hs.exists_spells hnotes hpending
      obtain ⟨es, hruns⟩ := ih .nil hpending (by rw [annotationsOf_nil, ← hpending])
      rw [← List.append_assoc]
      exact ⟨e :: es, .statement hspells hperforms hends hruns⟩
    | @applied w name v vs ks hw htrait =>
      obtain ⟨gap, hgap, hks⟩ := exists_optionalBreak ks
      have hmore := hnotes.append (.applied hw htrait) hgap
      obtain ⟨es, hruns⟩ := ih hmore hpending (by rw [annotationsOf_append]; rfl)
      rw [List.append_assoc, List.append_assoc, ← hks] at hruns
      exact ⟨es, hruns⟩

/-- Reading to the end is to carry out the statements that the tokens are taken apart into. -/
theorem reads_iff_exists_runs (hpending : d.pending = .empty) :
    Reads d ks d' ↔ ∃ es, Runs d ks es d' := by
  constructor
  · intro h
    exact exists_runs_of_reads h .nil hpending (by rw [annotationsOf_nil, ← hpending])
  · rintro ⟨es, hruns⟩
    exact hruns.reads hpending

/-- The statements of a document, from behind the versions it may start with. -/
inductive RunsDocument : Draft → List Kind → List Statement → Draft → Prop
  | version {d d' : Draft} {v : String} {fin rest : List Kind} {es : List Statement} :
      Ends fin rest → RunsDocument { d with version := some v } (dropBreaks rest) es d' →
      RunsDocument d (.word "$version" :: .grammar ':' :: .string v :: (fin ++ rest)) es d'
  | statements {d d' : Draft} {ks : List Kind} {es : List Statement} :
      ks.head? ≠ some (.word "$version") → Runs d ks es d' → RunsDocument d ks es d'

theorem readsDocument_iff_exists_runs (hpending : d.pending = .empty) :
    ReadsDocument d ks d' ↔ ∃ es, RunsDocument d ks es d' := by
  constructor
  · intro h
    induction h with
    | version hends _ ih =>
      obtain ⟨es, hruns⟩ := ih hpending
      exact ⟨es, .version hends hruns⟩
    | statements hhead h =>
      obtain ⟨es, hruns⟩ := (reads_iff_exists_runs hpending).mp h
      exact ⟨es, .statements hhead hruns⟩
  · rintro ⟨es, hruns⟩
    induction hruns with
    | version hends _ ih => exact .version hends (ih hpending)
    | statements hhead hruns => exact .statements hhead (hruns.reads hpending)

end Draft

/-- What is read of a document, when its tokens are taken to the end. -/
theorem ofTokens_eq_ok_iff {names : List String} {src : Source} {ts : List Token} {ast : Value} :
    ofTokens names src ts = .ok ast ↔ ∃ d,
      Draft.ReadsDocument (.start names) (dropBreaks (ts.map (·.kind))) d ∧ d.toValue = ast := by
  have hgives (d : Draft)
      (h : Draft.ReadsDocument (.start names) (dropBreaks (Cursor.ofTokens src ts).kinds) d) :
      (readDocument names (.ofTokens src ts)).Gives d [] :=
    Draft.readDocument_gives_iff.mpr ⟨rfl, h⟩
  rw [ofTokens]
  cases hread : readDocument names (.ofTokens src ts) with
  | ok d c h =>
    simp only [Except.ok.injEq]
    constructor
    · intro hast
      exact ⟨d, (Draft.readDocument_gives_iff.mp (Outcome.gives_of_eq hread)).2, hast⟩
    · rintro ⟨d', hreads, hast⟩
      obtain ⟨_, _, hread', _⟩ := hgives d' hreads
      cases hread.symm.trans hread'
      exact hast
  | failed e c =>
    obtain ⟨error, place⟩ := e
    refine iff_of_false ?_ ?_
    · cases place <;> simp
    · rintro ⟨d', hreads, -⟩
      obtain ⟨_, _, hread', _⟩ := hgives d' hreads
      cases hread.symm.trans hread'

end Document

end ShapeModel
