import ShapeModel.Proofs.Document.Kept
import ShapeModel.Proofs.Document.Phrase
import ShapeModel.Proofs.Table.Keys

/-!
# Declared shapes

The phrases of a document that is read are in order: the name space is given once at most and before
all shapes, names in use come before all shapes as well, and notes stand before declarations. Every
declaration adds a shape of its own, and nothing else does.
-/

namespace ShapeModel

set_option autoImplicit false

namespace Document

open Token (Kind)

/-- Phrases in an order that is read. -/
structure Orderly (ps : List Phrase) : Prop where
  space : (ps.filterMap Phrase.space?).length ≤ 1
  opening : ps.Pairwise fun p q => p.declared?.isSome = true → q.opens = false
  attached : ∀ before n after, ps = before ++ .note n :: after →
    ∃ q ∈ after.head?, q.bearsNotes = true
  names : (ps.filterMap Phrase.declared?).Nodup

/-- The absolute name of a shape that is declared in a document with this name space. -/
def absoluteName (space : Option String) (name : String) : String :=
  match space with
  | some space => space ++ "#" ++ name
  | none => name

namespace Draft

variable {d d₁ d' : Draft} {ps : List Phrase} {e : Statement}

theorem Carries.space_eq (h : Carries d e d₁) :
    d₁.scope.space.toList = d.scope.space.toList ++ (Phrase.statement e).space?.toList := by
  cases h with
  | performed _ _ h =>
    cases h with
    | space _ hspace =>
      rw [hspace]
      rfl
    | _ => exact (List.append_nil _).symm
  | declared => exact (List.append_nil _).symm

theorem Carries.keys_perm (h : Carries d e d₁) :
    d₁.shapes.keys.Perm
      (((Phrase.statement e).declared?.map d.shapeName).toList ++ d.shapes.keys) := by
  cases h with
  | performed _ hdeclared h =>
    rw [hdeclared]
    cases h with
    | @application target name v entry entry' hentry =>
      refine Table.keys_insert_perm_of_contains ?_ entry'
      rw [Table.contains, hentry, Option.isSome_some]
    | declaration => cases hdeclared
    | _ => exact .refl _
  | @declared x entry hnew => exact Table.keys_insert_perm_cons hnew entry

/-- Once there is a shape, the names stay what they are. -/
theorem Carries.of_shapes (h : Carries d e d₁) (hd : d.shapes.isEmpty = false) :
    (Phrase.statement e).opens = false ∧ d₁.scope = d.scope ∧ d₁.shapes.isEmpty = false := by
  cases h with
  | performed _ _ h =>
    have hscope := h.scope_eq hd
    refine ⟨?_, hscope⟩
    cases h with
    | space hcheck => exact absurd hcheck (checkDeclaration_ne_ok hd _)
    | use hcheck => exact absurd hcheck (checkDeclaration_ne_ok hd _)
    | _ => rfl
  | declared => exact ⟨rfl, rfl, Table.isEmpty_insert _ _ _⟩

theorem Takes.space_eq (h : Takes d ps d') :
    d'.scope.space.toList = d.scope.space.toList ++ ps.filterMap Phrase.space? := by
  induction h with
  | done => exact (List.append_nil _).symm
  | note _ ih => exact ih
  | @statement _ _ _ e ps hcarries _ ih =>
    rw [ih, hcarries.space_eq, List.append_assoc]
    cases h : (Phrase.statement e).space? <;> simp [h]

theorem Takes.of_shapes (h : Takes d ps d') (hd : d.shapes.isEmpty = false) :
    (∀ p ∈ ps, p.opens = false) ∧ d'.scope = d.scope := by
  induction h with
  | done => exact ⟨nofun, rfl⟩
  | note _ ih =>
    obtain ⟨hps, hscope⟩ := ih hd
    exact ⟨List.forall_mem_cons.mpr ⟨rfl, hps⟩, hscope⟩
  | statement hcarries _ ih =>
    obtain ⟨hopens, hscope, hd⟩ := hcarries.of_shapes hd
    obtain ⟨hps, hscope'⟩ := ih hd
    exact ⟨List.forall_mem_cons.mpr ⟨hopens, hps⟩, hscope'.trans hscope⟩

theorem Carries.shapes_of_declared (h : Carries d e d₁)
    (he : (Phrase.statement e).declared?.isSome = true) :
    d₁.shapes.isEmpty = false ∧ d₁.scope = d.scope := by
  cases h with
  | performed _ hdeclared =>
    rw [hdeclared] at he
    cases he
  | declared => exact ⟨Table.isEmpty_insert _ _ _, rfl⟩

theorem Takes.opening (h : Takes d ps d') :
    ps.Pairwise fun p q => p.declared?.isSome = true → q.opens = false := by
  induction h with
  | done => exact .nil
  | note _ ih => exact .cons (fun _ _ => nofun) ih
  | statement hcarries htakes ih =>
    refine .cons (fun q hq hdeclared => ?_) ih
    exact (htakes.of_shapes (hcarries.shapes_of_declared hdeclared).1).1 q hq

/-- The keys of the shapes are those that were there and the names that are declared. A name is made
absolute when it is declared, and the name space does not change from then on. -/
theorem Takes.keys_perm (h : Takes d ps d') :
    d'.shapes.keys.Perm ((ps.filterMap Phrase.declared?).map d'.shapeName ++ d.shapes.keys) := by
  induction h with
  | done => exact .refl _
  | note _ ih => exact ih
  | @statement d d₁ d' e ps hcarries htakes ih =>
    have hkeys := hcarries.keys_perm
    cases he : (Phrase.statement e).declared? with
    | none =>
      rw [he] at hkeys
      rw [List.filterMap_cons_none he]
      exact ih.trans (hkeys.append_left _)
    | some name =>
      obtain ⟨hd₁, hscope⟩ := hcarries.shapes_of_declared (by rw [he]; rfl)
      have hname : d'.shapeName name = d.shapeName name := by
        rw [shapeName, shapeName, (htakes.of_shapes hd₁).2, hscope]
      rw [he] at hkeys
      rw [List.filterMap_cons_some he, List.map_cons, hname]
      exact (ih.trans (hkeys.append_left _)).trans List.perm_middle

theorem Carries.bearsNotes (h : Carries d e d₁) (hd : d.pending.isEmpty = false) :
    (Phrase.statement e).bearsNotes = true := by
  cases h with
  | performed hempty => cases hd.symm.trans hempty
  | declared => rfl

theorem Takes.bearsNotes (h : Takes d ps d') (hd : d.pending.isEmpty = false) :
    ∃ q ∈ ps.head?, q.bearsNotes = true := by
  cases h with
  | done hempty => cases hd.symm.trans hempty
  | note => exact ⟨_, rfl, rfl⟩
  | statement hcarries => exact ⟨_, rfl, hcarries.bearsNotes hd⟩

theorem note_pending (d : Draft) (n : Note) : (d.note n).pending.isEmpty = false := by
  cases n <;> exact Table.isEmpty_insert _ _ _

theorem Takes.attached (h : Takes d ps d') {before after : List Phrase} {n : Note}
    (hps : ps = before ++ .note n :: after) : ∃ q ∈ after.head?, q.bearsNotes = true := by
  induction h generalizing before with
  | done => simp at hps
  | note htakes ih =>
    cases before with
    | nil =>
      cases hps
      exact htakes.bearsNotes (note_pending _ _)
    | cons p before => exact ih (List.cons.inj hps).2
  | statement _ _ ih =>
    cases before with
    | nil => cases hps
    | cons p before => exact ih (List.cons.inj hps).2

/-- What a document without shapes so far becomes. -/
theorem Takes.orderly (h : Takes d ps d') (hspace : d.scope.space = none)
    (hshapes : d.shapes = .empty) :
    Orderly ps ∧ d'.shapes.keys.Perm
      ((ps.filterMap Phrase.declared?).map (absoluteName (ps.filterMap Phrase.space?).head?)) := by
  have hspaces := h.space_eq
  rw [hspace, Option.toList_none, List.nil_append] at hspaces
  -- The name space at the end is the one that is written, since none was there before.
  have hname : absoluteName (ps.filterMap Phrase.space?).head? = d'.shapeName := by
    funext name
    rw [← hspaces, Option.head?_toList]
    rfl
  have hkeys := h.keys_perm
  rw [hshapes, show (Table.empty : Table String Value).keys = [] from rfl, List.append_nil] at hkeys
  have hnames := (hkeys.nodup_iff.mp d'.shapes.nodup_keys).of_map
  refine ⟨⟨?_, h.opening, fun _ _ _ => h.attached, hnames⟩, hname ▸ hkeys⟩
  rw [← hspaces]
  exact Option.length_toList_le

end Draft

end Document

/-- What is written in a source, taken apart into phrases. -/
def Dialect.Phrased (d : Dialect) (s : Source) (ps : List Document.Phrase) : Prop :=
  ∃ ts, s.tokens = .ok ts ∧ Document.WritesDocument (.ofTraitNames d.traits.names)
    (dropBreaks (ts.map (·.kind))) ps

/-- A source that is read consists of phrases, and however it is taken apart into phrases, they are
in order and the abstract syntax has one shape for each declaration. -/
theorem Dialect.orderly_of_syntaxTree {d : Dialect} {s : Source} {ast : Value}
    (h : d.syntaxTree s = .ok ast) :
    (∃ ps, d.Phrased s ps) ∧ ∀ ps, d.Phrased s ps → Document.Orderly ps ∧
      ∃ entries, ast.get? "shapes" = some (.object entries) ∧ (entries.map (·.1)).Perm
        ((ps.filterMap Document.Phrase.declared?).map
          (Document.absoluteName (ps.filterMap Document.Phrase.space?).head?)) := by
  obtain ⟨ts, hts, hks⟩ := Dialect.exists_tokens_of_syntaxTree h
  obtain ⟨draft, hreads, rfl⟩ := (Dialect.syntaxTree_eq_ok_iff hks).mp h
  constructor
  · obtain ⟨ps, hps⟩ := hreads.exists_writes
    exact ⟨ps, ts, hts, hps⟩
  · rintro ps ⟨ts', hts', hps⟩
    cases hts.symm.trans hts'
    obtain ⟨v, htakes⟩ := hreads.takes hps rfl
    obtain ⟨horderly, hkeys⟩ := htakes.orderly rfl rfl
    exact ⟨horderly, _, by rw [draft.get?_toValue, if_pos rfl], hkeys⟩

namespace Document

open Token (Kind kinds)

def stringShape (ns : List Note) (name : String) : Declaration :=
  ⟨ns, "string", name, none⟩

theorem spells_stringShape {s : Scope} {us : List Kind} {ns : List Note} (h : AreNotes s us ns)
    (name : String) :
    Spells s (us ++ [.word "string", .word name]) (.declaration (stringShape ns name)) := by
  have hkeyword : "string" ∉ Draft.keywords := by decide
  have hword : isTraitWord "string" = false := rfl
  have hx : IsDeclaration s (us ++ [.word "string", .word name]) (stringShape ns name) :=
    @IsDeclaration.intro s us _ (stringShape ns name) h hkeyword hword .bare
  exact .declaration hx

theorem writes_stringShape {s : Scope} {fin rest : List Kind} {ps : List Phrase} (name : String)
    (hends : Draft.Ends fin rest) (h : Writes s rest ps) :
    Writes s ([.word "string", .word name] ++ (fin ++ rest))
      (.statement (.declaration (stringShape [] name)) :: ps) :=
  @Writes.statement s _ _ _ (.declaration (stringShape [] name)) _ rfl
    (spells_stringShape .nil name) hends h

theorem phrased_of_kinds {d : Dialect} {s : Source} {ks : List Kind} {ps : List Phrase}
    (hks : kinds s.text.toList = .ok ks)
    (h : WritesDocument (.ofTraitNames d.traits.names) (dropBreaks ks) ps) : d.Phrased s ps := by
  obtain ⟨ts, hts, rfl⟩ := Token.tokens_kinds_iff.mpr hks
  exact ⟨ts, hts, h⟩

def twoShapes : Source :=
  ⟨"a", "namespace n\n/// Text\nstring A\nstring B"⟩

def twoShapesPhrases : List Phrase :=
  [.statement (.space "n"), .note (.line "Text"),
    .statement (.declaration (stringShape [] "A")), .statement (.declaration (stringShape [] "B"))]

theorem kinds_twoShapes : kinds twoShapes.text.toList = .ok
    [.word "namespace", .word "n", .newline, .documentation "Text", .newline, .word "string",
      .word "A", .newline, .word "string", .word "B"] :=
  kinds_of_tokens ⟨_, Token.tokens_eq_ok_iff.mpr (by cbv), rfl⟩

theorem phrased_twoShapes : Dialect.builtin.Phrased twoShapes twoShapesPhrases := by
  have hshapes (s : Scope) : Writes s [.word "string", .word "A", .newline, .word "string",
      .word "B"] _ :=
    writes_stringShape "A" (.newline _) (writes_stringShape "B" .input .done)
  have hnote (s : Scope) : Writes s [.documentation "Text", .newline, .word "string", .word "A",
      .newline, .word "string", .word "B"] _ :=
    @Writes.note s [.documentation "Text"] (.newline :: _) _ _ (.line "Text") (hshapes s)
  exact phrased_of_kinds kinds_twoShapes (.statements (by decide)
    (@Writes.statement _ _ _ _ (.space "n") _ trivial (.space "n") (.newline _) (hnote _)))

theorem syntaxTree_twoShapes : ∃ ast, Dialect.builtin.syntaxTree twoShapes = .ok ast := by
  have hnotes (s : Scope) : AreNotes s [.documentation "Text", .newline] [.line "Text"] :=
    .cons (.line "Text") .present .nil
  have hruns := Draft.Runs.statement (d := .start TraitRegistry.builtin.names) (.space "n")
    (.space rfl rfl) (.newline _)
    (.statement (spells_stringShape (hnotes _) "A") (.declaration (by decide)) (.newline _)
      (.statement (spells_stringShape .nil "B") (.declaration (by decide)) .input .done))
  exact ⟨_, syntaxTree_of_runsDocument kinds_twoShapes (.statements (by decide) hruns)⟩

def lateSpace : Source :=
  ⟨"a", "string A\nnamespace n"⟩

def lateSpacePhrases : List Phrase :=
  [.statement (.declaration (stringShape [] "A")), .statement (.space "n")]

theorem phrased_lateSpace : Dialect.builtin.Phrased lateSpace lateSpacePhrases := by
  have hks : kinds lateSpace.text.toList = .ok
      [.word "string", .word "A", .newline, .word "namespace", .word "n"] :=
    kinds_of_tokens ⟨_, Token.tokens_eq_ok_iff.mpr (by cbv), rfl⟩
  have hspace (s : Scope) : Writes s [.word "namespace", .word "n"] [.statement (.space "n")] :=
    @Writes.statement s _ _ _ (.space "n") _ trivial (.space "n") .input .done
  exact phrased_of_kinds hks
    (.statements (by decide) (writes_stringShape "A" (.newline _) (hspace _)))

theorem not_orderly_lateSpace : ¬Orderly lateSpacePhrases := by
  intro h
  have hopens := (List.pairwise_cons.mp h.opening).1 _ List.mem_cons_self rfl
  cases hopens

end Document

theorem Dialect.orderly_of_syntaxTree_twoShapes :
    (∃ ast entries, builtin.syntaxTree Document.twoShapes = .ok ast ∧
      builtin.Phrased Document.twoShapes Document.twoShapesPhrases ∧
      Document.Orderly Document.twoShapesPhrases ∧
      ast.get? "shapes" = some (.object entries) ∧ (entries.map (·.1)).Perm ["n#A", "n#B"]) ∧
    ∀ ast, builtin.syntaxTree Document.lateSpace ≠ .ok ast := by
  obtain ⟨ast, hast⟩ := Document.syntaxTree_twoShapes
  have hphrased := Document.phrased_twoShapes
  obtain ⟨horderly, entries, hentries, hkeys⟩ := (orderly_of_syntaxTree hast).2 _ hphrased
  refine ⟨⟨ast, entries, hast, hphrased, horderly, hentries, hkeys⟩, fun ast' hast' => ?_⟩
  have horderly := ((orderly_of_syntaxTree hast').2 _ Document.phrased_lateSpace).1
  exact Document.not_orderly_lateSpace horderly

end ShapeModel
