import Mathlib
import ShapeModel.Dialect
import ShapeModel.Proofs.Checks
import ShapeModel.Proofs.Document.Script
import ShapeModel.Proofs.Table.Entries
import ShapeModel.Proofs.Token.Break
import ShapeModel.Proofs.Token.Lexer

/-!
# The order of declarations

Shapes may be declared in any order, since a declaration adds one entry and refers to others by name
only. There is one word that does not bear being moved: a shape type `$version` at the start of a
document is taken for a version.
-/

namespace ShapeModel

set_option autoImplicit false

open Token (Kind kinds)

/-- Texts one below the other, each ended by a line feed. -/
def stacked (texts : List String) : String :=
  String.join (texts.map (· ++ "\n"))

theorem Table.eq_empty_of_isEmpty {κ α : Type} [Ord κ] {t : Table κ α} (h : t.isEmpty = true) :
    t = .empty := by
  obtain ⟨es, hes⟩ := t
  cases List.isEmpty_iff.mp h
  rfl

theorem stacked_cons (text : String) (texts : List String) :
    (stacked (text :: texts)).toList = text.toList ++ '\n' :: (stacked texts).toList := by
  simp [stacked]

theorem Token.kinds_stacked_cons {text : String} {ks : List Kind} (h : kinds text.toList = .ok ks)
    (texts : List String) :
    kinds (stacked (text :: texts)).toList =
      (kinds (stacked texts).toList).map fun us => ks ++ .newline :: us := by
  rw [stacked_cons, kinds_append_newline h]

namespace Document

variable {s : Scope} {d d' d'' : Draft} {ks us : List Kind} {x : Declaration} {text : String}
  {texts texts' : List String}

/-- The text of a declaration, with blank lines around it at most. -/
def IsShapeText (s : Scope) (text : String) (x : Declaration) : Prop :=
  ∃ before ts after, kinds text.toList = .ok (before ++ (ts ++ after)) ∧ Breaks before ∧
    IsDeclaration s ts x ∧ Breaks after

/-- Versions, and line breaks anywhere between them. -/
inductive AreVersions : List Kind → Prop
  | nil : AreVersions []
  | newline {ks : List Kind} : AreVersions ks → AreVersions (.newline :: ks)
  | version {v : String} {fin rest : List Kind} : Draft.Ends fin rest → AreVersions rest →
      AreVersions (.word "$version" :: .grammar ':' :: .string v :: (fin ++ rest))

theorem AreVersions.head_eq {k : Kind} (h : AreVersions (k :: ks)) :
    k = .newline ∨ k = .word "$version" := by
  generalize hks : k :: ks = vs at h
  cases h with
  | nil => cases hks
  | newline => exact .inl (List.cons.inj hks).1
  | version => exact .inr (List.cons.inj hks).1

theorem Breaks.append_newline (h : Breaks ks) (us : List Kind) :
    ks ++ .newline :: us = .newline :: (ks ++ us) := by
  induction ks with
  | nil => rfl
  | cons k ks ih =>
    obtain ⟨rfl, hks⟩ := List.forall_mem_cons.mp h
    rw [List.cons_append, ih hks, List.cons_append]

namespace Draft

/-- The texts are read to the end. -/
def ReadsTexts (d : Draft) (texts : List String) (d' : Draft) : Prop :=
  ∃ ks, kinds (stacked texts).toList = .ok ks ∧ Reads d ks d'

theorem reads_dropBreaks_iff (hpending : d.pending = .empty) :
    Reads d (dropBreaks ks) d' ↔ Reads d ks d' :=
  ⟨Reads.of_dropBreaks (by rw [hpending]; rfl), Reads.dropBreaks⟩

theorem reads_breaks_append_iff (hpending : d.pending = .empty) (h : Breaks us) :
    Reads d (us ++ ks) d' ↔ Reads d ks d' := by
  rw [← reads_dropBreaks_iff hpending, dropBreaks_append h, reads_dropBreaks_iff hpending]

theorem reads_declaration_iff {before ts after : List Kind} (hpending : d.pending = .empty)
    (hbefore : Breaks before) (hx : IsDeclaration d.scope ts x) (hafter : Breaks after) :
    Reads d (before ++ (ts ++ after) ++ .newline :: us) d' ↔
      d.shapes.contains (d.shapeName x.name) = false ∧ Reads (d.declare x) us d' := by
  have hdeclared (hnew : d.shapes.contains (d.shapeName x.name) = false) :
      Reads d (ts ++ .newline :: (after ++ us)) d' ↔ Reads (d.declare x) us d' := by
    rw [(Reads.declaration hpending hx hnew).append_newline_iff, reads_breaks_append_iff rfl hafter]
  rw [List.append_assoc, List.append_assoc, hafter.append_newline,
    reads_breaks_append_iff hpending hbefore]
  constructor
  · intro h
    have hnew := Reads.declaration_new hpending hx h
    exact ⟨hnew, (hdeclared hnew).mp h⟩
  · rintro ⟨hnew, h⟩
    exact (hdeclared hnew).mpr h

theorem readsTexts_nil_iff : ReadsTexts d [] d' ↔ Reads d [] d' := by
  have hnil : kinds (stacked []).toList = .ok [] := Token.kinds_nil
  simp [ReadsTexts, hnil]

theorem readsTexts_cons_iff (hpending : d.pending = .empty) (h : IsShapeText d.scope text x) :
    ReadsTexts d (text :: texts) d' ↔
      d.shapes.contains (d.shapeName x.name) = false ∧ ReadsTexts (d.declare x) texts d' := by
  obtain ⟨before, ts, after, hks, hbefore, hx, hafter⟩ := h
  simp only [ReadsTexts, Token.kinds_stacked_cons hks, map_eq_ok_iff]
  constructor
  · rintro ⟨_, ⟨us, hus, rfl⟩, hreads⟩
    obtain ⟨hnew, hreads⟩ := (reads_declaration_iff hpending hbefore hx hafter).mp hreads
    exact ⟨hnew, us, hus, hreads⟩
  · rintro ⟨hnew, us, hus, hreads⟩
    have hreads := (reads_declaration_iff hpending hbefore hx hafter).mpr ⟨hnew, hreads⟩
    exact ⟨_, ⟨us, hus, rfl⟩, hreads⟩

theorem contains_declare_eq_false_iff {name : String} :
    (d.declare x).shapes.contains name = false ↔
      name ≠ d.shapeName x.name ∧ d.shapes.contains name = false := by
  rw [declare, Table.contains, Table.contains]
  by_cases h : name = d.shapeName x.name
  · simp [h]
  · simp [h, Table.get?_insert_of_ne]

theorem declare_comm {y : Declaration} (h : d.shapeName x.name ≠ d.shapeName y.name) :
    (d.declare x).declare y = (d.declare y).declare x := by
  have hshapes := d.shapes.insert_comm h (.object x.entry) (.object y.entry)
  have hdeclared (z z' : Declaration) : (d.declare z).declare z' =
      { d with
        shapes := (d.shapes.insert (d.shapeName z.name) (.object z.entry)).insert
          (d.shapeName z'.name) (.object z'.entry), pending := .empty } := rfl
  rw [hdeclared, hdeclared, hshapes]

/-- Two declarations next to each other can change places. -/
theorem readsTexts_swap_iff {y : Declaration} {text' : String} (hpending : d.pending = .empty)
    (hx : IsShapeText d.scope text x) (hy : IsShapeText d.scope text' y) :
    ReadsTexts d (text :: text' :: texts) d' ↔ ReadsTexts d (text' :: text :: texts) d' := by
  have hname (z : Declaration) (name : String) : (d.declare z).shapeName name = d.shapeName name :=
    rfl
  have hx' : IsShapeText (d.declare y).scope text x := hx
  have hy' : IsShapeText (d.declare x).scope text' y := hy
  rw [readsTexts_cons_iff hpending hx, readsTexts_cons_iff rfl hy', readsTexts_cons_iff hpending hy,
    readsTexts_cons_iff rfl hx', contains_declare_eq_false_iff, contains_declare_eq_false_iff,
    hname, hname]
  constructor
  · rintro ⟨hx, ⟨hne, hy⟩, hreads⟩
    exact ⟨hy, ⟨hne.symm, hx⟩, declare_comm hne.symm ▸ hreads⟩
  · rintro ⟨hy, ⟨hne, hx⟩, hreads⟩
    exact ⟨hx, ⟨hne.symm, hy⟩, declare_comm hne.symm ▸ hreads⟩

theorem readsTexts_perm_iff (hperm : texts.Perm texts') (hpending : d.pending = .empty)
    (h : ∀ text ∈ texts, ∃ x, IsShapeText d.scope text x) :
    ReadsTexts d texts d' ↔ ReadsTexts d texts' d' := by
  induction hperm generalizing d with
  | nil => rfl
  | cons text _ ih =>
    rw [List.forall_mem_cons] at h
    obtain ⟨⟨x, hx⟩, hmore⟩ := h
    have hrest := @ih (d.declare x) rfl hmore
    rw [readsTexts_cons_iff hpending hx, readsTexts_cons_iff hpending hx, hrest]
  | swap text text' =>
    rw [List.forall_mem_cons, List.forall_mem_cons] at h
    obtain ⟨⟨x, hx⟩, ⟨y, hy⟩, -⟩ := h
    exact readsTexts_swap_iff hpending hx hy
  | trans hperm _ ih ih' =>
    rw [ih hpending h]
    exact ih' hpending fun text htext => h text (hperm.mem_iff.mpr htext)

theorem areVersions_dropBreaks_iff : AreVersions (dropBreaks ks) ↔ AreVersions ks := by
  induction ks with
  | nil => rfl
  | cons k ks ih =>
    by_cases hk : k = .newline
    · subst hk
      rw [dropBreaks_newline, ih]
      refine ⟨.newline, fun h => ?_⟩
      cases h with
      | newline h => exact h
    · rw [dropBreaks_of_ne hk]

theorem dropBreaks_append_newline (ks us : List Kind) :
    dropBreaks (ks ++ .newline :: us) =
      if dropBreaks ks = [] then dropBreaks us else dropBreaks ks ++ .newline :: us := by
  induction ks with
  | nil => rfl
  | cons k ks ih =>
    by_cases hk : k = .newline
    · subst hk
      exact ih
    · rw [List.cons_append, dropBreaks_of_ne hk, dropBreaks_of_ne hk, if_neg (by simp),
        List.cons_append]

theorem readsDocument_iff_of_head?_ne (h : ks.head? ≠ some (.word "$version")) :
    ReadsDocument d ks d' ↔ Reads d ks d' := by
  refine ⟨fun hreads => ?_, .statements h⟩
  cases hreads with
  | version => exact absurd rfl h
  | statements _ hreads => exact hreads

theorem Ends.rest_eq {fin fin' rest rest' : List Kind} (h : Ends fin rest) (h' : Ends fin' rest')
    (hks : fin ++ rest = fin' ++ rest') : rest = rest' := by
  cases h with
  | newline =>
    cases h' with
    | newline => exact (List.cons.inj hks).2
    | input => cases hks
  | input =>
    cases h' with
    | newline => cases hks
    | input => rfl

theorem readsDocument_version_iff {v : String} {fin rest : List Kind} (hends : Ends fin rest) :
    ReadsDocument d (.word "$version" :: .grammar ':' :: .string v :: (fin ++ rest)) d' ↔
      ReadsDocument { d with version := some v } (dropBreaks rest) d' := by
  refine ⟨fun hreads => ?_, .version hends⟩
  generalize hks : Kind.word "$version" :: .grammar ':' :: .string v :: (fin ++ rest) = ks at hreads
  cases hreads with
  | @version _ _ v' fin' rest' hends' hreads =>
    simp only [List.cons.injEq, Kind.string.injEq, true_and] at hks
    obtain ⟨rfl, hrest⟩ := hks
    rwa [hends.rest_eq hends' hrest]
  | statements hhead => exact absurd (hks ▸ rfl) hhead

theorem areVersions_version_iff {v : String} {fin rest : List Kind} (hends : Ends fin rest) :
    AreVersions (.word "$version" :: .grammar ':' :: .string v :: (fin ++ rest)) ↔
      AreVersions rest := by
  refine ⟨fun h => ?_, .version hends⟩
  generalize hks : Kind.word "$version" :: .grammar ':' :: .string v :: (fin ++ rest) = ks at h
  cases h with
  | version hends' h =>
    simp only [List.cons.injEq, Kind.string.injEq, true_and] at hks
    rwa [hends.rest_eq hends' hks.2]
  | _ => cases hks

theorem dropBreaks_head?_ne (ks : List Kind) : (dropBreaks ks).head? ≠ some .newline := by
  intro h
  have hhead := List.head?_dropWhile_not (fun k => decide (k = Kind.newline)) ks
  rw [dropBreaks] at h
  simp [h] at hhead

/-- A document goes on behind a line break: with more versions while there are only versions, and
with statements from then on. -/
theorem ReadsDocument.append_newline_iff (h : ReadsDocument d (dropBreaks ks) d') :
    (AreVersions ks → (ReadsDocument d (dropBreaks (ks ++ .newline :: us)) d'' ↔
      ReadsDocument d' (dropBreaks us) d'')) ∧
    (¬AreVersions ks → (ReadsDocument d (dropBreaks (ks ++ .newline :: us)) d'' ↔
      Reads d' us d'')) := by
  generalize hvs : dropBreaks ks = vs at h
  induction h generalizing ks with
  | @version d d' v fin rest hends h ih =>
    have hversions : AreVersions ks ↔ AreVersions rest := by
      rw [← areVersions_dropBreaks_iff, hvs, areVersions_version_iff hends]
    have hreads : ReadsDocument d (dropBreaks (ks ++ .newline :: us)) d'' ↔
        ReadsDocument { d with version := some v } (dropBreaks (rest ++ .newline :: us)) d'' := by
      rw [dropBreaks_append_newline ks, hvs, if_neg (by simp), List.cons_append, List.cons_append,
        List.cons_append, List.append_assoc]
      cases hends with
      | newline => exact readsDocument_version_iff (.newline _)
      | input =>
        have hiff : ReadsDocument d
            (.word "$version" :: .grammar ':' :: .string v :: ([.newline] ++ us)) d'' ↔ _ :=
          readsDocument_version_iff (.newline us)
        exact hiff
    rw [hversions, hreads]
    exact ih rfl
  | @statements d d' vs hhead h =>
    rw [← areVersions_dropBreaks_iff, dropBreaks_append_newline, hvs]
    cases vs with
    | nil =>
      rw [h.eq_of_nil, if_pos rfl]
      exact ⟨fun _ => Iff.rfl, fun hne => absurd .nil hne⟩
    | cons k vs =>
      have hne : ¬AreVersions (k :: vs) := by
        intro hversions
        rcases hversions.head_eq with rfl | rfl
        · exact dropBreaks_head?_ne ks (by rw [hvs]; rfl)
        · exact hhead rfl
      have hhead : (k :: vs ++ .newline :: us).head? ≠ some (.word "$version") := hhead
      rw [if_neg (by simp), readsDocument_iff_of_head?_ne hhead, h.append_newline_iff]
      exact ⟨fun hversions => absurd hversions hne, fun _ => Iff.rfl⟩

end Draft

/-- The text before all shapes: name space, names in use, metadata and versions. -/
def IsPreamble (names : List String) (text : String) (d : Draft) : Prop :=
  d.shapes = .empty ∧ ∃ file ts, (Source.mk file text).tokens = .ok ts ∧
    (readDocument names (.ofTokens ⟨file, text⟩ ts)).Gives d []

/-- Nothing but versions, if anything. -/
def OnlyVersions (text : String) : Prop :=
  ∃ ks, kinds text.toList = .ok ks ∧ AreVersions ks

/-- The first word is the one that versions start with. -/
def OpensVersion (text : String) : Prop :=
  ∃ ks, kinds text.toList = .ok ks ∧ (dropBreaks ks).head? = some (.word "$version")

theorem isPreamble_iff {names : List String} {d : Draft} :
    IsPreamble names text d ↔ d.shapes = .empty ∧
      ∃ ks, kinds text.toList = .ok ks ∧ Draft.ReadsDocument (.start names) (dropBreaks ks) d := by
  constructor
  · rintro ⟨hd, file, ts, hts, hread⟩
    have hreads := (Draft.readDocument_gives_iff.mp hread).2
    exact ⟨hd, _, Token.tokens_kinds_iff.mp ⟨ts, hts, rfl⟩, hreads⟩
  · rintro ⟨hd, ks, hks, hreads⟩
    obtain ⟨ts, hts, rfl⟩ := (@Token.tokens_kinds_iff ⟨Dialect.unnamed, text⟩ ks).mpr hks
    exact ⟨hd, Dialect.unnamed, ts, hts, Draft.readDocument_gives_iff.mpr ⟨rfl, hreads⟩⟩

theorem IsPreamble.pending_eq {names : List String} {d : Draft} (h : IsPreamble names text d) :
    d.pending = .empty := by
  obtain ⟨-, ks, -, hreads⟩ := isPreamble_iff.mp h
  exact Table.eq_empty_of_isEmpty hreads.pending_isEmpty

theorem exists_kinds_stacked (h : ∀ text ∈ texts, ∃ x, IsShapeText s text x) :
    ∃ us, kinds (stacked texts).toList = .ok us := by
  induction texts with
  | nil => exact ⟨[], Token.kinds_nil⟩
  | cons text texts ih =>
    obtain ⟨⟨x, _, _, _, hks, _⟩, hmore⟩ := List.forall_mem_cons.mp h
    obtain ⟨us, hus⟩ := ih hmore
    exact ⟨_, by rw [Token.kinds_stacked_cons hks, hus]; rfl⟩

theorem AreNotes.head?_ne {ns : List Note} {w : String} (h : AreNotes s ks ns)
    (hw : isTraitWord w = false) : ks.head? ≠ some (.word w) := by
  cases h with
  | nil => simp
  | cons hn =>
    cases hn with
    | line => simp
    | applied htrait =>
      rintro ⟨⟩
      cases hw.symm.trans htrait

theorem IsDeclaration.exists_cons (h : IsDeclaration s ks x) :
    ∃ k ts, ks = k :: ts ∧ k ≠ .newline ∧
      (k = .word "$version" → ∃ us, ts = .word x.name :: us) := by
  obtain @⟨us, ts, x, hnotes, -, -, hhead⟩ := h
  obtain ⟨vs, rfl⟩ := hhead.eq_cons
  have hfollows := hnotes.follows (follows_word x.keyword (.word x.name :: vs))
  have hversion := hnotes.head?_ne (w := "$version") rfl
  cases us with
  | nil => exact ⟨_, _, rfl, nofun, fun _ => ⟨vs, rfl⟩⟩
  | cons k us =>
    refine ⟨k, _, rfl, fun hk => hfollows.1 (congrArg some hk), fun hk => ?_⟩
    exact absurd (congrArg some hk) hversion

theorem Draft.not_readsDocument_version {w : String} :
    ¬ReadsDocument d (.word "$version" :: .word w :: us) d' := by
  intro h
  generalize hks : Kind.word "$version" :: .word w :: us = ks at h
  cases h with
  | version => cases hks
  | statements hhead => exact hhead (by rw [← hks]; rfl)

/-- Where a version may stand, a declaration that opens as one is not read. -/
theorem Draft.readsDocument_declaration_iff (hpending : d.pending = .empty)
    (h : IsShapeText s text x) (hks : kinds text.toList = .ok ks) :
    ReadsDocument d (dropBreaks (ks ++ .newline :: us)) d' ↔
      ¬OpensVersion text ∧ Reads d (ks ++ .newline :: us) d' := by
  obtain ⟨before, ts, after, htext, hbefore, hx, -⟩ := h
  cases hks.symm.trans htext
  obtain ⟨k, ts, rfl, hk, hname⟩ := hx.exists_cons
  have hopens : OpensVersion text ↔ k = .word "$version" := by
    simp [OpensVersion, htext, dropBreaks_append hbefore, dropBreaks_of_ne hk]
  rw [← reads_dropBreaks_iff hpending, hopens, List.append_assoc, dropBreaks_append hbefore,
    List.append_assoc, List.cons_append, dropBreaks_of_ne hk]
  by_cases hversion : k = .word "$version"
  · obtain ⟨vs, rfl⟩ := hname hversion
    subst hversion
    exact iff_of_false not_readsDocument_version fun h => h.1 rfl
  · rw [and_iff_right hversion, readsDocument_iff_of_head?_ne (by simpa using hversion)]

/-- The first of the texts opens as a version where nothing but versions stands before them. -/
def StartsWithVersion (preamble : String) (texts : List String) : Prop :=
  OnlyVersions preamble ∧ ∃ text ∈ texts.head?, OpensVersion text

theorem Draft.readsDocument_texts_iff (hpending : d.pending = .empty)
    (htexts : ∀ text ∈ texts, ∃ x, IsShapeText s text x)
    (hus : kinds (stacked texts).toList = .ok us) :
    ReadsDocument d (dropBreaks us) d' ↔
      (¬∃ text ∈ texts.head?, OpensVersion text) ∧ Reads d us d' := by
  cases texts with
  | nil =>
    cases Token.kinds_nil.symm.trans hus
    simpa [dropBreaks] using readsDocument_iff_of_head?_ne (by simp)
  | cons text texts =>
    obtain ⟨⟨x, hx⟩, hmore⟩ := List.forall_mem_cons.mp htexts
    obtain ⟨_, _, _, hks, _⟩ := id hx
    rw [Token.kinds_stacked_cons hks] at hus
    obtain ⟨vs, -, rfl⟩ := map_eq_ok_iff.mp hus
    rw [readsDocument_declaration_iff hpending hx hks]
    simp

end Document

theorem Dialect.syntaxTree_eq_ok_iff {d : Dialect} {src : Source} {ks : List Kind}
    (hks : kinds src.text.toList = .ok ks) {ast : Value} :
    d.syntaxTree src = .ok ast ↔ ∃ d',
      Document.Draft.ReadsDocument (.start d.traits.names) (dropBreaks ks) d' ∧
        d'.toValue = ast := by
  obtain ⟨ts, hts, rfl⟩ := Token.tokens_kinds_iff.mpr hks
  rw [syntaxTree, hts, ← Document.ofTokens_eq_ok_iff]
  exact mapError_eq_ok_iff

theorem Dialect.exists_tokens_of_syntaxTree {d : Dialect} {src : Source} {ast : Value}
    (h : d.syntaxTree src = .ok ast) :
    ∃ ts, src.tokens = .ok ts ∧ kinds src.text.toList = .ok (ts.map (·.kind)) := by
  obtain ⟨ts, hts, -⟩ := bind_eq_ok_iff.mp h
  have hts := mapError_eq_ok_iff.mp hts
  exact ⟨ts, hts, Token.tokens_kinds_iff.mp ⟨ts, hts, rfl⟩⟩

namespace Document

variable {d : Dialect} {file : String} {preamble : Option String} {texts texts' : List String}
  {draft : Draft} {ast : Value}

/-- The tokens of declarations behind a preamble, which may be missing. -/
theorem exists_kinds_preamble {ks : List Kind}
    (hpreamble : kinds (preamble.getD "").toList = .ok ks) {us : List Kind}
    (hus : kinds (stacked texts).toList = .ok us) :
    ∃ vs, kinds (stacked (preamble.toList ++ texts)).toList = .ok vs ∧
      dropBreaks vs = dropBreaks (ks ++ .newline :: us) := by
  cases preamble with
  | none =>
    cases Token.kinds_nil.symm.trans hpreamble
    exact ⟨us, hus, rfl⟩
  | some text =>
    refine ⟨ks ++ .newline :: us, ?_, rfl⟩
    have hstacked := Token.kinds_stacked_cons hpreamble texts
    rw [hus] at hstacked
    exact hstacked

theorem syntaxTree_stacked_eq_ok_iff
    (hpreamble : IsPreamble d.traits.names (preamble.getD "") draft)
    (htexts : ∀ text ∈ texts, ∃ x, IsShapeText draft.scope text x) :
    d.syntaxTree ⟨file, stacked (preamble.toList ++ texts)⟩ = .ok ast ↔
      ¬StartsWithVersion (preamble.getD "") texts ∧
        ∃ draft', draft.ReadsTexts texts draft' ∧ draft'.toValue = ast := by
  have hpending := hpreamble.pending_eq
  obtain ⟨-, ks, hks, hreads⟩ := isPreamble_iff.mp hpreamble
  obtain ⟨us, hus⟩ := exists_kinds_stacked htexts
  obtain ⟨vs, hvs, hdrop⟩ := exists_kinds_preamble hks hus
  have hversions : OnlyVersions (preamble.getD "") ↔ AreVersions ks := by
    simp [OnlyVersions, hks]
  have htexts' (draft' : Draft) : draft.ReadsTexts texts draft' ↔ draft.Reads us draft' := by
    simp [Draft.ReadsTexts, hus]
  have hsource : kinds (Source.mk file (stacked (preamble.toList ++ texts))).text.toList = .ok vs :=
    hvs
  rw [Dialect.syntaxTree_eq_ok_iff hsource, hdrop, StartsWithVersion, hversions]
  by_cases h : AreVersions ks
  · simp only [(hreads.append_newline_iff).1 h, Draft.readsDocument_texts_iff hpending htexts hus,
      htexts', h, true_and, and_assoc, exists_and_left]
  · simp only [(hreads.append_newline_iff).2 h, htexts', h, false_and, not_false_eq_true, true_and]

/-- Declarations behind a preamble can be put in any order: the abstract syntax stays the same. Only
when the first of them now opens as a version, with nothing but versions before it, the text is
refused. -/
theorem syntaxTree_stacked_of_perm (hpreamble : IsPreamble d.traits.names (preamble.getD "") draft)
    (htexts : ∀ text ∈ texts, ∃ x, IsShapeText draft.scope text x)
    (hast : d.syntaxTree ⟨file, stacked (preamble.toList ++ texts)⟩ = .ok ast)
    (hperm : texts.Perm texts') :
    (¬StartsWithVersion (preamble.getD "") texts' →
      d.syntaxTree ⟨file, stacked (preamble.toList ++ texts')⟩ = .ok ast) ∧
    (StartsWithVersion (preamble.getD "") texts' → ∀ ast',
      d.syntaxTree ⟨file, stacked (preamble.toList ++ texts')⟩ ≠ .ok ast') := by
  have htexts' : ∀ text ∈ texts', ∃ x, IsShapeText draft.scope text x :=
    fun text htext => htexts text (hperm.mem_iff.mpr htext)
  have hpending := hpreamble.pending_eq
  obtain ⟨-, draft', hreads, hvalue⟩ := (syntaxTree_stacked_eq_ok_iff hpreamble htexts).mp hast
  constructor
  · intro hversion
    rw [syntaxTree_stacked_eq_ok_iff hpreamble htexts']
    exact ⟨hversion, draft', (Draft.readsTexts_perm_iff hperm hpending htexts).mp hreads, hvalue⟩
  · intro hversion ast' hast'
    exact ((syntaxTree_stacked_eq_ok_iff hpreamble htexts').mp hast').1 hversion

theorem kinds_of_tokens {text : String} {ks : List Kind}
    (h : ∃ ts, (Source.mk Dialect.unnamed text).tokens = .ok ts ∧ ts.map (·.kind) = ks) :
    kinds text.toList = .ok ks :=
  Token.tokens_kinds_iff.mp h

def sampleSpace : Draft :=
  (Draft.start TraitRegistry.builtin.names).setSpace "n"

theorem kinds_namespace : kinds "namespace n".toList = .ok [.word "namespace", .word "n"] :=
  kinds_of_tokens ⟨_, Token.tokens_eq_ok_iff.mpr (by cbv), rfl⟩

theorem isPreamble_namespace :
    IsPreamble TraitRegistry.builtin.names "namespace n" sampleSpace := by
  have hspace := @Draft.IsStatement.space (.start TraitRegistry.builtin.names) "n" rfl rfl
  have hreads := Draft.Reads.step (.statement hspace .input) (.done rfl)
  exact isPreamble_iff.mpr ⟨rfl, _, kinds_namespace, .statements (by decide) hreads⟩

def sensitiveString : Declaration where
  notes := [.applied (sampleSpace.scope.qualify true (appliedName "@sensitive")) .emptyObject]
  keyword := "string"
  name := "A"
  body := none

theorem isShapeText_sensitiveString :
    IsShapeText sampleSpace.scope "@sensitive\nstring A" sensitiveString := by
  have hks : kinds "@sensitive\nstring A".toList =
      .ok [.word "@sensitive", .newline, .word "string", .word "A"] :=
    kinds_of_tokens ⟨_, Token.tokens_eq_ok_iff.mpr (by cbv), rfl⟩
  have hnotes : AreNotes sampleSpace.scope [.word "@sensitive", .newline] sensitiveString.notes :=
    .cons (.applied rfl (.bare _)) .present .nil
  exact ⟨[], _, [], hks, .nil, .intro hnotes (by decide) rfl .bare, .nil⟩

def listOfStrings : Declaration where
  notes := []
  keyword := "list"
  name := "B"
  body := some [("member", reference "n#A")]

theorem isShapeText_listOfStrings :
    IsShapeText sampleSpace.scope "list B { member: A }" listOfStrings := by
  have hks : kinds "list B { member: A }".toList =
      .ok [.word "list", .word "B", .grammar '{', .word "member", .grammar ':', .word "A",
        .grammar '}'] :=
    kinds_of_tokens ⟨_, Token.tokens_eq_ok_iff.mpr (by cbv), rfl⟩
  have hvalue : IsValue sampleSpace.scope .body [.word "A"] (reference "n#A") := .atom rfl
  have hmember : IsMember sampleSpace.scope .empty [.word "member", .grammar ':', .word "A"]
      "member" (reference "n#A") :=
    .valued (.word "member") rfl hvalue rfl
  have hmembers : AreMembers sampleSpace.scope (IsMember sampleSpace.scope)
      [.word "member", .grammar ':', .word "A", .grammar '}'] [("member", reference "n#A")] :=
    .member (.done .empty) hmember (.closing []) (.close (.done .empty) rfl)
  exact ⟨[], _, [], hks, .nil, .intro .nil (by decide) rfl (.body hmembers), .nil⟩

theorem syntaxTree_stacked_of_perm_references :
    ∃ ast, Dialect.builtin.syntaxTree ⟨Dialect.unnamed,
        stacked ["namespace n", "@sensitive\nstring A", "list B { member: A }"]⟩ = .ok ast ∧
      Dialect.builtin.syntaxTree ⟨Dialect.unnamed,
        stacked ["namespace n", "list B { member: A }", "@sensitive\nstring A"]⟩ = .ok ast := by
  have hstring := isShapeText_sensitiveString
  have hlist := isShapeText_listOfStrings
  have htexts : ∀ text ∈ ["@sensitive\nstring A", "list B { member: A }"],
      ∃ x, IsShapeText sampleSpace.scope text x := by
    simpa using ⟨⟨_, hstring⟩, ⟨_, hlist⟩⟩
  have hversion (texts : List String) : ¬StartsWithVersion "namespace n" texts := by
    rintro ⟨⟨ks, hks, hversions⟩, -⟩
    cases kinds_namespace.symm.trans hks
    have hhead := hversions.head_eq
    simp at hhead
  have hlist' : IsShapeText (sampleSpace.declare sensitiveString).scope _ _ := hlist
  have hreads : sampleSpace.ReadsTexts ["@sensitive\nstring A", "list B { member: A }"]
      ((sampleSpace.declare sensitiveString).declare listOfStrings) := by
    rw [Draft.readsTexts_cons_iff rfl hstring, Draft.readsTexts_cons_iff rfl hlist',
      Draft.readsTexts_nil_iff]
    exact ⟨by decide, by decide, .done rfl⟩
  have hast := (@syntaxTree_stacked_eq_ok_iff .builtin Dialect.unnamed (some "namespace n") _ _ _
    isPreamble_namespace htexts).mpr ⟨hversion _, _, hreads, rfl⟩
  have hswapped := @syntaxTree_stacked_of_perm .builtin Dialect.unnamed (some "namespace n") _ _ _ _
    isPreamble_namespace htexts hast (.swap _ _ _)
  exact ⟨_, hast, hswapped.1 (hversion _)⟩

theorem isPreamble_empty (names : List String) : IsPreamble names "" (.start names) :=
  isPreamble_iff.mpr ⟨rfl, [], Token.kinds_nil, .statements (by decide) (.done rfl)⟩

theorem isShapeText_bare {s : Scope} {text keyword name : String}
    (hkeyword : keyword ∉ Draft.keywords) (hw : isTraitWord keyword = false)
    (hks : kinds text.toList = .ok [.word keyword, .word name]) :
    IsShapeText s text ⟨[], keyword, name, none⟩ :=
  ⟨[], _, [], hks, .nil, .intro .nil hkeyword hw .bare, .nil⟩

theorem syntaxTree_version_first :
    (∀ text ∈ ["string A", "$version B"],
      ∃ x, IsShapeText (.ofTraitNames TraitRegistry.builtin.names) text x) ∧
    (∃ ast, Dialect.builtin.syntaxTree
      ⟨Dialect.unnamed, stacked ["string A", "$version B"]⟩ = .ok ast) ∧
    ∀ ast, Dialect.builtin.syntaxTree
      ⟨Dialect.unnamed, stacked ["$version B", "string A"]⟩ ≠ .ok ast := by
  have hstring : kinds "string A".toList = .ok [.word "string", .word "A"] :=
    kinds_of_tokens ⟨_, Token.tokens_eq_ok_iff.mpr (by cbv), rfl⟩
  have hversion : kinds "$version B".toList = .ok [.word "$version", .word "B"] :=
    kinds_of_tokens ⟨_, Token.tokens_eq_ok_iff.mpr (by cbv), rfl⟩
  have hA (s : Scope) := @isShapeText_bare s _ _ _ (by decide) rfl hstring
  have hB (s : Scope) := @isShapeText_bare s _ _ _ (by decide) rfl hversion
  have htexts : ∀ text ∈ ["string A", "$version B"],
      ∃ x, IsShapeText (Draft.start TraitRegistry.builtin.names).scope text x := by
    simpa using ⟨⟨_, hA _⟩, ⟨_, hB _⟩⟩
  obtain ⟨draft, hreads⟩ : ∃ draft, (Draft.start TraitRegistry.builtin.names).ReadsTexts
      ["string A", "$version B"] draft :=
    ⟨_, (Draft.readsTexts_cons_iff rfl (hA _)).mpr ⟨by decide,
      (Draft.readsTexts_cons_iff rfl (hB _)).mpr ⟨by decide,
        Draft.readsTexts_nil_iff.mpr (.done rfl)⟩⟩⟩
  have hfirst : ¬StartsWithVersion "" ["string A", "$version B"] := by
    rintro ⟨-, text, ⟨⟩, ks, hks, hhead⟩
    cases hstring.symm.trans hks
    simp [dropBreaks] at hhead
  have hpreamble := isPreamble_empty TraitRegistry.builtin.names
  refine ⟨htexts, ⟨_, (@syntaxTree_stacked_eq_ok_iff .builtin Dialect.unnamed none _ _ _ hpreamble
    htexts).mpr ⟨hfirst, _, hreads, rfl⟩⟩, fun ast hast => ?_⟩
  have hast := (@syntaxTree_stacked_eq_ok_iff .builtin Dialect.unnamed none _ _ _ hpreamble
    (by simpa [or_comm] using htexts)).mp hast
  exact hast.1 ⟨⟨[], Token.kinds_nil, .nil⟩, _, rfl, _, hversion, rfl⟩

end Document

end ShapeModel
