import ShapeModel.Proofs.Document.Members
import ShapeModel.Proofs.Document.Mention

/-!
# Names with a name space

In a document with a name space, names are resolved in one scope, the one that is there when the
first shape is declared. A name that is resolved has a name space of its own, unless it was brought
into use without one.
-/

namespace ShapeModel.Document

set_option autoImplicit false

open Token (Kind)

/-- The name has a name space, or it is the name of a shape that was brought into use without one,
or of a member of it. -/
def Placed (es : List Statement) (name : String) : Prop :=
  '#' ∈ name.toList ∨ ∃ target, .use target ∈ es ∧ '#' ∉ target.toList ∧
    (Identifier.ofText name).root = (Identifier.ofText target).root

/-- The name was brought into use. -/
def Used (es : List Statement) (name : String) : Prop :=
  ∃ target, .use target ∈ es ∧ name = (Identifier.ofText target).root.toText

/-- A name space is given, and names were brought into use by these statements. -/
structure Scope.Settled (es : List Statement) (s : Scope) : Prop where
  space : s.space.isSome = true
  used : ∀ name target, s.aliases.get? name = some target → Used es target

namespace Scope

variable {s : Scope} {es : List Statement} {isTrait : Bool} {name : String}

theorem Settled.exists_resolve (h : s.Settled es) (isTrait : Bool) (name : String) :
    ∃ root, s.resolve isTrait name = some root ∧ ('#' ∈ root.toList ∨ Used es root) := by
  rw [resolve]
  split
  · exact ⟨_, rfl, .inl (Prelude.hash_mem_absolute name)⟩
  · split
    · next target halias => exact ⟨target, rfl, .inr (h.used name target halias)⟩
    · obtain ⟨space, hspace⟩ := Option.isSome_iff_exists.mp h.space
      rw [hspace]
      exact ⟨_, rfl, .inl (by simp)⟩

theorem placed_of_used (h : Used es name) : Placed es name := by
  obtain ⟨target, htarget, rfl⟩ := h
  by_cases hhash : '#' ∈ target.toList
  · exact .inl (Identifier.hash_mem_toText_root hhash)
  · refine .inr ⟨target, htarget, hhash, ?_⟩
    rw [Identifier.ofText_toText_root]
    rfl

/-- A member goes where its shape goes. -/
theorem placed_member_of_used {member : String} (h : Used es name) (hmember : '#' ∉ member.toList) :
    Placed es (name ++ "$" ++ member) := by
  obtain ⟨target, htarget, rfl⟩ := h
  by_cases hhash : '#' ∈ target.toList
  · have hroot := Identifier.hash_mem_toText_root hhash
    exact .inl (by simp [hroot])
  · have hspace := Identifier.space_ofText_eq_none hhash
    have hplain := Identifier.plain_ofText target
    have hname := (hplain.rest hspace).1
    rw [Identifier.toText_root_of_space_eq_none hspace]
    refine .inr ⟨target, htarget, hhash, ?_⟩
    rw [ofText_member (by simp [hname, hmember]) hplain.name, Identifier.root, Identifier.root,
      hspace]

/-- Every name finds its place in a scope with a name space. -/
theorem Settled.placed_qualify (h : s.Settled es) (isTrait : Bool) (w : String) :
    Placed es (s.qualify isTrait w) := by
  rcases written_cases w with hspace | ⟨hspace, hmember⟩ | ⟨name, member, rfl, hspace, hname⟩
  · rw [qualify_of_space _ hspace]
    exact .inl hspace
  · obtain ⟨root, hroot, hplaced⟩ := h.exists_resolve isTrait w
    rw [qualify_shape hspace hmember, hroot, Option.getD_some]
    exact hplaced.elim .inl placed_of_used
  · obtain ⟨root, hroot, hplaced⟩ := h.exists_resolve isTrait name
    rw [qualify_member hspace hname, hroot]
    rcases hplaced with hplaced | hplaced
    · exact .inl (by simp [hplaced])
    · apply placed_member_of_used hplaced
      intro hmember
      exact hspace (by simp [hmember])

end Scope

/-- Names are resolved in the statement. -/
def Statement.resolvesNames : Statement → Bool
  | .application .. => true
  | .declaration _ => true
  | _ => false

namespace Draft

variable {d d₁ d' : Draft} {e : Statement} {es : List Statement} {ks : List Kind}

theorem Performs.isSome_space (h : Performs d e d₁)
    (he : d.scope.space.isSome = true ∨ ∃ name, e = .space name) :
    d₁.scope.space.isSome = true := by
  cases h with
  | space => rfl
  | _ =>
    rcases he with hd | ⟨name, he⟩
    · exact hd
    · cases he

theorem Runs.isSome_space (h : Runs d ks es d')
    (hes : d.scope.space.isSome = true ∨ ∃ name, .space name ∈ es) :
    d'.scope.space.isSome = true := by
  induction h with
  | done =>
    rcases hes with hd | ⟨name, hmem⟩
    · exact hd
    · cases hmem
  | newline _ ih => exact ih hes
  | statement _ hperforms _ _ ih =>
    apply ih
    rcases hes with hd | ⟨name, hmem⟩
    · exact .inl (hperforms.isSome_space (.inl hd))
    · rcases List.mem_cons.mp hmem with he | hmem
      · exact .inl (hperforms.isSome_space (.inr ⟨name, he.symm⟩))
      · exact .inr ⟨name, hmem⟩

theorem Performs.used (h : Performs d e d₁) {name target : String}
    (hname : d₁.scope.aliases.get? name = some target) :
    d.scope.aliases.get? name = some target ∨ Used [e] target := by
  cases h with
  | @use text =>
    by_cases hsame : name = (Identifier.ofText text).name
    · subst hsame
      have hself := (Table.get?_insert_self _ _ _).symm.trans hname
      exact .inr ⟨text, List.mem_singleton_self _, (Option.some.inj hself).symm⟩
    · exact .inl ((Table.get?_insert_of_ne _ hsame _).symm.trans hname)
  | _ => exact .inl hname

/-- What is in use at the end was so at the start or was brought into use. -/
theorem Runs.used (h : Runs d ks es d') {name target : String}
    (hname : d'.scope.aliases.get? name = some target) :
    d.scope.aliases.get? name = some target ∨ Used es target := by
  induction h with
  | done => exact .inl hname
  | newline _ ih => exact ih hname
  | statement _ hperforms _ _ ih =>
    rcases ih hname with hname | ⟨text, htext, rfl⟩
    · rcases hperforms.used hname with hname | ⟨text, htext, rfl⟩
      · exact .inl hname
      · cases List.mem_singleton.mp htext
        exact .inr ⟨text, List.mem_cons_self, rfl⟩
    · exact .inr ⟨text, List.mem_cons_of_mem _ htext, rfl⟩

theorem Performs.of_resolvesNames (h : Performs d e d₁) (he : e.resolvesNames = true) :
    d₁.scope = d.scope ∧ d₁.shapes.isEmpty = false := by
  cases h with
  | application => exact ⟨rfl, Table.isEmpty_insert _ _ _⟩
  | declaration => exact ⟨rfl, Table.isEmpty_insert _ _ _⟩
  | _ => cases he

/-- From the first declaration on names are resolved in the scope that is there at the end. -/
theorem RunsDocument.exists_spells (h : RunsDocument d ks es d') (he : e ∈ es)
    (hnames : e.resolvesNames = true) : ∃ us, us <:+: ks ∧ Spells d'.scope us e := by
  obtain ⟨_, _, -, hrest, hruns⟩ := h.exists_runs
  obtain ⟨before, after, rfl⟩ := List.append_of_mem he
  obtain ⟨d₁, d₂, us, rest, hus, hspells, hperforms, hruns⟩ := hruns.exists_split
  obtain ⟨hscope, hshapes⟩ := hperforms.of_resolvesNames hnames
  rw [← hscope, ← hruns.scope_eq hshapes] at hspells
  exact ⟨us, hus.trans hrest, hspells⟩

theorem RunsDocument.settled {names : List String} (h : RunsDocument (.start names) ks es d')
    {space : String} (hspace : .space space ∈ es) : d'.scope.Settled es := by
  obtain ⟨d₁, _, hscope, -, hruns⟩ := h.exists_runs
  refine ⟨hruns.isSome_space (.inr ⟨space, hspace⟩), ?_⟩
  intro name target hname
  rcases hruns.used hname with hname | hused
  · rw [hscope] at hname
    cases hname
  · exact hused

end Draft

/-- A trait that is applied by one of the statements, to a shape or a member. -/
inductive Stores (es : List Statement) (s : Scope) (ks : List Kind) : Note → Prop
  | application {target : Identifier} {name : String} {v : Value} :
      .application target name v ∈ es → Stores es s ks (.applied name v)
  | declaration {x : Declaration} {n : Note} : .declaration x ∈ es → n ∈ x.notes → Stores es s ks n
  | member {x : Declaration} {ps : List Part} {p : Part} {n : Note} : .declaration x ∈ es →
      x.IsWrittenWith s ks ps → p ∈ ps → n ∈ p.notes → Stores es s ks n

/-- All names that are resolved in a document find their place. Text in the values of traits and
members is quoted where the value is written, or is such a name. -/
structure Places (es : List Statement) (s : Scope) (ks : List Kind) : Prop where
  name : ∀ isTrait w, Placed es (s.qualify isTrait w)
  target : ∀ target name v, .application target name v ∈ es → Placed es target.toText
  trait : ∀ n, Stores es s ks n → Placed es n.name ∧ ∃ us, us <:+: ks ∧ IsWrittenNote s us n ∧
    ∀ t, n.Mentions t → Quoted us t ∨ Placed es t
  body : ∀ x, .declaration x ∈ es → x.body.isSome = true → ∃ ps, x.IsWrittenWith s ks ps
  member : ∀ x ps p, .declaration x ∈ es → x.IsWrittenWith s ks ps → p ∈ ps →
    p.value = unitReference ∨ ∃ us, us <:+: ks ∧ IsValue s .body us p.value ∧
      ∀ t, p.value.Mentions t → Quoted us t ∨ Placed es t

section

variable {es : List Statement} {s : Scope} {ks us ts : List Kind} {p : Part} {n : Note} {t : String}

theorem Scope.Settled.placed_of_traced (h : s.Settled es) (ht : Traced s us t) :
    Quoted us t ∨ Placed es t := by
  rcases ht with hquoted | ⟨w, rfl⟩
  · exact .inl hquoted
  · exact .inr (h.placed_qualify false w)

theorem Scope.Settled.placed_note (h : s.Settled es) (hn : IsWrittenNote s us n)
    (hus : us <:+: ks) :
    Placed es n.name ∧ ∃ us, us <:+: ks ∧ IsWrittenNote s us n ∧
      ∀ t, n.Mentions t → Quoted us t ∨ Placed es t := by
  obtain ⟨hname, htraced⟩ := hn.traced
  refine ⟨?_, us, hus, hn, fun t ht => h.placed_of_traced (htraced t ht)⟩
  rcases hname with hhash | ⟨w, hw⟩
  · exact .inl hhash
  · rw [hw]
    exact h.placed_qualify true w

theorem Declaration.IsWrittenWith.exists_isWritten {x : Declaration} {ps : List Part}
    (h : x.IsWrittenWith s ks ps) (hp : p ∈ ps) :
    ∃ style us, us <:+: ks ∧ IsWritten s style us p := by
  obtain @⟨us, hus, -, hps⟩ := h
  obtain ⟨ts, hts, hwritten⟩ := hps.exists_isWritten hp
  have htail : us <:+: .word x.keyword :: .word x.name :: .grammar '{' :: us :=
    (List.suffix_append [_, _, _] us).isInfix
  exact ⟨_, ts, (hts.trans htail).trans hus, hwritten⟩

/-- A trait that is applied is written where it is applied. -/
theorem Stores.exists_isWrittenNote (hn : Stores es s ks n)
    (hspells : ∀ e ∈ es, e.resolvesNames = true → ∃ us, us <:+: ks ∧ Spells s us e) :
    ∃ us, us <:+: ks ∧ IsWrittenNote s us n := by
  cases hn with
  | @application target name v he =>
    obtain ⟨us, hus, hspelled⟩ := hspells _ he rfl
    cases hspelled with
    | @application w w' _ vs _ hw htrait =>
      have htail := (List.suffix_append [.word "apply", .word w] (.word w' :: vs)).isInfix
      exact ⟨_, htail.trans hus, .note (.applied hw htrait)⟩
  | @declaration x _ he hn =>
    obtain ⟨us, hus, hspelled⟩ := hspells _ he rfl
    cases hspelled with
    | declaration hx =>
      obtain @⟨ns, _, _, hnotes, -, -, -⟩ := hx
      obtain ⟨ts, hts, hnote⟩ := hnotes.exists_isNote hn
      have hhead := (List.prefix_append ns _).isInfix.trans hus
      exact ⟨ts, hts.trans hhead, .note hnote⟩
  | member he hwritten hp hn =>
    obtain ⟨_, us, hus, hpart⟩ := hwritten.exists_isWritten hp
    obtain ⟨ts, hts, hnote⟩ := hpart.exists_isWrittenNote hn
    exact ⟨ts, hts.trans hus, hnote⟩

theorem Scope.Settled.places (h : s.Settled es)
    (hspells : ∀ e ∈ es, e.resolvesNames = true → ∃ us, us <:+: ks ∧ Spells s us e) :
    Places es s ks := by
  constructor
  · exact h.placed_qualify
  · intro target name v he
    obtain ⟨us, -, hspelled⟩ := hspells _ he rfl
    cases hspelled with
    | @application w =>
      rw [Identifier.toText_ofText]
      exact h.placed_qualify false w
  · intro n hn
    obtain ⟨us, hus, hnote⟩ := hn.exists_isWrittenNote hspells
    exact h.placed_note hnote hus
  · intro x he hbody
    obtain ⟨us, hus, hspelled⟩ := hspells _ he rfl
    cases hspelled with
    | declaration hx => exact hx.exists_isWrittenWith hus hbody
  · intro x ps p he hwritten hp
    obtain ⟨_, us, hus, hpart⟩ := hwritten.exists_isWritten hp
    rcases hpart.exists_isValue with hunit | ⟨ts, hts, hvalue⟩
    · exact .inl hunit
    · refine .inr ⟨ts, hts.trans hus, hvalue, ?_⟩
      intro t ht
      exact h.placed_of_traced (hvalue.traced ht)

end

/-- Of a document that is read and has a name space, all names that are resolved have one, or were
brought into use without one: the targets of members, the names in the values of traits, what traits
are applied to, and the traits themselves. -/
theorem syntaxTree_places_names {d : Dialect} {src : Source} {ast : Value}
    (hast : d.syntaxTree src = .ok ast) :
    ∃ ts, src.tokens = .ok ts ∧
      (∃ es draft, Draft.RunsDocument (.start d.traits.names) (dropBreaks (ts.map (·.kind)))
        es draft) ∧
      ∀ es draft space, Draft.RunsDocument (.start d.traits.names)
          (dropBreaks (ts.map (·.kind))) es draft → .space space ∈ es →
        ast = draft.toValue ∧ Places es draft.scope (ts.map (·.kind)) := by
  obtain ⟨ts, hts, hrun, hsame⟩ := exists_runsDocument_of_syntaxTree hast
  refine ⟨ts, hts, hrun, ?_⟩
  intro es draft space hruns hspace
  have hdrop : dropBreaks (ts.map (·.kind)) <:+ ts.map (·.kind) := List.dropWhile_suffix _
  refine ⟨hsame es draft hruns, ?_⟩
  apply (hruns.settled hspace).places
  intro e he hnames
  obtain ⟨us, hus, hspells⟩ := hruns.exists_spells he hnames
  exact ⟨us, hus.trans hdrop.isInfix, hspells⟩

/-- A name in use, in a name space or without one. -/
def importDraft (target : String) : Draft :=
  ((Draft.start TraitRegistry.builtin.names).setSpace "a").addAlias target

def importing (root : String) : Declaration where
  notes := []
  keyword := "structure"
  name := "S"
  body := some [("m", reference root)]

def memberKinds : List Kind :=
  [.word "m", .grammar ':', .word "Foo", .grammar '}']

def importKinds (target : String) : List Kind :=
  [.word "namespace", .word "a", .newline, .word "use", .word target, .newline] ++
    .word "structure" :: .word "S" :: .grammar '{' :: memberKinds

def importStatements (target root : String) : List Statement :=
  [.space "a", .use target, .declaration (importing root)]

theorem isHead_importing {s : Scope} {root : String}
    (h : IsValue s .body [.word "Foo"] (reference root)) :
    IsHead s "structure" "S" (.word "structure" :: .word "S" :: .grammar '{' :: memberKinds)
      (some [("m", reference root)]) := by
  have hmember := @IsMember.valued s .empty _ _ _ _ _ (.word "m") rfl h rfl
  exact .body (.member (.done .empty) hmember (.closing []) (.close (.done .empty) rfl))

theorem runsDocument_importing {target root : String}
    (h : IsValue (importDraft target).scope .body [.word "Foo"] (reference root)) :
    Draft.RunsDocument (.start TraitRegistry.builtin.names) (importKinds target)
      (importStatements target root) ((importDraft target).declare (importing root)) := by
  have hkeyword : "structure" ∉ Draft.keywords := by decide
  have hword : isTraitWord "structure" = false := rfl
  have hx : IsDeclaration (importDraft target).scope _ (importing root) :=
    @IsDeclaration.intro _ [] _ (importing root) .nil hkeyword hword (isHead_importing h)
  have hdeclared := Draft.Runs.statement (.declaration hx) (.declaration rfl) .input .done
  have hused := @Draft.Runs.statement ((Draft.start TraitRegistry.builtin.names).setSpace "a")
    _ _ _ _ _ _ _ (.use target) (.use rfl) (.newline _) hdeclared
  have hspaced := @Draft.Runs.statement (.start TraitRegistry.builtin.names) _ _ _ _ _ _ _
    (.space "a") (.space rfl rfl) (.newline _) hused
  exact .statements (by simp [importKinds]) hspaced

theorem syntaxTree_places_names_import :
    ∃ ast ts, Dialect.builtin.syntaxTree
        ⟨Dialect.unnamed, "namespace a\nuse b#Foo\nstructure S { m: Foo }"⟩ = .ok ast ∧
      (Source.mk Dialect.unnamed
        "namespace a\nuse b#Foo\nstructure S { m: Foo }").tokens = .ok ts ∧
      Places (importStatements "b#Foo" "b#Foo") (importDraft "b#Foo").scope
        (ts.map (·.kind)) := by
  have hks : Token.kinds "namespace a\nuse b#Foo\nstructure S { m: Foo }".toList =
      .ok (importKinds "b#Foo") :=
    kinds_of_tokens ⟨_, Token.tokens_eq_ok_iff.mpr (by cbv), rfl⟩
  have hruns := @runsDocument_importing "b#Foo" "b#Foo" (.atom rfl)
  have hast := @syntaxTree_of_runsDocument .builtin ⟨Dialect.unnamed, _⟩ _ _ _ hks hruns
  obtain ⟨ts, hts, -, hplaces⟩ := syntaxTree_places_names hast
  have hkinds := Token.tokens_kinds_iff.mp ⟨ts, hts, rfl⟩
  rw [← Except.ok.inj (hks.symm.trans hkinds)] at hplaces
  have hspace : Statement.space "a" ∈ importStatements "b#Foo" "b#Foo" := List.mem_cons_self
  obtain ⟨-, hplaced⟩ := hplaces _ _ "a" hruns hspace
  rw [Except.ok.inj (hks.symm.trans hkinds)] at hplaced
  exact ⟨_, ts, hast, hts, hplaced⟩

/-- What is brought into use without a name space stays without one, also in a document that has
one. -/
theorem syntaxTree_unplaced_name :
    ∃ ast entry members, Dialect.builtin.syntaxTree
        ⟨Dialect.unnamed, "namespace a\nuse Foo\nstructure S { m: Foo }"⟩ = .ok ast ∧
      (∃ ts, (Source.mk Dialect.unnamed
          "namespace a\nuse Foo\nstructure S { m: Foo }").tokens = .ok ts ∧
        Draft.RunsDocument (.start TraitRegistry.builtin.names) (dropBreaks (ts.map (·.kind)))
          (importStatements "Foo" "Foo") ((importDraft "Foo").declare (importing "Foo"))) ∧
      entryOf? ast "a#S" = some entry ∧
      entry.get? "members" = some (.object (Table.entries members)) ∧
      members.get? "m" = some (reference "Foo") ∧ '#' ∉ "Foo".toList := by
  have hks : Token.kinds "namespace a\nuse Foo\nstructure S { m: Foo }".toList =
      .ok (importKinds "Foo") :=
    kinds_of_tokens ⟨_, Token.tokens_eq_ok_iff.mpr (by cbv), rfl⟩
  have hruns := @runsDocument_importing "Foo" "Foo" (.atom rfl)
  have hast := @syntaxTree_of_runsDocument .builtin ⟨Dialect.unnamed, _⟩ _ _ _ hks hruns
  obtain ⟨ts, hts, hkinds⟩ := (@Token.tokens_kinds_iff ⟨Dialect.unnamed, _⟩ _).mpr hks
  have hstyle : BodyStyle.ofKeyword (importing "Foo").keyword ≠ .fields := by decide
  exact ⟨_, _, _, hast, ⟨ts, hts, hkinds ▸ hruns⟩, entryOf?_toValue _ _,
    Declaration.get?_members_entry rfl hstyle, rfl, by decide⟩

end ShapeModel.Document
