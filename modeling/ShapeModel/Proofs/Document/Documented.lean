import ShapeModel.Proofs.Document.Members
import ShapeModel.Proofs.Document.Parted
import ShapeModel.Proofs.Token.Cover

/-!
# Documentation of shapes and members

The lines of documentation in front of a shape or of a member become one text, in their order and
with all that is applied between them. Blank lines make no difference in front of a member, and may
not come in front of a shape.
-/

namespace ShapeModel

set_option autoImplicit false

open Token (Kind)

namespace Document

def Note.line? : Note → Option String
  | .line text => some text
  | .applied _ _ => none

def Note.applied? : Note → Option (String × Value)
  | .line _ => none
  | .applied name v => some (name, v)

/-- The lines of documentation among notes. -/
def linesOf (ns : List Note) : List String :=
  ns.filterMap Note.line?

/-- The value that a trait is applied with, where it is applied last. -/
def lastApplied? (ns : List Note) (name : String) : Option Value :=
  (ns.filterMap Note.applied?).reverse.lookup name

/-- These traits are what the notes say: the lines of documentation as one text, unless the trait
is applied as well, and every other trait as it is applied last. -/
structure Bears (ns : List Note) (trait? : String → Option Value) : Prop where
  documentation : linesOf ns ≠ [] → lastApplied? ns documentationName = none →
    trait? documentationName = some (.string ("\n".intercalate (linesOf ns)))
  applied : ∀ name, name ≠ documentationName → trait? name = lastApplied? ns name

section

variable {ns : List Note} {name : String} {v : Value}

theorem linesOf_append (ns : List Note) (n : Note) :
    linesOf (ns ++ [n]) = linesOf ns ++ n.line?.toList := by
  cases n <;> simp [linesOf, Note.line?]

theorem lastApplied?_line (ns : List Note) (text name : String) :
    lastApplied? (ns ++ [.line text]) name = lastApplied? ns name := by
  rw [lastApplied?, List.filterMap_append, List.reverse_append]
  rfl

theorem lastApplied?_applied_self (ns : List Note) (name : String) (v : Value) :
    lastApplied? (ns ++ [.applied name v]) name = some v := by
  simp [lastApplied?, Note.applied?]

theorem lastApplied?_applied_of_ne {name' : String} (h : name' ≠ name) (ns : List Note)
    (v : Value) : lastApplied? (ns ++ [.applied name' v]) name = lastApplied? ns name := by
  simp [lastApplied?, Note.applied?, List.lookup_cons, beq_false_of_ne h.symm]

theorem get?_annotationsOf_of_ne (h : name ≠ documentationName) :
    (annotationsOf ns).get? name = lastApplied? ns name := by
  induction ns using List.reverseRecOn with
  | nil => rfl
  | append_singleton ns n ih =>
    rw [annotationsOf_append]
    cases n with
    | line text =>
      have hline : (Note.line text).name ≠ name := h.symm
      rw [get?_note_of_ne _ hline, ih, lastApplied?_line]
    | applied name' v =>
      by_cases hname : (Note.applied name' v).name = name
      · subst hname
        exact (Table.get?_insert_self _ _ _).trans (lastApplied?_applied_self ns _ v).symm
      · rw [get?_note_of_ne _ hname, ih]
        exact (lastApplied?_applied_of_ne hname ns v).symm

theorem get?_annotationsOf_documentation (h : lastApplied? ns documentationName = none) :
    (annotationsOf ns).get? documentationName =
      if linesOf ns = [] then none else some (.string ("\n".intercalate (linesOf ns))) := by
  induction ns using List.reverseRecOn with
  | nil => rfl
  | append_singleton ns n ih =>
    rw [annotationsOf_append, linesOf_append]
    cases n with
    | line text =>
      rw [lastApplied?_line] at h
      rw [Annotations.note, Annotations.document, Table.get?_insert_self, ih h]
      by_cases hlines : linesOf ns = []
      · simp [hlines, Note.line?]
      · simp [hlines, Note.line?, String.intercalate_append_of_ne_nil]
    | applied name v =>
      have hname : (Note.applied name v).name ≠ documentationName := by
        rintro rfl
        cases (lastApplied?_applied_self ns _ v).symm.trans h
      have h : lastApplied? ns documentationName = none :=
        (lastApplied?_applied_of_ne hname ns v).symm.trans h
      rw [get?_note_of_ne _ hname, ih h]
      simp [Note.line?]

theorem bears_annotationsOf (ns : List Note) : Bears ns (annotationsOf ns).get? where
  documentation hlines h := by rw [get?_annotationsOf_documentation h, if_neg hlines]
  applied _ := get?_annotationsOf_of_ne

end

/-- The names in the body, as they are written. -/
def Declaration.memberNames (x : Declaration) : List String :=
  (x.body.getD []).map (·.1)

theorem Declaration.spliced?_eq_none {x : Declaration} {key : String} (h : key ∉ x.memberNames) :
    x.spliced? key = none := by
  rw [spliced?]
  split
  · next ms hms _ =>
    rw [memberNames, hms, Option.getD_some] at h
    rw [List.lookup_eq_none_iff]
    intro e he
    have hmem : e.1 ∈ ms.map (·.1) := List.mem_map_of_mem (List.mem_reverse.mp he)
    have hne : key ≠ e.1 := by
      rintro rfl
      exact h hmem
    exact bne_iff_ne.mpr hne
  · rfl

theorem Declaration.bears_entry {x : Declaration} (h : x.spliced? "traits" = none) :
    Bears x.notes (traitOf? (.object x.entry)) := by
  have htraits : traitOf? (.object x.entry) = (annotationsOf x.notes).get? := by
    funext name
    rw [traitOf?_object, traitFields, x.find?_entry (by decide), h, Option.none_or,
      find?_shapeEntry, if_neg (by decide)]
    cases hempty : (annotationsOf x.notes).isEmpty with
    | true =>
      rw [Table.eq_empty_of_isEmpty hempty]
      rfl
    | false => rfl
  rw [htraits]
  exact bears_annotationsOf x.notes

/-- The entry of a member: under `members`, or a field of the shape's own entry. -/
def memberOf? (style : BodyStyle) (entry : Value) (name : String) : Option Value :=
  match style with
  | .fields => entry.get? name
  | _ => (entry.get? "members").bind (·.get? name)

theorem Part.Makes.bears {p : Part} {entry : Value} {target : String}
    (h : p.Makes (p.name, entry)) (hvalue : p.value = reference target) :
    Bears p.notes (traitOf? entry) := by
  have htraits : traitOf? entry = (annotationsOf p.notes).get? := by
    funext name
    have hnone : traitOf? p.value name = none := by
      rw [hvalue]
      rfl
    rw [traitOf?_of_attach h.2, hnone, Option.or_none]
  rw [htraits]
  exact bears_annotationsOf p.notes

section

variable {s : Scope} {ks : List Kind} {x : Declaration} {ps : List Part} {p : Part}

theorem Declaration.IsWrittenWith.map_name (h : x.IsWrittenWith s ks ps) :
    ps.map Part.name = x.memberNames := by
  obtain ⟨ms, hms, hmakes⟩ := h.exists_makes
  rw [Declaration.memberNames, hms, map_name_of_makes hmakes, Option.getD_some]

/-- If no name is written twice, each part makes the member of its name. -/
theorem Declaration.IsWrittenWith.exists_memberOf? (h : x.IsWrittenWith s ks ps)
    (hnames : x.memberNames.Nodup) (hp : p ∈ ps) :
    ∃ entry, memberOf? (.ofKeyword x.keyword) (.object x.entry) p.name = some entry ∧
      p.Makes (p.name, entry) := by
  rw [← h.map_name] at hnames
  obtain ⟨first, rest, rfl⟩ := List.append_of_mem hp
  have hrest : ∀ q ∈ rest, q.name ≠ p.name := by
    intro q hq heq
    rw [List.map_append, List.map_cons, List.nodup_append, List.nodup_cons] at hnames
    exact hnames.2.1.1 (heq ▸ List.mem_map_of_mem hq)
  obtain ⟨ms, hms, hmakes⟩ := h.exists_makes
  cases hstyle : BodyStyle.ofKeyword x.keyword with
  | fields =>
    obtain ⟨entry, hentry, hp⟩ := exists_find?_of_makes hmakes hrest
      (Draft.shapeEntry x.keyword (annotationsOf x.notes))
    refine ⟨entry, ?_, hp⟩
    rw [memberOf?, Value.get?, Declaration.entry, hms]
    simp only [hstyle]
    exact hentry
  | _ =>
    obtain ⟨entry, hentry, hp⟩ := exists_find?_of_makes hmakes hrest []
    refine ⟨entry, ?_, hp⟩
    have hmembers := Declaration.get?_members_entry hms (by rw [hstyle]; decide)
    simp only [memberOf?, hmembers]
    exact hentry

end

/-- Without an application nothing becomes of an entry. -/
theorem Draft.Applies.eq_of_forall {id : String} {es : List Statement} {entry entry' : Value}
    (h : Applies id es entry entry') (hes : ∀ e ∈ es, e.appliedTo? = none) : entry' = entry := by
  induction h with
  | done => rfl
  | applied => cases hes _ List.mem_cons_self
  | other _ _ ih => exact ih fun e he => hes e (List.mem_cons_of_mem _ he)

/-- Of these tokens every shape and every member bears what the notes before it say, as long as no
trait is applied by a statement, and no name of its body is written twice or is `traits`. -/
def ShapesBear (start : Draft) (ks : List Kind) (ast : Value) : Prop :=
  ∀ before x after draft,
    Draft.RunsDocument start (dropBreaks ks) (before ++ .declaration x :: after) draft →
    (∀ e ∈ before ++ after, e.appliedTo? = none) → x.memberNames.Nodup →
    "traits" ∉ x.memberNames →
    ∃ entry, entryOf? ast (draft.shapeName x.name) = some entry ∧ Bears x.notes (traitOf? entry) ∧
      (x.body.isSome = true → ∃ ps, x.IsWrittenWith draft.scope ks ps) ∧
      ∀ ps, x.IsWrittenWith draft.scope ks ps → ∀ p ∈ ps, ∀ target, p.value = reference target →
        ∃ member, memberOf? (.ofKeyword x.keyword) entry p.name = some member ∧
          Bears p.notes (traitOf? member)

theorem shapesBear_of_syntaxTree {d : Dialect} {src : Source} {ts : List Token} {ast : Value}
    (hts : src.tokens = .ok ts) (hast : d.syntaxTree src = .ok ast) :
    ShapesBear (.start d.traits.names) (ts.map (·.kind)) ast := by
  intro before x after draft hruns hes hnames htraits
  have hks := Token.tokens_kinds_iff.mp ⟨ts, hts, rfl⟩
  cases Except.ok.inj (hast.symm.trans (syntaxTree_of_runsDocument hks hruns))
  obtain ⟨⟨us, hus, hx⟩, entry, hentry, happlies⟩ := hruns.applies_declaration
  obtain rfl := happlies.eq_of_forall fun e he => hes e (List.mem_append_right _ he)
  have hdrop : dropBreaks (ts.map (·.kind)) <:+ ts.map (·.kind) := List.dropWhile_suffix _
  refine ⟨_, (entryOf?_toValue _ _).trans hentry, x.bears_entry (x.spliced?_eq_none htraits),
    hx.exists_isWrittenWith (hus.trans hdrop.isInfix), fun ps hps p hp target hvalue => ?_⟩
  obtain ⟨member, hmember, hmakes⟩ := hps.exists_memberOf? hnames hp
  exact ⟨member, hmember, hmakes.bears hvalue⟩

/-- Lines of documentation are the trimmed texts behind three slashes. In a document that is read,
shapes and members bear what the notes before them say, and no note of a shape has a blank line
behind it. Such a blank line is the error as soon as all before the note is read. -/
theorem syntaxTree_documented {d : Dialect} {src : Source} {ts : List Token}
    (hts : src.tokens = .ok ts) :
    (∀ t ∈ ts, ∀ text, t.kind = .documentation text → t.Documents src.text.toList text) ∧
      (∀ ast, d.syntaxTree src = .ok ast →
        (∃ es draft, Draft.RunsDocument (.start d.traits.names) (dropBreaks (ts.map (·.kind))) es
          draft) ∧
        ShapesBear (.start d.traits.names) (ts.map (·.kind)) ast ∧
        ¬PartedDocument (.ofTraitNames d.traits.names) (dropBreaks (ts.map (·.kind)))) ∧
      ∀ front draft us ns vs n rest, Opens d.traits.names front draft →
        AreNotes draft.scope us ns → IsNote draft.scope vs n →
        ts.map (·.kind) = front ++ (us ++ (vs ++ .newline :: .newline :: rest)) →
        ∃ place, d.syntaxTree src = .error (.syntactic ⟨.unattachedTraits, some place⟩) := by
  refine ⟨fun t ht text hk => ?_, fun ast hast => ?_, ?_⟩
  · exact Token.documents_of_scanFrom .start (Token.tokens_eq_ok_iff.mp hts) ht hk
  · obtain ⟨ts', hts', hrun, -⟩ := exists_runsDocument_of_syntaxTree hast
    cases hts.symm.trans hts'
    refine ⟨hrun, shapesBear_of_syntaxTree hts hast, ?_⟩
    obtain ⟨es, draft, hruns⟩ := hrun
    exact ((Draft.readsDocument_iff_exists_runs rfl).mpr ⟨es, hruns⟩).not_parted rfl
  · intro front draft us ns vs n rest hfront hns hn hks
    have hrefuses := hfront.refuses (hns.head?_append_ne hn) (Draft.refuses_notes hns hn rest)
    rw [← hks] at hrefuses
    obtain ⟨place, herror⟩ := @ofTokens_eq_error _ src _ _ hrefuses
    refine ⟨place, ?_⟩
    rw [Dialect.syntaxTree, hts]
    exact congrArg (Except.mapError Error.syntactic) herror

/-- A structure with two lines of documentation, and a line in front of its member. -/
def documentedText : String :=
  "\n".intercalate ["/// a", "@sensitive", "///  b ", r"structure A {", "/// c", "",
    "@sensitive m: String", r"}"]

/-- A blank line parts the shape from its documentation. -/
def partedText : String :=
  "/// a\n\nstring A"

def documentedEntry : Value :=
  .object [("target", .string "smithy.api#String"), ("traits", .object
    [("smithy.api#documentation", .string "c"), ("smithy.api#sensitive", .emptyObject)])]

def documentedStructure : Declaration where
  notes := [.line "a", .applied "smithy.api#sensitive" .emptyObject, .line "b"]
  keyword := "structure"
  name := "A"
  body := some [("m", documentedEntry)]

def documentedMember : Part where
  notes := [.line "c", .applied "smithy.api#sensitive" .emptyObject]
  name := "m"
  value := reference "smithy.api#String"

def documentedNotes : List Kind :=
  [.documentation "a", .newline, .word "@sensitive", .newline, .documentation "b", .newline]

def documentedBody : List Kind :=
  [.newline, .documentation "c", .newline, .newline, .word "@sensitive", .word "m", .grammar ':',
    .word "String", .newline, .grammar '}']

theorem isHead_documentedStructure :
    IsHead emptyScope "structure" "A"
      (.word "structure" :: .word "A" :: .grammar '{' :: documentedBody)
      documentedStructure.body := by
  have hnotes : AreAnnotations emptyScope .empty
      [.newline, .documentation "c", .newline, .newline, .word "@sensitive"]
      ((Annotations.document .empty "c").insert "smithy.api#sensitive" .emptyObject) :=
    .newline (.documentation (.newline (.newline (.applied rfl isTrait_sensitive (.done _)))))
  have hattach : attach ((Annotations.document .empty "c").insert "smithy.api#sensitive"
      .emptyObject) (reference "smithy.api#String") = .ok documentedEntry := rfl
  have hmember := IsMember.valued (.word "m") rfl isValue_string hattach
  exact .body (.member hnotes hmember (.newline _) (.close (.done .empty) rfl))

theorem areParts_documentedBody :
    AreParts emptyScope .members documentedBody [documentedMember] := by
  have hnotes : AreSpacedNotes emptyScope
      [.newline, .documentation "c", .newline, .newline, .word "@sensitive"]
      documentedMember.notes :=
    .newline (.note (.line "c") (.newline (.newline (.note (.applied rfl isTrait_sensitive) .nil))))
  have hstyle : BodyStyle.members ≠ .enumeration := by decide
  have hmember := IsWritten.valued hstyle hnotes (.word "m") rfl isValue_string
  exact .part hmember (.newline _) (.close .nil)

theorem isDeclaration_documentedStructure :
    IsDeclaration emptyScope
      (documentedNotes ++ .word "structure" :: .word "A" :: .grammar '{' :: documentedBody)
      documentedStructure := by
  have hnotes : AreNotes emptyScope documentedNotes documentedStructure.notes :=
    .cons (.line "a") .present
      (.cons (.applied rfl isTrait_sensitive) .present (.cons (.line "b") .present .nil))
  exact .intro hnotes (by decide) rfl isHead_documentedStructure

theorem kinds_documentedStructure :
    Token.kinds documentedText.toList =
      .ok (documentedNotes ++ .word "structure" :: .word "A" :: .grammar '{' :: documentedBody) :=
  kinds_of_tokens ⟨_, Token.tokens_eq_ok_iff.mpr (by cbv), rfl⟩

theorem kinds_partedText :
    Token.kinds partedText.toList =
      .ok [.documentation "a", .newline, .newline, .word "string", .word "A"] :=
  kinds_of_tokens ⟨_, Token.tokens_eq_ok_iff.mpr (by cbv), rfl⟩

theorem syntaxTree_documented_structure :
    (∃ ts ast entry member,
      (Source.mk Dialect.unnamed documentedText).tokens = .ok ts ∧
      Dialect.builtin.syntaxTree ⟨Dialect.unnamed, documentedText⟩ = .ok ast ∧
      entryOf? ast "A" = some entry ∧
      traitOf? entry documentationName = some (.string "a\nb") ∧
      traitOf? entry "smithy.api#sensitive" = some .emptyObject ∧
      memberOf? .members entry "m" = some member ∧
      traitOf? member documentationName = some (.string "c") ∧
      traitOf? member "smithy.api#sensitive" = some .emptyObject) ∧
    ∃ place, Dialect.builtin.syntaxTree ⟨Dialect.unnamed, partedText⟩ =
      .error (.syntactic ⟨.unattachedTraits, some place⟩) := by
  constructor
  · have hks := kinds_documentedStructure
    have hruns := runsDocument_declaration isDeclaration_documentedStructure (by decide)
    have hast := @syntaxTree_of_runsDocument .builtin ⟨Dialect.unnamed, _⟩ _ _ _ hks hruns
    obtain ⟨ts, hts, hkinds⟩ := (@Token.tokens_kinds_iff ⟨Dialect.unnamed, _⟩ _).mpr hks
    have hbear := ((@syntaxTree_documented .builtin _ _ hts).2.1 _ hast).2.1
    rw [hkinds] at hbear
    obtain ⟨entry, hentry, hshape, -, hmembers⟩ :=
      hbear [] documentedStructure [] _ hruns nofun (by decide) (by decide)
    have hparts : documentedStructure.IsWrittenWith emptyScope
        (documentedNotes ++ .word "structure" :: .word "A" :: .grammar '{' :: documentedBody)
        [documentedMember] :=
      .intro (List.suffix_append _ _).isInfix isHead_documentedStructure areParts_documentedBody
    obtain ⟨member, hmember, hbears⟩ :=
      hmembers _ hparts documentedMember List.mem_cons_self "smithy.api#String" rfl
    have hsensitive : lastApplied? documentedStructure.notes "smithy.api#sensitive" =
        some .emptyObject :=
      (lastApplied?_line [_, _] "b" _).trans (lastApplied?_applied_self [_] _ _)
    have hinner : lastApplied? documentedMember.notes "smithy.api#sensitive" = some .emptyObject :=
      lastApplied?_applied_self [_] _ _
    have hlines : "\n".intercalate (linesOf documentedStructure.notes) = "a\nb" := by decide
    have hline : "\n".intercalate (linesOf documentedMember.notes) = "c" := by decide
    refine ⟨ts, _, entry, member, hts, hast, hentry, ?_, ?_, hmember, ?_, ?_⟩
    · rw [hshape.documentation (by decide) (by decide), hlines]
    · rw [hshape.applied _ (by decide), hsensitive]
    · rw [hbears.documentation (by decide) (by decide), hline]
    · rw [hbears.applied _ (by decide), hinner]
  · have hks := kinds_partedText
    obtain ⟨ts, hts, hkinds⟩ := (@Token.tokens_kinds_iff ⟨Dialect.unnamed, _⟩ _).mpr hks
    exact (@syntaxTree_documented .builtin _ _ hts).2.2 [] _ [] [] _ (.line "a") _ .start .nil
      (.line "a") hkinds

/-- A member of an enumeration with a value, which stands in place of one that is applied to it. -/
def assignedText : String :=
  "\n".intercalate [r"enum E {", "/// d", "@enumValue(\"x\")", "A = \"y\"", r"}"]

def assignedNotes : List Kind :=
  [.newline, .documentation "d", .newline, .word "@enumValue", .grammar '(', .string "x",
    .grammar ')', .newline]

def assignedMember : Part where
  notes := [.line "d", .applied "smithy.api#enumValue" (.string "x"),
    .applied "smithy.api#enumValue" (.string "y")]
  name := "A"
  value := unitReference

def assignedEnum : Declaration where
  notes := []
  keyword := "enum"
  name := "E"
  body := some [("A", enumMember (annotationsOf assignedMember.notes))]

/-- What stands behind these notes, through the closing brace. -/
def assignedRest : List Kind :=
  [.word "A", .grammar '=', .string "y", .newline, .grammar '}']

def assignedBody : List Kind :=
  assignedNotes ++ assignedRest

theorem areSpacedNotes_assignedNotes :
    AreSpacedNotes emptyScope assignedNotes
      [.line "d", .applied "smithy.api#enumValue" (.string "x")] := by
  have hname : emptyScope.qualify true (appliedName "@enumValue") = "smithy.api#enumValue" := by
    decide +kernel
  have htrait : IsTrait emptyScope [.word "@enumValue", .grammar '(', .string "x", .grammar ')']
      "smithy.api#enumValue" (.string "x") :=
    hname ▸ @IsTrait.applied _ _ [] _ "@enumValue" .nil (.value (.atom rfl) .nil)
  exact .newline (.note (.line "d") (.newline (.note (.applied rfl htrait) (.newline .nil))))

theorem isHead_assignedEnum :
    IsHead emptyScope "enum" "E" (.word "enum" :: .word "E" :: .grammar '{' :: assignedBody)
      assignedEnum.body := by
  have hnotes := areSpacedNotes_assignedNotes.areAnnotations .empty
  have hmember : IsEnumMember emptyScope
      (annotationsOf [.line "d", .applied "smithy.api#enumValue" (.string "x")])
      [.word "A", .grammar '=', .string "y"] "A"
      (enumMember (annotationsOf assignedMember.notes)) :=
    .valued rfl (.atom rfl)
  exact .body (.member hnotes hmember (.newline _) (.close (.done .empty) rfl))

theorem areParts_assignedBody :
    AreParts emptyScope .enumeration assignedBody [assignedMember] := by
  have hmember : IsWritten emptyScope .enumeration
      (assignedNotes ++ [.word "A", .grammar '=', .string "y"]) assignedMember :=
    .given areSpacedNotes_assignedNotes rfl (.atom rfl)
  exact .part hmember (.newline _) (.close .nil)

theorem isDeclaration_assignedEnum :
    IsDeclaration emptyScope (.word "enum" :: .word "E" :: .grammar '{' :: assignedBody)
      assignedEnum := by
  have hkeyword : "enum" ∉ Draft.keywords := by decide
  exact @IsDeclaration.intro _ [] _ assignedEnum .nil hkeyword rfl isHead_assignedEnum

theorem kinds_assignedEnum :
    Token.kinds assignedText.toList =
      .ok (.word "enum" :: .word "E" :: .grammar '{' :: assignedBody) :=
  kinds_of_tokens ⟨_, Token.tokens_eq_ok_iff.mpr (by cbv), rfl⟩

theorem syntaxTree_assigned_value :
    ∃ ts ast entry member,
      (Source.mk Dialect.unnamed assignedText).tokens = .ok ts ∧
      ts.map (·.kind) = .word "enum" :: .word "E" :: .grammar '{' ::
        (assignedNotes ++ assignedRest) ∧
      AreSpacedNotes emptyScope assignedNotes
        [.line "d", .applied "smithy.api#enumValue" (.string "x")] ∧
      Dialect.builtin.syntaxTree ⟨Dialect.unnamed, assignedText⟩ = .ok ast ∧
      entryOf? ast "E" = some entry ∧ memberOf? .enumeration entry "A" = some member ∧
      traitOf? member documentationName = some (.string "d") ∧
      traitOf? member "smithy.api#enumValue" = some (.string "y") := by
  have hks := kinds_assignedEnum
  have hruns := runsDocument_declaration isDeclaration_assignedEnum (by decide)
  have hast := @syntaxTree_of_runsDocument .builtin ⟨Dialect.unnamed, _⟩ _ _ _ hks hruns
  obtain ⟨ts, hts, hkinds⟩ := (@Token.tokens_kinds_iff ⟨Dialect.unnamed, _⟩ _).mpr hks
  have hparts : assignedEnum.IsWrittenWith emptyScope
      (.word "enum" :: .word "E" :: .grammar '{' :: assignedBody) [assignedMember] :=
    .intro List.infix_rfl isHead_assignedEnum areParts_assignedBody
  obtain ⟨member, hmember, hmakes⟩ :=
    hparts.exists_memberOf? (p := assignedMember) (by decide) List.mem_cons_self
  have hbears := @Part.Makes.bears _ _ (Prelude.absolute Prelude.unitName) hmakes rfl
  have hvalue : lastApplied? assignedMember.notes "smithy.api#enumValue" = some (.string "y") :=
    lastApplied?_applied_self [_, _] _ _
  have hline : "\n".intercalate (linesOf assignedMember.notes) = "d" := by decide
  refine ⟨ts, _, _, member, hts, hkinds, areSpacedNotes_assignedNotes, hast, entryOf?_toValue _ _,
    hmember, ?_, ?_⟩
  · rw [hbears.documentation (by decide) (by decide), hline]
  · rw [hbears.applied _ (by decide), hvalue]

end Document

end ShapeModel
