import ShapeModel.Proofs.Document.Kept
import ShapeModel.Proofs.Document.Part
import ShapeModel.Proofs.Table.Keys

/-!
# What becomes of members

The members of a shape stand under their names in its entry. Each keeps what its part of the body
says, up to traits that are applied to it later. But a name is one key, so that of the parts with
one name only the last is kept.
-/

namespace ShapeModel.Document

set_option autoImplicit false

open Token (Kind)

/-- The trait of this name in an entry. -/
def traitOf? (entry : Value) (name : String) : Option Value :=
  (entry.get? "traits").bind (·.get? name)

section

variable {as : Annotations} {v entry : Value}

theorem traitOf?_object (fields : Value.Fields) (name : String) :
    traitOf? (.object fields) name = Entries.find? name (traitFields fields) := by
  rw [traitOf?, Value.get?, traitFields]
  cases Entries.find? "traits" fields with
  | none => rfl
  | some w => cases w <;> rfl

theorem attach_eq_self (h : attach as v = .ok entry) (hv : ∀ fields, v ≠ .object fields) :
    entry = v := by
  rcases attach_eq_ok h with ⟨-, rfl⟩ | ⟨fields, _, rfl, -, -⟩
  · rfl
  · exact absurd rfl (hv fields)

theorem get?_of_attach {key : String} (h : attach as v = .ok entry) (hkey : key ≠ "traits") :
    entry.get? key = v.get? key := by
  rcases attach_eq_ok h with ⟨-, rfl⟩ | ⟨fields, ts, rfl, rfl, -⟩
  · rfl
  · exact find?_withTraits hkey _ fields

/-- The annotations that are attached come before the traits that were there. -/
theorem traitOf?_of_attach (h : attach as v = .ok entry) (name : String) :
    traitOf? entry name = (as.get? name).or (traitOf? v name) := by
  rcases attach_eq_ok h with ⟨hempty, rfl⟩ | ⟨fields, ts, rfl, rfl, hts⟩
  · rw [Table.eq_empty_of_isEmpty hempty, Table.get?_empty, Option.none_or]
  · rw [traitOf?_object, traitOf?_object, traitFields_withTraits, traitFields_eq hts]
    exact as.ascending.find?_insertAll name ts

end

/-- An entry keeps a part: the value, what the notes give, and the traits in the value that no note
is about. Replaced traits are left out. -/
structure Part.Kept (replaced : String → Prop) (p : Part) (entry : Value) : Prop where
  plain : (∀ fields, p.value ≠ .object fields) → entry = p.value
  field : ∀ key, key ≠ "traits" → entry.get? key = p.value.get? key
  noted : ∀ name v, Gives p.notes name v → ¬replaced name → traitOf? entry name = some v
  inner : ∀ name, (∀ n ∈ p.notes, n.name ≠ name) → ¬replaced name →
    traitOf? entry name = traitOf? p.value name

/-- The members are those of the parts. There is one for each name, and it keeps the last part with
that name. -/
structure HoldsParts (replaced : String → String → Prop) (ps : List Part)
    (members : Table String Value) : Prop where
  names : members.keys.Perm (ps.map Part.name).dedup
  kept : ∀ first p rest, ps = first ++ p :: rest → (∀ q ∈ rest, q.name ≠ p.name) →
    ∃ entry, members.get? p.name = some entry ∧ p.Kept (replaced p.name) entry

/-- The statement applies a trait of this name to this member of the shape. -/
inductive Statement.ReplacesIn (id member name : String) : Statement → Prop
  | intro {target : Identifier} {v : Value} : target.member = some member →
      target.root.toText = id → ReplacesIn id member name (.application target name v)

section

variable {replaced replaced' : String → Prop} {p : Part} {as : Annotations} {entry entry' : Value}

theorem Part.Makes.kept (h : p.Makes (p.name, entry)) : p.Kept (fun _ => False) entry where
  plain := attach_eq_self h.2
  field _ := get?_of_attach h.2
  noted name v hv _ := by rw [traitOf?_of_attach h.2, hv.get?_annotationsOf, Option.some_or]
  inner name hname _ := by
    rw [traitOf?_of_attach h.2, get?_annotationsOf_of_forall_ne hname, Option.none_or]

theorem Part.Kept.mono (h : p.Kept replaced entry)
    (hreplaced : ∀ name, replaced name → replaced' name) : p.Kept replaced' entry where
  plain := h.plain
  field := h.field
  noted name v hv hname := h.noted name v hv fun hr => hname (hreplaced name hr)
  inner name hnotes hname := h.inner name hnotes fun hr => hname (hreplaced name hr)

/-- Attaching replaces no traits but those that are attached. -/
theorem Part.Kept.attach (h : p.Kept replaced entry) (hattach : attach as entry = .ok entry') :
    p.Kept (fun name => replaced name ∨ as.contains name = true) entry' := by
  have htrait {name : String} (hname : ¬(replaced name ∨ as.contains name = true)) :
      traitOf? entry' name = traitOf? entry name := by
    rw [traitOf?_of_attach hattach, Option.not_isSome_iff_eq_none.mp fun h => hname (.inr h),
      Option.none_or]
  constructor
  · intro hvalue
    have hentry := h.plain hvalue
    rw [attach_eq_self hattach (hentry ▸ hvalue), hentry]
  · intro key hkey
    rw [get?_of_attach hattach hkey, h.field key hkey]
  · intro name v hv hname
    rw [htrait hname]
    exact h.noted name v hv fun hr => hname (.inl hr)
  · intro name hnotes hname
    rw [htrait hname]
    exact h.inner name hnotes fun hr => hname (.inl hr)

end

section

variable {ps first rest : List Part} {p : Part} {ms : Value.Fields}

theorem map_name_of_makes (h : List.Forall₂ Part.Makes ps ms) :
    ps.map Part.name = ms.map (·.1) := by
  induction h with
  | nil => rfl
  | cons hmakes _ ih => rw [List.map_cons, List.map_cons, hmakes.1, ih]

theorem exists_find?_of_makes (h : List.Forall₂ Part.Makes (first ++ p :: rest) ms)
    (hrest : ∀ q ∈ rest, q.name ≠ p.name) (es : Value.Fields) :
    ∃ entry, Entries.find? p.name (Entries.insertAll es ms) = some entry ∧
      p.Makes (p.name, entry) := by
  -- What the parts before `p` put under its name does not matter, so the induction is over any
  -- `es`.
  induction first generalizing ms es with
  | nil =>
    cases h with
    | @cons _ e _ ms hmakes hall =>
      obtain ⟨name, entry⟩ := e
      obtain rfl : p.name = name := hmakes.1
      have hms : ∀ e ∈ ms, e.1 ≠ p.name := by
        rw [← List.forall_mem_map (P := (· ≠ p.name)), ← map_name_of_makes hall]
        exact List.forall_mem_map.mpr hrest
      refine ⟨entry, ?_, hmakes⟩
      rw [Entries.insertAll_cons, Entries.find?_insertAll_of_forall_ne hms,
        Entries.find?_insert_self]
  | cons q first ih =>
    cases h with
    | cons _ hall => exact ih hall _

theorem holdsParts_of_makes (h : List.Forall₂ Part.Makes ps ms) :
    HoldsParts (fun _ _ => False) ps (.ofList ms) where
  names := map_name_of_makes h ▸ Table.keys_ofList_perm ms
  kept first p rest hps hrest := by
    subst hps
    obtain ⟨entry, hentry, hmakes⟩ := exists_find?_of_makes h hrest []
    exact ⟨entry, hentry, hmakes.kept⟩

end

section

variable {replaced replaced' : String → String → Prop} {ps : List Part}
  {members : Table String Value}

/-- No part is lost exactly when no two have the same name. -/
theorem HoldsParts.size_eq_iff (h : HoldsParts replaced ps members) :
    members.size = ps.length ↔ (ps.map Part.name).Nodup := by
  have hsize : members.size = (ps.map Part.name).dedup.length := by
    rw [← h.names.length_eq, Table.keys, List.length_map, Table.size]
  rw [hsize, ← List.length_map (f := Part.name), ← List.dedup_eq_self]
  exact ⟨(List.dedup_sublist _).eq_of_length, congrArg List.length⟩

theorem HoldsParts.mono (h : HoldsParts replaced ps members)
    (hreplaced : ∀ member name, replaced member name → replaced' member name) :
    HoldsParts replaced' ps members where
  names := h.names
  kept first p rest hps hrest := by
    obtain ⟨entry, hentry, hkept⟩ := h.kept first p rest hps hrest
    exact ⟨entry, hentry, hkept.mono (hreplaced p.name)⟩

theorem HoldsParts.attach {member : String} {as : Annotations} {entry entry' : Value}
    (h : HoldsParts replaced ps members) (hentry : members.get? member = some entry)
    (hattach : attach as entry = .ok entry') :
    HoldsParts (fun m name => replaced m name ∨ m = member ∧ as.contains name = true) ps
      (members.insert member entry') where
  names := by
    refine (Table.keys_insert_perm_of_contains ?_ entry').trans h.names
    rw [Table.contains, hentry, Option.isSome_some]
  kept first p rest hps hrest := by
    obtain ⟨entry₁, hentry₁, hkept⟩ := h.kept first p rest hps hrest
    by_cases hname : p.name = member
    · rw [hname, hentry] at hentry₁
      cases hentry₁
      refine ⟨entry', hname ▸ Table.get?_insert_self _ _ _, (hkept.attach hattach).mono ?_⟩
      exact fun name => Or.imp_right fun hcontains => ⟨hname, hcontains⟩
    · refine ⟨entry₁, (Table.get?_insert_of_ne _ hname _).trans hentry₁, hkept.mono ?_⟩
      exact fun name => .inl

end

namespace Draft

variable {d d' : Draft} {id : String} {replaced : String → String → Prop} {ps : List Part}
  {members : Table String Value}

/-- One application replaces the trait of the member that it names, if it names one. -/
theorem exists_members_of_applyTo {target : Identifier} {name : String} {v entry entry' : Value}
    (h : applyTo target (Table.empty.insert name v) entry = .ok entry')
    (hmembers : entry.get? "members" = some (.object members.entries))
    (hparts : HoldsParts replaced ps members) :
    ∃ members', entry'.get? "members" = some (.object members'.entries) ∧
      HoldsParts (fun m name' => replaced m name' ∨ target.member = some m ∧ name' = name) ps
        members' := by
  rw [applyTo] at h
  cases hmember : target.member with
  | none =>
    rw [hmember] at h
    refine ⟨members, (get?_of_attach h (by decide)).trans hmembers, hparts.mono ?_⟩
    exact fun m name' => .inl
  | some m =>
    rw [hmember] at h
    obtain ⟨fields, ms, ms', rfl, hms, hupdate, rfl⟩ := updateField_eq_ok_iff.mp h
    cases hmembers.symm.trans hms
    obtain ⟨_, w, w', ⟨⟩, hw, hattach, rfl⟩ := updateField_eq_ok_iff.mp hupdate
    refine ⟨members.insert m w', Entries.find?_insert_self _ _ _,
      (hparts.attach hw hattach).mono ?_⟩
    rintro m' name' (hreplaced | ⟨rfl, hname⟩)
    · exact .inl hreplaced
    · refine .inr ⟨rfl, ?_⟩
      by_contra hne
      rw [Table.contains, Table.get?_insert_of_ne _ hne] at hname
      cases hname

/-- Statements keep of the members what they do not replace. -/
theorem Applies.exists_members {es : List Statement} {entry entry' : Value}
    (h : Applies id es entry entry')
    (hmembers : entry.get? "members" = some (.object members.entries))
    (hparts : HoldsParts replaced ps members) :
    ∃ members', entry'.get? "members" = some (.object members'.entries) ∧
      HoldsParts (fun m name => replaced m name ∨ ∃ e ∈ es, e.ReplacesIn id m name) ps
        members' := by
  induction h generalizing replaced members with
  | done => exact ⟨members, hmembers, hparts.mono fun m name => .inl⟩
  | @applied target name v _ _ _ es htarget happly _ ih =>
    obtain ⟨members₁, hmembers₁, hparts₁⟩ := exists_members_of_applyTo happly hmembers hparts
    obtain ⟨members', hmembers', hparts'⟩ := ih hmembers₁ hparts₁
    refine ⟨members', hmembers', hparts'.mono ?_⟩
    rintro m name' ((hreplaced | ⟨hmember, rfl⟩) | ⟨e, he, hreplaced⟩)
    · exact .inl hreplaced
    · exact .inr ⟨_, List.mem_cons_self, .intro hmember htarget⟩
    · exact .inr ⟨e, List.mem_cons_of_mem _ he, hreplaced⟩
  | other _ _ ih =>
    obtain ⟨members', hmembers', hparts'⟩ := ih hmembers hparts
    refine ⟨members', hmembers', hparts'.mono fun m name => Or.imp_right ?_⟩
    rintro ⟨e, he, hreplaced⟩
    exact ⟨e, List.mem_cons_of_mem _ he, hreplaced⟩

end Draft

/-- Among these tokens the declaration stands with a body of these parts. -/
inductive Declaration.IsWrittenWith (s : Scope) (ks : List Kind) (x : Declaration)
    (ps : List Part) : Prop
  | intro {ts : List Kind} :
      (.word x.keyword :: .word x.name :: .grammar '{' :: ts) <:+: ks →
      IsHead s x.keyword x.name (.word x.keyword :: .word x.name :: .grammar '{' :: ts) x.body →
      AreParts s (.ofKeyword x.keyword) ts ps → IsWrittenWith s ks x ps

theorem IsDeclaration.exists_isWrittenWith {s : Scope} {us ks : List Kind} {x : Declaration}
    (h : IsDeclaration s us x) (hus : us <:+: ks) (hbody : x.body.isSome = true) :
    ∃ ps, x.IsWrittenWith s ks ps := by
  obtain @⟨ns, ts, x, -, -, -, hhead⟩ := h
  have hts : ts <:+: ks := (List.suffix_append ns ts).isInfix.trans hus
  generalize hx : x.body = body at hhead hbody
  cases hhead with
  | bare => cases hbody
  | body hms =>
    obtain ⟨ps, hps, -⟩ := hms.exists_parts
    exact ⟨ps, .intro hts (hx ▸ .body hms) hps⟩

theorem Declaration.IsWrittenWith.exists_makes {s : Scope} {ks : List Kind} {x : Declaration}
    {ps : List Part} (h : x.IsWrittenWith s ks ps) :
    ∃ ms, x.body = some ms ∧ List.Forall₂ Part.Makes ps ms := by
  obtain ⟨-, hhead, hps⟩ := h
  generalize x.body = body at hhead
  cases hhead with
  | body hms => exact ⟨_, rfl, hps.makes hms⟩

theorem Declaration.get?_members_entry {x : Declaration} {ms : Value.Fields}
    (hbody : x.body = some ms) (hstyle : BodyStyle.ofKeyword x.keyword ≠ .fields) :
    (Value.object x.entry).get? "members" = some (.object (Table.ofList ms).entries) := by
  rw [Declaration.entry, hbody]
  cases h : BodyStyle.ofKeyword x.keyword with
  | fields => exact absurd h hstyle
  | _ => exact Entries.find?_insert_self _ _ _

/-- Of a document that is read, the entry of each declaration with members holds the parts of the
body, as they are written. It has fewer members than there are parts exactly if two parts have the
same name. -/
theorem syntaxTree_keeps_members {d : Dialect} {src : Source} {ast : Value}
    (hast : d.syntaxTree src = .ok ast) :
    ∃ ts, src.tokens = .ok ts ∧
      (∃ es draft, Draft.RunsDocument (.start d.traits.names) (dropBreaks (ts.map (·.kind)))
        es draft) ∧
      ∀ before x after draft, Draft.RunsDocument (.start d.traits.names)
          (dropBreaks (ts.map (·.kind))) (before ++ .declaration x :: after) draft →
        x.body.isSome = true → BodyStyle.ofKeyword x.keyword ≠ .fields →
        (∃ ps, x.IsWrittenWith draft.scope (ts.map (·.kind)) ps) ∧
        ∀ ps, x.IsWrittenWith draft.scope (ts.map (·.kind)) ps →
          ∃ entry members, entryOf? ast (draft.shapeName x.name) = some entry ∧
            entry.get? "members" = some (.object members.entries) ∧
            HoldsParts
              (fun member name => ∃ e ∈ after, e.ReplacesIn (draft.shapeName x.name) member name)
              ps members ∧
            (members.size = ps.length ↔ (ps.map Part.name).Nodup) := by
  obtain ⟨ts, hts, hrun, hsame⟩ := exists_runsDocument_of_syntaxTree hast
  refine ⟨ts, hts, hrun, fun before x after draft hruns hbody hstyle => ?_⟩
  cases hsame _ _ hruns
  obtain ⟨⟨us, hus, hx⟩, entry, hentry, happlies⟩ := hruns.applies_declaration
  have hdrop : dropBreaks (ts.map (·.kind)) <:+ ts.map (·.kind) := List.dropWhile_suffix _
  refine ⟨hx.exists_isWrittenWith (hus.trans hdrop.isInfix) hbody, fun ps hps => ?_⟩
  obtain ⟨ms, hms, hmakes⟩ := hps.exists_makes
  obtain ⟨members, hmembers, hparts⟩ := happlies.exists_members
    (Declaration.get?_members_entry hms hstyle) (holdsParts_of_makes hmakes)
  refine ⟨entry, members, (entryOf?_toValue _ _).trans hentry, hmembers, hparts.mono ?_,
    hparts.size_eq_iff⟩
  exact fun member name => Or.rec False.elim id

/-- Two members, of which the first has a trait. Under one name only the second is left. -/
def pairParts (name : String) : List Part :=
  [⟨[.applied "smithy.api#sensitive" .emptyObject], "a", reference "smithy.api#String"⟩,
    ⟨[], name, reference "smithy.api#Integer"⟩]

def pairMembers (name : String) : Value.Fields :=
  [("a", .object [("target", .string "smithy.api#String"),
      ("traits", .object [("smithy.api#sensitive", .emptyObject)])]),
    (name, reference "smithy.api#Integer")]

def pairStructure (name : String) : Declaration where
  notes := []
  keyword := "structure"
  name := "A"
  body := some (pairMembers name)

def pairKinds (name : String) : List Kind :=
  [.word "@sensitive", .word "a", .grammar ':', .word "String", .grammar ',', .word name,
    .grammar ':', .word "Integer", .grammar '}']

theorem isValue_string :
    IsValue emptyScope .body [.word "String"] (reference "smithy.api#String") :=
  .atom rfl

theorem isValue_integer :
    IsValue emptyScope .body [.word "Integer"] (reference "smithy.api#Integer") :=
  .atom rfl

theorem areParts_pair (name : String) (h : isTraitWord name = false) :
    AreParts emptyScope .members (pairKinds name) (pairParts name) := by
  have hnotes : AreSpacedNotes emptyScope [.word "@sensitive"]
      [.applied "smithy.api#sensitive" .emptyObject] :=
    .note (.applied rfl isTrait_sensitive) .nil
  have hstyle : BodyStyle.members ≠ .enumeration := by decide
  have hfirst := IsWritten.valued hstyle hnotes (.word "a") rfl isValue_string
  have hsecond := IsWritten.valued hstyle .nil (.word name) h isValue_integer
  exact .part hfirst (.comma _) (.part hsecond (.closing []) (.close .nil))

theorem isHead_pair (name : String) (h : isTraitWord name = false) :
    IsHead emptyScope "structure" "A"
      (.word "structure" :: .word "A" :: .grammar '{' :: pairKinds name)
      (some (pairMembers name)) := by
  have hnotes : AreAnnotations emptyScope .empty [.word "@sensitive"]
      (Table.empty.insert "smithy.api#sensitive" .emptyObject) :=
    .applied rfl isTrait_sensitive (.done _)
  have hattach : attach (Table.empty.insert "smithy.api#sensitive" .emptyObject)
      (reference "smithy.api#String") = .ok (.object [("target", .string "smithy.api#String"),
        ("traits", .object [("smithy.api#sensitive", .emptyObject)])]) := rfl
  have hnothing : attach .empty (reference "smithy.api#Integer") =
      .ok (reference "smithy.api#Integer") := rfl
  have hfirst := IsMember.valued (.word "a") rfl isValue_string hattach
  have hsecond := IsMember.valued (.word name) h isValue_integer hnothing
  exact .body (.member hnotes hfirst (.comma _)
    (.member (.done .empty) hsecond (.closing []) (.close (.done .empty) rfl)))

theorem runsDocument_pair (name : String) (h : isTraitWord name = false) :
    Draft.RunsDocument (.start TraitRegistry.builtin.names)
      (.word "structure" :: .word "A" :: .grammar '{' :: pairKinds name)
      [.declaration (pairStructure name)] (draftOf (pairStructure name)) := by
  have hkeyword : "structure" ∉ Draft.keywords := by decide
  have hword : isTraitWord "structure" = false := rfl
  have hx : IsDeclaration emptyScope
      (.word "structure" :: .word "A" :: .grammar '{' :: pairKinds name) (pairStructure name) :=
    @IsDeclaration.intro _ [] _ (pairStructure name) .nil hkeyword hword (isHead_pair name h)
  exact runsDocument_declaration hx (by simp)

theorem isWrittenWith_pair (name : String) (h : isTraitWord name = false) :
    (pairStructure name).IsWrittenWith emptyScope
      (.word "structure" :: .word "A" :: .grammar '{' :: pairKinds name) (pairParts name) :=
  .intro List.infix_rfl (isHead_pair name h) (areParts_pair name h)

theorem kinds_pair : Token.kinds "structure A { @sensitive a: String, b: Integer }".toList =
    .ok (.word "structure" :: .word "A" :: .grammar '{' :: pairKinds "b") :=
  kinds_of_tokens ⟨_, Token.tokens_eq_ok_iff.mpr (by cbv), rfl⟩

theorem syntaxTree_keeps_members_pair :
    ∃ ast entry members a b, Dialect.builtin.syntaxTree
        ⟨Dialect.unnamed, "structure A { @sensitive a: String, b: Integer }"⟩ = .ok ast ∧
      entryOf? ast "A" = some entry ∧
      entry.get? "members" = some (.object (Table.entries members)) ∧ members.size = 2 ∧
      members.get? "a" = some a ∧ a.get? "target" = some (.string "smithy.api#String") ∧
      traitOf? a "smithy.api#sensitive" = some .emptyObject ∧
      members.get? "b" = some b ∧ b.get? "target" = some (.string "smithy.api#Integer") := by
  have hks := kinds_pair
  have hruns := runsDocument_pair "b" rfl
  have hast := @syntaxTree_of_runsDocument .builtin ⟨Dialect.unnamed, _⟩ _ _ _ hks hruns
  obtain ⟨ts, hts, -, hkept⟩ := syntaxTree_keeps_members hast
  have hkinds := Token.tokens_kinds_iff.mp ⟨ts, hts, rfl⟩
  rw [← Except.ok.inj (hks.symm.trans hkinds)] at hkept
  obtain ⟨entry, members, hentry, hmembers, hparts, hsize⟩ :=
    (hkept [] (pairStructure "b") [] _ hruns rfl (by decide)).2 _ (isWrittenWith_pair "b" rfl)
  obtain ⟨a, ha, hfirst⟩ := hparts.kept [] _ _ rfl (by simp)
  obtain ⟨b, hb, hsecond⟩ := hparts.kept [_] _ [] rfl nofun
  have hsensitive : Gives [.applied "smithy.api#sensitive" .emptyObject] "smithy.api#sensitive"
      .emptyObject :=
    .applied [] _ _
  exact ⟨_, entry, members, a, b, hast, hentry, hmembers, hsize.mpr (by decide), ha,
    hfirst.field "target" (by decide), hfirst.noted _ _ hsensitive nofun, hb,
    hsecond.field "target" (by decide)⟩

theorem kinds_repeated :
    Token.kinds "structure A { @sensitive a: String, a: Integer }".toList =
      .ok (.word "structure" :: .word "A" :: .grammar '{' :: pairKinds "a") :=
  kinds_of_tokens ⟨_, Token.tokens_eq_ok_iff.mpr (by cbv), rfl⟩

theorem syntaxTree_lost_member :
    ∃ ast entry members, Dialect.builtin.syntaxTree
        ⟨Dialect.unnamed, "structure A { @sensitive a: String, a: Integer }"⟩ = .ok ast ∧
      (∃ ts, (Source.mk Dialect.unnamed
          "structure A { @sensitive a: String, a: Integer }").tokens = .ok ts ∧
        Draft.RunsDocument (.start TraitRegistry.builtin.names) (dropBreaks (ts.map (·.kind)))
          [.declaration (pairStructure "a")] (draftOf (pairStructure "a")) ∧
        (pairStructure "a").IsWrittenWith emptyScope (ts.map (·.kind)) (pairParts "a")) ∧
      entryOf? ast "A" = some entry ∧
      entry.get? "members" = some (.object (Table.entries members)) ∧ members.size = 1 ∧
      members.get? "a" = some (reference "smithy.api#Integer") := by
  have hruns := runsDocument_pair "a" rfl
  have hast := @syntaxTree_of_runsDocument .builtin ⟨Dialect.unnamed, _⟩ _ _ _ kinds_repeated hruns
  obtain ⟨ts, hts, hkinds⟩ :=
    (@Token.tokens_kinds_iff ⟨Dialect.unnamed, _⟩ _).mpr kinds_repeated
  have hstyle : BodyStyle.ofKeyword (pairStructure "a").keyword ≠ .fields := by decide
  exact ⟨_, _, _, hast, ⟨ts, hts, hkinds ▸ hruns, hkinds ▸ isWrittenWith_pair "a" rfl⟩,
    entryOf?_toValue _ _, Declaration.get?_members_entry rfl hstyle, rfl, rfl⟩

end ShapeModel.Document
