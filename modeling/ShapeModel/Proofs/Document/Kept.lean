import Mathlib.Data.List.Induction
import ShapeModel.Proofs.Document.Decode
import ShapeModel.Proofs.Document.Grammar
import ShapeModel.Proofs.Document.Order

/-!
# What becomes of annotations

A declaration leaves its shape type and the traits of its notes in the entry of the shape, and later
statements change no more of these than a trait that is applied again. But the parts of some bodies
become fields of the entry itself, and a part called `type` or `traits` takes the place of what was
there.
-/

namespace ShapeModel

set_option autoImplicit false

open Token (Kind)

namespace Document

/-- The value that notes give a trait: the last application counts, and a line of documentation goes
below the text so far. -/
inductive Gives : List Note → String → Value → Prop
  | applied (ns : List Note) (name : String) (v : Value) : Gives (ns ++ [.applied name v]) name v
  | line {ns : List Note} (text : String) : (∀ n ∈ ns, n.name ≠ documentationName) →
      Gives (ns ++ [.line text]) documentationName (.string text)
  | added {ns : List Note} {before : String} (text : String) :
      Gives ns documentationName (.string before) →
      Gives (ns ++ [.line text]) documentationName (.string (before ++ "\n" ++ text))
  | instead {ns : List Note} {v : Value} (text : String) : Gives ns documentationName v →
      (∀ before, v ≠ .string before) →
      Gives (ns ++ [.line text]) documentationName (.string text)
  | other {ns : List Note} {n : Note} {name : String} {v : Value} : Gives ns name v →
      n.name ≠ name → Gives (ns ++ [n]) name v

variable {ns : List Note} {n : Note} {name : String} {v : Value}

theorem get?_note_of_ne (as : Annotations) (h : n.name ≠ name) :
    (as.note n).get? name = as.get? name := by
  cases n with
  | line text => exact Table.get?_insert_of_ne _ (Ne.symm h) _
  | applied => exact Table.get?_insert_of_ne _ (Ne.symm h) _

theorem get?_annotationsOf_of_forall_ne (h : ∀ n ∈ ns, n.name ≠ name) :
    (annotationsOf ns).get? name = none := by
  induction ns using List.reverseRecOn with
  | nil => rfl
  | append_singleton ns n ih =>
    simp only [List.mem_append, List.mem_singleton] at h
    rw [annotationsOf_append, get?_note_of_ne _ (h n (.inr rfl))]
    exact ih fun n hn => h n (.inl hn)

theorem Gives.get?_annotationsOf (h : Gives ns name v) :
    (annotationsOf ns).get? name = some v := by
  induction h with
  | applied => rw [annotationsOf_append, Annotations.note, Table.get?_insert_self]
  | line text hns =>
    rw [annotationsOf_append, Annotations.note, Annotations.document,
      get?_annotationsOf_of_forall_ne hns, Table.get?_insert_self]
  | added text _ ih =>
    rw [annotationsOf_append, Annotations.note, Annotations.document, ih, Table.get?_insert_self]
  | @instead ns v text _ hne ih =>
    rw [annotationsOf_append, Annotations.note, Annotations.document, ih, Table.get?_insert_self]
    cases v with
    | string before => exact absurd rfl (hne before)
    | _ => rfl
  | other _ hne ih => rw [annotationsOf_append, get?_note_of_ne _ hne, ih]

theorem exists_gives_line (text : String)
    (h : ∀ n ∈ ns, ∃ v, Gives ns n.name v) :
    ∃ v, Gives (ns ++ [.line text]) documentationName v := by
  by_cases hns : ∀ n ∈ ns, n.name ≠ documentationName
  · exact ⟨_, .line text hns⟩
  · simp only [Classical.not_forall, Decidable.not_not] at hns
    obtain ⟨n, hn, hname⟩ := hns
    obtain ⟨v, hv⟩ := h n hn
    rw [hname] at hv
    cases v with
    | string before => exact ⟨_, .added text hv⟩
    | _ => exact ⟨_, .instead text hv nofun⟩

/-- Every note leaves its trait with a value. -/
theorem exists_gives_of_mem (h : n ∈ ns) : ∃ v, Gives ns n.name v := by
  induction ns using List.reverseRecOn generalizing n with
  | nil => cases h
  | append_singleton ns m ih =>
    by_cases hname : m.name = n.name
    · rw [← hname]
      cases m with
      | line text => exact exists_gives_line text fun n hn => ih hn
      | applied name v => exact ⟨v, .applied ns name v⟩
    · have hn : n ∈ ns := by
        rcases List.mem_append.mp h with h | h
        · exact h
        · cases List.mem_singleton.mp h
          exact absurd rfl hname
      obtain ⟨v, hv⟩ := ih hn
      exact ⟨v, .other hv hname⟩

/-- The value that a part of the body puts into the entry itself, under this name. -/
def Declaration.spliced? (x : Declaration) (key : String) : Option Value :=
  match x.body, BodyStyle.ofKeyword x.keyword with
  | some ms, .fields => ms.reverse.lookup key
  | _, _ => none

theorem find?_shapeEntry (key keyword : String) (as : Annotations) :
    Entries.find? key (Draft.shapeEntry keyword as) =
      if key = "type" then some (.string keyword)
      else if key = "traits" ∧ as.isEmpty = false then some (.object as.entries)
      else none := by
  rw [Draft.shapeEntry]
  cases as.isEmpty with
  | true => simp [Entries.ofList, Entries.find?_insert]
  | false =>
    by_cases hkey : key = "traits"
    · simp [Entries.ofList, Entries.find?_insert, hkey]
    · simp [Entries.ofList, Entries.find?_insert, hkey]

/-- What the body puts into the entry stands there, over what was there before it. -/
theorem Declaration.find?_entry (x : Declaration) {key : String} (h : key ≠ "members") :
    Entries.find? key x.entry = (x.spliced? key).or
      (Entries.find? key (Draft.shapeEntry x.keyword (annotationsOf x.notes))) := by
  rw [entry, spliced?]
  cases x.body with
  | none => rfl
  | some ms =>
    cases BodyStyle.ofKeyword x.keyword with
    | fields => exact Entries.find?_insertAll _ _ _
    | _ => exact Entries.find?_insert_of_ne h _ _

theorem Declaration.find?_type_entry (x : Declaration) :
    Entries.find? "type" x.entry = some ((x.spliced? "type").getD (.string x.keyword)) := by
  rw [x.find?_entry (by decide), find?_shapeEntry]
  cases x.spliced? "type" <;> rfl

theorem Declaration.find?_traits_entry {x : Declaration} (h : x.spliced? "traits" = some v) :
    Entries.find? "traits" x.entry = some v := by
  rw [x.find?_entry (by decide), h, Option.some_or]

theorem Declaration.find?_traitFields_entry {x : Declaration} (h : x.spliced? "traits" = none)
    (hv : Gives x.notes name v) : Entries.find? name (traitFields x.entry) = some v := by
  have hget : Entries.find? name (annotationsOf x.notes).entries = some v :=
    hv.get?_annotationsOf
  have hempty : (annotationsOf x.notes).isEmpty = false := by
    cases hnotes : annotationsOf x.notes with
    | mk es hes =>
      rw [hnotes] at hget
      cases es with
      | nil => cases hget
      | cons => rfl
  rw [traitFields, x.find?_entry (by decide), h, Option.none_or, find?_shapeEntry,
    if_neg (by decide), if_pos ⟨rfl, hempty⟩]
  exact hget

/-- The statement applies a trait of this name to the shape itself. -/
inductive Statement.Replaces (id name : String) : Statement → Prop
  | intro {target : Identifier} {v : Value} : target.member = none → target.toText = id →
      Replaces id name (.application target name v)

/-- Of an entry, the type and all traits but the replaced ones are kept. -/
structure Keeps (replaced : String → Prop) (fields fields' : Value.Fields) : Prop where
  kind : Entries.find? "type" fields' = Entries.find? "type" fields
  slot : (∀ name, ¬replaced name) → Entries.find? "traits" fields' = Entries.find? "traits" fields
  trait : ∀ name, ¬replaced name →
    Entries.find? name (traitFields fields') = Entries.find? name (traitFields fields)

section

variable {replaced replaced' : String → Prop} {fields fields' fields'' : Value.Fields}

theorem Keeps.of_eq (hkind : Entries.find? "type" fields' = Entries.find? "type" fields)
    (hslot : Entries.find? "traits" fields' = Entries.find? "traits" fields) :
    Keeps replaced fields fields' where
  kind := hkind
  slot _ := hslot
  trait name _ := by rw [traitFields, traitFields, hslot]

theorem Keeps.mono (h : Keeps replaced fields fields')
    (hreplaced : ∀ name, replaced name → replaced' name) : Keeps replaced' fields fields' where
  kind := h.kind
  slot hnone := h.slot fun name hname => hnone name (hreplaced name hname)
  trait name hname := h.trait name fun hr => hname (hreplaced name hr)

theorem Keeps.trans (h : Keeps replaced fields fields') (h' : Keeps replaced fields' fields'') :
    Keeps replaced fields fields'' where
  kind := h'.kind.trans h.kind
  slot hnone := (h'.slot hnone).trans (h.slot hnone)
  trait name hname := (h'.trait name hname).trans (h.trait name hname)

theorem traitFields_eq {ts : Value.Fields}
    (h : (Entries.find? "traits" fields).getD .emptyObject = .object ts) :
    traitFields fields = ts := by
  rw [traitFields]
  cases hfind : Entries.find? "traits" fields with
  | none =>
    rw [hfind] at h
    cases h
    rfl
  | some w =>
    rw [hfind] at h
    cases h
    rfl

/-- One trait attached to an entry replaces no other. -/
theorem Keeps.of_attach {entry : Value}
    (h : attach (Table.empty.insert name v) (.object fields) = .ok entry) :
    ∃ fields', entry = .object fields' ∧ Keeps (· = name) fields fields' := by
  rcases attach_eq_ok h with ⟨-, rfl⟩ | ⟨_, ts, ⟨⟩, rfl, hts⟩
  · exact ⟨fields, rfl, .of_eq rfl rfl⟩
  · refine ⟨_, rfl, find?_withTraits (by decide) _ _, fun hnone => absurd rfl (hnone name), ?_⟩
    intro name' hname
    rw [traitFields_withTraits, traitFields_eq hts]
    exact Entries.find?_insert_of_ne hname v ts

theorem Keeps.of_applyTo {target : Identifier} {entry : Value}
    (h : Draft.applyTo target (Table.empty.insert name v) (.object fields) = .ok entry) :
    ∃ fields', entry = .object fields' ∧
      Keeps (fun name' => target.member = none ∧ name' = name) fields fields' := by
  rw [Draft.applyTo] at h
  cases hmember : target.member with
  | none =>
    rw [hmember] at h
    obtain ⟨fields', rfl, hkeeps⟩ := Keeps.of_attach h
    exact ⟨fields', rfl, hkeeps.mono fun name' hname => ⟨rfl, hname⟩⟩
  | some m =>
    rw [hmember] at h
    obtain ⟨_, w, w', ⟨⟩, -, -, rfl⟩ := updateField_eq_ok_iff.mp h
    exact ⟨_, rfl, .of_eq (Entries.find?_insert_of_ne (by decide) _ _)
      (Entries.find?_insert_of_ne (by decide) _ _)⟩

end

/-- The shape that the statement applies a trait to, or to a member of which. -/
def Statement.appliedTo? : Statement → Option String
  | .application target _ _ => some target.root.toText
  | _ => none

namespace Draft

/-- What statements make of the entry under an identifier, one after the other. -/
inductive Applies (id : String) : List Statement → Value → Value → Prop
  | done (entry : Value) : Applies id [] entry entry
  | applied {target : Identifier} {name : String} {v entry entry₁ entry' : Value}
      {es : List Statement} : target.root.toText = id →
      applyTo target (Table.empty.insert name v) entry = .ok entry₁ →
      Applies id es entry₁ entry' → Applies id (.application target name v :: es) entry entry'
  | other {e : Statement} {entry entry' : Value} {es : List Statement} :
      e.appliedTo? ≠ some id → Applies id es entry entry' → Applies id (e :: es) entry entry'

variable {d d' : Draft} {id : String} {fields : Value.Fields}

/-- A statement applies traits to the entry, or leaves it as it is. -/
theorem Performs.applies {e : Statement} {entry : Value} (h : Performs d e d')
    (hid : d.shapes.get? id = some entry) :
    ∃ entry₁, d'.shapes.get? id = some entry₁ ∧
      ∀ es entry', Applies id es entry₁ entry' → Applies id (e :: es) entry entry' := by
  cases h with
  | @application target name v entry₀ entry₁ hentry happly =>
    by_cases htarget : target.root.toText = id
    · subst htarget
      cases hid.symm.trans hentry
      exact ⟨entry₁, Table.get?_insert_self _ _ _, fun es entry' => .applied rfl happly⟩
    · have hother : (Statement.application target name v).appliedTo? ≠ some id :=
        fun h => htarget (Option.some.inj h)
      exact ⟨entry, (Table.get?_insert_of_ne _ (Ne.symm htarget) _).trans hid,
        fun es entry' => .other hother⟩
  | @declaration x hnew =>
    have hne : id ≠ d.shapeName x.name := by
      rintro rfl
      rw [Table.contains, hid] at hnew
      cases hnew
    refine ⟨entry, (Table.get?_insert_of_ne _ hne _).trans hid, fun es entry' => .other ?_⟩
    exact (Option.some_ne_none id).symm
  | _ => exact ⟨entry, hid, fun es entry' => .other (Option.some_ne_none id).symm⟩

theorem Runs.applies {ks : List Kind} {es : List Statement} {entry : Value} (h : Runs d ks es d')
    (hid : d.shapes.get? id = some entry) :
    ∃ entry', d'.shapes.get? id = some entry' ∧ Applies id es entry entry' := by
  induction h generalizing entry with
  | done => exact ⟨entry, hid, .done entry⟩
  | newline _ ih => exact ih hid
  | statement _ hperforms _ _ ih =>
    obtain ⟨entry₁, hid₁, happlies⟩ := hperforms.applies hid
    obtain ⟨entry', hid', hrest⟩ := ih hid₁
    exact ⟨entry', hid', happlies _ _ hrest⟩

/-- Statements keep of an entry what they do not replace. -/
theorem Applies.keeps {es : List Statement} {entry' : Value}
    (h : Applies id es (.object fields) entry') :
    ∃ fields', entry' = .object fields' ∧
      Keeps (fun name => ∃ e ∈ es, e.Replaces id name) fields fields' := by
  generalize hentry : Value.object fields = entry at h
  induction h generalizing fields with
  | done => exact ⟨fields, hentry.symm, .of_eq rfl rfl⟩
  | @applied target name v _ _ _ es htarget happly _ ih =>
    subst hentry
    obtain ⟨fields₁, rfl, hkeeps₁⟩ := Keeps.of_applyTo happly
    obtain ⟨fields', rfl, hkeeps⟩ := ih rfl
    refine ⟨fields', rfl, .trans (hkeeps₁.mono ?_) (hkeeps.mono ?_)⟩
    · rintro _ ⟨hmember, rfl⟩
      refine ⟨_, List.mem_cons_self, .intro hmember ?_⟩
      rw [← htarget, Identifier.root, ← hmember]
    · rintro name ⟨e, he, hname⟩
      exact ⟨e, List.mem_cons_of_mem _ he, hname⟩
  | other _ _ ih =>
    obtain ⟨fields', rfl, hkeeps⟩ := ih hentry
    refine ⟨fields', rfl, hkeeps.mono ?_⟩
    rintro name ⟨e, he, hname⟩
    exact ⟨e, List.mem_cons_of_mem _ he, hname⟩

theorem Runs.exists_split {ks : List Kind} {before after : List Statement} {e : Statement}
    (h : Runs d ks (before ++ e :: after) d') :
    ∃ d₁ d₂ us rest, us <:+: ks ∧ Spells d₁.scope us e ∧ Performs d₁ e d₂ ∧
      Runs d₂ rest after d' := by
  generalize hes : before ++ e :: after = es at h
  induction h generalizing before with
  | done => simp at hes
  | newline _ ih =>
    obtain ⟨d₁, d₂, us, rest, hus, hsplit⟩ := ih hes
    exact ⟨d₁, d₂, us, rest, hus.trans (List.suffix_cons _ _).isInfix, hsplit⟩
  | @statement d d₁ d' ts fin rest e' es hspells hperforms hends hruns ih =>
    cases before with
    | nil =>
      cases hes
      exact ⟨_, _, ts, _, (List.prefix_append ts _).isInfix, hspells, hperforms, hruns⟩
    | cons b before =>
      obtain ⟨d₁, d₂, us, rest', hus, hsplit⟩ := ih (List.cons.inj hes).2
      rw [← List.append_assoc]
      exact ⟨d₁, d₂, us, rest', hus.trans (List.suffix_append _ _).isInfix, hsplit⟩

theorem RunsDocument.exists_runs {ks : List Kind} {es : List Statement}
    (h : RunsDocument d ks es d') :
    ∃ d₁ rest, d₁.scope = d.scope ∧ rest <:+: ks ∧ Runs d₁ rest es d' := by
  induction h with
  | @version _ _ v fin rest _ _ _ ih =>
    obtain ⟨d₁, rest', hscope, hrest, hruns⟩ := ih
    have hdrop : dropBreaks rest <:+ rest := List.dropWhile_suffix _
    have hfin : rest <:+ .word "$version" :: .grammar ':' :: .string v :: (fin ++ rest) :=
      ⟨.word "$version" :: .grammar ':' :: .string v :: fin, rfl⟩
    exact ⟨d₁, rest', hscope, hrest.trans (hdrop.trans hfin).isInfix, hruns⟩
  | statements _ hruns => exact ⟨_, _, rfl, List.infix_rfl, hruns⟩

/-- Once there is a shape, the names stay what they are. -/
theorem Performs.scope_eq {e : Statement} (h : Performs d e d') (hd : d.shapes.isEmpty = false) :
    d'.scope = d.scope ∧ d'.shapes.isEmpty = false := by
  cases h with
  | space hcheck => exact absurd hcheck (checkDeclaration_ne_ok hd _)
  | use hcheck => exact absurd hcheck (checkDeclaration_ne_ok hd _)
  | metadata => exact ⟨rfl, hd⟩
  | application => exact ⟨rfl, Table.isEmpty_insert _ _ _⟩
  | declaration => exact ⟨rfl, Table.isEmpty_insert _ _ _⟩

theorem Runs.scope_eq {ks : List Kind} {es : List Statement} (h : Runs d ks es d')
    (hd : d.shapes.isEmpty = false) : d'.scope = d.scope := by
  induction h with
  | done => rfl
  | newline _ ih => exact ih hd
  | statement _ hperforms _ _ ih =>
    obtain ⟨hscope, hd⟩ := hperforms.scope_eq hd
    exact (ih hd).trans hscope

/-- A declaration has its place in a run, and behind it traits are applied to its entry only. -/
theorem RunsDocument.applies_declaration {ks : List Kind} {before after : List Statement}
    {x : Declaration} (h : RunsDocument d ks (before ++ .declaration x :: after) d') :
    (∃ us, us <:+: ks ∧ IsDeclaration d'.scope us x) ∧
      ∃ entry, d'.shapes.get? (d'.shapeName x.name) = some entry ∧
        Applies (d'.shapeName x.name) after (.object x.entry) entry := by
  obtain ⟨_, _, -, hrest, hruns⟩ := h.exists_runs
  obtain ⟨d₁, d₂, us, rest, hus, hspells, hperforms, hruns⟩ := hruns.exists_split
  cases hperforms with
  | declaration hnew =>
    cases hspells with
    | declaration hx =>
      have hscope := hruns.scope_eq (Table.isEmpty_insert _ _ _)
      have hname : d'.shapeName x.name = d₁.shapeName x.name := by
        rw [shapeName, hscope]
        rfl
      refine ⟨⟨us, hus.trans hrest, hscope ▸ hx⟩, ?_⟩
      rw [hname]
      exact hruns.applies (Table.get?_insert_self _ _ _)

/-- What is left of a declaration at the end of the run that it is part of. -/
theorem RunsDocument.keeps_declaration {ks : List Kind} {before after : List Statement}
    {x : Declaration} (h : RunsDocument d ks (before ++ .declaration x :: after) d') :
    ∃ fields, d'.shapes.get? (d'.shapeName x.name) = some (.object fields) ∧
      Keeps (fun name => ∃ e ∈ after, e.Replaces (d'.shapeName x.name) name) x.entry fields := by
  obtain ⟨-, entry, hentry, happlies⟩ := h.applies_declaration
  obtain ⟨fields, rfl, hkeeps⟩ := happlies.keeps
  exact ⟨fields, hentry, hkeeps⟩

end Draft

/-- The entry of a shape in abstract syntax. -/
def entryOf? (ast : Value) (id : String) : Option Value :=
  (ast.get? "shapes").bind (·.get? id)

theorem entryOf?_toValue (d : Draft) (id : String) : entryOf? d.toValue id = d.shapes.get? id := by
  rw [entryOf?, d.get?_toValue, if_pos rfl]
  rfl

theorem syntaxTree_of_runsDocument {d : Dialect} {src : Source} {ks : List Kind}
    {es : List Statement} {draft : Draft} (hks : Token.kinds src.text.toList = .ok ks)
    (h : Draft.RunsDocument (.start d.traits.names) (dropBreaks ks) es draft) :
    d.syntaxTree src = .ok draft.toValue :=
  (Dialect.syntaxTree_eq_ok_iff hks).mpr
    ⟨draft, (Draft.readsDocument_iff_exists_runs rfl).mpr ⟨es, h⟩, rfl⟩

/-- What is read is a run of statements, and all such runs give the same abstract syntax. -/
theorem exists_runsDocument_of_syntaxTree {d : Dialect} {src : Source} {ast : Value}
    (hast : d.syntaxTree src = .ok ast) :
    ∃ ts, src.tokens = .ok ts ∧
      (∃ es draft, Draft.RunsDocument (.start d.traits.names) (dropBreaks (ts.map (·.kind)))
        es draft) ∧
      ∀ es draft, Draft.RunsDocument (.start d.traits.names) (dropBreaks (ts.map (·.kind)))
        es draft → ast = draft.toValue := by
  obtain ⟨ts, hts, hks⟩ := Dialect.exists_tokens_of_syntaxTree hast
  refine ⟨ts, hts, ?_, fun es draft hruns => ?_⟩
  · obtain ⟨draft, hreads, -⟩ := (Dialect.syntaxTree_eq_ok_iff hks).mp hast
    obtain ⟨es, hruns⟩ := (Draft.readsDocument_iff_exists_runs rfl).mp hreads
    exact ⟨es, draft, hruns⟩
  · exact Except.ok.inj (hast.symm.trans (syntaxTree_of_runsDocument hks hruns))

/-- A document that is read is a run of statements, and of each declaration in it the entry keeps
the shape type and all that the notes give, up to traits that are applied again behind it. Only a
part of the body that becomes a field of the entry under the name `type` or `traits` stands there
instead. -/
theorem syntaxTree_keeps_annotations {d : Dialect} {src : Source} {ast : Value}
    (hast : d.syntaxTree src = .ok ast) :
    ∃ ts, src.tokens = .ok ts ∧
      (∃ es draft, Draft.RunsDocument (.start d.traits.names) (dropBreaks (ts.map (·.kind)))
        es draft) ∧
      ∀ before x after draft, Draft.RunsDocument (.start d.traits.names)
          (dropBreaks (ts.map (·.kind))) (before ++ .declaration x :: after) draft →
        (∀ n ∈ x.notes, ∃ v, Gives x.notes n.name v) ∧
        ∃ fields, entryOf? ast (draft.shapeName x.name) = some (.object fields) ∧
          Entries.find? "type" fields = some ((x.spliced? "type").getD (.string x.keyword)) ∧
          (x.spliced? "traits" = none → ∀ name v, Gives x.notes name v →
            (∀ e ∈ after, ¬e.Replaces (draft.shapeName x.name) name) →
            Entries.find? name (traitFields fields) = some v) ∧
          ∀ v, x.spliced? "traits" = some v →
            (∀ e ∈ after, ∀ name, ¬e.Replaces (draft.shapeName x.name) name) →
            Entries.find? "traits" fields = some v := by
  obtain ⟨ts, hts, hrun, hsame⟩ := exists_runsDocument_of_syntaxTree hast
  refine ⟨ts, hts, hrun, fun before x after draft hruns => ?_⟩
  cases hsame _ _ hruns
  obtain ⟨fields, hfields, hkeeps⟩ := hruns.keeps_declaration
  refine ⟨fun n hn => exists_gives_of_mem hn, fields, (entryOf?_toValue _ _).trans hfields,
    hkeeps.kind.trans x.find?_type_entry, ?_, ?_⟩
  · intro hnone name v hv hafter
    rw [hkeeps.trait name fun ⟨e, he, hreplaces⟩ => hafter e he hreplaces]
    exact Declaration.find?_traitFields_entry hnone hv
  · intro v hv hafter
    rw [hkeeps.slot fun name ⟨e, he, hreplaces⟩ => hafter e he name hreplaces]
    exact Declaration.find?_traits_entry hv

def emptyScope : Scope :=
  .ofTraitNames TraitRegistry.builtin.names

def documentedList : Declaration where
  notes := [.line "Text", .applied "smithy.api#sensitive" .emptyObject]
  keyword := "list"
  name := "A"
  body := some [("member", reference "smithy.api#String")]

/-- The body of the list has its own `traits`. -/
def overwrittenList : Declaration where
  notes := [.applied "smithy.api#sensitive" .emptyObject]
  keyword := "list"
  name := "A"
  body := some [("traits", .emptyObject)]

theorem isTrait_sensitive :
    IsTrait emptyScope [.word "@sensitive"] "smithy.api#sensitive" .emptyObject := by
  have hname : emptyScope.qualify true (appliedName "@sensitive") = "smithy.api#sensitive" := by
    decide +kernel
  exact hname ▸ .bare "@sensitive"

/-- The draft of one declaration. -/
def draftOf (x : Declaration) : Draft :=
  Draft.declare (.start TraitRegistry.builtin.names) x

theorem runsDocument_declaration {ks : List Kind} {x : Declaration}
    (hx : IsDeclaration emptyScope ks x) (hks : ks.head? ≠ some (.word "$version")) :
    Draft.RunsDocument (.start TraitRegistry.builtin.names) ks [.declaration x] (draftOf x) := by
  have hspells : Spells (Draft.start TraitRegistry.builtin.names).scope ks (.declaration x) :=
    .declaration hx
  have hruns := Draft.Runs.statement hspells (.declaration rfl) .input .done
  rw [List.append_nil, List.append_nil] at hruns
  exact .statements hks hruns

theorem isDeclaration_documentedList :
    IsDeclaration emptyScope [.documentation "Text", .newline, .word "@sensitive", .newline,
      .word "list", .word "A", .grammar '{', .word "member", .grammar ':', .word "String",
      .grammar '}'] documentedList := by
  have hnotes : AreNotes emptyScope [.documentation "Text", .newline, .word "@sensitive", .newline]
      documentedList.notes :=
    .cons (.line "Text") .present (.cons (.applied rfl isTrait_sensitive) .present .nil)
  have hvalue : IsValue emptyScope .body [.word "String"] (reference "smithy.api#String") :=
    .atom rfl
  have hmember : IsMember emptyScope .empty [.word "member", .grammar ':', .word "String"]
      "member" (reference "smithy.api#String") :=
    .valued (.word "member") rfl hvalue rfl
  have hmembers : AreMembers emptyScope (IsMember emptyScope)
      [.word "member", .grammar ':', .word "String", .grammar '}']
      [("member", reference "smithy.api#String")] :=
    .member (.done .empty) hmember (.closing []) (.close (.done .empty) rfl)
  exact .intro hnotes (by decide) rfl (.body hmembers)

theorem kinds_documentedList :
    Token.kinds "/// Text\n@sensitive\nlist A { member: String }".toList = .ok
      [.documentation "Text", .newline, .word "@sensitive", .newline, .word "list", .word "A",
        .grammar '{', .word "member", .grammar ':', .word "String", .grammar '}'] :=
  kinds_of_tokens ⟨_, Token.tokens_eq_ok_iff.mpr (by cbv), rfl⟩

theorem syntaxTree_keeps_annotations_list :
    ∃ ast fields, Dialect.builtin.syntaxTree
        ⟨Dialect.unnamed, "/// Text\n@sensitive\nlist A { member: String }"⟩ = .ok ast ∧
      entryOf? ast "A" = some (.object fields) ∧
      Entries.find? "type" fields = some (.string "list") ∧
      Entries.find? documentationName (traitFields fields) = some (.string "Text") ∧
      Entries.find? "smithy.api#sensitive" (traitFields fields) = some .emptyObject := by
  have hks := kinds_documentedList
  have hruns := runsDocument_declaration isDeclaration_documentedList (by decide)
  have hast := @syntaxTree_of_runsDocument .builtin ⟨Dialect.unnamed, _⟩ _ _ _ hks hruns
  have hline : Gives documentedList.notes documentationName (.string "Text") :=
    @Gives.other [.line "Text"] _ _ _ (@Gives.line [] "Text" nofun) (by decide)
  have hsensitive : Gives documentedList.notes "smithy.api#sensitive" .emptyObject :=
    .applied [.line "Text"] _ _
  obtain ⟨ts, hts, -, hkept⟩ := syntaxTree_keeps_annotations hast
  have hkinds := Token.tokens_kinds_iff.mp ⟨ts, hts, rfl⟩
  rw [← Except.ok.inj (hks.symm.trans hkinds)] at hkept
  obtain ⟨-, fields, hfields, hkind, htraits, -⟩ := hkept [] documentedList [] _ hruns
  exact ⟨_, fields, hast, hfields, hkind, htraits rfl _ _ hline nofun,
    htraits rfl _ _ hsensitive nofun⟩

theorem isDeclaration_overwrittenList :
    IsDeclaration emptyScope [.word "@sensitive", .newline, .word "list", .word "A", .grammar '{',
      .word "traits", .grammar ':', .grammar '{', .grammar '}', .grammar '}'] overwrittenList := by
  have hnotes : AreNotes emptyScope [.word "@sensitive", .newline] overwrittenList.notes :=
    .cons (.applied rfl isTrait_sensitive) .present .nil
  have hvalue : IsValue emptyScope .body [.grammar '{', .grammar '}'] .emptyObject :=
    .object (.close .nil)
  have hmember : IsMember emptyScope .empty [.word "traits", .grammar ':', .grammar '{',
      .grammar '}'] "traits" .emptyObject :=
    .valued (.word "traits") rfl hvalue rfl
  have hmembers : AreMembers emptyScope (IsMember emptyScope)
      [.word "traits", .grammar ':', .grammar '{', .grammar '}', .grammar '}']
      [("traits", .emptyObject)] :=
    .member (.done .empty) hmember (.closing []) (.close (.done .empty) rfl)
  exact .intro hnotes (by decide) rfl (.body hmembers)

theorem syntaxTree_overwritten_traits :
    ∃ ast fields, Dialect.builtin.syntaxTree
        ⟨Dialect.unnamed, "@sensitive\nlist A { traits: {} }"⟩ = .ok ast ∧
      (∃ ts, (Source.mk Dialect.unnamed
          "@sensitive\nlist A { traits: {} }").tokens = .ok ts ∧
        Draft.RunsDocument (.start TraitRegistry.builtin.names) (dropBreaks (ts.map (·.kind)))
          [.declaration overwrittenList] (draftOf overwrittenList)) ∧
      Gives overwrittenList.notes "smithy.api#sensitive" .emptyObject ∧
      entryOf? ast "A" = some (.object fields) ∧
      Entries.find? "smithy.api#sensitive" (traitFields fields) = none := by
  have hks : Token.kinds "@sensitive\nlist A { traits: {} }".toList = .ok _ :=
    kinds_of_tokens ⟨_, Token.tokens_eq_ok_iff.mpr (by cbv), rfl⟩
  have hruns := runsDocument_declaration isDeclaration_overwrittenList (by decide)
  have hast := @syntaxTree_of_runsDocument .builtin ⟨Dialect.unnamed, _⟩ _ _ _ hks hruns
  obtain ⟨ts, hts, hkinds⟩ := (@Token.tokens_kinds_iff ⟨Dialect.unnamed, _⟩ _).mpr hks
  exact ⟨_, _, hast, ⟨ts, hts, hkinds ▸ hruns⟩, .applied [] _ _, entryOf?_toValue _ _, rfl⟩

end Document

end ShapeModel
