import Mathlib
import ShapeModel.Proofs.Document.Run
import ShapeModel.Proofs.Document.Scope
import ShapeModel.Proofs.Token.Lexer
import ShapeModel.Trait.Decode

/-!
# Names that are resolved stay so

At every moment of reading a document, a name that was brought into use has a name space or stands
for itself. So what a name resolves to has a name space or is that name, and resolving it again
changes nothing. A member always goes where its shape goes.
-/

namespace ShapeModel

set_option autoImplicit false

namespace Identifier

/-- The member of that name, of what the identifier stands for. A member that it names already is
followed by the new one. -/
def extend (id : Identifier) (member : String) : Identifier :=
  id.withMember <|
    match id.member with
    | some m => m ++ "$" ++ member
    | none => member

theorem ofRest_append (space : Option String) (cs member : List Char) :
    ofRest space (cs ++ '$' :: member) = (ofRest space cs).extend (String.ofList member) := by
  rw [ofRest, ofRest]
  rcases splitFirst_cases '$' cs with ⟨hnone, hcs⟩ | ⟨name, m, hsome, rfl, hname⟩
  · rw [splitFirst_append _ hcs, hnone]
    rfl
  · rw [List.append_assoc, List.cons_append, splitFirst_append _ hname, hsome]
    simp [extend, withMember, String.append_assoc]

theorem ofText_append_member (t : String) {member : String} (h : '#' ∉ member.toList) :
    ofText (t ++ "$" ++ member) = (ofText t).extend member := by
  have htext : (t ++ "$" ++ member).toList = t.toList ++ '$' :: member.toList := by
    simp
  rw [ofText, ofText, htext]
  rcases splitFirst_cases '#' t.toList with ⟨_, ht⟩ | ⟨space, rest, _, ht, hspace⟩
  · rw [ofChars_of_not_mem ht, ofChars_of_not_mem (by simp [ht, h]), ofRest_append,
      String.ofList_toList]
  · rw [ht, List.append_assoc, List.cons_append, ofChars_append hspace, ofChars_append hspace,
      ofRest_append, String.ofList_toList]

end Identifier

namespace Document

namespace Scope

variable {s : Scope} {isTrait : Bool} {name root w : String}

/-- Wherever a member is asked for, it is one of what its shape's name stands for. -/
theorem qualify_append_member (s : Scope) (isTrait : Bool) (w : String) {member : String}
    (h : '#' ∉ member.toList) :
    s.qualify isTrait (w ++ "$" ++ member) = s.qualify isTrait w ++ "$" ++ member := by
  rcases written_cases w with hspace | ⟨hspace, hname⟩ | ⟨name, m, rfl, hspace, hname⟩
  · rw [qualify_of_space _ hspace, qualify_of_space _ (by simp [hspace])]
  · rw [qualify_shape hspace hname, qualify_member (by simp [hspace, h]) hname]
    cases s.resolve isTrait w <;> rfl
  · have hassoc (t : String) :
        t ++ "$" ++ m ++ "$" ++ member = t ++ "$" ++ (m ++ "$" ++ member) := by
      simp only [String.append_assoc]
    rw [qualify_member hspace hname]
    rw [hassoc, qualify_member (by rw [← hassoc]; simpa [h] using hspace) hname]
    cases s.resolve isTrait name <;> exact (hassoc _).symm

/-- What was brought into use has a name space or stands for itself. -/
def Rooted (s : Scope) : Prop :=
  ∀ name target, s.aliases.get? name = some target → '#' ∈ target.toList ∨ target = name

theorem Rooted.resolve (h : s.Rooted) (hroot : s.resolve isTrait name = some root) :
    '#' ∈ root.toList ∨ root = name := by
  rw [Scope.resolve] at hroot
  split at hroot
  · cases hroot
    exact .inl (Prelude.hash_mem_absolute name)
  · split at hroot
    · next target halias =>
      cases hroot
      exact h name _ halias
    · obtain ⟨space, -, rfl⟩ := Option.map_eq_some_iff.mp hroot
      exact .inl (by simp)

/-- A name is resolved to one with a name space, or not at all. -/
theorem Rooted.qualify (h : s.Rooted) (isTrait : Bool) (w : String) :
    '#' ∈ (s.qualify isTrait w).toList ∨ s.qualify isTrait w = w := by
  rcases written_cases w with hspace | ⟨hspace, hname⟩ | ⟨name, member, rfl, hspace, hname⟩
  · exact .inr (qualify_of_space _ hspace)
  · rw [qualify_shape hspace hname]
    cases hroot : s.resolve isTrait w with
    | none => exact .inr rfl
    | some root => exact h.resolve hroot
  · rw [qualify_member hspace hname]
    cases hroot : s.resolve isTrait name with
    | none => exact .inr rfl
    | some root =>
      rcases h.resolve hroot with hhash | rfl
      · exact .inl (by simp [hhash])
      · exact .inr rfl

theorem Rooted.qualify_qualify (h : s.Rooted) (isTrait : Bool) (w : String) :
    s.qualify isTrait (s.qualify isTrait w) = s.qualify isTrait w := by
  rcases h.qualify isTrait w with hhash | hw
  · exact qualify_of_space _ hhash
  · rw [hw, hw]

end Scope

namespace Draft

open Token (Kind)

/-- What has been read of a document and where the cursor stands, at any moment of reading.
Versions, name spaces and names in use are taken up before their statement ends. -/
inductive Passes (names : List String) (input : Cursor) : Draft → Cursor → Prop
  | start : Passes names input (.start names) input.skipNewlines
  | version {d : Draft} {c c₁ c₂ : Cursor} {v : String} {h₁ : c₁.left < c.advance.left}
      {h₂ : c₂.left < c₁.left} : Passes names input d c → c.peek? = some (.word "$version") →
      c.advance.expectGrammar ':' = .ok () c₁ h₁ → c₁.expectString = .ok v c₂ h₂ →
      Passes names input { d with version := some v } c₂
  | space {d : Draft} {c c₁ : Cursor} {space : String} {h₁ : c₁.left < c.advance.left} :
      Passes names input d c → c.peek? = some (.word "namespace") →
      d.checkDeclaration "namespace" = .ok () → d.scope.space = none →
      c.advance.expectWord = .ok space c₁ h₁ → Passes names input (d.setSpace space) c₁
  | use {d : Draft} {c c₁ : Cursor} {target : String} {h₁ : c₁.left < c.advance.left} :
      Passes names input d c → c.peek? = some (.word "use") →
      d.checkDeclaration "use" = .ok () → c.advance.expectWord = .ok target c₁ h₁ →
      Passes names input (d.addAlias target) c₁
  | ended {d : Draft} {c c₁ : Cursor} {h₁ : c₁.left < c.left + 1} : Passes names input d c →
      c.endStatement = .ok () c₁ h₁ → Passes names input d c₁
  | newlines {d : Draft} {c : Cursor} : Passes names input d c →
      Passes names input d c.skipNewlines
  | newline {d : Draft} {c : Cursor} : Passes names input d c → c.peek? = some .newline →
      d.pending.isEmpty = true → Passes names input d c.advance
  | documentation {d : Draft} {c : Cursor} {line : String} : Passes names input d c →
      c.peek? = some (.documentation line) →
      Passes names input (d.document line) c.advance.skipNewline
  | metadata {d d₁ : Draft} {c c₁ : Cursor} {h₁ : c₁.left < c.advance.left + 1} :
      Passes names input d c → c.peek? = some (.word "metadata") →
      readMetadata d c.advance = .ok d₁ c₁ h₁ → Passes names input d₁ c₁
  | statement {d d₁ : Draft} {c c₁ : Cursor} {w : String} {hc : c.peek? = some (.word w)}
      {h₁ : c₁.left < c.left} : Passes names input d c →
      readStatement d w c hc = .ok d₁ c₁ h₁ → Passes names input d₁ c₁

section

variable {names : List String} {input : Cursor} {d d' : Draft}

theorem passes_of_readVersions {d d' : Draft} (c : Cursor) {rest : Cursor}
    {hrest : rest.left < c.left + 1} (hd : Passes names input d c)
    (h : readVersions d c = .ok d' rest hrest) : Passes names input d' rest := by
  rw [readVersions] at h
  split at h
  · next hk =>
    have hlt := Cursor.left_advance_lt hk
    split at h
    · cases h
    next c₁ h₁ hcolon =>
    split at h
    · cases h
    next v c₂ h₂ hversion =>
    split at h
    · cases h
    next c₃ h₃ hend =>
    have hle := c₃.left_skipNewlines_le
    split at h
    · cases h
    next d₂ c₄ h₄ hread =>
    cases h
    have hversioned := (hd.version hk hcolon hversion).ended hend
    exact passes_of_readVersions c₃.skipNewlines hversioned.newlines hread
  · cases h
    exact hd
termination_by c.left

theorem passes_of_readMetadataSection {d d' : Draft} (c : Cursor) {rest : Cursor}
    {hrest : rest.left < c.left + 1} (hd : Passes names input d c)
    (h : readMetadataSection d c = .ok d' rest hrest) : Passes names input d' rest := by
  rw [readMetadataSection] at h
  split at h
  · next hk =>
    have hlt := Cursor.left_advance_lt hk
    split at h
    · cases h
    next d₁ c₁ h₁ hmetadata =>
    have hle := c₁.left_skipNewlines_le
    split at h
    · cases h
    next d₂ c₂ h₂ hread =>
    cases h
    exact passes_of_readMetadataSection c₁.skipNewlines (hd.metadata hk hmetadata).newlines hread
  · cases h
    exact hd
termination_by c.left

theorem passes_of_readStatements {d d' : Draft} (c : Cursor) {rest : Cursor}
    {hrest : rest.left < c.left + 1} (hd : Passes names input d c)
    (h : readStatements d c = .ok d' rest hrest) : Passes names input d' rest := by
  rw [readStatements] at h
  split at h
  · split at h
    · cases h
      exact hd
    · cases h
  · next hk =>
    have hlt := Cursor.left_advance_lt hk
    split at h
    · cases h
    next hpending =>
    simp only [] at h
    split at h
    · cases h
    next d₁ c₁ h₁ hread =>
    cases h
    exact passes_of_readStatements c.advance (hd.newline hk (by simpa using hpending)) hread
  · next line hk =>
    have hlt := Cursor.left_advance_lt hk
    have hle := c.advance.left_skipNewline_le
    simp only [] at h
    split at h
    · cases h
    next d₁ c₁ h₁ hread =>
    cases h
    exact passes_of_readStatements c.advance.skipNewline (hd.documentation hk) hread
  · next w hk =>
    split at h
    · cases h
    next d₁ c₁ h₁ hstatement =>
    split at h
    · cases h
    next d₂ c₂ h₂ hread =>
    cases h
    exact passes_of_readStatements c₁ (hd.statement hstatement) hread
  · cases h
termination_by c.left

/-- A document that is read to its end is in one of these states then. -/
theorem passes_of_readDocument {rest : Cursor} {hrest : rest.left < input.left + 1}
    (h : readDocument names input = .ok d' rest hrest) : Passes names input d' rest := by
  rw [readDocument] at h
  split at h
  · cases h
  next d₁ c₁ h₁ hversions =>
  split at h
  · cases h
  next d₂ c₂ h₂ hmetadata =>
  split at h
  · cases h
  next d₃ c₃ h₃ hstatements =>
  cases h
  have hpassed := passes_of_readVersions _ .start hversions
  have hpassed := passes_of_readMetadataSection _ hpassed hmetadata
  exact passes_of_readStatements _ hpassed hstatements

theorem rooted_start (names : List String) : (start names).scope.Rooted := by
  intro name target h
  cases h

theorem rooted_addAlias (h : d.scope.Rooted) (target : String) :
    (d.addAlias target).scope.Rooted := by
  intro name root hroot
  by_cases hname : name = (Identifier.ofText target).name
  · have hself := (Table.get?_insert_self _ _ _).symm.trans (hname ▸ hroot)
    obtain rfl := Option.some.inj hself
    by_cases hhash : '#' ∈ target.toList
    · exact .inl (Identifier.hash_mem_toText_root hhash)
    · have hspace := Identifier.space_ofText_eq_none hhash
      rw [hname]
      exact .inr (Identifier.toText_root_of_space_eq_none hspace)
  · exact h name root ((Table.get?_insert_of_ne _ hname _).symm.trans hroot)

theorem IsStatement.rooted {ts : List Kind} (h : IsStatement d ts d') (hd : d.scope.Rooted) :
    d'.scope.Rooted := by
  cases h with
  | space => exact hd
  | metadata => exact hd
  | use => exact rooted_addAlias hd _
  | application _ happlication =>
    cases happlication
    exact hd
  | shape _ _ hshape => cases hshape <;> exact hd

theorem IsStep.rooted {ks rest : List Kind} (h : IsStep d ks rest d') (hd : d.scope.Rooted) :
    d'.scope.Rooted := by
  cases h with
  | statement hs => exact hs.rooted hd
  | applied => exact hd

theorem Passes.rooted {c : Cursor} (h : Passes names input d c) : d.scope.Rooted := by
  induction h with
  | start => exact rooted_start names
  | use _ _ _ _ ih => exact rooted_addAlias ih _
  | metadata _ _ hread ih =>
    obtain ⟨_, _, _, _, _, _, _, _, _, rfl⟩ := readMetadata_gives_iff.mp (Outcome.gives_of_eq hread)
    exact ih
  | statement _ hread ih => exact (isStep_of_readStatement (Outcome.gives_of_eq hread)).rooted ih
  | _ => assumption

/-- At every moment of reading, a name that is resolved stays what it is, and a member is resolved
to one of what its shape's name is resolved to. -/
theorem Passes.qualify_stable {c : Cursor} (h : Passes names input d c) (isTrait : Bool) :
    (∀ w, d.scope.qualify isTrait (d.scope.qualify isTrait w) = d.scope.qualify isTrait w) ∧
    ∀ w member, '#' ∉ member.toList →
      d.scope.qualify isTrait (w ++ "$" ++ member) = d.scope.qualify isTrait w ++ "$" ++ member ∧
      Identifier.ofText (d.scope.qualify isTrait (w ++ "$" ++ member)) =
        (Identifier.ofText (d.scope.qualify isTrait w)).extend member := by
  refine ⟨fun w => h.rooted.qualify_qualify isTrait w, ?_⟩
  intro w member hmember
  have hqualify := d.scope.qualify_append_member isTrait w hmember
  refine ⟨hqualify, ?_⟩
  rw [hqualify, Identifier.ofText_append_member _ hmember]

end

/-- A document with a name space and two names in use, one of them without a name space. -/
def aliasSource : Source :=
  ⟨"a", "namespace a\nuse b#Foo\nuse Bar"⟩

def aliasKinds : List Kind :=
  [.word "namespace", .word "a", .newline, .word "use", .word "b#Foo", .newline, .word "use",
    .word "Bar"]

def spacedDraft : Draft :=
  (start TraitRegistry.builtin.names).setSpace "a"

def aliasDraft : Draft :=
  (spacedDraft.addAlias "b#Foo").addAlias "Bar"

theorem reads_aliasKinds : Reads (start TraitRegistry.builtin.names) aliasKinds aliasDraft := by
  have hbar : IsStep (spacedDraft.addAlias "b#Foo") ([.word "use", .word "Bar"] ++ ([] ++ [])) []
      aliasDraft :=
    .statement (.use rfl) .input
  have hfoo : IsStep spacedDraft ([.word "use", .word "b#Foo"] ++ ([.newline] ++ _)) _
      (spacedDraft.addAlias "b#Foo") :=
    .statement (.use rfl) (.newline [.word "use", .word "Bar"])
  have hspace : IsStep (start TraitRegistry.builtin.names)
      ([.word "namespace", .word "a"] ++ ([.newline] ++ _)) _ spacedDraft :=
    .statement (.space rfl rfl)
      (.newline [.word "use", .word "b#Foo", .newline, .word "use", .word "Bar"])
  exact .step hspace (.step hfoo (.step hbar (.done rfl)))

theorem exists_readDocument_aliasSource :
    ∃ ts rest hrest, aliasSource.tokens = .ok ts ∧
      readDocument TraitRegistry.builtin.names (.ofTokens aliasSource ts) =
        .ok aliasDraft rest hrest := by
  obtain ⟨ts, hts, hkinds⟩ : ∃ ts, aliasSource.tokens = .ok ts ∧ ts.map (·.kind) = aliasKinds :=
    ⟨_, Token.tokens_eq_ok_iff.mpr (by cbv), rfl⟩
  have hreads : ReadsDocument (start TraitRegistry.builtin.names)
      (dropBreaks (Cursor.ofTokens aliasSource ts).kinds) aliasDraft := by
    have hks : (Cursor.ofTokens aliasSource ts).kinds = aliasKinds := hkinds
    rw [hks]
    exact .statements (by simp [dropBreaks, aliasKinds]) reads_aliasKinds
  obtain ⟨rest, hrest, hread, -⟩ := readDocument_gives_iff.mpr ⟨rfl, hreads⟩
  exact ⟨ts, rest, hrest, hts, hread⟩

theorem qualify_stable_aliases :
    ∃ ts rest, aliasSource.tokens = .ok ts ∧
      Passes TraitRegistry.builtin.names (.ofTokens aliasSource ts) aliasDraft rest ∧
      (∀ w, aliasDraft.scope.qualify false (aliasDraft.scope.qualify false w) =
        aliasDraft.scope.qualify false w) ∧
      aliasDraft.scope.qualify false "Foo" = "b#Foo" ∧
      aliasDraft.scope.qualify false ("Foo" ++ "$" ++ "m") = "b#Foo" ++ "$" ++ "m" ∧
      aliasDraft.scope.qualify false ("Bar" ++ "$" ++ "m") = "Bar" ++ "$" ++ "m" := by
  obtain ⟨ts, rest, _, hts, hread⟩ := exists_readDocument_aliasSource
  have hpasses := passes_of_readDocument hread
  obtain ⟨hstable, hmember⟩ := hpasses.qualify_stable false
  have hfoo : aliasDraft.scope.qualify false "Foo" = "b#Foo" := by decide +kernel
  have hbar : aliasDraft.scope.qualify false "Bar" = "Bar" := by decide +kernel
  refine ⟨ts, rest, hts, hpasses, hstable, hfoo, ?_, ?_⟩
  · rw [(hmember "Foo" "m" (by decide)).1, hfoo]
  · rw [(hmember "Bar" "m" (by decide)).1, hbar]

end Draft

end Document

end ShapeModel
