import ShapeModel.Proofs.Document.Decode
import ShapeModel.Proofs.Token.Break
import ShapeModel.Proofs.Token.Rendering

/-!
# Traits applied by statements

A statement that applies a trait, put at the end of a document, is the same as adding the trait to
the model of the document.
-/

namespace ShapeModel

set_option autoImplicit false

open Token (Kind kinds)
open Document

/-- The tokens of a text that is followed by a statement. -/
theorem Token.kinds_append_application {text target applied : List Char} {w : String}
    {ks us : List Kind} (hks : kinds text = .ok ks) (hw : (Kind.word w).Writable)
    (htarget : w.toList = target) (hus : kinds applied = .ok us) :
    kinds (text ++ '\n' :: ("apply".toList ++ ' ' :: (target ++ ' ' :: applied))) =
      .ok (ks ++ .newline :: .word "apply" :: .word w :: us) := by
  have happly := @Kind.writable_word "apply" _ _ rfl (by decide) (by decide)
  have hspelled := kinds_spelling_space happly nofun (target ++ ' ' :: applied)
  have hspelledTarget := kinds_spelling_space hw nofun applied
  rw [Kind.spelling, htarget, hus] at hspelledTarget
  rw [Kind.spelling, hspelledTarget] at hspelled
  rw [kinds_append_newline hks, hspelled]
  rfl

/-- A text that is written as these tokens has them. -/
theorem Token.exists_tokens_of_toList {text : String} {ks : List Kind}
    (htext : text.toList = written ks) (h : ∀ k ∈ ks, k.Writable)
    (hdoc : DocumentationEndsLines ks) :
    ∃ ts, (Source.mk Dialect.unnamed text).tokens = .ok ts ∧ ts.map (·.kind) = ks := by
  rw [tokens_kinds_iff, htext]
  exact kinds_written h hdoc

namespace Document

variable {d : Draft} {m : Model} {w name : String} {v : Value}

theorem Draft.ofText_toText_identifierOf (d : Draft) (w : String) :
    Identifier.ofText (d.identifierOf w).root.toText = (d.identifierOf w).root :=
  Identifier.ofText_toText_root _

/-- What the entry of a target that is declared and found becomes, and what it is decoded to. -/
theorem exists_applied_entry (hd : HasEntries d.shapes)
    (hm : Dialect.builtin.ofValue d.toValue = .ok m)
    (hroot : d.shapes.contains (d.identifierOf w).root.toText = true)
    (hfound : (m.find? (d.identifierOf w)).isSome = true) (name : String) (v : Value) :
    ∃ entry keyword fields s, d.shapes.get? (d.identifierOf w).root.toText = some entry ∧
      Draft.applyTo (d.identifierOf w) (Table.empty.insert name v) entry = .ok (.object fields) ∧
      IsEntry keyword fields ∧ m.shapes.get? (d.identifierOf w).root = some s ∧
      ∀ s', ShapeRegistry.builtin.decode keyword (.object fields) .builtin = .ok s' ↔
        ∃ t, TraitRegistry.builtin.decode name v = .ok t ∧
          s.addTrait? (d.identifierOf w) t = some s' := by
  obtain ⟨entry, hentry⟩ := Option.isSome_iff_exists.mp hroot
  obtain ⟨keyword, fields, s, rfl, hfields, hs, hget⟩ := Draft.exists_shape_of_get? hd hm hentry
  rw [Draft.ofText_toText_identifierOf] at hget
  have hmember (x : String) (hx : (d.identifierOf w).member = some x) :
      (s.member? x).isSome = true := by
    rw [Model.find?, hx, hget] at hfound
    simpa using hfound
  obtain ⟨fields', happly, hdecode⟩ := exists_applyTo hfields hs hmember name v
  obtain ⟨_, hobject, hfields'⟩ := hfields.of_applyTo happly
  cases hobject
  exact ⟨_, keyword, fields', s, hentry, happly, hfields', hget, hdecode⟩

/-- Reading goes on with a statement that applies a trait. -/
theorem Draft.readsDocument_append_application {d₀ : Draft} {ks us : List Kind} {u : String}
    {entry entry' : Value} (h : ReadsDocument d₀ (dropBreaks ks) d)
    (hentry : d.shapes.get? (d.identifierOf w).root.toText = some entry)
    (hu : isTraitWord u = true) (htrait : IsTrait d.scope (.word u :: us) name v)
    (happly : applyTo (d.identifierOf w) (Table.empty.insert name v) entry = .ok entry') :
    ReadsDocument d₀ (dropBreaks (ks ++ .newline :: .word "apply" :: .word w :: .word u :: us))
      { d with shapes := d.shapes.insert (d.identifierOf w).root.toText entry' } := by
  have hpending := h.pending_isEmpty
  have hstatement : IsStatement d (.word "apply" :: .word w :: .word u :: us) _ :=
    .application hpending (.intro hentry hu htrait happly)
  have hstep := IsStep.statement hstatement .input
  rw [List.append_nil, List.append_nil] at hstep
  have hreads := h.append_newline (by decide) (.step hstep (.done hpending))
  exact hreads.of_dropBreaks_append (by decide)

/-- A document that goes on with `apply` of a trait is read exactly when the trait is decoded, and
its model is that of the document before with the trait added. Nothing else is changed. -/
theorem ofText_apply_eq_ok_iff {text applied : String} {ts us : List Token}
    (hts : (Source.mk Dialect.unnamed text).tokens = .ok ts)
    (hd : (readDocument TraitRegistry.builtin.names
      (.ofTokens ⟨Dialect.unnamed, text⟩ ts)).Gives d [])
    (hm : Dialect.builtin.ofText text = .ok m)
    (hkeys : "traits" ∉ spelledKeys [] (ts.map (·.kind)) ∧
      "type" ∉ spelledKeys [] (ts.map (·.kind)))
    (hw : (Kind.word w).Writable)
    (hroot : d.shapes.contains (d.identifierOf w).root.toText = true)
    (hfound : (m.find? (d.identifierOf w)).isSome = true)
    (hus : (Source.mk Dialect.unnamed applied).tokens = .ok us)
    (happlied : (Draft.readApplied d.scope
      (.ofTokens ⟨Dialect.unnamed, applied⟩ us)).Gives (name, v) []) :
    (∀ m', Dialect.builtin.ofText (text ++ "\napply " ++ w ++ " " ++ applied) = .ok m' ↔
      ∃ t, TraitRegistry.builtin.decode name v = .ok t ∧
        m.addTrait t (d.identifierOf w) = .ok m') ∧
    ∀ t, TraitRegistry.builtin.decode name v = .ok t →
      ∃ m', m.addTrait t (d.identifierOf w) = .ok m' ∧ m.TraitAdded (d.identifierOf w) t m' := by
  have hks := Token.tokens_kinds_iff.mp ⟨ts, hts, rfl⟩
  have hkus := Token.tokens_kinds_iff.mp ⟨us, hus, rfl⟩
  have hdocument := (Draft.readDocument_gives_iff.mp hd).2
  change Draft.ReadsDocument _ (dropBreaks (ts.map (·.kind))) d at hdocument
  have hslots : LeavesSlots [] (dropBreaks (ts.map (·.kind))) :=
    LeavesSlots.mono hkeys fun _ => Draft.mem_spelledKeys_of_dropBreaks
  have hentries : HasEntries d.shapes := hdocument.hasEntries nofun hslots
  have hvalue := hm
  rw [Dialect.ofText_eq hks hdocument] at hvalue
  obtain ⟨entry, keyword, fields, s, hentry, happly, hfields, hs, hdecode⟩ :=
    exists_applied_entry hentries hvalue hroot hfound name v
  obtain ⟨u, us', hus', hu, htrait⟩ := Draft.isTrait_of_readApplied happlied
  change us.map (·.kind) = _ at hus'
  rw [hus', List.append_nil] at hkus
  have hktext := Token.kinds_append_application hks hw rfl hkus
  have hreads := Draft.readsDocument_append_application hdocument hentry hu htrait happly
  refine ⟨fun m' => ?_, fun t ht => ?_⟩
  · have htext : (text ++ "\napply " ++ w ++ " " ++ applied).toList = text.toList ++ '\n' ::
        ("apply".toList ++ ' ' :: (w.toList ++ ' ' :: applied.toList)) := by
      simp
    rw [← htext] at hktext
    rw [Dialect.ofText_eq hktext hreads,
      Draft.ofValue_toValue_insert_eq_ok_iff hentries hvalue hfields]
    simp only [hdecode, Model.addTrait_eq_ok_iff hs, Draft.ofText_toText_identifierOf]
    constructor
    · rintro ⟨s', ⟨t, ht, hs'⟩, hm'⟩
      exact ⟨t, ht, s', hs', hm'⟩
    · rintro ⟨t, ht, s', hs', hm'⟩
      exact ⟨s', ⟨t, ht, hs'⟩, hm'⟩
  · obtain ⟨m', hm'⟩ := Model.exists_addTrait hfound t
    exact ⟨m', hm', Model.traitAdded_of_addTrait hm'⟩

/-- A structure with one member, which comes to be required. -/
def sampleKinds : List Kind :=
  [.word "structure", .word "S", .grammar '{', .word "m", .grammar ':', .word "String",
    .grammar '}']

def sampleFields : Value.Fields :=
  [("members", .object [("m", reference "smithy.api#String")]), ("type", .string "structure")]

def sampleDraft : Draft :=
  { Draft.start TraitRegistry.builtin.names with
    shapes := Table.empty.insert "S" (.object sampleFields) }

def sampleShape : Shape :=
  ⟨.aggregate .struct (Table.empty.insert "m" ⟨.ofText "smithy.api#String", .empty⟩), .empty⟩

def sampleModel : Model :=
  Model.prelude.insertShape (.ofText "S") sampleShape

theorem readsDocument_sample :
    Draft.ReadsDocument (.start TraitRegistry.builtin.names) (dropBreaks sampleKinds)
      sampleDraft := by
  have hvalue : IsValue (.ofTraitNames TraitRegistry.builtin.names) .body [.word "String"]
      (reference "smithy.api#String") := .atom rfl
  have hmember : IsMember (.ofTraitNames TraitRegistry.builtin.names) .empty
      [.word "m", .grammar ':', .word "String"] "m" (reference "smithy.api#String") :=
    .valued (.word "m") rfl hvalue rfl
  have hmembers : AreMembers (.ofTraitNames TraitRegistry.builtin.names)
      (IsMember (.ofTraitNames TraitRegistry.builtin.names))
      [.word "m", .grammar ':', .word "String", .grammar '}']
      [("m", reference "smithy.api#String")] :=
    .member (.done .empty) hmember (.closing []) (.close (.done .empty) rfl)
  have hbody := @IsBody.members _ (Draft.shapeEntry "structure" .empty) _ _ hmembers
  have hstatement :
      Draft.IsStatement (.start TraitRegistry.builtin.names) sampleKinds sampleDraft :=
    .shape (by decide) rfl (.body rfl hbody)
  exact .statements (by decide) (.step (.statement hstatement .input) (.done rfl))

theorem ofValue_toValue_sample (h : HasEntries sampleDraft.shapes) :
    Dialect.builtin.ofValue sampleDraft.toValue = .ok sampleModel := by
  have hentry : decodeEntry "S" (.object sampleFields) = .ok sampleShape := rfl
  have hentries : sampleDraft.shapes.entries = [("S", .object sampleFields)] := rfl
  rw [Draft.ofValue_toValue_eq_ok_iff h, hentries, decodeInto, hentry]
  exact ⟨rfl, rfl, rfl⟩

theorem find?_sample (id : Identifier) (h : id = (Identifier.ofText "S").withMember "m") :
    (sampleModel.find? id).isSome = true := by
  have hroot : ((Identifier.ofText "S").withMember "m").root = .ofText "S" := by decide
  rw [h, Model.find?, hroot, sampleModel, Model.insertShape, Table.get?_insert_self]
  rfl

theorem ofText_apply_required_eq_ok :
    Dialect.builtin.ofText "structure S { m : String }" = .ok sampleModel ∧
      ∃ m, Dialect.builtin.ofText ("structure S { m : String }" ++ "\napply " ++ "S$m" ++ " " ++
          "@smithy.api#required") = .ok m ∧
        sampleModel.addTrait .required ⟨none, "S", some "m"⟩ = .ok m ∧
        sampleModel.TraitAdded ⟨none, "S", some "m"⟩ .required m := by
  have hwritable : ∀ k ∈ sampleKinds, k.Writable := by
    simp only [sampleKinds, List.forall_mem_cons]
    exact ⟨Kind.writable_word rfl (by decide) (by decide),
      Kind.writable_word rfl (by decide) (by decide), .grammar (by decide),
      Kind.writable_word rfl (by decide) (by decide), .grammar (by decide),
      Kind.writable_word rfl (by decide) (by decide), .grammar (by decide),
      List.forall_mem_nil _⟩
  have happlied : ∀ k ∈ [Kind.word "@smithy.api#required"], k.Writable := by
    simpa using Kind.writable_word rfl (by decide) (by decide)
  obtain ⟨ts, hts, hks⟩ :=
    @Token.exists_tokens_of_toList "structure S { m : String }" _ rfl hwritable
      (by simp [Token.DocumentationEndsLines, sampleKinds, List.infix_cons_iff])
  obtain ⟨us, hus, hkus⟩ :=
    @Token.exists_tokens_of_toList "@smithy.api#required" _ rfl happlied
      (by simp [Token.DocumentationEndsLines, List.infix_cons_iff])
  have hcursor : (Cursor.ofTokens ⟨Dialect.unnamed, "structure S { m : String }"⟩ ts).kinds =
      sampleKinds := hks
  have hkeys : LeavesSlots [] sampleKinds := ⟨by decide, by decide⟩
  have hd := Draft.readDocument_gives_iff.mpr ⟨rfl, hcursor ▸ readsDocument_sample⟩
  have hm : Dialect.builtin.ofText "structure S { m : String }" = .ok sampleModel := by
    rw [Dialect.ofText_eq (Token.tokens_kinds_iff.mp ⟨ts, hts, hks⟩) readsDocument_sample]
    have hempty : HasEntries Table.empty := by
      intro name v h
      cases h
    exact ofValue_toValue_sample (readsDocument_sample.hasEntries hempty hkeys)
  have hid : sampleDraft.identifierOf "S$m" = ⟨none, "S", some "m"⟩ := by decide
  have hroot : sampleDraft.shapes.contains
      (sampleDraft.identifierOf "S$m").root.toText = true := by decide
  have hname : sampleDraft.scope.qualify true (appliedName "@smithy.api#required") =
      Trait.Kind.required.name := by decide
  have htrait : IsTrait sampleDraft.scope [.word "@smithy.api#required"]
      Trait.Kind.required.name .emptyObject := hname ▸ .bare _
  have hread := Draft.readApplied_of_isTrait htrait rfl
    (c := .ofTokens ⟨Dialect.unnamed, "@smithy.api#required"⟩ us) hkus (by simp)
  have hdecode : TraitRegistry.builtin.decode Trait.Kind.required.name .emptyObject =
      .ok .required := by
    rw [TraitRegistry.decode, TraitRegistry.get?_builtin]
    rfl
  obtain ⟨hiff, hadded⟩ := ofText_apply_eq_ok_iff hts hd hm (hks ▸ hkeys)
    (Kind.writable_word rfl (by decide) (by decide)) hroot (find?_sample _ hid) hus hread
  rw [hid] at hiff hadded
  obtain ⟨m, hm', hadded⟩ := hadded .required hdecode
  exact ⟨hm, m, (hiff m).mpr ⟨.required, hdecode, hm'⟩, hm', hadded⟩

end Document

end ShapeModel
