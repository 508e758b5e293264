import ShapeModel.Proofs.Document.Grammar
import ShapeModel.Proofs.Document.Part

/-!
# Texts in what is written

Where the text in a stored value comes from: it was quoted, or it is what a name was resolved to.
The values are those of members and those that notes give to traits.
-/

namespace ShapeModel

set_option autoImplicit false

/-- The text stands in the value, other than as a key. -/
inductive Value.Mentions : Value → String → Prop
  | text (t : String) : Mentions (.string t) t
  | item {items : List Value} {v : Value} {t : String} : v ∈ items → Mentions v t →
      Mentions (.array items) t
  | field {fields : Value.Fields} {key : String} {v : Value} {t : String} : (key, v) ∈ fields →
      Mentions v t → Mentions (.object fields) t

namespace Document

open Token (Kind)

/-- Among the tokens the text is quoted, and not as the key of a field. -/
def Quoted (ts : List Kind) (t : String) : Prop :=
  ∃ before after, ts = before ++ .string t :: after ∧ after.head? ≠ some (.grammar ':')

/-- The text is quoted, or is what a name is resolved to. -/
def Traced (s : Scope) (ts : List Kind) (t : String) : Prop :=
  Quoted ts t ∨ ∃ w, t = s.qualify false w

section

variable {s : Scope} {ctx : Context} {before ts rest gap comma : List Kind} {t : String} {v : Value}

theorem Traced.embed (h : Traced s ts t) (hrest : rest.head? ≠ some (.grammar ':')) :
    Traced s (before ++ (ts ++ rest)) t := by
  rcases h with ⟨us, after, rfl, hafter⟩ | hname
  · refine .inl ⟨before ++ us, after ++ rest, by simp, ?_⟩
    cases after with
    | nil => exact hrest
    | cons k after => exact hafter
  · exact .inr hname

theorem head?_ne_of_dropBreaks {ch : Char} (h : (dropBreaks ts).head? ≠ some (.grammar ch)) :
    ts.head? ≠ some (.grammar ch) := by
  cases ts with
  | nil => exact h
  | cons k ts =>
    rintro ⟨⟩
    rw [dropBreaks_of_ne (by simp)] at h
    exact h rfl

/-- No colon follows a value that has its place among others. -/
theorem head?_ne_colon (hgap : Breaks gap) (hcomma : OptionalComma comma)
    (hrest : (dropBreaks rest).head? ≠ some (.grammar ':')) :
    (gap ++ (comma ++ rest)).head? ≠ some (.grammar ':') := by
  apply head?_ne_of_dropBreaks
  rw [dropBreaks_append hgap]
  cases hcomma with
  | absent => exact hrest
  | present => nofun

/-- A named value has its own tokens among those of all of them. -/
theorem exists_segment_of_areFields {close : Char} {us : List Kind} {fields : Value.Fields}
    {key : String} (h : AreFields s ctx close us fields) (hclose : ':' ≠ close)
    (hv : (key, v) ∈ fields) :
    ∃ before ts rest, us = before ++ (ts ++ rest) ∧ IsValue s ctx ts v ∧
      rest.head? ≠ some (.grammar ':') := by
  cases h with
  | close => cases hv
  | @field _ breaks gap ts gap' comma rest k key' v' fields hbreaks hk hgap hvalue hgap' hcomma
      hmore =>
    rcases List.mem_cons.mp hv with heq | hv
    · cases heq
      have hcolon := hmore.head?_ne hclose []
      rw [List.append_nil] at hcolon
      refine ⟨breaks ++ k :: .grammar ':' :: gap, ts, _, ?_, hvalue,
        head?_ne_colon hgap' hcomma hcolon⟩
      simp only [List.append_assoc, List.cons_append]
    · obtain ⟨before, ts', rest', rfl, hvalue', hcolon⟩ :=
        exists_segment_of_areFields hmore hclose hv
      refine ⟨breaks ++ k :: .grammar ':' :: (gap ++ (ts ++ (gap' ++ (comma ++ before)))), ts',
        rest', ?_, hvalue', hcolon⟩
      simp only [List.append_assoc, List.cons_append]
termination_by fields.length

theorem exists_segment_of_areItems {us : List Kind} {items : List Value}
    (h : AreItems s ctx us items) (hv : v ∈ items) :
    ∃ before ts rest, us = before ++ (ts ++ rest) ∧ IsValue s ctx ts v ∧
      rest.head? ≠ some (.grammar ':') := by
  cases h with
  | close => cases hv
  | @item breaks ts gap comma rest v' items hbreaks hvalue hgap hcomma hmore =>
    rcases List.mem_cons.mp hv with rfl | hv
    · have hcolon := hmore.head?_ne (by decide : ':' ∉ _) []
      rw [List.append_nil] at hcolon
      exact ⟨breaks, ts, _, rfl, hvalue, head?_ne_colon hgap hcomma hcolon⟩
    · obtain ⟨before, ts', rest', rfl, hvalue', hcolon⟩ := exists_segment_of_areItems hmore hv
      refine ⟨breaks ++ (ts ++ (gap ++ (comma ++ before))), ts', rest', ?_, hvalue', hcolon⟩
      simp only [List.append_assoc]
termination_by items.length

theorem traced_atom {k : Kind} (hk : atom? s ctx k = some (.ok v)) (ht : v.Mentions t) :
    Traced s [k] t := by
  rcases atom?_eq_some_ok_iff.mp hk with ⟨text, rfl, rfl⟩ | ⟨_, _, _, _, rfl⟩ | ⟨w, rfl, hw⟩
  · cases ht
    exact .inl ⟨[], [], rfl, nofun⟩
  · cases ht
  · cases hw with
    | reference _ hname =>
      cases ht with
      | field hv ht =>
        cases List.mem_singleton.mp hv
        cases ht
        exact .inr ⟨w, (Scope.qualify_eq_iff.mpr hname).symm⟩
    | name _ hname =>
      cases ht
      exact .inr ⟨w, (Scope.qualify_eq_iff.mpr hname).symm⟩
    | _ => cases ht

/-- Text gets into a value by being quoted or as a name that is resolved. -/
theorem IsValue.traced (h : IsValue s ctx ts v) (ht : v.Mentions t) : Traced s ts t := by
  -- Along the way to the text: where an object or array was written, so was the part that holds it.
  induction ht generalizing ts with
  | text t =>
    generalize hv : Value.string t = v at h
    cases h with
    | atom hk => exact traced_atom hk (hv ▸ .text t)
    | _ => cases hv
  | @item items v t hmem ht ih =>
    generalize hv : Value.array items = u at h
    cases h with
    | atom hk => exact traced_atom hk (hv ▸ .item hmem ht)
    | object => cases hv
    | array hitems =>
      cases hv
      obtain ⟨before, us, rest, rfl, hvalue, hcolon⟩ := exists_segment_of_areItems hitems hmem
      exact @Traced.embed s (_ :: before) _ _ _ (ih hvalue) hcolon
  | @field fields key v t hmem ht ih =>
    generalize hv : Value.object fields = u at h
    cases h with
    | atom hk => exact traced_atom hk (hv ▸ .field hmem ht)
    | object hfields =>
      cases hv
      obtain ⟨before, us, rest, rfl, hvalue, hcolon⟩ :=
        exists_segment_of_areFields hfields (by decide) (Entries.mem_of_mem_ofList hmem)
      exact @Traced.embed s (_ :: before) _ _ _ (ih hvalue) hcolon
    | array => cases hv

/-- The text stands in the value that is given to a trait. -/
inductive Note.Mentions : Note → String → Prop
  | applied {name : String} {v : Value} {t : String} : v.Mentions t →
      Mentions (.applied name v) t

/-- The tokens that a note is read from. What an enumeration's member is equal to is a note as
well. -/
inductive IsWrittenNote (s : Scope) : List Kind → Note → Prop
  | note {us : List Kind} {n : Note} : IsNote s us n → IsWrittenNote s us n
  | given {us : List Kind} {v : Value} : IsValue s .traitValue us v →
      IsWrittenNote s us (.applied Trait.Kind.enumValue.name v)

theorem Breaks.head?_ne (h : Breaks gap) (hrest : rest.head? ≠ some (.grammar ':')) :
    (gap ++ rest).head? ≠ some (.grammar ':') := by
  cases gap with
  | nil => exact hrest
  | cons k gap =>
    rw [h k List.mem_cons_self]
    nofun

theorem IsTraitValue.traced (h : IsTraitValue s ts v) (ht : v.Mentions t) : Traced s ts t := by
  cases h with
  | fields hfields =>
    cases ht with
    | field hmem ht =>
      obtain ⟨before, us, rest, rfl, hvalue, hcolon⟩ :=
        exists_segment_of_areFields hfields (by decide) (Entries.mem_of_mem_ofList hmem)
      exact (hvalue.traced ht).embed hcolon
  | value hvalue hgap =>
    have hclose : [Kind.grammar ')'].head? ≠ some (.grammar ':') := by decide
    exact @Traced.embed s [] _ _ _ (hvalue.traced ht) (hgap.head?_ne hclose)

theorem IsTrait.traced {name : String} (h : IsTrait s ts name v) :
    (∃ w, name = s.qualify true w) ∧ ∀ t, v.Mentions t → Traced s ts t := by
  cases h with
  | bare w =>
    refine ⟨⟨_, rfl⟩, ?_⟩
    intro t ht
    cases ht with
    | field hmem => cases hmem
  | @applied ts gap _ w _ hvalue =>
    refine ⟨⟨_, rfl⟩, fun t ht => ?_⟩
    have hembed := @Traced.embed s (.word w :: .grammar '(' :: gap) _ [] _ (hvalue.traced ht) nofun
    rwa [List.append_nil] at hembed

theorem IsWrittenNote.traced {n : Note} (h : IsWrittenNote s ts n) :
    ('#' ∈ n.name.toList ∨ ∃ w, n.name = s.qualify true w) ∧
      ∀ t, n.Mentions t → Traced s ts t := by
  cases h with
  | note h =>
    cases h with
    | line => exact ⟨.inl (Prelude.hash_mem_absolute _), nofun⟩
    | applied _ htrait =>
      obtain ⟨hname, htraced⟩ := htrait.traced
      exact ⟨.inr hname, fun t ⟨ht⟩ => htraced t ht⟩
  | given hvalue => exact ⟨.inl (Prelude.hash_mem_absolute _), fun t ⟨ht⟩ => hvalue.traced ht⟩

theorem AreNotes.exists_isNote {us : List Kind} {ns : List Note} {n : Note}
    (h : AreNotes s us ns) (hn : n ∈ ns) : ∃ ts, ts <:+: us ∧ IsNote s ts n := by
  induction h with
  | nil => cases hn
  | @cons ts gap rest n' ns hnote _ _ ih =>
    rcases List.mem_cons.mp hn with rfl | hn
    · exact ⟨ts, (List.prefix_append _ _).isInfix, hnote⟩
    · obtain ⟨us, hus, hnote⟩ := ih hn
      rw [← List.append_assoc]
      exact ⟨us, hus.trans (List.suffix_append _ _).isInfix, hnote⟩

theorem AreSpacedNotes.exists_isNote {us : List Kind} {ns : List Note} {n : Note}
    (h : AreSpacedNotes s us ns) (hn : n ∈ ns) : ∃ ts, ts <:+: us ∧ IsNote s ts n := by
  induction h with
  | nil => cases hn
  | newline _ ih =>
    obtain ⟨ts, hts, hnote⟩ := ih hn
    exact ⟨ts, hts.trans (List.suffix_cons _ _).isInfix, hnote⟩
  | @note us ts n' ns hnote _ ih =>
    rcases List.mem_cons.mp hn with rfl | hn
    · exact ⟨us, (List.prefix_append _ _).isInfix, hnote⟩
    · obtain ⟨us', hus, hnote⟩ := ih hn
      exact ⟨us', hus.trans (List.suffix_append _ _).isInfix, hnote⟩

/-- A note of a part is written in it. -/
theorem IsWritten.exists_isWrittenNote {style : BodyStyle} {us : List Kind} {p : Part} {n : Note}
    (h : IsWritten s style us p) (hn : n ∈ p.notes) : ∃ ts, ts <:+: us ∧ IsWrittenNote s ts n := by
  have hnotes {vs ws : List Kind} {ns : List Note} (hns : AreSpacedNotes s vs ns) (hn : n ∈ ns) :
      ∃ ts, ts <:+: vs ++ ws ∧ IsWrittenNote s ts n := by
    obtain ⟨ts, hts, hnote⟩ := hns.exists_isNote hn
    exact ⟨ts, hts.trans (List.prefix_append _ _).isInfix, .note hnote⟩
  cases h with
  | valued _ hns => exact hnotes hns hn
  | bare hns => exact hnotes hns hn
  | @given us ts ns name v hns _ hvalue =>
    rcases List.mem_append.mp hn with hn | hn
    · exact hnotes hns hn
    · cases List.mem_singleton.mp hn
      exact ⟨ts, ⟨us ++ [.word name, .grammar '='], [], by simp⟩, .given hvalue⟩

/-- The value of a part is written in it, except for a member of an enumeration, which has none of
its own. -/
theorem IsWritten.exists_isValue {style : BodyStyle} {us : List Kind} {p : Part}
    (h : IsWritten s style us p) :
    p.value = unitReference ∨ ∃ ts, ts <:+: us ∧ IsValue s .body ts p.value := by
  cases h with
  | @valued _ us ts ns k name v _ _ _ _ hvalue =>
    exact .inr ⟨ts, ⟨us ++ [k, .grammar ':'], [], by simp⟩, hvalue⟩
  | bare => exact .inl rfl
  | given => exact .inl rfl

theorem AreParts.exists_isWritten {style : BodyStyle} {us : List Kind} {ps : List Part} {p : Part}
    (h : AreParts s style us ps) (hp : p ∈ ps) : ∃ ts, ts <:+: us ∧ IsWritten s style ts p := by
  induction h with
  | close => cases hp
  | @part us sep rest p' ps hwritten _ _ ih =>
    rcases List.mem_cons.mp hp with rfl | hp
    · exact ⟨us, (List.prefix_append _ _).isInfix, hwritten⟩
    · obtain ⟨ts, hts, hwritten⟩ := ih hp
      rw [← List.append_assoc]
      exact ⟨ts, hts.trans (List.suffix_append _ _).isInfix, hwritten⟩

end

end Document

end ShapeModel
