import Mathlib.Data.List.Forall2
import ShapeModel.Proofs.Document.Entry
import ShapeModel.Proofs.Document.Script

/-!
# Members as they are written

The parts of a body as data, each with its notes, its name and its value, and as tokens. The tokens
of every body that is read are those of such parts, in one way only, and each part makes one entry.
-/

namespace ShapeModel.Document

set_option autoImplicit false

open Token (Kind)

/-- A member as it is written. One of an enumeration refers to the unit type, and the value that is
given for it is one more note. -/
structure Part where
  notes : List Note
  name : String
  value : Value

def unitReference : Value :=
  reference (Prelude.absolute Prelude.unitName)

/-- The part has its name and its value with its notes attached as an entry. -/
def Part.Makes (p : Part) (e : String × Value) : Prop :=
  p.name = e.1 ∧ attach (annotationsOf p.notes) p.value = .ok e.2

/-- The tokens of notes with line breaks anywhere between them. -/
inductive AreSpacedNotes (s : Scope) : List Kind → List Note → Prop
  | nil : AreSpacedNotes s [] []
  | newline {ts : List Kind} {ns : List Note} : AreSpacedNotes s ts ns →
      AreSpacedNotes s (.newline :: ts) ns
  | note {us ts : List Kind} {n : Note} {ns : List Note} : IsNote s us n →
      AreSpacedNotes s ts ns → AreSpacedNotes s (us ++ ts) (n :: ns)

/-- The tokens of a part, from its notes on. -/
inductive IsWritten (s : Scope) : BodyStyle → List Kind → Part → Prop
  | valued {style : BodyStyle} {us ts : List Kind} {ns : List Note} {k : Kind} {name : String}
      {v : Value} : style ≠ .enumeration → AreSpacedNotes s us ns → IsKey k name →
      startsAnnotation k = false → IsValue s .body ts v →
      IsWritten s style (us ++ k :: .grammar ':' :: ts) ⟨ns, name, v⟩
  | bare {us : List Kind} {ns : List Note} {name : String} : AreSpacedNotes s us ns →
      isTraitWord name = false →
      IsWritten s .enumeration (us ++ [.word name]) ⟨ns, name, unitReference⟩
  | given {us ts : List Kind} {ns : List Note} {name : String} {v : Value} :
      AreSpacedNotes s us ns → isTraitWord name = false → IsValue s .traitValue ts v →
      IsWritten s .enumeration (us ++ .word name :: .grammar '=' :: ts)
        ⟨ns ++ [.applied Trait.Kind.enumValue.name v], name, unitReference⟩

/-- The tokens of the parts of a body, through the closing brace. -/
inductive AreParts (s : Scope) (style : BodyStyle) : List Kind → List Part → Prop
  | close {us : List Kind} : AreSpacedNotes s us [] → AreParts s style (us ++ [.grammar '}']) []
  | part {us sep rest : List Kind} {p : Part} {ps : List Part} : IsWritten s style us p →
      Separates sep rest → AreParts s style rest ps →
      AreParts s style (us ++ (sep ++ rest)) (p :: ps)

variable {s : Scope} {style : BodyStyle} {ts us : List Kind} {ns : List Note} {ps : List Part}
  {ms : Value.Fields}

theorem AreSpacedNotes.areAnnotations (h : AreSpacedNotes s ts ns) (as : Annotations) :
    AreAnnotations s as ts (ns.foldl Annotations.note as) := by
  induction h generalizing as with
  | nil => exact .done as
  | newline _ ih => exact .newline (ih as)
  | @note us ts n ns hn _ ih =>
    have hrest := ih (as.note n)
    cases hn with
    | line text => exact .documentation hrest
    | applied hw htrait => exact .applied hw htrait hrest

theorem exists_spacedNotes {as as' : Annotations} (h : AreAnnotations s as ts as') :
    ∃ ns, AreSpacedNotes s ts ns ∧ ns.foldl Annotations.note as = as' := by
  induction h with
  | done => exact ⟨[], .nil, rfl⟩
  | newline _ ih =>
    obtain ⟨ns, hns, has⟩ := ih
    exact ⟨ns, .newline hns, has⟩
  | @documentation _ _ line _ _ ih =>
    obtain ⟨ns, hns, has⟩ := ih
    exact ⟨_, .note (.line line) hns, has⟩
  | applied hw htrait _ ih =>
    obtain ⟨ns, hns, has⟩ := ih
    exact ⟨_, .note (.applied hw htrait) hns, has⟩

theorem attach_unitReference (as : Annotations) :
    attach as unitReference = .ok (enumMember as) := by
  cases hempty : as.isEmpty with
  | true =>
    simp only [attach, enumMember, hempty, if_true]
    rfl
  | false =>
    have hfree : HoldsTraits [("target", .string (Prelude.absolute Prelude.unitName))] :=
      .of_find?_eq_none rfl
    have hentries : Entries.insertAll [] as.entries = as.entries :=
      Entries.Ascending.ofList_eq as.ascending
    rw [unitReference, reference, hfree.attach_eq hempty, enumMember, hempty,
      if_neg Bool.false_ne_true, Value.ofPairs, Entries.ofList, Entries.insertAll_cons,
      Entries.insertAll_cons, Entries.insertAll_nil]
    change Except.ok (Value.object (withTraits (Entries.insertAll [] as.entries) _)) = _
    rw [hentries]
    rfl

theorem IsPart.exists_written {name : String} {entry : Value}
    (h : IsPart s style (annotationsOf ns) us name entry) (hns : AreSpacedNotes s ts ns) :
    ∃ p, IsWritten s style (ts ++ us) p ∧ p.Makes (name, entry) := by
  have hmember (hstyle : style ≠ .enumeration)
      (h : IsMember s (annotationsOf ns) us name entry) :
      ∃ p, IsWritten s style (ts ++ us) p ∧ p.Makes (name, entry) := by
    obtain ⟨hk, hstop, hv, hentry⟩ := h
    exact ⟨_, .valued hstyle hns hk hstop hv, rfl, hentry⟩
  cases style with
  | enumeration =>
    cases h with
    | named hname => exact ⟨_, .bare hns hname, rfl, attach_unitReference _⟩
    | valued hname hv =>
      refine ⟨_, .given hns hname hv, rfl, ?_⟩
      rw [annotationsOf_append, attach_unitReference]
      rfl
  | members => exact hmember nofun h
  | fields => exact hmember nofun h

/-- The tokens of members are those of parts that make them. -/
theorem AreMembers.exists_parts (h : AreMembers s (IsPart s style) ts ms) :
    ∃ ps, AreParts s style ts ps ∧ List.Forall₂ Part.Makes ps ms := by
  induction h with
  | close hannotations hempty =>
    obtain ⟨ns, hns, rfl⟩ := exists_spacedNotes hannotations
    obtain rfl : ns = [] := eq_nil_of_isEmpty_annotationsOf hempty
    exact ⟨[], .close hns, .nil⟩
  | member hannotations hpart hseparates _ ih =>
    obtain ⟨ns, hns, rfl⟩ := exists_spacedNotes hannotations
    obtain ⟨p, hwritten, hmakes⟩ := IsPart.exists_written hpart hns
    obtain ⟨ps, hps, hall⟩ := ih
    rw [← List.append_assoc]
    exact ⟨p :: ps, .part hwritten hseparates hps, .cons hmakes hall⟩

/-- Members up to and with the closing brace, in this style of body. -/
def readParts (s : Scope) : BodyStyle → (c : Cursor) → Outcome Value.Fields c.left
  | .enumeration, c => readEnumMembers s c
  | _, c => readMembers s c

theorem readParts_of_ne (hstyle : style ≠ .enumeration) (c : Cursor) :
    readParts s style c = readMembers s c := by
  cases style with
  | enumeration => exact absurd rfl hstyle
  | _ => rfl

theorem readParts_of_areMembers (h : AreMembers s (IsPart s style) ts ms) {c : Cursor}
    {rest : List Kind} (hc : c.kinds = ts ++ rest) : (readParts s style c).Gives ms rest := by
  cases style with
  | enumeration => exact readEnumMembers_of_areMembers h hc
  | members => exact readMembers_of_areMembers h hc
  | fields => exact readMembers_of_areMembers h hc

theorem readParts_close {c : Cursor} {rest fin : List Kind} (hns : AreSpacedNotes s us [])
    (hc : c.kinds = us ++ [.grammar '}'] ++ rest) (h : (readParts s style c).Gives ms fin) :
    ms = [] := by
  have hannotations := hns.areAnnotations .empty
  cases style with
  | enumeration => exact ((readEnumMembers_close_iff hannotations rfl hc).mp h).1
  | members => exact ((readMembers_close_iff hannotations rfl hc).mp h).1
  | fields => exact ((readMembers_close_iff hannotations rfl hc).mp h).1

theorem readParts_part {c : Cursor} {sep rest tail fin : List Kind} {p : Part}
    (hp : IsWritten s style us p) (hseparates : Separates sep rest)
    (hc : c.kinds = us ++ (sep ++ (rest ++ tail))) (h : (readParts s style c).Gives ms fin) :
    ∃ e ms' c', p.Makes e ∧ ms = e :: ms' ∧ c'.kinds = rest ++ tail ∧
      (readParts s style c').Gives ms' fin := by
  cases hp with
  | @valued _ _ _ _ _ name _ hstyle hns hk hstop hv =>
    rw [readParts_of_ne hstyle] at h
    simp only [List.append_assoc, List.cons_append] at hc
    obtain ⟨c', hc', hiff⟩ :=
      readMembers_member_iff (hns.areAnnotations .empty) hk hstop hv hseparates hc
    obtain ⟨entry, ms', hentry, hms, hmore⟩ := (hiff _ _).mp h
    exact ⟨(name, entry), ms', c', ⟨rfl, hentry⟩, hms, hc',
      (readParts_of_ne hstyle c').symm ▸ hmore⟩
  | @bare _ ns name hns hname =>
    rw [List.append_assoc] at hc
    obtain ⟨c', hc', hiff⟩ :=
      readEnumMembers_member_iff (hns.areAnnotations .empty) (.named hname) hseparates hc
    obtain ⟨ms', hms, hmore⟩ := (hiff _ _).mp h
    exact ⟨_, ms', c', ⟨rfl, attach_unitReference _⟩, hms, hc', hmore⟩
  | @given _ ts ns name v hns hname hv =>
    simp only [List.append_assoc, List.cons_append] at hc
    obtain ⟨c', hc', hiff⟩ :=
      readEnumMembers_member_iff (hns.areAnnotations .empty) (.valued hname hv) hseparates hc
    obtain ⟨ms', hms, hmore⟩ := (hiff _ _).mp h
    refine ⟨_, ms', c', ⟨rfl, ?_⟩, hms, hc', hmore⟩
    rw [annotationsOf_append, attach_unitReference]
    rfl

/-- However the tokens of members are taken apart, the parts make these members. -/
theorem AreParts.makes (h : AreParts s style ts ps) (hms : AreMembers s (IsPart s style) ts ms) :
    List.Forall₂ Part.Makes ps ms := by
  -- The grammar alone does not say where a part ends. But the reader takes these tokens apart in
  -- one way only, and it gives `ms`.
  have hread {c : Cursor} {tail fin : List Kind} (hc : c.kinds = ts ++ tail)
      (hgives : (readParts s style c).Gives ms fin) : List.Forall₂ Part.Makes ps ms := by
    clear hms
    induction h generalizing c ms with
    | close hns =>
      rw [readParts_close hns hc hgives]
      exact .nil
    | part hp hseparates _ ih =>
      simp only [List.append_assoc] at hc
      obtain ⟨e, ms', c', hmakes, rfl, hc', hmore⟩ := readParts_part hp hseparates hc hgives
      exact .cons hmakes (ih hc' hmore)
  obtain ⟨c, hc⟩ := exists_cursor (ts ++ [])
  exact hread hc (readParts_of_areMembers hms hc)

end ShapeModel.Document
