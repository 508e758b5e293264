import ShapeModel.Document.Body
import ShapeModel.Proofs.Document.Annotation

/-!
# The grammar of shape bodies

Members between braces, each with its annotations and with what separates it from the next. The two
kinds of body differ in what a single member looks like only, so they are one grammar.
-/

namespace ShapeModel.Document

set_option autoImplicit false

open Token (Kind)

variable {s : Scope}

/-- The tokens of a member with a value, behind its annotations. -/
inductive IsMember (s : Scope) (as : Annotations) : List Kind → String → Value → Prop
  | valued {k : Kind} {name : String} {ts : List Kind} {v entry : Value} : IsKey k name →
      startsAnnotation k = false → IsValue s .body ts v → attach as v = .ok entry →
      IsMember s as (k :: .grammar ':' :: ts) name entry

/-- The tokens of a member of an enumeration, behind its annotations. -/
inductive IsEnumMember (s : Scope) (as : Annotations) : List Kind → String → Value → Prop
  | named {name : String} : isTraitWord name = false →
      IsEnumMember s as [.word name] name (enumMember as)
  | valued {name : String} {ts : List Kind} {v : Value} : isTraitWord name = false →
      IsValue s .traitValue ts v →
      IsEnumMember s as (.word name :: .grammar '=' :: ts) name
        (enumMember (as.insert Trait.Kind.enumValue.name v))

/-- What stands between a member and the rest of a body. -/
inductive Separates : List Kind → List Kind → Prop
  | comma (rest : List Kind) : Separates [.grammar ','] rest
  | newline (rest : List Kind) : Separates [.newline] rest
  | closing (rest : List Kind) : Separates [] (.grammar '}' :: rest)

/-- The tokens of members, through the closing brace. -/
inductive AreMembers (s : Scope) (isMember : Annotations → List Kind → String → Value → Prop) :
    List Kind → Value.Fields → Prop
  | close {as : Annotations} {ts : List Kind} : AreAnnotations s .empty ts as →
      as.isEmpty = true → AreMembers s isMember (ts ++ [.grammar '}']) []
  | member {as : Annotations} {ts us sep rest : List Kind} {name : String} {entry : Value}
      {ms : Value.Fields} : AreAnnotations s .empty ts as → isMember as us name entry →
      Separates sep rest → AreMembers s isMember rest ms →
      AreMembers s isMember (ts ++ (us ++ (sep ++ rest))) ((name, entry) :: ms)

/-- The tokens of a body, and what it makes of the entry of the shape. -/
inductive IsBody (s : Scope) (entry : Value.Fields) : BodyStyle → List Kind → Value.Fields → Prop
  | enumeration {ts : List Kind} {ms : Value.Fields} : AreMembers s (IsEnumMember s) ts ms →
      IsBody s entry .enumeration (.grammar '{' :: ts)
        (Entries.insert "members" (.ofPairs ms) entry)
  | members {ts : List Kind} {ms : Value.Fields} : AreMembers s (IsMember s) ts ms →
      IsBody s entry .members (.grammar '{' :: ts) (Entries.insert "members" (.ofPairs ms) entry)
  | fields {ts : List Kind} {ms : Value.Fields} : AreMembers s (IsMember s) ts ms →
      IsBody s entry .fields (.grammar '{' :: ts) (Entries.insertAll entry ms)

theorem IsBody.head_eq {entry entry' : Value.Fields} {style : BodyStyle} {ts : List Kind}
    (h : IsBody s entry style ts entry') : ∃ us, ts = .grammar '{' :: us := by
  cases h <;> exact ⟨_, rfl⟩

theorem closeBody_gives_iff {as : Annotations} {c : Cursor} {h : c.isGrammar '}' = true}
    {ms : Value.Fields} {rest : List Kind} :
    (closeBody as c h).Gives ms rest ↔
      as.isEmpty = true ∧ ms = [] ∧ c.kinds = .grammar '}' :: rest := by
  obtain ⟨ks, hks⟩ := List.head?_eq_some_iff.mp (Cursor.isGrammar_iff.mp h)
  rw [closeBody]
  split
  · next hempty =>
    rw [Outcome.gives_ok_iff, Cursor.kinds_advance_of_cons hks, hks]
    simp [hempty, eq_comm]
  · next hempty => simp [Outcome.not_gives_failed, hempty]

theorem exists_separates {c : Cursor} {rest : List Kind}
    (h : (c.expectSeparator '}').Gives () rest) :
    ∃ sep, c.kinds = sep ++ rest ∧ Separates sep rest := by
  rcases (Cursor.expectSeparator_gives_iff (by decide)).mp h with h | h | ⟨rfl, h⟩
  · exact ⟨_, h, .comma rest⟩
  · exact ⟨_, h, .newline rest⟩
  · obtain ⟨ks, hks⟩ := List.head?_eq_some_iff.mp h
    exact ⟨[], rfl, hks ▸ .closing ks⟩

theorem Separates.of_append {sep ks rest : List Kind} (h : Separates sep (ks ++ rest))
    (hks : ks ≠ []) : Separates sep ks := by
  obtain ⟨k, ks, rfl⟩ := List.exists_cons_of_ne_nil hks
  cases h with
  | comma => exact .comma _
  | newline => exact .newline _
  | closing => exact .closing _

theorem AreMembers.ne_nil {isMember : Annotations → List Kind → String → Value → Prop}
    {ts : List Kind} {ms : Value.Fields} (h : AreMembers s isMember ts ms) : ts ≠ [] := by
  induction h with
  | close => simp
  | member _ _ _ _ ih => simp [ih]

theorem Separates.gives {c : Cursor} {sep rest us : List Kind} (h : Separates sep rest)
    (hc : c.kinds = sep ++ (rest ++ us)) : (c.expectSeparator '}').Gives () (rest ++ us) := by
  rw [Cursor.expectSeparator_gives_iff (by decide)]
  cases h with
  | comma => exact .inl hc
  | newline => exact .inr (.inl hc)
  | closing => exact .inr (.inr ⟨hc, rfl⟩)

theorem areMembers_of_readMembers (c : Cursor) {ms : Value.Fields} {rest : List Kind}
    (h : (readMembers s c).Gives ms rest) :
    ∃ ts, c.kinds = ts ++ rest ∧ AreMembers s (IsMember s) ts ms := by
  rw [readMembers] at h
  split at h
  · exact absurd h Outcome.not_gives_failed
  next as c₁ h₁ has =>
  obtain ⟨ts, hts, hannotations, hstop⟩ :=
    areAnnotations_of_readAnnotations _ (Outcome.gives_of_eq has)
  split at h
  · next hclose =>
    split at h
    · exact absurd h Outcome.not_gives_failed
    next ms' c₂ h₂ hread =>
    obtain ⟨rfl, rfl⟩ := Outcome.gives_ok_iff.mp h
    obtain ⟨hempty, rfl, hks⟩ := closeBody_gives_iff.mp (Outcome.gives_of_eq hread)
    refine ⟨_, ?_, .close hannotations hempty⟩
    rw [hts, hks, List.append_assoc, List.singleton_append]
  split at h
  · exact absurd h Outcome.not_gives_failed
  next name c₂ h₂ hname =>
  split at h
  · exact absurd h Outcome.not_gives_failed
  next c₃ h₃ hcolon =>
  split at h
  · exact absurd h Outcome.not_gives_failed
  next v c₄ h₄ hvalue =>
  split at h
  · exact absurd h Outcome.not_gives_failed
  next entry hentry =>
  split at h
  · exact absurd h Outcome.not_gives_failed
  next c₅ h₅ hseparator =>
  split at h
  · exact absurd h Outcome.not_gives_failed
  next ms' c₆ h₆ hmore =>
  obtain ⟨rfl, rfl⟩ := Outcome.gives_ok_iff.mp h
  obtain ⟨k, hk, hks⟩ := Cursor.expectKey_gives_iff.mp (Outcome.gives_of_eq hname)
  have hcolon := Cursor.expectGrammar_gives_iff.mp (Outcome.gives_of_eq hcolon)
  obtain ⟨us, hus, hv⟩ := isValue_of_readValue _ (Outcome.gives_of_eq hvalue)
  obtain ⟨sep, hsep, hseparates⟩ := exists_separates (Outcome.gives_of_eq hseparator)
  obtain ⟨more, hrest, hmembers⟩ := areMembers_of_readMembers _ (Outcome.gives_of_eq hmore)
  rw [hrest] at hseparates
  refine ⟨_, ?_, .member hannotations (.valued hk (hstop k ?_) hv hentry)
    (hseparates.of_append hmembers.ne_nil) hmembers⟩
  · rw [hts, hks, hcolon, hus, hsep, hrest]
    simp only [List.append_assoc, List.cons_append]
  · rw [hks, List.head?_cons]
    rfl
termination_by c.left

theorem isEnumValue_of_readEnumValue {as as' : Annotations} {c : Cursor} {rest : List Kind}
    (h : (readEnumValue s as c).Gives as' rest) (name : String) (hname : isTraitWord name = false) :
    ∃ ts, c.kinds = ts ++ rest ∧ IsEnumMember s as (.word name :: ts) name (enumMember as') := by
  rw [readEnumValue] at h
  split at h
  · next hequals =>
    obtain ⟨ks, hks⟩ := List.head?_eq_some_iff.mp (Cursor.isGrammar_iff.mp hequals)
    split at h
    · exact absurd h Outcome.not_gives_failed
    next v c₁ h₁ hvalue =>
    obtain ⟨rfl, rfl⟩ := Outcome.gives_ok_iff.mp h
    obtain ⟨ts, hts, hv⟩ := isValue_of_readValue _ (Outcome.gives_of_eq hvalue)
    rw [Cursor.kinds_advance_of_cons hks] at hts
    exact ⟨_, by rw [hks, hts]; rfl, .valued hname hv⟩
  · obtain ⟨rfl, rfl⟩ := Outcome.gives_ok_iff.mp h
    exact ⟨[], rfl, .named hname⟩

theorem areMembers_of_readEnumMembers (c : Cursor) {ms : Value.Fields} {rest : List Kind}
    (h : (readEnumMembers s c).Gives ms rest) :
    ∃ ts, c.kinds = ts ++ rest ∧ AreMembers s (IsEnumMember s) ts ms := by
  rw [readEnumMembers] at h
  split at h
  · exact absurd h Outcome.not_gives_failed
  next as c₁ h₁ has =>
  obtain ⟨ts, hts, hannotations, hstop⟩ :=
    areAnnotations_of_readAnnotations _ (Outcome.gives_of_eq has)
  split at h
  · next hclose =>
    split at h
    · exact absurd h Outcome.not_gives_failed
    next ms' c₂ h₂ hread =>
    obtain ⟨rfl, rfl⟩ := Outcome.gives_ok_iff.mp h
    obtain ⟨hempty, rfl, hks⟩ := closeBody_gives_iff.mp (Outcome.gives_of_eq hread)
    refine ⟨_, ?_, .close hannotations hempty⟩
    rw [hts, hks, List.append_assoc, List.singleton_append]
  split at h
  · exact absurd h Outcome.not_gives_failed
  next name c₂ h₂ hname =>
  split at h
  · exact absurd h Outcome.not_gives_failed
  next as' c₃ h₃ hvalue =>
  split at h
  · exact absurd h Outcome.not_gives_failed
  next c₄ h₄ hseparator =>
  split at h
  · exact absurd h Outcome.not_gives_failed
  next ms' c₅ h₅ hmore =>
  obtain ⟨rfl, rfl⟩ := Outcome.gives_ok_iff.mp h
  have hks := Cursor.expectWord_gives_iff.mp (Outcome.gives_of_eq hname)
  have hword : isTraitWord name = false := hstop (.word name) (by rw [hks]; rfl)
  obtain ⟨us, hus, hmember⟩ :=
    isEnumValue_of_readEnumValue (Outcome.gives_of_eq hvalue) name hword
  obtain ⟨sep, hsep, hseparates⟩ := exists_separates (Outcome.gives_of_eq hseparator)
  obtain ⟨more, hrest, hmembers⟩ := areMembers_of_readEnumMembers _ (Outcome.gives_of_eq hmore)
  rw [hrest] at hseparates
  refine ⟨_, ?_, .member hannotations hmember (hseparates.of_append hmembers.ne_nil) hmembers⟩
  rw [hts, hks, hus, hsep, hrest]
  simp only [List.append_assoc, List.cons_append]
termination_by c.left

theorem isBody_of_readBody {style : BodyStyle} {entry entry' : Value.Fields} {c : Cursor}
    {rest : List Kind} (h : (readBody s style entry c).Gives entry' rest) :
    ∃ ts, c.kinds = ts ++ rest ∧ IsBody s entry style ts entry' := by
  rw [readBody] at h
  split at h
  · exact absurd h Outcome.not_gives_failed
  next c₁ h₁ hopen =>
  have hks := Cursor.expectGrammar_gives_iff.mp (Outcome.gives_of_eq hopen)
  rw [hks]
  cases style with
  | enumeration =>
    simp only [] at h
    split at h
    · exact absurd h Outcome.not_gives_failed
    next ms c₂ h₂ hread =>
    obtain ⟨rfl, rfl⟩ := Outcome.gives_ok_iff.mp h
    obtain ⟨ts, hts, hms⟩ := areMembers_of_readEnumMembers _ (Outcome.gives_of_eq hread)
    exact ⟨_, by rw [hts]; rfl, .enumeration hms⟩
  | members =>
    simp only [] at h
    split at h
    · exact absurd h Outcome.not_gives_failed
    next ms c₂ h₂ hread =>
    obtain ⟨rfl, rfl⟩ := Outcome.gives_ok_iff.mp h
    obtain ⟨ts, hts, hms⟩ := areMembers_of_readMembers _ (Outcome.gives_of_eq hread)
    exact ⟨_, by rw [hts]; rfl, .members hms⟩
  | fields =>
    simp only [] at h
    split at h
    · exact absurd h Outcome.not_gives_failed
    next ms c₂ h₂ hread =>
    obtain ⟨rfl, rfl⟩ := Outcome.gives_ok_iff.mp h
    obtain ⟨ts, hts, hms⟩ := areMembers_of_readMembers _ (Outcome.gives_of_eq hread)
    exact ⟨_, by rw [hts]; rfl, .fields hms⟩

/-- Annotations right before the end of a body, which are none at all. -/
theorem readAnnotations_before_close {as : Annotations} {ts : List Kind}
    (h : AreAnnotations s .empty ts as) {c : Cursor} {rest : List Kind}
    (hc : c.kinds = ts ++ [.grammar '}'] ++ rest) :
    (readAnnotations s .empty c).Gives as (.grammar '}' :: rest) := by
  rw [List.append_assoc] at hc
  refine readAnnotations_of_areAnnotations h hc ?_ (by simp)
  intro k hk
  cases hk
  rfl

theorem readAnnotations_before_member {as : Annotations} {ts us : List Kind} {k : Kind}
    {name : String} (h : AreAnnotations s .empty ts as) (hk : IsKey k name)
    (hstop : startsAnnotation k = false) {c : Cursor} (hc : c.kinds = ts ++ k :: us) :
    (readAnnotations s .empty c).Gives as (k :: us) := by
  refine readAnnotations_of_areAnnotations h hc ?_ hk.head?_ne
  intro k' hk'
  cases hk'
  exact hstop

theorem not_isGrammar_of_isKey {k : Kind} {name : String} (hk : IsKey k name) {ch : Char}
    {c : Cursor} {us : List Kind} (hc : c.kinds = k :: us) : ¬c.isGrammar ch = true := by
  rw [Cursor.isGrammar_iff, hc]
  exact hk.head?_ne

section

variable {as : Annotations} {c : Cursor} {ts us sep rest : List Kind}

theorem readMembers_close_iff (h : AreAnnotations s .empty ts as) (hempty : as.isEmpty = true)
    (hc : c.kinds = ts ++ [.grammar '}'] ++ rest) {ms : Value.Fields} {fin : List Kind} :
    (readMembers s c).Gives ms fin ↔ ms = [] ∧ rest = fin := by
  obtain ⟨c₁, h₁, has, hc₁⟩ := readAnnotations_before_close h hc
  have hclose : c₁.isGrammar '}' = true := by
    rw [Cursor.isGrammar_iff, hc₁, List.head?_cons]
  obtain ⟨c₂, h₂, hread, hc₂⟩ := (closeBody_gives_iff (h := hclose)).mpr ⟨hempty, rfl, hc₁⟩
  rw [readMembers]
  simp only [has, hclose, hread]
  rw [← hc₂, eq_comm (a := ms)]
  exact Outcome.gives_ok_iff

/-- A member that stands in front of the rest of a body is read first. -/
theorem readMembers_member_iff {k : Kind} {name : String} {v : Value} {tail : List Kind}
    (h : AreAnnotations s .empty ts as) (hk : IsKey k name) (hstop : startsAnnotation k = false)
    (hv : IsValue s .body us v) (hseparates : Separates sep rest)
    (hc : c.kinds = ts ++ k :: .grammar ':' :: (us ++ (sep ++ (rest ++ tail)))) :
    ∃ c', c'.kinds = rest ++ tail ∧ ∀ ms fin, (readMembers s c).Gives ms fin ↔
      ∃ entry ms', attach as v = .ok entry ∧ ms = (name, entry) :: ms' ∧
        (readMembers s c').Gives ms' fin := by
  obtain ⟨c₁, h₁, has, hc₁⟩ := readAnnotations_before_member h hk hstop hc
  obtain ⟨c₂, h₂, hname, hc₂⟩ := Cursor.expectKey_gives_iff.mpr ⟨k, hk, hc₁⟩
  obtain ⟨c₃, h₃, hcolon, hc₃⟩ := Cursor.expectGrammar_gives_iff.mpr hc₂
  obtain ⟨c₄, h₄, hread, hc₄⟩ := readValue_of_isValue hv hc₃
  obtain ⟨c₅, h₅, hseparator, hc₅⟩ := hseparates.gives hc₄
  refine ⟨c₅, hc₅, fun ms fin => ?_⟩
  rw [readMembers]
  simp only [has, not_isGrammar_of_isKey hk hc₁, hname, hcolon, hread]
  cases attach as v with
  | error e =>
    refine iff_of_false Outcome.not_gives_failed ?_
    rintro ⟨_, _, ⟨⟩, _⟩
  | ok entry =>
    simp only [hseparator]
    cases readMembers s c₅ with
    | failed e c₆ =>
      refine iff_of_false Outcome.not_gives_failed ?_
      rintro ⟨_, _, _, _, hmore⟩
      exact Outcome.not_gives_failed hmore
    | ok ms' c₆ h₆ =>
      constructor
      · intro hgives
        obtain ⟨rfl, hfin⟩ := Outcome.gives_ok_iff.mp hgives
        exact ⟨entry, ms', rfl, rfl, Outcome.gives_ok_iff.mpr ⟨rfl, hfin⟩⟩
      · rintro ⟨_, _, ⟨⟩, rfl, hmore⟩
        obtain ⟨rfl, hfin⟩ := Outcome.gives_ok_iff.mp hmore
        exact Outcome.gives_ok_iff.mpr ⟨rfl, hfin⟩

end

theorem readMembers_of_areMembers {ts : List Kind} {ms : Value.Fields}
    (h : AreMembers s (IsMember s) ts ms) {c : Cursor} {rest : List Kind}
    (hc : c.kinds = ts ++ rest) : (readMembers s c).Gives ms rest := by
  induction h generalizing c with
  | close hannotations hempty =>
    exact (readMembers_close_iff hannotations hempty hc).mpr ⟨rfl, rfl⟩
  | member hannotations hmember hseparates hmore ih =>
    obtain ⟨hk, hstop, hv, hentry⟩ := hmember
    simp only [List.append_assoc, List.cons_append] at hc
    obtain ⟨c', hc', hiff⟩ := readMembers_member_iff hannotations hk hstop hv hseparates hc
    exact (hiff _ _).mpr ⟨_, _, hentry, rfl, ih hc'⟩

theorem Separates.head?_ne {sep rest us : List Kind} (h : Separates sep rest) :
    (sep ++ (rest ++ us)).head? ≠ some (.grammar '=') := by
  cases h <;> simp

theorem readEnumValue_of_isEnumMember {as : Annotations} {ts : List Kind} {name : String}
    {entry : Value} (h : IsEnumMember s as ts name entry) :
    isTraitWord name = false ∧ ∃ us as', ts = .word name :: us ∧ entry = enumMember as' ∧
      ∀ {c : Cursor} {rest : List Kind}, c.kinds = us ++ rest →
        rest.head? ≠ some (.grammar '=') → (readEnumValue s as c).Gives as' rest := by
  cases h with
  | named hname =>
    refine ⟨hname, [], as, rfl, rfl, ?_⟩
    intro c rest hc hrest
    rw [readEnumValue]
    split
    · next hequals =>
      rw [Cursor.isGrammar_iff, hc] at hequals
      exact absurd hequals hrest
    · exact Outcome.gives_ok_iff.mpr ⟨rfl, hc⟩
  | @valued _ us v hname hv =>
    refine ⟨hname, _, _, rfl, rfl, ?_⟩
    intro c rest hc _
    have hequals : c.isGrammar '=' = true := by
      rw [Cursor.isGrammar_iff, hc]
      rfl
    obtain ⟨c₁, h₁, hread, hc₁⟩ := readValue_of_isValue hv (Cursor.kinds_advance_of_cons hc)
    rw [readEnumValue]
    simp only [hequals, hread]
    exact Outcome.gives_ok_iff.mpr ⟨rfl, hc₁⟩

section

variable {as as' : Annotations} {c : Cursor} {ts us sep rest : List Kind}

theorem readEnumMembers_close_iff (h : AreAnnotations s .empty ts as) (hempty : as.isEmpty = true)
    (hc : c.kinds = ts ++ [.grammar '}'] ++ rest) {ms : Value.Fields} {fin : List Kind} :
    (readEnumMembers s c).Gives ms fin ↔ ms = [] ∧ rest = fin := by
  obtain ⟨c₁, h₁, has, hc₁⟩ := readAnnotations_before_close h hc
  have hclose : c₁.isGrammar '}' = true := by
    rw [Cursor.isGrammar_iff, hc₁, List.head?_cons]
  obtain ⟨c₂, h₂, hread, hc₂⟩ := (closeBody_gives_iff (h := hclose)).mpr ⟨hempty, rfl, hc₁⟩
  rw [readEnumMembers]
  simp only [has, hclose, hread]
  rw [← hc₂, eq_comm (a := ms)]
  exact Outcome.gives_ok_iff

theorem readEnumMembers_member_iff {name : String} {entry : Value} {tail : List Kind}
    (h : AreAnnotations s .empty ts as) (hmember : IsEnumMember s as us name entry)
    (hseparates : Separates sep rest) (hc : c.kinds = ts ++ (us ++ (sep ++ (rest ++ tail)))) :
    ∃ c', c'.kinds = rest ++ tail ∧ ∀ ms fin, (readEnumMembers s c).Gives ms fin ↔
      ∃ ms', ms = (name, entry) :: ms' ∧ (readEnumMembers s c').Gives ms' fin := by
  obtain ⟨hname, us, as', rfl, rfl, hread⟩ := readEnumValue_of_isEnumMember hmember
  obtain ⟨c₁, h₁, has, hc₁⟩ := readAnnotations_before_member h (.word name) hname hc
  obtain ⟨c₂, h₂, hword, hc₂⟩ := Cursor.expectWord_gives_iff.mpr hc₁
  obtain ⟨c₃, h₃, hvalue, hc₃⟩ := hread hc₂ hseparates.head?_ne
  obtain ⟨c₄, h₄, hseparator, hc₄⟩ := hseparates.gives hc₃
  refine ⟨c₄, hc₄, fun ms fin => ?_⟩
  rw [readEnumMembers]
  simp only [has, not_isGrammar_of_isKey (.word name) hc₁, hword, hvalue, hseparator]
  cases readEnumMembers s c₄ with
  | failed e c₅ =>
    refine iff_of_false Outcome.not_gives_failed ?_
    rintro ⟨_, _, hmore⟩
    exact Outcome.not_gives_failed hmore
  | ok ms' c₅ h₅ =>
    constructor
    · intro hgives
      obtain ⟨rfl, hfin⟩ := Outcome.gives_ok_iff.mp hgives
      exact ⟨ms', rfl, Outcome.gives_ok_iff.mpr ⟨rfl, hfin⟩⟩
    · rintro ⟨_, rfl, hmore⟩
      obtain ⟨rfl, hfin⟩ := Outcome.gives_ok_iff.mp hmore
      exact Outcome.gives_ok_iff.mpr ⟨rfl, hfin⟩

end

theorem readEnumMembers_of_areMembers {ts : List Kind} {ms : Value.Fields}
    (h : AreMembers s (IsEnumMember s) ts ms) {c : Cursor} {rest : List Kind}
    (hc : c.kinds = ts ++ rest) : (readEnumMembers s c).Gives ms rest := by
  induction h generalizing c with
  | close hannotations hempty =>
    exact (readEnumMembers_close_iff hannotations hempty hc).mpr ⟨rfl, rfl⟩
  | member hannotations hmember hseparates hmore ih =>
    simp only [List.append_assoc] at hc
    obtain ⟨c', hc', hiff⟩ := readEnumMembers_member_iff hannotations hmember hseparates hc
    exact (hiff _ _).mpr ⟨_, rfl, ih hc'⟩

theorem readBody_of_isBody {style : BodyStyle} {entry entry' : Value.Fields} {ts : List Kind}
    (h : IsBody s entry style ts entry') {c : Cursor} {rest : List Kind}
    (hc : c.kinds = ts ++ rest) : (readBody s style entry c).Gives entry' rest := by
  rw [readBody]
  cases h with
  | enumeration hms =>
    obtain ⟨c₁, h₁, hopen, hc₁⟩ := Cursor.expectGrammar_gives_iff.mpr hc
    obtain ⟨c₂, h₂, hread, hc₂⟩ := readEnumMembers_of_areMembers hms hc₁
    simp only [hopen, hread]
    exact Outcome.gives_ok_iff.mpr ⟨rfl, hc₂⟩
  | members hms =>
    obtain ⟨c₁, h₁, hopen, hc₁⟩ := Cursor.expectGrammar_gives_iff.mpr hc
    obtain ⟨c₂, h₂, hread, hc₂⟩ := readMembers_of_areMembers hms hc₁
    simp only [hopen, hread]
    exact Outcome.gives_ok_iff.mpr ⟨rfl, hc₂⟩
  | fields hms =>
    obtain ⟨c₁, h₁, hopen, hc₁⟩ := Cursor.expectGrammar_gives_iff.mpr hc
    obtain ⟨c₂, h₂, hread, hc₂⟩ := readMembers_of_areMembers hms hc₁
    simp only [hopen, hread]
    exact Outcome.gives_ok_iff.mpr ⟨rfl, hc₂⟩

end ShapeModel.Document
