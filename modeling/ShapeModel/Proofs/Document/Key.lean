import ShapeModel.Proofs.Document.Statement
import ShapeModel.Proofs.Table.Entries

/-!
# Spelled keys

The keys that a list of tokens spells in braces, be it in the body of a shape or in an object. Each
derivation of the grammar closes the brackets it opens, so the keys of its parts are found where
the brackets around them say.
-/

namespace ShapeModel.Document

set_option autoImplicit false

open Token (Kind)

/-- The brackets that are open behind a token, the innermost first. -/
def openBehind (brackets : List Char) : Kind → List Char
  | .grammar ch =>
    if ch = '{' ∨ ch = '[' ∨ ch = '(' then ch :: brackets
    else if ch = '}' ∨ ch = ']' ∨ ch = ')' then brackets.tail
    else brackets
  | _ => brackets

/-- The text of a token that can name a field. -/
def keyText? : Kind → Option String
  | .word w => some w
  | .string s => some s
  | _ => none

/-- The names before a colon where the innermost open bracket is a brace. -/
def spelledKeys (brackets : List Char) : List Kind → List String
  | [] => []
  | k :: ks =>
    let later := spelledKeys (openBehind brackets k) ks
    if brackets.head? = some '{' ∧ ks.head? = some (.grammar ':') then
      (keyText? k).toList ++ later
    else later

/-- The brackets that are opened are closed. -/
def Balanced (ts : List Kind) : Prop :=
  ∀ brackets, ts.foldl openBehind brackets = brackets

/-- One bracket more is closed than are opened. -/
def Closes (ts : List Kind) : Prop :=
  ∀ ch brackets, ts.foldl openBehind (ch :: brackets) = brackets

variable {brackets : List Char} {key : String} {ts us : List Kind}

theorem mem_spelledKeys_cons {k : Kind} (h : key ∈ spelledKeys (openBehind brackets k) ts) :
    key ∈ spelledKeys brackets (k :: ts) := by
  rw [spelledKeys]
  split
  · exact List.mem_append_right _ h
  · exact h

theorem mem_spelledKeys_append_right (h : key ∈ spelledKeys (ts.foldl openBehind brackets) us) :
    key ∈ spelledKeys brackets (ts ++ us) := by
  induction ts generalizing brackets with
  | nil => exact h
  | cons k ts ih => exact mem_spelledKeys_cons (ih h)

theorem mem_spelledKeys_append_left (h : key ∈ spelledKeys brackets ts) :
    key ∈ spelledKeys brackets (ts ++ us) := by
  induction ts generalizing brackets with
  | nil => cases h
  | cons k ts ih =>
    rw [spelledKeys] at h
    split at h
    · next hcolon =>
      obtain ⟨ks, rfl⟩ := List.head?_eq_some_iff.mp hcolon.2
      rw [List.cons_append, spelledKeys, if_pos ⟨hcolon.1, rfl⟩]
      rcases List.mem_append.mp h with h | h
      · exact List.mem_append_left _ h
      · exact List.mem_append_right _ (ih h)
    · exact mem_spelledKeys_cons (ih h)

theorem mem_spelledKeys_of_isKey {k : Kind} (h : IsKey k key) :
    key ∈ spelledKeys ('{' :: brackets) (k :: .grammar ':' :: ts) := by
  rw [spelledKeys, if_pos ⟨rfl, rfl⟩]
  cases h <;> exact List.mem_append_left _ List.mem_cons_self

namespace Balanced

theorem nil : Balanced [] := fun _ => rfl

theorem append (hts : Balanced ts) (hus : Balanced us) : Balanced (ts ++ us) := by
  intro brackets
  rw [List.foldl_append, hts, hus]

theorem append_closes (hts : Balanced ts) (hus : Closes us) : Closes (ts ++ us) := by
  intro ch brackets
  rw [List.foldl_append, hts, hus]

theorem mem_spelledKeys (hts : Balanced ts) (h : key ∈ spelledKeys brackets us) :
    key ∈ spelledKeys brackets (ts ++ us) := by
  apply mem_spelledKeys_append_right
  rwa [hts]

theorem of_breaks (h : Breaks ts) : Balanced ts := by
  intro brackets
  induction ts with
  | nil => rfl
  | cons k ts ih =>
    obtain rfl := h k List.mem_cons_self
    exact ih fun l hl => h l (List.mem_cons_of_mem _ hl)

theorem of_optionalComma (h : OptionalComma ts) : Balanced ts := by
  cases h <;> exact fun _ => rfl

theorem key_colon {k : Kind} (h : IsKey k key) : Balanced [k, .grammar ':'] := by
  cases h <;> exact fun _ => rfl

end Balanced

variable {s : Scope} {ctx : Context}

theorem Balanced.of_atom? {k : Kind} {r : Except SyntaxError Value} (h : atom? s ctx k = some r) :
    Balanced [k] := by
  cases k with
  | grammar ch => cases h
  | _ => exact fun _ => rfl

mutual

theorem balanced_of_isValue {ts : List Kind} {v : Value} (h : IsValue s ctx ts v) :
    Balanced ts := by
  cases h with
  | atom hatom => exact .of_atom? hatom
  | object hfields => exact fun brackets => closes_of_areFields hfields (.inl rfl) '{' brackets
  | array hitems => exact fun brackets => closes_of_areItems hitems '[' brackets
termination_by ts.length

theorem closes_of_areFields {close : Char} {ts : List Kind} {fields : Value.Fields}
    (h : AreFields s ctx close ts fields) (hclose : close = '}' ∨ close = ')') : Closes ts := by
  cases h with
  | close hbreaks =>
    refine (Balanced.of_breaks hbreaks).append_closes fun ch brackets => ?_
    rcases hclose with rfl | rfl <;> rfl
  | field hbreaks hk hgap hv hgap' hcomma hmore =>
    refine (Balanced.of_breaks hbreaks).append_closes ?_
    refine (Balanced.key_colon hk).append_closes ?_
    refine (Balanced.of_breaks hgap).append_closes ?_
    refine (balanced_of_isValue hv).append_closes ?_
    refine (Balanced.of_breaks hgap').append_closes ?_
    exact (Balanced.of_optionalComma hcomma).append_closes (closes_of_areFields hmore hclose)
termination_by ts.length
decreasing_by
  all_goals
    subst_vars
    simp only [List.length_append, List.length_cons]
    omega

theorem closes_of_areItems {ts : List Kind} {items : List Value} (h : AreItems s ctx ts items) :
    Closes ts := by
  cases h with
  | close hbreaks => exact (Balanced.of_breaks hbreaks).append_closes fun _ _ => rfl
  | item hbreaks hv hgap hcomma hmore =>
    refine (Balanced.of_breaks hbreaks).append_closes ?_
    refine (balanced_of_isValue hv).append_closes ?_
    refine (Balanced.of_breaks hgap).append_closes ?_
    exact (Balanced.of_optionalComma hcomma).append_closes (closes_of_areItems hmore)
termination_by ts.length
decreasing_by
  all_goals
    have hvalue := List.length_pos_iff.mpr hv.ne_nil
    have hrest := List.length_pos_iff.mpr hmore.ne_nil
    subst_vars
    simp only [List.length_append]
    omega

end

theorem mem_spelledKeys_of_areFields {fields : Value.Fields} {v : Value}
    (h : AreFields s ctx '}' ts fields) (hmem : (key, v) ∈ fields) :
    key ∈ spelledKeys ('{' :: brackets) ts := by
  induction fields generalizing ts with
  | nil => cases hmem
  | cons field fields ih =>
    cases h with
    | field hbreaks hk hgap hv hgap' hcomma hmore =>
      apply (Balanced.of_breaks hbreaks).mem_spelledKeys
      rcases List.mem_cons.mp hmem with hfield | hmem
      · cases hfield
        exact mem_spelledKeys_of_isKey hk
      · apply (Balanced.key_colon hk).mem_spelledKeys
        apply (Balanced.of_breaks hgap).mem_spelledKeys
        apply (balanced_of_isValue hv).mem_spelledKeys
        apply (Balanced.of_breaks hgap').mem_spelledKeys
        exact (Balanced.of_optionalComma hcomma).mem_spelledKeys (ih hmore hmem)

/-- Words are objects only where they refer to a target. -/
theorem eq_reference_of_atom? {k : Kind} {fields : Value.Fields}
    (h : atom? s ctx k = some (.ok (.object fields))) : ∃ t, .object fields = reference t := by
  cases k with
  | string t => cases h
  | number t =>
    rw [atom?] at h
    split at h <;> cases h
  | word w =>
    have hword : wordValue s ctx w = .ok (.object fields) := Option.some.inj h
    unfold wordValue at hword
    split at hword
    · cases hword
    split at hword
    · cases hword
    split at hword
    · cases hword
    cases ctx with
    | body => exact ⟨_, (Except.ok.inj hword).symm⟩
    | _ => cases hword
  | _ => cases h

/-- The keys of an object are spelled, but for that of a reference. -/
theorem mem_spelledKeys_of_isValue {fields : Value.Fields} {v : Value}
    (h : IsValue s ctx ts (.object fields)) (hfind : Entries.find? key fields = some v)
    (hkey : key ≠ "target") : key ∈ spelledKeys brackets ts := by
  generalize hobject : Value.object fields = o at h
  cases h with
  | atom hatom =>
    subst hobject
    obtain ⟨t, ht⟩ := eq_reference_of_atom? hatom
    cases ht
    simp [Entries.find?, hkey] at hfind
  | object hfields =>
    cases hobject
    have hmem := Entries.mem_of_mem_ofList (Entries.mem_of_find? hfind)
    exact mem_spelledKeys_cons (mem_spelledKeys_of_areFields hfields hmem)
  | array => cases hobject

theorem closes_of_isTraitValue {v : Value} (h : IsTraitValue s ts v) : Closes ts := by
  cases h with
  | fields hfields => exact closes_of_areFields hfields (.inr rfl)
  | value hv hgap =>
    refine (balanced_of_isValue hv).append_closes ?_
    exact (Balanced.of_breaks hgap).append_closes fun _ _ => rfl

theorem balanced_of_isTrait {name : String} {v : Value} (h : IsTrait s ts name v) :
    Balanced ts := by
  cases h with
  | bare => exact fun _ => rfl
  | applied w hgap hv =>
    have hcloses := (Balanced.of_breaks hgap).append_closes (closes_of_isTraitValue hv)
    exact fun brackets => hcloses '(' brackets

theorem balanced_of_areAnnotations {as as' : Annotations} (h : AreAnnotations s as ts as') :
    Balanced ts := by
  induction h with
  | done => exact .nil
  | newline _ ih => exact ih
  | documentation _ ih => exact ih
  | @applied as as' w name v us ts _ htrait _ ih =>
    exact (balanced_of_isTrait htrait).append ih

theorem balanced_of_isMember {as : Annotations} {name : String} {entry : Value}
    (h : IsMember s as ts name entry) : Balanced ts := by
  obtain ⟨hk, _, hv, _⟩ := h
  exact (Balanced.key_colon hk).append (balanced_of_isValue hv)

theorem balanced_of_isEnumMember {as : Annotations} {name : String} {entry : Value}
    (h : IsEnumMember s as ts name entry) : Balanced ts := by
  cases h with
  | named => exact fun _ => rfl
  | valued _ hv => exact fun brackets => balanced_of_isValue hv brackets

theorem closes_of_areMembers {isMember : Annotations → List Kind → String → Value → Prop}
    {ms : Value.Fields} (h : AreMembers s isMember ts ms)
    (hmember : ∀ as us name entry, isMember as us name entry → Balanced us) : Closes ts := by
  induction h with
  | close has => exact (balanced_of_areAnnotations has).append_closes fun _ _ => rfl
  | member has hm hsep _ ih =>
    refine (balanced_of_areAnnotations has).append_closes ?_
    refine (hmember _ _ _ _ hm).append_closes ?_
    refine Balanced.append_closes ?_ ih
    cases hsep <;> exact fun _ => rfl

/-- The names of members are spelled, and so is what their values spell. -/
theorem mem_spelledKeys_of_areMembers {ms : Value.Fields} {name : String} {entry : Value}
    (h : AreMembers s (IsMember s) ts ms) (hmem : (name, entry) ∈ ms) :
    name ∈ spelledKeys ('{' :: brackets) ts ∧
      ∃ as us v, attach as v = .ok entry ∧ IsValue s .body us v ∧
        ∀ key ∈ spelledKeys ('{' :: brackets) us, key ∈ spelledKeys ('{' :: brackets) ts := by
  induction h with
  | close => cases hmem
  | @member as ts us sep rest name' entry' ms has hm hsep _ ih =>
    have hlift (key : String) (hkey : key ∈ spelledKeys ('{' :: brackets) (us ++ (sep ++ rest))) :
        key ∈ spelledKeys ('{' :: brackets) (ts ++ (us ++ (sep ++ rest))) :=
      (balanced_of_areAnnotations has).mem_spelledKeys hkey
    rcases List.mem_cons.mp hmem with hhead | hmem
    · cases hhead
      obtain @⟨k, _, us, v, _, hk, _, hv, hattach⟩ := hm
      refine ⟨hlift _ (mem_spelledKeys_of_isKey hk), as, us, v, hattach, hv, ?_⟩
      intro key hkey
      apply hlift
      exact (Balanced.key_colon hk).mem_spelledKeys (mem_spelledKeys_append_left hkey)
    · obtain ⟨hname, as', us', v, hattach, hv, hkeys⟩ := ih hmem
      have hsep : Balanced sep := by
        cases hsep <;> exact fun _ => rfl
      have hrest (key : String) (hkey : key ∈ spelledKeys ('{' :: brackets) rest) :=
        hlift _ ((balanced_of_isMember hm).mem_spelledKeys (hsep.mem_spelledKeys hkey))
      exact ⟨hrest _ hname, as', us', v, hattach, hv, fun key hkey => hrest _ (hkeys key hkey)⟩

theorem exists_enumMember_of_mem {ms : Value.Fields} {name : String} {entry : Value}
    (h : AreMembers s (IsEnumMember s) ts ms) (hmem : (name, entry) ∈ ms) :
    ∃ as, entry = enumMember as := by
  induction h with
  | close => cases hmem
  | member _ hm _ _ ih =>
    rcases List.mem_cons.mp hmem with hhead | hmem
    · cases hhead
      cases hm <;> exact ⟨_, rfl⟩
    · exact ih hmem

theorem balanced_of_isBody {entry entry' : Value.Fields} {style : BodyStyle}
    (h : IsBody s entry style ts entry') : Balanced ts := by
  intro brackets
  cases h with
  | enumeration hms =>
    exact closes_of_areMembers hms (fun _ _ _ _ => balanced_of_isEnumMember) '{' brackets
  | members hms => exact closes_of_areMembers hms (fun _ _ _ _ => balanced_of_isMember) '{' brackets
  | fields hms => exact closes_of_areMembers hms (fun _ _ _ _ => balanced_of_isMember) '{' brackets

namespace Draft

theorem balanced_of_isShape {d d' : Draft} (h : IsShape d ts d') : Balanced ts := by
  cases h with
  | bare => exact fun _ => rfl
  | body _ hbody => exact fun brackets => balanced_of_isBody hbody brackets

theorem balanced_of_isStatement {d d' : Draft} (h : IsStatement d ts d') : Balanced ts := by
  cases h with
  | space => exact fun _ => rfl
  | metadata _ hk hv => exact fun brackets => by cases hk <;> exact balanced_of_isValue hv brackets
  | use => exact fun _ => rfl
  | application _ happlication =>
    cases happlication with
    | intro _ _ htrait => exact fun brackets => balanced_of_isTrait htrait brackets
  | shape _ _ hshape => exact balanced_of_isShape hshape

theorem Ends.balanced {fin rest : List Kind} (h : Ends fin rest) : Balanced fin := by
  cases h <;> exact fun _ => rfl

theorem mem_spelledKeys_of_dropBreak (h : key ∈ spelledKeys brackets (dropBreak ts)) :
    key ∈ spelledKeys brackets ts := by
  rw [dropBreak] at h
  split at h
  · next hnewline =>
    obtain ⟨us, rfl⟩ := List.head?_eq_some_iff.mp hnewline
    exact mem_spelledKeys_cons h
  · exact h

/-- What a step leaves spells keys of the whole. -/
theorem IsStep.mem_spelledKeys {d d' : Draft} {rest : List Kind} (h : IsStep d ts rest d')
    (hkey : key ∈ spelledKeys brackets rest) : key ∈ spelledKeys brackets ts := by
  cases h with
  | @statement us fin rest d' hs hends =>
    exact (balanced_of_isStatement hs).mem_spelledKeys (hends.balanced.mem_spelledKeys hkey)
  | applied _ htrait =>
    exact (balanced_of_isTrait htrait).mem_spelledKeys (mem_spelledKeys_of_dropBreak hkey)

end Draft

end ShapeModel.Document
