import ShapeModel.Proofs.Document.Key
import ShapeModel.Proofs.Document.Run

/-!
# Entries of shapes

What the entries of a draft look like, as long as the document never spells a key that reading
itself writes: the type is that of the declaration, and traits stand in key order, both those of the
shape and those of its members. Traits can then be applied to every entry.
-/

namespace ShapeModel.Document

set_option autoImplicit false

open Token (Kind)

/-- The place of the traits is free, or holds them in key order. -/
def HoldsTraits (fields : Value.Fields) : Prop :=
  ∀ v, Entries.find? "traits" fields = some v → ∃ ts, v = .object ts ∧ Entries.Ascending ts

/-- The place of the members is free, or holds them in key order, each with a place for traits. -/
def HoldsMembers (fields : Value.Fields) : Prop :=
  ∀ v, Entries.find? "members" fields = some v → ∃ ms, v = .object ms ∧ Entries.Ascending ms ∧
    ∀ name member, Entries.find? name ms = some (.object member) → HoldsTraits member

/-- The entry of a shape that was declared with this keyword. -/
structure IsEntry (keyword : String) (fields : Value.Fields) : Prop where
  kind : Entries.find? "type" fields = some (.string keyword)
  declared : keyword ≠ "apply"
  traits : HoldsTraits fields
  members : BodyStyle.ofKeyword keyword ≠ .fields → HoldsMembers fields

/-- Every shape has the entry of a declaration. -/
def HasEntries (shapes : Table String Value) : Prop :=
  ∀ name v, shapes.get? name = some v → ∃ keyword fields, v = .object fields ∧
    IsEntry keyword fields

/-- No key is spelled that is written when a shape is read. -/
def LeavesSlots (brackets : List Char) (ts : List Kind) : Prop :=
  "traits" ∉ spelledKeys brackets ts ∧ "type" ∉ spelledKeys brackets ts

/-- The traits of an entry. -/
def traitFields (fields : Value.Fields) : Value.Fields :=
  match Entries.find? "traits" fields with
  | some (.object ts) => ts
  | _ => []

/-- An entry with these traits. -/
def withTraits (ts fields : Value.Fields) : Value.Fields :=
  Entries.insert "traits" (.object ts) fields

variable {fields : Value.Fields}

theorem find?_withTraits {key : String} (h : key ≠ "traits") (ts fields : Value.Fields) :
    Entries.find? key (withTraits ts fields) = Entries.find? key fields :=
  Entries.find?_insert_of_ne h _ _

theorem HoldsTraits.of_find?_eq_none (h : Entries.find? "traits" fields = none) :
    HoldsTraits fields := by
  intro v hv
  cases h.symm.trans hv

theorem HoldsTraits.ascending (h : HoldsTraits fields) :
    Entries.Ascending (traitFields fields) := by
  rw [traitFields]
  split
  · next ts hts =>
    obtain ⟨us, hus, hasc⟩ := h _ hts
    cases hus
    exact hasc
  · exact .nil

theorem holdsTraits_withTraits {ts : Value.Fields} (h : Entries.Ascending ts)
    (fields : Value.Fields) : HoldsTraits (withTraits ts fields) := by
  intro v hv
  rw [withTraits, Entries.find?_insert_self] at hv
  exact ⟨ts, (Option.some.inj hv).symm, h⟩

theorem HoldsTraits.attach_eq {as : Annotations} (h : HoldsTraits fields)
    (has : as.isEmpty = false) :
    attach as (.object fields) =
      .ok (.object (withTraits (Entries.insertAll (traitFields fields) as.entries) fields)) := by
  rw [attach, if_neg (by simp [has]), traitFields]
  cases hfind : Entries.find? "traits" fields with
  | none => rfl
  | some v =>
    obtain ⟨ts, rfl, _⟩ := h v hfind
    rfl

/-- Attaching nothing gives the value as it is, and attaching traits an object with these. -/
theorem attach_eq_ok {as : Annotations} {v entry : Value} (h : attach as v = .ok entry) :
    (as.isEmpty = true ∧ entry = v) ∨ ∃ fields ts, v = .object fields ∧
      entry = .object (withTraits (Entries.insertAll ts as.entries) fields) ∧
      (Entries.find? "traits" fields).getD .emptyObject = .object ts := by
  unfold attach at h
  split at h
  · next hempty => exact .inl ⟨hempty, (Except.ok.inj h).symm⟩
  split at h
  · next fields =>
    split at h
    · next ts hts => exact .inr ⟨fields, ts, rfl, (Except.ok.inj h).symm, hts⟩
    · cases h
  · cases h

theorem HoldsTraits.of_attach {as : Annotations} {v : Value} {entry : Value.Fields}
    (h : attach as v = .ok (.object entry))
    (hv : ∀ fields, v = .object fields → HoldsTraits fields) : HoldsTraits entry := by
  rcases attach_eq_ok h with ⟨-, hentry⟩ | ⟨fields, ts, rfl, hentry, hts⟩
  · exact hv entry hentry.symm
  · cases hentry
    refine holdsTraits_withTraits (Entries.Ascending.insertAll ?_ _) fields
    cases hfind : Entries.find? "traits" fields with
    | none =>
      rw [hfind] at hts
      cases hts
      exact .nil
    | some w =>
      obtain ⟨us, rfl, hasc⟩ := hv fields rfl w hfind
      rw [hfind] at hts
      cases hts
      exact hasc

theorem holdsTraits_ofList_attached {key : String} {v : Value} {as : Annotations}
    (hkey : "traits" ≠ key) :
    HoldsTraits (Entries.ofList ((key, v) ::
      (if as.isEmpty then [] else [("traits", .object as.entries)]))) := by
  cases hempty : as.isEmpty with
  | true =>
    apply HoldsTraits.of_find?_eq_none
    simp [Entries.ofList, Entries.insert, Entries.find?, hkey]
  | false => exact holdsTraits_withTraits as.ascending _

theorem updateField_eq_ok_iff {key : String} {f : Value → Except SyntaxError Value}
    {missing : SyntaxError} {v v' : Value} :
    Draft.updateField key f missing v = .ok v' ↔ ∃ fields w w', v = .object fields ∧
      Entries.find? key fields = some w ∧ f w = .ok w' ∧
      v' = .object (Entries.insert key w' fields) := by
  constructor
  · intro h
    unfold Draft.updateField at h
    split at h
    · next fields =>
      split at h
      · next w hw =>
        cases hf : f w with
        | error e =>
          rw [hf] at h
          cases h
        | ok w' =>
          rw [hf] at h
          exact ⟨fields, w, w', rfl, hw, hf, (Except.ok.inj h).symm⟩
      · cases h
    · cases h
  · rintro ⟨fields, w, w', rfl, hw, hf, rfl⟩
    rw [Draft.updateField]
    simp only [hw, hf]
    rfl

variable {keyword : String}

theorem isEntry_shapeEntry (hkeyword : keyword ≠ "apply") (as : Annotations) :
    IsEntry keyword (Draft.shapeEntry keyword as) where
  kind := by
    rw [Draft.shapeEntry]
    cases as.isEmpty <;> simp [Entries.ofList, Entries.find?_insert]
  declared := hkeyword
  traits := holdsTraits_ofList_attached (by decide)
  members := by
    intro _ v hv
    rw [Draft.shapeEntry] at hv
    cases hempty : as.isEmpty <;> simp [hempty, Entries.ofList, Entries.find?_insert] at hv

theorem HoldsTraits.insert {key : String} (h : HoldsTraits fields) (hkey : "traits" ≠ key)
    (v : Value) : HoldsTraits (Entries.insert key v fields) := by
  intro w hw
  rw [Entries.find?_insert_of_ne hkey] at hw
  exact h w hw

theorem IsEntry.withTraits {ts : Value.Fields} (h : IsEntry keyword fields)
    (hts : Entries.Ascending ts) : IsEntry keyword (withTraits ts fields) where
  kind := (find?_withTraits (by decide) ts fields).trans h.kind
  declared := h.declared
  traits := holdsTraits_withTraits hts fields
  members := by
    intro hstyle v hv
    rw [find?_withTraits (by decide)] at hv
    exact h.members hstyle v hv

theorem IsEntry.insert_members {ms : Value.Fields} (h : IsEntry keyword fields)
    (hms : BodyStyle.ofKeyword keyword ≠ .fields → Entries.Ascending ms ∧
      ∀ name member, Entries.find? name ms = some (.object member) → HoldsTraits member) :
    IsEntry keyword (Entries.insert "members" (.object ms) fields) where
  kind := (Entries.find?_insert_of_ne (by decide) _ _).trans h.kind
  declared := h.declared
  traits := h.traits.insert (by decide) _
  members := by
    intro hstyle v hv
    rw [Entries.find?_insert_self] at hv
    exact ⟨ms, (Option.some.inj hv).symm, hms hstyle⟩

theorem IsEntry.insertAll {ms : Value.Fields} (h : IsEntry keyword fields)
    (hstyle : BodyStyle.ofKeyword keyword = .fields)
    (hms : ∀ e ∈ ms, e.1 ≠ "traits" ∧ e.1 ≠ "type") :
    IsEntry keyword (Entries.insertAll fields ms) where
  kind := (Entries.find?_insertAll_of_forall_ne fun e he => (hms e he).2).trans h.kind
  declared := h.declared
  traits := by
    intro v hv
    rw [Entries.find?_insertAll_of_forall_ne fun e he => (hms e he).1] at hv
    exact h.traits v hv
  members := fun hne => absurd hstyle hne

theorem holdsTraits_of_isValue {s : Scope} {ctx : Context} {brackets : List Char} {ts : List Kind}
    (h : IsValue s ctx ts (.object fields)) (hts : "traits" ∉ spelledKeys brackets ts) :
    HoldsTraits fields := by
  apply HoldsTraits.of_find?_eq_none
  cases hfind : Entries.find? "traits" fields with
  | none => rfl
  | some v => exact absurd (mem_spelledKeys_of_isValue h hfind (by decide)) hts

theorem IsEntry.of_isBody {s : Scope} {entry : Value.Fields} {brackets : List Char}
    {ts : List Kind} (h : IsBody s entry (.ofKeyword keyword) ts fields)
    (hentry : IsEntry keyword entry) (hts : LeavesSlots brackets ts) : IsEntry keyword fields := by
  generalize hstyle : BodyStyle.ofKeyword keyword = style at h
  cases h with
  | @enumeration ts ms hms =>
    refine hentry.insert_members fun _ => ⟨Entries.ascending_ofList ms, ?_⟩
    intro name member hmember
    have hmem := Entries.mem_of_mem_ofList (Entries.mem_of_find? hmember)
    obtain ⟨as, has⟩ := exists_enumMember_of_mem hms hmem
    cases has
    exact holdsTraits_ofList_attached (by decide)
  | @members ts ms hms =>
    refine hentry.insert_members fun _ => ⟨Entries.ascending_ofList ms, ?_⟩
    intro name member hmember
    have hmem := Entries.mem_of_mem_ofList (Entries.mem_of_find? hmember)
    obtain ⟨_, as, us, v, hattach, hv, hkeys⟩ := mem_spelledKeys_of_areMembers hms hmem
    refine .of_attach hattach ?_
    rintro fields rfl
    exact holdsTraits_of_isValue hv fun hkey => hts.1 (mem_spelledKeys_cons (hkeys _ hkey))
  | @fields ts ms hms =>
    refine hentry.insertAll hstyle ?_
    intro e he
    have hkey : e.1 ∈ spelledKeys brackets (.grammar '{' :: ts) :=
      mem_spelledKeys_cons (mem_spelledKeys_of_areMembers hms he).1
    exact ⟨fun h => hts.1 (h ▸ hkey), fun h => hts.2 (h ▸ hkey)⟩

theorem HasEntries.insert {shapes : Table String Value} (h : HasEntries shapes)
    (hfields : IsEntry keyword fields) (name : String) :
    HasEntries (shapes.insert name (.object fields)) := by
  intro name' v hv
  by_cases hname : name' = name
  · rw [hname, Table.get?_insert_self] at hv
    exact ⟨keyword, fields, (Option.some.inj hv).symm, hfields⟩
  · rw [Table.get?_insert_of_ne _ hname] at hv
    exact h name' v hv

theorem IsEntry.of_applyTo {id : Identifier} {as : Annotations} {entry : Value}
    (h : IsEntry keyword fields) (hentry : Draft.applyTo id as (.object fields) = .ok entry) :
    ∃ fields', entry = .object fields' ∧ IsEntry keyword fields' := by
  unfold Draft.applyTo at hentry
  split at hentry
  · cases has : as.isEmpty with
    | true =>
      rw [attach, if_pos has] at hentry
      exact ⟨fields, (Except.ok.inj hentry).symm, h⟩
    | false =>
      rw [h.traits.attach_eq has] at hentry
      exact ⟨_, (Except.ok.inj hentry).symm, h.withTraits (h.traits.ascending.insertAll _)⟩
  · next m hm =>
    obtain ⟨_, v, v', hobject, hv, hupdate, rfl⟩ := updateField_eq_ok_iff.mp hentry
    cases hobject
    obtain ⟨ms, w, w', rfl, hw, hattach, rfl⟩ := updateField_eq_ok_iff.mp hupdate
    refine ⟨_, rfl, h.insert_members fun hstyle => ?_⟩
    obtain ⟨_, hms, hasc, hmembers⟩ := h.members hstyle _ hv
    cases hms
    refine ⟨hasc.insert m w', ?_⟩
    intro name member hmember
    by_cases hname : name = m
    · rw [hname, Entries.find?_insert_self] at hmember
      cases hmember
      refine .of_attach hattach ?_
      rintro fields rfl
      exact hmembers m fields hw
    · rw [Entries.find?_insert_of_ne hname] at hmember
      exact hmembers name member hmember

theorem LeavesSlots.mono {brackets brackets' : List Char} {ts us : List Kind}
    (h : LeavesSlots brackets ts)
    (hsub : ∀ key ∈ spelledKeys brackets' us, key ∈ spelledKeys brackets ts) :
    LeavesSlots brackets' us :=
  ⟨fun hkey => h.1 (hsub _ hkey), fun hkey => h.2 (hsub _ hkey)⟩

namespace Draft

variable {d d' : Draft} {brackets : List Char} {ts ks rest : List Kind}

theorem IsShape.hasEntries (h : IsShape d (.word keyword :: ts) d') (hkeyword : keyword ≠ "apply")
    (hd : HasEntries d.shapes) (hts : LeavesSlots brackets (.word keyword :: ts)) :
    HasEntries d'.shapes := by
  have hentry := isEntry_shapeEntry hkeyword d.pending
  cases h with
  | bare => exact hd.insert hentry _
  | @body _ name ts entry _ hbody =>
    have hbody : IsEntry keyword entry := by
      refine @IsEntry.of_isBody _ _ _ _ brackets _ hbody hentry (hts.mono ?_)
      intro key hkey
      exact mem_spelledKeys_cons (mem_spelledKeys_cons hkey)
    exact hd.insert hbody _

theorem IsApplication.hasEntries (h : IsApplication d ts d') (hd : HasEntries d.shapes) :
    HasEntries d'.shapes := by
  cases h with
  | intro hentry _ _ hentry' =>
    obtain ⟨keyword, fields, rfl, hfields⟩ := hd _ _ hentry
    obtain ⟨fields', rfl, hfields'⟩ := hfields.of_applyTo hentry'
    exact hd.insert hfields' _

theorem IsStatement.hasEntries (h : IsStatement d ts d') (hd : HasEntries d.shapes)
    (hts : LeavesSlots brackets ts) : HasEntries d'.shapes := by
  cases h with
  | application _ happlication => exact happlication.hasEntries hd
  | shape hkeyword _ hshape =>
    refine hshape.hasEntries ?_ hd hts
    rintro rfl
    exact hkeyword (by decide)
  | _ => exact hd

theorem IsStep.hasEntries (h : IsStep d ks rest d') (hd : HasEntries d.shapes)
    (hks : LeavesSlots brackets ks) : HasEntries d'.shapes := by
  cases h with
  | @statement ts fin rest d' hs =>
    have hts : LeavesSlots brackets ts := hks.mono fun _ => mem_spelledKeys_append_left
    exact hs.hasEntries hd hts
  | applied => exact hd

theorem Reads.hasEntries (h : Reads d ks d') (hd : HasEntries d.shapes)
    (hks : LeavesSlots brackets ks) : HasEntries d'.shapes := by
  induction h with
  | done => exact hd
  | newline _ _ ih => exact ih hd (hks.mono fun key hkey => mem_spelledKeys_cons hkey)
  | documentation _ ih =>
    refine ih hd (hks.mono fun key hkey => ?_)
    exact mem_spelledKeys_cons (mem_spelledKeys_of_dropBreak hkey)
  | step hstep _ ih =>
    exact ih (hstep.hasEntries hd hks) (hks.mono fun _ => hstep.mem_spelledKeys)

theorem mem_spelledKeys_of_dropBreaks {key : String}
    (h : key ∈ spelledKeys brackets (dropBreaks ks)) : key ∈ spelledKeys brackets ks := by
  obtain ⟨breaks, hbreaks, hks⟩ := exists_breaks ks
  rw [hks]
  exact (Balanced.of_breaks hbreaks).mem_spelledKeys h

theorem ReadsDocument.hasEntries (h : ReadsDocument d ks d') (hd : HasEntries d.shapes)
    (hks : LeavesSlots brackets ks) : HasEntries d'.shapes := by
  induction h with
  | @version d d' v fin rest hends _ ih =>
    refine ih hd (hks.mono fun key hkey => ?_)
    have hrest := hends.balanced.mem_spelledKeys (mem_spelledKeys_of_dropBreaks hkey)
    exact mem_spelledKeys_cons (mem_spelledKeys_cons (mem_spelledKeys_cons hrest))
  | statements _ hreads => exact hreads.hasEntries hd hks

end Draft

end ShapeModel.Document
