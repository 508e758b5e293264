import ShapeModel.Proofs.Document.Movement
import ShapeModel.Proofs.Document.Scope
import ShapeModel.Proofs.Document.Value
import ShapeModel.Proofs.Table.Entries

/-!
# What tokens denote

The value grammar with the denotation of each of its forms: words by the place where they stand,
objects by the last value of each key. A value is read exactly where tokens denote one, and the
cursor is left behind them; elsewhere reading fails, at one of the tokens or at their end.
-/

namespace ShapeModel

set_option autoImplicit false

theorem Entries.find?_insertAll {κ α : Type} [Ord κ] [Std.TransOrd κ] [Std.LawfulEqOrd κ]
    [DecidableEq κ] (k : κ) (es new : List (κ × α)) :
    find? k (insertAll es new) = (new.reverse.lookup k).or (find? k es) := by
  induction new generalizing es with
  | nil => rfl
  | cons e new ih =>
    obtain ⟨j, a⟩ := e
    rw [insertAll_cons, ih, find?_insert, List.reverse_cons, List.lookup_append, Option.or_assoc]
    congr 1
    by_cases hk : k = j
    · simp [hk]
    · have hbeq : (k == j) = false := beq_false_of_ne hk
      simp [hk, List.lookup_cons, hbeq]

namespace Document

open Token (Kind)

/-- The object of these pairs: each key has the value it is given last. -/
structure IsObject (pairs fields : Value.Fields) : Prop where
  ascending : Entries.Ascending fields
  last : ∀ k, Entries.find? k fields = pairs.reverse.lookup k

theorem isObject_iff {pairs fields : Value.Fields} :
    IsObject pairs fields ↔ fields = Entries.ofList pairs := by
  have hfind (k : String) : Entries.find? k (Entries.ofList pairs) = pairs.reverse.lookup k := by
    rw [Entries.ofList, Entries.find?_insertAll, Entries.find?_nil, Option.or_none]
  constructor
  · intro h
    exact h.ascending.ext (Entries.ascending_ofList pairs) fun k => by rw [h.last, hfind]
  · rintro rfl
    exact ⟨Entries.ascending_ofList pairs, hfind⟩

/-- What a word denotes. Only three words denote the same everywhere, and no others denote anything
in metadata. -/
inductive WordDenotes (s : Scope) : Context → String → Value → Prop
  | true {ctx : Context} : WordDenotes s ctx "true" (.bool true)
  | false {ctx : Context} : WordDenotes s ctx "false" (.bool false)
  | null {ctx : Context} : WordDenotes s ctx "null" .null
  | reference {w name : String} : w ∉ ["true", "false", "null"] → s.Qualifies w name →
      WordDenotes s .body w (.object [("target", .string name)])
  | name {w name : String} : w ∉ ["true", "false", "null"] → s.Qualifies w name →
      WordDenotes s .traitValue w (.string name)

mutual

/-- The tokens denote a value. -/
inductive Denotes (s : Scope) (ctx : Context) : List Kind → Value → Prop
  | string (text : String) : Denotes s ctx [.string text] (.string text)
  | number {text : String} {n : Number} : Number.ofText? text.toList = some n →
      Denotes s ctx [.number text] (.number n)
  | word {w : String} {v : Value} : WordDenotes s ctx w v → Denotes s ctx [.word w] v
  | object {breaks ts : List Kind} {pairs fields : Value.Fields} : Breaks breaks →
      DenoteEntries s ctx ts pairs → IsObject pairs fields →
      Denotes s ctx (.grammar '{' :: (breaks ++ (ts ++ [.grammar '}']))) (.object fields)
  | array {breaks ts : List Kind} {items : List Value} : Breaks breaks →
      DenoteItems s ctx ts items →
      Denotes s ctx (.grammar '[' :: (breaks ++ (ts ++ [.grammar ']']))) (.array items)

/-- The tokens denote named values, each with the line breaks and the comma that may follow it. -/
inductive DenoteEntries (s : Scope) (ctx : Context) : List Kind → Value.Fields → Prop
  | nil : DenoteEntries s ctx [] []
  | cons {gap ts gap' comma gap'' rest : List Kind} {k : Kind} {key : String} {v : Value}
      {pairs : Value.Fields} : IsKey k key → Breaks gap → Denotes s ctx ts v → Breaks gap' →
      OptionalComma comma → Breaks gap'' → DenoteEntries s ctx rest pairs →
      DenoteEntries s ctx
        (k :: .grammar ':' :: (gap ++ (ts ++ (gap' ++ (comma ++ (gap'' ++ rest))))))
        ((key, v) :: pairs)

/-- The tokens denote values, each with the line breaks and the comma that may follow it. -/
inductive DenoteItems (s : Scope) (ctx : Context) : List Kind → List Value → Prop
  | nil : DenoteItems s ctx [] []
  | cons {ts gap comma gap' rest : List Kind} {v : Value} {items : List Value} :
      Denotes s ctx ts v → Breaks gap → OptionalComma comma → Breaks gap' →
      DenoteItems s ctx rest items →
      DenoteItems s ctx (ts ++ (gap ++ (comma ++ (gap' ++ rest)))) (v :: items)

end

variable {s : Scope} {ctx : Context}

theorem wordDenotes_of_wordValue {w : String} {v : Value} (h : wordValue s ctx w = .ok v) :
    WordDenotes s ctx w v := by
  unfold wordValue at h
  split at h
  · next hw =>
    cases h
    exact hw ▸ .true
  split at h
  · next hw =>
    cases h
    exact hw ▸ .false
  split at h
  · next hw =>
    cases h
    exact hw ▸ .null
  next htrue hfalse hnull =>
  have hw : w ∉ ["true", "false", "null"] := by simp [htrue, hfalse, hnull]
  cases ctx <;> cases h
  · exact .reference hw (Scope.qualify_eq_iff.mp rfl)
  · exact .name hw (Scope.qualify_eq_iff.mp rfl)

theorem wordValue_of_not_mem {w name : String} (hw : w ∉ ["true", "false", "null"])
    (hname : s.Qualifies w name) :
    wordValue s .body w = .ok (reference name) ∧
      wordValue s .traitValue w = .ok (.string name) := by
  simp only [List.mem_cons, List.not_mem_nil, or_false, not_or] at hw
  obtain ⟨htrue, hfalse, hnull⟩ := hw
  simp only [wordValue, if_neg htrue, if_neg hfalse, if_neg hnull, Scope.qualify_eq_iff.mpr hname,
    and_self]

theorem wordValue_eq_ok_iff {w : String} {v : Value} :
    wordValue s ctx w = .ok v ↔ WordDenotes s ctx w v := by
  constructor
  · exact wordDenotes_of_wordValue
  · intro h
    cases h with
    | reference hw hname => exact (wordValue_of_not_mem hw hname).1
    | name hw hname => exact (wordValue_of_not_mem hw hname).2
    | _ => rfl

theorem atom?_eq_some_ok_iff {k : Kind} {v : Value} :
    atom? s ctx k = some (.ok v) ↔
      (∃ text, k = .string text ∧ v = .string text) ∨
      (∃ text n, k = .number text ∧ Number.ofText? text.toList = some n ∧ v = .number n) ∨
      ∃ w, k = .word w ∧ WordDenotes s ctx w v := by
  cases k with
  | string text => simp [atom?, eq_comm]
  | number text =>
    rw [atom?]
    cases hn : Number.ofText? text.toList <;> simp [hn, eq_comm]
  | word w => simp [atom?, wordValue_eq_ok_iff]
  | _ => simp [atom?]

mutual

theorem denotes_of_isValue {ts : List Kind} {v : Value} (h : IsValue s ctx ts v) :
    Denotes s ctx ts v := by
  cases h with
  | atom ha =>
    rcases atom?_eq_some_ok_iff.mp ha with ⟨text, rfl, rfl⟩ | ⟨text, n, rfl, hn, rfl⟩ | ⟨w, rfl, hw⟩
    · exact .string text
    · exact .number hn
    · exact .word hw
  | object hfields =>
    obtain ⟨breaks, us, rfl, hbreaks, hus⟩ := exists_denoteEntries hfields rfl
    exact .object hbreaks hus (isObject_iff.mpr rfl)
  | array hitems =>
    obtain ⟨breaks, us, rfl, hbreaks, hus⟩ := exists_denoteItems hitems
    exact .array hbreaks hus
termination_by ts.length

theorem exists_denoteEntries {close : Char} {ts : List Kind} {pairs : Value.Fields}
    (h : AreFields s ctx close ts pairs) (hclose : close = '}') :
    ∃ breaks us, ts = breaks ++ (us ++ [.grammar '}']) ∧ Breaks breaks ∧
      DenoteEntries s ctx us pairs := by
  subst hclose
  cases h with
  | close hbreaks => exact ⟨_, [], rfl, hbreaks, .nil⟩
  | @field _ breaks gap ts gap' comma rest k key v pairs hbreaks hk hgap hv hgap' hcomma hmore =>
    obtain ⟨gap'', us, rfl, hgap'', hus⟩ := exists_denoteEntries hmore rfl
    refine ⟨breaks, _, ?_, hbreaks,
      .cons hk hgap (denotes_of_isValue hv) hgap' hcomma hgap'' hus⟩
    simp only [List.append_assoc, List.cons_append]
termination_by ts.length

theorem exists_denoteItems {ts : List Kind} {items : List Value} (h : AreItems s ctx ts items) :
    ∃ breaks us, ts = breaks ++ (us ++ [.grammar ']']) ∧ Breaks breaks ∧
      DenoteItems s ctx us items := by
  cases h with
  | close hbreaks => exact ⟨_, [], rfl, hbreaks, .nil⟩
  | @item breaks ts gap comma rest v items hbreaks hv hgap hcomma hmore =>
    have hvalue := List.length_pos_iff.mpr hv.ne_nil
    obtain ⟨gap', us, rfl, hgap', hus⟩ := exists_denoteItems hmore
    refine ⟨breaks, _, ?_, hbreaks, .cons (denotes_of_isValue hv) hgap hcomma hgap' hus⟩
    simp only [List.append_assoc]
termination_by ts.length

end

theorem Denotes.ne_nil {ts : List Kind} {v : Value} (h : Denotes s ctx ts v) : ts ≠ [] := by
  cases h <;> simp

mutual

theorem isValue_of_denotes {ts : List Kind} {v : Value} (h : Denotes s ctx ts v) :
    IsValue s ctx ts v := by
  cases h with
  | string text => exact .atom rfl
  | number hn => exact .atom (atom?_eq_some_ok_iff.mpr (.inr (.inl ⟨_, _, rfl, hn, rfl⟩)))
  | word hw => exact .atom (atom?_eq_some_ok_iff.mpr (.inr (.inr ⟨_, rfl, hw⟩)))
  | object hbreaks hpairs hobject =>
    rw [isObject_iff.mp hobject]
    exact .object (areFields_of_denoteEntries hpairs hbreaks)
  | array hbreaks hitems => exact .array (areItems_of_denoteItems hitems hbreaks)
termination_by 2 * ts.length

theorem areFields_of_denoteEntries {close : Char} {ts breaks : List Kind} {pairs : Value.Fields}
    (h : DenoteEntries s ctx ts pairs) (hbreaks : Breaks breaks) :
    AreFields s ctx close (breaks ++ (ts ++ [.grammar close])) pairs := by
  cases h with
  | nil => exact .close hbreaks
  | cons hk hgap hv hgap' hcomma hgap'' hmore =>
    have hrest : AreFields s ctx close _ _ := areFields_of_denoteEntries hmore hgap''
    have hfields := AreFields.field hbreaks hk hgap (isValue_of_denotes hv) hgap' hcomma hrest
    simpa only [List.append_assoc, List.cons_append] using hfields
termination_by 2 * ts.length + 1

theorem areItems_of_denoteItems {ts breaks : List Kind} {items : List Value}
    (h : DenoteItems s ctx ts items) (hbreaks : Breaks breaks) :
    AreItems s ctx (breaks ++ (ts ++ [.grammar ']'])) items := by
  cases h with
  | nil => exact .close hbreaks
  | cons hv hgap hcomma hgap' hmore =>
    have hvalue := List.length_pos_iff.mpr hv.ne_nil
    have hitems := AreItems.item hbreaks (isValue_of_denotes hv) hgap hcomma
      (areItems_of_denoteItems hmore hgap')
    simpa only [List.append_assoc] using hitems
termination_by 2 * ts.length + 1

end

theorem isValue_iff_denotes {ts : List Kind} {v : Value} :
    IsValue s ctx ts v ↔ Denotes s ctx ts v :=
  ⟨denotes_of_isValue, isValue_of_denotes⟩

theorem readValue_eq_ok_iff {c : Cursor} {v : Value} {n : Nat} (hn : n ≤ c.left) :
    (∃ h, readValue s ctx c = .ok v (c.skip n) h) ↔ Denotes s ctx (c.kinds.take n) v := by
  have hkinds := c.length_kinds
  constructor
  · rintro ⟨h, hread⟩
    obtain ⟨ts, hts, hv⟩ := readValue_gives_iff.mp (Outcome.gives_of_eq hread)
    have hlength := congrArg List.length hts
    rw [List.length_append, Cursor.length_kinds, Cursor.length_kinds, Cursor.left_skip] at hlength
    have htake : c.kinds.take n = ts := by
      rw [hts, List.take_left' (by omega)]
    rw [htake]
    exact isValue_iff_denotes.mp hv
  · intro h
    have hsplit : c.kinds = c.kinds.take n ++ c.kinds.drop n := (List.take_append_drop n _).symm
    obtain ⟨rest, hrest, hread, hrestKinds⟩ :=
      readValue_gives_iff.mpr ⟨_, hsplit, isValue_iff_denotes.mpr h⟩
    obtain ⟨k, hk, hcursor⟩ := @movesTo_readValue s ctx c
    rw [hread] at hcursor
    obtain rfl : rest = c.skip k := hcursor
    have hlength := congrArg List.length hrestKinds
    rw [Cursor.length_kinds, Cursor.left_skip, List.length_drop, hkinds] at hlength
    obtain rfl : k = n := by omega
    exact ⟨hrest, hread⟩

/-- A value is read, with the cursor moved on, exactly where the tokens passed denote it. Where none
denote a value, reading fails, and the cursor stays among the tokens. -/
theorem readValue_eq_ok_iff_denotes (s : Scope) (ctx : Context) (c : Cursor) :
    (∀ n ≤ c.left, ∀ v,
      (∃ h, readValue s ctx c = .ok v (c.skip n) h) ↔ Denotes s ctx (c.kinds.take n) v) ∧
    ((∃ n ≤ c.left, ∃ e, readValue s ctx c = .failed e (c.skip n)) ↔
      ¬∃ n ≤ c.left, ∃ v, Denotes s ctx (c.kinds.take n) v) := by
  refine ⟨fun n hn v => readValue_eq_ok_iff hn, ?_, fun hnone => ?_⟩
  · rintro ⟨n, hn, e, hread⟩ ⟨k, hk, v, hv⟩
    obtain ⟨h, hread'⟩ := (readValue_eq_ok_iff hk).mpr hv
    cases hread.symm.trans hread'
  · obtain ⟨n, hn, hcursor⟩ := @movesTo_readValue s ctx c
    cases hread : readValue s ctx c with
    | ok v rest h =>
      rw [hread] at hcursor
      obtain rfl : rest = c.skip n := hcursor
      exact absurd ⟨n, hn, v, (readValue_eq_ok_iff hn).mp ⟨h, hread⟩⟩ hnone
    | failed e rest =>
      rw [hread] at hcursor
      obtain rfl : rest = c.skip n := hcursor
      exact ⟨n, hn, e, rfl⟩

end Document

end ShapeModel
