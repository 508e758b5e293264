import ShapeModel.Document.Value
import ShapeModel.Proofs.Document.Cursor

/-!
# The grammar of values

Which tokens spell which value, as a grammar. Reading a value takes a cursor over the tokens that
the grammar derives and leaves the others, whatever they are; it succeeds on nothing else.
-/

namespace ShapeModel.Document

set_option autoImplicit false

open Token (Kind)

/-- A run of line breaks. -/
def Breaks (ks : List Kind) : Prop :=
  ∀ k ∈ ks, k = .newline

/-- A comma, or nothing. -/
inductive OptionalComma : List Kind → Prop
  | absent : OptionalComma []
  | present : OptionalComma [.grammar ',']

mutual

/-- The tokens of a value. -/
inductive IsValue (s : Scope) (ctx : Context) : List Kind → Value → Prop
  | atom {k : Kind} {v : Value} : atom? s ctx k = some (.ok v) → IsValue s ctx [k] v
  | object {ts : List Kind} {fields : Value.Fields} : AreFields s ctx '}' ts fields →
      IsValue s ctx (.grammar '{' :: ts) (.ofPairs fields)
  | array {ts : List Kind} {items : List Value} : AreItems s ctx ts items →
      IsValue s ctx (.grammar '[' :: ts) (.array items)

/-- The tokens of named values, through the closing character. -/
inductive AreFields (s : Scope) (ctx : Context) : Char → List Kind → Value.Fields → Prop
  | close {close : Char} {breaks : List Kind} : Breaks breaks →
      AreFields s ctx close (breaks ++ [.grammar close]) []
  | field {close : Char} {breaks gap ts gap' comma rest : List Kind} {k : Kind} {key : String}
      {v : Value} {fields : Value.Fields} : Breaks breaks → IsKey k key → Breaks gap →
      IsValue s ctx ts v → Breaks gap' → OptionalComma comma → AreFields s ctx close rest fields →
      AreFields s ctx close
        (breaks ++ k :: .grammar ':' :: (gap ++ (ts ++ (gap' ++ (comma ++ rest)))))
        ((key, v) :: fields)

/-- The tokens of the items of an array, through the closing bracket. -/
inductive AreItems (s : Scope) (ctx : Context) : List Kind → List Value → Prop
  | close {breaks : List Kind} : Breaks breaks → AreItems s ctx (breaks ++ [.grammar ']']) []
  | item {breaks ts gap comma rest : List Kind} {v : Value} {items : List Value} :
      Breaks breaks → IsValue s ctx ts v → Breaks gap → OptionalComma comma →
      AreItems s ctx rest items →
      AreItems s ctx (breaks ++ (ts ++ (gap ++ (comma ++ rest)))) (v :: items)

end

theorem Breaks.nil : Breaks [] := by
  intro k hk
  cases hk

theorem exists_breaks (ks : List Kind) :
    ∃ breaks, Breaks breaks ∧ ks = breaks ++ dropBreaks ks := by
  refine ⟨ks.takeWhile (· = .newline), ?_, List.takeWhile_append_dropWhile.symm⟩
  intro k hk
  have hall := List.all_eq_true.mp (List.all_takeWhile (p := (· = .newline)) (l := ks)) k hk
  exact of_decide_eq_true hall

theorem dropBreaks_append {breaks : List Kind} (h : Breaks breaks) (ks : List Kind) :
    dropBreaks (breaks ++ ks) = dropBreaks ks := by
  induction breaks with
  | nil => rfl
  | cons k breaks ih =>
    obtain rfl := h k List.mem_cons_self
    exact ih fun l hl => h l (List.mem_cons_of_mem _ hl)

theorem dropBreaks_dropBreaks (ks : List Kind) : dropBreaks (dropBreaks ks) = dropBreaks ks := by
  obtain ⟨breaks, hbreaks, hks⟩ := exists_breaks ks
  conv => rhs; rw [hks, dropBreaks_append hbreaks]

theorem exists_optionalComma (c : Cursor) :
    ∃ comma, OptionalComma comma ∧
      c.skipNewlines.kinds = comma ++ (c.skipNewlines.skipGrammar ',').kinds := by
  rw [Cursor.kinds_skipGrammar]
  split
  · next h =>
    obtain ⟨ks, hks⟩ := List.head?_eq_some_iff.mp h
    exact ⟨_, .present, by rw [hks]; rfl⟩
  · exact ⟨_, .absent, rfl⟩

/-- What is left behind a comma that may stand there. -/
theorem kinds_skipGrammar_comma {c : Cursor} {comma ks : List Kind} (hcomma : OptionalComma comma)
    (hks : (dropBreaks ks).head? ≠ some (.grammar ','))
    (h : dropBreaks c.kinds = dropBreaks (comma ++ ks)) :
    dropBreaks (c.skipNewlines.skipGrammar ',').kinds = dropBreaks ks := by
  rw [Cursor.kinds_skipGrammar, Cursor.kinds_skipNewlines, h]
  cases hcomma with
  | absent => rw [List.nil_append, if_neg hks, dropBreaks_dropBreaks]
  | present => rfl

variable {s : Scope} {ctx : Context}

mutual

/-- What was read is a value, and what is left follows its tokens. -/
theorem isValue_of_readValue (c : Cursor) {v : Value} {rest : List Kind}
    (h : (readValue s ctx c).Gives v rest) : ∃ ts, c.kinds = ts ++ rest ∧ IsValue s ctx ts v := by
  rw [readValue] at h
  split at h
  · exact absurd h Outcome.not_gives_failed
  next k hk =>
  have hlt := Cursor.left_advance_lt hk
  have hadvance := Cursor.kinds_advance c
  rw [Cursor.peek?_eq] at hk
  obtain ⟨ks, hks⟩ := List.head?_eq_some_iff.mp hk
  rw [hks, List.tail_cons] at hadvance
  split at h
  · next hbrace =>
    split at h
    · next fields c₁ h₁ hfields =>
      obtain ⟨rfl, rfl⟩ := Outcome.gives_ok_iff.mp h
      obtain ⟨ts, hts, hderived⟩ := areFields_of_readFields _ (Outcome.gives_of_eq hfields)
      exact ⟨_, by rw [hks, hbrace, ← hadvance, hts]; rfl, .object hderived⟩
    · exact absurd h Outcome.not_gives_failed
  split at h
  · next hbracket =>
    split at h
    · next items c₁ h₁ hitems =>
      obtain ⟨rfl, rfl⟩ := Outcome.gives_ok_iff.mp h
      obtain ⟨ts, hts, hderived⟩ := areItems_of_readItems _ (Outcome.gives_of_eq hitems)
      exact ⟨_, by rw [hks, hbracket, ← hadvance, hts]; rfl, .array hderived⟩
    · exact absurd h Outcome.not_gives_failed
  split at h
  · next a ha =>
    obtain ⟨rfl, rfl⟩ := Outcome.gives_ok_iff.mp h
    exact ⟨[k], by rw [hks, hadvance]; rfl, .atom ha⟩
  · exact absurd h Outcome.not_gives_failed
  · exact absurd h Outcome.not_gives_failed
termination_by 2 * c.left

theorem areFields_of_readFields (c : Cursor) {close : Char} {fields : Value.Fields}
    {rest : List Kind} (h : (readFields s ctx close c).Gives fields rest) :
    ∃ ts, c.kinds = ts ++ rest ∧ AreFields s ctx close ts fields := by
  obtain ⟨breaks, hbreaks, hkinds⟩ := exists_breaks c.kinds
  rw [← Cursor.kinds_skipNewlines] at hkinds
  have h₀ := c.left_skipNewlines_le
  rw [readFields] at h
  split at h
  · next hclose =>
    obtain ⟨rfl, hrest⟩ := Outcome.gives_ok_iff.mp h
    obtain ⟨ks, hks⟩ := List.head?_eq_some_iff.mp (Cursor.isGrammar_iff.mp hclose)
    rw [Cursor.kinds_advance_of_cons hks] at hrest
    refine ⟨_, ?_, .close hbreaks⟩
    rw [hkinds, hks, hrest, List.append_assoc]
    rfl
  split at h
  · exact absurd h Outcome.not_gives_failed
  next key c₁ h₁ hkey =>
  split at h
  · exact absurd h Outcome.not_gives_failed
  next c₂ h₂ hcolon =>
  split at h
  · exact absurd h Outcome.not_gives_failed
  next v c₃ h₃ hvalue =>
  split at h
  · exact absurd h Outcome.not_gives_failed
  next fields' c₄ h₄ hfields =>
  obtain ⟨rfl, rfl⟩ := Outcome.gives_ok_iff.mp h
  obtain ⟨k, hk, hkind⟩ := Cursor.expectKey_gives_iff.mp (Outcome.gives_of_eq hkey)
  have hcolon := Cursor.expectGrammar_gives_iff.mp (Outcome.gives_of_eq hcolon)
  obtain ⟨gap, hgap, hgapped⟩ := exists_breaks c₂.kinds
  have h₂' := c₂.left_skipNewlines_le
  obtain ⟨ts, hts, hv⟩ := isValue_of_readValue _ (Outcome.gives_of_eq hvalue)
  obtain ⟨gap', hgap', hgapped'⟩ := exists_breaks c₃.kinds
  have h₃' := c₃.left_skipNewlines_le
  have h₃'' := c₃.skipNewlines.left_skipGrammar_le ','
  obtain ⟨more, hmore, hderived⟩ := areFields_of_readFields _ (Outcome.gives_of_eq hfields)
  obtain ⟨comma, hcomma, hcommaed⟩ := exists_optionalComma c₃
  refine ⟨_, ?_, .field hbreaks hk hgap hv hgap' hcomma hderived⟩
  rw [Cursor.kinds_skipNewlines] at hts hcommaed
  rw [hkinds, hkind, hcolon, hgapped, hts, hgapped', hcommaed, hmore]
  simp only [List.append_assoc, List.cons_append]
termination_by 2 * c.left + 1

theorem areItems_of_readItems (c : Cursor) {items : List Value} {rest : List Kind}
    (h : (readItems s ctx c).Gives items rest) :
    ∃ ts, c.kinds = ts ++ rest ∧ AreItems s ctx ts items := by
  obtain ⟨breaks, hbreaks, hkinds⟩ := exists_breaks c.kinds
  rw [← Cursor.kinds_skipNewlines] at hkinds
  have h₀ := c.left_skipNewlines_le
  rw [readItems] at h
  split at h
  · next hclose =>
    obtain ⟨rfl, hrest⟩ := Outcome.gives_ok_iff.mp h
    obtain ⟨ks, hks⟩ := List.head?_eq_some_iff.mp (Cursor.isGrammar_iff.mp hclose)
    rw [Cursor.kinds_advance_of_cons hks] at hrest
    refine ⟨_, ?_, .close hbreaks⟩
    rw [hkinds, hks, hrest, List.append_assoc]
    rfl
  split at h
  · exact absurd h Outcome.not_gives_failed
  next v c₁ h₁ hvalue =>
  split at h
  · exact absurd h Outcome.not_gives_failed
  next items' c₂ h₂ hitems =>
  obtain ⟨rfl, rfl⟩ := Outcome.gives_ok_iff.mp h
  obtain ⟨ts, hts, hv⟩ := isValue_of_readValue _ (Outcome.gives_of_eq hvalue)
  obtain ⟨gap, hgap, hgapped⟩ := exists_breaks c₁.kinds
  have h₁' := c₁.left_skipNewlines_le
  have h₁'' := c₁.skipNewlines.left_skipGrammar_le ','
  obtain ⟨more, hmore, hderived⟩ := areItems_of_readItems _ (Outcome.gives_of_eq hitems)
  obtain ⟨comma, hcomma, hcommaed⟩ := exists_optionalComma c₁
  refine ⟨_, ?_, .item hbreaks hv hgap hcomma hderived⟩
  rw [Cursor.kinds_skipNewlines] at hcommaed
  rw [hkinds, hts, hgapped, hcommaed, hmore]
  simp only [List.append_assoc]
termination_by 2 * c.left + 1

end

/-- No value starts with a line break, or with punctuation but for an opening one. -/
theorem IsValue.head_eq {ts : List Kind} {v : Value} (h : IsValue s ctx ts v) :
    ∃ k rest, ts = k :: rest ∧ k ≠ .newline ∧ ∀ ch, ch ∉ ['{', '['] → k ≠ .grammar ch := by
  cases h with
  | atom ha =>
    refine ⟨_, _, rfl, ?_, ?_⟩
    · rintro rfl
      cases ha
    · rintro ch _ rfl
      cases ha
  | object => exact ⟨_, _, rfl, by simp, by simp +contextual [eq_comm]⟩
  | array => exact ⟨_, _, rfl, by simp, by simp +contextual [eq_comm]⟩

theorem IsValue.ne_nil {ts : List Kind} {v : Value} (h : IsValue s ctx ts v) : ts ≠ [] := by
  obtain ⟨k, rest, rfl, _⟩ := h.head_eq
  exact List.cons_ne_nil _ _

theorem AreFields.ne_nil {close : Char} {ts : List Kind} {fields : Value.Fields}
    (h : AreFields s ctx close ts fields) : ts ≠ [] := by
  cases h <;> simp

theorem AreItems.ne_nil {ts : List Kind} {items : List Value} (h : AreItems s ctx ts items) :
    ts ≠ [] := by
  cases h with
  | close => simp
  | item _ hv => simp [hv.ne_nil]

theorem IsValue.dropBreaks_append {ts : List Kind} {v : Value} (h : IsValue s ctx ts v)
    (ks : List Kind) : dropBreaks (ts ++ ks) = ts ++ ks := by
  obtain ⟨k, rest, rfl, hne, _⟩ := h.head_eq
  exact dropBreaks_of_ne hne _

theorem IsValue.head?_ne {ts : List Kind} {v : Value} (h : IsValue s ctx ts v) {ch : Char}
    (hch : ch ∉ ['{', '[']) (ks : List Kind) : (ts ++ ks).head? ≠ some (.grammar ch) := by
  obtain ⟨k, rest, rfl, _, hne⟩ := h.head_eq
  rw [List.cons_append, List.head?_cons]
  exact mt Option.some.inj (hne ch hch)

/-- Behind line breaks, named values start with a name or close. -/
theorem AreFields.head?_ne {close ch : Char} {ts : List Kind} {fields : Value.Fields}
    (h : AreFields s ctx close ts fields) (hch : ch ≠ close) (rest : List Kind) :
    (dropBreaks (ts ++ rest)).head? ≠ some (.grammar ch) := by
  cases h with
  | close hbreaks =>
    rw [List.append_assoc, dropBreaks_append hbreaks, List.singleton_append,
      dropBreaks_of_ne (by simp)]
    simp [Ne.symm hch]
  | field hbreaks hk =>
    rw [List.append_assoc, dropBreaks_append hbreaks, List.cons_append, hk.dropBreaks_cons]
    exact hk.head?_ne

theorem AreItems.head?_ne {ch : Char} {ts : List Kind} {items : List Value}
    (h : AreItems s ctx ts items) (hch : ch ∉ [']', '{', '[']) (rest : List Kind) :
    (dropBreaks (ts ++ rest)).head? ≠ some (.grammar ch) := by
  obtain ⟨hclose, hopen⟩ := not_or.mp (mt List.mem_cons.mpr hch)
  cases h with
  | close hbreaks =>
    rw [List.append_assoc, dropBreaks_append hbreaks, List.singleton_append,
      dropBreaks_of_ne (by simp)]
    simp [Ne.symm hclose]
  | item hbreaks hv =>
    rw [List.append_assoc, dropBreaks_append hbreaks, List.append_assoc, hv.dropBreaks_append]
    exact hv.head?_ne hopen _

mutual

/-- A value is read from its tokens, and from no more. -/
theorem readValue_of_isValue {ts : List Kind} {v : Value} (h : IsValue s ctx ts v) {c : Cursor}
    {rest : List Kind} (hc : c.kinds = ts ++ rest) : (readValue s ctx c).Gives v rest := by
  have hpeek := Cursor.peek?_eq c
  have hadvance := Cursor.kinds_advance c
  rw [readValue]
  cases h with
  | @atom k v ha =>
    rw [hc] at hpeek hadvance
    split
    · next hnone => cases hpeek.symm.trans hnone
    next k' hk =>
    cases hpeek.symm.trans hk
    have hne (ch : Char) : k ≠ .grammar ch := by
      rintro rfl
      cases ha
    rw [if_neg (hne _), if_neg (hne _), ha]
    exact Outcome.gives_ok_iff.mpr ⟨rfl, hadvance⟩
  | @object ts fields hfields =>
    rw [hc] at hpeek hadvance
    split
    · next hnone => cases hpeek.symm.trans hnone
    next k hk =>
    cases hpeek.symm.trans hk
    obtain ⟨c₁, h₁, hread, hrest⟩ :=
      readFields_of_areFields hfields (by decide) (congrArg dropBreaks hadvance)
    rw [if_pos rfl, hread]
    exact Outcome.gives_ok_iff.mpr ⟨rfl, hrest⟩
  | @array ts items hitems =>
    rw [hc] at hpeek hadvance
    split
    · next hnone => cases hpeek.symm.trans hnone
    next k hk =>
    cases hpeek.symm.trans hk
    obtain ⟨c₁, h₁, hread, hrest⟩ := readItems_of_areItems hitems (congrArg dropBreaks hadvance)
    rw [if_neg (by simp), if_pos rfl, hread]
    exact Outcome.gives_ok_iff.mpr ⟨rfl, hrest⟩
termination_by ts.length

/-- Line breaks in front make no difference. -/
theorem readFields_of_areFields {close : Char} {ts : List Kind} {fields : Value.Fields}
    (h : AreFields s ctx close ts fields) (hclose : close ≠ ',') {c : Cursor} {rest : List Kind}
    (hc : dropBreaks c.kinds = dropBreaks (ts ++ rest)) :
    (readFields s ctx close c).Gives fields rest := by
  rw [readFields]
  cases h with
  | @close _ breaks hbreaks =>
    rw [← Cursor.kinds_skipNewlines, List.append_assoc, dropBreaks_append hbreaks,
      List.singleton_append, dropBreaks_of_ne (by simp)] at hc
    have hgrammar : c.skipNewlines.isGrammar close = true := by
      rw [Cursor.isGrammar_iff, hc, List.head?_cons]
    split
    · exact Outcome.gives_ok_iff.mpr ⟨rfl, Cursor.kinds_advance_of_cons hc⟩
    · next hno => exact absurd hgrammar hno
  | @field _ breaks gap ts gap' comma more k key v fields hbreaks hk hgap hv hgap' hcomma hmore =>
    rw [← Cursor.kinds_skipNewlines, List.append_assoc, dropBreaks_append hbreaks,
      List.cons_append, hk.dropBreaks_cons, List.cons_append] at hc
    split
    · next hgrammar => exact absurd (Cursor.isGrammar_iff.mp hgrammar) (hc ▸ hk.head?_ne)
    obtain ⟨c₁, h₁, hkey, hc₁⟩ := Cursor.expectKey_gives_iff.mpr ⟨k, hk, hc⟩
    obtain ⟨c₂, h₂, hcolon, hc₂⟩ := Cursor.expectGrammar_gives_iff.mpr hc₁
    simp only [hkey, hcolon]
    have hvalue : c₂.skipNewlines.kinds = ts ++ (gap' ++ (comma ++ (more ++ rest))) := by
      rw [Cursor.kinds_skipNewlines, hc₂, List.append_assoc, dropBreaks_append hgap,
        List.append_assoc, hv.dropBreaks_append, List.append_assoc, List.append_assoc]
    obtain ⟨c₃, h₃, hread, hc₃⟩ := readValue_of_isValue hv hvalue
    have hskip := kinds_skipGrammar_comma hcomma (hmore.head?_ne (Ne.symm hclose) rest)
      ((congrArg dropBreaks hc₃).trans (dropBreaks_append hgap' _))
    obtain ⟨c₄, h₄, hfields, hc₄⟩ := readFields_of_areFields hmore hclose hskip
    simp only [hread, hfields]
    exact Outcome.gives_ok_iff.mpr ⟨rfl, hc₄⟩
termination_by ts.length
decreasing_by
  all_goals
    subst_vars
    simp only [List.length_append, List.length_cons]
    omega

theorem readItems_of_areItems {ts : List Kind} {items : List Value}
    (h : AreItems s ctx ts items) {c : Cursor} {rest : List Kind}
    (hc : dropBreaks c.kinds = dropBreaks (ts ++ rest)) :
    (readItems s ctx c).Gives items rest := by
  rw [readItems]
  cases h with
  | @close breaks hbreaks =>
    rw [← Cursor.kinds_skipNewlines, List.append_assoc, dropBreaks_append hbreaks,
      List.singleton_append, dropBreaks_of_ne (by simp)] at hc
    have hgrammar : c.skipNewlines.isGrammar ']' = true := by
      rw [Cursor.isGrammar_iff, hc, List.head?_cons]
    split
    · exact Outcome.gives_ok_iff.mpr ⟨rfl, Cursor.kinds_advance_of_cons hc⟩
    · next hno => exact absurd hgrammar hno
  | @item breaks ts gap comma more v items hbreaks hv hgap hcomma hmore =>
    rw [← Cursor.kinds_skipNewlines, List.append_assoc, dropBreaks_append hbreaks,
      List.append_assoc, hv.dropBreaks_append] at hc
    split
    · next hgrammar =>
      refine absurd (Cursor.isGrammar_iff.mp hgrammar) ?_
      rw [hc]
      exact hv.head?_ne (by decide) _
    simp only [List.append_assoc] at hc
    obtain ⟨c₁, h₁, hread, hc₁⟩ := readValue_of_isValue hv hc
    have hskip := kinds_skipGrammar_comma hcomma (hmore.head?_ne (by decide) rest)
      ((congrArg dropBreaks hc₁).trans (dropBreaks_append hgap _))
    obtain ⟨c₂, h₂, hitems, hc₂⟩ := readItems_of_areItems hmore hskip
    simp only [hread, hitems]
    exact Outcome.gives_ok_iff.mpr ⟨rfl, hc₂⟩
termination_by ts.length
decreasing_by
  all_goals
    have hvalue := List.length_pos_iff.mpr hv.ne_nil
    have hrest := List.length_pos_iff.mpr hmore.ne_nil
    subst_vars
    simp only [List.length_append]
    omega

end

theorem readValue_gives_iff {c : Cursor} {v : Value} {rest : List Kind} :
    (readValue s ctx c).Gives v rest ↔ ∃ ts, c.kinds = ts ++ rest ∧ IsValue s ctx ts v := by
  constructor
  · exact isValue_of_readValue c
  · rintro ⟨ts, hts, hv⟩
    exact readValue_of_isValue hv hts

end ShapeModel.Document
