import ShapeModel.Proofs.Json.Reader
import ShapeModel.Proofs.Json.Text

/-!
# Values survive their text

The reader takes every text of a value that is nested no deeper than it may be, and gives the plain
form of the value. So what is written of a value without doubles is read back as an equal value.
-/

namespace ShapeModel.Json

set_option autoImplicit false

open Token (Stops Layout)

/-- The first character is neither skipped nor taken for the end of an array or object. -/
def Opens (cs : List Char) : Prop :=
  ∃ c us, cs = c :: us ∧ isSpace c = false ∧ c ≠ ']' ∧ c ≠ '}'

section

variable {cs us gap rest : List Char}

theorem Opens.append (h : Opens cs) (us : List Char) : Opens (cs ++ us) := by
  obtain ⟨c, cs, rfl, hc⟩ := h
  exact ⟨c, cs ++ us, rfl, hc⟩

theorem Opens.skip_append (h : Opens cs) (hgap : Layout gap) : skip (gap ++ cs) = cs := by
  obtain ⟨c, cs, rfl, hc, -⟩ := h
  exact skip_append_cons hgap hc cs

theorem opens_quote (s : String) : Opens (quote s) :=
  ⟨_, _, rfl, rfl, by decide, by decide⟩

theorem opens_intText (i : Int) : Opens (intText i) := by
  obtain ⟨c, cs, hcs⟩ := List.exists_cons_of_ne_nil (intText_ne_nil i)
  have hc : IsIntChar c := isIntChar_of_mem_intText c (hcs ▸ List.mem_cons_self)
  have hspace : isSpace c = false := by
    simp [isSpace, hc.ne (d := ' ') (by decide), hc.ne (d := '\t') (by decide),
      hc.ne (d := '\n') (by decide), hc.ne (d := '\r') (by decide)]
  exact ⟨c, cs, hcs, hspace, hc.ne (by decide), hc.ne (by decide)⟩

theorem IsText.opens {v : Value} (h : IsText cs v) : Opens cs := by
  cases h with
  | number => exact opens_intText _
  | string s => exact opens_quote s
  | _ => exact ⟨_, _, rfl, rfl, by decide, by decide⟩

theorem AreItems.opens {vs : List Value} (h : AreItems cs vs) : Opens cs := by
  cases h with
  | last hv _ => exact hv.opens.append _
  | cons hv _ _ => exact hv.opens.append _

theorem AreFields.opens {fs : Value.Fields} (h : AreFields cs fs) : Opens cs := by
  cases h with
  | last => exact (opens_quote _).append _
  | cons => exact (opens_quote _).append _

end

section

variable {c : Char} {cs rest : List Char} {v : Value}

theorem gives_value?_of_scalar (hbracket : c ≠ '[') (hbrace : c ≠ '{')
    (h : Gives scalar? (c :: cs) v rest) (depth : Nat) :
    Gives (value? depth) (c :: cs) v rest := by
  obtain ⟨hlt, h⟩ := h
  refine ⟨hlt, ?_⟩
  rw [← h, value?]
  · intro _ _ h
    cases h
    exact absurd rfl hbracket
  · intro _ _ h
    cases h
    exact absurd rfl hbrace

theorem gives_scalar?_string {s : String} (h : Gives string? ('"' :: cs) s rest) :
    Gives scalar? ('"' :: cs) (.string s) rest := by
  obtain ⟨hlt, h⟩ := h
  refine ⟨hlt, ?_⟩
  simp only [scalar?, h, Option.map_some]

theorem gives_scalar?_number {n : Number} (hc : IsIntChar c) (h : Gives number? (c :: cs) n rest) :
    Gives scalar? (c :: cs) (.number n) rest := by
  obtain ⟨hlt, h⟩ := h
  have hne (d : Char) (hd : d.toNat < 45 ∨ 57 < d.toNat) (us : List Char) : c :: cs ≠ d :: us := by
    intro hcons
    exact hc.ne hd (List.cons.inj hcons).1
  refine ⟨hlt, ?_⟩
  rw [scalar?, h, Option.map_some]
  · exact fun us => hne 'n' (by decide) _
  · exact fun us => hne 't' (by decide) _
  · exact fun us => hne 'f' (by decide) _
  · exact fun us => hne '"' (by decide) _

theorem gives_value?_string (s : String) (depth : Nat) (rest : List Char) :
    Gives (value? depth) (quote s ++ rest) (.string s) rest :=
  gives_value?_of_scalar (by decide) (by decide) (gives_scalar?_string (gives_string? s rest)) depth

theorem gives_value?_number {i : Int} {m : Number} (hm : Number.ofInt? i = some m)
    (hrest : Stops rest) (depth : Nat) :
    Gives (value? depth) (intText i ++ rest) (.number m) rest := by
  have h := gives_number? hm hrest
  obtain ⟨c, cs, hcs⟩ := List.exists_cons_of_ne_nil (intText_ne_nil i)
  have hc : IsIntChar c := isIntChar_of_mem_intText c (hcs ▸ List.mem_cons_self)
  rw [hcs] at h ⊢
  exact gives_value?_of_scalar (hc.ne (by decide)) (hc.ne (by decide)) (gives_scalar?_number hc h)
    depth

end

section

variable {cs us gap rest : List Char} {v : Value} {vs : List Value} {depth : Nat}

theorem gives_value?_emptyArray (hgap : Layout gap) (depth : Nat) (rest : List Char) :
    Gives (value? (depth + 1)) ('[' :: (gap ++ ']' :: rest)) (.array []) rest := by
  have hskip := @skip_append_cons _ hgap ']' rfl rest
  refine ⟨by simp; omega, ?_⟩
  rw [value?]
  split
  · next h =>
    cases h.symm.trans hskip
    rfl
  · next h => exact absurd hskip (h _)

theorem gives_value?_array (hgap : Layout gap) (hcs : Opens cs)
    (h : Gives (elements? depth) cs vs rest) :
    Gives (value? (depth + 1)) ('[' :: (gap ++ cs)) (.array vs) rest := by
  have hskip := hcs.skip_append hgap
  obtain ⟨hlt, h⟩ : Gives (elements? depth) (skip (gap ++ cs)) vs rest := hskip.symm ▸ h
  refine ⟨by rw [hskip] at hlt; simp; omega, ?_⟩
  rw [value?]
  split
  · next h' =>
    obtain ⟨c, us, rfl, -, hc, -⟩ := hcs
    cases h'.symm.trans hskip
    exact absurd rfl hc
  · simp only [h, Option.map_some]

theorem gives_elements?_last (hgap : Layout gap)
    (h : Gives (value? depth) cs v (gap ++ ']' :: rest)) :
    Gives (elements? depth) cs [v] rest := by
  have hskip := @skip_append_cons _ hgap ']' rfl rest
  obtain ⟨hlt, h⟩ := h
  refine ⟨by simp at hlt; omega, ?_⟩
  rw [elements?, h]
  dsimp only
  split
  · next h =>
    cases h.symm.trans hskip
    rfl
  · next h => cases h.symm.trans hskip
  · next h _ => exact absurd hskip (h _)

theorem gives_elements?_cons (hgap : Layout gap) (hus : Opens us)
    (h : Gives (value? depth) cs v (',' :: (gap ++ us)))
    (hvs : Gives (elements? depth) us vs rest) :
    Gives (elements? depth) cs (v :: vs) rest := by
  have hskip := hus.skip_append hgap
  have hcomma : skip (',' :: (gap ++ us)) = ',' :: (gap ++ us) := skip_cons rfl _
  obtain ⟨hlt, h⟩ := h
  obtain ⟨hlt', hvs⟩ : Gives (elements? depth) (skip (gap ++ us)) vs rest := hskip.symm ▸ hvs
  refine ⟨by rw [hskip] at hlt'; simp at hlt; omega, ?_⟩
  rw [elements?, h]
  dsimp only
  split
  · next h => cases h.symm.trans hcomma
  · next h =>
    cases h.symm.trans hcomma
    simp only [hvs, Option.map_some]
  · next h => exact absurd hcomma (h _)

end

section

variable {cs us gap gap' rest : List Char} {k : String} {v : Value} {fs : Value.Fields}
  {depth : Nat}

theorem gives_value?_emptyObject (hgap : Layout gap) (depth : Nat) (rest : List Char) :
    Gives (value? (depth + 1)) ('{' :: (gap ++ '}' :: rest)) (.object []) rest := by
  have hskip := @skip_append_cons _ hgap '}' rfl rest
  refine ⟨by simp; omega, ?_⟩
  rw [value?]
  split
  · next h =>
    cases h.symm.trans hskip
    rfl
  · next h => exact absurd hskip (h _)

theorem gives_value?_object (hgap : Layout gap) (hcs : Opens cs)
    (h : Gives (members? depth) cs fs rest) :
    Gives (value? (depth + 1)) ('{' :: (gap ++ cs)) (.ofPairs fs) rest := by
  have hskip := hcs.skip_append hgap
  obtain ⟨hlt, h⟩ : Gives (members? depth) (skip (gap ++ cs)) fs rest := hskip.symm ▸ h
  refine ⟨by rw [hskip] at hlt; simp; omega, ?_⟩
  rw [value?]
  split
  · next h' =>
    obtain ⟨c, us, rfl, -, -, hc⟩ := hcs
    cases h'.symm.trans hskip
    exact absurd rfl hc
  · simp only [h, Option.map_some]

theorem gives_members?_last (hgap : Layout gap) (hcs : Opens cs) (hgap' : Layout gap')
    (h : Gives (value? depth) cs v (gap' ++ '}' :: rest)) :
    Gives (members? depth) (quote k ++ ':' :: (gap ++ cs)) [(k, v)] rest := by
  have hskip := hcs.skip_append hgap
  have hcolon : skip (':' :: (gap ++ cs)) = ':' :: (gap ++ cs) := skip_cons rfl _
  have hclose := @skip_append_cons _ hgap' '}' rfl rest
  obtain ⟨hkey, hk⟩ := gives_string? k (':' :: (gap ++ cs))
  obtain ⟨hvalue, hv⟩ : Gives (value? depth) (skip (gap ++ cs)) v (gap' ++ '}' :: rest) :=
    hskip.symm ▸ h
  refine ⟨by rw [hskip] at hvalue; simp at hvalue ⊢; omega, ?_⟩
  rw [members?, hk]
  dsimp only
  split
  · next h =>
    cases h.symm.trans hcolon
    rw [hv]
    dsimp only
    split
    · next h =>
      cases h.symm.trans hclose
      rfl
    · next h => cases h.symm.trans hclose
    · next h _ => exact absurd hclose (h _)
  · next h => exact absurd hcolon (h _)

theorem gives_members?_cons (hgap : Layout gap) (hcs : Opens cs) (hgap' : Layout gap')
    (hus : Opens us) (h : Gives (value? depth) cs v (',' :: (gap' ++ us)))
    (hfs : Gives (members? depth) us fs rest) :
    Gives (members? depth) (quote k ++ ':' :: (gap ++ cs)) ((k, v) :: fs) rest := by
  have hskip := hcs.skip_append hgap
  have hskip' := hus.skip_append hgap'
  have hcolon : skip (':' :: (gap ++ cs)) = ':' :: (gap ++ cs) := skip_cons rfl _
  have hcomma : skip (',' :: (gap' ++ us)) = ',' :: (gap' ++ us) := skip_cons rfl _
  obtain ⟨hkey, hk⟩ := gives_string? k (':' :: (gap ++ cs))
  obtain ⟨hvalue, hv⟩ : Gives (value? depth) (skip (gap ++ cs)) v (',' :: (gap' ++ us)) :=
    hskip.symm ▸ h
  obtain ⟨hrest, hfs⟩ : Gives (members? depth) (skip (gap' ++ us)) fs rest := hskip'.symm ▸ hfs
  refine ⟨by rw [hskip] at hvalue; rw [hskip'] at hrest; simp at hvalue ⊢; omega, ?_⟩
  rw [members?, hk]
  dsimp only
  split
  · next h =>
    cases h.symm.trans hcolon
    rw [hv]
    dsimp only
    split
    · next h => cases h.symm.trans hcomma
    · next h =>
      cases h.symm.trans hcomma
      simp only [hfs, Option.map_some]
    · next h => exact absurd hcomma (h _)
  · next h => exact absurd hcolon (h _)

end

mutual

theorem IsText.gives {cs : List Char} {v : Value} (h : IsText cs v) (hv : v.Ordered) {depth : Nat}
    (hdepth : v.depth ≤ depth) {rest : List Char} (hrest : Stops rest) :
    Gives (value? depth) (cs ++ rest) v.plain rest := by
  cases h with
  | null => exact gives_value?_of_scalar (by decide) (by decide) ⟨by simp; omega, rfl⟩ depth
  | true => exact gives_value?_of_scalar (by decide) (by decide) ⟨by simp; omega, rfl⟩ depth
  | false => exact gives_value?_of_scalar (by decide) (by decide) ⟨by simp; omega, rfl⟩ depth
  | number hi hm =>
    rw [Value.plain, Number.plain_of_toInt? hi hm]
    exact gives_value?_number hm hrest depth
  | string s => exact gives_value?_string s depth rest
  | emptyArray hgap =>
    obtain ⟨depth, rfl⟩ := Nat.exists_eq_add_one.mpr (Nat.zero_lt_of_lt hdepth)
    rw [List.cons_append, List.append_assoc]
    exact gives_value?_emptyArray hgap depth rest
  | array hgap hitems =>
    obtain ⟨depth, rfl⟩ := Nat.exists_eq_add_one.mpr (Nat.zero_lt_of_lt hdepth)
    cases hv with
    | array hvs =>
      rw [List.cons_append, List.append_assoc]
      exact gives_value?_array hgap (hitems.opens.append rest)
        (hitems.gives hvs (Nat.le_of_succ_le_succ hdepth) rest)
  | emptyObject hgap =>
    obtain ⟨depth, rfl⟩ := Nat.exists_eq_add_one.mpr (Nat.zero_lt_of_lt hdepth)
    rw [List.cons_append, List.append_assoc]
    exact gives_value?_emptyObject hgap depth rest
  | @object _ _ fs hgap hfields =>
    obtain ⟨depth, rfl⟩ := Nat.exists_eq_add_one.mpr (Nat.zero_lt_of_lt hdepth)
    cases hv with
    | object hfs hvs =>
      -- The keys go up already, so the reader moves and drops none of the fields.
      have hpairs : Value.ofPairs (Value.plainFields fs) = .object (Value.plainFields fs) :=
        congrArg Value.object (Value.ascending_plainFields hfs).ofList_eq
      rw [List.cons_append, List.append_assoc, Value.plain, ← hpairs]
      exact gives_value?_object hgap (hfields.opens.append rest)
        (hfields.gives hvs (Nat.le_of_succ_le_succ hdepth) rest)

theorem AreItems.gives {cs : List Char} {vs : List Value} (h : AreItems cs vs)
    (hvs : ∀ v ∈ vs, v.Ordered) {depth : Nat} (hdepth : Value.depthItems vs ≤ depth)
    (rest : List Char) : Gives (elements? depth) (cs ++ rest) (Value.plainItems vs) rest := by
  cases h with
  | last hv hgap =>
    obtain ⟨hvalue, -⟩ := List.forall_mem_cons.mp hvs
    rw [List.append_assoc, List.append_assoc]
    exact gives_elements?_last hgap
      (hv.gives hvalue (Nat.max_le.mp hdepth).1 (hgap.stops (by decide) (by decide) rest))
  | cons hv hgap hitems =>
    obtain ⟨hvalue, hvs⟩ := List.forall_mem_cons.mp hvs
    rw [List.append_assoc, List.cons_append, List.append_assoc]
    exact gives_elements?_cons hgap (hitems.opens.append rest)
      (hv.gives hvalue (Nat.max_le.mp hdepth).1 (Token.stops_cons (by decide) (by decide) _))
      (hitems.gives hvs (Nat.max_le.mp hdepth).2 rest)

theorem AreFields.gives {cs : List Char} {fs : Value.Fields} (h : AreFields cs fs)
    (hfs : ∀ f ∈ fs, f.2.Ordered) {depth : Nat} (hdepth : Value.depthFields fs ≤ depth)
    (rest : List Char) : Gives (members? depth) (cs ++ rest) (Value.plainFields fs) rest := by
  cases h with
  | last hgap hv hgap' =>
    obtain ⟨hvalue, -⟩ := List.forall_mem_cons.mp hfs
    rw [List.append_assoc, List.cons_append, List.append_assoc, List.append_assoc,
      List.append_assoc]
    exact gives_members?_last hgap (hv.opens.append _) hgap'
      (hv.gives hvalue (Nat.max_le.mp hdepth).1 (hgap'.stops (by decide) (by decide) rest))
  | cons hgap hv hgap' hfields =>
    obtain ⟨hvalue, hfs⟩ := List.forall_mem_cons.mp hfs
    rw [List.append_assoc, List.cons_append, List.append_assoc, List.append_assoc, List.cons_append,
      List.append_assoc]
    exact gives_members?_cons hgap (hv.opens.append _) hgap' (hfields.opens.append rest)
      (hv.gives hvalue (Nat.max_le.mp hdepth).1 (Token.stops_cons (by decide) (by decide) _))
      (hfields.gives hfs (Nat.max_le.mp hdepth).2 rest)

end

theorem parse?_eq_plain {v : Value} (hordered : v.Ordered) (hintegral : v.Integral)
    (hdepth : v.depth ≤ maxDepth) {text : String} (htext : text ∈ [v.compactText, v.prettyText]) :
    parse? text = some v.plain := by
  have histext := isText_toList hintegral htext
  have hskip : skip text.toList = text.toList := histext.opens.skip_append Token.layout_nil
  have hgives := histext.gives hordered hdepth Token.stops_nil
  rw [List.append_nil] at hgives
  obtain ⟨hlt, h⟩ : Gives (value? maxDepth) (skip text.toList) v.plain [] := hskip.symm ▸ hgives
  rw [parse?, h]
  rfl

/-- The text of a value without doubles is read back as a value equal to it: the one in which each
integer from zero on has lost its sign. -/
theorem parse?_text (v : OrderedValue) (hintegral : v.value.Integral)
    (hdepth : v.value.depth ≤ maxDepth) {text : String}
    (htext : text ∈ [v.value.compactText, v.value.prettyText]) :
    parse? text = some v.value.plain ∧ (v.value.plain == v.value) = true :=
  ⟨parse?_eq_plain v.ordered hintegral hdepth htext, Value.same_plain hintegral⟩

/-- All that JSON escapes, the ends of both ranges of integers, and a zero with a sign. -/
def escapedValue : OrderedValue where
  value := .object [("", .string "\"\\\n\r\t\u0000\u0008\u000c\u001f/é😀"),
    ("\n", .array [.null, .bool false, .number (.uint 18446744073709551615),
      .number (.int (-9223372036854775808)), .number (.int 0), .array [], .object []])]
  ordered := by
    refine .object (by decide) ?_
    simp only [List.forall_mem_cons]
    refine ⟨.string _, .array ?_, List.forall_mem_nil _⟩
    simp only [List.forall_mem_cons]
    exact ⟨.null, .bool _, .number _, .number _, .number _, .array (List.forall_mem_nil _),
      .object .nil (List.forall_mem_nil _), List.forall_mem_nil _⟩

theorem parse?_escapedValue :
    escapedValue.value.Integral ∧ escapedValue.value.depth ≤ maxDepth ∧
      escapedValue.value.prettyText ∈
        [escapedValue.value.compactText, escapedValue.value.prettyText] ∧
      parse? escapedValue.value.prettyText = some escapedValue.value.plain ∧
      (escapedValue.value.plain == escapedValue.value) = true := by
  have hintegral : escapedValue.value.Integral := by
    refine .object ?_
    simp only [List.forall_mem_cons]
    refine ⟨.string _, .array ?_, List.forall_mem_nil _⟩
    simp only [List.forall_mem_cons]
    exact ⟨.null, .bool _, .uint _, .int _, .int _, .array (List.forall_mem_nil _),
      .object (List.forall_mem_nil _), List.forall_mem_nil _⟩
  have hdepth : escapedValue.value.depth ≤ maxDepth := by decide
  have htext : escapedValue.value.prettyText ∈
      [escapedValue.value.compactText, escapedValue.value.prettyText] :=
    List.mem_cons_of_mem _ List.mem_cons_self
  exact ⟨hintegral, hdepth, htext, parse?_text escapedValue hintegral hdepth htext⟩

end ShapeModel.Json
