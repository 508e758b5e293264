import ShapeModel.Proofs.Document.Decode
import ShapeModel.Proofs.Json.Text
import ShapeModel.Proofs.Json.Tokens
import ShapeModel.Proofs.Table.Entries
import ShapeModel.Proofs.Token.Rendering
import ShapeModel.Proofs.Value.Equality

/-!
# JSON in documents

Documents take JSON for values, if it holds no doubles and no control characters that only JSON can
escape. The text of a value is read back as an equal value wherever it stands, compact or indented,
at any depth. Integers come back without a sign where they have none.
-/

namespace ShapeModel

set_option autoImplicit false

open Token (Kind kinds Yields Stops Layout)

/-- Values whose text documents can hold, with the fields of objects in order. -/
inductive Value.Legible : Value → Prop
  | null : Legible .null
  | bool (b : Bool) : Legible (.bool b)
  | uint (n : UInt64) : Legible (.number (.uint n))
  | int (n : Int64) : Legible (.number (.int n))
  | string {s : String} : Token.Legible s → Legible (.string s)
  | array {items : List Value} : (∀ v ∈ items, Legible v) → Legible (.array items)
  | object {fields : Value.Fields} : Entries.Ascending fields →
      (∀ f ∈ fields, Token.Legible f.1) → (∀ f ∈ fields, Legible f.2) → Legible (.object fields)

theorem Value.Legible.integral {v : Value} (h : v.Legible) : v.Integral := by
  induction h with
  | null => exact .null
  | bool b => exact .bool b
  | uint n => exact .uint n
  | int n => exact .int n
  | string => exact .string _
  | array _ ih => exact .array ih
  | object _ _ _ ih => exact .object ih

namespace Document

/-- The text is read as a value equal to this one, wherever it stands. -/
def ReadsBack (text : List Char) (v : Value) : Prop :=
  ∃ ks v', Yields text ks ∧ (∀ s ctx, IsValue s ctx ks v') ∧ v'.same v = true

/-- The text is read as the items of an array, through the closing bracket. -/
def ItemsReadBack (text : List Char) (vs : List Value) : Prop :=
  ∃ ks vs', Yields text ks ∧ (∀ s ctx, AreItems s ctx ks vs') ∧ Value.sameItems vs' vs = true

/-- The text is read as the fields of an object, through the closing brace. -/
def FieldsReadBack (text : List Char) (fs : Value.Fields) : Prop :=
  ∃ ks fs', Yields text ks ∧ (∀ s ctx, AreFields s ctx '}' ks fs') ∧
    Value.sameFields fs' fs = true

/-- What stands behind an item or field: the end, or a comma and the others. -/
inductive Tail {α : Type} (close : Char) (P : List Char → List α → Prop) :
    List Char → List α → Prop
  | close {gap : List Char} : Layout gap → Tail close P (gap ++ [close]) []
  | comma {text : List Char} {as : List α} : P text as → Tail close P (',' :: text) as

theorem breaks_replicate (n : Nat) : Breaks (List.replicate n .newline) :=
  fun _ => List.eq_of_mem_replicate

section

variable {gap text : List Char} {ks : List Kind}

theorem exists_yields_layout (hgap : Layout gap) (h : Yields text ks) :
    ∃ breaks, Breaks breaks ∧ Yields (gap ++ text) (breaks ++ ks) :=
  ⟨_, breaks_replicate _, h.append_left hgap.kinds_append⟩

theorem exists_yields_close (hgap : Layout gap) {c : Char} (hc : c ∈ Token.grammarChars) :
    ∃ breaks, Breaks breaks ∧ Yields (gap ++ [c]) (breaks ++ [.grammar c]) :=
  exists_yields_layout hgap (Token.yields_nil.cons_grammar hc)

end

section

variable {α : Type} {close : Char} {P : List Char → List α → Prop} {text : List Char} {as : List α}

theorem Tail.stops (h : Tail close P text as) (hclose : close ∈ Token.markChars)
    (hquote : close ≠ '"') (rest : List Char) : Stops (text ++ rest) := by
  cases h with
  | close hgap =>
    rw [List.append_assoc]
    exact hgap.stops hclose hquote rest
  | comma => exact Token.stops_cons (by decide) (by decide) _

/-- A tail is a comma that may be left out and the text of the others. -/
theorem Tail.exists_comma (h : Tail close P text as)
    (hclose : ∀ gap, Layout gap → P (gap ++ [close]) []) :
    ∃ comma text', OptionalComma comma ∧ P text' as ∧
      ∀ ks, Yields text' ks → Yields text (comma ++ ks) := by
  cases h with
  | close hgap => exact ⟨[], _, .absent, hclose _ hgap, fun _ => id⟩
  | comma hp => exact ⟨_, _, .present, hp, fun _ hks => hks.cons_grammar (by decide)⟩

end

section

variable {gap gap' text rest : List Char} {v : Value}

theorem itemsReadBack_close (gap : List Char) (hgap : Layout gap) :
    ItemsReadBack (gap ++ [']']) [] := by
  obtain ⟨breaks, hbreaks, hks⟩ := exists_yields_close hgap (c := ']') (by decide)
  exact ⟨_, [], hks, fun _ _ => .close hbreaks, rfl⟩

theorem itemsReadBack_cons (hgap : Layout gap) (hv : ReadsBack text v) {vs : List Value}
    (hrest : Tail ']' ItemsReadBack rest vs) : ItemsReadBack (gap ++ (text ++ rest)) (v :: vs) := by
  have hstops := hrest.stops (by decide) (by decide)
  obtain ⟨ts, v', htext, hvalue, hsame⟩ := hv
  obtain ⟨comma, text', hcomma, ⟨us, vs', htext', hitems, hsames⟩, hyields⟩ :=
    hrest.exists_comma itemsReadBack_close
  obtain ⟨breaks, hbreaks, hks⟩ :=
    exists_yields_layout hgap (htext.append (hyields us htext') hstops)
  refine ⟨_, v' :: vs', hks, ?_, ?_⟩
  · intro s ctx
    exact .item hbreaks (hvalue s ctx) .nil hcomma (hitems s ctx)
  · rw [Value.sameItems, hsame, hsames]
    rfl

theorem fieldsReadBack_close (gap : List Char) (hgap : Layout gap) :
    FieldsReadBack (gap ++ ['}']) [] := by
  obtain ⟨breaks, hbreaks, hks⟩ := exists_yields_close hgap (c := '}') (by decide)
  exact ⟨_, [], hks, fun _ _ => .close hbreaks, rfl⟩

theorem fieldsReadBack_cons (hgap : Layout gap) {key : String} (hkey : Token.Legible key)
    (hgap' : Layout gap') (hv : ReadsBack text v) {fs : Value.Fields}
    (hrest : Tail '}' FieldsReadBack rest fs) :
    FieldsReadBack (gap ++ (Json.quote key ++ ':' :: (gap' ++ (text ++ rest))))
      ((key, v) :: fs) := by
  have hstops := hrest.stops (by decide) (by decide)
  obtain ⟨ts, v', htext, hvalue, hsame⟩ := hv
  obtain ⟨comma, text', hcomma, ⟨us, fs', htext', hfields, hsames⟩, hyields⟩ :=
    hrest.exists_comma fieldsReadBack_close
  obtain ⟨breaks', hbreaks', hks'⟩ :=
    exists_yields_layout hgap' (htext.append (hyields us htext') hstops)
  have hcolon := hks'.cons_grammar (c := ':') (by decide)
  obtain ⟨breaks, hbreaks, hks⟩ := exists_yields_layout hgap
    ((Token.yields_quote hkey).append hcolon (Token.stops_cons (by decide) (by decide)))
  refine ⟨_, (key, v') :: fs', hks, ?_, ?_⟩
  · intro s ctx
    exact .field hbreaks (.string key) hbreaks' (hvalue s ctx) .nil hcomma (hfields s ctx)
  · rw [Value.sameFields, hsame, hsames, BEq.rfl]
    rfl

theorem readsBack_array {vs : List Value} (h : ItemsReadBack text vs) :
    ReadsBack ('[' :: text) (.array vs) := by
  obtain ⟨ks, vs', hks, hitems, hsame⟩ := h
  exact ⟨_, .array vs', hks.cons_grammar (by decide), fun s ctx => .array (hitems s ctx), hsame⟩

/-- The fields come back in the order of their keys, so none is moved or left out. -/
theorem readsBack_object {fs : Value.Fields} (hfs : Entries.Ascending fs)
    (h : FieldsReadBack text fs) : ReadsBack ('{' :: text) (.object fs) := by
  obtain ⟨ks, fs', hks, hfields, hsame⟩ := h
  have hpairs : Value.ofPairs fs' = .object fs' :=
    congrArg Value.object (Value.ascending_of_sameFields hsame hfs).ofList_eq
  refine ⟨_, .object fs', hks.cons_grammar (by decide), ?_, hsame⟩
  intro s ctx
  rw [← hpairs]
  exact .object (hfields s ctx)

end

theorem readsBack_word {w : String} {v : Value} {c : Char} {cs : List Char}
    (hw : w.toList = c :: cs) (hd : c.isDigit = false) (hcs : (c :: cs).all Token.isWordChar = true)
    (hv : ∀ s ctx, wordValue s ctx w = .ok v) (hsame : v.same v = true) :
    ReadsBack w.toList v :=
  ⟨_, v, Token.yields_word hw hd hcs, fun s ctx => .atom (congrArg some (hv s ctx)), hsame⟩

theorem readsBack_intText {i : Int} {n n' : Number} (h : Number.ofInt? i = some n')
    (hsame : n'.same n = true) : ReadsBack (intText i) (.number n) := by
  refine ⟨_, .number n', Token.yields_intText i, ?_, hsame⟩
  intro s ctx
  apply IsValue.atom
  rw [atom?, String.toList_ofList, Number.ofText?_intText h]

theorem readsBack_quote {s : String} (hs : Token.Legible s) :
    ReadsBack (Json.quote s) (.string s) :=
  ⟨_, .string s, Token.yields_quote hs, fun _ _ => .atom rfl, BEq.rfl⟩

mutual

theorem readsBack_of_isText {text : List Char} {v : Value} (h : Json.IsText text v)
    (hv : v.Legible) : ReadsBack text v := by
  cases h with
  | null => exact readsBack_word (w := "null") rfl (by decide) (by decide) (fun _ _ => rfl) rfl
  | true => exact readsBack_word (w := "true") rfl (by decide) (by decide) (fun _ _ => rfl) rfl
  | false => exact readsBack_word (w := "false") rfl (by decide) (by decide) (fun _ _ => rfl) rfl
  | number hi hm =>
    have hsame := Value.same_plain hv.integral
    rw [Value.plain, Number.plain_of_toInt? hi hm] at hsame
    exact readsBack_intText hm hsame
  | string =>
    cases hv with
    | string hs => exact readsBack_quote hs
  | emptyArray hgap => exact readsBack_array (itemsReadBack_close _ hgap)
  | array hgap hitems =>
    cases hv with
    | array hvs => exact readsBack_array (itemsReadBack_of_areItems hitems hgap hvs)
  | emptyObject hgap => exact readsBack_object .nil (fieldsReadBack_close _ hgap)
  | object hgap hfields =>
    cases hv with
    | object hfs hkeys hvs =>
      exact readsBack_object hfs (fieldsReadBack_of_areFields hfields hgap hkeys hvs)

theorem itemsReadBack_of_areItems {gap text : List Char} {vs : List Value}
    (h : Json.AreItems text vs) (hgap : Layout gap) (hvs : ∀ v ∈ vs, v.Legible) :
    ItemsReadBack (gap ++ text) vs := by
  cases h with
  | last hv hgap' =>
    obtain ⟨hvalue, -⟩ := List.forall_mem_cons.mp hvs
    exact itemsReadBack_cons hgap (readsBack_of_isText hv hvalue) (.close hgap')
  | cons hv hgap' hitems =>
    obtain ⟨hvalue, hvs⟩ := List.forall_mem_cons.mp hvs
    exact itemsReadBack_cons hgap (readsBack_of_isText hv hvalue)
      (.comma (itemsReadBack_of_areItems hitems hgap' hvs))

theorem fieldsReadBack_of_areFields {gap text : List Char} {fs : Value.Fields}
    (h : Json.AreFields text fs) (hgap : Layout gap) (hkeys : ∀ f ∈ fs, Token.Legible f.1)
    (hvs : ∀ f ∈ fs, f.2.Legible) : FieldsReadBack (gap ++ text) fs := by
  cases h with
  | last hgap' hv hgap'' =>
    obtain ⟨hkey, -⟩ := List.forall_mem_cons.mp hkeys
    obtain ⟨hvalue, -⟩ := List.forall_mem_cons.mp hvs
    exact fieldsReadBack_cons hgap hkey hgap' (readsBack_of_isText hv hvalue) (.close hgap'')
  | cons hgap' hv hgap'' hfields =>
    obtain ⟨hkey, hkeys⟩ := List.forall_mem_cons.mp hkeys
    obtain ⟨hvalue, hvs⟩ := List.forall_mem_cons.mp hvs
    exact fieldsReadBack_cons hgap hkey hgap' (readsBack_of_isText hv hvalue)
      (.comma (fieldsReadBack_of_areFields hfields hgap'' hkeys hvs))

end

theorem exists_readValue_gives {text : String} {ks : List Kind} {v : Value}
    (hks : kinds text.toList = .ok ks) (hv : ∀ s ctx, IsValue s ctx ks v) (file : String) :
    ∃ ts, (Source.mk file text).tokens = .ok ts ∧
      ∀ s ctx, (readValue s ctx (.ofTokens ⟨file, text⟩ ts)).Gives v [] := by
  obtain ⟨ts, hts, hkinds⟩ := (@Token.tokens_kinds_iff ⟨file, text⟩ ks).mpr hks
  refine ⟨ts, hts, ?_⟩
  intro s ctx
  exact readValue_gives_iff.mpr ⟨ks, (List.append_nil ks).symm ▸ hkinds, hv s ctx⟩

theorem kinds_metadata {k : Kind} (hk : k.Writable) (hdoc : ∀ t, k ≠ .documentation t)
    {text : List Char} {ks : List Kind} (hks : kinds text = .ok ks) :
    kinds ("metadata".toList ++ ' ' :: (k.spelling ++ ' ' :: '=' :: ' ' :: text)) =
      .ok (.word "metadata" :: k :: .grammar '=' :: ks) := by
  have hmetadata := @Kind.writable_word "metadata" _ _ rfl (by decide) (by decide)
  have hequals := @Kind.Writable.grammar '=' (by decide)
  have hspelled := Token.kinds_spelling_space hmetadata nofun
    (k.spelling ++ ' ' :: '=' :: ' ' :: text)
  have hspelledKey := Token.kinds_spelling_space hk hdoc ('=' :: ' ' :: text)
  have hspelledEquals := Token.kinds_spelling_space hequals nofun text
  rw [Kind.spelling, List.singleton_append, hks] at hspelledEquals
  rw [hspelledEquals] at hspelledKey
  rw [Kind.spelling, hspelledKey] at hspelled
  exact hspelled

/-- The model of a document that is one metadata statement. -/
theorem ofText_metadata {k : Kind} {key : String} {text : String} {ks : List Kind} {v : Value}
    (hk : k.Writable) (hkey : IsKey k key) (hks : kinds text.toList = .ok ks)
    (hv : ∀ s ctx, IsValue s ctx ks v) :
    Dialect.builtin.ofText ("metadata " ++ String.ofList k.spelling ++ " = " ++ text) =
      .ok { Model.prelude with metadata := Table.empty.insert key v } := by
  have hdoc : ∀ t, k ≠ .documentation t := by
    rintro t rfl
    cases hkey
  have htext : ("metadata " ++ String.ofList k.spelling ++ " = " ++ text).toList =
      "metadata".toList ++ ' ' :: (k.spelling ++ ' ' :: '=' :: ' ' :: text.toList) := by
    simp
  have hkinds := kinds_metadata hk hdoc hks
  rw [← htext] at hkinds
  have hreads : Draft.Reads (.start TraitRegistry.builtin.names)
      (.word "metadata" :: k :: .grammar '=' :: ks)
      { Draft.start TraitRegistry.builtin.names with metadata := Table.empty.insert key v } := by
    apply Draft.Reads.metadata_cons_iff.mpr
    refine ⟨rfl, k, key, ks, v, [], [], ?_, hkey, hv _ _, .input, .done rfl⟩
    rw [List.append_nil, List.append_nil]
  have hdocument := Draft.ReadsDocument.statements (by simp) hreads
  have hentries : HasEntries Table.empty := nofun
  rw [Dialect.ofText_eq hkinds hdocument, Draft.ofValue_toValue_eq_ok_iff hentries]
  exact ⟨rfl, rfl, rfl⟩

/-- The text of a value is read as an equal value, with no token left, wherever it stands. The
document that gives it to a metadata key has that value there, and nothing else. -/
theorem exists_same_readValue_text {v : Value} (hv : v.Legible) {text : String}
    (htext : text ∈ [v.compactText, v.prettyText]) :
    ∃ v', (v' == v) = true ∧
      (∀ file, ∃ ts, (Source.mk file text).tokens = .ok ts ∧
        ∀ s ctx, (readValue s ctx (.ofTokens ⟨file, text⟩ ts)).Gives v' []) ∧
      ∀ k key, k.Writable → IsKey k key →
        Dialect.builtin.ofText ("metadata " ++ String.ofList k.spelling ++ " = " ++ text) =
          .ok { Model.prelude with metadata := Table.empty.insert key v' } := by
  obtain ⟨ks, v', hyields, hvalue, hsame⟩ :=
    readsBack_of_isText (Json.isText_toList hv.integral htext) hv
  refine ⟨v', hsame, exists_readValue_gives hyields.kinds_eq hvalue, ?_⟩
  intro k key hk hkey
  exact ofText_metadata hk hkey hyields.kinds_eq hvalue

/-- Each kind of value, with what its text has to escape. -/
def nestedValue : Value :=
  .object [("a \"b\"\n", .array [.null, .bool true, .number (.uint 7), .number (.int (-7)),
    .number (.int 0), .array []]), ("c\\", .object [("", .string "\t/é")])]

theorem legible_nestedValue : nestedValue.Legible := by
  refine .object (by decide) ?_ ?_
  · simp only [List.forall_mem_cons]
    exact ⟨by decide, by decide, List.forall_mem_nil _⟩
  · simp only [List.forall_mem_cons]
    refine ⟨.array ?_, .object (by decide) ?_ ?_, List.forall_mem_nil _⟩
    · simp only [List.forall_mem_cons]
      exact ⟨.null, .bool true, .uint 7, .int (-7), .int 0, .array (List.forall_mem_nil _),
        List.forall_mem_nil _⟩
    · simp only [List.forall_mem_cons]
      exact ⟨by decide, List.forall_mem_nil _⟩
    · simp only [List.forall_mem_cons]
      exact ⟨.string (by decide), List.forall_mem_nil _⟩

theorem exists_same_readValue_nestedValue :
    nestedValue.Legible ∧
      nestedValue.prettyText ∈ [nestedValue.compactText, nestedValue.prettyText] ∧
      ∃ v', (v' == nestedValue) = true ∧
        (∃ ts, (Source.mk "a" nestedValue.prettyText).tokens = .ok ts ∧
          ∀ s ctx, (readValue s ctx (.ofTokens ⟨"a", nestedValue.prettyText⟩ ts)).Gives v' []) ∧
        Dialect.builtin.ofText
            ("metadata " ++ String.ofList (Kind.spelling (.string "k")) ++ " = " ++
              nestedValue.prettyText) =
          .ok { Model.prelude with metadata := Table.empty.insert "k" v' } := by
  have htext : nestedValue.prettyText ∈ [nestedValue.compactText, nestedValue.prettyText] :=
    List.mem_cons_of_mem _ List.mem_cons_self
  obtain ⟨v', hsame, hread, hmetadata⟩ := exists_same_readValue_text legible_nestedValue htext
  exact ⟨legible_nestedValue, htext, v', hsame, hread "a",
    hmetadata (.string "k") "k" (.string "k") (.string "k")⟩

end Document

end ShapeModel
