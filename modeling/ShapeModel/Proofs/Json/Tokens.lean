import ShapeModel.Json.Printer
import ShapeModel.Proofs.Number.Literal
import ShapeModel.Proofs.Token.Quoted

/-!
# JSON as tokens

The parts of JSON are tokens of documents too: names of constants are words, integers are numbers,
and strings are strings as long as the only control characters in them are line feeds and tabs. Each
part ends where it ends in JSON if what follows is none of its characters.
-/

namespace ShapeModel

set_option autoImplicit false

namespace Token

/-- Nothing follows, or a mark that opens no string. -/
def Stops (rest : List Char) : Prop :=
  ∀ c ∈ rest.head?, c ∈ markChars ∧ c ≠ '"'

/-- The tokens of the text are of these kinds, whatever it stops at. -/
def Yields (text : List Char) (ks : List Kind) : Prop :=
  ∀ rest, Stops rest → kinds (text ++ rest) = (kinds rest).map (ks ++ ·)

theorem stops_nil : Stops [] := by
  intro c hc
  cases hc

theorem stops_cons {c : Char} (hc : c ∈ markChars) (hquote : c ≠ '"') (rest : List Char) :
    Stops (c :: rest) := by
  intro d hd
  cases hd
  exact ⟨hc, hquote⟩

section

variable {rest : List Char}

theorem Stops.isWordChar_eq (h : Stops rest) : ∀ c ∈ rest.head?, isWordChar c = false := by
  intro c hc
  exact isWordChar_of_mem_markChars c (List.mem_cons_of_mem _ (h c hc).1)

theorem Stops.isNumberChar_eq (h : Stops rest) : ∀ c ∈ rest.head?, isNumberChar c = false := by
  intro c hc
  have hpoint : '.' ∉ markChars := by decide
  have hne : c ≠ '.' := fun hc' => hpoint (hc' ▸ (h c hc).1)
  simp [isNumberChar, isDigit_of_mem_markChars c (h c hc).1, hne]

theorem Stops.head?_ne (h : Stops rest) : rest.head? ≠ some '"' := by
  intro hc
  exact (h '"' hc).2 rfl

end

theorem map_append_map_append {ε α : Type} (x : Except ε (List α)) (ks us : List α) :
    (x.map (us ++ ·)).map (ks ++ ·) = x.map (ks ++ us ++ ·) := by
  cases x with
  | error e => rfl
  | ok ls => exact congrArg Except.ok (List.append_assoc ks us ls).symm

section

variable {text text' : List Char} {ks us : List Kind}

theorem yields_nil : Yields [] [] := by
  intro rest _
  rw [List.nil_append]
  cases kinds rest <;> rfl

theorem Yields.kinds_eq (h : Yields text ks) : kinds text = .ok ks := by
  have hkinds := h [] stops_nil
  rwa [List.append_nil, kinds_nil, Except.map, List.append_nil] at hkinds

theorem Yields.append (h : Yields text ks) (h' : Yields text' us)
    (hstops : ∀ rest, Stops (text' ++ rest)) : Yields (text ++ text') (ks ++ us) := by
  intro rest hrest
  rw [List.append_assoc, h _ (hstops rest), h' rest hrest, map_append_map_append]

/-- A text that is scanned alike before any other needs not be stopped. -/
theorem Yields.append_left (h : Yields text ks)
    (h' : ∀ rest, kinds (text' ++ rest) = (kinds rest).map (us ++ ·)) :
    Yields (text' ++ text) (us ++ ks) := by
  intro rest hrest
  rw [List.append_assoc, h', h rest hrest, map_append_map_append]

theorem Yields.cons_grammar {c : Char} (hc : c ∈ grammarChars) (h : Yields text ks) :
    Yields (c :: text) (.grammar c :: ks) :=
  @append_left _ [c] _ [.grammar c] h fun _ =>
    kinds_of_token (front_of_isGrammar (isGrammar_iff.mpr hc))

end

/-- Blanks and line feeds. -/
def Layout (gap : List Char) : Prop :=
  ∀ c ∈ gap, c = ' ' ∨ c = '\n'

theorem layout_nil : Layout [] := by
  intro c hc
  cases hc

theorem layout_newline (depth : Nat) : Layout (Json.newline depth) := by
  intro c hc
  rcases List.mem_cons.mp hc with hc | hc
  · exact .inr hc
  · exact .inl (List.eq_of_mem_replicate hc)

theorem Layout.kinds_append {gap : List Char} (h : Layout gap) (rest : List Char) :
    kinds (gap ++ rest) =
      (kinds rest).map (List.replicate (gap.count '\n') .newline ++ ·) := by
  induction gap with
  | nil =>
    rw [List.nil_append]
    cases kinds rest <;> rfl
  | cons c gap ih =>
    obtain ⟨hc, hgap⟩ := List.forall_mem_cons.mp h
    rcases hc with rfl | rfl
    · rw [List.cons_append, kinds_gap_cons (by decide), ih hgap,
        List.count_cons_of_ne (by decide)]
    · have hnewline := @kinds_of_token '\n' (gap ++ rest) _ _ front_newline
      rw [List.cons_append, hnewline, List.drop_zero, ih hgap, List.count_cons_self]
      cases kinds rest <;> rfl

theorem Layout.stops {gap : List Char} (h : Layout gap) {c : Char} (hc : c ∈ markChars)
    (hquote : c ≠ '"') (rest : List Char) : Stops (gap ++ c :: rest) := by
  cases gap with
  | nil => exact stops_cons hc hquote rest
  | cons d gap =>
    rcases h d List.mem_cons_self with rfl | rfl
    · exact stops_cons (by decide) (by decide) _
    · exact stops_cons (by decide) (by decide) _

theorem yields_word {w : String} {c : Char} {cs : List Char} (hw : w.toList = c :: cs)
    (hd : c.isDigit = false) (hcs : (c :: cs).all isWordChar = true) :
    Yields w.toList [.word w] := by
  intro rest hrest
  exact kinds_word hw hd (List.all_eq_true.mp hcs) hrest.isWordChar_eq

theorem yields_intText (i : Int) : Yields (intText i) [.number (String.ofList (intText i))] := by
  obtain ⟨d, ds, hds, hdigit⟩ := exists_toDigits_eq_cons i.natAbs
  obtain ⟨hd, hdigits⟩ := List.forall_mem_cons.mp hdigit
  have hpart : ∀ c ∈ ds, isNumberChar c = true := by
    intro c hc
    simp [isNumberChar, hdigits c hc]
  intro rest hrest
  rw [intText, hds]
  split
  · exact kinds_number (.inr rfl) hd hpart hrest.isNumberChar_eq
  · exact kinds_number (.inl rfl) hd hpart hrest.isNumberChar_eq

/-- Line feeds and tabs are the only control characters. -/
def Legible (s : String) : Prop :=
  ∀ c ∈ s.toList, c.toNat < 32 → c = '\n' ∨ c = '\t'

instance (s : String) : Decidable (Legible s) :=
  List.decidableBAll (fun c : Char => c.toNat < 32 → c = '\n' ∨ c = '\t') s.toList

theorem escapes_escape {c : Char} (h : c.toNat < 32 → c = '\n' ∨ c = '\t') :
    Escapes Json.escape c := by
  by_cases hq : c = '"'
  · subst hq
    exact escapes_of_unescape? rfl (by decide) rfl
  by_cases hb : c = '\\'
  · subst hb
    exact escapes_of_unescape? rfl (by decide) rfl
  by_cases hn : c = '\n'
  · subst hn
    exact escapes_of_unescape? rfl (by decide) rfl
  by_cases ht : c = '\t'
  · subst ht
    exact escapes_of_unescape? rfl (by decide) rfl
  have hcode : 32 ≤ c.toNat := Nat.le_of_not_lt fun hlt => (h hlt).elim hn ht
  have hr : c ≠ '\r' := by
    rintro rfl
    revert hcode
    decide
  have hescape : Json.escape c = [c] := by
    rw [Json.escape, if_neg hq, if_neg hb, if_neg hn, if_neg hr, if_neg ht, if_neg (by omega),
      if_neg (by omega), if_neg (by omega)]
  exact escapes_of_plain hescape hb hq hn

theorem yields_quote {s : String} (hs : Legible s) : Yields (Json.quote s) [.string s] := by
  intro rest hrest
  have hescapes : ∀ c ∈ s.toList, Escapes Json.escape c := by
    intro c hc
    exact escapes_escape (hs c hc)
  have hkinds := kinds_quoted hescapes hrest.head?_ne
  rw [String.ofList_toList] at hkinds
  rw [Json.quote, List.cons_append, List.cons_append, List.append_assoc, List.singleton_append,
    hkinds]
  rfl

end Token

end ShapeModel
