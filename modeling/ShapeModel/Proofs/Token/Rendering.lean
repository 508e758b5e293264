import ShapeModel.Proofs.Token.Lexer
import ShapeModel.Proofs.Token.Quoted

/-!
# Tokens written out

Every list of tokens that a document can have is written with single spaces between the tokens, and
scanning what is written gives the tokens back. Each spelling ends where a space follows; only the
text of a documentation line runs on, so a line feed has to come next.
-/

namespace ShapeModel

set_option autoImplicit false

namespace Token

/-- Quotes, backslashes and line feeds are written with a backslash. -/
def escapedChar (c : Char) : List Char :=
  if c = '\\' then ['\\', '\\']
  else if c = '"' then ['\\', '"']
  else if c = '\n' then ['\\', 'n']
  else [c]

namespace Kind

/-- How a token is written. -/
def spelling : Kind → List Char
  | .word t => t.toList
  | .grammar c => [c]
  | .string t => '"' :: t.toList.flatMap escapedChar ++ ['"']
  | .number t => t.toList
  | .documentation t => ['/', '/', '/', ' '] ++ t.toList
  | .newline => ['\n']

/-- The tokens that can be written. -/
inductive Writable : Kind → Prop
  | word {t : String} {c : Char} {cs : List Char} : t.toList = c :: cs → c.isDigit = false →
      (∀ d ∈ c :: cs, isWordChar d = true) → Writable (.word t)
  | grammar {c : Char} : c ∈ grammarChars → Writable (.grammar c)
  | string (t : String) : Writable (.string t)
  | number {t : String} {sign cs : List Char} {c : Char} : sign = [] ∨ sign = ['-'] →
      t.toList = sign ++ c :: cs → c.isDigit = true →
      (∀ d ∈ cs, d.isDigit = true ∨ d = '.') → Writable (.number t)
  | documentation {t : String} : Text.trim t.toList = t.toList → '\n' ∉ t.toList →
      Writable (.documentation t)
  | newline : Writable .newline

theorem writable_word {t : String} {c : Char} {cs : List Char} (ht : t.toList = c :: cs)
    (hc : c.isDigit = false) (hcs : (c :: cs).all isWordChar = true) : Writable (.word t) :=
  .word ht hc (List.all_eq_true.mp hcs)

end Kind

/-- What comes after documentation, if anything, is a line feed. -/
def DocumentationEndsLines (ks : List Kind) : Prop :=
  ∀ t k, [.documentation t, k] <:+: ks → k = .newline

/-- The tokens with single spaces between them. -/
def written (ks : List Kind) : List Char :=
  [' '].intercalate (ks.map Kind.spelling)

/-- What follows a token: nothing, or a space. -/
inductive Follows : List Char → Prop
  | nothing : Follows []
  | space (rest : List Char) : Follows (' ' :: rest)

theorem Follows.head?_not {rest : List Char} {p : Char → Bool} (h : Follows rest)
    (hp : p ' ' = false) : ∀ c ∈ rest.head?, p c = false := by
  intro c hc
  cases h with
  | nothing => cases hc
  | space rest =>
    cases hc
    exact hp

theorem escapes_escapedChar (c : Char) : Escapes escapedChar c := by
  by_cases hb : c = '\\'
  · subst hb
    exact escapes_of_unescape? rfl (by decide) rfl
  by_cases hq : c = '"'
  · subst hq
    exact escapes_of_unescape? rfl (by decide) rfl
  by_cases hn : c = '\n'
  · subst hn
    exact escapes_of_unescape? rfl (by decide) rfl
  · exact escapes_of_plain (by rw [escapedChar, if_neg hb, if_neg hq, if_neg hn]) hb hq hn

theorem trim_space_cons (cs : List Char) : Text.trim (' ' :: cs) = Text.trim cs := by
  rfl

theorem trim_append_space (cs : List Char) : Text.trim (cs ++ [' ']) = Text.trim cs := by
  rw [Text.trim, Text.trim, List.dropWhile_append]
  split
  · next h =>
    rw [List.isEmpty_iff.mp h]
    rfl
  · rw [List.reverse_append]
    rfl

/-- A comment takes all that stands before the line feed. -/
theorem front_documentation {text rest : List Char} (htext : '\n' ∉ text)
    (hrest : ∀ c ∈ rest.head?, c = '\n') :
    front '/' ('/' :: '/' :: text ++ rest) =
      .token (.documentation (String.ofList (Text.trim text))) (text.length + 2) := by
  have hline : ('/' :: '/' :: text ++ rest).takeWhile (· ≠ '\n') = '/' :: '/' :: text := by
    apply takeWhile_append_of_boundary
    · intro c hc
      simp only [List.mem_cons] at hc
      rcases hc with rfl | rfl | hc
      · rfl
      · rfl
      · exact decide_eq_true fun h => htext (h ▸ hc)
    · intro c hc
      rw [hrest c hc]
      rfl
  have hgap : isGap '/' = false := by decide
  rw [front, if_neg (by simp [hgap]), if_neg (by decide), if_pos (by rfl), commentFront, hline]
  rfl

/-- A token is read back from its spelling, and what follows is left. -/
theorem kinds_spelling {k : Kind} (hk : k.Writable) {rest : List Char} (hrest : Follows rest)
    (hdoc : ∀ t, k = .documentation t → rest = [] ∨ ∃ cs, rest = ' ' :: '\n' :: cs) :
    kinds (k.spelling ++ rest) = (kinds rest).map (k :: ·) := by
  cases hk with
  | @word t c cs ht hd hw => exact kinds_word ht hd hw (hrest.head?_not (by decide))
  | grammar hc => exact kinds_of_token (front_of_isGrammar (isGrammar_iff.mpr hc))
  | string t =>
    have hescapes : ∀ c ∈ t.toList, Escapes escapedChar c := fun c _ => escapes_escapedChar c
    have hquote : rest.head? ≠ some '"' := by
      cases hrest <;> simp
    have hkinds := kinds_quoted hescapes hquote
    rw [String.ofList_toList] at hkinds
    rw [Kind.spelling, List.cons_append, List.cons_append, List.append_assoc,
      List.singleton_append, hkinds]
  | @number t sign cs c hsign ht hc hcs =>
    have hpart : ∀ d ∈ cs, isNumberChar d = true := by
      intro d hd
      simpa [isNumberChar] using hcs d hd
    have hkinds := kinds_number hsign hc hpart (hrest.head?_not (by decide))
    rwa [← ht, String.ofList_toList] at hkinds
  | @documentation t htrim hline =>
    have hline : '\n' ∉ ' ' :: t.toList := by
      simpa using hline
    rw [Kind.spelling]
    rcases hdoc t rfl with rfl | ⟨cs, rfl⟩
    · have hfront := @front_documentation (' ' :: t.toList) [] hline (by simp)
      rw [trim_space_cons, htrim, String.ofList_toList] at hfront
      refine (kinds_of_token hfront).trans ?_
      rw [List.drop_eq_nil_of_le (by simp)]
    · have hline' : '\n' ∉ ' ' :: t.toList ++ [' '] := by
        simpa using hline
      have hfront := @front_documentation (' ' :: t.toList ++ [' ']) ('\n' :: cs) hline' (by simp)
      rw [trim_append_space, trim_space_cons, htrim, String.ofList_toList] at hfront
      have happend : ['/', '/', '/', ' '] ++ t.toList ++ ' ' :: '\n' :: cs =
          '/' :: ('/' :: '/' :: (' ' :: t.toList ++ [' ']) ++ '\n' :: cs) := by
        simp
      rw [happend, kinds_of_token hfront, kinds_gap_cons (by decide)]
      congr 2
      exact List.drop_left
  | newline => exact kinds_of_token front_newline

theorem kinds_spelling_space {k : Kind} (hk : k.Writable) (hdoc : ∀ t, k ≠ .documentation t)
    (rest : List Char) : kinds (k.spelling ++ ' ' :: rest) = (kinds rest).map (k :: ·) := by
  rw [kinds_spelling hk (.space rest) fun t ht => absurd ht (hdoc t), kinds_gap_cons (by decide)]

theorem DocumentationEndsLines.tail {k : Kind} {ks : List Kind}
    (h : DocumentationEndsLines (k :: ks)) : DocumentationEndsLines ks := by
  intro t l hl
  exact h t l (List.infix_cons hl)

theorem written_cons_cons (k l : Kind) (ks : List Kind) :
    written (k :: l :: ks) = k.spelling ++ ' ' :: written (l :: ks) := by
  simp [written, List.intercalate]

theorem kinds_written {ks : List Kind} (h : ∀ k ∈ ks, k.Writable)
    (hdoc : DocumentationEndsLines ks) : kinds (written ks) = .ok ks := by
  induction ks with
  | nil => exact kinds_nil
  | cons k ks ih =>
    have hk := h k List.mem_cons_self
    cases ks with
    | nil =>
      have hwritten : written [k] = k.spelling ++ [] := by
        simp [written, List.intercalate]
      rw [hwritten, kinds_spelling hk .nothing fun _ _ => .inl rfl, kinds_nil]
      rfl
    | cons l ks =>
      rw [written_cons_cons, kinds_spelling hk (.space _), kinds_gap_cons (by decide),
        ih (fun l hl => h l (List.mem_cons_of_mem _ hl)) hdoc.tail]
      · rfl
      · rintro t rfl
        obtain rfl := hdoc t l ⟨[], ks, rfl⟩
        right
        cases ks with
        | nil => exact ⟨[], rfl⟩
        | cons m ks => exact ⟨_, congrArg _ (written_cons_cons .newline m ks)⟩

end Token

/-- Writing tokens and scanning the text gives the tokens back. -/
theorem Source.tokens_written (file : String) {ks : List Token.Kind} (h : ∀ k ∈ ks, k.Writable)
    (hdoc : Token.DocumentationEndsLines ks) :
    ∃ ts, (Source.mk file (String.ofList (Token.written ks))).tokens = .ok ts ∧
      ts.map (·.kind) = ks := by
  rw [Token.tokens_kinds_iff, String.toList_ofList]
  exact Token.kinds_written h hdoc

/-- One token of each kind, with what is awkward about it. -/
def Token.mixedKinds : List Token.Kind :=
  [.word "@a.1#b", .number "-1..5", .grammar '{', .string "\"\\n\n\r\x00", .string "", .newline,
   .documentation "/ a \"b\" // c", .newline, .documentation ""]

theorem Source.tokens_written_mixedKinds :
    (∀ k ∈ Token.mixedKinds, k.Writable) ∧ Token.DocumentationEndsLines Token.mixedKinds ∧
      ∃ ts, (Source.mk "a" (String.ofList (Token.written Token.mixedKinds))).tokens = .ok ts ∧
        ts.map (·.kind) = Token.mixedKinds := by
  have hk : ∀ k ∈ Token.mixedKinds, k.Writable := by
    simp only [Token.mixedKinds, List.forall_mem_cons]
    have hnumber := @Token.Kind.Writable.number "-1..5" ['-'] ['.', '.', '5'] '1' (.inr rfl) rfl
      (by decide) (by simp [show '5'.isDigit = true by decide])
    exact ⟨Token.Kind.writable_word rfl (by decide) (by decide), hnumber, .grammar (by decide),
      .string _, .string _, .newline, .documentation (by decide) (by decide), .newline,
      .documentation (by decide) (by decide), nofun⟩
  have hdoc : Token.DocumentationEndsLines Token.mixedKinds := by
    intro t k h
    have hfollows : t = "/ a \"b\" // c" ∧ k = .newline := by
      simpa [Token.mixedKinds, List.infix_cons_iff] using h
    exact hfollows.2
  exact ⟨hk, hdoc, Source.tokens_written "a" hk hdoc⟩

end ShapeModel
