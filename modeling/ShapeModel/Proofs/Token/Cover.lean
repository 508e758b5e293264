import ShapeModel.Proofs.Token.Lexer

/-!
# Tokens cover their text

The tokens of a text stand in it one after the other, each at the position that counting gives, and
nothing but blanks and comments is between them. Lines of the text are found by their numbers.
-/

namespace ShapeModel

set_option autoImplicit false

namespace Token

/-- What can stand at the front of a text, with the test of its characters that decides it. -/
inductive IsFront (c : Char) (cs : List Char) : Front → Prop
  | gap : isGap c = true → IsFront c cs (.gap (cs.takeWhile isGap).length)
  | newline : c = '\n' → IsFront c cs (.token .newline 0)
  | comment : c = '/' → cs.head? = some '/' → IsFront c cs (commentFront cs)
  | grammar : IsFront c cs (.token (.grammar c) 0)
  | block : IsFront c cs (stringFront 3 (blockString (cs.drop 2)))
  | quoted : IsFront c cs (stringFront 1 (quotedString cs))
  | number : IsFront c cs (runFront c isNumberChar .number cs)
  | word : IsFront c cs (runFront c isWordChar .word cs)
  | fault : IsFront c cs (.fault (.unrecognizedCharacter c) 0)

theorem isFront_front (c : Char) (cs : List Char) : IsFront c cs (front c cs) := by
  rw [front]
  split
  · next h => exact .gap h
  split
  · next h => exact .newline h
  split
  · next h =>
    obtain ⟨hc, hcs⟩ := Bool.and_eq_true_iff.mp h
    exact .comment (of_decide_eq_true hc) (of_decide_eq_true hcs)
  split
  · exact .grammar
  split
  · exact .block
  split
  · exact .quoted
  split
  · exact .number
  split
  · exact .word
  · exact .fault

theorem stringFront_eq_token {k n : Nat} {r : Except StringFault (List Char × Nat)} {kind : Kind}
    (h : stringFront k r = .token kind n) : ∃ t, kind = .string t := by
  rcases r with (_ | _) | ⟨s, m⟩ <;> cases h
  exact ⟨_, rfl⟩

/-- Only spaces, tabs and carriage returns. -/
def Blanks (cs : List Char) : Prop :=
  ∀ c ∈ cs, c = ' ' ∨ c = '\t' ∨ c = '\r'

/-- What is skipped before a rest: blanks, and then a comment at most, which ends with its line. Two
slashes start a comment, and a third one would make it documentation. -/
inductive Skipped : List Char → List Char → Prop
  | blanks {gap rest : List Char} : Blanks gap → Skipped gap rest
  | comment {gap text rest : List Char} : Blanks gap → '\n' ∉ text → text.head? ≠ some '/' →
      (∀ c ∈ rest.head?, c = '\n') → Skipped (gap ++ '/' :: '/' :: text) rest

/-- The texts of these tokens are their lexemes. -/
def Spells : Kind → String → Prop
  | .word text, lexeme => text = lexeme
  | .number text, lexeme => text = lexeme
  | .grammar c, lexeme => c.toString = lexeme
  | .newline, lexeme => "\n" = lexeme
  | .string _, _ => True
  | .documentation _, _ => True

theorem commentFront_cases (cs : List Char) :
    (∃ t, commentFront cs = .token (.documentation t) (cs.takeWhile (· ≠ '\n')).length) ∨
      (commentFront cs = .gap (cs.takeWhile (· ≠ '\n')).length ∧
        ∀ text, cs.takeWhile (· ≠ '\n') ≠ '/' :: '/' :: text) := by
  rw [commentFront]
  split
  · exact .inl ⟨_, rfl⟩
  · next h => exact .inr ⟨rfl, h⟩

theorem not_newline_mem_takeWhile (cs : List Char) : '\n' ∉ cs.takeWhile (· ≠ '\n') := by
  intro h
  have hne := List.all_eq_true.mp (List.all_takeWhile (l := cs) (p := (· ≠ '\n'))) _ h
  exact of_decide_eq_true hne rfl

theorem eq_newline_of_head?_dropWhile {cs : List Char} :
    ∀ c ∈ (cs.dropWhile (· ≠ '\n')).head?, c = '\n' := by
  intro c hc
  have hdrop := List.head?_dropWhile_not (fun c : Char => decide (c ≠ '\n')) cs
  rw [hc] at hdrop
  simpa using hdrop

/-- The tokens stand in a text one after the other, each at its position, and what is between them
is skipped. The text stands behind other characters. -/
inductive Cover : List Char → List Char → List Token → Prop
  | done {before gap : List Char} : Skipped gap [] → Cover before gap []
  | token {before gap rest : List Char} {t : Token} {ts : List Token} :
      Skipped gap (t.lexeme.toList ++ rest) → t.lexeme ≠ "" → Spells t.kind t.lexeme →
      t.position.Behind (before ++ gap) → Cover (before ++ gap ++ t.lexeme.toList) rest ts →
      Cover before (gap ++ (t.lexeme.toList ++ rest)) (t :: ts)

theorem Blanks.append {a b : List Char} (ha : Blanks a) (hb : Blanks b) : Blanks (a ++ b) := by
  intro c hc
  rcases List.mem_append.mp hc with hc | hc
  · exact ha c hc
  · exact hb c hc

/-- Behind a comment, nothing is skipped before the line feed. -/
theorem Skipped.eq_nil {gap rest : List Char} (h : Skipped gap rest)
    (hhead : ∀ c ∈ (gap ++ rest).head?, c = '\n') : gap = [] := by
  cases gap with
  | nil => rfl
  | cons c gap =>
    obtain rfl := hhead c rfl
    generalize hcs : '\n' :: gap = cs at h
    cases h with
    | blanks hgap =>
      subst hcs
      simpa using hgap '\n' List.mem_cons_self
    | @comment gap' text _ hgap =>
      cases gap' with
      | nil => simp at hcs
      | cons d gap' =>
        cases hcs
        simpa using hgap '\n' List.mem_cons_self

theorem Skipped.append {a b rest : List Char} (ha : Skipped a (b ++ rest))
    (hb : Skipped b rest) : Skipped (a ++ b) rest := by
  cases ha with
  | blanks ha =>
    cases hb with
    | blanks hb => exact .blanks (ha.append hb)
    | @comment gap text _ hgap htext hslash hrest =>
      rw [← List.append_assoc]
      exact .comment (ha.append hgap) htext hslash hrest
  | comment ha htext hslash hhead =>
    obtain rfl := hb.eq_nil hhead
    rw [List.append_nil]
    exact .comment ha htext hslash hhead

theorem Cover.skip {before gap rest : List Char} {ts : List Token} (hgap : Skipped gap rest)
    (h : Cover (before ++ gap) rest ts) : Cover before (gap ++ rest) ts := by
  cases h with
  | done hrest => exact .done (Skipped.append (by rwa [List.append_nil]) hrest)
  | token hgap' hne hspells hposition hcover =>
    rw [← List.append_assoc]
    rw [List.append_assoc before] at hposition hcover
    exact .token (hgap.append hgap') hne hspells hposition hcover

/-- The token stands in the text as three slashes and all the rest of their line. Its own text is
that rest without the blanks at both ends. -/
def Documents (cs : List Char) (t : Token) (text : String) : Prop :=
  ∃ before raw after, cs = before ++ '/' :: '/' :: '/' :: (raw ++ after) ∧
    t.position.Behind before ∧ t.lexeme.toList = '/' :: '/' :: '/' :: raw ∧ '\n' ∉ raw ∧
    (∀ c ∈ after.head?, c = '\n') ∧ text = String.ofList (Text.trim raw)

theorem documents_of_front {p : Position} {before cs : List Char} {c : Char} {text : String}
    {n : Nat} (hp : p.Behind before) (h : front c cs = .token (.documentation text) n) :
    Documents (before ++ c :: cs) ⟨.documentation text, String.ofList (c :: cs.take n), p⟩
      text := by
  have hfront := isFront_front c cs
  rw [h] at hfront
  generalize hf : Front.token (.documentation text) n = f at hfront
  cases hfront with
  | comment hc =>
    have hline := not_newline_mem_takeWhile cs
    rw [commentFront] at hf
    split at hf
    · next raw hraw =>
      cases hf
      have hcs : '/' :: '/' :: (raw ++ cs.dropWhile (· ≠ '\n')) = cs := by
        rw [← List.cons_append, ← List.cons_append, ← hraw, List.takeWhile_append_dropWhile]
      refine ⟨before, raw, _, by rw [hcs, hc], hp, ?_, ?_, eq_newline_of_head?_dropWhile, rfl⟩
      · rw [String.toList_ofList, take_length_takeWhile, hc, hraw]
      · rw [hraw] at hline
        exact fun hmem => hline (by simp [hmem])
    · cases hf
  | block =>
    obtain ⟨_, ht⟩ := stringFront_eq_token hf.symm
    cases ht
  | quoted =>
    obtain ⟨_, ht⟩ := stringFront_eq_token hf.symm
    cases ht
  | _ => cases hf

theorem documents_of_scanFrom {p : Position} {pending : Nat} {before cs : List Char}
    {ts : List Token} (hp : p.Behind before) (h : scanFrom p pending cs = .ok ts) {t : Token}
    (ht : t ∈ ts) {text : String} (hk : t.kind = .documentation text) :
    t.Documents (before ++ cs) text := by
  induction cs generalizing p pending before ts with
  | nil =>
    cases h
    cases ht
  | cons c cs ih =>
    have ih {pending : Nat} {ts : List Token} (h : scanFrom (p.step c) pending cs = .ok ts)
        (ht : t ∈ ts) : t.Documents (before ++ c :: cs) text := by
      rw [List.append_cons]
      exact ih (hp.step c) h ht
    cases pending with
    | succ n => exact ih h ht
    | zero =>
      cases hf : front c cs with
      | gap n =>
        rw [scanFrom_of_gap p hf] at h
        exact ih h ht
      | token k n =>
        obtain ⟨us, hus, rfl⟩ := (scanFrom_eq_ok_iff_of_token hf).mp h
        rcases List.mem_cons.mp ht with rfl | ht
        · cases hk
          exact documents_of_front hp hf
        · exact ih hus ht
      | fault e n =>
        rw [scanFrom_of_fault p hf] at h
        cases h

section

variable {before cs : List Char} {ts : List Token} {t : Token}

theorem Cover.exists_of_mem (h : Cover before cs ts) (ht : t ∈ ts) :
    ∃ between after, cs = between ++ (t.lexeme.toList ++ after) ∧
      t.position.Behind (before ++ between) ∧ t.lexeme ≠ "" ∧ Spells t.kind t.lexeme := by
  induction h with
  | done => cases ht
  | @token before gap rest u us hgap hne hspells hposition _ ih =>
    rcases List.mem_cons.mp ht with rfl | ht
    · exact ⟨gap, rest, rfl, hposition, hne, hspells⟩
    · obtain ⟨between, after, rfl, hbehind, hrest⟩ := ih ht
      refine ⟨gap ++ (u.lexeme.toList ++ between), after, ?_, ?_, hrest⟩
      · simp only [List.append_assoc]
      · simpa only [List.append_assoc] using hbehind

theorem utf8ByteSize_ofList_append (a b : List Char) :
    (String.ofList (a ++ b)).utf8ByteSize =
      (String.ofList a).utf8ByteSize + (String.ofList b).utf8ByteSize := by
  rw [String.ofList_append, String.utf8ByteSize_append]

theorem stop_eq (h : t.position.Behind before) :
    t.stop = (String.ofList (before ++ t.lexeme.toList)).utf8ByteSize := by
  rw [stop, h.offset, utf8ByteSize_ofList_append, String.ofList_toList]

/-- No token starts before the one in front of it has ended. -/
theorem Cover.ordered (h : Cover before cs ts) :
    ts.Pairwise fun t u => t.stop ≤ u.position.offset := by
  induction h with
  | done => exact .nil
  | token _ _ _ hposition hcover ih =>
    refine List.pairwise_cons.mpr ⟨fun u hu => ?_, ih⟩
    obtain ⟨between, _, _, hbehind, _⟩ := hcover.exists_of_mem hu
    rw [stop_eq hposition, hbehind.offset, utf8ByteSize_ofList_append _ between]
    exact Nat.le_add_right _ _

end

end Token

namespace Source

/-- Tabs, carriage returns, a comment, and a string over three lines. -/
def indented : Source :=
  ⟨"a", "\t// no token\r\nab.c\t" ++ r#"{ -1.5, "x\n""# ++ "\n/// d \r\n \"\"\"\n\té\n \"\"\""⟩

end Source

end ShapeModel
