import ShapeModel.Proofs.Token.Scan

/-!
# The kinds of the tokens of a text

What the tokens of a text are does not depend on where the text stands. Forgetting positions and
lexemes turns scanning into a function of the characters alone, which reads off one front after the
other. The classes of characters that decide a front exclude each other.
-/

namespace ShapeModel

set_option autoImplicit false

namespace Token

/-- The kinds of the tokens of a text, or its first lexical error. -/
def kinds : List Char → Except LexicalError (List Kind)
  | [] => .ok []
  | c :: cs =>
    match front c cs with
    | .gap n => kinds (cs.drop n)
    | .token k n => (kinds (cs.drop n)).map (k :: ·)
    | .fault e _ => .error e
termination_by cs => cs.length
decreasing_by
  all_goals
    rw [List.length_drop, List.length_cons]
    omega

theorem kinds_nil : kinds [] = .ok [] := by
  rw [kinds]

theorem kinds_of_gap {c : Char} {cs : List Char} {n : Nat} (h : front c cs = .gap n) :
    kinds (c :: cs) = kinds (cs.drop n) := by
  rw [kinds, h]

theorem kinds_of_token {c : Char} {cs : List Char} {k : Kind} {n : Nat}
    (h : front c cs = .token k n) : kinds (c :: cs) = (kinds (cs.drop n)).map (k :: ·) := by
  rw [kinds, h]

theorem kinds_of_fault {c : Char} {cs : List Char} {e : LexicalError} {n : Nat}
    (h : front c cs = .fault e n) : kinds (c :: cs) = .error e := by
  rw [kinds, h]

theorem scanFrom_of_gap {c : Char} {cs : List Char} {n : Nat} (p : Position)
    (h : front c cs = .gap n) : scanFrom p 0 (c :: cs) = scanFrom (p.step c) n cs := by
  rw [scanFrom, h]

theorem scanFrom_of_token {c : Char} {cs : List Char} {k : Kind} {n : Nat} (p : Position)
    (h : front c cs = .token k n) :
    scanFrom p 0 (c :: cs) =
      (scanFrom (p.step c) n cs).map (⟨k, String.ofList (c :: cs.take n), p⟩ :: ·) := by
  rw [scanFrom, h]
  simp only []
  cases scanFrom (p.step c) n cs <;> rfl

theorem scanFrom_eq_ok_iff_of_token {c : Char} {cs : List Char} {k : Kind} {n : Nat} {p : Position}
    {ts : List Token} (h : front c cs = .token k n) :
    scanFrom p 0 (c :: cs) = .ok ts ↔ ∃ us, scanFrom (p.step c) n cs = .ok us ∧
      ts = ⟨k, String.ofList (c :: cs.take n), p⟩ :: us := by
  rw [scanFrom_of_token p h]
  cases scanFrom (p.step c) n cs <;> simp [Except.map, eq_comm]

theorem scanFrom_of_fault {c : Char} {cs : List Char} {e : LexicalError} {n : Nat} (p : Position)
    (h : front c cs = .fault e n) :
    scanFrom p 0 (c :: cs) = .error (e, p.advance ((c :: cs).take n)) := by
  rw [scanFrom, h]

/-- The outcome of a scan without positions and lexemes. -/
def scannedKinds : Except (LexicalError × Position) (List Token) → Except LexicalError (List Kind)
  | .ok ts => .ok (ts.map (·.kind))
  | .error (e, _) => .error e

/-- Pending characters are those that `kinds` drops at once. -/
theorem scannedKinds_scanFrom (p : Position) (pending : Nat) (cs : List Char) :
    scannedKinds (scanFrom p pending cs) = kinds (cs.drop pending) := by
  induction cs generalizing p pending with
  | nil => rw [List.drop_nil, kinds_nil, scanFrom, scannedKinds, List.map_nil]
  | cons c cs ih =>
    cases pending with
    | succ n => rw [scanFrom, ih, List.drop_succ_cons]
    | zero =>
      rw [List.drop_zero, scanFrom]
      cases h : front c cs with
      | gap n => rw [kinds_of_gap h, ← ih (p.step c) n]
      | token k n =>
        rw [kinds_of_token h, ← ih (p.step c) n]
        simp only []
        cases scanFrom (p.step c) n cs <;> rfl
      | fault e n =>
        rw [kinds_of_fault h]
        rfl

theorem scannedKinds_scanFrom_zero (p : Position) (cs : List Char) :
    scannedKinds (scanFrom p 0 cs) = kinds cs := by
  rw [scannedKinds_scanFrom, List.drop_zero]

/-- Characters that belong to what was read before only move the position. -/
theorem scanFrom_eq (p : Position) (pending : Nat) (cs : List Char) :
    scanFrom p pending cs = scanFrom (p.advance (cs.take pending)) 0 (cs.drop pending) := by
  induction cs generalizing p pending with
  | nil => simp [scanFrom]
  | cons c cs ih =>
    cases pending with
    | zero => rfl
    | succ n =>
      rw [scanFrom, ih]
      rfl

/-- The characters that no word or number starts with. -/
def markChars : List Char :=
  [' ', '\t', '\r', '\n', '/', '"'] ++ grammarChars

theorem isWordChar_of_mem_markChars : ∀ c ∈ '-' :: markChars, isWordChar c = false := by
  have hall : ('-' :: markChars).all (fun c => isWordChar c == false) = true := by decide +kernel
  simpa only [List.all_eq_true, beq_iff_eq] using hall

theorem isDigit_of_mem_markChars : ∀ c ∈ markChars, c.isDigit = false := by
  have hall : markChars.all (fun c => c.isDigit == false) = true := by decide
  simpa only [List.all_eq_true, beq_iff_eq] using hall

theorem isGrammar_iff {c : Char} : isGrammar c = true ↔ c ∈ grammarChars :=
  List.contains_iff_mem

theorem takeWhile_append_of_head? {p : Char → Bool} {rest : List Char}
    (hrest : ∀ c ∈ rest.head?, p c = false) (cs : List Char) :
    (cs ++ rest).takeWhile p = cs.takeWhile p := by
  induction cs with
  | nil =>
    cases rest with
    | nil => rfl
    | cons c rest => simp [hrest c rfl]
  | cons c cs ih => rw [List.cons_append, List.takeWhile_cons, List.takeWhile_cons, ih]

theorem takeWhile_append_of_boundary {p : Char → Bool} {cs rest : List Char}
    (hcs : ∀ c ∈ cs, p c = true) (hrest : ∀ c ∈ rest.head?, p c = false) :
    (cs ++ rest).takeWhile p = cs := by
  rw [takeWhile_append_of_head? hrest]
  exact List.takeWhile_eq_self_iff.mpr hcs

theorem take_length_takeWhile (p : Char → Bool) (cs : List Char) :
    cs.take (cs.takeWhile p).length = cs.takeWhile p :=
  (List.prefix_iff_eq_take.mp (List.takeWhile_prefix p)).symm

theorem drop_length_takeWhile (p : Char → Bool) (cs : List Char) :
    cs.drop (cs.takeWhile p).length = cs.dropWhile p := by
  have h : (cs.takeWhile p ++ cs.dropWhile p).drop (cs.takeWhile p).length = cs.dropWhile p :=
    List.drop_left
  rwa [List.takeWhile_append_dropWhile] at h

theorem front_of_isGap {c : Char} {cs : List Char} (h : isGap c = true) :
    front c cs = .gap (cs.takeWhile isGap).length := by
  simp [front, h]

theorem front_newline {cs : List Char} : front '\n' cs = .token .newline 0 := by
  rfl

theorem commentFront_of_not_exists {cs : List Char}
    (h : ¬∃ text, cs.takeWhile (· ≠ '\n') = '/' :: '/' :: text) :
    commentFront cs = .gap (cs.takeWhile (· ≠ '\n')).length := by
  rw [commentFront]
  split
  · next text hline => exact absurd ⟨text, hline⟩ h
  · rfl

/-- A carriage return is no slash, and it is trimmed from documentation. -/
theorem front_of_isGrammar {c : Char} {cs : List Char} (h : isGrammar c = true) :
    front c cs = .token (.grammar c) 0 := by
  have hall : grammarChars.all (fun c => isGap c = false ∧ c ≠ '\n' ∧ c ≠ '/') = true := by decide
  simp only [List.all_eq_true, decide_eq_true_eq] at hall
  obtain ⟨hgap, hnewline, hslash⟩ := hall c (isGrammar_iff.mp h)
  simp [front, hgap, hnewline, hslash, h]

theorem blockDelimiter_isPrefixOf {c : Char} {cs : List Char} :
    blockDelimiter.isPrefixOf (c :: cs) = true → c = '"' := by
  intro h
  obtain ⟨rest, hrest⟩ := List.isPrefixOf_iff_prefix.mp h
  cases hrest
  rfl

theorem blockDelimiter_isPrefixOf_append_newline (c : Char) (cs b : List Char) :
    blockDelimiter.isPrefixOf (c :: (cs ++ '\n' :: b)) = blockDelimiter.isPrefixOf (c :: cs) := by
  rcases cs with _ | ⟨d, _ | ⟨e, cs⟩⟩ <;> simp [blockDelimiter, List.isPrefixOf]

/-- What starts with no mark is a number, a word or a fault. -/
theorem front_of_not_mem_markChars {c : Char} {cs : List Char} (h : c ∉ markChars) :
    front c cs =
      if c.isDigit || (c = '-' && cs.head?.any Char.isDigit) then
        runFront c isNumberChar .number cs
      else if isWordChar c then runFront c isWordChar .word cs
      else .fault (.unrecognizedCharacter c) 0 := by
  simp only [markChars, List.mem_append, List.mem_cons, List.not_mem_nil, or_false,
    not_or] at h
  obtain ⟨⟨hspace, htab, hreturn, hnewline, hslash, hquote⟩, hgrammar⟩ := h
  have hg : isGrammar c = false := Bool.eq_false_iff.mpr (mt isGrammar_iff.mp hgrammar)
  have hb : blockDelimiter.isPrefixOf (c :: cs) = false :=
    Bool.eq_false_iff.mpr (mt blockDelimiter_isPrefixOf hquote)
  simp [front, isGap, hspace, htab, hreturn, hnewline, hslash, hquote, hg, hb]

theorem front_of_word {c : Char} {cs rest : List Char} (hd : c.isDigit = false)
    (hc : ∀ d ∈ c :: cs, isWordChar d = true) (hrest : ∀ d ∈ rest.head?, isWordChar d = false) :
    front c (cs ++ rest) = .token (.word (String.ofList (c :: cs))) cs.length := by
  have hw : isWordChar c = true := hc c List.mem_cons_self
  have hm : c ∉ '-' :: markChars := by
    intro h
    rw [isWordChar_of_mem_markChars c h] at hw
    cases hw
  rw [front_of_not_mem_markChars fun h => hm (List.mem_cons_of_mem _ h)]
  have hminus : c ≠ '-' := fun h => hm (h ▸ List.mem_cons_self)
  have htake := takeWhile_append_of_boundary
    (fun d h => hc d (List.mem_cons_of_mem _ h)) hrest
  simp [hd, hminus, hw, runFront, htake]

theorem front_of_number {c : Char} {cs rest : List Char}
    (hc : c.isDigit = true ∨ (c = '-' ∧ ∃ d ∈ cs.head?, d.isDigit = true))
    (hcs : ∀ d ∈ cs, isNumberChar d = true) (hrest : ∀ d ∈ rest.head?, isNumberChar d = false) :
    front c (cs ++ rest) = .token (.number (String.ofList (c :: cs))) cs.length := by
  have hm : c ∉ markChars := by
    intro h
    rcases hc with hc | ⟨rfl, _⟩
    · rw [isDigit_of_mem_markChars c h] at hc
      cases hc
    · revert h
      decide
  have hstart : (c.isDigit || (c = '-' && (cs ++ rest).head?.any Char.isDigit)) = true := by
    rcases hc with hc | ⟨rfl, d, hd, hdigit⟩
    · simp [hc]
    · cases cs with
      | nil => cases hd
      | cons e cs =>
        cases hd
        simp [hdigit]
  rw [front_of_not_mem_markChars hm, if_pos hstart, runFront,
    takeWhile_append_of_boundary hcs hrest]

theorem kinds_word {w : String} {c : Char} {cs rest : List Char} (hw : w.toList = c :: cs)
    (hd : c.isDigit = false) (hcs : ∀ d ∈ c :: cs, isWordChar d = true)
    (hrest : ∀ d ∈ rest.head?, isWordChar d = false) :
    kinds (w.toList ++ rest) = (kinds rest).map (.word w :: ·) := by
  have hfront := front_of_word hd hcs hrest
  rw [← hw, String.ofList_toList] at hfront
  rw [hw, List.cons_append, kinds_of_token hfront, List.drop_left]

theorem kinds_number {sign cs rest : List Char} {c : Char} (hsign : sign = [] ∨ sign = ['-'])
    (hc : c.isDigit = true) (hcs : ∀ d ∈ cs, isNumberChar d = true)
    (hrest : ∀ d ∈ rest.head?, isNumberChar d = false) :
    kinds (sign ++ c :: cs ++ rest) =
      (kinds rest).map (.number (String.ofList (sign ++ c :: cs)) :: ·) := by
  rcases hsign with rfl | rfl
  · rw [List.nil_append, List.cons_append, kinds_of_token (front_of_number (.inl hc) hcs hrest),
      List.drop_left]
  · have hpart : ∀ d ∈ c :: cs, isNumberChar d = true :=
      List.forall_mem_cons.mpr ⟨by simp [isNumberChar, hc], hcs⟩
    have hfront := front_of_number (.inr ⟨rfl, c, rfl, hc⟩) hpart hrest
    rw [List.singleton_append, List.cons_append, kinds_of_token hfront, List.drop_left]

/-- Gaps in front of a text do not show in its tokens. -/
theorem kinds_dropWhile_isGap (cs : List Char) : kinds (cs.dropWhile isGap) = kinds cs := by
  cases cs with
  | nil => rfl
  | cons c cs =>
    by_cases h : isGap c = true
    · rw [kinds_of_gap (front_of_isGap h), List.dropWhile_cons_of_pos h, drop_length_takeWhile]
    · rw [List.dropWhile_cons_of_neg h]

theorem kinds_gap_cons {c : Char} {cs : List Char} (h : isGap c = true) :
    kinds (c :: cs) = kinds cs := by
  rw [← kinds_dropWhile_isGap, List.dropWhile_cons_of_pos h, kinds_dropWhile_isGap]

theorem quotedString_quote (cs : List Char) : quotedString ('"' :: cs) = .ok ([], 1) := by
  cases cs <;> simp [quotedString]

theorem quotedString_escape {e x : Char} (cs : List Char) (he : e ≠ '\n')
    (hx : unescape? e = some x) :
    quotedString ('\\' :: e :: cs) = pushChar x 2 (quotedString cs) := by
  simp [quotedString, he, hx]

theorem quotedString_plain {c : Char} (cs : List Char) (hb : c ≠ '\\') (hq : c ≠ '"')
    (hn : c ≠ '\n') : quotedString (c :: cs) = pushChar c 1 (quotedString cs) := by
  cases cs <;> simp [quotedString, hb, hq, hn]

end Token

end ShapeModel
