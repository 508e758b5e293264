import ShapeModel.Proofs.Text.Lines
import ShapeModel.Proofs.Token.Kinds

/-!
# Tokens on both sides of a line feed

A token that a text has been read to the end of does not reach over a line feed that follows, and no
token starts before one. So the tokens of two texts with a line feed between them are those of the
first, a line break, and those of the second.
-/

namespace ShapeModel

set_option autoImplicit false

namespace Token

section Runs

variable {p : Char → Bool} {c : Char} (hp : p c = false) (a b : List Char)

include hp

theorem takeWhile_append_stop : (a ++ c :: b).takeWhile p = a.takeWhile p := by
  apply takeWhile_append_of_head?
  rintro _ ⟨⟩
  exact hp

theorem dropWhile_append_stop : (a ++ c :: b).dropWhile p = a.dropWhile p ++ c :: b := by
  induction a with
  | nil => simp [hp]
  | cons d ds ih =>
    rw [List.cons_append, List.dropWhile_cons, List.dropWhile_cons, ih]
    split <;> rfl

end Runs

theorem pushChar_eq_ok {c : Char} {k : Nat} {r : Except StringFault (List Char × Nat)}
    {s : List Char} {n : Nat} (h : pushChar c k r = .ok (s, n)) :
    ∃ t m, r = .ok (t, m) ∧ s = c :: t ∧ n = m + k := by
  cases r with
  | error e => cases h
  | ok r =>
    cases h
    exact ⟨_, _, rfl, rfl, rfl⟩

theorem quotedString_append {cs s : List Char} {n : Nat} (h : quotedString cs = .ok (s, n))
    (rest : List Char) : quotedString (cs ++ rest) = .ok (s, n) ∧ n ≤ cs.length := by
  fun_induction quotedString cs generalizing s n with
  | case2 cs =>
    cases h
    exact ⟨quotedString_quote _, Nat.le_add_left 1 _⟩
  | case6 e cs hn x hx _ _ ih =>
    obtain ⟨t, m, ht, rfl, rfl⟩ := pushChar_eq_ok h
    obtain ⟨hread, hlen⟩ := ih ht
    refine ⟨?_, by simp only [List.length_cons]; omega⟩
    rw [List.cons_append, List.cons_append, quotedString_escape _ hn hx, hread]
    rfl
  | case8 c cs hq hn hb ih =>
    obtain ⟨t, m, ht, rfl, rfl⟩ := pushChar_eq_ok h
    obtain ⟨hread, hlen⟩ := ih ht
    refine ⟨?_, Nat.succ_le_succ hlen⟩
    rw [List.cons_append, quotedString_plain _ hb hq hn, hread]
    rfl
  | _ => cases h

theorem margin_le (l : List Char) (h : blockDelimiter.isPrefixOf (l.dropWhile isMargin) = true) :
    (l.takeWhile isMargin).length + blockDelimiter.length ≤ l.length := by
  obtain ⟨rest, hrest⟩ := List.isPrefixOf_iff_prefix.mp h
  have hl := congrArg List.length (List.takeWhile_append_dropWhile (p := isMargin) (l := l))
  rw [← hrest, List.length_append, List.length_append] at hl
  omega

/-- A block is closed on its first line, or its first line belongs to it and the rest is a block. -/
theorem block_cons_eq_ok_iff {l : List Char} {ls : List (List Char)} {b : Block} {n : Nat} :
    block (l :: ls) = .ok (b, n) ↔
      (blockDelimiter.isPrefixOf (l.dropWhile isMargin) = true ∧
        b = ⟨[], (l.takeWhile isMargin).length⟩ ∧
        n = (l.takeWhile isMargin).length + blockDelimiter.length) ∨
      (¬blockDelimiter.isPrefixOf (l.dropWhile isMargin) = true ∧
        beforeDelimiter? (l.dropWhile isMargin) = none ∧
        ∃ b' m, block ls = .ok (b', m) ∧ b = b'.push (Text.dropReturn l) ∧
          n = m + (l.length + 1)) := by
  rw [block]
  by_cases hclose : blockDelimiter.isPrefixOf (l.dropWhile isMargin) = true
  · rw [if_pos hclose, or_iff_left fun h => h.1 hclose, and_iff_right hclose]
    simp [eq_comm]
  rw [if_neg hclose, or_iff_right fun h => hclose h.1, and_iff_right hclose]
  cases beforeDelimiter? (l.dropWhile isMargin) with
  | some m => exact iff_of_false nofun nofun
  | none =>
    rw [and_iff_right rfl]
    cases ls with
    | nil => exact iff_of_false nofun nofun
    | cons l' ls =>
      cases block (l' :: ls) with
      | error e => exact iff_of_false nofun nofun
      | ok r =>
        constructor
        · rintro ⟨⟩
          exact ⟨_, _, rfl, rfl, rfl⟩
        · rintro ⟨_, _, ⟨⟩, rfl, rfl⟩
          rfl

/-- A block string is blank up to the end of its line, and a block behind. -/
theorem blockString_eq_ok_iff {cs s : List Char} {n : Nat} :
    blockString cs = .ok (s, n) ↔
      ∃ gap body b m, (∀ c ∈ gap, isGap c = true) ∧ cs = gap ++ '\n' :: body ∧
        block (Text.lines body) = .ok (b, m) ∧ s = b.contents ∧ n = m + (gap.length + 1) := by
  have hnewline : ¬isGap '\n' = true := by decide
  rw [blockString]
  constructor
  · intro h
    have hsplit := @List.takeWhile_append_dropWhile _ isGap cs
    cases hbody : cs.dropWhile isGap with
    | nil =>
      rw [hbody] at h
      cases h
    | cons c body =>
      rw [hbody] at h hsplit
      simp only [] at h
      split at h
      · next hc =>
        subst hc
        cases hblock : block (Text.lines body) with
        | error e =>
          rw [hblock] at h
          cases h
        | ok r =>
          rw [hblock] at h
          cases h
          exact ⟨_, body, _, _, List.all_eq_true.mp List.all_takeWhile, hsplit.symm, hblock, rfl,
            rfl⟩
      · cases h
  · rintro ⟨gap, body, b, m, hgap, rfl, hblock, rfl, rfl⟩
    rw [List.takeWhile_append_of_pos hgap, List.dropWhile_append_of_pos hgap,
      List.takeWhile_cons_of_neg hnewline, List.dropWhile_cons_of_neg hnewline, List.append_nil]
    simp only [if_pos, hblock]

/-- A block string is over at its closing delimiter, whatever lines follow. -/
theorem block_append {ls : List (List Char)} {b : Block} {n : Nat} (h : block ls = .ok (b, n))
    (rest : List (List Char)) :
    block (ls ++ rest) = .ok (b, n) ∧ n + 1 ≤ ls.flatten.length + ls.length := by
  induction ls generalizing b n with
  | nil => cases h
  | cons l ls ih =>
    rw [List.cons_append, block_cons_eq_ok_iff, List.flatten_cons, List.length_append,
      List.length_cons]
    rcases block_cons_eq_ok_iff.mp h with
      ⟨hclose, rfl, rfl⟩ | ⟨hopen, hbefore, b', m, hblock, rfl, rfl⟩
    · have := margin_le l hclose
      exact ⟨.inl ⟨hclose, rfl, rfl⟩, by omega⟩
    · obtain ⟨hread, hlen⟩ := ih hblock
      exact ⟨.inr ⟨hopen, hbefore, b', m, hread, rfl, rfl⟩, by omega⟩

theorem blockString_append_newline {cs s : List Char} {n : Nat} (h : blockString cs = .ok (s, n))
    (b : List Char) : blockString (cs ++ '\n' :: b) = .ok (s, n) ∧ n ≤ cs.length := by
  obtain ⟨gap, body, bl, m, hgap, rfl, hblock, rfl, rfl⟩ := blockString_eq_ok_iff.mp h
  obtain ⟨hread, hm⟩ := block_append hblock (Text.lines b)
  rw [← Text.lines_append_newline] at hread
  rw [Text.length_flatten_lines] at hm
  constructor
  · rw [blockString_eq_ok_iff, List.append_assoc, List.cons_append]
    exact ⟨gap, _, bl, m, hgap, rfl, hread, rfl, rfl⟩
  · rw [List.length_append, List.length_cons]
    omega

/-- How far a front reaches behind its first character, if it is not a fault. -/
def Front.length? : Front → Option Nat
  | .gap n => some n
  | .token _ n => some n
  | .fault _ _ => none

theorem stringFront_eq_of_length? {k n : Nat} {r r' : Except StringFault (List Char × Nat)}
    (hr : ∀ s m, r = .ok (s, m) → r' = .ok (s, m)) (h : (stringFront k r).length? = some n) :
    stringFront k r' = stringFront k r ∧ ∃ s m, r = .ok (s, m) ∧ n = m + k - 1 := by
  cases r with
  | error e => cases e <;> cases h
  | ok a =>
    obtain ⟨s, m⟩ := a
    rw [hr s m rfl]
    cases h
    exact ⟨rfl, s, m, rfl, rfl⟩

theorem length_takeWhile_le (p : Char → Bool) (cs : List Char) :
    (cs.takeWhile p).length ≤ cs.length :=
  (List.takeWhile_sublist p).length_le

theorem head?_append_newline {p : Char → Bool} (hp : p '\n' = false) (cs b : List Char) :
    (cs ++ '\n' :: b).head?.any p = cs.head?.any p := by
  cases cs with
  | nil => exact hp
  | cons c cs => rfl

theorem eq_of_blockDelimiter_isPrefixOf {c : Char} {cs : List Char}
    (h : blockDelimiter.isPrefixOf (c :: cs) = true) : ∃ d e rest, cs = d :: e :: rest := by
  obtain ⟨rest, hrest⟩ := List.isPrefixOf_iff_prefix.mp h
  cases hrest
  exact ⟨_, _, rest, rfl⟩

theorem commentFront_append_newline {cs : List Char} {n : Nat}
    (h : (commentFront cs).length? = some n) (b : List Char) :
    commentFront (cs ++ '\n' :: b) = commentFront cs ∧ n ≤ cs.length := by
  constructor
  · rw [commentFront, commentFront, takeWhile_append_stop (by decide)]
  · have hn : n = (cs.takeWhile (· ≠ '\n')).length := by
      rw [commentFront] at h
      split at h <;> cases h <;> rfl
    rw [hn]
    exact length_takeWhile_le _ _

theorem blockFront_append_newline {c : Char} {cs : List Char} {n : Nat}
    (hc : blockDelimiter.isPrefixOf (c :: cs) = true)
    (h : (stringFront 3 (blockString (cs.drop 2))).length? = some n) (b : List Char) :
    stringFront 3 (blockString ((cs ++ '\n' :: b).drop 2)) =
        stringFront 3 (blockString (cs.drop 2)) ∧ n ≤ cs.length := by
  obtain ⟨d, e, cs, rfl⟩ := eq_of_blockDelimiter_isPrefixOf hc
  obtain ⟨hfront, s, m, hread, rfl⟩ := stringFront_eq_of_length?
    (fun s m hread => (blockString_append_newline hread b).1) h
  refine ⟨hfront, ?_⟩
  have hm := (blockString_append_newline hread b).2
  simp only [List.length_cons, List.drop_succ_cons, List.drop_zero] at hm ⊢
  omega

theorem quotedFront_append_newline {cs : List Char} {n : Nat}
    (h : (stringFront 1 (quotedString cs)).length? = some n) (b : List Char) :
    stringFront 1 (quotedString (cs ++ '\n' :: b)) = stringFront 1 (quotedString cs) ∧
      n ≤ cs.length := by
  obtain ⟨hfront, s, m, hread, rfl⟩ := stringFront_eq_of_length?
    (fun s m hread => (quotedString_append hread ('\n' :: b)).1) h
  exact ⟨hfront, (quotedString_append hread []).2⟩

theorem runFront_append_newline {p : Char → Bool} (hp : p '\n' = false) {c : Char}
    {make : String → Kind} {cs : List Char} {n : Nat}
    (h : (runFront c p make cs).length? = some n) (b : List Char) :
    runFront c p make (cs ++ '\n' :: b) = runFront c p make cs ∧ n ≤ cs.length := by
  rw [runFront, runFront, takeWhile_append_stop hp]
  cases h
  exact ⟨rfl, length_takeWhile_le _ _⟩

/-- A front that is not a fault ends before a line feed that follows the text. -/
theorem front_append_newline {c : Char} {cs : List Char} {n : Nat}
    (h : (front c cs).length? = some n) (b : List Char) :
    front c (cs ++ '\n' :: b) = front c cs ∧ n ≤ cs.length := by
  by_cases hgap : isGap c = true
  · rw [front_of_isGap hgap] at h ⊢
    rw [front_of_isGap hgap, takeWhile_append_stop (by decide)]
    cases h
    exact ⟨rfl, length_takeWhile_le _ _⟩
  by_cases hnewline : c = '\n'
  · subst hnewline
    cases h
    exact ⟨rfl, Nat.zero_le _⟩
  have hslash : (cs ++ '\n' :: b).head? = some '/' ↔ cs.head? = some '/' := by
    cases cs <;> simp
  rw [front, if_neg hgap, if_neg hnewline] at h
  rw [front, if_neg hgap, if_neg hnewline, front, if_neg hgap, if_neg hnewline]
  -- Each test of the character has the same answer with the line feed behind the text.
  simp only [hslash, blockDelimiter_isPrefixOf_append_newline,
    @head?_append_newline Char.isDigit rfl]
  split at h
  · next hc =>
    simp only [if_pos hc]
    exact commentFront_append_newline h b
  next hcomment =>
  simp only [if_neg hcomment]
  split at h
  · next hc =>
    simp only [if_pos hc, true_and]
    cases h
    exact Nat.zero_le _
  next hgrammar =>
  simp only [if_neg hgrammar]
  split at h
  · next hc =>
    simp only [if_pos hc]
    exact blockFront_append_newline hc h b
  next hblock =>
  simp only [if_neg hblock]
  split at h
  · next hc =>
    simp only [if_pos hc]
    exact quotedFront_append_newline h b
  next hquote =>
  simp only [if_neg hquote]
  split at h
  · next hc =>
    simp only [if_pos hc]
    exact runFront_append_newline (by decide) h b
  next hnumber =>
  simp only [if_neg hnumber]
  split at h
  · next hc =>
    simp only [if_pos hc]
    exact runFront_append_newline (isWordChar_of_mem_markChars _ (by decide)) h b
  · cases h

/-- The token of a line feed, at the position where it stands. -/
def lineBreak (p : Position) : Token :=
  ⟨.newline, "\n", p⟩

/-- A text is read to its end before a line feed behind it is, and what follows is read from the
start of the next line. -/
theorem scanFrom_append_newline {p : Position} {pending : Nat} {a : List Char} {ts : List Token}
    (hpending : pending ≤ a.length) (h : scanFrom p pending a = .ok ts) (b : List Char) :
    scanFrom p pending (a ++ '\n' :: b) =
      (scanFrom ((p.advance a).step '\n') 0 b).map
        fun us => ts ++ lineBreak (p.advance a) :: us := by
  -- Along the characters: those that are pending belong to the text, and never the line feed does.
  induction a generalizing p pending ts with
  | nil =>
    obtain rfl := Nat.le_zero.mp hpending
    cases h
    exact scanFrom_of_token p front_newline
  | cons c cs ih =>
    cases pending with
    | succ n => exact ih (Nat.le_of_succ_le_succ hpending) h
    | zero =>
      rw [List.cons_append]
      cases hf : front c cs with
      | gap n =>
        obtain ⟨hfront, hn⟩ := @front_append_newline c cs n (by rw [hf]; rfl) b
        rw [scanFrom_of_gap p hf] at h
        rw [scanFrom_of_gap p (hfront.trans hf)]
        exact ih hn h
      | token k n =>
        obtain ⟨hfront, hn⟩ := @front_append_newline c cs n (by rw [hf]; rfl) b
        obtain ⟨us, hus, rfl⟩ := (scanFrom_eq_ok_iff_of_token hf).mp h
        have hadvance : p.advance (c :: cs) = (p.step c).advance cs := rfl
        rw [scanFrom_of_token p (hfront.trans hf), ih hn hus, List.take_append_of_le_length hn,
          hadvance]
        cases scanFrom (((p.step c).advance cs).step '\n') 0 b <;> rfl
      | fault e n =>
        rw [scanFrom_of_fault p hf] at h
        cases h

/-- The tokens of two texts with a line feed between them. -/
theorem kinds_append_newline {a : List Char} {ks : List Kind} (h : kinds a = .ok ks)
    (b : List Char) :
    kinds (a ++ '\n' :: b) = (kinds b).map fun us => ks ++ .newline :: us := by
  rw [← scannedKinds_scanFrom_zero .start] at h
  rw [← scannedKinds_scanFrom_zero .start]
  cases ha : scanFrom .start 0 a with
  | error e =>
    rw [ha] at h
    cases h
  | ok ts =>
    rw [ha] at h
    cases h
    rw [scanFrom_append_newline (Nat.zero_le _) ha,
      ← scannedKinds_scanFrom_zero ((Position.start.advance a).step '\n')]
    cases scanFrom ((Position.start.advance a).step '\n') 0 b with
    | error e => rfl
    | ok us => exact congrArg Except.ok List.map_append

end Token

end ShapeModel
