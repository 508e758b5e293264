import Mathlib.Data.List.Forall2
import ShapeModel.Proofs.Text.Returns
import ShapeModel.Proofs.Token.Cover
import ShapeModel.Proofs.Token.Break

/-!
# Tokens of a text with carriage returns

Putting carriage returns before line feeds leaves the tokens of a text what they are, each on its
line. A carriage return is a blank, it is no part of a word, a number or a quoted string, and it is
cut off from documentation and from the lines of a block string.
-/

namespace ShapeModel

set_option autoImplicit false

open Text (withReturns)

theorem Text.trim_append_blank {c : Char} (h : isBlank c = true) (cs : List Char) :
    trim (cs ++ [c]) = trim cs := by
  have hdrop : (cs ++ [c]).dropWhile isBlank =
      if cs.dropWhile isBlank = [] then [] else cs.dropWhile isBlank ++ [c] := by
    rw [List.dropWhile_append]
    cases cs.dropWhile isBlank <;> simp [h]
  rw [trim, trim, hdrop]
  split
  · next hcs => rw [hcs]
  · rw [List.reverse_append, List.reverse_singleton, List.singleton_append,
      List.dropWhile_cons_of_pos h]

namespace Token

/-- `n` characters of a text and `n'` of the same text with carriage returns have been passed: what
is left is the same, or the carriage return of a line feed that comes next is passed already. -/
inductive Passed (cs : List Char) (n n' : Nat) : Prop
  | same : n' = (withReturns (cs.take n)).length → Passed cs n n'
  | afterReturn {rest : List Char} : cs.drop n = '\n' :: rest →
      n' = (withReturns (cs.take n)).length + 1 → Passed cs n n'

theorem Passed.zero (cs : List Char) : Passed cs 0 0 :=
  .same rfl

theorem Passed.cons {c : Char} {cs : List Char} {n n' : Nat} (hc : c ≠ '\n')
    (h : Passed cs n n') : Passed (c :: cs) (n + 1) (n' + 1) := by
  cases h with
  | same hn => exact .same (by rw [List.take_succ_cons, Text.withReturns_cons hc, hn]; rfl)
  | afterReturn hdrop hn =>
    exact .afterReturn hdrop (by rw [List.take_succ_cons, Text.withReturns_cons hc, hn]; rfl)

theorem withReturns_eq_append (cs : List Char) (n : Nat) :
    withReturns cs = withReturns (cs.take n) ++ withReturns (cs.drop n) := by
  rw [← Text.withReturns_append, List.take_append_drop]

section

variable {p : Char → Bool} (hp : p '\n' = false)
include hp

theorem passed_takeWhile (cs : List Char) :
    Passed cs (cs.takeWhile p).length ((withReturns cs).takeWhile p).length := by
  induction cs with
  | nil => exact .zero []
  | cons c cs ih =>
    by_cases hc : c = '\n'
    · subst hc
      rw [Text.withReturns_newline]
      cases hr : p '\r' with
      | true => exact @Passed.afterReturn _ _ _ cs (by simp [hp]) (by simp [hp, hr]; rfl)
      | false => exact .same (by simp [hp, hr]; rfl)
    · rw [Text.withReturns_cons hc]
      cases hcp : p c with
      | true =>
        simp only [List.takeWhile_cons, hcp, if_true, List.length_cons]
        exact ih.cons hc
      | false =>
        simp only [List.takeWhile_cons, hcp]
        exact .zero _

theorem takeWhile_withReturns (hr : p '\r' = false) (cs : List Char) :
    (withReturns cs).takeWhile p = cs.takeWhile p := by
  induction cs with
  | nil => rfl
  | cons c cs ih =>
    by_cases hc : c = '\n'
    · subst hc
      simp [Text.withReturns_newline, hp, hr]
    · rw [Text.withReturns_cons hc, List.takeWhile_cons, List.takeWhile_cons, ih]

end

theorem head?_withReturns (cs : List Char) :
    (withReturns cs).head? = cs.head?.map fun c => if c = '\n' then '\r' else c := by
  cases cs with
  | nil => rfl
  | cons c cs =>
    by_cases hc : c = '\n'
    · subst hc
      rfl
    · rw [Text.withReturns_cons hc, List.head?_cons, List.head?_cons, Option.map_some, if_neg hc]

theorem head?_withReturns_eq_slash (cs : List Char) :
    (withReturns cs).head? = some '/' ↔ cs.head? = some '/' := by
  rw [head?_withReturns, Option.map_eq_some_iff]
  constructor
  · rintro ⟨c, hc, hslash⟩
    split at hslash
    · cases hslash
    · rw [hc, hslash]
  · exact fun hc => ⟨'/', hc, rfl⟩

theorem head?_withReturns_any_isDigit (cs : List Char) :
    (withReturns cs).head?.any Char.isDigit = cs.head?.any Char.isDigit := by
  rw [head?_withReturns, Option.any_map]
  congr 1
  funext c
  split
  · next hc =>
    subst hc
    rfl
  · rfl

theorem isPrefixOf_withReturns {d : List Char} (hn : '\n' ∉ d) (hr : '\r' ∉ d) (cs : List Char) :
    d.isPrefixOf (withReturns cs) = d.isPrefixOf cs := by
  induction d generalizing cs with
  | nil => simp
  | cons x d ih =>
    obtain ⟨hxn, hn⟩ := not_or.mp (mt List.mem_cons.mpr hn)
    obtain ⟨hxr, hr⟩ := not_or.mp (mt List.mem_cons.mpr hr)
    cases cs with
    | nil => rfl
    | cons c cs =>
      by_cases hc : c = '\n'
      · subst hc
        rw [Text.withReturns_newline, List.isPrefixOf_cons_cons, List.isPrefixOf_cons_cons,
          beq_false_of_ne (Ne.symm hxn), beq_false_of_ne (Ne.symm hxr)]
        rfl
      · rw [Text.withReturns_cons hc, List.isPrefixOf_cons_cons, List.isPrefixOf_cons_cons,
          ih hn hr]

theorem isPrefixOf_append_return {d : List Char} (hr : '\r' ∉ d) (cs : List Char) :
    d.isPrefixOf (cs ++ ['\r']) = d.isPrefixOf cs := by
  induction d generalizing cs with
  | nil => simp
  | cons x d ih =>
    obtain ⟨hxr, hr⟩ := not_or.mp (mt List.mem_cons.mpr hr)
    cases cs with
    | nil =>
      rw [List.nil_append, List.isPrefixOf_cons_cons, beq_false_of_ne (Ne.symm hxr)]
      rfl
    | cons c cs =>
      rw [List.cons_append, List.isPrefixOf_cons_cons, List.isPrefixOf_cons_cons, ih hr]

/-- There is no line feed in a quoted string. -/
theorem quotedString_withReturns {cs s : List Char} {n : Nat} (h : quotedString cs = .ok (s, n)) :
    quotedString (withReturns cs) = .ok (s, n) ∧ '\n' ∉ cs.take n := by
  fun_induction quotedString cs generalizing s n with
  | case2 cs =>
    cases h
    exact ⟨quotedString_quote _, by simp⟩
  | case6 e cs hn x hx _ _ ih =>
    obtain ⟨t, m, ht, rfl, rfl⟩ := pushChar_eq_ok h
    obtain ⟨hread, hmem⟩ := ih ht
    rw [Text.withReturns_cons (by decide), Text.withReturns_cons hn, quotedString_escape _ hn hx,
      hread]
    exact ⟨rfl, by simp [Ne.symm hn, hmem]⟩
  | case8 c cs hq hn hb ih =>
    obtain ⟨t, m, ht, rfl, rfl⟩ := pushChar_eq_ok h
    obtain ⟨hread, hmem⟩ := ih ht
    rw [Text.withReturns_cons hn, quotedString_plain _ hb hq hn, hread]
    exact ⟨rfl, by simp [Ne.symm hn, hmem]⟩
  | _ => cases h

theorem beforeDelimiter?_append_return (cs : List Char) :
    beforeDelimiter? (cs ++ ['\r']) = beforeDelimiter? cs := by
  have hr : '\r' ∉ blockDelimiter := by decide
  induction cs with
  | nil => rfl
  | cons c cs ih =>
    have hprefix := isPrefixOf_append_return hr (c :: cs)
    rw [List.cons_append] at hprefix
    rw [List.cons_append, beforeDelimiter?, beforeDelimiter?, hprefix, ih]

theorem length_withReturns_take {l : List Char} {n : Nat} (hl : '\n' ∉ l) (hn : n ≤ l.length) :
    (withReturns (l.take n)).length = n := by
  have htake : '\n' ∉ l.take n := fun hmem => hl (List.mem_of_mem_take hmem)
  rw [Text.withReturns_of_not_mem htake, List.length_take, Nat.min_eq_left hn]

theorem length_withReturns_take_line {l : List Char} (hl : '\n' ∉ l) (rest : List Char) (n : Nat) :
    (withReturns ((l ++ '\n' :: rest).take (n + (l.length + 1)))).length =
      (withReturns (rest.take n)).length + (l.length + 1 + 1) := by
  have htake : (l ++ '\n' :: rest).take (n + (l.length + 1)) = l ++ '\n' :: rest.take n := by
    rw [show n + (l.length + 1) = l.length + (n + 1) by omega, List.take_length_add_append,
      List.take_succ_cons]
  rw [htake, Text.withReturns_append, Text.withReturns_of_not_mem hl, Text.withReturns_newline]
  simp only [List.length_append, List.length_cons]
  omega

/-- A carriage return at the end of each line makes a block longer, and no other. -/
theorem block_withReturns {cs : List Char} {b : Block} {n : Nat} (hcs : '\r' ∉ cs)
    (h : block (Text.lines cs) = .ok (b, n)) :
    block (Text.lines (withReturns cs)) = .ok (b, (withReturns (cs.take n)).length) := by
  -- Line by line; behind the last line feed both texts are the same.
  rcases Text.not_mem_or_exists_append cs with hline | ⟨l, rest, hl, rfl⟩
  · have hlength := (block_append h []).2
    rw [Text.length_flatten_lines] at hlength
    rw [Text.withReturns_of_not_mem hline, h, length_withReturns_take hline (by omega)]
  simp only [List.mem_append, List.mem_cons, not_or] at hcs
  obtain ⟨hlr, -, hrest⟩ := hcs
  have hmargin : isMargin '\r' = false := by decide
  rw [Text.lines_append_line hl, block_cons_eq_ok_iff] at h
  rw [Text.lines_withReturns_append hl, block_cons_eq_ok_iff, takeWhile_append_stop hmargin,
    dropWhile_append_stop hmargin, isPrefixOf_append_return (by decide),
    beforeDelimiter?_append_return, Text.dropReturn_append]
  rcases h with ⟨hclose, rfl, rfl⟩ | ⟨hopen, hbefore, b', m, hblock, rfl, rfl⟩
  · have hle := margin_le l hclose
    rw [List.take_append_of_le_length hle, length_withReturns_take hl hle]
    exact .inl ⟨hclose, rfl, rfl⟩
  · refine .inr ⟨hopen, hbefore, b', _, block_withReturns hrest hblock, ?_, ?_⟩
    · rw [Text.dropReturn_of_not_mem hlr]
    · rw [length_withReturns_take_line hl, List.length_append, List.length_singleton]
termination_by cs.length
decreasing_by
  subst_vars
  rw [List.length_append, List.length_cons]
  omega

theorem blockString_withReturns {cs s : List Char} {n : Nat} (hcs : '\r' ∉ cs)
    (h : blockString cs = .ok (s, n)) :
    blockString (withReturns cs) = .ok (s, (withReturns (cs.take n)).length) := by
  obtain ⟨gap, body, b, m, hgap, rfl, hblock, rfl, rfl⟩ := blockString_eq_ok_iff.mp h
  have hline : '\n' ∉ gap := fun hmem => absurd (hgap _ hmem) (by decide)
  have hbody : '\r' ∉ body := fun hmem =>
    hcs (List.mem_append_right _ (List.mem_cons_of_mem _ hmem))
  have hgap' : ∀ c ∈ gap ++ ['\r'], isGap c = true := by
    intro c hc
    rcases List.mem_append.mp hc with hc | hc
    · exact hgap c hc
    · rw [List.mem_singleton.mp hc]
      rfl
  rw [blockString_eq_ok_iff, Text.withReturns_append_line hline, length_withReturns_take_line hline]
  refine ⟨_, _, b, _, hgap', rfl, block_withReturns hbody hblock, rfl, ?_⟩
  rw [List.length_append, List.length_singleton]

/-- The same front, with another length. -/
def Front.withLength (n : Nat) : Front → Front
  | .gap _ => .gap n
  | .token kind _ => .token kind n
  | .fault e before => .fault e before

theorem runFront_withReturns {p : Char → Bool} (hp : p '\n' = false) (hr : p '\r' = false)
    {c : Char} {make : String → Kind} {cs : List Char} {n : Nat}
    (h : (runFront c p make cs).length? = some n) :
    ∃ n', Passed cs n n' ∧
      runFront c p make (withReturns cs) = (runFront c p make cs).withLength n' := by
  have hpassed := passed_takeWhile hp cs
  cases h
  rw [runFront, runFront, takeWhile_withReturns hp hr] at *
  exact ⟨_, hpassed, rfl⟩

theorem takeWhile_line {l : List Char} (hl : '\n' ∉ l) (rest : List Char) :
    (l ++ '\n' :: rest).takeWhile (· ≠ '\n') = l := by
  rw [takeWhile_append_stop (by decide), List.takeWhile_eq_self_iff]
  intro c hc
  exact decide_eq_true fun heq => hl (heq ▸ hc)

theorem commentFront_append_return {cs cs' l : List Char} (h : cs.takeWhile (· ≠ '\n') = l)
    (h' : cs'.takeWhile (· ≠ '\n') = l ++ ['\r']) :
    commentFront cs' = (commentFront cs).withLength (l ++ ['\r']).length := by
  by_cases hdoc : ∃ text, l = '/' :: '/' :: text
  · obtain ⟨text, rfl⟩ := hdoc
    have htrim : Text.trim (text ++ ['\r']) = Text.trim text :=
      Text.trim_append_blank (by decide) text
    rw [commentFront, commentFront, h, h', List.cons_append, List.cons_append]
    simp only [htrim, Front.withLength]
  · have hdoc' : ¬∃ text, l ++ ['\r'] = '/' :: '/' :: text := by
      rcases l with _ | ⟨a, _ | ⟨b, l⟩⟩
      · simp
      · simp
      · simpa using hdoc
    rw [← h] at hdoc
    rw [← h'] at hdoc' ⊢
    rw [commentFront_of_not_exists hdoc, commentFront_of_not_exists hdoc']
    rfl

theorem commentFront_eq_withLength (cs : List Char) :
    commentFront cs = (commentFront cs).withLength (cs.takeWhile (· ≠ '\n')).length := by
  rcases commentFront_cases cs with ⟨t, ht⟩ | ⟨hgap, _⟩
  · rw [ht]
    rfl
  · rw [hgap]
    rfl

theorem commentFront_withReturns {cs : List Char} {n : Nat}
    (h : (commentFront cs).length? = some n) :
    ∃ n', Passed cs n n' ∧ commentFront (withReturns cs) = (commentFront cs).withLength n' := by
  rw [commentFront_eq_withLength] at h
  have hn : n = (cs.takeWhile (· ≠ '\n')).length := by
    cases hfront : commentFront cs <;> rw [hfront] at h <;> cases h <;> rfl
  subst hn
  refine ⟨_, passed_takeWhile (by decide) cs, ?_⟩
  rcases Text.not_mem_or_exists_append cs with hline | ⟨l, rest, hl, rfl⟩
  · rw [Text.withReturns_of_not_mem hline]
    exact commentFront_eq_withLength cs
  · have hreturn : '\n' ∉ l ++ ['\r'] := by simp [hl]
    have hline' := takeWhile_line hreturn (withReturns rest)
    rw [Text.withReturns_append_line hl, commentFront_append_return (takeWhile_line hl rest) hline',
      hline']

theorem blockFront_withReturns {c : Char} {cs : List Char} {n : Nat} (hcs : '\r' ∉ cs)
    (hc : blockDelimiter.isPrefixOf (c :: cs) = true)
    (h : (stringFront 3 (blockString (cs.drop 2))).length? = some n) :
    ∃ n', Passed cs n n' ∧ stringFront 3 (blockString ((withReturns cs).drop 2)) =
      (stringFront 3 (blockString (cs.drop 2))).withLength n' := by
  obtain ⟨rest, hrest⟩ := List.isPrefixOf_iff_prefix.mp hc
  obtain rfl : '"' :: '"' :: rest = cs := (List.cons.inj hrest).2
  simp only [List.drop_succ_cons, List.drop_zero] at h ⊢
  cases hread : blockString rest with
  | error e =>
    rw [hread] at h
    cases e <;> cases h
  | ok r =>
    obtain ⟨s, m⟩ := r
    have hread' := blockString_withReturns (fun hmem => hcs (by simp [hmem])) hread
    rw [hread] at h
    cases h
    rw [Text.withReturns_cons (by decide), Text.withReturns_cons (by decide), List.drop_succ_cons,
      List.drop_succ_cons, List.drop_zero, hread']
    exact ⟨_, .cons (by decide) (.cons (by decide) (.same rfl)), rfl⟩

theorem quotedFront_withReturns {cs : List Char} {n : Nat}
    (h : (stringFront 1 (quotedString cs)).length? = some n) :
    ∃ n', Passed cs n n' ∧ stringFront 1 (quotedString (withReturns cs)) =
      (stringFront 1 (quotedString cs)).withLength n' := by
  cases hread : quotedString cs with
  | error e =>
    rw [hread] at h
    cases e <;> cases h
  | ok r =>
    obtain ⟨s, m⟩ := r
    obtain ⟨hread', hline⟩ := quotedString_withReturns hread
    have hm := (quotedString_append hread []).2
    rw [hread] at h
    cases h
    refine ⟨m, .same ?_, ?_⟩
    · rw [Nat.add_sub_cancel, Text.withReturns_of_not_mem hline, List.length_take,
        Nat.min_eq_left hm]
    · rw [hread']
      rfl

/-- A front that is not a fault is the same front with carriage returns, and ends at the same
place. -/
theorem front_withReturns {c : Char} {cs : List Char} {n : Nat} (hc : c ≠ '\n') (hr : '\r' ∉ cs)
    (h : (front c cs).length? = some n) :
    ∃ n', Passed cs n n' ∧ front c (withReturns cs) = (front c cs).withLength n' := by
  by_cases hgap : isGap c = true
  · rw [front_of_isGap hgap] at h ⊢
    rw [front_of_isGap hgap]
    cases h
    exact ⟨_, passed_takeWhile (by decide) cs, rfl⟩
  rw [front, if_neg hgap, if_neg hc] at h
  rw [front, if_neg hgap, if_neg hc, front, if_neg hgap, if_neg hc]
  -- Each test of the character has the same answer.
  have hprefix := @isPrefixOf_withReturns blockDelimiter (by decide) (by decide) (c :: cs)
  rw [Text.withReturns_cons hc] at hprefix
  simp only [head?_withReturns_eq_slash, hprefix, head?_withReturns_any_isDigit]
  split at h
  · next hc =>
    simp only [if_pos hc]
    exact commentFront_withReturns h
  next hcomment =>
  simp only [if_neg hcomment]
  split at h
  · next hc =>
    simp only [if_pos hc]
    cases h
    exact ⟨0, .zero cs, rfl⟩
  next hgrammar =>
  simp only [if_neg hgrammar]
  split at h
  · next hc =>
    simp only [if_pos hc]
    exact blockFront_withReturns hr hc h
  next hblock =>
  simp only [if_neg hblock]
  split at h
  · next hc =>
    simp only [if_pos hc]
    exact quotedFront_withReturns h
  next hquote =>
  simp only [if_neg hquote]
  split at h
  · next hc =>
    simp only [if_pos hc]
    exact runFront_withReturns (by decide) (by decide) h
  next hnumber =>
  simp only [if_neg hnumber]
  split at h
  · next hc =>
    simp only [if_pos hc]
    exact runFront_withReturns (isWordChar_of_mem_markChars _ (by decide)) (by decide) h
  · cases h

/-- The same place on the same line, whatever its offset. -/
structure Aligned (p p' : Position) : Prop where
  line : p'.line = p.line
  column : p'.column = p.column

theorem Aligned.step {p p' : Position} (h : Aligned p p') (c : Char) :
    Aligned (p.step c) (p'.step c) := by
  rw [Position.step, Position.step]
  split
  · exact ⟨congrArg (· + 1) h.line, rfl⟩
  · exact ⟨h.line, congrArg (· + Position.width c) h.column⟩

/-- A line feed takes two positions on the same line to the start of the next one. -/
theorem aligned_step_newline {p p' : Position} (h : p'.line = p.line) :
    Aligned (p.step '\n') (p'.step '\n') :=
  ⟨congrArg (· + 1) h, rfl⟩

theorem Aligned.advance {p p' : Position} (h : Aligned p p') (cs : List Char) :
    Aligned (p.advance cs) (p'.advance (withReturns cs)) := by
  induction cs generalizing p p' with
  | nil => exact h
  | cons c cs ih =>
    by_cases hc : c = '\n'
    · subst hc
      exact ih (aligned_step_newline h.line)
    · rw [Text.withReturns_cons hc]
      exact ih (h.step c)

/-- The token is of the same kind, with the same contents, and stands on the same line; a line break
may stand in another column. -/
structure Reflowed (t t' : Token) : Prop where
  kind : t'.kind = t.kind
  line : t'.position.line = t.position.line
  column : t.kind ≠ .newline → t'.position.column = t.position.column

/-- The tokens of the text are found in the text with carriage returns, one for one. -/
def Reflows (cs : List Char) : Prop :=
  ∀ p p' : Position, Aligned p p' → ∀ ts, scanFrom p 0 cs = .ok ts →
    ∃ ts', scanFrom p' 0 (withReturns cs) = .ok ts' ∧ List.Forall₂ Reflowed ts ts'

/-- A line break is read on the same line, whether or not the return before it is read already. -/
theorem scanFrom_newline {rest : List Char} {p p' : Position} {ts : List Token}
    (hrest : Reflows rest) (hline : p'.line = p.line) (h : scanFrom p 0 ('\n' :: rest) = .ok ts) :
    ∃ ts', scanFrom p' 0 ('\n' :: withReturns rest) = .ok ts' ∧ List.Forall₂ Reflowed ts ts' := by
  obtain ⟨us, hus, rfl⟩ := (scanFrom_eq_ok_iff_of_token front_newline).mp h
  obtain ⟨us', hus', hrel⟩ := hrest _ _ (aligned_step_newline hline) us hus
  exact ⟨_, (scanFrom_eq_ok_iff_of_token front_newline).mpr ⟨us', hus', rfl⟩,
    .cons ⟨rfl, hline, fun hne => absurd rfl hne⟩ hrel⟩

theorem scanFrom_passed {cs : List Char} {n n' : Nat} {p p' : Position} {ts : List Token}
    (hpassed : Passed cs n n') (hp : Aligned p p')
    (ih : ∀ rest, rest.length ≤ cs.length → '\r' ∉ rest → Reflows rest)
    (hcs : '\r' ∉ cs) (h : scanFrom p n cs = .ok ts) :
    ∃ ts', scanFrom p' n' (withReturns cs) = .ok ts' ∧ List.Forall₂ Reflowed ts ts' := by
  rw [scanFrom_eq] at h ⊢
  have hle : (cs.drop n).length ≤ cs.length := by
    rw [List.length_drop]
    omega
  have hmem : '\r' ∉ cs.drop n := fun hmem => hcs (List.mem_of_mem_drop hmem)
  rw [withReturns_eq_append cs n]
  cases hpassed with
  | same hn =>
    subst hn
    rw [List.take_left, List.drop_left]
    exact ih _ hle hmem _ _ (hp.advance _) ts h
  | @afterReturn rest hdrop hn =>
    -- The return is passed, and both texts go on with the line feed.
    subst hn
    rw [hdrop] at h hle hmem ⊢
    rw [List.take_length_add_append, List.drop_length_add_append, Text.withReturns_newline]
    have hline : (p'.advance (withReturns (cs.take n) ++ ['\r'])).line =
        (p.advance (cs.take n)).line := by
      rw [Position.advance, List.foldl_append]
      exact (hp.advance (cs.take n)).line
    have hrest := ih rest (by rw [List.length_cons] at hle; omega)
      fun hr => hmem (List.mem_cons_of_mem _ hr)
    exact scanFrom_newline hrest hline h

theorem reflows {cs : List Char} (hcs : '\r' ∉ cs) : Reflows cs := by
  intro p p' hp ts h
  cases cs with
  | nil =>
    cases h
    exact ⟨[], rfl, .nil⟩
  | cons c cs =>
    have hmem : '\r' ∉ cs := fun hr => hcs (List.mem_cons_of_mem c hr)
    by_cases hc : c = '\n'
    · subst hc
      have hline : (p'.step '\r').line = p.line := hp.line
      exact scanFrom_newline (reflows hmem) hline h
    rw [Text.withReturns_cons hc]
    have ih : ∀ rest, rest.length ≤ cs.length → '\r' ∉ rest → Reflows rest :=
      fun rest _ hrest => reflows hrest
    cases hf : front c cs with
    | gap n =>
      obtain ⟨n', hpassed, hfront⟩ := front_withReturns (n := n) hc hmem (by rw [hf]; rfl)
      rw [hf] at hfront
      rw [scanFrom_of_gap p hf] at h
      rw [scanFrom_of_gap p' hfront]
      exact scanFrom_passed hpassed (hp.step c) ih hmem h
    | token kind n =>
      obtain ⟨n', hpassed, hfront⟩ := front_withReturns (n := n) hc hmem (by rw [hf]; rfl)
      rw [hf] at hfront
      obtain ⟨us, hus, rfl⟩ := (scanFrom_eq_ok_iff_of_token hf).mp h
      obtain ⟨us', hus', hrel⟩ := scanFrom_passed hpassed (hp.step c) ih hmem hus
      exact ⟨_, (scanFrom_eq_ok_iff_of_token hfront).mpr ⟨us', hus', rfl⟩,
        .cons ⟨rfl, hp.line, fun _ => hp.column⟩ hrel⟩
    | fault e n =>
      rw [scanFrom_of_fault p hf] at h
      cases h
termination_by cs.length
decreasing_by
  all_goals
    subst_vars
    simp only [List.length_cons]
    omega

end Token

/-- With carriage returns, the tokens of a source are of the same kinds on the same lines. -/
theorem Source.tokens_withReturns {s : Source} {ts : List Token} (hs : '\r' ∉ s.text.toList)
    (h : s.tokens = .ok ts) :
    ∃ ts', s.withReturns.tokens = .ok ts' ∧ List.Forall₂ Token.Reflowed ts ts' := by
  have hscan := Token.tokens_eq_ok_iff.mp h
  obtain ⟨ts', hts', hrel⟩ := Token.reflows hs .start .start ⟨rfl, rfl⟩ ts hscan
  refine ⟨ts', ?_, hrel⟩
  rw [tokens_eq, toList_withReturns, hts']
  rfl

end ShapeModel
