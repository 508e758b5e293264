import Mathlib
import ShapeModel.Proofs.Token.Break
import ShapeModel.Proofs.Token.Lexer

/-!
# Block strings written out

Lines that are written one below the other, all behind the same indentation, are read back from a
block string as they are. Blank lines do not count for the common indentation, and no other line has
less than what was put before it.
-/

namespace ShapeModel

set_option autoImplicit false

namespace Token

/-- A line that can stand in a block string and is read back as it is. -/
structure IsBlockLine (l : List Char) : Prop where
  newline : '\n' ∉ l
  delimiter : ¬blockDelimiter <:+: l
  ending : l.getLast? ≠ some '\r'

/-- A line behind `k` spaces. -/
def indented (k : Nat) (l : List Char) : List Char :=
  List.replicate k ' ' ++ l

/-- A block string from its first line on: each line with a line feed, then the closing
delimiter. -/
def writtenLines (k : Nat) (ls : List (List Char)) : List Char :=
  ls.flatMap (fun l => indented k l ++ ['\n']) ++ indented k blockDelimiter

theorem writtenLines_cons (k : Nat) (l : List Char) (ls : List (List Char)) :
    writtenLines k (l :: ls) = indented k l ++ '\n' :: writtenLines k ls := by
  simp [writtenLines]

section

variable {k : Nat} {l : List Char} {ls : List (List Char)}

theorem beforeDelimiter?_eq_none (h : ¬blockDelimiter <:+: l) : beforeDelimiter? l = none := by
  induction l with
  | nil => rfl
  | cons c l ih =>
    obtain ⟨hstart, hwithin⟩ := not_or.mp (mt List.infix_cons_iff.mpr h)
    rw [beforeDelimiter?, if_neg (mt List.isPrefixOf_iff_prefix.mp hstart), ih hwithin]
    rfl

theorem isMargin_of_mem_replicate : ∀ c ∈ List.replicate k ' ', isMargin c = true := by
  intro c hc
  rw [List.eq_of_mem_replicate hc]
  rfl

theorem dropWhile_indented (k : Nat) (l : List Char) :
    (indented k l).dropWhile isMargin = l.dropWhile isMargin :=
  List.dropWhile_append_of_pos isMargin_of_mem_replicate

theorem indentation_indented (k : Nat) (l : List Char) :
    indentation (indented k l) = k + indentation l := by
  rw [indentation, indented, List.takeWhile_append_of_pos isMargin_of_mem_replicate,
    List.length_append, List.length_replicate, indentation]

theorem newline_not_mem_indented (h : '\n' ∉ l) : '\n' ∉ indented k l := by
  simp [indented, h]

theorem dropReturn_indented (h : l.getLast? ≠ some '\r') :
    Text.dropReturn (indented k l) = indented k l := by
  apply Text.dropReturn_of_ne
  rw [indented, List.getLast?_append]
  cases hl : l.getLast? with
  | none => simp [List.getLast?_replicate]
  | some c => simpa [hl] using h

theorem foldl_min_of_le {n : Nat} {ns : List Nat} (h : ∀ i ∈ ns, n ≤ i) : ns.foldl min n = n := by
  induction ns with
  | nil => rfl
  | cons i ns ih =>
    obtain ⟨hi, hns⟩ := List.forall_mem_cons.mp h
    rw [List.foldl_cons, Nat.min_eq_left hi, ih hns]

/-- The closing delimiter has the least indentation. -/
theorem indent_indented (k : Nat) (ls : List (List Char)) :
    Block.indent ⟨ls.map (indented k), k⟩ = k := by
  apply foldl_min_of_le
  intro i hi
  obtain ⟨l, hl, rfl⟩ := List.mem_map.mp hi
  obtain ⟨l', -, rfl⟩ := List.mem_map.mp (List.mem_filter.mp hl).1
  rw [indentation_indented]
  exact Nat.le_add_right k _

theorem contents_indented (k : Nat) (ls : List (List Char)) :
    Block.contents ⟨ls.map (indented k), k⟩ = ls.flatMap (· ++ ['\n']) := by
  have hdrop (l : List Char) : (indented k l).drop k = l :=
    List.drop_left' List.length_replicate
  rw [Block.contents, indent_indented, List.flatMap_map]
  simp only [hdrop]

/-- Line by line: none closes the block before the delimiter that is meant to. -/
theorem block_writtenLines (h : ∀ l ∈ ls, IsBlockLine l) :
    block (Text.lines (writtenLines k ls)) =
      .ok (⟨ls.map (indented k), k⟩, (writtenLines k ls).length) := by
  induction ls with
  | nil =>
    have hnewline : '\n' ∉ indented k blockDelimiter := newline_not_mem_indented (by decide)
    have hmargin : ((indented k blockDelimiter).takeWhile isMargin).length = k :=
      indentation_indented k blockDelimiter
    have hclose : blockDelimiter.isPrefixOf ((indented k blockDelimiter).dropWhile isMargin) := by
      rw [dropWhile_indented]
      rfl
    rw [writtenLines, List.flatMap_nil, List.nil_append, Text.lines_of_not_mem hnewline,
      block_cons_eq_ok_iff]
    refine .inl ⟨hclose, ?_, ?_⟩
    · rw [hmargin, List.map_nil]
    · rw [hmargin, indented, List.length_append, List.length_replicate]
  | cons l ls ih =>
    obtain ⟨hl, hls⟩ := List.forall_mem_cons.mp h
    have hwithin : ¬blockDelimiter <:+: (indented k l).dropWhile isMargin := by
      rw [dropWhile_indented]
      exact fun hwithin => hl.delimiter (hwithin.trans (List.dropWhile_suffix _).isInfix)
    rw [writtenLines_cons, Text.lines_append_newline,
      Text.lines_of_not_mem (newline_not_mem_indented hl.newline), List.singleton_append,
      block_cons_eq_ok_iff]
    refine .inr ⟨?_, beforeDelimiter?_eq_none hwithin, _, _, ih hls, ?_, ?_⟩
    · exact fun hclose => hwithin (List.isPrefixOf_iff_prefix.mp hclose).isInfix
    · rw [dropReturn_indented hl.ending]
      rfl
    · rw [List.length_append, List.length_cons]
      omega

theorem front_writtenLines (h : ∀ l ∈ ls, IsBlockLine l) :
    front '"' ('"' :: '"' :: '\n' :: writtenLines k ls) =
      .token (.string (String.ofList (ls.flatMap (· ++ ['\n']))))
        ('"' :: '"' :: '\n' :: writtenLines k ls).length := by
  have hread : blockString ('\n' :: writtenLines k ls) =
      .ok (ls.flatMap (· ++ ['\n']), (writtenLines k ls).length + 1) :=
    blockString_eq_ok_iff.mpr ⟨[], writtenLines k ls, _, _, nofun, rfl, block_writtenLines h,
      (contents_indented k ls).symm, rfl⟩
  have hgap : isGap '"' = false := by decide
  have hgrammar : isGrammar '"' = false := by decide
  have hopen : blockDelimiter.isPrefixOf ('"' :: '"' :: '"' :: '\n' :: writtenLines k ls) = true :=
    rfl
  rw [front, hgap, hgrammar, hopen]
  simp [hread, stringFront]

theorem scanFrom_of_length_le {p : Position} {n : Nat} {cs : List Char} (h : cs.length ≤ n) :
    scanFrom p n cs = .ok [] := by
  induction cs generalizing p n with
  | nil => rw [scanFrom]
  | cons c cs ih =>
    cases n with
    | zero => cases h
    | succ n => exact ih (Nat.le_of_succ_le_succ h)

end

end Token

namespace Source

/-- A block string of these lines, all indented by `k` spaces as the closing delimiter is. -/
def blockText (k : Nat) (ls : List String) : String :=
  "\"\"\"\n" ++ String.join (ls.map fun l => blanks k ++ l ++ "\n") ++ (blanks k ++ "\"\"\"")

theorem toList_blockText (k : Nat) (ls : List String) :
    (blockText k ls).toList =
      '"' :: '"' :: '"' :: '\n' :: Token.writtenLines k (ls.map String.toList) := by
  simp [blockText, blanks, Token.writtenLines, Token.indented, Token.blockDelimiter,
    String.toList_join, List.flatMap_map]

/-- A block string is one token over the whole text, and its contents are the lines, each with a
line feed. -/
theorem tokens_blockText (file : String) (k : Nat) {ls : List String}
    (h : ∀ l ∈ ls, Token.IsBlockLine l.toList) :
    (Source.mk file (blockText k ls)).tokens =
      .ok [⟨.string (String.join (ls.map (· ++ "\n"))), blockText k ls, .start⟩] := by
  have hlines : ∀ l ∈ ls.map String.toList, Token.IsBlockLine l := by
    intro l hl
    obtain ⟨s, hs, rfl⟩ := List.mem_map.mp hl
    exact h s hs
  have hcontents : String.ofList ((ls.map String.toList).flatMap (· ++ ['\n'])) =
      String.join (ls.map (· ++ "\n")) := by
    apply String.toList_inj.mp
    simp [String.toList_join, List.flatMap_map]
  rw [Token.tokens_eq_ok_iff, toList_blockText,
    Token.scanFrom_eq_ok_iff_of_token (Token.front_writtenLines hlines)]
  refine ⟨[], Token.scanFrom_of_length_le (Nat.le_refl _), ?_⟩
  rw [List.take_length, ← toList_blockText, String.ofList_toList, hcontents]

/-- Blank lines, one of them shorter than the indentation of another, tabs, quotes and
backslashes. -/
def awkwardLines : List String :=
  ["", "\t \"\" x\\", "  \"", "\u3000", "a\rb "]

theorem tokens_blockText_awkwardLines :
    (∀ l ∈ awkwardLines, Token.IsBlockLine l.toList) ∧
      (Source.mk "a" (blockText 2 awkwardLines)).tokens =
        .ok [⟨.string "\n\t \"\" x\\\n  \"\n\u3000\na\rb \n", blockText 2 awkwardLines,
          .start⟩] := by
  have hlines : ∀ l ∈ awkwardLines, Token.IsBlockLine l.toList := by
    have hall : awkwardLines.all (fun l => decide ('\n' ∉ l.toList) &&
        decide (¬Token.blockDelimiter <:+: l.toList) && decide (l.toList.getLast? ≠ some '\r')) :=
      by decide +kernel
    intro l hl
    have hl := List.all_eq_true.mp hall l hl
    simp only [Bool.and_eq_true, decide_eq_true_eq] at hl
    exact ⟨hl.1.1, hl.1.2, hl.2⟩
  have hjoin : String.join (awkwardLines.map (· ++ "\n")) =
      "\n\t \"\" x\\\n  \"\n\u3000\na\rb \n" := by
    decide +kernel
  exact ⟨hlines, hjoin ▸ tokens_blockText "a" 2 hlines⟩

end Source

end ShapeModel
