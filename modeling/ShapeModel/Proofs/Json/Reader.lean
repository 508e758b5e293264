import Mathlib.Data.Nat.Init
import Mathlib.Tactic.SplitIfs
import ShapeModel.Json.Reader
import ShapeModel.Proofs.Json.Tokens

/-!
# Reading what was written

The readers for the parts of JSON undo what writes them: strings with any characters in them, and
integers that fit 64 bits, as long as no digit stands behind them.
-/

namespace ShapeModel.Json

set_option autoImplicit false

open Token (Stops Layout)

/-- The reader finds this at the front of a text, and this is left of the text. -/
def Gives {α : Type} (reader : (cs : List Char) → Option (Read α cs.length)) (cs : List Char)
    (a : α) (rest : List Char) : Prop :=
  ∃ h, reader cs = some ⟨a, rest, h⟩

theorem skip_cons {c : Char} (h : isSpace c = false) (cs : List Char) : skip (c :: cs) = c :: cs :=
  List.dropWhile_cons_of_neg (by simp [h])

theorem skip_append {gap : List Char} (h : Layout gap) (cs : List Char) :
    skip (gap ++ cs) = skip cs := by
  induction gap with
  | nil => rfl
  | cons c gap ih =>
    obtain ⟨hc, hgap⟩ := List.forall_mem_cons.mp h
    have hspace : isSpace c = true := by rcases hc with rfl | rfl <;> rfl
    rw [List.cons_append, skip, List.dropWhile_cons_of_pos hspace]
    exact ih hgap

theorem skip_append_cons {gap : List Char} (h : Layout gap) {c : Char} (hc : isSpace c = false)
    (cs : List Char) : skip (gap ++ c :: cs) = c :: cs := by
  rw [skip_append h, skip_cons hc]

theorem hexValue?_hexDigit : ∀ n < 16, hexValue? (hexDigit n) = some n := by
  decide

section

variable {c e : Char} {cs es rest tail : List Char}

theorem gives_hexUnit? (hc : c.toNat < 32) (rest : List Char) :
    Gives hexUnit? ('0' :: '0' :: hexDigit (c.toNat / 16) :: hexDigit (c.toNat % 16) :: rest)
      c.toNat rest := by
  have hhigh := hexValue?_hexDigit (c.toNat / 16) (by omega)
  have hlow := hexValue?_hexDigit (c.toNat % 16) (by omega)
  have hzero : hexValue? '0' = some 0 := rfl
  have hsum : ((0 * 16 + 0) * 16 + c.toNat / 16) * 16 + c.toNat % 16 = c.toNat := by omega
  refine ⟨by simp; omega, ?_⟩
  simp only [hexUnit?, hhigh, hlow, hzero, hsum, Option.bind_eq_bind, Option.bind_some]

theorem gives_codePoint? (hc : c.toNat < 32) (rest : List Char) :
    Gives codePoint? ('0' :: '0' :: hexDigit (c.toNat / 16) :: hexDigit (c.toNat % 16) :: rest)
      c rest := by
  obtain ⟨h, hunit⟩ := gives_hexUnit? hc rest
  have hhigh : isHighSurrogate c.toNat = false := by simp [isHighSurrogate]; omega
  have hlow : isLowSurrogate c.toNat = false := by simp [isLowSurrogate]; omega
  refine ⟨h, ?_⟩
  simp only [codePoint?, hunit, hhigh, hlow, Char.ofNat_toNat, Bool.false_eq_true, if_false]

theorem gives_contents?_escaped (h : Gives escaped? es c rest)
    (hrest : Gives contents? rest cs tail) : Gives contents? ('\\' :: es) (c :: cs) tail := by
  obtain ⟨hes, h⟩ := h
  obtain ⟨hcs, hrest⟩ := hrest
  refine ⟨by simp; omega, ?_⟩
  rw [contents?, if_neg (by decide), if_pos rfl, h]
  simp only [hrest, Option.map_some]

theorem gives_contents?_cons (hquote : c ≠ '"') (hslash : c ≠ '\\') (hcode : ¬c.toNat < 32)
    (hrest : Gives contents? rest cs tail) : Gives contents? (c :: rest) (c :: cs) tail := by
  obtain ⟨hcs, hrest⟩ := hrest
  refine ⟨by simp; omega, ?_⟩
  rw [contents?, if_neg hquote, if_neg hslash, if_neg hcode]
  simp only [hrest, Option.map_some]

theorem gives_escaped?_control (hc : c.toNat < 32) (rest : List Char) :
    Gives escaped? ('u' :: '0' :: '0' :: hexDigit (c.toNat / 16) :: hexDigit (c.toNat % 16) :: rest)
      c rest := by
  obtain ⟨hlt, h⟩ := gives_codePoint? hc rest
  refine ⟨by simp; omega, ?_⟩
  simp only [escaped?, h]
  rfl

/-- A character is read back from what stands for it. -/
theorem gives_contents?_escape (hrest : Gives contents? rest cs tail) (c : Char) :
    Gives contents? (escape c ++ rest) (c :: cs) tail := by
  have hshort (e d : Char) (h : Gives escaped? (e :: rest) d rest) :
      Gives contents? (['\\', e] ++ rest) (d :: cs) tail :=
    gives_contents?_escaped h hrest
  have hlt := Nat.lt_succ_self rest.length
  have hcode : Char.ofNat c.toNat = c := Char.ofNat_toNat c
  unfold escape
  split_ifs with hquote hslash hn hr ht hb hf hcontrol
  · exact hquote ▸ hshort '"' '"' ⟨hlt, rfl⟩
  · exact hslash ▸ hshort '\\' '\\' ⟨hlt, rfl⟩
  · exact hn ▸ hshort 'n' '\n' ⟨hlt, rfl⟩
  · exact hr ▸ hshort 'r' '\r' ⟨hlt, rfl⟩
  · exact ht ▸ hshort 't' '\t' ⟨hlt, rfl⟩
  · exact hcode ▸ hb ▸ hshort 'b' (Char.ofNat 8) ⟨hlt, rfl⟩
  · exact hcode ▸ hf ▸ hshort 'f' (Char.ofNat 12) ⟨hlt, rfl⟩
  · exact gives_contents?_escaped (gives_escaped?_control hcontrol rest) hrest
  · exact gives_contents?_cons hquote hslash hcontrol hrest

end

theorem gives_contents? (cs rest : List Char) :
    Gives contents? (cs.flatMap escape ++ '"' :: rest) cs rest := by
  induction cs with
  | nil =>
    rw [List.flatMap_nil, List.nil_append]
    refine ⟨by simp, ?_⟩
    rw [contents?, if_pos rfl]
  | cons c cs ih =>
    rw [List.flatMap_cons, List.append_assoc]
    exact gives_contents?_escape ih c

theorem gives_string? (s : String) (rest : List Char) :
    Gives string? (quote s ++ rest) s rest := by
  rw [quote, List.cons_append, List.cons_append, List.append_assoc, List.singleton_append]
  obtain ⟨hlt, h⟩ := gives_contents? s.toList rest
  refine ⟨by simp at hlt ⊢; omega, ?_⟩
  simp only [string?, h, Option.map_some, String.ofList_toList]

theorem head?_toDigits_append (n : Nat) (rest : List Char) :
    (Nat.toDigits 10 n ++ rest).head? = (Nat.toDigits 10 n).head? := by
  obtain ⟨d, ds, hds, -⟩ := exists_toDigits_eq_cons n
  rw [hds]
  rfl

theorem head?_toDigits_ne {n : Nat} (hn : n ≠ 0) : (Nat.toDigits 10 n).head? ≠ some '0' := by
  have hdigit : ∀ d < 10, d ≠ 0 → d.digitChar ≠ '0' := by decide
  induction n using Nat.strongRecOn with
  | ind n ih =>
    by_cases hlt : n < 10
    · rw [Nat.toDigits_of_lt_base hlt, List.head?_cons]
      exact fun h => hdigit n hlt hn (Option.some.inj h)
    · rw [Nat.toDigits_of_base_le (by decide) (by omega), head?_toDigits_append]
      exact ih (n / 10) (by omega) (by omega)

section

variable {rest : List Char} {n : Nat}

theorem splitWhole_toDigits (hrest : Stops rest) (n : Nat) :
    splitWhole (Nat.toDigits 10 n ++ rest) = (Nat.toDigits 10 n, rest) := by
  by_cases hn : n = 0
  · rw [hn]
    rfl
  have hdigits : ∀ c ∈ Nat.toDigits 10 n, c.isDigit = true := fun c hc =>
    Nat.isDigit_of_mem_toDigits (by decide) (by decide) hc
  have htake := Token.takeWhile_append_of_boundary hdigits fun c hc =>
    Token.isDigit_of_mem_markChars c (hrest c hc).1
  have hdrop : (Nat.toDigits 10 n ++ rest).dropWhile Char.isDigit = rest := by
    have happend := List.takeWhile_append_dropWhile
      (p := Char.isDigit) (l := Nat.toDigits 10 n ++ rest)
    rw [htake] at happend
    exact List.append_cancel_left happend
  unfold splitWhole
  split
  · next tail h =>
    have hhead := congrArg List.head? h
    rw [head?_toDigits_append] at hhead
    exact absurd hhead (head?_toDigits_ne hn)
  · rw [htake, hdrop]

theorem splitMarked_of_stops (hrest : Stops rest) :
    splitMarked (· = '.') rest = some ([], rest) := by
  cases rest with
  | nil => rfl
  | cons c rest =>
    have hc : ¬c = '.' := by
      rintro rfl
      exact absurd (hrest '.' rfl).1 (by decide)
    rw [splitMarked, if_neg (by simpa using hc)]

theorem splitExponent_of_stops (hrest : Stops rest) : splitExponent rest = some (none, rest) := by
  cases rest with
  | nil => rfl
  | cons c rest =>
    have hc : ¬(c = 'e' ∨ c = 'E') := by
      rintro (rfl | rfl) <;> exact absurd (hrest _ rfl).1 (by decide)
    rw [splitExponent, if_neg hc]

theorem gives_magnitude? {negative : Bool} {m : Number} (hrest : Stops rest)
    (h : numberOfParts? negative (Nat.toDigits 10 n) [] none = some m) :
    Gives (magnitude? negative) (Nat.toDigits 10 n ++ rest) m rest := by
  have hwhole := splitWhole_toDigits hrest n
  obtain ⟨d, ds, hds, -⟩ := exists_toDigits_eq_cons n
  rw [hds] at h hwhole ⊢
  refine ⟨by simp only [List.cons_append, List.length_cons, List.length_append]; omega, ?_⟩
  unfold magnitude?
  split
  · next hw => cases hw.symm.trans hwhole
  · next hw =>
    cases hw.symm.trans hwhole
    split
    · next hf => cases hf.symm.trans (splitMarked_of_stops hrest)
    · next hf =>
      cases hf.symm.trans (splitMarked_of_stops hrest)
      split
      · next he => cases he.symm.trans (splitExponent_of_stops hrest)
      · next he =>
        cases he.symm.trans (splitExponent_of_stops hrest)
        simp only [h, Option.map_some]

theorem numberOfParts?_toDigits {negative : Bool} {i : Int} {m : Number}
    (hi : i = if negative then -(n : Int) else n) (hzero : negative = true → n ≠ 0)
    (hm : Number.ofInt? i = some m) :
    numberOfParts? negative (Nat.toDigits 10 n) [] none = some m := by
  have hfloat : (negative && n == 0) = false := by
    cases negative with
    | false => rfl
    | true => simpa using hzero rfl
  simp only [numberOfParts?, Number.digitsToNat_toDigits, List.isEmpty_nil, Option.isNone_none,
    Bool.and_self, if_true, hfloat, Bool.false_eq_true, if_false, ← hi, hm, Option.some_or]

/-- An integer that fits is read back as plain numbers hold it. -/
theorem gives_number? {i : Int} {m : Number} (hm : Number.ofInt? i = some m)
    (hrest : Stops rest) : Gives number? (intText i ++ rest) m rest := by
  obtain ⟨d, ds, hds, hdigits⟩ := exists_toDigits_eq_cons i.natAbs
  have hd := hdigits d List.mem_cons_self
  rw [intText]
  split
  · have hparts := @numberOfParts?_toDigits i.natAbs true i m
      (by rw [if_pos rfl]; omega) (by omega) hm
    obtain ⟨hlt, h⟩ := gives_magnitude? hrest hparts
    rw [List.cons_append]
    refine ⟨by rw [List.length_cons]; omega, ?_⟩
    simp only [number?, h, Option.map_some]
  · have hparts := @numberOfParts?_toDigits i.natAbs false i m
      (by rw [if_neg Bool.false_ne_true]; omega) (fun h => absurd h Bool.false_ne_true) hm
    obtain ⟨hlt, h⟩ := gives_magnitude? hrest hparts
    refine ⟨hlt, ?_⟩
    rw [number?, h]
    intro rest' hminus
    rw [hds, List.cons_append] at hminus
    cases hminus
    cases hd

end

end ShapeModel.Json
