import ShapeModel.Proofs.Token.Kinds

/-!
# Strings between quotes

There is more than one way to write a string between quotes. Whatever stands for each of its
characters, the string is read back if each of them is, and if no escape could be taken for the
quote that ends the string.
-/

namespace ShapeModel.Token

set_option autoImplicit false

/-- What stands for the character between quotes is read as that character. -/
structure Escapes (escape : Char → List Char) (c : Char) : Prop where
  reads (cs : List Char) :
    quotedString (escape c ++ cs) = pushChar c (escape c).length (quotedString cs)
  inside : ∃ d ds, escape c = d :: ds ∧ d ≠ '"'

variable {escape : Char → List Char} {c : Char}

theorem escapes_of_unescape? {e : Char} (h : escape c = ['\\', e]) (he : e ≠ '\n')
    (hc : unescape? e = some c) : Escapes escape c where
  reads cs := by
    rw [h]
    exact quotedString_escape cs he hc
  inside := ⟨'\\', [e], h, by decide⟩

theorem escapes_of_plain (h : escape c = [c]) (hb : c ≠ '\\') (hq : c ≠ '"') (hn : c ≠ '\n') :
    Escapes escape c where
  reads cs := by
    rw [h]
    exact quotedString_plain cs hb hq hn
  inside := ⟨c, [], h, hq⟩

variable {s rest : List Char}

/-- Reading a quoted string undoes its escapes and ends at the quote. -/
theorem quotedString_flatMap (hs : ∀ c ∈ s, Escapes escape c) :
    quotedString (s.flatMap escape ++ '"' :: rest) = .ok (s, (s.flatMap escape).length + 1) := by
  induction s with
  | nil => exact quotedString_quote rest
  | cons c s ih =>
    obtain ⟨hc, hs⟩ := List.forall_mem_cons.mp hs
    rw [List.flatMap_cons, List.append_assoc, hc.reads, ih hs, pushChar, List.length_append]
    congr 2
    omega

/-- No quote stands inside a string, so two quotes are an empty string unless a third follows. -/
theorem blockDelimiter_isPrefixOf_quoted (hs : ∀ c ∈ s, Escapes escape c)
    (hrest : rest.head? ≠ some '"') :
    blockDelimiter.isPrefixOf ('"' :: (s.flatMap escape ++ '"' :: rest)) = false := by
  cases s with
  | nil =>
    cases rest with
    | nil => rfl
    | cons d rest =>
      have hd : '"' ≠ d := fun h => hrest (congrArg some h.symm)
      simp [blockDelimiter, List.isPrefixOf, hd]
  | cons c s =>
    obtain ⟨d, ds, hd, hne⟩ := (hs c List.mem_cons_self).inside
    simp [blockDelimiter, List.isPrefixOf, hd, Ne.symm hne]

theorem front_quoted (hs : ∀ c ∈ s, Escapes escape c) (hrest : rest.head? ≠ some '"') :
    front '"' (s.flatMap escape ++ '"' :: rest) =
      .token (.string (String.ofList s)) ((s.flatMap escape).length + 1) := by
  have hgrammar : isGrammar '"' = false := by decide
  simp [front, isGap, hgrammar, blockDelimiter_isPrefixOf_quoted hs hrest,
    quotedString_flatMap hs, stringFront]

theorem kinds_quoted (hs : ∀ c ∈ s, Escapes escape c) (hrest : rest.head? ≠ some '"') :
    kinds ('"' :: (s.flatMap escape ++ '"' :: rest)) =
      (kinds rest).map (.string (String.ofList s) :: ·) := by
  have hlength : (s.flatMap escape ++ ['"']).length = (s.flatMap escape).length + 1 := by
    rw [List.length_append, List.length_singleton]
  rw [kinds_of_token (front_quoted hs hrest), List.append_cons, List.drop_left' hlength]

end ShapeModel.Token
