import ShapeModel.Text.Blank

/-!
# Words between blanks

Which words a text consists of, as a relation: nonempty runs without blanks, parted by blanks, which
may also stand at both ends. Every text has its words in one way only, and those of two texts with a
blank between them are those of the first and then those of the second.
-/

namespace ShapeModel.Text

set_option autoImplicit false

/-- A nonempty run of characters that are not blank. -/
structure IsWord (w : List Char) : Prop where
  ne_nil : w ≠ []
  graphic : ∀ c ∈ w, isBlank c = false

/-- The text consists of these words and of blanks between them and around them. -/
inductive AreWords : List Char → List (List Char) → Prop
  | nil : AreWords [] []
  | blank {c : Char} {cs : List Char} {ws : List (List Char)} : isBlank c = true →
      AreWords cs ws → AreWords (c :: cs) ws
  | last {w : List Char} : IsWord w → AreWords w [w]
  | word {w : List Char} {c : Char} {cs : List Char} {ws : List (List Char)} : IsWord w →
      isBlank c = true → AreWords cs ws → AreWords (w ++ c :: cs) (w :: ws)

variable {cs ds gap : List Char} {ws vs : List (List Char)}

theorem words_blank {c : Char} (hc : isBlank c = true) (cs : List Char) :
    words (c :: cs) = words cs := by
  rw [words, if_pos hc]

theorem IsWord.words_append {w : List Char} (hw : IsWord w)
    (hcs : ∀ c ∈ cs.head?, isBlank c = true) : words (w ++ cs) = w :: words cs := by
  obtain ⟨c, w, rfl⟩ := List.exists_cons_of_ne_nil hw.ne_nil
  have hrest : ∀ d ∈ w, (!isBlank d) = true := by
    intro d hd
    rw [hw.graphic d (List.mem_cons_of_mem _ hd)]
    rfl
  rw [List.cons_append, words, if_neg (by simp [hw.graphic c List.mem_cons_self]),
    List.takeWhile_append_of_pos hrest, List.dropWhile_append_of_pos hrest]
  cases cs with
  | nil => simp
  | cons d cs => simp [hcs d rfl]

theorem AreWords.words_eq (h : AreWords cs ws) : words cs = ws := by
  induction h with
  | nil => rw [words]
  | blank hc _ ih => rw [words_blank hc, ih]
  | @last w hw =>
    have hwords : words (w ++ []) = w :: words [] := hw.words_append (by simp)
    rwa [List.append_nil, words] at hwords
  | @word w c cs ws hw hc _ ih =>
    rw [hw.words_append (by simpa using hc), words_blank hc, ih]

theorem IsWord.singleton {c : Char} (hc : isBlank c = false) : IsWord [c] := by
  refine ⟨List.cons_ne_nil c [], ?_⟩
  intro d hd
  rwa [List.mem_singleton.mp hd]

theorem IsWord.cons {c : Char} {w : List Char} (hc : isBlank c = false) (hw : IsWord w) :
    IsWord (c :: w) := by
  refine ⟨List.cons_ne_nil c w, ?_⟩
  intro d hd
  rcases List.mem_cons.mp hd with rfl | hd
  · exact hc
  · exact hw.graphic d hd

/-- A character that is not blank starts a word, or belongs to the first one. -/
theorem AreWords.exists_cons {c : Char} (hc : isBlank c = false) (h : AreWords cs ws) :
    ∃ ws', AreWords (c :: cs) ws' := by
  cases h with
  | nil => exact ⟨_, .last (.singleton hc)⟩
  | blank hd hcs => exact ⟨_, .word (.singleton hc) hd hcs⟩
  | last hw => exact ⟨_, .last (.cons hc hw)⟩
  | word hw hd hcs => exact ⟨_, .word (.cons hc hw) hd hcs⟩

theorem exists_areWords (cs : List Char) : ∃ ws, AreWords cs ws := by
  induction cs with
  | nil => exact ⟨[], .nil⟩
  | cons c cs ih =>
    obtain ⟨ws, hws⟩ := ih
    cases hc : isBlank c with
    | true => exact ⟨ws, .blank hc hws⟩
    | false => exact hws.exists_cons hc

theorem areWords_words (cs : List Char) : AreWords cs (words cs) := by
  obtain ⟨ws, hws⟩ := exists_areWords cs
  rwa [hws.words_eq]

theorem AreWords.blanks (hgap : ∀ c ∈ gap, isBlank c = true) (h : AreWords cs ws) :
    AreWords (gap ++ cs) ws := by
  induction gap with
  | nil => exact h
  | cons c gap ih =>
    exact .blank (hgap c List.mem_cons_self) (ih fun d hd => hgap d (List.mem_cons_of_mem _ hd))

theorem AreWords.append (hne : gap ≠ []) (hgap : ∀ c ∈ gap, isBlank c = true)
    (h : AreWords cs ws) (hds : AreWords ds vs) : AreWords (cs ++ (gap ++ ds)) (ws ++ vs) := by
  induction h with
  | nil =>
    rw [List.nil_append, List.nil_append]
    exact hds.blanks hgap
  | blank hc _ ih => exact .blank hc ih
  | last hw =>
    obtain ⟨c, gap, rfl⟩ := List.exists_cons_of_ne_nil hne
    have hrest := hds.blanks fun d hd => hgap d (List.mem_cons_of_mem _ hd)
    exact .word hw (hgap c List.mem_cons_self) hrest
  | word hw hc _ ih =>
    rw [List.append_assoc]
    exact .word hw hc ih

end ShapeModel.Text
