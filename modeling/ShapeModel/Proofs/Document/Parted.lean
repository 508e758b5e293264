import ShapeModel.Proofs.Document.Declared

/-!
# Blank lines behind notes

A blank line may not part notes from the shape that they are written before. No document is read in
which a note is followed by one, whatever comes behind it; and where all that comes before the note
is read, the error is that the annotations belong to no shape.
-/

namespace ShapeModel

set_option autoImplicit false

open Token (Kind)

/-- The outcome is a failure with this error, at a place of its own. -/
def Outcome.FailsWith {α : Type} {n : Nat} (o : Outcome α n) (e : SyntaxError) : Prop :=
  ∃ place c, o = .failed ⟨e, some place⟩ c

theorem Outcome.Same.failsWith_iff {α : Type} {m n : Nat} {o : Outcome α n} {o' : Outcome α m}
    (h : o.Same o') (e : SyntaxError) : o.FailsWith e ↔ o'.FailsWith e := by
  rcases h with ⟨_, _, _, _, rfl, rfl⟩ | ⟨_, _, rfl, rfl⟩ <;> simp [FailsWith]

namespace Document

open Draft (Ends)

/-- Among what is written, a note has a blank line behind it. What comes after that is open. -/
inductive Parted : Scope → List Kind → Prop
  | here {s : Scope} {ts ks : List Kind} {n : Note} : IsNote s ts n →
      Parted s (ts ++ .newline :: .newline :: ks)
  | newline {s : Scope} {ks : List Kind} : Parted s ks → Parted s (.newline :: ks)
  | note {s : Scope} {ts ks : List Kind} {n : Note} : IsNote s ts n →
      Parted s (Draft.dropBreak ks) → Parted s (ts ++ ks)
  | statement {s : Scope} {ts fin rest : List Kind} {e : Statement} : e.Bare → Spells s ts e →
      Ends fin rest → Parted (e.scopeBehind s) rest → Parted s (ts ++ (fin ++ rest))

/-- The same of a document, from behind the versions it may start with. -/
inductive PartedDocument (s : Scope) : List Kind → Prop
  | version {v : String} {fin rest : List Kind} : Ends fin rest →
      PartedDocument s (dropBreaks rest) →
      PartedDocument s (.word "$version" :: .grammar ':' :: .string v :: (fin ++ rest))
  | statements {ks : List Kind} : ks.head? ≠ some (.word "$version") → Parted s ks →
      PartedDocument s ks

/-- What can stand in front of notes: nothing, or a document that is read, and a line break. -/
inductive Opens (names : List String) : List Kind → Draft → Prop
  | start : Opens names [] (.start names)
  | behind {ks : List Kind} {d : Draft} : Draft.ReadsDocument (.start names) (dropBreaks ks) d →
      Opens names (ks ++ [.newline]) d

theorem IsNote.head?_ne {s : Scope} {ts : List Kind} {n : Note} (h : IsNote s ts n)
    (ks : List Kind) : (ts ++ ks).head? ≠ some .newline ∧
      (ts ++ ks).head? ≠ some (.grammar '(') ∧ (ts ++ ks).head? ≠ some (.word "$version") := by
  cases h with
  | line => simp
  | applied hw =>
    refine ⟨by simp, by simp, ?_⟩
    rintro ⟨⟩
    cases hw

theorem AreNotes.head?_append_ne {s : Scope} {ts us ks : List Kind} {ns : List Note} {n : Note}
    (h : AreNotes s us ns) (hn : IsNote s ts n) : (us ++ (ts ++ ks)).head? ≠ some .newline ∧
      (us ++ (ts ++ ks)).head? ≠ some (.grammar '(') ∧
      (us ++ (ts ++ ks)).head? ≠ some (.word "$version") := by
  cases h with
  | nil => exact hn.head?_ne ks
  | cons hn' =>
    rw [List.append_assoc]
    exact hn'.head?_ne _

theorem Parted.head?_ne {s : Scope} {ks : List Kind} (h : Parted s ks) :
    ks.head? ≠ some (.grammar '(') := by
  cases h with
  | here hn => exact (hn.head?_ne _).2.1
  | newline => simp
  | note hn => exact (hn.head?_ne _).2.1
  | statement _ hspells => exact hspells.head?_ne _

namespace Draft

variable {d d₁ d' : Draft} {ks ts us rest : List Kind} {n : Note} {ns : List Note} {c : Cursor}
  {e : SyntaxError}

theorem Reads.not_parted {s : Scope} (hs : d.scope = s) (h : Reads d ks d') : ¬Parted s ks := by
  intro hparted
  -- What comes before the note is read in one way only, so that the note is pending at the blank
  -- line.
  induction hparted generalizing d with
  | here hn =>
    subst hs
    obtain ⟨hempty, -⟩ := (h.of_note hn (by simp)).of_newline
    cases (note_pending d _).symm.trans hempty
  | newline _ ih => exact ih hs h.of_newline.2
  | note hn hparted ih =>
    subst hs
    exact @ih (d.note _) rfl (h.of_note hn (head?_ne_of_dropBreak hparted.head?_ne))
  | statement hbare hspells hends _ ih =>
    subst hs
    obtain ⟨d₁, hcarries, h⟩ := h.exists_carries hbare hspells hends
    exact ih hcarries.scope_eq h

theorem ReadsDocument.not_parted {s : Scope} (hs : d.scope = s) (h : ReadsDocument d ks d') :
    ¬PartedDocument s ks := by
  intro hparted
  induction hparted generalizing d with
  | @version v _ _ hends _ ih =>
    exact @ih { d with version := some v } hs ((readsDocument_version_iff hends).mp h)
  | statements hhead hparted =>
    exact ((readsDocument_iff_of_head?_ne hhead).mp h).not_parted hs hparted

theorem fails_newline_iff (hc : c.kinds = .newline :: ks) (hd : d.pending.isEmpty = true) :
    (readStatements d c).FailsWith e ↔ (readStatements d c.advance).FailsWith e := by
  rcases readStatements_newline (d := d) hc with ⟨hno, -⟩ | ⟨-, hsame⟩
  · cases hd.symm.trans hno
  · exact hsame.failsWith_iff e

theorem fails_blank (hc : c.kinds = .newline :: ks) (hd : d.pending.isEmpty = false) :
    (readStatements d c).FailsWith .unattachedTraits := by
  rcases readStatements_newline (d := d) hc with ⟨-, hfailed⟩ | ⟨hno, -⟩
  · obtain ⟨t, _, hahead, -, -⟩ := List.map_eq_cons_iff.mp hc
    refine ⟨c.source.place t.position SyntaxError.unattachedTraits.message, c, ?_⟩
    rw [hfailed, Cursor.failure, Cursor.place?, Cursor.current?, hahead]
    rfl
  · cases hd.symm.trans hno

theorem fails_word_iff {w : String} (hc : c.peek? = some (.word w)) :
    (readStatements d c).FailsWith e ↔ (readStatement d w c hc).FailsWith e ∨
      ∃ d₁ c₁ h₁, readStatement d w c hc = .ok d₁ c₁ h₁ ∧ (readStatements d₁ c₁).FailsWith e := by
  rcases readStatements_word (d := d) hc with ⟨e', c', hfailed, hread⟩ | ⟨d₁, c₁, h₁, hok, hsame⟩
  · simp [hfailed, hread, Outcome.FailsWith]
  · rw [hsame.failsWith_iff, hok]
    simp [Outcome.FailsWith, h₁]

/-- Statements with these tokens are refused with this error. -/
def Refuses (e : SyntaxError) (d : Draft) (ks : List Kind) : Prop :=
  ∀ c : Cursor, c.kinds = ks → (readStatements d c).FailsWith e

theorem isBackward_refuses (e : SyntaxError) : IsBackward (Refuses e) where
  newline hd h c hc := (fails_newline_iff hc hd).mpr (h _ (Cursor.kinds_advance_of_cons hc))
  documentation h c hc := by
    refine ((readStatements_documentation hc).failsWith_iff e).mpr (h _ ?_)
    rw [kinds_skipNewline, Cursor.kinds_advance_of_cons hc]
  step hstep hrest h c hc := by
    obtain ⟨w, us, rfl⟩ := hstep.head_eq
    have hw : c.peek? = some (.word w) := Cursor.peek?_of_cons hc
    obtain ⟨c₁, h₁, hstatement, hc₁⟩ := @readStatement_of_isStep _ _ _ _ hw _ (hc ▸ hstep) hrest
    exact (fails_word_iff hw).mpr (.inr ⟨_, c₁, h₁, hstatement, h _ hc₁⟩)

theorem IsBackward.note {P : Draft → List Kind → Prop} (hP : IsBackward P)
    (hn : IsNote d.scope ts n) (hks : (dropBreak ks).head? ≠ some (.grammar '('))
    (h : P (d.note n) (dropBreak ks)) : P d (ts ++ ks) := by
  cases hn with
  | line => exact hP.documentation h
  | applied hw htrait => exact hP.step (.applied hw htrait) hks h

theorem IsBackward.notes {P : Draft → List Kind → Prop} (hP : IsBackward P)
    (hns : AreNotes d.scope us ns) (hks : Follows ks) (h : P (ns.foldl Draft.note d) ks) :
    P d (us ++ ks) := by
  induction ns generalizing d us with
  | nil =>
    cases hns
    exact h
  | cons n ns ih =>
    cases hns with
    | cons hn hgap hmore =>
      have hfollows := hmore.follows hks
      have hdrop := hgap.dropBreak_append hfollows
      rw [List.append_assoc, List.append_assoc]
      refine hP.note hn ?_ ?_
      · rw [hdrop]
        exact hfollows.2
      · rw [hdrop]
        exact ih hmore h

theorem refuses_blank (hd : d.pending.isEmpty = false) (ks : List Kind) :
    Refuses .unattachedTraits d (.newline :: ks) :=
  fun _ hc => fails_blank hc hd

theorem scope_foldl_note (d : Draft) (ns : List Note) : (ns.foldl note d).scope = d.scope := by
  rw [foldl_note]

/-- Notes with a blank line behind them are refused. -/
theorem refuses_notes (hns : AreNotes d.scope us ns) (hn : IsNote d.scope ts n) (ks : List Kind) :
    Refuses .unattachedTraits d (us ++ (ts ++ .newline :: .newline :: ks)) := by
  have hP := isBackward_refuses .unattachedTraits
  have hhead := hn.head?_ne (.newline :: .newline :: ks)
  refine hP.notes hns ⟨hhead.1, hhead.2.1⟩ ?_
  rw [← scope_foldl_note d ns] at hn
  have hbreak : dropBreak (.newline :: .newline :: ks) = .newline :: ks := rfl
  refine hP.note hn (by simp [hbreak]) ?_
  rw [hbreak]
  exact refuses_blank (note_pending _ _) ks

theorem fails_skipNewlines (hd : d.pending.isEmpty = true)
    (h : (readStatements d c).FailsWith e) : (readStatements d c.skipNewlines).FailsWith e := by
  obtain ⟨s, passed, ahead⟩ := c
  induction ahead generalizing passed with
  | nil => exact h
  | cons t ts ih =>
    by_cases ht : t.kind = .newline
    · have hc : Cursor.kinds ⟨s, passed, t :: ts⟩ = .newline :: ts.map (·.kind) := by
        rw [Cursor.kinds, List.map_cons, ht]
      rw [Cursor.skipNewlines, Cursor.skipNewlinesFrom, if_pos ht]
      exact ih (t :: passed) ((fails_newline_iff hc hd).mp h)
    · rwa [Cursor.skipNewlines, Cursor.skipNewlinesFrom, if_neg ht]

theorem fails_metadata (hc : c.peek? = some (.word "metadata")) (hd : d.pending.isEmpty = true)
    (h : (readStatements d c).FailsWith e) : (readMetadata d c.advance).FailsWith e ∨
      ∃ d₁ c₁ h₁, readMetadata d c.advance = .ok d₁ c₁ h₁ ∧ d₁.pending = d.pending ∧
        (readStatements d₁ c₁).FailsWith e := by
  rw [fails_word_iff hc, readStatement, if_neg (by decide), if_pos rfl, hd] at h
  cases hread : readMetadata d c.advance with
  | failed e' c' =>
    rcases h with h | ⟨d₁, c₁, h₁, hok, -⟩
    · simpa [hread, Outcome.FailsWith] using h
    · simp [hread] at hok
  | ok d₁ c₁ h₁ =>
    obtain ⟨_, _, _, _, _, -, -, -, -, hd₁⟩ :=
      readMetadata_gives_iff.mp (Outcome.gives_of_eq hread)
    rcases h with h | ⟨d₂, c₂, h₂, hok, h⟩
    · simp [hread, Outcome.FailsWith] at h
    · simp only [hread, Bool.not_true, Bool.false_eq_true, if_false, Outcome.ok.injEq] at hok
      obtain ⟨rfl, rfl⟩ := hok
      exact .inr ⟨_, _, h₁, rfl, by rw [hd₁], h⟩

/-- The section for metadata passes a failure on, or fails itself. -/
theorem fails_metadataSection (d : Draft) (c : Cursor) (hd : d.pending.isEmpty = true)
    (h : (readStatements d c).FailsWith e) : (readMetadataSection d c).FailsWith e ∨
      ∃ d₁ c₁ h₁, readMetadataSection d c = .ok d₁ c₁ h₁ ∧ (readStatements d₁ c₁).FailsWith e := by
  rw [readMetadataSection]
  split
  · next hk =>
    have hlt := Cursor.left_advance_lt hk
    rcases fails_metadata hk hd h with ⟨place, rest, hread⟩ | ⟨d₁, c₁, h₁, hread, hd₁, h⟩
    · simp only [hread]
      exact .inl ⟨place, rest, rfl⟩
    · have hle := c₁.left_skipNewlines_le
      rw [← hd₁] at hd
      simp only [hread]
      rcases fails_metadataSection d₁ c₁.skipNewlines hd (fails_skipNewlines hd h) with
        ⟨place, rest, hmore⟩ | ⟨d₂, c₂, h₂, hmore, h⟩
      · simp only [hmore]
        exact .inl ⟨place, rest, rfl⟩
      · simp only [hmore]
        exact .inr ⟨d₂, c₂, by omega, rfl, h⟩
  · exact .inr ⟨d, c, c.left_lt_succ, rfl, h⟩
termination_by c.left

/-- Versions are read, and what comes behind them is refused with this error. -/
def RefusesDocument (e : SyntaxError) (d : Draft) (ks : List Kind) : Prop :=
  ∀ c : Cursor, c.kinds = ks → ∃ d₁ c₁ h₁, readVersions d c = .ok d₁ c₁ h₁ ∧
    d₁.pending = d.pending ∧ (readStatements d₁ c₁).FailsWith e

theorem Refuses.document (hhead : ks.head? ≠ some (.word "$version")) (h : Refuses e d ks) :
    RefusesDocument e d ks := by
  intro c hc
  refine ⟨d, c, c.left_lt_succ, ?_, rfl, h c hc⟩
  rw [readVersions]
  split
  · next hk =>
    rw [Cursor.peek?_eq, hc] at hk
    exact absurd hk hhead
  · rfl

theorem RefusesDocument.version {v : String} {fin : List Kind} (hends : Ends fin rest)
    (h : RefusesDocument e { d with version := some v } (dropBreaks rest)) :
    RefusesDocument e d (.word "$version" :: .grammar ':' :: .string v :: (fin ++ rest)) := by
  intro c hc
  have hpeek : c.peek? = some (.word "$version") := Cursor.peek?_of_cons hc
  have hlt := Cursor.left_advance_lt hpeek
  obtain ⟨c₁, h₁, hcolon, hc₁⟩ :=
    Cursor.expectGrammar_gives_iff.mpr (Cursor.kinds_advance_of_cons hc)
  obtain ⟨c₂, h₂, hversion, hc₂⟩ := Cursor.expectString_gives_iff.mpr hc₁
  obtain ⟨c₃, h₃, hend, hc₃⟩ := hends.gives hc₂
  have hle := c₃.left_skipNewlines_le
  obtain ⟨d₁, c₄, h₄, hread, hd₁, hfails⟩ :=
    h c₃.skipNewlines (by rw [Cursor.kinds_skipNewlines, hc₃])
  rw [readVersions]
  split
  · simp only [hcolon, hversion, hend, hread]
    exact ⟨d₁, c₄, by omega, rfl, hd₁, hfails⟩
  · next hne => exact absurd hpeek hne

theorem dropBreaks_of_head?_ne (h : us.head? ≠ some .newline) : dropBreaks us = us := by
  cases us with
  | nil => rfl
  | cons k us => exact dropBreaks_of_ne (fun hk => h (congrArg some hk)) us

theorem ReadsDocument.eq_of_nil (h : ReadsDocument d [] d') : d = d' := by
  cases h with
  | statements _ h => exact h.eq_of_nil

/-- Line breaks at the start do not matter, even if there is nothing else before what is refused. -/
theorem ReadsDocument.refuses_dropBreaks (h : ReadsDocument d (dropBreaks ks) d')
    (hbreak : us.head? ≠ some .newline) (hversion : us.head? ≠ some (.word "$version"))
    (hus : Refuses e d' us) (hmore : RefusesDocument e d (dropBreaks ks ++ .newline :: us)) :
    RefusesDocument e d (dropBreaks (ks ++ .newline :: us)) := by
  rw [dropBreaks_append_newline]
  split
  · next hnil =>
    rw [hnil] at h
    rw [dropBreaks_of_head?_ne hbreak]
    exact (h.eq_of_nil ▸ hus).document hversion
  · exact hmore

/-- A document goes on behind a line break, also where what comes there is refused. -/
theorem ReadsDocument.refuses_append (h : ReadsDocument d ks d')
    (hhead : us.head? ≠ some .newline ∧ us.head? ≠ some (.grammar '(') ∧
      us.head? ≠ some (.word "$version"))
    (hus : Refuses e d' us) : RefusesDocument e d (ks ++ .newline :: us) := by
  obtain ⟨hbreak, hopen, hversion⟩ := hhead
  induction h with
  | @version d d' v fin rest hends h ih =>
    have hmore := h.refuses_dropBreaks hbreak hversion hus (ih hus)
    rw [List.cons_append, List.cons_append, List.cons_append, List.append_assoc]
    cases hends with
    | newline => exact .version (.newline _) hmore
    | input =>
      -- A version that ended with the input ends with the line break now.
      exact @RefusesDocument.version _ us _ v [.newline] (.newline us) hmore
  | @statements _ _ ks hhead h =>
    refine (h.append_of_isBackward (isBackward_refuses e) hopen hus).document ?_
    cases ks with
    | nil => simp
    | cons k ks => exact hhead

end Draft

theorem Opens.refuses {names : List String} {ks us : List Kind} {d : Draft} {e : SyntaxError}
    (h : Opens names ks d)
    (hhead : us.head? ≠ some .newline ∧ us.head? ≠ some (.grammar '(') ∧
      us.head? ≠ some (.word "$version"))
    (hus : Draft.Refuses e d us) :
    Draft.RefusesDocument e (.start names) (dropBreaks (ks ++ us)) := by
  cases h with
  | start =>
    rw [List.nil_append, Draft.dropBreaks_of_head?_ne hhead.1]
    exact hus.document hhead.2.2
  | behind h =>
    rw [List.append_assoc, List.singleton_append]
    exact h.refuses_dropBreaks hhead.1 hhead.2.2 hus (h.refuses_append hhead hus)

theorem fails_readDocument {names : List String} {c : Cursor} {e : SyntaxError}
    (h : Draft.RefusesDocument e (.start names) (dropBreaks c.kinds)) :
    (readDocument names c).FailsWith e := by
  obtain ⟨d₁, c₁, h₁, hversions, hd₁, hfails⟩ := h c.skipNewlines c.kinds_skipNewlines
  have hpending : d₁.pending.isEmpty = true := by
    rw [hd₁]
    rfl
  rw [readDocument]
  simp only [hversions]
  rcases Draft.fails_metadataSection d₁ c₁ hpending hfails with
    ⟨place, rest, hmetadata⟩ | ⟨d₂, c₂, h₂, hmetadata, place, rest, hstatements⟩
  · simp only [hmetadata]
    exact ⟨place, rest, rfl⟩
  · simp only [hmetadata, hstatements]
    exact ⟨place, rest, rfl⟩

theorem ofTokens_eq_error {names : List String} {src : Source} {ts : List Token} {e : SyntaxError}
    (h : Draft.RefusesDocument e (.start names) (dropBreaks (ts.map (·.kind)))) :
    ∃ place, ofTokens names src ts = .error ⟨e, some place⟩ := by
  obtain ⟨place, rest, hread⟩ := @fails_readDocument names (.ofTokens src ts) e h
  rw [ofTokens, hread]
  exact ⟨place, rfl⟩

end Document

end ShapeModel
