import ShapeModel.Proofs.Document.Statement

/-!
# Documents as runs of statements

Reading a document to its end is a run of its statements: versions first, then all others. Metadata
is read in a section of its own, but the section adds nothing that single statements would not.
-/

namespace ShapeModel.Document

set_option autoImplicit false

open Token (Kind)

namespace Draft

theorem kinds_of_peek? {c : Cursor} {k : Kind} (h : c.peek? = some k) :
    c.kinds = k :: c.advance.kinds := by
  rw [Cursor.peek?_eq] at h
  obtain ⟨ks, hks⟩ := List.head?_eq_some_iff.mp h
  rw [Cursor.kinds_advance_of_cons hks, hks]

theorem kinds_skipNewline (c : Cursor) : c.skipNewline.kinds = dropBreak c.kinds := by
  rw [Cursor.skipNewline, Cursor.peek?_eq, dropBreak]
  split
  · exact Cursor.kinds_advance c
  · rfl

section

variable {d d' : Draft} {c : Cursor} {rest : List Kind}

theorem readStatement_namespace_iff {hc : c.peek? = some (.word "namespace")} :
    (readStatement d "namespace" c hc).Gives d' rest ↔
      d.checkDeclaration "namespace" = .ok () ∧ d.scope.space = none ∧
        ∃ space, (readWordStatement c.advance).Gives space rest ∧ d.setSpace space = d' := by
  rw [readStatement, if_pos rfl]
  cases d.checkDeclaration "namespace" with
  | error e => exact iff_of_false Outcome.not_gives_failed fun h => by cases h.1
  | ok =>
    cases d.scope.space with
    | some space => exact iff_of_false Outcome.not_gives_failed fun h => by cases h.2.1
    | none =>
      cases readWordStatement c.advance with
      | failed => simp [Outcome.not_gives_failed]
      | ok => simp [Outcome.gives_ok_iff, and_assoc, and_comm]

theorem readStatement_metadata_iff {hc : c.peek? = some (.word "metadata")} :
    (readStatement d "metadata" c hc).Gives d' rest ↔
      d.pending.isEmpty = true ∧ (readMetadata d c.advance).Gives d' rest := by
  rw [readStatement, if_neg (by decide), if_pos rfl]
  cases d.pending.isEmpty with
  | false => exact iff_of_false Outcome.not_gives_failed fun h => Bool.false_ne_true h.1
  | true =>
    cases readMetadata d c.advance with
    | failed => simp [Outcome.not_gives_failed]
    | ok => simp [Outcome.gives_ok_iff]

theorem readStatement_use_iff {hc : c.peek? = some (.word "use")} :
    (readStatement d "use" c hc).Gives d' rest ↔
      d.checkDeclaration "use" = .ok () ∧
        ∃ target, (readWordStatement c.advance).Gives target rest ∧ d.addAlias target = d' := by
  rw [readStatement, if_neg (by decide), if_neg (by decide), if_pos rfl]
  cases d.checkDeclaration "use" with
  | error e => exact iff_of_false Outcome.not_gives_failed fun h => by cases h.1
  | ok =>
    cases readWordStatement c.advance with
    | failed => simp [Outcome.not_gives_failed]
    | ok => simp [Outcome.gives_ok_iff, and_assoc, and_comm]

theorem readStatement_apply_iff {hc : c.peek? = some (.word "apply")} :
    (readStatement d "apply" c hc).Gives d' rest ↔
      d.pending.isEmpty = true ∧ (readApply d c.advance).Gives d' rest := by
  rw [readStatement, if_neg (by decide), if_neg (by decide), if_neg (by decide), if_pos rfl]
  cases d.pending.isEmpty with
  | false => exact iff_of_false Outcome.not_gives_failed fun h => Bool.false_ne_true h.1
  | true =>
    cases readApply d c.advance with
    | failed => simp [Outcome.not_gives_failed]
    | ok => simp [Outcome.gives_ok_iff]

theorem readStatement_applied_iff {w : String} {hc : c.peek? = some (.word w)}
    (hw : isTraitWord w = true) :
    (readStatement d w c hc).Gives d' rest ↔
      ∃ name v ks, (readTrait d.scope c).Gives (name, v) ks ∧ d.annotate name v = d' ∧
        dropBreak ks = rest := by
  have hne (k : String) (hk : isTraitWord k = false) : w ≠ k := by
    rintro rfl
    rw [hk] at hw
    cases hw
  rw [readStatement, if_neg (hne _ rfl), if_neg (hne _ rfl), if_neg (hne _ rfl),
    if_neg (hne _ rfl), if_pos hw]
  cases readTrait d.scope c with
  | failed => simp [Outcome.not_gives_failed]
  | ok a c₁ h₁ =>
    obtain ⟨name, v⟩ := a
    simp only [Outcome.gives_ok_iff, kinds_skipNewline]
    constructor
    · rintro ⟨hd, hks⟩
      exact ⟨name, v, c₁.kinds, ⟨rfl, rfl⟩, hd, hks⟩
    · rintro ⟨_, _, _, ⟨⟨⟩, rfl⟩, hd, hks⟩
      exact ⟨hd, hks⟩

theorem readStatement_shape {w : String} {hc : c.peek? = some (.word w)} (hw : w ∉ keywords)
    (htrait : isTraitWord w = false) : readStatement d w c hc = readShape d c := by
  simp only [keywords, List.mem_cons, List.not_mem_nil, or_false, not_or] at hw
  obtain ⟨hnamespace, hmetadata, huse, happly⟩ := hw
  rw [readStatement, if_neg hnamespace, if_neg hmetadata, if_neg huse, if_neg happly,
    if_neg (by simp [htrait])]

end

theorem isStep_of_readStatement {d d' : Draft} {w : String} {c : Cursor}
    {hc : c.peek? = some (.word w)} {rest : List Kind}
    (h : (readStatement d w c hc).Gives d' rest) : IsStep d c.kinds rest d' := by
  have hks := kinds_of_peek? hc
  by_cases hkeyword : w ∈ keywords
  · simp only [keywords, List.mem_cons, List.not_mem_nil, or_false] at hkeyword
    rcases hkeyword with rfl | rfl | rfl | rfl
    · obtain ⟨hcheck, hspace, space, hread, rfl⟩ := readStatement_namespace_iff.mp h
      obtain ⟨fin, hfin, hends⟩ := readWordStatement_gives_iff.mp hread
      rw [hks, hfin]
      exact .statement (.space hcheck hspace) hends
    · obtain ⟨hpending, hread⟩ := readStatement_metadata_iff.mp h
      obtain ⟨k, key, ts, v, fin, hkinds, hk, hv, hends, rfl⟩ := readMetadata_gives_iff.mp hread
      rw [hks, hkinds]
      exact .statement (.metadata hpending hk hv) hends
    · obtain ⟨hcheck, target, hread, rfl⟩ := readStatement_use_iff.mp h
      obtain ⟨fin, hfin, hends⟩ := readWordStatement_gives_iff.mp hread
      rw [hks, hfin]
      exact .statement (.use hcheck) hends
    · obtain ⟨hpending, hread⟩ := readStatement_apply_iff.mp h
      obtain ⟨ts, fin, hkinds, happlication, hends⟩ := isApplication_of_readApply hread
      rw [hks, hkinds]
      exact .statement (.application hpending happlication) hends
  cases hw : isTraitWord w with
  | true =>
    obtain ⟨name, v, ks, hread, rfl, rfl⟩ := (readStatement_applied_iff hw).mp h
    obtain ⟨w', us, hus, htrait⟩ := isTrait_of_readTrait hread
    cases (List.cons.inj (hks.symm.trans hus)).1
    rw [hus]
    exact .applied hw htrait
  | false =>
    rw [readStatement_shape hkeyword hw] at h
    obtain ⟨keyword, ts, fin, hkinds, hshape, hends⟩ := isShape_of_readShape h
    cases (List.cons.inj (hks.symm.trans hkinds)).1
    rw [hkinds]
    exact .statement (.shape hkeyword hw hshape) hends

theorem readStatement_of_isStatement {d d' : Draft} {w : String} {c : Cursor}
    {hc : c.peek? = some (.word w)} {ts fin rest : List Kind} (h : IsStatement d ts d')
    (hends : Ends fin rest) (hkinds : c.kinds = ts ++ (fin ++ rest)) :
    (readStatement d w c hc).Gives d' rest := by
  have hks := hkinds.symm.trans (kinds_of_peek? hc)
  cases h with
  | space hcheck hspace =>
    cases (List.cons.inj hks).1
    have hread := readWordStatement_gives_iff.mpr ⟨fin, (List.cons.inj hks).2.symm, hends⟩
    exact readStatement_namespace_iff.mpr ⟨hcheck, hspace, _, hread, rfl⟩
  | @metadata k key us v hpending hk hv =>
    cases (List.cons.inj hks).1
    have hread := readMetadata_gives_iff.mpr
      ⟨k, key, us, v, fin, (List.cons.inj hks).2.symm, hk, hv, hends, rfl⟩
    exact readStatement_metadata_iff.mpr ⟨hpending, hread⟩
  | use hcheck =>
    cases (List.cons.inj hks).1
    have hread := readWordStatement_gives_iff.mpr ⟨fin, (List.cons.inj hks).2.symm, hends⟩
    exact readStatement_use_iff.mpr ⟨hcheck, _, hread, rfl⟩
  | application hpending happlication =>
    cases (List.cons.inj hks).1
    have hread := readApply_of_isApplication happlication hends (List.cons.inj hks).2.symm
    exact readStatement_apply_iff.mpr ⟨hpending, hread⟩
  | shape hkeyword hw hshape =>
    cases (List.cons.inj hks).1
    rw [readStatement_shape hkeyword hw]
    exact readShape_of_isShape hshape hends hkinds

theorem readStatement_of_isStep {d d' : Draft} {w : String} {c : Cursor}
    {hc : c.peek? = some (.word w)} {rest : List Kind} (h : IsStep d c.kinds rest d')
    (hrest : rest.head? ≠ some (.grammar '(')) : (readStatement d w c hc).Gives d' rest := by
  have hks := kinds_of_peek? hc
  generalize hkinds : c.kinds = ks at h hks
  cases h with
  | statement hs hends => exact readStatement_of_isStatement hs hends hkinds
  | @applied w' name v us ks hw htrait =>
    cases (List.cons.inj hks).1
    have hopen : ks.head? ≠ some (.grammar '(') := by
      intro hopen
      rw [dropBreak, if_neg (by simp [hopen])] at hrest
      exact hrest hopen
    have hread := readTrait_of_isTrait htrait hkinds hopen
    exact (readStatement_applied_iff hw).mpr ⟨name, v, ks, hread, rfl, rfl⟩

theorem Reads.head?_ne {d d' : Draft} {ks : List Kind} (h : Reads d ks d') (ch : Char) :
    ks.head? ≠ some (.grammar ch) := by
  cases h with
  | step hs =>
    obtain ⟨w, us, rfl⟩ := hs.head_eq
    simp
  | _ => simp

section

variable {d d' : Draft} {c : Cursor} {rest : List Kind}

theorem readStatements_nil_iff (hc : c.kinds = []) :
    (readStatements d c).Gives d' rest ↔ d.pending.isEmpty = true ∧ d = d' ∧ rest = [] := by
  have hpeek : c.peek? = none := by rw [Cursor.peek?_eq, hc, List.head?_nil]
  rw [readStatements]
  split
  · split
    · next hpending => rw [Outcome.gives_ok_iff, hc, eq_comm (a := rest), and_iff_right hpending]
    · next hpending => exact iff_of_false Outcome.not_gives_failed fun h => hpending h.1
  all_goals
    next hk => cases hpeek.symm.trans hk

/-- A line break fails where annotations wait, and is passed elsewhere. -/
theorem readStatements_newline {ks : List Kind} (hc : c.kinds = .newline :: ks) :
    (d.pending.isEmpty = false ∧
        readStatements d c = .failed (c.failure .unattachedTraits) c) ∨
      (d.pending.isEmpty = true ∧ (readStatements d c).Same (readStatements d c.advance)) := by
  have hpeek : c.peek? = some .newline := Cursor.peek?_of_cons hc
  rw [readStatements]
  split
  · next hk => cases hpeek.symm.trans hk
  · cases d.pending.isEmpty with
    | false => exact .inl ⟨rfl, rfl⟩
    | true =>
      refine .inr ⟨rfl, ?_⟩
      cases readStatements d c.advance with
      | failed e rest => exact .inr ⟨e, rest, rfl, rfl⟩
      | ok d' rest h => exact .inl ⟨d', rest, _, h, rfl, rfl⟩
  · next hk => cases hpeek.symm.trans hk
  · next hk => cases hpeek.symm.trans hk
  · next hne _ _ hk =>
    cases hpeek.symm.trans hk
    exact absurd rfl hne

theorem readStatements_newline_iff {ks : List Kind} (hc : c.kinds = .newline :: ks) :
    (readStatements d c).Gives d' rest ↔
      d.pending.isEmpty = true ∧ (readStatements d c.advance).Gives d' rest := by
  rcases readStatements_newline (d := d) hc with ⟨hd, hfailed⟩ | ⟨hd, hsame⟩
  · rw [hfailed, hd]
    exact iff_of_false Outcome.not_gives_failed fun h => Bool.false_ne_true h.1
  · rw [hsame.gives_iff, and_iff_right hd]

theorem readStatements_documentation {line : String} {ks : List Kind}
    (hc : c.kinds = .documentation line :: ks) :
    (readStatements d c).Same (readStatements (d.document line) c.advance.skipNewline) := by
  have hpeek : c.peek? = some (.documentation line) := Cursor.peek?_of_cons hc
  rw [readStatements]
  split
  · next hk => cases hpeek.symm.trans hk
  · next hk => cases hpeek.symm.trans hk
  · next hk =>
    cases hpeek.symm.trans hk
    rw [document]
    cases readStatements { d with pending := d.pending.document line } c.advance.skipNewline with
    | failed e rest => exact .inr ⟨e, rest, rfl, rfl⟩
    | ok d' rest h => exact .inl ⟨d', rest, _, h, rfl, rfl⟩
  · next hk => cases hpeek.symm.trans hk
  · next _ hne _ hk =>
    cases hpeek.symm.trans hk
    exact absurd rfl (hne line)

/-- A statement fails, or what comes behind it is read. -/
theorem readStatements_word {w : String} (hc : c.peek? = some (.word w)) :
    (∃ e c', readStatement d w c hc = .failed e c' ∧ readStatements d c = .failed e c') ∨
      ∃ d₁ c₁ h₁, readStatement d w c hc = .ok d₁ c₁ h₁ ∧
        (readStatements d c).Same (readStatements d₁ c₁) := by
  rw [readStatements]
  split
  · next hk => cases hc.symm.trans hk
  · next hk => cases hc.symm.trans hk
  · next hk => cases hc.symm.trans hk
  · next hk =>
    cases hc.symm.trans hk
    cases readStatement d w c hc with
    | failed e c' => exact .inl ⟨e, c', rfl, rfl⟩
    | ok d₁ c₁ h₁ =>
      refine .inr ⟨d₁, c₁, h₁, rfl, ?_⟩
      cases hread : readStatements d₁ c₁ with
      | failed e rest => exact .inr ⟨e, rest, by simp only [hread], rfl⟩
      | ok d' rest h => exact .inl ⟨d', rest, by omega, h, by simp only [hread], rfl⟩
  · next _ _ hne hk =>
    cases hc.symm.trans hk
    exact absurd rfl (hne w)

theorem readStatements_word_iff {w : String} (hc : c.peek? = some (.word w)) :
    (readStatements d c).Gives d' rest ↔
      ∃ d₁ c₁ h₁, readStatement d w c hc = .ok d₁ c₁ h₁ ∧
        (readStatements d₁ c₁).Gives d' rest := by
  rcases readStatements_word (d := d) hc with ⟨e, c', hfailed, hread⟩ | ⟨d₁, c₁, h₁, hok, hsame⟩
  · rw [hread]
    refine iff_of_false Outcome.not_gives_failed ?_
    rintro ⟨_, _, _, hok, -⟩
    cases hfailed.symm.trans hok
  · rw [hsame.gives_iff]
    constructor
    · exact fun h => ⟨d₁, c₁, h₁, hok, h⟩
    · rintro ⟨_, _, _, hok', h⟩
      cases hok.symm.trans hok'
      exact h

/-- What statements start with, if they are read to the end. -/
theorem kinds_of_readStatements (h : (readStatements d c).Gives d' rest) :
    c.kinds = [] ∨ (∃ ks, c.kinds = .newline :: ks) ∨
      (∃ line ks, c.kinds = .documentation line :: ks) ∨ ∃ w, c.peek? = some (.word w) := by
  rw [readStatements] at h
  split at h
  · next hk =>
    rw [Cursor.peek?_eq, List.head?_eq_none_iff] at hk
    exact .inl hk
  · next hk => exact .inr (.inl ⟨_, kinds_of_peek? hk⟩)
  · next hk => exact .inr (.inr (.inl ⟨_, _, kinds_of_peek? hk⟩))
  · next w hk => exact .inr (.inr (.inr ⟨w, hk⟩))
  · exact absurd h Outcome.not_gives_failed

end

theorem reads_of_readStatements {d d' : Draft} (c : Cursor) {rest : List Kind}
    (h : (readStatements d c).Gives d' rest) : rest = [] ∧ Reads d c.kinds d' := by
  rcases kinds_of_readStatements h with hks | ⟨ks, hks⟩ | ⟨line, ks, hks⟩ | ⟨w, hw⟩
  · obtain ⟨hpending, rfl, rfl⟩ := (readStatements_nil_iff hks).mp h
    exact ⟨rfl, hks ▸ .done hpending⟩
  · have hlt := Cursor.left_advance_lt (Cursor.peek?_of_cons hks)
    obtain ⟨hpending, hread⟩ := (readStatements_newline_iff hks).mp h
    obtain ⟨rfl, hreads⟩ := reads_of_readStatements _ hread
    rw [Cursor.kinds_advance_of_cons hks] at hreads
    exact ⟨rfl, hks ▸ .newline hpending hreads⟩
  · have hlt := Cursor.left_advance_lt (Cursor.peek?_of_cons hks)
    have hle := c.advance.left_skipNewline_le
    obtain ⟨rfl, hreads⟩ :=
      reads_of_readStatements _ ((readStatements_documentation hks).gives_iff.mp h)
    rw [kinds_skipNewline, Cursor.kinds_advance_of_cons hks] at hreads
    exact ⟨rfl, hks ▸ .documentation hreads⟩
  · obtain ⟨d₁, c₁, h₁, hstatement, hread⟩ := (readStatements_word_iff hw).mp h
    obtain ⟨rfl, hreads⟩ := reads_of_readStatements _ hread
    exact ⟨rfl, .step (isStep_of_readStatement (Outcome.gives_of_eq hstatement)) hreads⟩
termination_by c.left

theorem readStatements_of_reads {d d' : Draft} {ks : List Kind} (h : Reads d ks d') {c : Cursor}
    (hc : c.kinds = ks) : (readStatements d c).Gives d' [] := by
  induction h generalizing c with
  | done hpending =>
    exact (readStatements_nil_iff hc).mpr ⟨hpending, rfl, rfl⟩
  | newline hpending _ ih =>
    exact (readStatements_newline_iff hc).mpr ⟨hpending, ih (Cursor.kinds_advance_of_cons hc)⟩
  | documentation _ ih =>
    rw [(readStatements_documentation hc).gives_iff]
    exact ih (by rw [kinds_skipNewline, Cursor.kinds_advance_of_cons hc])
  | step hstep hreads ih =>
    obtain ⟨w, us, rfl⟩ := hstep.head_eq
    have hw : c.peek? = some (.word w) := Cursor.peek?_of_cons hc
    obtain ⟨c₁, h₁, hstatement, hc₁⟩ :=
      @readStatement_of_isStep _ _ _ _ hw _ (hc ▸ hstep) (hreads.head?_ne _)
    exact (readStatements_word_iff hw).mpr ⟨_, c₁, h₁, hstatement, ih hc₁⟩

theorem Reads.of_newline {d d' : Draft} {ks : List Kind} (h : Reads d (.newline :: ks) d') :
    d.pending.isEmpty = true ∧ Reads d ks d' := by
  cases h with
  | newline hpending h => exact ⟨hpending, h⟩
  | step hs =>
    obtain ⟨w, us, hus⟩ := hs.head_eq
    cases hus

theorem Reads.pending_isEmpty {d d' : Draft} {ks : List Kind} (h : Reads d ks d') :
    d'.pending.isEmpty = true := by
  induction h with
  | done hpending => exact hpending
  | newline _ _ ih => exact ih
  | documentation _ ih => exact ih
  | step _ _ ih => exact ih

theorem Reads.eq_of_nil {d d' : Draft} (h : Reads d [] d') : d = d' := by
  cases h with
  | done => rfl
  | step hs =>
    obtain ⟨w, us, hus⟩ := hs.head_eq
    cases hus

/-- What holds in front of the tokens that reading passes if it holds behind them. -/
structure IsBackward (P : Draft → List Kind → Prop) : Prop where
  newline {d : Draft} {ks : List Kind} : d.pending.isEmpty = true → P d ks → P d (.newline :: ks)
  documentation {d : Draft} {line : String} {ks : List Kind} :
    P (d.document line) (dropBreak ks) → P d (.documentation line :: ks)
  step {d d₁ : Draft} {ks rest : List Kind} : IsStep d ks rest d₁ →
    rest.head? ≠ some (.grammar '(') → P d₁ rest → P d ks

theorem isBackward_reads (d' : Draft) : IsBackward (Reads · · d') :=
  ⟨.newline, .documentation, fun hstep _ => .step hstep⟩

section

variable {d d' d'' : Draft} {ks us : List Kind}

theorem Reads.append_head?_ne (h : Reads d ks d') (us : List Kind) :
    (ks ++ .newline :: us).head? ≠ some (.grammar '(') := by
  cases ks with
  | nil => simp
  | cons k ks => exact h.head?_ne '('

/-- As long as annotations wait, there is more to read. -/
theorem Reads.dropBreak_append (h : Reads d (dropBreak ks) d') (hd : d.pending.isEmpty = false)
    (us : List Kind) : dropBreak (ks ++ us) = dropBreak ks ++ us := by
  cases ks with
  | nil =>
    cases h.eq_of_nil
    cases hd.symm.trans h.pending_isEmpty
  | cons k ks =>
    by_cases hk : k = .newline
    · subst hk
      rfl
    · simp [dropBreak, hk]

theorem Reads.append_of_isBackward {P : Draft → List Kind → Prop} (hP : IsBackward P)
    (h : Reads d ks d') (hopen : us.head? ≠ some (.grammar '(')) (hus : P d' us) :
    P d (ks ++ .newline :: us) := by
  induction h with
  | done hpending => exact hP.newline hpending hus
  | newline hpending _ ih => exact hP.newline hpending (ih hus)
  | documentation h ih =>
    refine hP.documentation ?_
    rw [List.append_eq, h.dropBreak_append (Table.isEmpty_insert _ _ _)]
    exact ih hus
  | step hstep h ih =>
    have hrest := h.append_head?_ne us
    cases hstep with
    | @statement ts fin rest d₁ hs hends =>
      rw [List.append_assoc, List.append_assoc]
      cases hends with
      | newline => exact hP.step (.statement hs (.newline _)) hrest (ih hus)
      | input =>
        have hstep : IsStep _ (ts ++ ([.newline] ++ us)) us _ := .statement hs (.newline us)
        exact hP.step hstep hopen (h.eq_of_nil ▸ hus)
    | @applied w name v vs ks hw htrait =>
      rw [List.cons_append, List.append_assoc]
      rw [← h.dropBreak_append (Table.isEmpty_insert _ _ _)] at hrest ih
      exact hP.step (.applied hw htrait) hrest (ih hus)

/-- A document goes on behind a line break, where another one takes up its draft. -/
theorem Reads.append_newline (h : Reads d ks d') (hus : Reads d' us d'') :
    Reads d (ks ++ .newline :: us) d'' :=
  h.append_of_isBackward (isBackward_reads d'') (hus.head?_ne _) hus

end

theorem Reads.of_dropBreaks {d d' : Draft} (hpending : d.pending.isEmpty = true) {ks : List Kind}
    (h : Reads d (dropBreaks ks) d') : Reads d ks d' := by
  induction ks with
  | nil => exact h
  | cons k ks ih =>
    by_cases hk : k = .newline
    · subst hk
      exact .newline hpending (ih h)
    · rwa [dropBreaks_of_ne hk] at h

theorem Reads.dropBreaks {d d' : Draft} {ks : List Kind} (h : Reads d ks d') :
    Reads d (dropBreaks ks) d' := by
  induction ks with
  | nil => exact h
  | cons k ks ih =>
    by_cases hk : k = .newline
    · subst hk
      exact ih h.of_newline.2
    · rwa [dropBreaks_of_ne hk]

/-- A metadata statement in front of a run of statements. -/
theorem Reads.metadata_cons_iff {d d' : Draft} {ks : List Kind} :
    Reads d (.word "metadata" :: ks) d' ↔ d.pending.isEmpty = true ∧ ∃ k key ts v fin rest,
      ks = k :: .grammar '=' :: (ts ++ (fin ++ rest)) ∧ IsKey k key ∧
      IsValue d.scope .metadata ts v ∧ Ends fin rest ∧
      Reads { d with metadata := d.metadata.insert key v } rest d' := by
  constructor
  · intro h
    generalize hks : Kind.word "metadata" :: ks = us at h
    cases h with
    | step hstep hrest =>
      cases hstep with
      | statement hs hends =>
        cases hs with
        | metadata hpending hk hv =>
          exact ⟨hpending, _, _, _, _, _, _, (List.cons.inj hks).2, hk, hv, hends, hrest⟩
        | shape hkeyword =>
          cases (List.cons.inj hks).1
          exact absurd (by decide) hkeyword
        | _ => simp at hks
      | applied hw =>
        cases (List.cons.inj hks).1
        cases hw
    | _ => cases hks
  · rintro ⟨hpending, k, key, ts, v, fin, rest, rfl, hk, hv, hends, hrest⟩
    exact .step (.statement (.metadata hpending hk hv) hends) hrest

theorem readMetadataSection_of_reads (d : Draft) {d' : Draft} (c : Cursor)
    (hpending : d.pending.isEmpty = true) (h : Reads d c.kinds d') :
    ∃ d₁ ks, (readMetadataSection d c).Gives d₁ ks ∧ Reads d₁ ks d' := by
  rw [readMetadataSection]
  split
  · next hk =>
    have hlt := Cursor.left_advance_lt hk
    rw [kinds_of_peek? hk, Reads.metadata_cons_iff] at h
    obtain ⟨_, k, key, ts, v, fin, rest, hks, hkey, hv, hends, hrest⟩ := h
    obtain ⟨c₁, h₁, hmetadata, hc₁⟩ :=
      readMetadata_gives_iff.mpr ⟨k, key, ts, v, fin, hks, hkey, hv, hends, rfl⟩
    have hle := c₁.left_skipNewlines_le
    have hskipped := hrest.dropBreaks
    rw [← hc₁, ← Cursor.kinds_skipNewlines] at hskipped
    obtain ⟨d₁, ks, ⟨c₂, h₂, hread, hc₂⟩, hreads⟩ :=
      readMetadataSection_of_reads { d with metadata := d.metadata.insert key v } c₁.skipNewlines
        hpending hskipped
    refine ⟨d₁, ks, ?_, hreads⟩
    simp only [hmetadata, hread]
    exact Outcome.gives_ok_iff.mpr ⟨rfl, hc₂⟩
  · exact ⟨d, c.kinds, Outcome.gives_ok_iff.mpr ⟨rfl, rfl⟩, h⟩
termination_by c.left

theorem reads_of_readMetadataSection (d : Draft) {d₁ d' : Draft} (c : Cursor) {rest : List Kind}
    (hpending : d.pending.isEmpty = true) (h : (readMetadataSection d c).Gives d₁ rest)
    (hrest : Reads d₁ rest d') : Reads d c.kinds d' := by
  rw [readMetadataSection] at h
  split at h
  · next hk =>
    have hlt := Cursor.left_advance_lt hk
    split at h
    · exact absurd h Outcome.not_gives_failed
    next d₂ c₁ h₁ hmetadata =>
    have hle := c₁.left_skipNewlines_le
    split at h
    · exact absurd h Outcome.not_gives_failed
    next d₃ c₂ h₂ hread =>
    obtain ⟨rfl, rfl⟩ := Outcome.gives_ok_iff.mp h
    obtain ⟨k, key, ts, v, fin, hkinds, hkey, hv, hends, rfl⟩ :=
      readMetadata_gives_iff.mp (Outcome.gives_of_eq hmetadata)
    have hreads := reads_of_readMetadataSection { d with metadata := d.metadata.insert key v }
      c₁.skipNewlines hpending (Outcome.gives_of_eq hread) hrest
    rw [Cursor.kinds_skipNewlines] at hreads
    rw [kinds_of_peek? hk, Reads.metadata_cons_iff]
    refine ⟨hpending, k, key, ts, v, fin, _, hkinds, hkey, hv, hends, ?_⟩
    exact @Reads.of_dropBreaks { d with metadata := d.metadata.insert key v } _ hpending _ hreads
  · obtain ⟨rfl, rfl⟩ := Outcome.gives_ok_iff.mp h
    exact hrest
termination_by c.left

/-- Reading a document to the end, from behind the line breaks it may start with. -/
inductive ReadsDocument : Draft → List Kind → Draft → Prop
  | version {d d' : Draft} {v : String} {fin rest : List Kind} : Ends fin rest →
      ReadsDocument { d with version := some v } (dropBreaks rest) d' →
      ReadsDocument d (.word "$version" :: .grammar ':' :: .string v :: (fin ++ rest)) d'
  | statements {d d' : Draft} {ks : List Kind} : ks.head? ≠ some (.word "$version") →
      Reads d ks d' → ReadsDocument d ks d'

theorem ReadsDocument.pending_isEmpty {d d' : Draft} {ks : List Kind} (h : ReadsDocument d ks d') :
    d'.pending.isEmpty = true := by
  induction h with
  | version _ _ ih => exact ih
  | statements _ hreads => exact hreads.pending_isEmpty

theorem readsDocument_of_readVersions (d : Draft) {d₁ : Draft} (c : Cursor) {rest : List Kind}
    (h : (readVersions d c).Gives d₁ rest) :
    d₁.pending = d.pending ∧ ∀ d', Reads d₁ rest d' → ReadsDocument d c.kinds d' := by
  rw [readVersions] at h
  split at h
  · next hk =>
    have hlt := Cursor.left_advance_lt hk
    split at h
    · exact absurd h Outcome.not_gives_failed
    next c₁ h₁ hcolon =>
    split at h
    · exact absurd h Outcome.not_gives_failed
    next v c₂ h₂ hversion =>
    split at h
    · exact absurd h Outcome.not_gives_failed
    next c₃ h₃ hend =>
    have hle := c₃.left_skipNewlines_le
    split at h
    · exact absurd h Outcome.not_gives_failed
    next d₂ c₄ h₄ hread =>
    obtain ⟨rfl, rfl⟩ := Outcome.gives_ok_iff.mp h
    have hcolon := Cursor.expectGrammar_gives_iff.mp (Outcome.gives_of_eq hcolon)
    have hversion := Cursor.expectString_gives_iff.mp (Outcome.gives_of_eq hversion)
    obtain ⟨fin, hfin, hends⟩ := ends_of_endStatement (Outcome.gives_of_eq hend)
    obtain ⟨hpending, hdocument⟩ :=
      readsDocument_of_readVersions _ c₃.skipNewlines (Outcome.gives_of_eq hread)
    rw [Cursor.kinds_skipNewlines] at hdocument
    rw [kinds_of_peek? hk, hcolon, hversion, hfin]
    exact ⟨hpending, fun d' hreads => .version hends (hdocument d' hreads)⟩
  · next hk =>
    obtain ⟨rfl, rfl⟩ := Outcome.gives_ok_iff.mp h
    refine ⟨rfl, fun d' hreads => .statements ?_ hreads⟩
    rw [← Cursor.peek?_eq]
    exact hk
termination_by c.left

theorem readVersions_of_readsDocument {d d' : Draft} {ks : List Kind} (h : ReadsDocument d ks d')
    {c : Cursor} (hc : c.kinds = ks) :
    ∃ d₁ rest, (readVersions d c).Gives d₁ rest ∧ d₁.pending = d.pending ∧ Reads d₁ rest d' := by
  have hpeek := Cursor.peek?_eq c
  rw [hc] at hpeek
  induction h generalizing c with
  | @version d d' v fin rest hends _ ih =>
    have hadvance := Cursor.kinds_advance_of_cons hc
    obtain ⟨c₁, h₁, hcolon, hc₁⟩ := Cursor.expectGrammar_gives_iff.mpr hadvance
    obtain ⟨c₂, h₂, hversion, hc₂⟩ := Cursor.expectString_gives_iff.mpr hc₁
    obtain ⟨c₃, h₃, hend, hc₃⟩ := hends.gives hc₂
    have hskip : c₃.skipNewlines.kinds = dropBreaks rest := by
      rw [Cursor.kinds_skipNewlines, hc₃]
    obtain ⟨d₁, us, ⟨c₄, h₄, hread, hc₄⟩, hpending, hreads⟩ :=
      ih hskip (by rw [Cursor.peek?_eq, hskip])
    refine ⟨d₁, us, ?_, hpending, hreads⟩
    rw [readVersions]
    split
    · simp only [hcolon, hversion, hend, hread]
      exact Outcome.gives_ok_iff.mpr ⟨rfl, hc₄⟩
    · next hne => exact absurd hpeek hne
  | @statements d d' ks hhead hreads =>
    refine ⟨d, ks, ?_, rfl, hreads⟩
    rw [readVersions]
    split
    · next hk => exact absurd (hpeek.symm.trans hk) hhead
    · exact Outcome.gives_ok_iff.mpr ⟨rfl, hc⟩

/-- A document is read when its tokens are taken to the end. -/
theorem readDocument_gives_iff {names : List String} {c : Cursor} {d : Draft} {rest : List Kind} :
    (readDocument names c).Gives d rest ↔
      rest = [] ∧ ReadsDocument (start names) (dropBreaks c.kinds) d := by
  rw [readDocument]
  constructor
  · intro h
    split at h
    · exact absurd h Outcome.not_gives_failed
    next d₁ c₁ h₁ hversions =>
    split at h
    · exact absurd h Outcome.not_gives_failed
    next d₂ c₂ h₂ hmetadata =>
    split at h
    · exact absurd h Outcome.not_gives_failed
    next d₃ c₃ h₃ hstatements =>
    obtain ⟨rfl, rfl⟩ := Outcome.gives_ok_iff.mp h
    obtain ⟨hnil, hreads⟩ := reads_of_readStatements _ (Outcome.gives_of_eq hstatements)
    obtain ⟨hpending, hdocument⟩ :=
      readsDocument_of_readVersions _ _ (Outcome.gives_of_eq hversions)
    have hpending : d₁.pending.isEmpty = true := by
      rw [hpending]
      rfl
    rw [Cursor.kinds_skipNewlines] at hdocument
    refine ⟨hnil, hdocument _ ?_⟩
    exact reads_of_readMetadataSection _ _ hpending (Outcome.gives_of_eq hmetadata) hreads
  · rintro ⟨rfl, h⟩
    obtain ⟨d₁, ks, ⟨c₁, h₁, hversions, hc₁⟩, hpending, hreads⟩ :=
      readVersions_of_readsDocument h (Cursor.kinds_skipNewlines c)
    have hpending : d₁.pending.isEmpty = true := by
      rw [hpending]
      rfl
    rw [← hc₁] at hreads
    obtain ⟨d₂, us, ⟨c₂, h₂, hmetadata, hc₂⟩, hreads⟩ :=
      readMetadataSection_of_reads _ _ hpending hreads
    obtain ⟨c₃, h₃, hstatements, hc₃⟩ := readStatements_of_reads hreads hc₂
    simp only [hversions, hmetadata, hstatements]
    exact Outcome.gives_ok_iff.mpr ⟨rfl, hc₃⟩

theorem ReadsDocument.of_dropBreaks_append {d d' : Draft} {w : String} {ks us : List Kind}
    (hw : w ≠ "$version")
    (h : ReadsDocument d (dropBreaks ks ++ .newline :: .word w :: us) d') :
    ReadsDocument d (dropBreaks (ks ++ .newline :: .word w :: us)) d' := by
  induction ks with
  | nil =>
    have hdrop : dropBreaks ([] ++ .newline :: .word w :: us) = .word w :: us := rfl
    rw [hdrop]
    cases h with
    | statements _ hreads => exact .statements (by simpa using hw) hreads.of_newline.2
  | cons k ks ih =>
    by_cases hk : k = .newline
    · subst hk
      exact ih h
    · rw [dropBreaks_of_ne hk] at h
      rwa [List.cons_append, dropBreaks_of_ne hk]

/-- A statement behind a line break is read after the whole document before it. -/
theorem ReadsDocument.append_newline {d d' d'' : Draft} {w : String} {ks us : List Kind}
    (hw : w ≠ "$version") (h : ReadsDocument d ks d') (hus : Reads d' (.word w :: us) d'') :
    ReadsDocument d (ks ++ .newline :: .word w :: us) d'' := by
  induction h with
  | @version d d' v fin rest hends _ ih =>
    cases hends with
    | newline =>
      rw [List.cons_append, List.cons_append, List.cons_append, List.append_assoc]
      exact .version (.newline _) ((ih hus).of_dropBreaks_append hw)
    | input =>
      have hdocument := @of_dropBreaks_append _ _ _ [] _ hw (ih hus)
      exact @version _ _ _ [.newline] (.word w :: us) (.newline _) hdocument
  | @statements d d' ks hhead hreads =>
    refine .statements ?_ (hreads.append_newline hus)
    cases ks with
    | nil => simp
    | cons k ks => exact hhead

end Draft

end ShapeModel.Document
