import ShapeModel.Proofs.Document.Order

/-!
# Phrases

What is written in a document, whether or not it is read: notes and statements, in any order and any
number. Reading carries out one phrase after the other, and refuses the document at the first one
that may not come where it stands.
-/

namespace ShapeModel.Document

set_option autoImplicit false

open Token (Kind)

/-- What is written by itself: a note, or a statement, where a declaration is without its notes. -/
inductive Phrase
  | note (n : Note)
  | statement (e : Statement)

namespace Phrase

/-- The name that a namespace statement gives. -/
def space? : Phrase → Option String
  | .statement (.space name) => some name
  | _ => none

/-- The name of the shape that is declared. -/
def declared? : Phrase → Option String
  | .statement (.declaration x) => some x.name
  | _ => none

/-- The statements that come before all shapes. -/
def opens : Phrase → Bool
  | .statement (.space _) => true
  | .statement (.use _) => true
  | _ => false

/-- What may follow a note. -/
def bearsNotes : Phrase → Bool
  | .note _ => true
  | .statement (.declaration _) => true
  | _ => false

end Phrase

namespace Statement

/-- Notes of a declaration are phrases of their own. -/
def Bare : Statement → Prop
  | .declaration x => x.notes = []
  | _ => True

/-- What names mean behind the statement. -/
def scopeBehind (s : Scope) : Statement → Scope
  | .space name => { s with space := some name }
  | .use target =>
    let id := Identifier.ofText target
    { s with aliases := s.aliases.insert id.name id.root.toText }
  | _ => s

end Statement

open Draft (Ends)

/-- The tokens of phrases. A line break may stand behind a note, and blank lines between any two. -/
inductive Writes : Scope → List Kind → List Phrase → Prop
  | done {s : Scope} : Writes s [] []
  | newline {s : Scope} {ks : List Kind} {ps : List Phrase} : Writes s ks ps →
      Writes s (.newline :: ks) ps
  | note {s : Scope} {ts ks : List Kind} {n : Note} {ps : List Phrase} : IsNote s ts n →
      Writes s (Draft.dropBreak ks) ps → Writes s (ts ++ ks) (.note n :: ps)
  | statement {s : Scope} {ts fin rest : List Kind} {e : Statement} {ps : List Phrase} :
      e.Bare → Spells s ts e → Ends fin rest → Writes (e.scopeBehind s) rest ps →
      Writes s (ts ++ (fin ++ rest)) (.statement e :: ps)

/-- The phrases of a document, from behind the versions it may start with. -/
inductive WritesDocument (s : Scope) : List Kind → List Phrase → Prop
  | version {v : String} {fin rest : List Kind} {ps : List Phrase} : Ends fin rest →
      WritesDocument s (dropBreaks rest) ps →
      WritesDocument s (.word "$version" :: .grammar ':' :: .string v :: (fin ++ rest)) ps
  | statements {ks : List Kind} {ps : List Phrase} : ks.head? ≠ some (.word "$version") →
      Writes s ks ps → WritesDocument s ks ps

theorem Spells.head?_ne {s : Scope} {ts : List Kind} {e : Statement} (h : Spells s ts e)
    (ks : List Kind) : (ts ++ ks).head? ≠ some (.grammar '(') := by
  cases h with
  | declaration hx =>
    obtain ⟨hnotes, -, -, hhead⟩ := hx
    obtain ⟨us, rfl⟩ := hhead.eq_cons
    rw [List.append_assoc, List.cons_append]
    exact (hnotes.follows (follows_word _ _)).2
  | _ => simp

theorem Writes.head?_ne {s : Scope} {ks : List Kind} {ps : List Phrase} (h : Writes s ks ps) :
    ks.head? ≠ some (.grammar '(') := by
  cases h with
  | note hn => cases hn <;> simp
  | statement _ hspells => exact hspells.head?_ne _
  | _ => simp

/-- The tokens of a trait are taken apart in one way only. -/
theorem IsTrait.unique {s : Scope} {name name' : String} {v v' : Value} {ts ts' ks ks' : List Kind}
    (h : IsTrait s ts name v) (h' : IsTrait s ts' name' v') (hks : ts ++ ks = ts' ++ ks')
    (hhead : ks.head? ≠ some (.grammar '(')) (hhead' : ks'.head? ≠ some (.grammar '(')) :
    name = name' ∧ v = v' := by
  obtain ⟨c, hc⟩ := exists_cursor (ts ++ ks)
  obtain ⟨_, _, hread, _⟩ := readTrait_of_isTrait h hc hhead
  obtain ⟨_, _, hread', _⟩ := readTrait_of_isTrait h' (hc.trans hks) hhead'
  cases hread.symm.trans hread'
  exact ⟨rfl, rfl⟩

namespace Draft

variable {d d₁ d' : Draft} {ks ts us rest : List Kind} {ps : List Phrase} {e : Statement}

/-- Carrying out a statement takes one draft to the next. Annotations that wait are used up by a
declaration, and do not bear any other statement. -/
inductive Carries (d : Draft) : Statement → Draft → Prop
  | performed {e : Statement} {d₁ : Draft} : d.pending.isEmpty = true →
      (Phrase.statement e).declared? = none → Performs d e d₁ → Carries d e d₁
  | declared {x : Declaration} (entry : Value) :
      d.shapes.contains (d.shapeName x.name) = false →
      Carries d (.declaration x)
        { d with shapes := d.shapes.insert (d.shapeName x.name) entry, pending := .empty }

/-- Phrases take one draft to another. -/
inductive Takes : Draft → List Phrase → Draft → Prop
  | done {d : Draft} : d.pending.isEmpty = true → Takes d [] d
  | note {d d' : Draft} {n : Note} {ps : List Phrase} : Takes (d.note n) ps d' →
      Takes d (.note n :: ps) d'
  | statement {d d₁ d' : Draft} {e : Statement} {ps : List Phrase} : Carries d e d₁ →
      Takes d₁ ps d' → Takes d (.statement e :: ps) d'

theorem IsStatement.exists_bare (h : IsStatement d ts d₁) :
    ∃ e : Statement, e.Bare ∧ Spells d.scope ts e ∧ d₁.scope = e.scopeBehind d.scope := by
  cases h with
  | space => exact ⟨.space _, trivial, .space _, rfl⟩
  | metadata _ hk hv => exact ⟨.metadata _ _, trivial, .metadata hk hv, rfl⟩
  | use => exact ⟨.use _, trivial, .use _, rfl⟩
  | application _ happlication =>
    obtain ⟨_, hw, htrait, _⟩ := happlication
    exact ⟨.application _ _ _, trivial, .application hw htrait, rfl⟩
  | shape hkeyword hw hshape =>
    obtain ⟨name, body, hhead, -, rfl⟩ := isShape_iff.mp hshape
    have hx : IsDeclaration d.scope ([] ++ _) ⟨[], _, name, body⟩ := .intro .nil hkeyword hw hhead
    exact ⟨.declaration ⟨[], _, name, body⟩, rfl, .declaration hx, rfl⟩

theorem Reads.exists_writes (h : Reads d ks d') : ∃ ps, Writes d.scope ks ps := by
  induction h with
  | done => exact ⟨[], .done⟩
  | newline _ _ ih =>
    obtain ⟨ps, hps⟩ := ih
    exact ⟨ps, .newline hps⟩
  | @documentation d d' line ks _ ih =>
    obtain ⟨ps, hps⟩ := ih
    exact ⟨_, @Writes.note _ [.documentation line] ks _ _ (.line line) hps⟩
  | step hstep _ ih =>
    obtain ⟨ps, hps⟩ := ih
    cases hstep with
    | statement hs hends =>
      obtain ⟨e, hbare, hspells, hscope⟩ := hs.exists_bare
      rw [hscope] at hps
      exact ⟨_, .statement hbare hspells hends hps⟩
    | applied hw htrait => exact ⟨_, .note (.applied hw htrait) hps⟩

theorem ReadsDocument.exists_writes (h : ReadsDocument d ks d') :
    ∃ ps, WritesDocument d.scope ks ps := by
  induction h with
  | version hends _ ih =>
    obtain ⟨ps, hps⟩ := ih
    exact ⟨ps, .version hends hps⟩
  | statements hhead h =>
    obtain ⟨ps, hps⟩ := h.exists_writes
    exact ⟨ps, .statements hhead hps⟩

theorem Reads.application_allowed {target w name : String} {v : Value} {fin : List Kind}
    (htrait : IsTrait d.scope (.word w :: us) name v)
    (hends : Ends fin rest)
    (h : Reads d (.word "apply" :: .word target :: .word w :: (us ++ (fin ++ rest))) d') :
    d.pending.isEmpty = true ∧ ∃ entry entry',
      d.shapes.get? (d.identifierOf target).root.toText = some entry ∧
      applyTo (d.identifierOf target) (Table.empty.insert name v) entry = .ok entry' := by
  obtain ⟨c, hc, d₁, rest', hkinds, hread, -⟩ := h.exists_readStatement
  obtain ⟨hpending, hread⟩ := readStatement_apply_iff.mp hread
  obtain ⟨ts, fin', hts, happlication, hends'⟩ := isApplication_of_readApply hread
  obtain ⟨hentry, -, htrait', happly⟩ := happlication
  rw [Cursor.kinds_advance_of_cons hkinds] at hts
  simp only [List.cons_append, List.cons.injEq, Kind.word.injEq] at hts
  obtain ⟨rfl, rfl, hts⟩ := hts
  obtain ⟨rfl, rfl⟩ := htrait.unique htrait' (congrArg (.word w :: ·) hts) (hends.head?_ne _)
    (hends'.head?_ne _)
  exact ⟨hpending, _, _, hentry, happly⟩

/-- What is read of a statement, whatever annotations wait for it, is the statement carried out. -/
theorem Reads.exists_carries {fin : List Kind} (hbare : e.Bare) (hspells : Spells d.scope ts e)
    (hends : Ends fin rest) (h : Reads d (ts ++ (fin ++ rest)) d') :
    ∃ d₁, Carries d e d₁ ∧ Reads d₁ rest d' := by
  -- Of the reader we only need what it has checked. That it goes on behind the tokens of `hspells`
  -- follows from there, as these are tokens of the statement too.
  cases hspells with
  | space name =>
    obtain ⟨c, hc, d₁, _, -, hread, -⟩ := h.exists_readStatement
    obtain ⟨hcheck, hspace, -⟩ := readStatement_namespace_iff.mp hread
    have hs : IsStatement d _ (d.setSpace name) := .space hcheck hspace
    exact ⟨_, .performed (isEmpty_of_checkDeclaration hcheck) rfl (.space hcheck hspace),
      (hs.reads_iff hends).mp h⟩
  | metadata hk hv =>
    obtain ⟨c, hc, d₁, _, -, hread, -⟩ := h.exists_readStatement
    obtain ⟨hpending, -⟩ := readStatement_metadata_iff.mp hread
    have hs : IsStatement d _ _ := .metadata hpending hk hv
    exact ⟨_, .performed hpending rfl .metadata, (hs.reads_iff hends).mp h⟩
  | use target =>
    obtain ⟨c, hc, d₁, _, -, hread, -⟩ := h.exists_readStatement
    obtain ⟨hcheck, -⟩ := readStatement_use_iff.mp hread
    have hs : IsStatement d _ (d.addAlias target) := .use hcheck
    exact ⟨_, .performed (isEmpty_of_checkDeclaration hcheck) rfl (.use hcheck),
      (hs.reads_iff hends).mp h⟩
  | application hw htrait =>
    obtain ⟨hpending, entry, entry', hentry, happly⟩ := h.application_allowed htrait hends
    have hs : IsStatement d _ _ := .application hpending (.intro hentry hw htrait happly)
    exact ⟨_, .performed hpending rfl (.application hentry happly), (hs.reads_iff hends).mp h⟩
  | @declaration _ x hx =>
    obtain ⟨hnotes, hkeyword, hw, hhead⟩ := hx
    rw [show x.notes = [] from hbare] at hnotes
    cases hnotes
    obtain ⟨us, rfl⟩ := hhead.eq_cons
    have hnew := h.contains_eq_false hkeyword hw
    have hs : IsStatement d _ _ := .shape hkeyword hw (isShape_iff.mpr ⟨_, _, hhead, hnew, rfl⟩)
    exact ⟨_, .declared _ hnew, (hs.reads_iff hends).mp h⟩

theorem Reads.of_note {n : Note} (hn : IsNote d.scope ts n)
    (hks : ks.head? ≠ some (.grammar '(')) (h : Reads d (ts ++ ks) d') :
    Reads (d.note n) (dropBreak ks) d' := by
  cases hn with
  | line text => exact Reads.documentation_iff.mp h
  | applied hw htrait => exact (reads_applied_iff hw htrait hks).mp h

theorem head?_ne_of_dropBreak (h : (dropBreak ks).head? ≠ some (.grammar '(')) :
    ks.head? ≠ some (.grammar '(') := by
  intro hks
  rw [dropBreak, if_neg (by simp [hks])] at h
  exact h hks

theorem Carries.scope_eq (h : Carries d e d₁) : d₁.scope = e.scopeBehind d.scope := by
  cases h with
  | performed _ _ h => cases h <;> rfl
  | declared => rfl

theorem Reads.takes {s : Scope} (hps : Writes s ks ps) (hs : d.scope = s) (h : Reads d ks d') :
    Takes d ps d' := by
  induction hps generalizing d with
  | done =>
    cases h.eq_of_nil
    exact .done h.pending_isEmpty
  | newline _ ih => exact ih hs h.of_newline.2
  | note hn hps ih =>
    subst hs
    exact .note (ih rfl (h.of_note hn (head?_ne_of_dropBreak hps.head?_ne)))
  | statement hbare hspells hends _ ih =>
    subst hs
    obtain ⟨d₁, hcarries, h⟩ := h.exists_carries hbare hspells hends
    exact .statement hcarries (ih hcarries.scope_eq h)

/-- A document that is read is carried out phrase by phrase, from where the versions end. -/
theorem ReadsDocument.takes {s : Scope} (hps : WritesDocument s ks ps) (hs : d.scope = s)
    (h : ReadsDocument d ks d') : ∃ v, Takes { d with version := v } ps d' := by
  induction hps generalizing d with
  | @version v _ _ _ hends _ ih =>
    exact @ih { d with version := some v } hs ((readsDocument_version_iff hends).mp h)
  | statements hhead hps =>
    exact ⟨d.version, ((readsDocument_iff_of_head?_ne hhead).mp h).takes hps hs⟩

end Draft

end ShapeModel.Document
