import ShapeModel.Document
import ShapeModel.Proofs.Document.Body

/-!
# The grammar of statements

Each statement of a document as a step from one draft to the next, and the run of steps from a draft
to the end of the tokens. Statements end with a line break or with the input. Reading statements
takes the steps of such a run, and every run is read.
-/

namespace ShapeModel.Document

set_option autoImplicit false

open Token (Kind)

namespace Draft

/-- The tokens of a shape declaration, from the shape type on. -/
inductive IsShape (d : Draft) : List Kind → Draft → Prop
  | bare {keyword name : String} : d.shapes.contains (d.shapeName name) = false →
      IsShape d [.word keyword, .word name]
        { d with
          shapes := d.shapes.insert (d.shapeName name) (.object (shapeEntry keyword d.pending)),
          pending := .empty }
  | body {keyword name : String} {ts : List Kind} {entry : Value.Fields} :
      d.shapes.contains (d.shapeName name) = false →
      IsBody d.scope (shapeEntry keyword d.pending) (.ofKeyword keyword) ts entry →
      IsShape d (.word keyword :: .word name :: ts)
        { d with
          shapes := d.shapes.insert (d.shapeName name) (.object entry), pending := .empty }

/-- The identifier that a written name stands for. -/
def identifierOf (d : Draft) (name : String) : Identifier :=
  .ofText (d.scope.qualify false name)

/-- The tokens of an application, behind the keyword. -/
inductive IsApplication (d : Draft) : List Kind → Draft → Prop
  | intro {target w name : String} {us : List Kind} {v entry entry' : Value} :
      d.shapes.get? (d.identifierOf target).root.toText = some entry → isTraitWord w = true →
      IsTrait d.scope (.word w :: us) name v →
      applyTo (d.identifierOf target) (Table.empty.insert name v) entry = .ok entry' →
      IsApplication d (.word target :: .word w :: us)
        { d with shapes := d.shapes.insert (d.identifierOf target).root.toText entry' }

/-- The words that start statements other than shape declarations. -/
def keywords : List String :=
  ["namespace", "metadata", "use", "apply"]

/-- The tokens of a statement, without its end. -/
inductive IsStatement (d : Draft) : List Kind → Draft → Prop
  | space {space : String} : d.checkDeclaration "namespace" = .ok () → d.scope.space = none →
      IsStatement d [.word "namespace", .word space] (d.setSpace space)
  | metadata {k : Kind} {key : String} {ts : List Kind} {v : Value} : d.pending.isEmpty = true →
      IsKey k key → IsValue d.scope .metadata ts v →
      IsStatement d (.word "metadata" :: k :: .grammar '=' :: ts)
        { d with metadata := d.metadata.insert key v }
  | use {target : String} : d.checkDeclaration "use" = .ok () →
      IsStatement d [.word "use", .word target] (d.addAlias target)
  | application {ts : List Kind} {d' : Draft} : d.pending.isEmpty = true → IsApplication d ts d' →
      IsStatement d (.word "apply" :: ts) d'
  | shape {keyword : String} {ts : List Kind} {d' : Draft} : keyword ∉ keywords →
      isTraitWord keyword = false → IsShape d (.word keyword :: ts) d' →
      IsStatement d (.word keyword :: ts) d'

/-- The end of a statement, and what is left behind it. -/
inductive Ends : List Kind → List Kind → Prop
  | newline (rest : List Kind) : Ends [.newline] rest
  | input : Ends [] []

/-- What is left behind one line break, if there is one. -/
def dropBreak (ks : List Kind) : List Kind :=
  if ks.head? = some .newline then ks.tail else ks

/-- Annotations that wait for their shape get another trait. -/
def annotate (d : Draft) (name : String) (v : Value) : Draft :=
  { d with pending := d.pending.insert name v }

def document (d : Draft) (line : String) : Draft :=
  { d with pending := d.pending.document line }

/-- A statement with its end, or a trait that waits for its shape. -/
inductive IsStep (d : Draft) : List Kind → List Kind → Draft → Prop
  | statement {ts fin rest : List Kind} {d' : Draft} : IsStatement d ts d' → Ends fin rest →
      IsStep d (ts ++ (fin ++ rest)) rest d'
  | applied {w name : String} {v : Value} {us ks : List Kind} : isTraitWord w = true →
      IsTrait d.scope (.word w :: us) name v →
      IsStep d (.word w :: (us ++ ks)) (dropBreak ks) (d.annotate name v)

/-- Reading the tokens to the end takes one draft to another. -/
inductive Reads : Draft → List Kind → Draft → Prop
  | done {d : Draft} : d.pending.isEmpty = true → Reads d [] d
  | newline {d d' : Draft} {ks : List Kind} : d.pending.isEmpty = true → Reads d ks d' →
      Reads d (.newline :: ks) d'
  | documentation {d d' : Draft} {line : String} {ks : List Kind} :
      Reads (d.document line) (dropBreak ks) d' → Reads d (.documentation line :: ks) d'
  | step {d d₁ d' : Draft} {ks rest : List Kind} : IsStep d ks rest d₁ → Reads d₁ rest d' →
      Reads d ks d'

theorem IsStatement.head_eq {d d' : Draft} {ts : List Kind} (h : IsStatement d ts d') :
    ∃ w us, ts = .word w :: us ∧ isTraitWord w = false := by
  cases h with
  | shape _ hw => exact ⟨_, _, rfl, hw⟩
  | _ => exact ⟨_, _, rfl, rfl⟩

theorem IsStep.head_eq {d d' : Draft} {ks rest : List Kind} (h : IsStep d ks rest d') :
    ∃ w us, ks = .word w :: us := by
  cases h with
  | statement hs =>
    obtain ⟨w, us, rfl, _⟩ := hs.head_eq
    exact ⟨w, _, rfl⟩
  | applied => exact ⟨_, _, rfl⟩

theorem ends_of_endStatement {c : Cursor} {rest : List Kind}
    (h : c.endStatement.Gives () rest) : ∃ fin, c.kinds = fin ++ rest ∧ Ends fin rest := by
  rcases Cursor.endStatement_gives_iff.mp h with hks | ⟨hks, rfl⟩
  · exact ⟨_, hks, .newline rest⟩
  · exact ⟨[], hks, .input⟩

theorem Ends.gives {fin rest : List Kind} (h : Ends fin rest) {c : Cursor}
    (hc : c.kinds = fin ++ rest) : c.endStatement.Gives () rest := by
  rw [Cursor.endStatement_gives_iff]
  cases h with
  | newline => exact .inl hc
  | input => exact .inr ⟨hc, rfl⟩

theorem isShape_of_readShape {d d' : Draft} {c : Cursor} {rest : List Kind}
    (h : (readShape d c).Gives d' rest) :
    ∃ keyword ts fin, c.kinds = .word keyword :: (ts ++ (fin ++ rest)) ∧
      IsShape d (.word keyword :: ts) d' ∧ Ends fin rest := by
  rw [readShape] at h
  split at h
  · exact absurd h Outcome.not_gives_failed
  next keyword c₁ h₁ hkeyword =>
  split at h
  · exact absurd h Outcome.not_gives_failed
  next name c₂ h₂ hname =>
  have hkeyword := Cursor.expectWord_gives_iff.mp (Outcome.gives_of_eq hkeyword)
  have hname := Cursor.expectWord_gives_iff.mp (Outcome.gives_of_eq hname)
  simp only [] at h
  split at h
  · exact absurd h Outcome.not_gives_failed
  next hnew =>
  have hnew := Bool.eq_false_iff.mpr hnew
  split at h
  · split at h
    · exact absurd h Outcome.not_gives_failed
    next c₃ h₃ hend =>
    obtain ⟨rfl, rfl⟩ := Outcome.gives_ok_iff.mp h
    obtain ⟨fin, hfin, hends⟩ := ends_of_endStatement (Outcome.gives_of_eq hend)
    exact ⟨keyword, [.word name], fin, by rw [hkeyword, hname, hfin]; rfl, .bare hnew, hends⟩
  · split at h
    · exact absurd h Outcome.not_gives_failed
    next entry c₃ h₃ hbody =>
    split at h
    · exact absurd h Outcome.not_gives_failed
    next c₄ h₄ hend =>
    obtain ⟨rfl, rfl⟩ := Outcome.gives_ok_iff.mp h
    obtain ⟨ts, hts, hbody⟩ := isBody_of_readBody (Outcome.gives_of_eq hbody)
    obtain ⟨fin, hfin, hends⟩ := ends_of_endStatement (Outcome.gives_of_eq hend)
    refine ⟨keyword, .word name :: ts, fin, ?_, .body hnew hbody, hends⟩
    rw [hkeyword, hname, hts, hfin]
    rfl

theorem readShape_of_isShape {d d' : Draft} {ts fin : List Kind} (h : IsShape d ts d')
    {c : Cursor} {rest : List Kind} (hends : Ends fin rest) (hc : c.kinds = ts ++ (fin ++ rest)) :
    (readShape d c).Gives d' rest := by
  rw [readShape]
  cases h with
  | @bare keyword name hnew =>
    obtain ⟨c₁, h₁, hkeyword, hc₁⟩ := Cursor.expectWord_gives_iff.mpr hc
    obtain ⟨c₂, h₂, hname, hc₂⟩ := Cursor.expectWord_gives_iff.mpr hc₁
    have hpeek : c₂.peek? = none ∨ c₂.peek? = some .newline := by
      rw [Cursor.peek?_eq, hc₂]
      cases hends with
      | newline => exact .inr rfl
      | input => exact .inl rfl
    obtain ⟨c₃, h₃, hend, hc₃⟩ := hends.gives hc₂
    simp only [hkeyword, hname, hnew, hpeek, hend, if_true, Bool.false_eq_true, if_false]
    exact Outcome.gives_ok_iff.mpr ⟨rfl, hc₃⟩
  | @body keyword name ts entry hnew hbody =>
    obtain ⟨c₁, h₁, hkeyword, hc₁⟩ := Cursor.expectWord_gives_iff.mpr hc
    obtain ⟨c₂, h₂, hname, hc₂⟩ := Cursor.expectWord_gives_iff.mpr hc₁
    have hpeek : ¬(c₂.peek? = none ∨ c₂.peek? = some .newline) := by
      obtain ⟨us, rfl⟩ := hbody.head_eq
      rw [Cursor.peek?_eq, hc₂]
      simp
    obtain ⟨c₃, h₃, hread, hc₃⟩ := readBody_of_isBody hbody hc₂
    obtain ⟨c₄, h₄, hend, hc₄⟩ := hends.gives hc₃
    simp only [hkeyword, hname, hnew, hpeek, hread, hend, Bool.false_eq_true, if_false]
    exact Outcome.gives_ok_iff.mpr ⟨rfl, hc₄⟩

theorem isTrait_of_readApplied {s : Scope} {c : Cursor} {name : String} {v : Value}
    {rest : List Kind} (h : (readApplied s c).Gives (name, v) rest) :
    ∃ w us, c.kinds = .word w :: (us ++ rest) ∧ isTraitWord w = true ∧
      IsTrait s (.word w :: us) name v := by
  rw [readApplied] at h
  split at h
  · next w hk =>
    split at h
    · next hw =>
      obtain ⟨w', us, hus, htrait⟩ := isTrait_of_readTrait h
      rw [Cursor.peek?_eq, hus] at hk
      cases hk
      exact ⟨w, us, hus, hw, htrait⟩
    · exact absurd h Outcome.not_gives_failed
  · exact absurd h Outcome.not_gives_failed

theorem readApplied_of_isTrait {s : Scope} {w name : String} {us : List Kind} {v : Value}
    (h : IsTrait s (.word w :: us) name v) (hw : isTraitWord w = true) {c : Cursor}
    {rest : List Kind} (hc : c.kinds = .word w :: (us ++ rest))
    (hrest : rest.head? ≠ some (.grammar '(')) : (readApplied s c).Gives (name, v) rest := by
  have hpeek : c.peek? = some (.word w) := Cursor.peek?_of_cons hc
  rw [readApplied, hpeek]
  simp only [hw, if_true]
  exact readTrait_of_isTrait h hc hrest

theorem isApplication_of_readApply {d d' : Draft} {c : Cursor} {rest : List Kind}
    (h : (readApply d c).Gives d' rest) :
    ∃ ts fin, c.kinds = ts ++ (fin ++ rest) ∧ IsApplication d ts d' ∧ Ends fin rest := by
  rw [readApply] at h
  split at h
  · exact absurd h Outcome.not_gives_failed
  next target c₁ h₁ htarget =>
  have htarget := Cursor.expectWord_gives_iff.mp (Outcome.gives_of_eq htarget)
  simp only [] at h
  split at h
  · exact absurd h Outcome.not_gives_failed
  next entry hentry =>
  split at h
  · exact absurd h Outcome.not_gives_failed
  next name v c₂ h₂ happlied =>
  split at h
  · exact absurd h Outcome.not_gives_failed
  next entry' hentry' =>
  split at h
  · exact absurd h Outcome.not_gives_failed
  next c₃ h₃ hend =>
  obtain ⟨rfl, rfl⟩ := Outcome.gives_ok_iff.mp h
  obtain ⟨w, us, hus, hw, htrait⟩ := isTrait_of_readApplied (Outcome.gives_of_eq happlied)
  obtain ⟨fin, hfin, hends⟩ := ends_of_endStatement (Outcome.gives_of_eq hend)
  refine ⟨.word target :: .word w :: us, fin, ?_, .intro hentry hw htrait hentry', hends⟩
  rw [htarget, hus, hfin]
  rfl

theorem Ends.head?_ne {fin rest : List Kind} (h : Ends fin rest) (ch : Char) :
    (fin ++ rest).head? ≠ some (.grammar ch) := by
  cases h <;> simp

theorem readApply_of_isApplication {d d' : Draft} {ts fin : List Kind} (h : IsApplication d ts d')
    {c : Cursor} {rest : List Kind} (hends : Ends fin rest) (hc : c.kinds = ts ++ (fin ++ rest)) :
    (readApply d c).Gives d' rest := by
  obtain @⟨target, w, name, us, v, entry, entry', hentry, hw, htrait, hentry'⟩ := h
  obtain ⟨c₁, h₁, htarget, hc₁⟩ := Cursor.expectWord_gives_iff.mpr hc
  obtain ⟨c₂, h₂, happlied, hc₂⟩ := readApplied_of_isTrait htrait hw hc₁ (hends.head?_ne _)
  obtain ⟨c₃, h₃, hend, hc₃⟩ := hends.gives hc₂
  rw [identifierOf] at hentry hentry'
  rw [readApply]
  simp only [htarget, hentry, happlied, hentry', hend]
  exact Outcome.gives_ok_iff.mpr ⟨rfl, hc₃⟩

theorem readMetadata_gives_iff {d d' : Draft} {c : Cursor} {rest : List Kind} :
    (readMetadata d c).Gives d' rest ↔ ∃ k key ts v fin,
      c.kinds = k :: .grammar '=' :: (ts ++ (fin ++ rest)) ∧ IsKey k key ∧
      IsValue d.scope .metadata ts v ∧ Ends fin rest ∧
      d' = { d with metadata := d.metadata.insert key v } := by
  constructor
  · intro h
    rw [readMetadata] at h
    split at h
    · exact absurd h Outcome.not_gives_failed
    next key c₁ h₁ hkey =>
    split at h
    · exact absurd h Outcome.not_gives_failed
    next c₂ h₂ hequals =>
    split at h
    · exact absurd h Outcome.not_gives_failed
    next v c₃ h₃ hvalue =>
    split at h
    · exact absurd h Outcome.not_gives_failed
    next c₄ h₄ hend =>
    obtain ⟨rfl, rfl⟩ := Outcome.gives_ok_iff.mp h
    obtain ⟨k, hk, hks⟩ := Cursor.expectKey_gives_iff.mp (Outcome.gives_of_eq hkey)
    have hequals := Cursor.expectGrammar_gives_iff.mp (Outcome.gives_of_eq hequals)
    obtain ⟨ts, hts, hv⟩ := isValue_of_readValue _ (Outcome.gives_of_eq hvalue)
    obtain ⟨fin, hfin, hends⟩ := ends_of_endStatement (Outcome.gives_of_eq hend)
    exact ⟨k, key, ts, v, fin, by rw [hks, hequals, hts, hfin], hk, hv, hends, rfl⟩
  · rintro ⟨k, key, ts, v, fin, hc, hk, hv, hends, rfl⟩
    obtain ⟨c₁, h₁, hkey, hc₁⟩ := Cursor.expectKey_gives_iff.mpr ⟨k, hk, hc⟩
    obtain ⟨c₂, h₂, hequals, hc₂⟩ := Cursor.expectGrammar_gives_iff.mpr hc₁
    obtain ⟨c₃, h₃, hread, hc₃⟩ := readValue_of_isValue hv hc₂
    obtain ⟨c₄, h₄, hend, hc₄⟩ := hends.gives hc₃
    rw [readMetadata]
    simp only [hkey, hequals, hread, hend]
    exact Outcome.gives_ok_iff.mpr ⟨rfl, hc₄⟩

theorem readWordStatement_gives_iff {c : Cursor} {w : String} {rest : List Kind} :
    (readWordStatement c).Gives w rest ↔
      ∃ fin, c.kinds = .word w :: (fin ++ rest) ∧ Ends fin rest := by
  constructor
  · intro h
    rw [readWordStatement] at h
    split at h
    · exact absurd h Outcome.not_gives_failed
    next w' c₁ h₁ hword =>
    split at h
    · exact absurd h Outcome.not_gives_failed
    next c₂ h₂ hend =>
    obtain ⟨rfl, rfl⟩ := Outcome.gives_ok_iff.mp h
    have hword := Cursor.expectWord_gives_iff.mp (Outcome.gives_of_eq hword)
    obtain ⟨fin, hfin, hends⟩ := ends_of_endStatement (Outcome.gives_of_eq hend)
    exact ⟨fin, by rw [hword, hfin], hends⟩
  · rintro ⟨fin, hc, hends⟩
    obtain ⟨c₁, h₁, hword, hc₁⟩ := Cursor.expectWord_gives_iff.mpr hc
    obtain ⟨c₂, h₂, hend, hc₂⟩ := hends.gives hc₁
    rw [readWordStatement]
    simp only [hword, hend]
    exact Outcome.gives_ok_iff.mpr ⟨rfl, hc₂⟩

end Draft

end ShapeModel.Document
