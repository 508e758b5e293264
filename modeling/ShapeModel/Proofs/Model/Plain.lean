import ShapeModel.Dialect
import ShapeModel.Proofs.Document.Kept
import ShapeModel.Proofs.Document.Ordered
import ShapeModel.Proofs.Json.Parse
import ShapeModel.Proofs.Shape.Plain

/-!
# Two ways to load a document

A document is loaded from its source, or from the JSON of its abstract syntax. The second way sees
the plain form of what the first one sees. Both give equal models or the same error, as long as
there are no doubles in the syntax and it is not nested too deeply for JSON.
-/

namespace ShapeModel

set_option autoImplicit false

section

variable {s s' : Shape} {m m' : Model}

theorem Shape.same_mk {body body' : Body} {ts us : Traits} (hbody : Same body body')
    (hts : Same ts us) : Same (Shape.mk body ts) ⟨body', us⟩ :=
  Bool.and_eq_true_iff.mpr ⟨hbody, hts⟩

theorem Shape.agree_updateMember (h : Same s s') (id : Identifier) {f g : Member → Member}
    (hfg : ∀ x y, Same x y → Same (f x) (g y)) :
    Agree Same (s.updateMember id f) (s'.updateMember id g) := by
  obtain ⟨body, ts⟩ := s
  obtain ⟨body', us⟩ := s'
  obtain ⟨hbody, hts⟩ := Bool.and_eq_true_iff.mp h
  cases body with
  | aggregate k ms =>
    cases body' with
    | aggregate k' ms' =>
      obtain ⟨hk, hms⟩ := Bool.and_eq_true_iff.mp hbody
      simp only [updateMember, Model.changed, changeMember, Table.changeAt]
      rcases same_option_cases (Table.same_get? hms (id.member.getD "")) with
        ⟨hnone, hnone'⟩ | ⟨x, y, hx, hy, hxy⟩
      · rw [hnone, hnone']
        exact .error _
      · rw [hx, hy]
        have hmembers := Table.same_insert hms (hfg x y hxy) (id.member.getD "")
        exact .ok (same_mk (Bool.and_eq_true_iff.mpr ⟨hk, hmembers⟩) hts)
    | _ => cases hbody
  | _ =>
    cases body' with
    | aggregate => cases hbody
    | _ => exact .error _

theorem Model.same_shapes (h : Same m m') : Same m.shapes m'.shapes :=
  (Bool.and_eq_true_iff.mp (Bool.and_eq_true_iff.mp h).2).2

theorem Model.same_insertShape (h : Same m m') (hs : Same s s') (id : Identifier) :
    Same (m.insertShape id s) (m'.insertShape id s') := by
  obtain ⟨hversion, hrest⟩ := Bool.and_eq_true_iff.mp h
  obtain ⟨hmetadata, hshapes⟩ := Bool.and_eq_true_iff.mp hrest
  exact Bool.and_eq_true_iff.mpr ⟨hversion,
    Bool.and_eq_true_iff.mpr ⟨hmetadata, Table.same_insert hshapes hs id⟩⟩

theorem Model.agree_updateTraits (h : Same m m') (id : Identifier) {f g : Traits → Traits}
    (hfg : ∀ ts us, Same ts us → Same (f ts) (g us)) :
    Agree Same (m.updateTraits id f) (m'.updateTraits id g) := by
  rw [updateTraits_eq, updateTraits_eq]
  rcases same_option_cases (Table.same_get? (same_shapes h) id.root) with
    ⟨hnone, hnone'⟩ | ⟨s, s', hs, hs', hsame⟩
  · rw [hnone, hnone']
    exact .error _
  · simp only [hs, hs']
    split
    · refine (Shape.agree_updateMember hsame id fun x y hxy => ?_).map fun x y hxy =>
        same_insertShape h hxy id.root
      obtain ⟨htarget, hts⟩ := Bool.and_eq_true_iff.mp hxy
      exact Bool.and_eq_true_iff.mpr ⟨htarget, hfg _ _ hts⟩
    · obtain ⟨hbody, hts⟩ := Bool.and_eq_true_iff.mp hsame
      exact .ok (same_insertShape h (Shape.same_mk hbody (hfg _ _ hts)) id.root)

theorem Model.agree_addTraits (h : Same m m') (id : Identifier) {ts us : List Trait}
    (hts : Same ts us) : Agree Same (addTraits id ts m) (addTraits id us m') := by
  induction ts generalizing us m m' with
  | nil =>
    cases us with
    | nil => exact .ok h
    | cons u us => cases hts
  | cons t ts ih =>
    cases us with
    | nil => cases hts
    | cons u us =>
      obtain ⟨ht, hts⟩ := same_cons_iff.mp hts
      refine (agree_updateTraits h id fun _ _ hs => Traits.same_add hs ht).bind ?_
      exact fun _ _ h => ih h hts

end

/-- Every decoder gives the same outcome for an entry without doubles and for its plain form. -/
def ShapeRegistry.TakesPlain (r : ShapeRegistry) (ts : TraitRegistry) : Prop :=
  ∀ kind decode, r.get? kind = some decode → ShapeDecoder.TakesPlain decode ts

theorem ShapeRegistry.takesPlain_builtin {ts : TraitRegistry} (h : ts.TakesPlain) :
    builtin.TakesPlain ts := by
  intro kind decode hget
  obtain ⟨k, -, hk⟩ := List.mem_map.mp (Table.mem_of_get?_ofList hget)
  cases hk
  exact Shape.takesPlain_decode h k

theorem ShapeRegistry.TakesPlain.decode {r : ShapeRegistry} {ts : TraitRegistry}
    (h : r.TakesPlain ts) {v : Value} (hv : v.Integral) (kind : String) :
    Agree Same (r.decode kind v ts) (r.decode kind v.plain ts) := by
  rw [ShapeRegistry.decode, ShapeRegistry.decode]
  cases hget : r.get? kind with
  | none => exact .error _
  | some decode => exact h kind decode hget v hv

namespace Model

/-- An application, and the one that is found in the plain form. -/
def Application.Plainly (a b : Application) : Prop :=
  a.target = b.target ∧ a.entry.Integral ∧ b.entry = a.entry.plain

/-- Equal models, with the applications that wait in both. -/
def LoadedAlike (x y : Model × List Application) : Prop :=
  Same x.1 y.1 ∧ List.Forall₂ Application.Plainly x.2 y.2

section

variable {shapes : ShapeRegistry} {traits : TraitRegistry} {m m' : Model}

theorem agree_decodeKind {entry : Value} (h : entry.Integral) (id : Identifier) :
    Agree Eq (decodeKind id entry) (decodeKind id entry.plain) := by
  rw [decodeKind, decodeKind, decodeText_plain h]
  exact .refl fun _ _ => rfl

theorem agree_decodeShapes (hshapes : shapes.TakesPlain traits) {es : Value.Fields}
    (hes : ∀ e ∈ es, e.2.Integral) (h : Same m m') :
    Agree LoadedAlike (decodeShapes shapes traits es m)
      (decodeShapes shapes traits (Value.plainFields es) m') := by
  induction es generalizing m m' with
  | nil => exact .ok ⟨h, .nil⟩
  | cons e es ih =>
    obtain ⟨name, entry⟩ := e
    obtain ⟨hentry, hes⟩ := List.forall_mem_cons.mp hes
    rw [Value.plainFields, decodeShapes, decodeShapes]
    refine (agree_decodeKind hentry _).bind ?_
    rintro kind _ rfl
    by_cases hkind : kind = "apply"
    · rw [if_pos hkind, if_pos hkind]
      refine (ih hes h).bind ?_
      rintro ⟨x, as⟩ ⟨y, bs⟩ ⟨hxy, happlications⟩
      exact .ok ⟨hxy, .cons ⟨rfl, hentry, rfl⟩ happlications⟩
    · rw [if_neg hkind, if_neg hkind]
      refine ((hshapes.decode hentry kind).mapError _).bind fun s s' hs => ?_
      exact ih hes (same_insertShape h hs _)

theorem agree_applyAll (htraits : traits.TakesPlain) {as bs : List Application}
    (has : List.Forall₂ Application.Plainly as bs) (h : Same m m') :
    Agree Same (applyAll traits as m) (applyAll traits bs m') := by
  induction has generalizing m m' with
  | nil => exact .ok h
  | @cons a b as bs hab _ ih =>
    obtain ⟨htarget, hentry, hplain⟩ := hab
    rw [applyAll, applyAll, ← htarget, hplain]
    refine ((htraits.traits hentry).mapError _).bind fun ts us hts => ?_
    exact (agree_addTraits h a.target (Table.same_values hts)).bind fun x y hxy => ih hxy

theorem agree_decodeObject {v : Value} (hv : v.Integral) (name : String) :
    Agree (fun fs gs => (∀ f ∈ fs, f.2.Integral) ∧ gs = Value.plainFields fs)
      (decodeObject v name) (decodeObject v.plain name) := by
  rw [decodeObject, decodeObject]
  rcases v.present?_plain_cases hv name with ⟨hnone, hplain⟩ | ⟨w, hw, hsome, hplain⟩
  · rw [hnone, hplain]
    exact .ok ⟨List.forall_mem_nil _, rfl⟩
  · rw [hsome, hplain]
    exact (Value.agree_asObject hw).mapError _

theorem same_plainFields {fs : Value.Fields} (hfs : ∀ f ∈ fs, f.2.Integral) :
    Same fs (Value.plainFields fs) := by
  induction fs with
  | nil => rfl
  | cons f fs ih =>
    obtain ⟨hf, hfs⟩ := List.forall_mem_cons.mp hfs
    exact same_cons (same_pair BEq.rfl (Value.same_plain_right hf)) (ih hfs)

/-- What a model starts with before its shapes. -/
theorem same_start {fs : Value.Fields} (hfs : ∀ f ∈ fs, f.2.Integral) (version : String) :
    Same { prelude with version := version, metadata := .ofList fs }
      { prelude with version := version, metadata := .ofList (Value.plainFields fs) } := by
  have hmetadata : Same (Table.ofList fs) (Table.ofList (Value.plainFields fs)) :=
    Entries.same_insertAll rfl (same_plainFields hfs)
  exact Bool.and_eq_true_iff.mpr ⟨BEq.rfl, Bool.and_eq_true_iff.mpr ⟨hmetadata, by rfl⟩⟩

/-- The same model comes of abstract syntax without doubles and of its plain form. -/
theorem agree_decode (htraits : traits.TakesPlain) (hshapes : shapes.TakesPlain traits)
    {ast : Value} (hast : ast.Integral) :
    Agree Same (decode shapes traits ast) (decode shapes traits ast.plain) := by
  rw [decode, decode, decodeText_plain hast]
  refine Agree.bind (.refl fun _ _ => (rfl : _ = _)) ?_
  rintro version _ rfl
  refine (agree_decodeObject hast _).bind ?_
  rintro metadata _ ⟨hmetadata, rfl⟩
  refine (agree_decodeObject hast _).bind ?_
  rintro entries _ ⟨hentries, rfl⟩
  refine (agree_decodeShapes hshapes hentries (same_start hmetadata _)).bind ?_
  rintro ⟨x, as⟩ ⟨y, bs⟩ ⟨hxy, happlications⟩
  exact agree_applyAll htraits happlications hxy

end

end Model

namespace Dialect

/-- No decoder of the dialect can tell a value without doubles from its plain form. -/
structure TakesPlain (d : Dialect) : Prop where
  traits : d.traits.TakesPlain
  shapes : d.shapes.TakesPlain d.traits

theorem takesPlain_builtin : builtin.TakesPlain where
  traits := TraitRegistry.takesPlain_builtin
  shapes := ShapeRegistry.takesPlain_builtin TraitRegistry.takesPlain_builtin

/-- A document that is read is loaded alike from its source and from either JSON text of its
abstract syntax, up to integers that lose a sign. -/
theorem agree_ofSource_ofJson {d : Dialect} (hd : d.TakesPlain) {s : Source} {ast : Value}
    (hast : d.syntaxTree s = .ok ast) (hintegral : ast.Integral)
    (hdepth : ast.depth ≤ Json.maxDepth) {text : String}
    (htext : text ∈ [ast.compactText, ast.prettyText]) :
    Agree Same (d.ofSource s) (d.ofJson text) := by
  have hparse := Json.parse?_eq_plain (ordered_syntaxTree hast) hintegral hdepth htext
  rw [ofSource, ofJson, hast, hparse]
  exact Model.agree_decode hd.traits hd.shapes hintegral

/-- A shape with a trait whose value is a zero with a sign, which JSON text does not keep. -/
def signedZero : Document.Declaration where
  notes := [.applied "a" (.number (.int 0))]
  keyword := "string"
  name := "B"
  body := none

def signedZeroTree : Value :=
  .object [("metadata", .object []),
    ("shapes", .object [("B", .object [("traits", .object [("a", .number (.int 0))]),
      ("type", .string "string")])])]

open Document in
theorem isDeclaration_signedZero :
    IsDeclaration emptyScope [.word "@a", .grammar '(', .number "-0", .grammar ')', .newline,
      .word "string", .word "B"] signedZero := by
  have hname : emptyScope.qualify true (appliedName "@a") = "a" := by decide
  have hvalue : IsTraitValue emptyScope [.number "-0", .grammar ')'] (.number (.int 0)) :=
    .value (.atom rfl) .nil
  have htrait : IsTrait emptyScope [.word "@a", .grammar '(', .number "-0", .grammar ')'] "a"
      (.number (.int 0)) :=
    hname ▸ .applied "@a" .nil hvalue
  have hnotes : AreNotes emptyScope [.word "@a", .grammar '(', .number "-0", .grammar ')', .newline]
      signedZero.notes :=
    .cons (.applied rfl htrait) .present .nil
  exact .intro hnotes (by decide) rfl .bare

theorem syntaxTree_signedZero :
    builtin.syntaxTree ⟨unnamed, "@a(-0)\nstring B"⟩ = .ok signedZeroTree := by
  have hks : Token.kinds "@a(-0)\nstring B".toList = .ok _ :=
    Document.kinds_of_tokens ⟨_, Token.tokens_eq_ok_iff.mpr (by cbv), rfl⟩
  have hruns := Document.runsDocument_declaration isDeclaration_signedZero (by decide)
  exact @Document.syntaxTree_of_runsDocument builtin ⟨unnamed, _⟩ _ _ _ hks hruns

theorem agree_ofSource_ofJson_signedZero :
    builtin.TakesPlain ∧
      builtin.syntaxTree ⟨unnamed, "@a(-0)\nstring B"⟩ = .ok signedZeroTree ∧
      signedZeroTree.Integral ∧ signedZeroTree.depth ≤ Json.maxDepth ∧
      signedZeroTree.compactText ∈ [signedZeroTree.compactText, signedZeroTree.prettyText] ∧
      Agree Same (builtin.ofSource ⟨unnamed, "@a(-0)\nstring B"⟩)
        (builtin.ofJson signedZeroTree.compactText) := by
  have hintegral : signedZeroTree.Integral := by
    have hentry : (Value.object [("traits", .object [("a", .number (.int 0))]),
        ("type", .string "string")]).Integral :=
      .object (by simpa using ⟨.object (by simpa using .int 0), .string _⟩)
    exact .object
      (by simpa using ⟨.object (List.forall_mem_nil _), .object (by simpa using hentry)⟩)
  have hdepth : signedZeroTree.depth ≤ Json.maxDepth := by decide
  have htext : signedZeroTree.compactText ∈
      [signedZeroTree.compactText, signedZeroTree.prettyText] := List.mem_cons_self
  exact ⟨takesPlain_builtin, syntaxTree_signedZero, hintegral, hdepth, htext,
    agree_ofSource_ofJson takesPlain_builtin syntaxTree_signedZero hintegral hdepth htext⟩

end Dialect

end ShapeModel
