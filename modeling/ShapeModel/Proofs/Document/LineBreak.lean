import ShapeModel.Dialect
import ShapeModel.Proofs.Document.Lockstep
import ShapeModel.Proofs.Token.Returns

/-!
# Line endings

A source is the same document with carriage returns before its line feeds: its tokens have the same
contents on the same lines, and loading it gives the same model, or the same error on the same line.
-/

namespace ShapeModel

set_option autoImplicit false

/-- The same error; one in the syntax may stand in another column of its line. -/
inductive Error.SameLine : Error → Error → Prop
  | refl (e : Error) : SameLine e e
  | syntactic {f f' : SyntaxFailure} : f'.error = f.error →
      f'.place.map (·.line) = f.place.map (·.line) → SameLine (.syntactic f) (.syntactic f')

/-- The same value, or the same error on the same line. -/
inductive Error.Alike {α : Type} : Except Error α → Except Error α → Prop
  | ok (a : α) : Alike (.ok a) (.ok a)
  | error {e e' : Error} : SameLine e e' → Alike (.error e) (.error e')

namespace Error.Alike

variable {α β : Type}

theorem refl (r : Except Error α) : Alike r r := by
  cases r with
  | ok a => exact .ok a
  | error e => exact .error (.refl e)

theorem bind {r r' : Except Error α} (h : Alike r r') (f : α → Except Error β) :
    Alike (r >>= f) (r' >>= f) := by
  cases h with
  | ok a => exact refl (f a)
  | error he => exact .error he

end Error.Alike

namespace Source

/-- The tokens of a source and those it has with carriage returns. -/
def returnPairing (s : Source) (ts : List Token) : Pairing where
  first := s
  second := s.withReturns
  tokens := ts
  Paired := Token.Reflowed
  kind_eq := Token.Reflowed.kind

variable {s : Source} {ts : List Token}

theorem alike_of_results {r r' : Except SyntaxFailure Value}
    (h : (s.returnPairing ts).Results r r') :
    Error.Alike (r.mapError .syntactic) (r'.mapError .syntactic) := by
  cases h with
  | ok v => exact .ok v
  | error e ht => exact .error (.syntactic rfl (congrArg some ht.line))

theorem alike_syntaxTree_withReturns (hs : '\r' ∉ s.text.toList) (h : s.tokens = .ok ts)
    (d : Dialect) : Error.Alike (d.syntaxTree s) (d.syntaxTree s.withReturns) := by
  obtain ⟨ts', hts', hpaired⟩ := tokens_withReturns hs h
  rw [Dialect.syntaxTree, Dialect.syntaxTree, h, hts']
  exact alike_of_results
    (Document.results_ofTokens (r := s.returnPairing ts) d.traits.names hpaired)

/-- Line endings do not matter: with carriage returns there are the same tokens on the same lines,
the same lines to show, and the same model or error. -/
theorem reads_withReturns (hs : '\r' ∉ s.text.toList) (h : s.tokens = .ok ts) :
    (∃ ts', s.withReturns.tokens = .ok ts' ∧ List.Forall₂ Token.Reflowed ts ts') ∧
      (∀ i, s.withReturns.line i = s.line i) ∧
      ∀ d : Dialect, Error.Alike (d.ofSource s) (d.ofSource s.withReturns) :=
  ⟨tokens_withReturns hs h, line_withReturns hs,
    fun d => (alike_syntaxTree_withReturns hs h d).bind d.ofValue⟩

/-- Documentation, a comment, a number, and a string over three lines. -/
def broken : Source :=
  ⟨"a", "/// d\n@a(\"\"\"\n b\n \"\"\") // e\n@c(1)\nstring D\n"⟩

def brokenTokens : List Token :=
  [⟨.documentation "d", "/// d", ⟨0, 1, 1⟩⟩, ⟨.newline, "\n", ⟨5, 1, 6⟩⟩,
    ⟨.word "@a", "@a", ⟨6, 2, 1⟩⟩, ⟨.grammar '(', "(", ⟨8, 2, 3⟩⟩,
    ⟨.string "b\n", "\"\"\"\n b\n \"\"\"", ⟨9, 2, 4⟩⟩, ⟨.grammar ')', ")", ⟨20, 4, 5⟩⟩,
    ⟨.newline, "\n", ⟨26, 4, 11⟩⟩, ⟨.word "@c", "@c", ⟨27, 5, 1⟩⟩, ⟨.grammar '(', "(", ⟨29, 5, 3⟩⟩,
    ⟨.number "1", "1", ⟨30, 5, 4⟩⟩, ⟨.grammar ')', ")", ⟨31, 5, 5⟩⟩, ⟨.newline, "\n", ⟨32, 5, 6⟩⟩,
    ⟨.word "string", "string", ⟨33, 6, 1⟩⟩, ⟨.word "D", "D", ⟨40, 6, 8⟩⟩,
    ⟨.newline, "\n", ⟨41, 6, 9⟩⟩]

theorem reads_withReturns_broken :
    '\r' ∉ broken.text.toList ∧ broken.tokens = .ok brokenTokens ∧
      (∃ ts', broken.withReturns.tokens = .ok ts' ∧
        List.Forall₂ Token.Reflowed brokenTokens ts') ∧
      (∀ i, broken.withReturns.line i = broken.line i) ∧
      ∀ d : Dialect, Error.Alike (d.ofSource broken) (d.ofSource broken.withReturns) := by
  have hreturn : '\r' ∉ broken.text.toList := by decide
  have htokens : broken.tokens = .ok brokenTokens := Token.tokens_eq_ok_iff.mpr (by cbv)
  exact ⟨hreturn, htokens, reads_withReturns hreturn htokens⟩

end Source

end ShapeModel
