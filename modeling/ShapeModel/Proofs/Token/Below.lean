import ShapeModel.Proofs.Token.Break
import ShapeModel.Proofs.Token.Cover

/-!
# A text below another one

Below a text that is read to its end, another text is read as it is by itself. Its tokens, or the
place where it cannot be read, are where they were, that many lines and bytes further down: no
reader looks past the line feed between the texts or keeps anything from before it.
-/

namespace ShapeModel

set_option autoImplicit false

namespace Position

/-- The position so many bytes and lines further down, in the same column. -/
def below (bytes lines : Nat) (p : Position) : Position :=
  ⟨p.offset + bytes, p.line + lines, p.column⟩

variable (bytes lines : Nat)

theorem step_below (p : Position) (c : Char) :
    (p.below bytes lines).step c = (p.step c).below bytes lines := by
  unfold step
  split
  · simp only [below, Nat.add_right_comm]
  · simp only [below, Nat.add_right_comm]

theorem advance_below (p : Position) (cs : List Char) :
    (p.below bytes lines).advance cs = (p.advance cs).below bytes lines := by
  induction cs generalizing p with
  | nil => rfl
  | cons c cs ih =>
    have hstep := step_below bytes lines p c
    calc (p.below bytes lines).advance (c :: cs)
        = ((p.below bytes lines).step c).advance cs := rfl
      _ = ((p.step c).below bytes lines).advance cs := by rw [hstep]
      _ = ((p.step c).advance cs).below bytes lines := ih (p.step c)

end Position

namespace Token

/-- The token so many bytes and lines further down. -/
def below (bytes lines : Nat) (t : Token) : Token :=
  { t with position := t.position.below bytes lines }

/-- The outcome of a scan so many bytes and lines further down. -/
def scannedBelow (bytes lines : Nat) :
    Except (LexicalError × Position) (List Token) → Except (LexicalError × Position) (List Token)
  | .ok ts => .ok (ts.map (below bytes lines))
  | .error (e, p) => .error (e, p.below bytes lines)

/-- Where a scan starts makes no difference but to the positions. -/
theorem scanFrom_below (bytes lines : Nat) (p : Position) (pending : Nat) (cs : List Char) :
    scanFrom (p.below bytes lines) pending cs =
      scannedBelow bytes lines (scanFrom p pending cs) := by
  induction cs generalizing p pending with
  | nil => rfl
  | cons c cs ih =>
    have hnext (n : Nat) : scanFrom ((p.below bytes lines).step c) n cs =
        scannedBelow bytes lines (scanFrom (p.step c) n cs) := by
      rw [Position.step_below]
      exact ih (p.step c) n
    cases pending with
    | succ n => exact hnext n
    | zero =>
      cases hf : front c cs with
      | gap n =>
        rw [scanFrom_of_gap _ hf, scanFrom_of_gap _ hf]
        exact hnext n
      | token k n =>
        rw [scanFrom_of_token _ hf, scanFrom_of_token _ hf, hnext]
        cases scanFrom (p.step c) n cs with
        | ok ts => rfl
        | error e => rfl
      | fault e n =>
        rw [scanFrom_of_fault _ hf, scanFrom_of_fault _ hf, Position.advance_below]
        rfl

end Token

namespace Source

/-- The text of one source above that of another, with a line feed between them. -/
def above (s t : Source) : Source :=
  ⟨s.file, s.text ++ "\n" ++ t.text⟩

/-- The position behind the text. -/
def stop (s : Source) : Position :=
  Position.start.advance s.text.toList

theorem toList_above (s t : Source) :
    (s.above t).text.toList = s.text.toList ++ '\n' :: t.text.toList := by
  simp [above]

/-- Behind the line feed, the text below starts as many lines down as there are above. -/
theorem step_stop (s : Source) :
    s.stop.step '\n' = Position.start.below (s.text.utf8ByteSize + 1) s.lines.length := by
  have hbehind := (Position.Behind.start.advance s.text.toList).step '\n'
  rw [List.nil_append] at hbehind
  have hoffset : (s.stop.step '\n').offset = s.text.utf8ByteSize + 1 := by
    rw [stop, hbehind.offset, String.ofList_append, String.utf8ByteSize_append,
      String.ofList_toList]
    rfl
  have hline : (s.stop.step '\n').line = 1 + s.lines.length := by
    rw [stop, hbehind.line, length_lines, List.count_append]
    simp
    omega
  have hcolumn : (s.stop.step '\n').column = 1 := by
    rw [stop, hbehind.column, Text.lastLine_append_newline]
    rfl
  calc s.stop.step '\n'
      = ⟨(s.stop.step '\n').offset, (s.stop.step '\n').line, (s.stop.step '\n').column⟩ := rfl
    _ = ⟨s.text.utf8ByteSize + 1, 1 + s.lines.length, 1⟩ := by rw [hoffset, hline, hcolumn]
    _ = Position.start.below (s.text.utf8ByteSize + 1) s.lines.length := by
      simp [Position.below, Position.start]

/-- The failure of a text, when it stands below the text of another source. -/
def failureBelow (s t : Source) (f : LexicalFailure) : LexicalFailure :=
  let line := f.place.line + s.lines.length
  ⟨f.error, ⟨line, f.place.column,
    (s.above t).message line f.place.column "error" f.error.message⟩⟩

/-- Reading two texts, one below the other, is reading each by itself: the whole is read if the text
below is, with the tokens of both and a line break between them, and otherwise it fails where the
text below does. -/
theorem tokens_above {s : Source} {ts : List Token} (h : s.tokens = .ok ts) (t : Source) :
    ((∃ us, (s.above t).tokens = .ok us) ↔ ∃ us, t.tokens = .ok us) ∧
      (∀ us, t.tokens = .ok us → (s.above t).tokens = .ok (ts ++ Token.lineBreak s.stop ::
        us.map (Token.below (s.text.utf8ByteSize + 1) s.lines.length))) ∧
      ∀ f, t.tokens = .error f → (s.above t).tokens = .error (s.failureBelow t f) := by
  have hscan := Token.scanFrom_append_newline (Nat.zero_le _) (Token.tokens_eq_ok_iff.mp h)
    t.text.toList
  rw [← toList_above, ← stop, step_stop, Token.scanFrom_below] at hscan
  simp only [tokens_eq, hscan]
  cases Token.scanFrom .start 0 t.text.toList with
  | ok us =>
    refine ⟨⟨fun _ => ⟨us, rfl⟩, fun _ => ⟨_, rfl⟩⟩, ?_, ?_⟩
    · rintro _ ⟨⟩
      rfl
    · rintro _ ⟨⟩
  | error e =>
    obtain ⟨e, p⟩ := e
    refine ⟨⟨?_, ?_⟩, ?_, ?_⟩
    · rintro ⟨_, ⟨⟩⟩
    · rintro ⟨_, ⟨⟩⟩
    · rintro _ ⟨⟩
    · rintro _ ⟨⟩
      rfl

/-- A string of several lines, and a comment at the end. -/
def upper : Source :=
  ⟨"a", "ab \"\"\"\n\té\n\"\"\"\t: // \""⟩

def upperTokens : List Token :=
  [⟨.word "ab", "ab", ⟨0, 1, 1⟩⟩, ⟨.string "\té\n", "\"\"\"\n\té\n\"\"\"", ⟨3, 1, 4⟩⟩,
    ⟨.grammar ':', ":", ⟨15, 3, 8⟩⟩]

def lower : Source :=
  ⟨"b", "\"\"\n\t/// d"⟩

def lowerTokens : List Token :=
  [⟨.string "", "\"\"", ⟨0, 1, 1⟩⟩, ⟨.newline, "\n", ⟨2, 1, 3⟩⟩,
    ⟨.documentation "d", "/// d", ⟨4, 2, 5⟩⟩]

def brokenLower : Source :=
  ⟨"b", "\n \"a\\q\""⟩

theorem tokens_above_upper :
    upper.tokens = .ok upperTokens ∧ lower.tokens = .ok lowerTokens ∧
      (upper.above lower).tokens = .ok (upperTokens ++ [⟨.newline, "\n", ⟨21, 3, 14⟩⟩,
        ⟨.string "", "\"\"", ⟨22, 4, 1⟩⟩, ⟨.newline, "\n", ⟨24, 4, 3⟩⟩,
        ⟨.documentation "d", "/// d", ⟨26, 5, 5⟩⟩]) ∧
      ∃ f, (upper.above brokenLower).tokens = .error f ∧ f.error = .unrecognizedEscape 'q' ∧
        f.place.line = 5 ∧ f.place.column = 5 := by
  have hupper : upper.tokens = .ok upperTokens := Token.tokens_eq_ok_iff.mpr (by cbv)
  have hlower : lower.tokens = .ok lowerTokens := Token.tokens_eq_ok_iff.mpr (by cbv)
  have hscan : Token.scanFrom .start 0 brokenLower.text.toList =
      .error (.unrecognizedEscape 'q', ⟨5, 2, 5⟩) := by cbv
  obtain ⟨f, hf, herror, hline, hcolumn⟩ : ∃ f, brokenLower.tokens = .error f ∧
      f.error = .unrecognizedEscape 'q' ∧ f.place.line = 2 ∧ f.place.column = 5 := by
    rw [tokens_eq, hscan]
    exact ⟨_, rfl, rfl, rfl, rfl⟩
  have habove := (tokens_above hupper brokenLower).2.2 f hf
  refine ⟨hupper, hlower, ?_, _, habove, herror, ?_, hcolumn⟩
  · have hbelow := (tokens_above hupper lower).2.1 _ hlower
    rw [hbelow]
    cbv
  · calc (upper.failureBelow brokenLower f).place.line
        = f.place.line + upper.lines.length := rfl
      _ = 2 + 3 := by
        rw [hline]
        cbv

end Source

end ShapeModel
