import ShapeModel.Proofs.Json.Tokens
import ShapeModel.Proofs.Number.Literal
import ShapeModel.Proofs.Value.Plain

/-!
# Texts of values

The texts that JSON has for a value differ in the blanks and line feeds between the parts. The two
ways to write a value without doubles both give one of them.
-/

namespace ShapeModel.Json

set_option autoImplicit false

open Token (Layout)

mutual

/-- The text is one of the value. -/
inductive IsText : List Char → Value → Prop
  | null : IsText ['n', 'u', 'l', 'l'] .null
  | true : IsText ['t', 'r', 'u', 'e'] (.bool true)
  | false : IsText ['f', 'a', 'l', 's', 'e'] (.bool false)
  | number {n m : Number} {i : Int} : n.toInt? = some i → Number.ofInt? i = some m →
      IsText (intText i) (.number n)
  | string (s : String) : IsText (quote s) (.string s)
  | emptyArray {gap : List Char} : Layout gap → IsText ('[' :: (gap ++ [']'])) (.array [])
  | array {gap cs : List Char} {vs : List Value} : Layout gap → AreItems cs vs →
      IsText ('[' :: (gap ++ cs)) (.array vs)
  | emptyObject {gap : List Char} : Layout gap → IsText ('{' :: (gap ++ ['}'])) (.object [])
  | object {gap cs : List Char} {fs : Value.Fields} : Layout gap → AreFields cs fs →
      IsText ('{' :: (gap ++ cs)) (.object fs)

/-- The text has the items of an array that is not empty, from the first one on and through the
closing bracket. -/
inductive AreItems : List Char → List Value → Prop
  | last {cs gap : List Char} {v : Value} : IsText cs v → Layout gap →
      AreItems (cs ++ (gap ++ [']'])) [v]
  | cons {cs gap rest : List Char} {v : Value} {vs : List Value} : IsText cs v → Layout gap →
      AreItems rest vs → AreItems (cs ++ ',' :: (gap ++ rest)) (v :: vs)

/-- The text has the fields of an object that is not empty, from the first one on and through the
closing brace. -/
inductive AreFields : List Char → Value.Fields → Prop
  | last {cs gap gap' : List Char} {k : String} {v : Value} : Layout gap → IsText cs v →
      Layout gap' → AreFields (quote k ++ ':' :: (gap ++ (cs ++ (gap' ++ ['}'])))) [(k, v)]
  | cons {cs gap gap' rest : List Char} {k : String} {v : Value} {fs : Value.Fields} :
      Layout gap → IsText cs v → Layout gap' → AreFields rest fs →
      AreFields (quote k ++ ':' :: (gap ++ (cs ++ ',' :: (gap' ++ rest)))) ((k, v) :: fs)

end

theorem isText_numberText {n m : Number} {i : Int} (hi : n.toInt? = some i)
    (hm : Number.ofInt? i = some m) : IsText (numberText n) (.number n) := by
  unfold numberText
  rw [hi]
  exact .number hi hm

mutual

theorem isText_compact {v : Value} (hv : v.Integral) : IsText (compact v) v := by
  cases hv with
  | null => exact .null
  | bool b =>
    cases b with
    | false => exact .false
    | true => exact .true
  | uint n => exact isText_numberText rfl (Number.ofInt?_toNat n)
  | int n =>
    obtain ⟨m, hm, -⟩ := Number.exists_ofInt?_toInt n
    exact isText_numberText rfl hm
  | string s => exact .string s
  | @array vs hvs =>
    cases vs with
    | nil => exact .emptyArray Token.layout_nil
    | cons v vs =>
      obtain ⟨hv, hvs⟩ := List.forall_mem_cons.mp hvs
      exact @IsText.array [] _ _ Token.layout_nil (areItems_compact (isText_compact hv) hvs)
  | @object fs hfs =>
    cases fs with
    | nil => exact .emptyObject Token.layout_nil
    | cons f fs =>
      obtain ⟨hf, hfs⟩ := List.forall_mem_cons.mp hfs
      exact @IsText.object [] _ _ Token.layout_nil (areFields_compact (isText_compact hf) hfs)

theorem areItems_compact {cs : List Char} {v : Value} {vs : List Value} (hv : IsText cs v)
    (hvs : ∀ w ∈ vs, w.Integral) : AreItems (cs ++ compactItems vs) (v :: vs) := by
  cases vs with
  | nil => exact @AreItems.last _ [] _ hv Token.layout_nil
  | cons w vs =>
    obtain ⟨hw, hvs⟩ := List.forall_mem_cons.mp hvs
    exact @AreItems.cons _ [] _ _ _ hv Token.layout_nil (areItems_compact (isText_compact hw) hvs)

theorem areFields_compact {cs : List Char} {k : String} {v : Value} {fs : Value.Fields}
    (hv : IsText cs v) (hfs : ∀ f ∈ fs, f.2.Integral) :
    AreFields (quote k ++ ':' :: (cs ++ compactFields fs)) ((k, v) :: fs) := by
  cases fs with
  | nil => exact @AreFields.last _ [] [] _ _ Token.layout_nil hv Token.layout_nil
  | cons f fs =>
    obtain ⟨hf, hfs⟩ := List.forall_mem_cons.mp hfs
    exact @AreFields.cons _ [] [] _ _ _ _ Token.layout_nil hv Token.layout_nil
      (areFields_compact (isText_compact hf) hfs)

end

theorem layout_blank : Layout [' '] := by
  simp [Layout]

mutual

theorem isText_pretty {v : Value} (depth : Nat) (hv : v.Integral) : IsText (pretty depth v) v := by
  cases v with
  | array vs =>
    cases vs with
    | nil => exact isText_compact hv
    | cons v vs =>
      cases hv with
      | array hvs =>
        obtain ⟨hv, hvs⟩ := List.forall_mem_cons.mp hvs
        rw [pretty, List.append_assoc]
        exact .array (Token.layout_newline _)
          (areItems_pretty depth (isText_pretty (depth + 1) hv) hvs)
  | object fs =>
    cases fs with
    | nil => exact isText_compact hv
    | cons f fs =>
      cases hv with
      | object hfs =>
        obtain ⟨hf, hfs⟩ := List.forall_mem_cons.mp hfs
        rw [pretty, List.append_assoc, List.append_assoc]
        exact .object (Token.layout_newline _)
          (areFields_pretty depth (isText_pretty (depth + 1) hf) hfs)
  -- All others are written on one line.
  | _ => exact isText_compact hv

theorem areItems_pretty {cs : List Char} {v : Value} {vs : List Value} (depth : Nat)
    (hv : IsText cs v) (hvs : ∀ w ∈ vs, w.Integral) :
    AreItems (cs ++ prettyItems depth vs) (v :: vs) := by
  cases vs with
  | nil => exact .last hv (Token.layout_newline depth)
  | cons w vs =>
    obtain ⟨hw, hvs⟩ := List.forall_mem_cons.mp hvs
    rw [prettyItems, List.append_assoc]
    exact .cons hv (Token.layout_newline _)
      (areItems_pretty depth (isText_pretty (depth + 1) hw) hvs)

theorem areFields_pretty {cs : List Char} {k : String} {v : Value} {fs : Value.Fields}
    (depth : Nat) (hv : IsText cs v) (hfs : ∀ f ∈ fs, f.2.Integral) :
    AreFields (quote k ++ ':' :: ' ' :: (cs ++ prettyFields depth fs)) ((k, v) :: fs) := by
  cases fs with
  | nil => exact .last layout_blank hv (Token.layout_newline depth)
  | cons f fs =>
    obtain ⟨hf, hfs⟩ := List.forall_mem_cons.mp hfs
    rw [prettyFields, List.append_assoc, List.append_assoc]
    exact .cons layout_blank hv (Token.layout_newline _)
      (areFields_pretty depth (isText_pretty (depth + 1) hf) hfs)

end

/-- Whether a value is written on one line or on many, what is written is a text of it. -/
theorem isText_toList {v : Value} (hv : v.Integral) {text : String}
    (htext : text ∈ [v.compactText, v.prettyText]) : IsText text.toList v := by
  simp only [List.mem_cons, List.not_mem_nil, or_false] at htext
  rcases htext with rfl | rfl
  · rw [Value.compactText, String.toList_ofList]
    exact isText_compact hv
  · rw [Value.prettyText, String.toList_ofList]
    exact isText_pretty 0 hv

end ShapeModel.Json
