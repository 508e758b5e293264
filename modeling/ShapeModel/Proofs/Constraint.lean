import Mathlib
import ShapeModel.Proofs.Conformance
import ShapeModel.Proofs.Number.Exact
import ShapeModel.Proofs.Validity

/-!
# What constraints guarantee

A value has to meet the constraints of the shape or member that it is checked against, and at a
member those of the member's target as well. What passes keeps to the ranges, as far as integers are
small enough for doubles, and in a valid model to the lengths and patterns. Unique items are asked
for by the target only. Lengths in a valid model admit some size, unless there is nothing but an
upper bound and that is negative.
-/

namespace ShapeModel

set_option autoImplicit false

/-- The traits are those of the element or, if it is a member, of its target. -/
inductive Model.Governs (m : Model) : Traits → Element → Prop
  | own (e : Element) : Governs m e.traits e
  | target {x : Member} {s : Shape} : m.find? x.target = some (.shape s) →
      Governs m s.traits (.member x)

/-- The size is within the bounds. No size in memory takes 64 bits. -/
structure LengthBounds.Admits (b : LengthBounds) (n : Nat) : Prop where
  least : ∀ least, b.least = some least → least.toInt ≤ n
  most : ∀ most, b.most = some most → n < 2 ^ 63 → n ≤ most.toInt

/-- The integer is within those of the bounds that are integers. -/
structure RangeBounds.Admits (b : RangeBounds) (i : Int) : Prop where
  least : ∀ x least, b.least = some x → x.toInt? = some least → least ≤ i
  most : ∀ x most, b.most = some x → x.toInt? = some most → i ≤ most

/-- The value is of a length and a form that the traits allow. -/
structure Value.Keeps [PatternEngine] (v : Value) (ts : Traits) : Prop where
  length : ∀ b n, ts.length? = some b → v.size? = some n → b.Admits n
  pattern : ∀ p t, ts.pattern? = some p → v = .string t →
    ∃ q, PatternEngine.compile p = .ok q ∧ PatternEngine.isMatch q t = true

theorem LengthBounds.admits_of_contains {b : LengthBounds} {n : Nat} (h : b.contains n = true) :
    b.Admits n := by
  obtain ⟨hleast, hmost⟩ := (Bool.and_eq_true _ _).mp h
  constructor
  · intro least hb
    rw [hb, Option.all_some, decide_eq_true_eq] at hleast
    omega
  · intro most hb hn
    rw [hb, Option.all_some, decide_eq_true_eq] at hmost
    omega

theorem RangeBounds.admits_of_contains {b : RangeBounds} {x : Binary64} {i : Int}
    (hx : x.toInt? = some i) (h : b.contains x = true) : b.Admits i := by
  obtain ⟨hleast, hmost⟩ := (Bool.and_eq_true _ _).mp h
  constructor
  · intro y least hb hy
    rw [hb] at hleast
    exact (Binary64.le_iff_of_toInt? hy hx).mp hleast
  · intro y most hb hy
    rw [hb] at hmost
    exact (Binary64.le_iff_of_toInt? hx hy).mp hmost

namespace Value

variable [PatternEngine] {v : Value} {ts : Traits}

/-- Of the constraints only ranges are about numbers. -/
theorem meets_number_iff {n : Number} :
    (Value.number n).Meets ts ↔ ∀ b, ts.range? = some b → n.asFloat.all b.contains = true := by
  constructor
  · intro h b hb
    cases hx : n.asFloat with
    | none => rfl
    | some x => exact h.range b n x hb rfl hx
  · intro h
    constructor
    · intro b k _ hk
      cases hk
    · intro b k x hb hk hx
      cases hk
      have hall := h b hb
      rwa [hx] at hall
    · intro p q t _ _ ht
      cases ht

/-- A range sees an integer of safe magnitude as it is. -/
theorem Meets.admits {n : Number} {b : RangeBounds} {i : Int} (h : (Value.number n).Meets ts)
    (hb : ts.range? = some b) (hn : n.toInt? = some i) (hi : i.natAbs ≤ Number.safeInteger) :
    b.Admits i := by
  obtain ⟨x, hfloat, hx⟩ := Number.asFloat_of_toInt? hn hi
  have hcontains := meets_number_iff.mp h b hb
  rw [hfloat] at hcontains
  exact RangeBounds.admits_of_contains hx hcontains

theorem Meets.keeps (h : v.Meets ts)
    (hpattern : ∀ p, ts.pattern? = some p → ∃ q, PatternEngine.compile p = .ok q) : v.Keeps ts := by
  constructor
  · intro b n hb hn
    exact LengthBounds.admits_of_contains (h.length b n hb hn)
  · intro p t hp ht
    obtain ⟨q, hq⟩ := hpattern p hp
    exact ⟨q, hq, h.pattern p q t hp hq ht⟩

end Value

namespace Model

variable {m : Model} {id : Identifier} {v : Value} {ts : Traits}

section

variable [PatternEngine]

theorem MemberConforms.meets {x : Member} (h : m.MemberConforms v x)
    (hts : m.Governs ts (.member x)) : v.Meets ts := by
  obtain ⟨hown, hs, htarget⟩ := h
  cases hts with
  | own => exact hown
  | target ht =>
    cases hs.symm.trans ht
    exact (conforms_iff.mp htarget).1

theorem ConformsTo.meets {e : Element} (h : m.ConformsTo v id) (he : m.find? id = some e)
    (hts : m.Governs ts e) : v.Meets ts := by
  rcases h with ⟨s, hs, h⟩ | ⟨x, hx, h⟩
  · cases he.symm.trans hs
    cases hts
    exact (conforms_iff.mp h).1
  · cases he.symm.trans hx
    exact h.meets hts

/-- No integer of safe magnitude gets past a range, wherever it is given. -/
theorem admits_of_checkValue {e : Element} {b : RangeBounds} {n : Number} {i : Int}
    (he : m.find? id = some e) (hts : m.Governs ts e) (hb : ts.range? = some b)
    (hn : n.toInt? = some i) (hi : i.natAbs ≤ Number.safeInteger)
    (h : m.checkValue (.number n) id = .ok ()) : b.Admits i := by
  have hconforms := conformsTo_of_checkValue h
  exact (hconforms.meets he hts).admits hb hn hi

end

/-- A range that starts at one, and at a member that refers to it one that starts at five. -/
def countBounds : RangeBounds :=
  ⟨some (.ofInt 1), some (.ofInt 10)⟩

def counted : Member :=
  ⟨.ofText "a#Count", .ofList [.range ⟨some (.ofInt 5), none⟩]⟩

def count : Shape :=
  ⟨.simple .long, .ofList [.range countBounds]⟩

def countModel : Model :=
  .ofShapes
    [(.ofText "a#Box", ⟨.aggregate .struct (.ofList [("count", counted)]), .empty⟩),
      (.ofText "a#Count", count)]

theorem conforms_count [PatternEngine] {n : Number} (hn : n.isInteger = true)
    (h : n.asFloat.all countBounds.contains = true) : countModel.Conforms (.number n) count := by
  refine .intro ?_ (.simple (.integer (by decide) hn))
  rw [Value.meets_number_iff]
  rintro _ ⟨⟩
  exact h

theorem admits_of_checkValue_count :
    countModel.checkValue (.number (.uint 7)) (.ofText "a#Box$count") = .ok () ∧
      countBounds.Admits 7 ∧ RangeBounds.Admits ⟨some (.ofInt 5), none⟩ 7 := by
  have hfind : countModel.find? (.ofText "a#Box$count") = some (.member counted) := rfl
  have hmeets : (Value.number (.uint 7)).Meets counted.traits := by
    rw [Value.meets_number_iff]
    rintro _ ⟨⟩
    decide +kernel
  have hconforms := conforms_count rfl (by decide +kernel : (Number.uint 7).asFloat.all _ = true)
  have hcheck : countModel.checkValue (.number (.uint 7)) (.ofText "a#Box$count") = .ok () :=
    ConformsTo.checkValue (.inr ⟨counted, hfind, hmeets, rfl, hconforms⟩)
  refine ⟨hcheck, ?_, ?_⟩
  · exact admits_of_checkValue hfind (.target rfl) rfl rfl (by decide) hcheck
  · exact admits_of_checkValue hfind (.own _) rfl rfl (by decide) hcheck

/-- Where doubles are too far apart, a number is not compared with the bounds at all. -/
theorem not_admits_of_checkValue :
    countModel.find? (.ofText "a#Count") = some (.shape count) ∧
      count.traits.range? = some countBounds ∧
      countModel.checkValue (.number (.uint 9007199254740994)) (.ofText "a#Count") = .ok () ∧
      (Number.uint 9007199254740994).toInt? = some 9007199254740994 ∧
      ¬ countBounds.Admits 9007199254740994 := by
  have hnone : (Number.uint 9007199254740994).asFloat = none := by decide +kernel
  have hall : (Number.uint 9007199254740994).asFloat.all countBounds.contains = true := by
    rw [hnone, Option.all_none]
  refine ⟨rfl, rfl, ?_, rfl, ?_⟩
  · exact ConformsTo.checkValue (.inl ⟨count, rfl, conforms_count rfl hall⟩)
  · intro h
    have hmost := h.most _ 10 rfl (Binary64.toInt?_ofInt (by decide))
    omega

section

variable [PatternEngine] {lengths : LengthBounds → Prop} {s : Shape}

theorem TraitsInOrder.pattern {e : Element} (h : m.TraitsInOrder lengths e) {p : String}
    (hp : e.traits.pattern? = some p) : ∃ q, PatternEngine.compile p = .ok q := by
  unfold Traits.pattern? at hp
  split at hp
  · next r hr =>
    cases hp
    exact (h _ _ hr).2
  · cases hp

/-- Of the shapes, only lists may ask for unique items. -/
theorem TraitsInOrder.kind_of_uniqueItems (h : m.TraitsInOrder lengths (.shape s))
    (hunique : s.traits.builtin? .uniqueItems = some .uniqueItems) :
    s.kind = .collection .list := by
  have hallowed := (h _ _ (Option.filter_eq_some_iff.mp hunique).1).1
  simp only [Trait.Allowed, Trait.selectorIn, Trait.kind?, Trait.Kind.selector, Selector.Holds]
    at hallowed
  rcases hallowed with hown | ⟨e, he, _⟩
  · exact hown
  · cases he

theorem Conforms.distinct {items : List Value} (h : m.Conforms (.array items) s)
    (hs : m.TraitsInOrder lengths (.shape s))
    (hunique : s.traits.builtin? .uniqueItems = some .uniqueItems) : Value.Distinct items := by
  have hkind := hs.kind_of_uniqueItems hunique
  have hfits := (conforms_iff.mp h).2
  have hhas : s.traits.has .uniqueItems = true :=
    Option.isSome_of_eq_some (Option.filter_eq_some_iff.mp hunique).1
  cases hbody : s.body with
  | collection k x =>
    rw [hbody, fits_collection_iff] at hfits
    exact hfits.2 (.inr hhas)
  | _ =>
    rw [Shape.kind, hbody] at hkind
    cases hkind

end

/-- In a valid model, a value accepted at a member keeps to the lengths and patterns of the member
and its target, and has no item twice if the target asks for that. -/
theorem keeps_of_checkMember [PatternEngine] {s : Shape} {role : Role} {x : Member} {p : Path}
    (hm : m.validate = .ok ()) (hs : m.shapes.get? id = some s) (hx : s.body.Has role x)
    (h : m.checkMember p v x = .ok ()) :
    (∀ ts, m.Governs ts (.member x) → v.Keeps ts) ∧
      ∀ target items, m.find? x.target = some (.shape target) →
        target.traits.builtin? .uniqueItems = some .uniqueItems → v = .array items →
        Value.Distinct items := by
  have hwell := wellFormed_of_validate hm
  have hconforms := (checkMember_eq_ok_iff m p v x).mp h
  have htarget {target : Shape} (hfind : m.find? x.target = some (.shape target)) :=
    hwell.shapeTraits _ _ (get?_of_find?_eq_shape hfind)
  constructor
  · intro ts hts
    apply (hconforms.meets hts).keeps
    cases hts with
    | own => exact fun q => (hwell.memberTraits id s role x hs hx).pattern
    | target hfind => exact fun q => (htarget hfind).pattern
  · rintro target items hfind hunique rfl
    obtain ⟨_, hfind', hvalue⟩ := hconforms
    cases hfind.symm.trans hfind'
    exact hvalue.distinct (htarget hfind) hunique

def nameMember : Member :=
  ⟨.ofText "a#Text", .ofList [.pattern "a+$"]⟩

def tagsMember : Member :=
  ⟨.ofText "a#Tags", .ofList [.length ⟨some 1, some 2⟩]⟩

def textsMember : Member :=
  ⟨.ofText "a#Texts", .ofList [.uniqueItems]⟩

def label : Shape :=
  ⟨.aggregate .struct
    (.ofList [("name", nameMember), ("tags", tagsMember), ("texts", textsMember)]), .empty⟩

def text : Shape :=
  ⟨.simple .string, .ofList [.length ⟨some 1, none⟩]⟩

def tags : Shape :=
  ⟨.collection .list ⟨.ofText "a#Text", .empty⟩, .ofList [.uniqueItems]⟩

/-- A structure with a text of a certain form, a list that asks for unique items, and another list
where only the member asks for them. -/
def labelModel : Model :=
  .ofShapes
    [(.ofText "a#Label", label), (.ofText "a#Tags", tags), (.ofText "a#Text", text),
      (.ofText "a#Texts", ⟨.collection .list ⟨.ofText "a#Text", .empty⟩, .empty⟩)]

theorem validate_labelModel : labelModel.validate = .ok () := by decide +kernel

theorem keeps_of_checkMember_label :
    labelModel.checkMember .root (.string "ba") nameMember = .ok () ∧
      (Value.string "ba").Keeps nameMember.traits ∧ (Value.string "ba").Keeps text.traits ∧
      labelModel.checkMember .root (.array [.string "a", .string "b"]) tagsMember = .ok () ∧
      (Value.array [.string "a", .string "b"]).Keeps tagsMember.traits ∧
      Value.Distinct [.string "a", .string "b"] := by
  have hget : labelModel.shapes.get? (.ofText "a#Label") = some label := rfl
  have hname : labelModel.checkMember .root (.string "ba") nameMember = .ok () := by
    decide +kernel
  have htags :
      labelModel.checkMember .root (.array [.string "a", .string "b"]) tagsMember = .ok () := by
    decide +kernel
  have hkept := keeps_of_checkMember validate_labelModel hget
    (.named (by rfl : Table.get? _ "name" = some _)) hname
  have hdistinct := keeps_of_checkMember validate_labelModel hget
    (.named (by rfl : Table.get? _ "tags" = some _)) htags
  exact ⟨hname, hkept.1 _ (.own (.member nameMember)), hkept.1 _ (.target rfl), htags,
    hdistinct.1 _ (.own (.member tagsMember)), hdistinct.2 tags _ rfl rfl rfl⟩

/-- Unique items that a member asks for are not looked for. -/
theorem not_distinct_of_checkMember :
    labelModel.validate = .ok () ∧ labelModel.shapes.get? (.ofText "a#Label") = some label ∧
      label.body.Has .data textsMember ∧
      textsMember.traits.builtin? .uniqueItems = some .uniqueItems ∧
      labelModel.checkMember .root (.array [.string "x", .string "x"]) textsMember = .ok () ∧
      ¬ Value.Distinct [.string "x", .string "x"] := by
  refine ⟨validate_labelModel, rfl, .named (by rfl : Table.get? _ "texts" = some _), rfl, ?_, ?_⟩
  · decide +kernel
  · intro h
    have hne := (List.pairwise_cons.mp h).1 (.string "x") List.mem_cons_self
    cases hne

end Model

/-- Some size in memory is within the bounds. -/
def LengthBounds.Satisfiable (b : LengthBounds) : Prop :=
  ∃ n, n < 2 ^ 64 ∧ b.contains n = true

/-- Without a lower bound the upper one is not negative. -/
def LengthBounds.Reaches (b : LengthBounds) : Prop :=
  b.least = none → ∀ most, b.most = some most → 0 ≤ most.toInt

/-- The model has this shape, or this member in one of its shapes. -/
inductive Model.Includes (m : Model) : Element → Prop
  | shape {id : Identifier} {s : Shape} : m.shapes.get? id = some s → Includes m (.shape s)
  | member {id : Identifier} {s : Shape} {role : Role} {x : Member} :
      m.shapes.get? id = some s → s.body.Has role x → Includes m (.member x)

namespace LengthBounds

variable {b : LengthBounds}

theorem not_contains_of_negative {most : Int64} (hmost : b.most = some most) (h : most.toInt < 0)
    (n : Nat) : b.contains n = false := by
  have hneg : ¬min (n : Int) (2 ^ 63 - 1) ≤ most.toInt := by omega
  rw [contains, hmost, Option.all_some, decide_eq_false hneg, Bool.and_false]

/-- Of the sizes from a lower bound on, that bound itself comes first. -/
theorem contains_least {least : Int64} (hleast : b.least = some least) (h : b.Natural) :
    b.contains least.toInt.toNat = true := by
  have hnonneg := h.1 least hleast
  have hlt := least.toInt_lt
  have hsize : min (least.toInt.toNat : Int) (2 ^ 63 - 1) = least.toInt := by omega
  rw [contains, hsize, hleast, Option.all_some, Bool.and_eq_true]
  refine ⟨decide_eq_true (Int.le_refl _), ?_⟩
  rw [Option.all_eq_true]
  intro most hmost
  exact decide_eq_true (h.2 least most hleast hmost)

theorem contains_zero (hleast : b.least = none) (h : b.Reaches) : b.contains 0 = true := by
  rw [contains, hleast, Option.all_none, Bool.true_and, Option.all_eq_true]
  intro most hmost
  exact decide_eq_true (h hleast most hmost)

/-- What the check of the bounds misses is a negative upper bound that stands alone. -/
theorem satisfiable_iff_reaches (h : b.flaw = none) : b.Satisfiable ↔ b.Reaches := by
  have hnatural := flaw_eq_none_iff.mp h
  constructor
  · rintro ⟨n, _, hn⟩ _ most hmost
    by_contra hneg
    have hnot := not_contains_of_negative hmost (by omega) n
    exact Bool.false_ne_true (hnot.symm.trans hn)
  · intro hreaches
    cases hleast : b.least with
    | some least =>
      have hlt := least.toInt_lt
      exact ⟨_, by omega, contains_least hleast hnatural⟩
    | none => exact ⟨0, by omega, contains_zero hleast hreaches⟩

end LengthBounds

namespace Model

section

variable [PatternEngine] {m : Model}

theorem TraitsInOrder.length {lengths : LengthBounds → Prop} {e : Element}
    (h : m.TraitsInOrder lengths e) {b : LengthBounds} (hb : e.traits.length? = some b) :
    lengths b := by
  unfold Traits.length? at hb
  split at hb
  · next c hc =>
    cases hb
    exact (h _ _ hc).2
  · cases hb

theorem WellFormedWith.traitsInOrder {lengths : LengthBounds → Prop}
    (h : m.WellFormedWith lengths) {e : Element} (he : m.Includes e) :
    m.TraitsInOrder lengths e := by
  cases he with
  | shape hs => exact h.shapeTraits _ _ hs
  | member hs hx => exact h.memberTraits _ _ _ _ hs hx

/-- Bounds in which the check finds no flaw have some size within them, unless they are a negative
upper bound without a lower one. Of this kind are those of all shapes and members of a valid
model. -/
theorem satisfiable_iff_reaches_of_validate (b : LengthBounds) :
    (b.flaw = none → (b.Satisfiable ↔ b.Reaches)) ∧
      ∀ (m : Model) (e : Element), m.validate = .ok () → m.Includes e →
        e.traits.length? = some b → (b.Satisfiable ↔ b.Reaches) := by
  constructor
  · intro h
    exact LengthBounds.satisfiable_iff_reaches h
  · intro m e hm he hb
    have hwell := wellFormed_of_validate hm
    have hnatural := (hwell.traitsInOrder he).length hb
    apply LengthBounds.satisfiable_iff_reaches
    exact LengthBounds.flaw_eq_none_iff.mpr hnatural

end

theorem satisfiable_iff_reaches_of_validate_label :
    labelModel.validate = .ok () ∧ labelModel.Includes (.member tagsMember) ∧
      tagsMember.traits.length? = some ⟨some 1, some 2⟩ ∧
      (LengthBounds.Satisfiable ⟨some 1, some 2⟩ ↔ LengthBounds.Reaches ⟨some 1, some 2⟩) ∧
      LengthBounds.flaw ⟨none, some 3⟩ = none ∧
      (LengthBounds.Satisfiable ⟨none, some 3⟩ ↔ LengthBounds.Reaches ⟨none, some 3⟩) := by
  have hincludes : labelModel.Includes (.member tagsMember) :=
    .member (by rfl : labelModel.shapes.get? (.ofText "a#Label") = some label)
      (.named (by rfl : Table.get? _ "tags" = some _))
  refine ⟨validate_labelModel, hincludes, rfl, ?_, rfl, ?_⟩
  · exact (satisfiable_iff_reaches_of_validate _).2 _ _ validate_labelModel hincludes rfl
  · exact (satisfiable_iff_reaches_of_validate _).1 rfl

/-- A text of at most minus one characters. -/
def negativeMost : Shape :=
  ⟨.simple .string, .ofList [.length ⟨none, some (-1)⟩]⟩

def negativeMostModel : Model :=
  .ofShapes [(.ofText "a#B", negativeMost)]

/-- A negative upper bound alone is let through, and then there is no size left. -/
theorem not_contains_of_validate :
    negativeMostModel.validate = .ok () ∧ negativeMostModel.Includes (.shape negativeMost) ∧
      negativeMost.traits.length? = some ⟨none, some (-1)⟩ ∧
      ∀ n, LengthBounds.contains ⟨none, some (-1)⟩ n = false := by
  refine ⟨by decide +kernel, ?_, rfl, ?_⟩
  · exact .shape (by rfl : negativeMostModel.shapes.get? (.ofText "a#B") = some negativeMost)
  · exact LengthBounds.not_contains_of_negative rfl (by decide)

end Model

end ShapeModel
