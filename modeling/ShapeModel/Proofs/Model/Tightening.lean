import Mathlib
import ShapeModel.Proofs.Faults
import ShapeModel.Proofs.Model.AddTrait
import ShapeModel.Proofs.Trait.Decode

/-!
# More constraints, fewer values

A model is tightened by traits that are added here and there, as long as none is lost and no member
of an enumeration gets another value. What conforms in the tightened model conformed before.
-/

namespace ShapeModel

set_option autoImplicit false

/-- No trait is lost or replaced, and the value that is given for a member of an enumeration, if
any, is the same. -/
structure Traits.Tightened (ts ts' : Traits) : Prop where
  kept : ∀ name t, ts.get? name = some t → ts'.get? name = some t
  enumValue : ts'.enumValue? = ts.enumValue?

structure Member.Tightened (x x' : Member) : Prop where
  target : x'.target = x.target
  traits : x.traits.Tightened x'.traits

def Members.Tightened (ms ms' : Members) : Prop :=
  ∀ name, Option.Rel Member.Tightened (ms.get? name) (ms'.get? name)

/-- Only members that have names are tightened. -/
inductive Shape.Body.Tightened : Shape.Body → Shape.Body → Prop
  | same (b : Shape.Body) : Tightened b b
  | members {k : AggregateKind} {ms ms' : Members} : ms.Tightened ms' →
      Tightened (.aggregate k ms) (.aggregate k ms')

structure Shape.Tightened (s s' : Shape) : Prop where
  body : s.body.Tightened s'.body
  traits : s.traits.Tightened s'.traits

/-- The second model is the first with more traits. -/
def Model.Tightened (m m' : Model) : Prop :=
  ∀ id, Option.Rel Shape.Tightened (m.shapes.get? id) (m'.shapes.get? id)

section

variable {ts : Traits}

theorem Traits.length?_eq_some_iff {b : LengthBounds} :
    ts.length? = some b ↔ ts.get? Trait.Kind.length.name = some (.length b) := by
  unfold length?
  split <;> simp_all

theorem Traits.range?_eq_some_iff {b : RangeBounds} :
    ts.range? = some b ↔ ts.get? Trait.Kind.range.name = some (.range b) := by
  unfold range?
  split <;> simp_all

theorem Traits.pattern?_eq_some_iff {p : String} :
    ts.pattern? = some p ↔ ts.get? Trait.Kind.pattern.name = some (.pattern p) := by
  unfold pattern?
  split <;> simp_all

end

namespace Traits.Tightened

variable {ts ts' : Traits}

theorem refl (ts : Traits) : ts.Tightened ts :=
  ⟨fun _ _ ht => ht, rfl⟩

theorem has {k : Trait.Kind} (h : ts.Tightened ts') (hk : ts.has k = true) : ts'.has k = true := by
  obtain ⟨t, ht⟩ := Option.isSome_iff_exists.mp hk
  exact Option.isSome_iff_exists.mpr ⟨t, h.kept _ t ht⟩

theorem meets [PatternEngine] {v : Value} (h : ts.Tightened ts') (hv : v.Meets ts') :
    v.Meets ts where
  length b n hb := by
    refine hv.length b n (Traits.length?_eq_some_iff.mpr ?_)
    exact h.kept _ _ (Traits.length?_eq_some_iff.mp hb)
  range b n x hb := by
    refine hv.range b n x (Traits.range?_eq_some_iff.mpr ?_)
    exact h.kept _ _ (Traits.range?_eq_some_iff.mp hb)
  pattern p q t hp := by
    refine hv.pattern p q t (Traits.pattern?_eq_some_iff.mpr ?_)
    exact h.kept _ _ (Traits.pattern?_eq_some_iff.mp hp)

end Traits.Tightened

theorem Member.Tightened.refl (x : Member) : x.Tightened x :=
  ⟨rfl, .refl x.traits⟩

theorem Shape.Tightened.refl (s : Shape) : s.Tightened s :=
  ⟨.same s.body, .refl s.traits⟩

/-- A member of an enumeration stands for the same values as before. -/
theorem Member.Tightened.denotes {x x' : Member} {name : String} {ints : Bool} {v : Value}
    (h : x.Tightened x') (hv : x'.Denotes name ints v) : x.Denotes name ints v := by
  cases hv with
  | given hw hsame => exact .given (h.traits.enumValue ▸ hw) hsame
  | name hnone => exact .name (h.traits.enumValue ▸ hnone)

section

variable {α β : Type} {r : α → β → Prop} {a : Option α} {b : Option β} {x : α} {y : β}

theorem exists_of_rel_left (h : Option.Rel r a b) (hx : a = some x) : ∃ y, b = some y ∧ r x y := by
  subst hx
  cases h with
  | some hr => exact ⟨_, rfl, hr⟩

theorem exists_of_rel_right (h : Option.Rel r a b) (hy : b = some y) :
    ∃ x, a = some x ∧ r x y := by
  subst hy
  cases h with
  | some hr => exact ⟨_, rfl, hr⟩

end

theorem Members.Tightened.refl (ms : Members) : ms.Tightened ms := by
  intro name
  cases ms.get? name with
  | none => exact .none
  | some x => exact .some (.refl x)

/-- Aggregates come from aggregates of the same kind. -/
theorem Shape.Body.Tightened.exists_aggregate {b : Shape.Body} {k : AggregateKind} {ms' : Members}
    (h : b.Tightened (.aggregate k ms')) : ∃ ms : Members, b = .aggregate k ms ∧
      ms.Tightened ms' := by
  cases h with
  | same => exact ⟨ms', rfl, .refl ms'⟩
  | members hms => exact ⟨_, rfl, hms⟩

namespace Model

section

variable {m m' : Model} {id : Identifier}

theorem Tightened.exists_shape {s' : Shape} (h : m.Tightened m')
    (hs' : m'.find? id = some (.shape s')) :
    ∃ s, m.find? id = some (.shape s) ∧ s.Tightened s' := by
  cases hid : id.member with
  | none =>
    rw [find?_of_member_eq_none hid] at hs' ⊢
    obtain ⟨_, hget, ⟨⟩⟩ := Option.map_eq_some_iff.mp hs'
    obtain ⟨s, hs, hst⟩ := exists_of_rel_right (h id.root) hget
    exact ⟨s, by rw [hs]; rfl, hst⟩
  | some name =>
    rw [find?_of_member_eq_some hid] at hs'
    obtain ⟨_, -, hx⟩ := Option.map_eq_some_iff.mp hs'
    cases hx

theorem Tightened.exists_member {x' : Member} (h : m.Tightened m')
    (hx' : m'.find? id = some (.member x')) :
    ∃ x, m.find? id = some (.member x) ∧ x.Tightened x' := by
  cases hid : id.member with
  | none =>
    rw [find?_of_member_eq_none hid] at hx'
    obtain ⟨_, -, hs⟩ := Option.map_eq_some_iff.mp hx'
    cases hs
  | some name =>
    rw [find?_of_member_eq_some hid] at hx' ⊢
    obtain ⟨_, hget, ⟨⟩⟩ := Option.map_eq_some_iff.mp hx'
    obtain ⟨s', hs', hget⟩ := Option.bind_eq_some_iff.mp hget
    obtain ⟨s, hs, hst⟩ := exists_of_rel_right (h id.root) hs'
    obtain ⟨k, ms', hbody', hget⟩ := Shape.exists_aggregate_of_member? hget
    obtain ⟨ms, hbody, hms⟩ := (hbody' ▸ hst.body).exists_aggregate
    obtain ⟨x, hx, hxt⟩ := exists_of_rel_right (hms name) hget
    exact ⟨x, by rw [hs, Option.bind_some, Shape.member?_eq hbody, hx]; rfl, hxt⟩

variable [PatternEngine]

mutual

/-- The recursion is that of the derivation. Every trait that it uses was there before or is only
asked for in addition. -/
theorem MemberConforms.loosen {v : Value} {x x' : Member} (h : m.Tightened m')
    (hx : x.Tightened x') : m'.MemberConforms v x' → m.MemberConforms v x
  | .intro hmeets hs' hv => by
    obtain ⟨s, hs, hst⟩ := h.exists_shape hs'
    rw [hx.target] at hs
    exact .intro (hx.traits.meets hmeets) hs (hv.loosen h hst)

theorem Conforms.loosen {v : Value} {s s' : Shape} (h : m.Tightened m') (hs : s.Tightened s') :
    m'.Conforms v s' → m.Conforms v s
  | .intro hmeets hv => .intro (hs.traits.meets hmeets) (hv.loosen h hs.traits hs.body)

theorem Fits.loosen {v : Value} {ts ts' : Traits} {b b' : Shape.Body} (h : m.Tightened m')
    (hts : ts.Tightened ts') (hb : b.Tightened b') : m'.Fits v ts' b' → m.Fits v ts b
  | .simple hv => by
    cases hb
    exact .simple hv
  | .collection hv hunique => by
    cases hb
    refine .collection (fun w hw => (hv w hw).loosen h (.refl _)) ?_
    exact fun hk => hunique (hk.imp_right hts.has)
  | .map hk hv => by
    cases hb
    exact .map (fun name w hw => (hk name w hw).loosen h (.refl _))
      fun name w hw => (hv name w hw).loosen h (.refl _)
  | .aggregate hk hn hv hr => by
    obtain ⟨ms, rfl, hms⟩ := hb.exists_aggregate
    refine .aggregate hk ?named ?fits ?required
    case named =>
      intro name w hw
      obtain ⟨x', hx'⟩ := hn name w hw
      obtain ⟨x, hx, -⟩ := exists_of_rel_right (hms name) hx'
      exact ⟨x, hx⟩
    case fits =>
      intro name w x hw hx
      obtain ⟨x', hx', hxt⟩ := exists_of_rel_left (hms name) hx
      exact (hv name w x' hw hx').loosen h hxt
    case required =>
      intro name x hx hreq
      obtain ⟨x', hx', hxt⟩ := exists_of_rel_left (hms name) hx
      exact hr name x' hx' (hxt.traits.has hreq)
  | .enum hx' hv => by
    obtain ⟨ms, rfl, hms⟩ := hb.exists_aggregate
    obtain ⟨x, hx, hxt⟩ := exists_of_rel_right (hms _) hx'
    exact .enum hx (hxt.denotes hv)
  | .intEnum hx' hv => by
    obtain ⟨ms, rfl, hms⟩ := hb.exists_aggregate
    obtain ⟨x, hx, hxt⟩ := exists_of_rel_right (hms _) hx'
    exact .intEnum hx (hxt.denotes hv)

end

theorem Tightened.conformsTo {v : Value} (h : m.Tightened m') (hv : m'.ConformsTo v id) :
    m.ConformsTo v id := by
  rcases hv with ⟨s', hs', hv⟩ | ⟨x', hx', hv⟩
  · obtain ⟨s, hs, hst⟩ := h.exists_shape hs'
    exact .inl ⟨s, hs, hv.loosen h hst⟩
  · obtain ⟨x, hx, hxt⟩ := h.exists_member hx'
    exact .inr ⟨x, hx, hv.loosen h hxt⟩

end

end Model

/-- The kinds of trait that constrain values. -/
def Trait.Kind.constraints : List Trait.Kind :=
  [.required, .length, .range, .pattern, .uniqueItems]

/-- A trait under a free name. -/
theorem Traits.tightened_add {ts : Traits} {t : Trait} (hfree : ts.get? t.name = none)
    (hname : t.name ≠ Trait.Kind.enumValue.name) : ts.Tightened (ts.add t) where
  kept name u hu := by
    rw [get?_add, if_neg, hu]
    rintro rfl
    cases hfree.symm.trans hu
  enumValue := by
    rw [enumValue?, get?_add, if_neg hname.symm, enumValue?]

theorem Members.tightened_insert {ms : Members} {name : String} {x x' : Member}
    (hx : ms.get? name = some x) (h : x.Tightened x') : ms.Tightened (ms.insert name x') := by
  intro k
  by_cases hk : k = name
  · rw [hk, hx, Table.get?_insert_self]
    exact .some h
  · rw [Table.get?_insert_of_ne _ hk]
    exact Members.Tightened.refl ms k

theorem Shape.tightened_of_updateTraits? {s s' : Shape} {id : Identifier} {f : Traits → Traits}
    (h : s.updateTraits? id f = some s')
    (hf : ∀ ts, s.traits? id.member = some ts → ts.Tightened (f ts)) : s.Tightened s' := by
  rw [updateTraits?] at h
  split at h
  · next hid =>
    cases h
    exact ⟨.same s.body, hf s.traits (by rw [hid, traits?])⟩
  · next name hid =>
    obtain ⟨k, ms, x, hbody, hx, rfl⟩ := exists_of_updateMember? h
    have hxf := hf x.traits (by rw [hid, traits?, member?_eq hbody, hx]; rfl)
    exact ⟨hbody ▸ .members (Members.tightened_insert hx ⟨rfl, hxf⟩), .refl s.traits⟩

namespace Model

variable {m m' : Model} {id : Identifier} {f : Traits → Traits}

theorem tightened_of_updateTraits (h : m.updateTraits id f = .ok m')
    (hf : ∀ ts, m.traits? id = some ts → ts.Tightened (f ts)) : m.Tightened m' := by
  obtain ⟨s, s', hs, hs', rfl⟩ := exists_of_updateTraits h
  intro k
  rw [insertShape]
  by_cases hk : k = id.root
  · rw [hk, hs, Table.get?_insert_self]
    refine .some (Shape.tightened_of_updateTraits? hs' fun ts hts => hf ts ?_)
    rw [traits?_eq, hs, Option.bind_some, hts]
  · rw [Table.get?_insert_of_ne _ hk]
    cases m.shapes.get? k with
    | none => exact .none
    | some s => exact .some (.refl s)

/-- Whatever the model, a trait that only constrains values lets no more values pass than before,
at whatever shape or member. -/
theorem checkValue_of_addTrait [PatternEngine] {x : Identifier} {t : Trait}
    (hx : (m.find? x).isSome = true) (ht : ∃ k ∈ Trait.Kind.constraints, t.name = k.name)
    (hfree : m.trait? x t.name = none) :
    ∃ m', m.addTrait t x = .ok m' ∧
      ∀ v id, m'.checkValue v id = .ok () → m.checkValue v id = .ok () := by
  obtain ⟨m', hm'⟩ := exists_addTrait hx t
  refine ⟨m', hm', fun v id hv => ?_⟩
  have hname : t.name ≠ Trait.Kind.enumValue.name := by
    obtain ⟨k, hk, hkt⟩ := ht
    intro heq
    rw [hkt] at heq
    rw [Trait.Kind.name_inj heq] at hk
    exact absurd hk (by decide)
  have htightened : m.Tightened m' := by
    refine tightened_of_updateTraits hm' fun ts hts => Traits.tightened_add ?_ hname
    rw [trait?_eq, hts] at hfree
    exact hfree
  exact (htightened.conformsTo (conformsTo_of_checkValue hv)).checkValue

/-- One tag at most, for every node of a chain of two. -/
theorem checkValue_of_addTrait_chain :
    let t := Trait.length ⟨none, some 1⟩
    let v := Value.object [("next", .object [("tags", .array [.string "x"])]),
      ("tags", .array [.string "y"])]
    ∃ m', chainModel.addTrait t (.ofText "a#Node$tags") = .ok m' ∧
      m'.checkValue v (.ofText "a#Node") = .ok () ∧
      chainModel.checkValue v (.ofText "a#Node") = .ok () := by
  intro t v
  have hx : (chainModel.find? (.ofText "a#Node$tags")).isSome = true := by
    decide +kernel
  have hfree : chainModel.trait? (.ofText "a#Node$tags") t.name = none :=
    Option.isNone_iff_eq_none.mp (by decide +kernel)
  have ht : ∃ k ∈ Trait.Kind.constraints, t.name = k.name :=
    ⟨.length, by decide, Trait.name_of_kind? rfl⟩
  have hafter : (chainModel.addTrait t (.ofText "a#Node$tags")).bind
      (·.checkValue v (.ofText "a#Node")) = .ok () := by
    decide +kernel
  obtain ⟨m', hm', h⟩ := checkValue_of_addTrait hx ht hfree
  rw [hm'] at hafter
  exact ⟨m', hm', hafter, h v _ hafter⟩

end Model

end ShapeModel
