import ShapeModel.Proofs.Model.Additions
import ShapeModel.Proofs.Table.Keys

/-!
# Traits under their names

A table of traits that is decoded, by whatever decoders, and changed in whatever way has each trait
under the name of the trait itself, and not under one that a decoder was registered for. So there is
one trait of each name, and the order in which traits are added matters only where names are equal.
-/

namespace ShapeModel.Traits

set_option autoImplicit false

/-- A change of a table of traits. -/
inductive Change
  | add (t : Trait)
  | remove (k : Trait.Kind)
  | removeByName (name : String)

def change (ts : Traits) : Change → Traits
  | .add t => ts.add t
  | .remove k => ts.erase k.name
  | .removeByName name => ts.erase name

/-- The tables that come about by changes, from the empty one or from one that is decoded. -/
inductive Reachable : Traits → Prop
  | empty : Reachable .empty
  | decoded {r : TraitRegistry} {v : Value} {ts : Traits} : decode r v = .ok ts → Reachable ts
  | changed {ts : Traits} (c : Change) : Reachable ts → Reachable (ts.change c)

variable {ts : Traits}

theorem Keyed.erase (h : ts.Keyed) (name : String) : Keyed (ts.erase name) := by
  intro k t ht
  by_cases hk : k = name
  · rw [hk, Table.get?_erase_self] at ht
    cases ht
  · exact h k t ((Table.get?_erase_of_ne ts hk).symm.trans ht)

theorem Keyed.change (h : ts.Keyed) (c : Change) : (ts.change c).Keyed := by
  cases c with
  | add t => exact h.add t
  | remove k => exact h.erase k.name
  | removeByName name => exact h.erase name

theorem Reachable.keyed (h : ts.Reachable) : ts.Keyed := by
  induction h with
  | empty => exact keyed_empty
  | decoded h => exact keyed_of_decode h
  | changed c _ ih => exact ih.change c

/-- The names of the traits, in their order, are the keys. -/
theorem Keyed.map_name (h : ts.Keyed) : ts.values.map Trait.name = ts.keys := by
  rw [Table.values, List.map_map, Table.keys]
  exact List.map_congr_left fun e he => h e.1 e.2 (Table.mem_entries_iff.mp he)

theorem Keyed.ascending_names (h : ts.Keyed) : (ts.values.map Trait.name).Pairwise (· < ·) := by
  rw [h.map_name, Table.keys, List.pairwise_map]
  exact ts.ascending.imp compareOfLessAndEq_eq_lt.mp

theorem Keyed.countP_name (h : ts.Keyed) (name : String) :
    ts.values.countP (·.name = name) = if ts.contains name = true then 1 else 0 := by
  have hcount : ts.values.countP (·.name = name) = ts.keys.count name := by
    rw [← h.map_name, List.count_eq_countP, List.countP_map]
    rfl
  rw [hcount, ts.nodup_keys.count]
  simp only [Table.mem_keys_iff]

theorem add_comm_of_name_ne (ts : Traits) {t u : Trait} (h : t.name ≠ u.name) :
    (ts.add t).add u = (ts.add u).add t :=
  Table.insert_comm ts h t u

theorem add_add_of_name_eq (ts : Traits) {t u : Trait} (h : t.name = u.name) :
    (ts.add t).add u = ts.add u := by
  rw [add, add, add, h, Table.insert_insert]

/-- The traits of a table are known by their names, and the table does not depend on how they came
into it. -/
structure ByName (ts : Traits) : Prop where
  keyed : ∀ e ∈ ts.entries, e.2.name = e.1
  ascending : (ts.values.map Trait.name).Pairwise (· < ·)
  unique : ∀ name, ts.contains name = true ↔ ts.values.countP (·.name = name) = 1
  comm : ∀ t u : Trait, t.name ≠ u.name → (ts.add t).add u = (ts.add u).add t
  last : ∀ t u : Trait, t.name = u.name →
    (ts.add t).add u = ts.add u ∧ (ts.add u).get? t.name = some u

/-- Whatever decoders and changes a table of traits comes from, its traits are known by their
names. -/
theorem byName_of_reachable (h : ts.Reachable) : ts.ByName where
  keyed e he := h.keyed e.1 e.2 (Table.mem_entries_iff.mp he)
  ascending := h.keyed.ascending_names
  unique name := by
    rw [h.keyed.countP_name]
    split
    · next hname => exact iff_of_true hname rfl
    · next hname => exact iff_of_false hname Nat.zero_ne_one
  comm _ _ hne := add_comm_of_name_ne ts hne
  last t u hname := ⟨add_add_of_name_eq ts hname, by rw [hname, add, Table.get?_insert_self]⟩

/-- Two decoders give their traits one name, which is none that they are registered for. -/
def collidingRegistry : TraitRegistry :=
  ⟨"colliding",
    .ofList [("a", fun _ v => .ok (.custom "c" v)), ("b", fun _ v => .ok (.custom "c" v))]⟩

def collidedTraits : Traits :=
  (add .empty (.custom "c" .null)).add (.custom "c" (.bool true))

theorem byName_of_reachable_collided :
    decode collidingRegistry (.ofPairs [("a", .null), ("b", .bool true)]) = .ok collidedTraits ∧
      (collidedTraits.change (.add .required)).ByName ∧
      (collidedTraits.change (.add .required)).get? "c" = some (.custom "c" (.bool true)) ∧
      (collidedTraits.change (.add .required)).values.map Trait.name =
        ["c", "smithy.api#required"] := by
  have hdecode : decode collidingRegistry (.ofPairs [("a", .null), ("b", .bool true)]) =
      .ok collidedTraits := rfl
  exact ⟨hdecode, byName_of_reachable (.changed (.add .required) (.decoded hdecode)), rfl, rfl⟩

end ShapeModel.Traits
