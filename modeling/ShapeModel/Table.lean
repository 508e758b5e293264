import ShapeModel.Table.Entries

/-!
# Tables

Finite maps with a canonical form: the entries in strictly ascending key order. Two tables with
the same look-ups are equal.
-/

namespace ShapeModel

set_option autoImplicit false

structure Table (κ α : Type) [Ord κ] where
  entries : List (κ × α)
  ascending : Entries.Ascending entries

namespace Table

variable {κ α β : Type} [Ord κ]

def empty : Table κ α := ⟨[], .nil⟩

instance : Inhabited (Table κ α) := ⟨empty⟩

def get? (t : Table κ α) (k : κ) : Option α :=
  Entries.find? k t.entries

def contains (t : Table κ α) (k : κ) : Bool :=
  (t.get? k).isSome

def keys (t : Table κ α) : List κ :=
  t.entries.map (·.1)

def values (t : Table κ α) : List α :=
  t.entries.map (·.2)

def size (t : Table κ α) : Nat :=
  t.entries.length

def isEmpty (t : Table κ α) : Bool :=
  t.entries.isEmpty

instance [BEq κ] [BEq α] : BEq (Table κ α) := ⟨fun s t => s.entries == t.entries⟩

@[simp] theorem get?_empty (k : κ) : (empty : Table κ α).get? k = none := rfl

def erase (t : Table κ α) (k : κ) : Table κ α :=
  ⟨Entries.erase k t.entries, t.ascending.erase k⟩

variable [Std.LawfulEqOrd κ]

theorem mem_entries_iff {t : Table κ α} {k : κ} {a : α} :
    (k, a) ∈ t.entries ↔ t.get? k = some a :=
  Entries.mem_iff_find? t.ascending

@[simp] theorem get?_erase_self (t : Table κ α) (k : κ) : (t.erase k).get? k = none :=
  Entries.find?_erase_self t.ascending

theorem get?_erase_of_ne (t : Table κ α) {k k' : κ} (h : k' ≠ k) :
    (t.erase k).get? k' = t.get? k' :=
  Entries.find?_erase_of_ne h t.entries

variable [Std.TransOrd κ]

def insert (t : Table κ α) (k : κ) (a : α) : Table κ α :=
  ⟨Entries.insert k a t.entries, t.ascending.insert k a⟩

def ofList (ps : List (κ × α)) : Table κ α :=
  ⟨Entries.ofList ps, Entries.ascending_ofList ps⟩

/-- Changes the value under a key where it stands; without one this fails. What a failing change
leaves of the value stays as well. -/
def changeAt {ε : Type} (t : Table κ α) (k : κ) (missing : ε) (change : α → α × Except ε Unit) :
    Table κ α × Except ε Unit :=
  match t.get? k with
  | none => (t, .error missing)
  | some a => (t.insert k (change a).1, (change a).2)

@[simp] theorem get?_insert_self (t : Table κ α) (k : κ) (a : α) :
    (t.insert k a).get? k = some a :=
  Entries.find?_insert_self k a t.entries

theorem get?_insert_of_ne (t : Table κ α) {k k' : κ} (h : k' ≠ k) (a : α) :
    (t.insert k a).get? k' = t.get? k' :=
  Entries.find?_insert_of_ne h a t.entries

theorem isEmpty_insert (t : Table κ α) (k : κ) (a : α) : (t.insert k a).isEmpty = false := by
  rw [isEmpty, List.isEmpty_eq_false_iff]
  intro h
  have hget := get?_insert_self t k a
  rw [get?, h] at hget
  cases hget

theorem ext_get? {s t : Table κ α} (h : ∀ k, s.get? k = t.get? k) : s = t := by
  obtain ⟨es, he⟩ := s
  obtain ⟨fs, hf⟩ := t
  obtain rfl : es = fs := he.ext hf h
  rfl

end Table

end ShapeModel
