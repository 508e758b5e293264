import Mathlib.Data.List.Dedup
import ShapeModel.Proofs.Table.Entries

/-!
# Keys of a table

Every key of a table occurs in it once, and the keys are those that were put there.
-/

namespace ShapeModel

set_option autoImplicit false

variable {κ α : Type} [Ord κ] [Std.LawfulEqOrd κ]

theorem Entries.isSome_find?_insertAll {es new : List (κ × α)} {k : κ} :
    (find? k (insertAll es new)).isSome = true ↔
      k ∈ new.map (·.1) ∨ (find? k es).isSome = true := by
  induction new generalizing es with
  | nil => simp
  | cons e new ih =>
    rw [insertAll_cons, ih, List.map_cons, List.mem_cons]
    by_cases hk : k = e.1
    · simp [hk, find?_insert_self]
    · simp [hk, find?_insert_of_ne hk]

namespace Table

theorem nodup_keys (t : Table κ α) : t.keys.Nodup := by
  rw [keys, List.Nodup, List.pairwise_map]
  refine t.ascending.imp fun {e e'} hlt heq => ?_
  rw [heq, Std.ReflOrd.compare_self] at hlt
  cases hlt

theorem mem_keys_iff {t : Table κ α} {k : κ} : k ∈ t.keys ↔ t.contains k = true := by
  rw [contains, Option.isSome_iff_exists]
  simp [keys, mem_entries_iff]

variable [Std.TransOrd κ]

theorem mem_keys_insert_iff {t : Table κ α} {k j : κ} {a : α} :
    j ∈ (t.insert k a).keys ↔ j = k ∨ j ∈ t.keys := by
  by_cases hj : j = k
  · simp [mem_keys_iff, contains, hj]
  · simp [mem_keys_iff, contains, hj, get?_insert_of_ne]

/-- A key that is there stays one. -/
theorem keys_insert_perm_of_contains {t : Table κ α} {k : κ} (h : t.contains k = true) (a : α) :
    (t.insert k a).keys.Perm t.keys := by
  refine (List.perm_ext_iff_of_nodup (nodup_keys _) t.nodup_keys).mpr fun j => ?_
  rw [mem_keys_insert_iff, or_iff_right_of_imp]
  rintro rfl
  exact mem_keys_iff.mpr h

/-- A new key is one more. -/
theorem keys_insert_perm_cons {t : Table κ α} {k : κ} (h : t.contains k = false) (a : α) :
    (t.insert k a).keys.Perm (k :: t.keys) := by
  have hk : k ∉ t.keys := by
    rw [mem_keys_iff, h]
    exact Bool.false_ne_true
  have hnodup := List.nodup_cons.mpr ⟨hk, t.nodup_keys⟩
  refine (List.perm_ext_iff_of_nodup (nodup_keys _) hnodup).mpr fun j => ?_
  rw [mem_keys_insert_iff, List.mem_cons]

theorem mem_keys_ofList_iff {ps : List (κ × α)} {k : κ} :
    k ∈ (ofList ps).keys ↔ k ∈ ps.map (·.1) := by
  rw [mem_keys_iff]
  exact Entries.isSome_find?_insertAll.trans (or_iff_left Bool.false_ne_true)

/-- Of pairs with one key, one is left. -/
theorem keys_ofList_perm [DecidableEq κ] (ps : List (κ × α)) :
    (ofList ps).keys.Perm (ps.map (·.1)).dedup := by
  refine (List.perm_ext_iff_of_nodup (nodup_keys _) (List.nodup_dedup _)).mpr fun k => ?_
  rw [mem_keys_ofList_iff, List.mem_dedup]

end Table

end ShapeModel
