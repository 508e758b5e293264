import ShapeModel.Table

/-!
# Entries and tables

What is found was put there, and what order changes are made in matters only where they are made to
the same key.
-/

namespace ShapeModel

set_option autoImplicit false

namespace Entries

variable {κ α : Type} [Ord κ]

instance (es : List (κ × α)) : Decidable (Ascending es) :=
  inferInstanceAs (Decidable (es.Pairwise _))

theorem insert_eq_append [Std.TransOrd κ] {k : κ} {es : List (κ × α)}
    (h : ∀ e ∈ es, compare e.1 k = .lt) (a : α) :
    insert k a es = es ++ [(k, a)] := by
  induction es with
  | nil => rfl
  | cons e es ih =>
    obtain ⟨j, b⟩ := e
    have hj : compare k j = .gt := Std.OrientedCmp.gt_iff_lt.mpr (h (j, b) List.mem_cons_self)
    have hrest := ih fun e he => h e (List.mem_cons_of_mem _ he)
    simp only [insert, hj, hrest, List.cons_append]

theorem mem_insertAll {es new : List (κ × α)} {e : κ × α} (h : e ∈ insertAll es new) :
    e ∈ new ∨ e ∈ es := by
  induction new generalizing es with
  | nil => exact .inr h
  | cons x new ih =>
    rcases ih h with h | h
    · exact .inl (List.mem_cons_of_mem _ h)
    · rcases mem_insert h with rfl | h
      · exact .inl List.mem_cons_self
      · exact .inr h

theorem mem_of_mem_ofList {es : List (κ × α)} {e : κ × α} (h : e ∈ ofList es) : e ∈ es := by
  rcases mem_insertAll h with h | h
  · exact h
  · cases h

variable [Std.LawfulEqOrd κ]

theorem mem_of_find? {k : κ} {a : α} {es : List (κ × α)}
    (h : find? k es = some a) : (k, a) ∈ es := by
  induction es with
  | nil => cases h
  | cons e es ih =>
    obtain ⟨j, b⟩ := e
    rw [find?] at h
    split at h
    · next hk =>
      cases h
      cases Std.LawfulEqOrd.eq_of_compare hk
      exact List.mem_cons_self
    · exact List.mem_cons_of_mem _ (ih h)

theorem find?_map {β : Type} (f : κ → α → β) (k : κ) (es : List (κ × α)) :
    find? k (es.map fun e => (e.1, f e.1 e.2)) = (find? k es).map (f k) := by
  induction es with
  | nil => rfl
  | cons e es ih =>
    obtain ⟨j, a⟩ := e
    rw [List.map_cons, find?, find?]
    by_cases h : compare k j = .eq
    · rw [if_pos h, if_pos h, Std.LawfulEqOrd.eq_of_compare h]
      rfl
    · rw [if_neg h, if_neg h, ih]

theorem find?_insertAll_of_forall_ne {k : κ} {es new : List (κ × α)} (h : ∀ e ∈ new, e.1 ≠ k) :
    find? k (insertAll es new) = find? k es := by
  induction new generalizing es with
  | nil => rfl
  | cons e new ih =>
    rw [insertAll_cons, ih fun e' he' => h e' (List.mem_cons_of_mem _ he')]
    exact find?_insert_of_ne (h e List.mem_cons_self).symm _ _

/-- The value of a key that new entries give no other value for. -/
theorem find?_insertAll_of_mem {k : κ} {a : α} {es new : List (κ × α)}
    (hnew : ∀ b, (k, b) ∈ new → b = a) (h : (k, a) ∈ new ∨ find? k es = some a) :
    find? k (insertAll es new) = some a := by
  induction new generalizing es with
  | nil =>
    rcases h with h | h
    · cases h
    · exact h
  | cons e new ih =>
    obtain ⟨j, b⟩ := e
    rw [insertAll_cons]
    apply ih fun c hc => hnew c (List.mem_cons_of_mem _ hc)
    by_cases hj : k = j
    · subst hj
      rw [hnew b List.mem_cons_self]
      exact .inr (find?_insert_self _ _ _)
    · rcases h with h | h
      · rcases List.mem_cons.mp h with h | h
        · exact absurd (Prod.mk.inj h).1 hj
        · exact .inl h
      · rw [find?_insert_of_ne hj]
        exact .inr h

/-- New entries come before those that were there. -/
theorem Ascending.find?_insertAll {new : List (κ × α)} (h : Ascending new) (k : κ)
    (es : List (κ × α)) : find? k (Entries.insertAll es new) = (find? k new).or (find? k es) := by
  cases hk : find? k new with
  | none =>
    apply find?_insertAll_of_forall_ne
    rintro ⟨j, a⟩ hmem rfl
    cases hk.symm.trans ((mem_iff_find? h).mp hmem)
  | some a =>
    refine find?_insertAll_of_mem (fun b hb => ?_) (.inl ((mem_iff_find? h).mpr hk))
    exact Option.some.inj (((mem_iff_find? h).mp hb).symm.trans hk)

variable [Std.TransOrd κ]

theorem insert_eq_self {k : κ} {a : α} {es : List (κ × α)} (hes : Ascending es)
    (h : find? k es = some a) : insert k a es = es := by
  apply (hes.insert k a).ext hes
  intro j
  by_cases hj : j = k
  · rw [hj, find?_insert_self, h]
  · exact find?_insert_of_ne hj a es

theorem Ascending.ofList_eq {es : List (κ × α)} (hes : Ascending es) : ofList es = es := by
  apply (ascending_ofList es).ext hes
  intro k
  rw [ofList, hes.find?_insertAll, find?_nil, Option.or_none]

end Entries

namespace Table

variable {κ α β : Type} [Ord κ]

theorem ext_entries {s t : Table κ α} (h : s.entries = t.entries) : s = t := by
  cases s
  cases t
  congr

/-- Each item changed. -/
def map (f : κ → α → β) (t : Table κ α) : Table κ β :=
  ⟨t.entries.map fun e => (e.1, f e.1 e.2), t.ascending.map f⟩

theorem get?_map [Std.LawfulEqOrd κ] (f : κ → α → β) (t : Table κ α) (k : κ) :
    (t.map f).get? k = (t.get? k).map (f k) :=
  Entries.find?_map f k t.entries

variable [Std.TransOrd κ] [Std.LawfulEqOrd κ]

theorem insert_insert (t : Table κ α) (k : κ) (a b : α) :
    (t.insert k a).insert k b = t.insert k b := by
  apply ext_get?
  intro j
  by_cases hj : j = k
  · rw [hj, get?_insert_self, get?_insert_self]
  · rw [get?_insert_of_ne _ hj, get?_insert_of_ne _ hj, get?_insert_of_ne _ hj]

theorem insert_comm (t : Table κ α) {k j : κ} (h : k ≠ j) (a b : α) :
    (t.insert k a).insert j b = (t.insert j b).insert k a := by
  apply ext_get?
  intro i
  by_cases hk : i = k
  · subst hk
    rw [get?_insert_of_ne _ h, get?_insert_self, get?_insert_self]
  · rw [get?_insert_of_ne _ hk]
    by_cases hj : i = j
    · rw [hj, get?_insert_self, get?_insert_self]
    · rw [get?_insert_of_ne _ hj, get?_insert_of_ne _ hj, get?_insert_of_ne _ hk]

theorem insert_eq_self {t : Table κ α} {k : κ} {a : α} (h : t.get? k = some a) :
    t.insert k a = t := by
  obtain ⟨es, hes⟩ := t
  simp only [insert, Entries.insert_eq_self hes h]

/-- A change that takes itself back when it fails leaves the whole table as it was when it fails. -/
theorem changeAt_eq_self {ε : Type} {t : Table κ α} {k : κ} {missing e : ε}
    {change : α → α × Except ε Unit}
    (hchange : ∀ a, t.get? k = some a → ∀ e, (change a).2 = .error e → (change a).1 = a)
    (h : (t.changeAt k missing change).2 = .error e) : (t.changeAt k missing change).1 = t := by
  unfold changeAt at h ⊢
  cases ha : t.get? k with
  | none => rfl
  | some a =>
    simp only [ha] at h ⊢
    rw [hchange a ha e h]
    exact insert_eq_self ha

theorem erase_insert_self {t : Table κ α} {k : κ} (h : t.get? k = none) (a : α) :
    (t.insert k a).erase k = t := by
  apply ext_get?
  intro j
  by_cases hj : j = k
  · rw [hj, get?_erase_self, h]
  · rw [get?_erase_of_ne _ hj, get?_insert_of_ne _ hj]

theorem mem_of_get?_ofList {ps : List (κ × α)} {k : κ} {a : α} (h : (ofList ps).get? k = some a) :
    (k, a) ∈ ps :=
  Entries.mem_of_mem_ofList (Entries.mem_of_find? h)

end Table

end ShapeModel
