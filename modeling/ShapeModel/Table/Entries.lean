/-!
# Entries in key order

Looking up, writing and erasing in a list of pairs that is kept in strictly ascending key order.
The main statements say what a later look-up sees of each change, that the order is kept, and
that ascending entries are determined by their look-ups.
-/

namespace ShapeModel.Entries

set_option autoImplicit false

variable {κ α β : Type} [Ord κ]

/-- Keys go up strictly, so each occurs once. -/
def Ascending (es : List (κ × α)) : Prop :=
  es.Pairwise fun a b => compare a.1 b.1 = .lt

def find? (k : κ) : List (κ × α) → Option α
  | [] => none
  | (k', a) :: es => if compare k k' = .eq then some a else find? k es

/-- Writes `a` at `k`, over what is there if anything is. -/
def insert (k : κ) (a : α) : List (κ × α) → List (κ × α)
  | [] => [(k, a)]
  | (k', a') :: es =>
    match compare k k' with
    | .lt => (k, a) :: (k', a') :: es
    | .eq => (k, a) :: es
    | .gt => (k', a') :: insert k a es

def erase (k : κ) : List (κ × α) → List (κ × α)
  | [] => []
  | (k', a') :: es => if compare k k' = .eq then es else (k', a') :: erase k es

/-- Writes all of `new`, first to last. -/
def insertAll (es new : List (κ × α)) : List (κ × α) :=
  new.foldl (fun es e => insert e.1 e.2 es) es

/-- The entries of pairs in any order; of two with one key the later is kept. -/
def ofList (ps : List (κ × α)) : List (κ × α) :=
  insertAll [] ps

@[simp] theorem find?_nil (k : κ) : find? k ([] : List (κ × α)) = none := rfl

@[simp] theorem insertAll_nil (es : List (κ × α)) : insertAll es [] = es := rfl

@[simp] theorem insertAll_cons (es new : List (κ × α)) (e : κ × α) :
    insertAll es (e :: new) = insertAll (insert e.1 e.2 es) new := rfl

theorem Ascending.nil : Ascending ([] : List (κ × α)) := List.Pairwise.nil

theorem Ascending.tail {e : κ × α} {es : List (κ × α)} (h : Ascending (e :: es)) : Ascending es :=
  (List.pairwise_cons.1 h).2

theorem Ascending.head_lt {e e' : κ × α} {es : List (κ × α)} (h : Ascending (e :: es))
    (he : e' ∈ es) : compare e.1 e'.1 = .lt :=
  (List.pairwise_cons.1 h).1 e' he

theorem mem_insert {k : κ} {a : α} {es : List (κ × α)} {e : κ × α} (h : e ∈ insert k a es) :
    e = (k, a) ∨ e ∈ es := by
  induction es with
  | nil => simpa [insert] using h
  | cons x es ih =>
    obtain ⟨j, b⟩ := x
    simp only [insert] at h
    split at h
    · simpa using h
    · rcases List.mem_cons.1 h with h | h
      · exact .inl h
      · exact .inr (List.mem_cons_of_mem _ h)
    · rcases List.mem_cons.1 h with h | h
      · exact .inr (h ▸ List.mem_cons_self)
      · exact (ih h).imp_right (List.mem_cons_of_mem _)

theorem mem_of_mem_erase {k : κ} {es : List (κ × α)} {e : κ × α} (h : e ∈ erase k es) :
    e ∈ es := by
  induction es with
  | nil => simp [erase] at h
  | cons x es ih =>
    simp only [erase] at h
    split at h
    · exact List.mem_cons_of_mem _ h
    · rcases List.mem_cons.1 h with h | h
      · exact h ▸ List.mem_cons_self
      · exact List.mem_cons_of_mem _ (ih h)

theorem Ascending.map {es : List (κ × α)} (h : Ascending es) (f : κ → α → β) :
    Ascending (es.map fun e => (e.1, f e.1 e.2)) :=
  List.pairwise_map.2 h

theorem find?_eq_none_of_lt {k : κ} {es : List (κ × α)}
    (h : ∀ e ∈ es, compare k e.1 = .lt) : find? k es = none := by
  induction es with
  | nil => rfl
  | cons e es ih =>
    have he := h e List.mem_cons_self
    simp [find?, he, ih fun e' he' => h e' (List.mem_cons_of_mem _ he')]

theorem Ascending.erase {es : List (κ × α)} (h : Ascending es) (k : κ) :
    Ascending (erase k es) := by
  induction es with
  | nil => exact h
  | cons e es ih =>
    simp only [Entries.erase]
    split
    · exact h.tail
    · exact List.pairwise_cons.2
        ⟨fun e' he' => h.head_lt (mem_of_mem_erase he'), ih h.tail⟩

variable [Std.LawfulEqOrd κ]

theorem find?_insert_self (k : κ) (a : α) (es : List (κ × α)) :
    find? k (insert k a es) = some a := by
  induction es with
  | nil => simp [insert, find?]
  | cons e es ih =>
    obtain ⟨k', a'⟩ := e
    simp only [insert]
    split
    · simp [find?]
    · simp [find?]
    · next h => simp [find?, h, ih]

theorem find?_insert_of_ne {k k' : κ} (h : k' ≠ k) (a : α) (es : List (κ × α)) :
    find? k' (insert k a es) = find? k' es := by
  have hk : compare k' k ≠ .eq := fun e => h (Std.LawfulEqOrd.eq_of_compare e)
  induction es with
  | nil => simp [insert, find?, h]
  | cons e es ih =>
    obtain ⟨j, b⟩ := e
    simp only [insert]
    split
    · simp [find?, h]
    · next e =>
      obtain rfl := Std.LawfulEqOrd.eq_of_compare e
      simp [find?, h]
    · simp [find?, ih]

theorem find?_insert (k k' : κ) (a : α) (es : List (κ × α)) [DecidableEq κ] :
    find? k' (insert k a es) = if k' = k then some a else find? k' es := by
  split
  · next h => rw [h, find?_insert_self]
  · next h => exact find?_insert_of_ne h a es

/-- Ascending entries hold a pair exactly when it is what the look-up of its key gives. -/
theorem mem_iff_find? {es : List (κ × α)} (h : Ascending es) {k : κ} {a : α} :
    (k, a) ∈ es ↔ find? k es = some a := by
  induction es with
  | nil => simp
  | cons e es ih =>
    obtain ⟨j, b⟩ := e
    by_cases hk : compare k j = .eq
    · obtain rfl := Std.LawfulEqOrd.eq_of_compare hk
      have hn : (k, a) ∉ es := fun he => by
        have hlt := h.head_lt he
        simp at hlt
      simp [find?, hn, eq_comm]
    · have hne : k ≠ j := fun e => hk (e ▸ Std.compare_self)
      simp [find?, hk, hne, ih h.tail]

theorem find?_erase_of_ne {k k' : κ} (h : k' ≠ k) (es : List (κ × α)) :
    find? k' (erase k es) = find? k' es := by
  induction es with
  | nil => rfl
  | cons e es ih =>
    obtain ⟨j, b⟩ := e
    simp only [erase]
    split
    · next hk =>
      obtain rfl := Std.LawfulEqOrd.eq_of_compare hk
      simp [find?, h]
    · simp [find?, ih]

theorem find?_erase_self {k : κ} {es : List (κ × α)} (h : Ascending es) :
    find? k (erase k es) = none := by
  induction es with
  | nil => rfl
  | cons e es ih =>
    obtain ⟨j, b⟩ := e
    simp only [erase]
    split
    · next hk =>
      obtain rfl := Std.LawfulEqOrd.eq_of_compare hk
      exact find?_eq_none_of_lt fun e' he' => h.head_lt he'
    · next hk => simp [find?, hk, ih h.tail]

variable [Std.TransOrd κ]

theorem Ascending.insert {es : List (κ × α)} (h : Ascending es) (k : κ) (a : α) :
    Ascending (insert k a es) := by
  induction es with
  | nil => simp [Entries.insert, Ascending]
  | cons e es ih =>
    obtain ⟨j, b⟩ := e
    simp only [Entries.insert]
    split
    · next hk =>
      refine List.pairwise_cons.2 ⟨fun e' he' => ?_, h⟩
      rcases List.mem_cons.1 he' with rfl | he'
      · exact hk
      · exact Std.TransCmp.lt_trans hk (h.head_lt he')
    · next hk =>
      obtain rfl := Std.LawfulEqOrd.eq_of_compare hk
      exact List.pairwise_cons.2 ⟨fun e' he' => h.head_lt he', h.tail⟩
    · next hk =>
      refine List.pairwise_cons.2 ⟨fun e' he' => ?_, ih h.tail⟩
      rcases mem_insert he' with rfl | he'
      · exact Std.OrientedCmp.gt_iff_lt.1 hk
      · exact h.head_lt he'

theorem Ascending.insertAll {es : List (κ × α)} (h : Ascending es) (new : List (κ × α)) :
    Ascending (insertAll es new) := by
  induction new generalizing es with
  | nil => exact h
  | cons e new ih => exact ih (h.insert e.1 e.2)

theorem ascending_ofList (ps : List (κ × α)) : Ascending (ofList ps) :=
  Ascending.nil.insertAll ps

/-- Ascending entries with the same look-ups are the same entries. -/
theorem Ascending.ext {es fs : List (κ × α)} (he : Ascending es) (hf : Ascending fs)
    (h : ∀ k, find? k es = find? k fs) : es = fs := by
  induction es generalizing fs with
  | nil =>
    cases fs with
    | nil => rfl
    | cons f fs => simpa [find?] using h f.1
  | cons e es ih =>
    cases fs with
    | nil => simpa [find?] using h e.1
    | cons f fs =>
      obtain ⟨k, a⟩ := e
      obtain ⟨j, b⟩ := f
      have hkj : k = j := by
        rcases hc : compare k j with _ | _ | _
        · have hn : find? k ((j, b) :: fs) = none :=
            find?_eq_none_of_lt fun e' he' => by
              rcases List.mem_cons.1 he' with rfl | he'
              · exact hc
              · exact Std.TransCmp.lt_trans hc (hf.head_lt he')
          have hk := h k
          rw [hn] at hk
          simp [find?] at hk
        · exact Std.LawfulEqOrd.eq_of_compare hc
        · have hc' := Std.OrientedCmp.gt_iff_lt.1 hc
          have hn : find? j ((k, a) :: es) = none :=
            find?_eq_none_of_lt fun e' he' => by
              rcases List.mem_cons.1 he' with rfl | he'
              · exact hc'
              · exact Std.TransCmp.lt_trans hc' (he.head_lt he')
          have hj := h j
          rw [hn] at hj
          simp [find?] at hj
      subst hkj
      have hab : a = b := by simpa [find?] using h k
      subst hab
      rw [ih he.tail hf.tail fun k' => ?_]
      by_cases hk : k' = k
      · subst hk
        rw [find?_eq_none_of_lt fun e' he' => he.head_lt he',
          find?_eq_none_of_lt fun e' he' => hf.head_lt he']
      · have hc : compare k' k ≠ .eq := fun e => hk (Std.LawfulEqOrd.eq_of_compare e)
        simpa [find?, hc] using h k'

end ShapeModel.Entries
