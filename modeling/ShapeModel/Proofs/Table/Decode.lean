import Mathlib.Data.List.Forall2
import ShapeModel.Proofs.Table.Entries

/-!
# Decoding entries into tables

Entries that are decoded one after the other, each under a key of its own. Writing one entry more,
or over one that is there, makes exactly this difference to the decoded table.
-/

namespace ShapeModel

set_option autoImplicit false

/-- Decodes entries in order, each into the table under a key made from its own. -/
def decodeInto {κ ι α β ε : Type} [Ord ι] [Std.TransOrd ι] [Std.LawfulEqOrd ι] (key : κ → ι)
    (f : κ → α → Except ε β) : List (κ × α) → Table ι β → Except ε (Table ι β)
  | [], t => .ok t
  | (k, a) :: es, t =>
    match f k a with
    | .ok b => decodeInto key f es (t.insert (key k) b)
    | .error e => .error e

section Decode

variable {κ ι α β ε : Type} [Ord ι] [Std.TransOrd ι] [Std.LawfulEqOrd ι]
variable {key : κ → ι} {f : κ → α → Except ε β} {es : List (κ × α)} {t t' : Table ι β}

/-- What stands in the table under another key makes no difference. -/
theorem decodeInto_insert_of_forall_ne {i : ι} (b : β) (h : decodeInto key f es t = .ok t')
    (hes : ∀ e ∈ es, key e.1 ≠ i) : decodeInto key f es (t.insert i b) = .ok (t'.insert i b) := by
  induction es generalizing t with
  | nil =>
    cases h
    rfl
  | cons e es ih =>
    obtain ⟨k, a⟩ := e
    rw [decodeInto] at h ⊢
    split at h
    · rw [Table.insert_comm _ (hes (k, a) List.mem_cons_self).symm]
      exact ih h fun e' he' => hes e' (List.mem_cons_of_mem _ he')
    · cases h

theorem get?_decodeInto_of_forall_ne {i : ι} (h : decodeInto key f es t = .ok t')
    (hes : ∀ e ∈ es, key e.1 ≠ i) : t'.get? i = t.get? i := by
  induction es generalizing t with
  | nil =>
    cases h
    rfl
  | cons e es ih =>
    obtain ⟨k, a⟩ := e
    rw [decodeInto] at h
    split at h
    · rw [ih h fun e' he' => hes e' (List.mem_cons_of_mem _ he')]
      exact Table.get?_insert_of_ne _ (hes (k, a) List.mem_cons_self).symm _
    · cases h

theorem exists_decodeInto (h : ∀ e ∈ es, ∃ b, f e.1 e.2 = .ok b) (t : Table ι β) :
    ∃ t', decodeInto key f es t = .ok t' := by
  induction es generalizing t with
  | nil => exact ⟨t, rfl⟩
  | cons e es ih =>
    obtain ⟨k, a⟩ := e
    obtain ⟨b, hb⟩ := h (k, a) List.mem_cons_self
    rw [decodeInto, hb]
    exact ih (fun e' he' => h e' (List.mem_cons_of_mem _ he')) _

/-- Entries under keys that differ are decoded each on its own. -/
theorem exists_of_mem_decodeInto (hes : es.Pairwise fun e e' => key e.1 ≠ key e'.1)
    (h : decodeInto key f es t = .ok t') {e : κ × α} (he : e ∈ es) :
    ∃ b, f e.1 e.2 = .ok b ∧ t'.get? (key e.1) = some b := by
  induction es generalizing t with
  | nil => cases he
  | cons e' es ih =>
    obtain ⟨hne, hrest⟩ := List.pairwise_cons.mp hes
    obtain ⟨k, a⟩ := e'
    rw [decodeInto] at h
    split at h
    · next b hb =>
      rcases List.mem_cons.mp he with rfl | he
      · refine ⟨b, hb, ?_⟩
        rw [get?_decodeInto_of_forall_ne h fun e' he' => (hne e' he').symm]
        exact Table.get?_insert_self _ _ _
      · exact ih hrest h he
    · cases h

variable [Ord κ] [Std.LawfulEqOrd κ]

theorem exists_of_decodeInto (hkey : ∀ j k, key j = key k → j = k) (hes : Entries.Ascending es)
    (h : decodeInto key f es t = .ok t') {k : κ} {a : α} (hk : Entries.find? k es = some a) :
    ∃ b, f k a = .ok b ∧ t'.get? (key k) = some b := by
  have hkeys : es.Pairwise fun e e' => key e.1 ≠ key e'.1 := by
    apply hes.imp
    intro e e' hlt heq
    simp [hkey _ _ heq] at hlt
  exact exists_of_mem_decodeInto hkeys h ((Entries.mem_iff_find? hes).mpr hk)

/-- What was not in the table before was decoded from an entry. -/
theorem exists_find?_of_decodeInto (hkey : ∀ j k, key j = key k → j = k)
    (hes : Entries.Ascending es) (h : decodeInto key f es t = .ok t') {k : κ} {b : β}
    (hbefore : t.get? (key k) = none) (hb : t'.get? (key k) = some b) :
    ∃ a, Entries.find? k es = some a ∧ f k a = .ok b := by
  cases hfind : Entries.find? k es with
  | none =>
    have hne (e : κ × α) (he : e ∈ es) : key e.1 ≠ key k := by
      intro hk
      obtain ⟨j, a⟩ := e
      obtain rfl : j = k := hkey _ _ hk
      cases hfind.symm.trans ((Entries.mem_iff_find? hes).mp he)
    rw [get?_decodeInto_of_forall_ne h hne, hbefore] at hb
    cases hb
  | some a =>
    obtain ⟨b', hf, hget⟩ := exists_of_decodeInto hkey hes h hfind
    obtain rfl := Option.some.inj (hget.symm.trans hb)
    exact ⟨a, rfl, hf⟩

variable [Std.TransOrd κ]

/-- Decoding entries with one written, where the others are decoded. -/
theorem decodeInto_insert (hkey : ∀ j k, key j = key k → j = k) (hes : Entries.Ascending es)
    (h : decodeInto key f es t = .ok t') (k : κ) (a : α) :
    decodeInto key f (Entries.insert k a es) t = (f k a).map (t'.insert (key k)) := by
  induction es generalizing t with
  | nil =>
    cases h
    rw [Entries.insert, decodeInto]
    cases f k a <;> rfl
  | cons e es ih =>
    obtain ⟨j, b⟩ := e
    have hlater (e : κ × α) (he : e ∈ es) (hk : key e.1 = key k) : compare j k = .lt := by
      rw [← hkey _ _ hk]
      exact hes.head_lt he
    rw [Entries.insert]
    split
    · next hlt =>
      have hne (e : κ × α) (he : e ∈ (j, b) :: es) : key e.1 ≠ key k := by
        intro hk
        rcases List.mem_cons.mp he with rfl | he
        · obtain rfl : j = k := hkey _ _ hk
          simp at hlt
        · exact absurd (Std.TransCmp.lt_trans hlt (hlater e he hk)) (by simp)
      rw [decodeInto]
      cases f k a with
      | error e => rfl
      | ok c => exact decodeInto_insert_of_forall_ne c h hne
    · next heq =>
      obtain rfl := Std.LawfulEqOrd.eq_of_compare heq
      have hne (e : κ × α) (he : e ∈ es) : key e.1 ≠ key k := by
        intro hk
        simpa using hlater e he hk
      rw [decodeInto] at h ⊢
      split at h
      · cases f k a with
        | error e => rfl
        | ok c =>
          have hover := decodeInto_insert_of_forall_ne c h hne
          rw [Table.insert_insert] at hover
          exact hover
      · cases h
    · rw [decodeInto] at h ⊢
      split at h
      · exact ih hes.tail h
      · cases h

/-- The second entry is the first one decoded, under the same key. -/
def DecodesTo (f : κ → α → Except ε β) (e : κ × α) (e' : κ × β) : Prop :=
  e'.1 = e.1 ∧ f e.1 e.2 = .ok e'.2

/-- Entries that come behind all of a table are put behind them, in the same order. -/
theorem decodeInto_id_eq_ok_iff {t t' : Table κ β} (hes : Entries.Ascending es)
    (ht : ∀ e ∈ t.entries, ∀ e' ∈ es, compare e.1 e'.1 = .lt) :
    decodeInto id f es t = .ok t' ↔
      ∃ fs, t'.entries = t.entries ++ fs ∧ List.Forall₂ (DecodesTo f) es fs := by
  induction es generalizing t with
  | nil =>
    rw [decodeInto]
    constructor
    · intro h
      cases h
      exact ⟨[], (List.append_nil _).symm, .nil⟩
    · rintro ⟨fs, hfs, hnil⟩
      cases hnil
      rw [List.append_nil] at hfs
      rw [Table.ext_entries hfs]
  | cons e es ih =>
    obtain ⟨k, a⟩ := e
    rw [decodeInto]
    cases hf : f k a with
    | error e =>
      refine iff_of_false nofun ?_
      rintro ⟨fs, -, hfs⟩
      cases hfs with
      | cons he => cases hf.symm.trans he.2
    | ok b =>
      have hbefore (e : κ × β) (he : e ∈ t.entries) : compare e.1 k = .lt :=
        ht e he (k, a) List.mem_cons_self
      have hentries : (t.insert k b).entries = t.entries ++ [(k, b)] :=
        Entries.insert_eq_append hbefore b
      have hinsert : ∀ e ∈ (t.insert k b).entries, ∀ e' ∈ es, compare e.1 e'.1 = .lt := by
        rw [hentries]
        intro e he e' he'
        rcases List.mem_append.mp he with he | he
        · exact ht e he e' (List.mem_cons_of_mem _ he')
        · rw [List.mem_singleton.mp he]
          exact hes.head_lt he'
      simp only [id_eq]
      rw [ih hes.tail hinsert, hentries]
      constructor
      · rintro ⟨fs, hfs, hall⟩
        refine ⟨(k, b) :: fs, ?_, .cons ⟨rfl, hf⟩ hall⟩
        rw [hfs, List.append_assoc, List.singleton_append]
      · rintro ⟨fs, hfs, hall⟩
        obtain ⟨⟨j, c⟩, fs, ⟨rfl, hc⟩, hrest, rfl⟩ := List.forall₂_cons_left_iff.mp hall
        obtain rfl := Except.ok.inj (hf.symm.trans hc)
        refine ⟨fs, ?_, hrest⟩
        rw [hfs, List.append_assoc, List.singleton_append]

/-- Decoding under the same keys gives one entry for each. -/
theorem decodeInto_id_empty_eq_ok_iff {t' : Table κ β} (hes : Entries.Ascending es) :
    decodeInto id f es .empty = .ok t' ↔ List.Forall₂ (DecodesTo f) es t'.entries := by
  have hempty (e : κ × β) (he : e ∈ (Table.empty : Table κ β).entries) :
      ∀ e' ∈ es, compare e.1 e'.1 = .lt := absurd he List.not_mem_nil
  rw [decodeInto_id_eq_ok_iff hes hempty]
  simp [Table.empty]

end Decode

end ShapeModel
