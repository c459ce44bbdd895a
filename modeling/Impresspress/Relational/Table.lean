import Mathlib.Algebra.BigOperators.Group.List.Basic
import Mathlib.Data.List.Pairwise
import Mathlib.Tactic.Abel

/-!
# Tables with unique indexes

A table is a list of rows of which no two share their primary key or clash in one of the other
unique indexes. A write that would bring two such rows together is refused, so a table that
breaks its indexes cannot be built.

## Main definitions

* `Relational.Schema`: the primary key of a row, and the clashes of the other indexes.
* `Relational.Table`: rows that are pairwise compatible.
* `Relational.Table.insert`, `Relational.Table.replace`, `Relational.Table.erase`,
  `Relational.Table.deleteWhere`: the writes.
* `Relational.Table.updateWhere`: an update under a condition, with the number of rows it hit.
* `Relational.Table.adjust`: an update of every row that leaves the indexed columns alone.
* `Relational.Table.sum`: the sum of a quantity over the rows.

## Main results

* `Relational.Table.get?_eq_some_iff`: a row of the table is found by its key.
* `Relational.Table.sum_replace`: a write changes a sum by the new row less the old one.
-/

namespace Relational

/-- How rows are told apart: by the primary key, and by what the other unique indexes refuse. -/
structure Schema (Row Key : Type) where
  key : Row → Key
  clash : Row → Row → Bool

variable {Row Key : Type}

/-- The two rows may be in one table. -/
def Schema.Compatible (S : Schema Row Key) (a b : Row) : Prop :=
  S.key a ≠ S.key b ∧ S.clash a b = false ∧ S.clash b a = false

instance (S : Schema Row Key) : Std.Symm S.Compatible :=
  ⟨fun _ _ h => ⟨h.1.symm, h.2.2, h.2.1⟩⟩

instance [DecidableEq Key] (S : Schema Row Key) (a b : Row) : Decidable (S.Compatible a b) :=
  inferInstanceAs (Decidable (_ ∧ _))

/-- A change of rows that leaves the columns of the unique indexes as they are. -/
structure Schema.Keeps (S : Schema Row Key) (f : Row → Row) : Prop where
  key : ∀ row, S.key (f row) = S.key row
  clash : ∀ a b, S.clash (f a) (f b) = S.clash a b

/-- Rows that are pairwise compatible. -/
structure Table (S : Schema Row Key) where
  rows : List Row
  compatible : rows.Pairwise S.Compatible

namespace Table

variable {S : Schema Row Key}

/-- The table without rows. -/
def empty : Table S := ⟨[], .nil⟩

/-- Change every row in the same way, the indexed columns apart. -/
def adjust (t : Table S) (f : Row → Row) (hf : S.Keeps f) : Table S :=
  ⟨t.rows.map f, List.pairwise_map.mpr (t.compatible.imp fun h => by
    rwa [Schema.Compatible, hf.key, hf.key, hf.clash, hf.clash])⟩

theorem mem_adjust {t : Table S} {f : Row → Row} {hf : S.Keeps f} {row : Row} :
    row ∈ (t.adjust f hf).rows ↔ ∃ old ∈ t.rows, f old = row :=
  List.mem_map

variable [DecidableEq Key]

/-- The row with the key. -/
def get? (t : Table S) (k : Key) : Option Row := t.rows.find? fun r => S.key r = k

/-- Add a row; refused when a row of the table is not compatible with it. -/
def insert (t : Table S) (row : Row) : Option (Table S) :=
  if h : ∀ r ∈ t.rows, S.Compatible r row then
    some ⟨t.rows ++ [row], List.pairwise_append.mpr
      ⟨t.compatible, List.pairwise_singleton .., fun a ha _ hb => List.mem_singleton.mp hb ▸ h a ha⟩⟩
  else none

/-- The row that replaces `r` when `row` is written. -/
private def written (S : Schema Row Key) (row r : Row) : Row := if S.key r = S.key row then row else r

private theorem key_written (row r : Row) : S.key (written S row r) = S.key r := by
  unfold written
  split
  · rename_i h
    exact h.symm
  · rfl

private theorem compatible_written {row a b : Row} (h : S.Compatible a b)
    (ha : S.key a ≠ S.key row → S.Compatible a row)
    (hb : S.key b ≠ S.key row → S.Compatible b row) :
    S.Compatible (written S row a) (written S row b) := by
  unfold written
  split <;> split
  · rename_i hka hkb
    exact absurd (hka.trans hkb.symm) h.1
  · rename_i hka hkb
    exact Std.Symm.symm _ _ (hb hkb)
  · rename_i hka hkb
    exact ha hka
  · exact h

/-- Write a row in the place of the one with its key; refused when another row of the table is
not compatible with it. -/
def replace (t : Table S) (row : Row) : Option (Table S) :=
  if h : ∀ r ∈ t.rows, S.key r ≠ S.key row → S.Compatible r row then
    some ⟨t.rows.map (written S row), List.pairwise_map.mpr
      (t.compatible.imp_of_mem fun ha hb hab => compatible_written hab (h _ ha) (h _ hb))⟩
  else none

omit [DecidableEq Key] in
theorem eq_of_key_eq (t : Table S) {a b : Row} (ha : a ∈ t.rows) (hb : b ∈ t.rows)
    (h : S.key a = S.key b) : a = b := by
  by_contra hne
  exact (t.compatible.forall ha hb hne).1 h

omit [DecidableEq Key] in
theorem clash_eq_false (t : Table S) {a b : Row} (ha : a ∈ t.rows) (hb : b ∈ t.rows)
    (hne : S.key a ≠ S.key b) : S.clash a b = false :=
  (t.compatible.forall ha hb fun h => hne (congrArg S.key h)).2.1

/-- Take the row with the key out of the table. -/
def erase (t : Table S) (k : Key) : Table S :=
  ⟨t.rows.filter fun r => S.key r ≠ k, t.compatible.sublist List.filter_sublist⟩

omit [DecidableEq Key] in
/-- Take the rows that meet a condition out of the table. -/
def deleteWhere (t : Table S) (p : Row → Bool) : Table S :=
  ⟨t.rows.filter fun r => !p r, t.compatible.sublist List.filter_sublist⟩

/-- Update the row with the key if it meets a condition: the number of rows updated and the
table after it, or nothing when a unique index refuses the update. -/
def updateWhere (t : Table S) (k : Key) (p : Row → Bool) (f : Row → Row) :
    Option (ℕ × Table S) :=
  match t.get? k with
  | none => some (0, t)
  | some row => if p row then (t.replace (f row)).map fun t' => (1, t') else some (0, t)

/-- A row of the table is found by its key. -/
theorem get?_eq_some_iff {t : Table S} {k : Key} {row : Row} :
    t.get? k = some row ↔ row ∈ t.rows ∧ S.key row = k := by
  constructor
  · intro h
    exact ⟨List.mem_of_find?_eq_some h, by simpa using List.find?_some h⟩
  · rintro ⟨hmem, rfl⟩
    obtain ⟨found, hfound⟩ : ∃ found, t.get? (S.key row) = some found :=
      Option.isSome_iff_exists.mp (List.find?_isSome.mpr ⟨row, hmem, by simp⟩)
    have hkey : S.key found = S.key row := by simpa using List.find?_some hfound
    rw [hfound, t.eq_of_key_eq (List.mem_of_find?_eq_some hfound) hmem hkey]

theorem get?_eq_none_iff {t : Table S} {k : Key} :
    t.get? k = none ↔ ∀ row ∈ t.rows, S.key row ≠ k := by
  simp [get?]

theorem rows_insert {t t' : Table S} {row : Row} (h : t.insert row = some t') :
    t'.rows = t.rows ++ [row] ∧ ∀ r ∈ t.rows, S.Compatible r row := by
  unfold insert at h
  split at h
  · rename_i hfits
    cases h
    exact ⟨rfl, hfits⟩
  · cases h

theorem insert_eq_none_iff {t : Table S} {row : Row} :
    t.insert row = none ↔ ∃ r ∈ t.rows, ¬ S.Compatible r row := by
  unfold insert
  split <;> simp_all

theorem mem_insert {t t' : Table S} {row r : Row} (h : t.insert row = some t') :
    r ∈ t'.rows ↔ r ∈ t.rows ∨ r = row := by
  rw [(rows_insert h).1, List.mem_append, List.mem_singleton]

theorem get?_insert_self {t t' : Table S} {row : Row} (h : t.insert row = some t') :
    t'.get? (S.key row) = some row :=
  get?_eq_some_iff.mpr ⟨(mem_insert h).mpr (.inr rfl), rfl⟩

theorem get?_insert_of_ne {t t' : Table S} {row : Row} (h : t.insert row = some t') {k : Key}
    (hk : k ≠ S.key row) : t'.get? k = t.get? k := by
  simp [get?, (rows_insert h).1, hk.symm]

theorem get?_of_insert {t t' : Table S} {row : Row} (h : t.insert row = some t') :
    t.get? (S.key row) = none :=
  get?_eq_none_iff.mpr fun r hr => ((rows_insert h).2 r hr).1

private theorem rows_replace {t t' : Table S} {row : Row} (h : t.replace row = some t') :
    t'.rows = t.rows.map (written S row) := by
  unfold replace at h
  split at h
  · cases h
    rfl
  · cases h

theorem replace_eq_none_iff {t : Table S} {row : Row} :
    t.replace row = none ↔ ∃ r ∈ t.rows, S.key r ≠ S.key row ∧ ¬ S.Compatible r row := by
  unfold replace
  split <;> simp_all

theorem mem_replace {t t' : Table S} {row r : Row} (h : t.replace row = some t') :
    r ∈ t'.rows ↔
      r ∈ t.rows ∧ S.key r ≠ S.key row ∨ r = row ∧ ∃ old ∈ t.rows, S.key old = S.key row := by
  rw [rows_replace h, List.mem_map]
  constructor
  · rintro ⟨old, hold, rfl⟩
    unfold written
    split
    · rename_i hkey
      exact .inr ⟨rfl, old, hold, hkey⟩
    · rename_i hkey
      exact .inl ⟨hold, hkey⟩
  · rintro (⟨hr, hkey⟩ | ⟨rfl, old, hold, hkey⟩)
    · exact ⟨r, hr, if_neg hkey⟩
    · exact ⟨old, hold, if_pos hkey⟩

theorem get?_replace_self {t t' : Table S} {row old : Row} (h : t.replace row = some t')
    (hold : t.get? (S.key row) = some old) : t'.get? (S.key row) = some row :=
  get?_eq_some_iff.mpr ⟨(mem_replace h).mpr
    (.inr ⟨rfl, old, (get?_eq_some_iff.mp hold).1, (get?_eq_some_iff.mp hold).2⟩), rfl⟩

theorem get?_replace_of_ne {t t' : Table S} {row : Row} (h : t.replace row = some t') {k : Key}
    (hk : k ≠ S.key row) : t'.get? k = t.get? k := by
  cases hget : t.get? k with
  | none =>
    rw [get?_eq_none_iff] at hget ⊢
    intro r hr
    rcases (mem_replace h).mp hr with ⟨hr, -⟩ | ⟨rfl, -⟩
    · exact hget r hr
    · exact hk.symm
  | some row' =>
    obtain ⟨hmem, hkey⟩ := get?_eq_some_iff.mp hget
    exact get?_eq_some_iff.mpr
      ⟨(mem_replace h).mpr (.inl ⟨hmem, by rw [hkey]; exact hk⟩), hkey⟩

theorem mem_erase {t : Table S} {k : Key} {r : Row} :
    r ∈ (t.erase k).rows ↔ r ∈ t.rows ∧ S.key r ≠ k := by
  simp [erase]

theorem get?_erase_self (t : Table S) (k : Key) : (t.erase k).get? k = none :=
  get?_eq_none_iff.mpr fun _ hr => (mem_erase.mp hr).2

theorem get?_erase_of_ne (t : Table S) {k k' : Key} (hk : k' ≠ k) :
    (t.erase k).get? k' = t.get? k' := by
  cases hget : t.get? k' with
  | none =>
    rw [get?_eq_none_iff] at hget ⊢
    exact fun r hr => hget r (mem_erase.mp hr).1
  | some row =>
    rw [get?_eq_some_iff] at hget ⊢
    exact ⟨mem_erase.mpr ⟨hget.1, by rwa [hget.2]⟩, hget.2⟩

omit [DecidableEq Key] in
theorem mem_deleteWhere {t : Table S} {p : Row → Bool} {r : Row} :
    r ∈ (t.deleteWhere p).rows ↔ r ∈ t.rows ∧ p r = false := by
  simp [deleteWhere]

/-- The outcomes of an update under a condition. -/
theorem updateWhere_cases (t : Table S) (k : Key) (p : Row → Bool) (f : Row → Row) :
    (t.updateWhere k p f = none) ∨
      (t.updateWhere k p f = some (0, t) ∧ ∀ row, t.get? k = some row → p row = false) ∨
      ∃ row t', t.updateWhere k p f = some (1, t') ∧ t.get? k = some row ∧ p row ∧
        t.replace (f row) = some t' := by
  unfold updateWhere
  cases hget : t.get? k with
  | none => exact .inr (.inl ⟨rfl, nofun⟩)
  | some row =>
    by_cases hp : p row
    · cases hreplace : t.replace (f row) with
      | none => exact .inl (by simp [hp, hreplace])
      | some t' => exact .inr (.inr ⟨row, t', by simp [hp, hreplace], rfl, hp, hreplace⟩)
    · refine .inr (.inl ⟨by simp [hp], fun row' h => ?_⟩)
      cases h
      simpa using hp

section Sum

variable {M : Type} [AddCommGroup M]

/-- The sum of a quantity over the rows. -/
def sum (w : Row → M) (t : Table S) : M := (t.rows.map w).sum

omit [DecidableEq Key] in
@[simp] theorem sum_empty (w : Row → M) : (empty : Table S).sum w = 0 := rfl

theorem sum_insert (w : Row → M) {t t' : Table S} {row : Row} (h : t.insert row = some t') :
    t'.sum w = t.sum w + w row := by
  simp [sum, (rows_insert h).1]

/-- A write changes a sum by the new row less the old one. -/
theorem sum_replace (w : Row → M) {t t' : Table S} {row old : Row}
    (h : t.replace row = some t') (hold : t.get? (S.key row) = some old) :
    t'.sum w = t.sum w - w old + w row := by
  obtain ⟨hmem, hkey⟩ := get?_eq_some_iff.mp hold
  obtain ⟨l, r, hrows⟩ := List.append_of_mem hmem
  have hcompatible := t.compatible
  rw [hrows, List.pairwise_append, List.pairwise_cons] at hcompatible
  obtain ⟨-, ⟨hafter, -⟩, hbefore⟩ := hcompatible
  have hl : l.map (written S row) = l := by
    refine (List.map_congr_left fun a ha => if_neg ?_).trans (List.map_id l)
    rw [← hkey]
    exact (hbefore a ha old List.mem_cons_self).1
  have hr : r.map (written S row) = r := by
    refine (List.map_congr_left fun a ha => if_neg ?_).trans (List.map_id r)
    rw [← hkey]
    exact (hafter a ha).1.symm
  have hold : written S row old = row := if_pos hkey
  simp only [sum, rows_replace h, hrows, List.map_append, List.map_cons, hl, hr, hold,
    List.sum_append, List.sum_cons]
  abel

end Sum

end Table

end Relational
