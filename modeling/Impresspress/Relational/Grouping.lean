import Mathlib.Algebra.BigOperators.Group.List.Basic
import Mathlib.Data.List.Dedup
import Mathlib.Order.Defs.LinearOrder
import Mathlib.Order.Lattice

/-!
# Reading a table by groups, by pages and in chunks

`GROUP BY` gives the rows of a table by the value of a key. A walk by keyset reads the rows in the
order of their ids, a page at a time, each page from the last id of the page before. However the rows
are cut up, none is left out and none comes twice.

## Main definitions

* `Relational.groups`: the rows by the value of a key.
* `Relational.pageAfter`, `Relational.pages`: a page, and the pages of a walk.
* `Relational.chunks`: a list in parts of a size.

## Main results

* `Relational.sum_groups`: sums over groups are sums over rows.
* `Relational.flatten_pages_perm`: the pages of a walk hold the rows.
* `Relational.flatten_chunks`: the parts of a list put together.
-/

namespace Relational

variable {α κ ι M : Type}

/-! ### Groups -/

/-- A sum over the rows that meet a condition. -/
theorem sum_filter [AddCommMonoid M] (p : α → Bool) (weight : α → M) (rows : List α) :
    ((rows.filter p).map weight).sum = (rows.map fun row => if p row then weight row else 0).sum := by
  induction rows with
  | nil => rfl
  | cons row rows ih =>
    rw [List.filter_cons, List.map_cons, List.sum_cons, ← ih]
    split_ifs
    · rw [List.map_cons, List.sum_cons]
    · rw [zero_add]

section Groups

variable [DecidableEq κ] {key : α → κ} {rows : List α}

/-- The values of a key, each with the rows that have it. -/
def groups (key : α → κ) (rows : List α) : List (κ × List α) :=
  (rows.map key).dedup.map fun k => (k, rows.filter fun row => key row = k)

theorem mem_of_mem_groups {group : κ × List α} (h : group ∈ groups key rows) {row : α}
    (hrow : row ∈ group.2) : row ∈ rows ∧ key row = group.1 := by
  obtain ⟨k, -, rfl⟩ := List.mem_map.mp h
  obtain ⟨hmem, hkey⟩ := List.mem_filter.mp hrow
  exact ⟨hmem, of_decide_eq_true hkey⟩

/-- Each row is in the group of its value. -/
theorem exists_group (key : α → κ) {row : α} (h : row ∈ rows) :
    ∃ group ∈ groups key rows, group.1 = key row ∧ row ∈ group.2 :=
  ⟨_, List.mem_map.mpr ⟨key row, List.mem_dedup.mpr (List.mem_map_of_mem h), rfl⟩, rfl,
    List.mem_filter.mpr ⟨h, decide_eq_true rfl⟩⟩

/-- Rows that meet one of two conditions that exclude each other. -/
theorem filter_or_perm {p q : α → Bool} (h : ∀ row, p row = true → q row = false) :
    (rows.filter p ++ rows.filter q).Perm (rows.filter fun row => p row || q row) := by
  have hcut := List.filter_append_perm p (rows.filter fun row => p row || q row)
  rw [List.filter_filter, List.filter_filter] at hcut
  have hfirst (row : α) : (p row && (p row || q row)) = p row := by
    cases p row <;> rfl
  have hsecond (row : α) : (!p row && (p row || q row)) = q row := by
    cases hp : p row with
    | true => rw [h row hp]; rfl
    | false => rfl
  simpa only [hfirst, hsecond] using hcut

/-- The rows with one of some values, by value. -/
theorem flatMap_filter_perm (key : α → κ) (rows : List α) {keys : List κ} (hnodup : keys.Nodup) :
    (keys.flatMap fun k => rows.filter fun row => key row = k).Perm
      (rows.filter fun row => key row ∈ keys) := by
  induction keys with
  | nil => simp
  | cons k keys ih =>
    obtain ⟨hk, hnodup⟩ := List.nodup_cons.mp hnodup
    rw [List.flatMap_cons]
    refine ((ih hnodup).append_left _).trans ?_
    simp only [List.mem_cons, Bool.decide_or]
    refine filter_or_perm fun row hrow => decide_eq_false fun hmem => hk ?_
    exact of_decide_eq_true hrow ▸ hmem

/-- The rows with one of some values, by parts of the values. -/
theorem flatMap_filter_parts_perm (key : α → κ) (rows : List α) {parts : List (List κ)}
    (hnodup : parts.flatten.Nodup) :
    (parts.flatMap fun part => rows.filter fun row => key row ∈ part).Perm
      (rows.filter fun row => key row ∈ parts.flatten) := by
  induction parts with
  | nil => simp
  | cons part parts ih =>
    rw [List.flatten_cons, List.nodup_append] at hnodup
    obtain ⟨-, hrest, hdisjoint⟩ := hnodup
    rw [List.flatMap_cons]
    refine ((ih hrest).append_left _).trans ?_
    simp only [List.flatten_cons, List.mem_append, Bool.decide_or]
    refine filter_or_perm fun row hrow => decide_eq_false fun hmem => ?_
    exact hdisjoint _ (of_decide_eq_true hrow) _ hmem rfl

theorem flatMap_groups_perm (key : α → κ) (rows : List α) :
    ((groups key rows).flatMap (·.2)).Perm rows := by
  have hperm := flatMap_filter_perm key rows (List.nodup_dedup (rows.map key))
  have hall : (rows.filter fun row => key row ∈ (rows.map key).dedup) = rows :=
    List.filter_eq_self.mpr fun row hrow =>
      decide_eq_true (List.mem_dedup.mpr (List.mem_map_of_mem hrow))
  rw [hall] at hperm
  rwa [groups, List.flatMap_map]

/-- A sum over the groups is the sum over the rows. -/
theorem sum_groups [AddCommMonoid M] (weight : α → M) (key : α → κ) (rows : List α) :
    ((groups key rows).map fun group => (group.2.map weight).sum).sum =
      (rows.map weight).sum := by
  rw [← ((flatMap_groups_perm key rows).map weight).sum_eq, List.map_flatMap, List.flatMap,
    List.sum_flatten, List.map_map]
  rfl

end Groups

/-! ### Pages -/

section Pages

variable [LinearOrder ι] {id : α → ι} {rows : List α} {cursor : Option ι}

/-- The row comes behind the cursor. -/
def Behind (id : α → ι) (cursor : Option ι) (row : α) : Prop := ∀ last ∈ cursor, last < id row

instance (id : α → ι) (cursor : Option ι) (row : α) : Decidable (Behind id cursor row) :=
  inferInstanceAs (Decidable (∀ last ∈ cursor, last < id row))

/-- The rows behind the cursor, in the order of their ids. -/
def behind (id : α → ι) (rows : List α) (cursor : Option ι) : List α :=
  (rows.filter fun row => Behind id cursor row).mergeSort fun left right => id left ≤ id right

/-- The first rows behind the cursor. -/
def pageAfter (id : α → ι) (rows : List α) (limit : ℕ) (cursor : Option ι) : List α :=
  (behind id rows cursor).take limit

theorem mem_behind {row : α} : row ∈ behind id rows cursor ↔ row ∈ rows ∧ Behind id cursor row := by
  rw [behind, List.mem_mergeSort, List.mem_filter, decide_eq_true_eq]

theorem behind_perm : (behind id rows cursor).Perm (rows.filter fun row => Behind id cursor row) :=
  List.mergeSort_perm _ _

/-- The rows behind a row that is itself behind the cursor. -/
theorem filter_behind {row : α} (h : Behind id cursor row) :
    (rows.filter fun other => Behind id cursor other).filter
      (fun other => Behind id (some (id row)) other) =
        rows.filter fun other => Behind id (some (id row)) other := by
  rw [List.filter_filter]
  refine List.filter_congr fun other _ => ?_
  rw [← Bool.decide_and, decide_eq_decide]
  refine and_iff_left_of_imp fun hother last hlast => ?_
  exact (h last hlast).trans (hother _ rfl)

/-- There are fewer rows behind a row that is itself behind the cursor. -/
theorem length_behind_lt {row : α} (h : row ∈ behind id rows cursor) :
    (behind id rows (some (id row))).length < (behind id rows cursor).length := by
  obtain ⟨hmem, hbehind⟩ := mem_behind.mp h
  rw [behind_perm.length_eq, behind_perm.length_eq, ← filter_behind hbehind]
  refine List.length_filter_lt_length_iff_exists.mpr
    ⟨row, List.mem_filter.mpr ⟨hmem, decide_eq_true hbehind⟩, ?_⟩
  rw [decide_eq_true_eq]
  exact fun hself => lt_irrefl _ (hself _ rfl)

/-- The pages of a walk: each begins behind the last row of the one before, until one is short. -/
def pages (id : α → ι) (rows : List α) (limit : ℕ) (cursor : Option ι) : List (List α) :=
  let page := pageAfter id rows limit cursor
  match _h : page.getLast? with
  | none => [page]
  | some last =>
    if page.length < limit then [page]
    else page :: pages id rows limit (some (id last))
termination_by (behind id rows cursor).length
decreasing_by exact length_behind_lt (List.mem_of_mem_take (List.mem_of_getLast? _h))

/-- Rows of different ids are read in a strict order. -/
theorem pairwise_behind (cursor : Option ι) (hnodup : (rows.map id).Nodup) :
    (behind id rows cursor).Pairwise fun left right => id left < id right := by
  have hsorted : (behind id rows cursor).Pairwise fun left right => id left ≤ id right := by
    refine (List.pairwise_mergeSort (fun a b c hab hbc => ?_) (fun a b => ?_) _).imp
      of_decide_eq_true
    · exact decide_eq_true ((of_decide_eq_true hab).trans (of_decide_eq_true hbc))
    · simpa using le_total (id a) (id b)
  have hne : (behind id rows cursor).Pairwise fun left right => id left ≠ id right := by
    have hfilter : ((rows.filter fun row => Behind id cursor row).map id).Nodup :=
      hnodup.sublist (List.filter_sublist.map id)
    exact List.pairwise_map.mp ((behind_perm.map id).nodup_iff.mpr hfilter)
  exact (hsorted.and hne).imp fun h => lt_of_le_of_ne h.1 h.2

/-- The rows behind the last row of a page are those that the page left out. -/
theorem behind_last {limit : ℕ} {last : α} (hnodup : (rows.map id).Nodup)
    (hlast : (pageAfter id rows limit cursor).getLast? = some last) :
    (rows.filter fun row => Behind id (some (id last)) row).Perm
      ((behind id rows cursor).drop limit) := by
  obtain ⟨front, hpage⟩ := List.getLast?_eq_some_iff.mp hlast
  have hcut : behind id rows cursor = front ++ last :: (behind id rows cursor).drop limit := by
    conv_lhs => rw [← List.take_append_drop limit (behind id rows cursor)]
    rw [show (behind id rows cursor).take limit = front ++ [last] from hpage, List.append_assoc]
    rfl
  have hbehind : Behind id cursor last :=
    (mem_behind.mp (hcut ▸ List.mem_append_right front List.mem_cons_self)).2
  have hsorted := pairwise_behind cursor hnodup
  rw [hcut, List.pairwise_append, List.pairwise_cons] at hsorted
  obtain ⟨-, ⟨hafter, -⟩, hbefore⟩ := hsorted
  rw [← filter_behind hbehind]
  refine (behind_perm.symm.filter _).trans ?_
  conv_lhs => rw [hcut]
  rw [List.filter_append, List.filter_cons_of_neg, List.filter_eq_nil_iff.mpr,
    List.filter_eq_self.mpr, List.nil_append]
  · exact fun row hrow => decide_eq_true fun bound hbound => Option.some.inj hbound ▸ hafter row hrow
  · intro row hrow
    rw [decide_eq_true_eq]
    exact fun h => (hbefore row hrow last List.mem_cons_self).asymm (h _ rfl)
  · rw [decide_eq_true_eq]
    exact fun h => lt_irrefl _ (h _ rfl)

/-- A short page is the last one. -/
theorem pages_of_short {limit : ℕ} (hshort : (pageAfter id rows limit cursor).length < limit) :
    pages id rows limit cursor = [pageAfter id rows limit cursor] := by
  rw [pages]
  split
  · rfl
  · rw [if_pos hshort]

theorem pages_of_full {limit : ℕ} {last : α}
    (hlast : (pageAfter id rows limit cursor).getLast? = some last)
    (hfull : ¬ (pageAfter id rows limit cursor).length < limit) :
    pages id rows limit cursor =
      pageAfter id rows limit cursor :: pages id rows limit (some (id last)) := by
  rw [pages]
  split
  · rename_i hnone
    cases hlast.symm.trans hnone
  · rename_i last' hlast'
    obtain rfl := Option.some.inj (hlast.symm.trans hlast')
    rw [if_neg hfull]

theorem flatten_pages_of_short {limit : ℕ}
    (hshort : (pageAfter id rows limit cursor).length < limit) :
    (pages id rows limit cursor).flatten.Perm (rows.filter fun row => Behind id cursor row) := by
  have hall : pageAfter id rows limit cursor = behind id rows cursor := by
    refine List.take_of_length_le ?_
    rw [pageAfter, List.length_take] at hshort
    omega
  rw [pages_of_short hshort, List.flatten_singleton, hall]
  exact behind_perm

/-- The pages of a walk hold each of the rows behind the cursor once. -/
theorem flatten_pages_perm {limit : ℕ} (hnodup : (rows.map id).Nodup) (hlimit : 0 < limit)
    (cursor : Option ι) :
    (pages id rows limit cursor).flatten.Perm (rows.filter fun row => Behind id cursor row) := by
  induction cursor using pages.induct id rows limit with
  | case1 cursor page hnone =>
    refine flatten_pages_of_short ?_
    rw [show pageAfter id rows limit cursor = [] from List.getLast?_eq_none_iff.mp hnone]
    exact hlimit
  | case2 cursor page last hlast hshort => exact flatten_pages_of_short hshort
  | case3 cursor page last hlast hfull ih =>
    rw [pages_of_full hlast hfull, List.flatten_cons]
    have hcut : pageAfter id rows limit cursor ++ (behind id rows cursor).drop limit =
        behind id rows cursor := List.take_append_drop limit _
    refine ((ih.trans (behind_last hnodup hlast)).append_left _).trans ?_
    rw [hcut]
    exact behind_perm

end Pages

/-! ### Chunks -/

/-- The list in parts of a size, the last of which may be smaller. -/
def chunks (size : ℕ) : List α → List (List α)
  | [] => []
  | a :: rest => (a :: rest.take (size - 1)) :: chunks size (rest.drop (size - 1))
termination_by list => list.length
decreasing_by
  simp only [List.length_drop, List.length_cons]
  omega

theorem flatten_chunks (size : ℕ) (list : List α) : (chunks size list).flatten = list := by
  induction list using chunks.induct size with
  | case1 => rw [chunks, List.flatten_nil]
  | case2 a rest ih =>
    rw [chunks, List.flatten_cons, ih, List.cons_append, List.take_append_drop]

end Relational
