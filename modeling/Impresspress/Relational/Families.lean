import Mathlib.Data.List.Nodup
import Mathlib.Data.List.Perm.Basic
import Impresspress.Checked.Arithmetic

/-!
# Families of rows

Some rows of a table make up a family, and each of them has a key. A family is replaced by a list of
definitions: the row of a key that is defined again is updated, a row is created for a new key, and
the rows of the other keys are deleted. No row outside the family is touched.

## Main definitions

* `Relational.Family`: how the rows of a family are written.
* `Relational.Family.replace`: replacing the family.

## Main results

* `Relational.Family.replace_eq_ok`: afterwards the family has one row for each definition.
-/

namespace Relational

open Checked

variable {ρ δ ω ι κ ε : Type}

/-- How definitions are written to rows: `data` is what a definition writes. -/
structure Family (ρ δ ω ι κ ε : Type) where
  id : ρ → ι
  mine : ρ → Bool
  keyOf : ρ → κ
  key : δ → κ
  data : δ → Except ε ω
  create : δ → ω → ρ
  update : ω → ρ → ρ
  duplicate : δ → ε

/-- The rows, with the one of this id changed. -/
def updateById [DecidableEq ι] (id : ρ → ι) (change : ρ → ρ) (target : ι) (rows : List ρ) :
    List ρ :=
  rows.map fun row => if id row = target then change row else row

/-- The changes of one row show in no other row. -/
theorem updateById_of_not_mem [DecidableEq ι] {id : ρ → ι} {change : ρ → ρ} {target : ι}
    {rows : List ρ} (h : target ∉ rows.map id) : updateById id change target rows = rows := by
  refine (List.map_congr_left fun row hrow => ?_).trans (List.map_id' rows)
  exact if_neg fun hsame => h (List.mem_map.mpr ⟨row, hrow, hsame⟩)

/-- A change that keeps a condition on a row keeps the rows that meet it. -/
theorem filter_updateById [DecidableEq ι] {id : ρ → ι} {change : ρ → ρ} {target : ι}
    {rows : List ρ} {p : ρ → Bool} (h : ∀ row ∈ rows, id row = target → p (change row) = p row) :
    (updateById id change target rows).filter p = updateById id change target (rows.filter p) := by
  rw [updateById, updateById, List.filter_map]
  refine congrArg _ (List.filter_congr fun row hrow => ?_)
  dsimp only [Function.comp]
  split_ifs with hid
  · exact h row hrow hid
  · rfl

namespace Family

section Loop

variable [DecidableEq ι] [DecidableEq κ]

/-- The loop over the definitions: `existing` are the rows whose keys have not come up, and `seen`
the keys that have. -/
def replaceFrom (F : Family ρ δ ω ι κ ε) (existing : List ρ) (seen : List κ) (rows : List ρ) :
    List δ → Except ε (List ρ × List ρ)
  | [] => .ok (rows, existing)
  | definition :: definitions =>
    if F.key definition ∈ seen then .error (F.duplicate definition)
    else do
      let data ← F.data definition
      match existing.find? fun row => F.keyOf row = F.key definition with
      | some row =>
        replaceFrom F (existing.filter fun row => F.keyOf row ≠ F.key definition)
          (F.key definition :: seen) (updateById F.id (F.update data) (F.id row) rows) definitions
      | none =>
        replaceFrom F existing (F.key definition :: seen) (rows ++ [F.create definition data])
          definitions

/-- Replace the family; the rows that are left over are deleted. -/
def replace (F : Family ρ δ ω ι κ ε) (existing rows : List ρ) (definitions : List δ) :
    Except ε (List ρ) := do
  let replaced ← F.replaceFrom existing [] rows definitions
  return replaced.1.filter fun row => F.id row ∉ replaced.2.map F.id

end Loop

/-- The row that was written for a definition. -/
def Wrote (F : Family ρ δ ω ι κ ε) (definition : δ) (row : ρ) : Prop :=
  ∃ data, F.data definition = .ok data ∧
    (row = F.create definition data ∨ ∃ old, row = F.update data old)

/-- Rows keep their ids, are in the family, and new ones have an id that is drawn for their key. -/
structure Lawful (F : Family ρ δ ω ι κ ε) (draw : κ → ι) : Prop where
  id_update : ∀ data row, F.id (F.update data row) = F.id row
  id_create : ∀ definition data, F.id (F.create definition data) = draw (F.key definition)
  mine_update : ∀ definition data row, F.data definition = .ok data →
    F.mine (F.update data row) = true
  mine_create : ∀ definition data, F.data definition = .ok data →
    F.mine (F.create definition data) = true
  injective : Function.Injective draw

/-- Where the loop is: the family consists of the rows written so far and the existing ones, and
`others` are the rows outside it. -/
structure Reached (F : Family ρ δ ω ι κ ε) (draw : κ → ι) (others : List ρ) (seen : List κ)
    (written existing rows : List ρ) : Prop where
  nodup : (rows.map F.id).Nodup
  family : (rows.filter F.mine).Perm (written ++ existing)
  others : rows.filter (fun row => !F.mine row) = others
  keys : (existing.map F.keyOf).Nodup
  fresh : ∀ key ∉ seen, draw key ∉ rows.map F.id

variable {F : Family ρ δ ω ι κ ε} {draw : κ → ι} {others : List ρ} {seen : List κ}
  {written existing rows : List ρ} {definition : δ} {data : ω} {row : ρ}

variable [DecidableEq κ]

/-- A row of a key, and the rows of the other keys. -/
theorem perm_cons_filter (hkeys : (existing.map F.keyOf).Nodup)
    (hrow : existing.find? (fun row => F.keyOf row = F.key definition) = some row) :
    existing.Perm (row :: existing.filter fun row => F.keyOf row ≠ F.key definition) := by
  induction existing with
  | nil => cases hrow
  | cons first existing ih =>
    obtain ⟨hlater, hkeys⟩ := List.nodup_cons.mp hkeys
    by_cases hkey : F.keyOf first = F.key definition
    · rw [List.find?_cons_of_pos (by simpa using hkey)] at hrow
      obtain rfl := Option.some.inj hrow
      have hrest : existing.filter (fun row => F.keyOf row ≠ F.key definition) = existing := by
        refine List.filter_eq_self.mpr fun other hother => decide_eq_true fun hsame => hlater ?_
        exact List.mem_map.mpr ⟨other, hother, hsame.trans hkey.symm⟩
      rw [List.filter_cons_of_neg (by simpa using hkey), hrest]
    · rw [List.find?_cons_of_neg (by simpa using hkey)] at hrow
      rw [List.filter_cons_of_pos (by simpa using hkey)]
      exact ((ih hkeys hrow).cons first).trans (List.Perm.swap _ _ _)

variable [DecidableEq ι]

/-- Updating a row of the family. -/
theorem Reached.update (hF : F.Lawful draw)
    (h : Reached F draw others seen written existing rows)
    (hdata : F.data definition = .ok data)
    (hrow : existing.find? (fun row => F.keyOf row = F.key definition) = some row) :
    Reached F draw others (F.key definition :: seen) (written ++ [F.update data row])
      (existing.filter fun row => F.keyOf row ≠ F.key definition)
      (updateById F.id (F.update data) (F.id row) rows) := by
  have hcut := perm_cons_filter h.keys hrow
  have hfamily := h.family.trans (hcut.append_left written)
  have hmine : row ∈ rows.filter F.mine := hfamily.mem_iff.mpr (by simp)
  have hone : ∀ other ∈ rows, F.id other = F.id row → other = row := fun other hother hsame =>
    List.inj_on_of_nodup_map h.nodup hother (List.mem_of_mem_filter hmine) hsame
  have hsame : (updateById F.id (F.update data) (F.id row) rows).map F.id = rows.map F.id := by
    rw [updateById, List.map_map]
    refine List.map_congr_left fun other _ => ?_
    dsimp only [Function.comp]
    split_ifs
    · exact hF.id_update data other
    · rfl
  have hkeeps : ∀ other ∈ rows, F.id other = F.id row →
      F.mine (F.update data other) = F.mine other := by
    intro other hother hid
    obtain rfl := hone other hother hid
    exact (hF.mine_update definition data other hdata).trans (List.of_mem_filter hmine).symm
  refine ⟨hsame ▸ h.nodup, ?_, ?_, h.keys.sublist (List.filter_sublist.map _), ?_⟩
  · rw [filter_updateById hkeeps]
    have hnodup := (hfamily.map F.id).nodup_iff.mp (h.nodup.sublist (List.filter_sublist.map F.id))
    rw [List.map_append, List.map_cons, List.nodup_append, List.nodup_cons] at hnodup
    obtain ⟨-, ⟨hafter, -⟩, hbefore⟩ := hnodup
    refine (hfamily.map _).trans ?_
    rw [List.map_append, List.map_cons, if_pos rfl, List.append_assoc]
    have hwritten : updateById F.id (F.update data) (F.id row) written = written :=
      updateById_of_not_mem fun hmem => hbefore _ hmem _ List.mem_cons_self rfl
    have hrest := @updateById_of_not_mem _ _ _ F.id (F.update data) _ _ hafter
    rw [updateById] at hwritten hrest
    rw [hwritten, hrest]
    exact List.Perm.refl _
  · have hothers : ∀ other ∈ rows, F.id other = F.id row →
        (!F.mine (F.update data other)) = !F.mine other := fun other hother hid =>
      congrArg not (hkeeps other hother hid)
    rw [filter_updateById hothers, h.others]
    refine updateById_of_not_mem fun hmem => ?_
    obtain ⟨other, hother, hid⟩ := List.mem_map.mp hmem
    rw [← h.others] at hother
    obtain rfl := hone other (List.mem_of_mem_filter hother) hid
    have hnot := List.of_mem_filter hother
    rw [List.of_mem_filter hmine] at hnot
    cases hnot
  · intro key hkey
    rw [hsame]
    exact h.fresh key fun hmem => hkey (List.mem_cons_of_mem _ hmem)

omit [DecidableEq κ] [DecidableEq ι] in
/-- Creating a row for a key that no row of the family has. -/
theorem Reached.create (hF : F.Lawful draw)
    (h : Reached F draw others seen written existing rows)
    (hdata : F.data definition = .ok data) (hnew : F.key definition ∉ seen) :
    Reached F draw others (F.key definition :: seen) (written ++ [F.create definition data])
      existing (rows ++ [F.create definition data]) := by
  have hmine := hF.mine_create definition data hdata
  refine ⟨?_, ?_, ?_, h.keys, ?_⟩
  · rw [List.map_append, List.map_singleton, hF.id_create]
    exact h.nodup.append (List.nodup_singleton _)
      (List.disjoint_singleton.mpr (h.fresh _ hnew))
  · rw [List.filter_append, List.filter_cons_of_pos hmine, List.filter_nil]
    refine (h.family.append_right _).trans ?_
    rw [List.append_assoc, List.append_assoc]
    exact List.perm_append_comm.append_left written
  · rw [List.filter_append, h.others, List.filter_cons_of_neg (by simp [hmine]), List.filter_nil,
      List.append_nil]
  · intro key hkey hmem
    obtain ⟨hne, hkey⟩ := not_or.mp (mt List.mem_cons.mpr hkey)
    rw [List.map_append, List.mem_append, List.map_singleton, hF.id_create] at hmem
    rcases hmem with hmem | hmem
    · exact h.fresh key hkey hmem
    · exact hne (hF.injective (List.mem_singleton.mp hmem))

/-- What the loop reaches: each definition has its row, and their keys are different. -/
theorem replaceFrom_eq_ok (hF : F.Lawful draw) {definitions : List δ} {replaced : List ρ × List ρ}
    (h : Reached F draw others seen written existing rows)
    (hloop : F.replaceFrom existing seen rows definitions = .ok replaced) :
    ∃ new seen', List.Forall₂ F.Wrote definitions new ∧
      Reached F draw others seen' (written ++ new) replaced.2 replaced.1 ∧
        (definitions.map F.key).Nodup ∧ ∀ other ∈ definitions, F.key other ∉ seen := by
  induction definitions generalizing existing seen rows written with
  | nil =>
    obtain rfl := Except.ok.inj hloop
    exact ⟨[], seen, .nil, (List.append_nil written).symm ▸ h, List.nodup_nil,
      List.forall_mem_nil _⟩
  | cons definition definitions ih =>
    rw [replaceFrom] at hloop
    obtain ⟨hnew, hloop⟩ := guard_eq_ok.mp hloop
    obtain ⟨data, hdata, hloop⟩ := bind_eq_ok.mp hloop
    have hrest : ∀ {row existing rows}, F.Wrote definition row →
        Reached F draw others (F.key definition :: seen) (written ++ [row]) existing rows →
        F.replaceFrom existing (F.key definition :: seen) rows definitions = .ok replaced →
        ∃ new seen', List.Forall₂ F.Wrote (definition :: definitions) new ∧
          Reached F draw others seen' (written ++ new) replaced.2 replaced.1 ∧
            ((definition :: definitions).map F.key).Nodup ∧
              ∀ other ∈ definition :: definitions, F.key other ∉ seen := by
      intro row existing rows hwrote hreached hloop
      obtain ⟨new, seen', hall, hend, hnodup, hfresh⟩ := ih hreached hloop
      refine ⟨row :: new, seen', .cons hwrote hall, ?_, ?_, ?_⟩
      · rwa [List.append_assoc] at hend
      · refine List.nodup_cons.mpr ⟨fun hmem => ?_, hnodup⟩
        obtain ⟨other, hother, hsame⟩ := List.mem_map.mp hmem
        exact hfresh other hother (hsame ▸ List.mem_cons_self)
      · exact List.forall_mem_cons.mpr ⟨hnew, fun other hother hmem =>
          hfresh other hother (List.mem_cons_of_mem _ hmem)⟩
    cases hrow : existing.find? fun row => F.keyOf row = F.key definition with
    | some row =>
      rw [hrow] at hloop
      exact hrest ⟨data, hdata, .inr ⟨row, rfl⟩⟩ (h.update hF hdata hrow) hloop
    | none =>
      rw [hrow] at hloop
      exact hrest ⟨data, hdata, .inl rfl⟩ (h.create hF hdata hnew) hloop

/-- Afterwards the family has one row for each definition, the definitions have different keys, and
the other rows are as they were. -/
theorem replace_eq_ok (hF : F.Lawful draw) {definitions : List δ} {result : List ρ}
    (hnodup : (rows.map F.id).Nodup) (hfamily : existing.Perm (rows.filter F.mine))
    (hkeys : (existing.map F.keyOf).Nodup) (hfresh : ∀ key, draw key ∉ rows.map F.id)
    (h : F.replace existing rows definitions = .ok result) :
    ∃ new, List.Forall₂ F.Wrote definitions new ∧ (result.filter F.mine).Perm new ∧
      result.filter (fun row => !F.mine row) = rows.filter (fun row => !F.mine row) ∧
        (result.map F.id).Nodup ∧ (definitions.map F.key).Nodup := by
  obtain ⟨replaced, hloop, hresult⟩ := bind_eq_ok.mp h
  cases hresult
  have hstart : Reached F draw (rows.filter fun row => !F.mine row) [] [] existing rows :=
    ⟨hnodup, hfamily.symm, rfl, hkeys, fun key _ => hfresh key⟩
  obtain ⟨new, seen', hall, hend, hdefinitions, -⟩ := replaceFrom_eq_ok hF hstart hloop
  rw [List.nil_append] at hend
  have hids := (hend.family.map F.id).nodup_iff.mp
    (hend.nodup.sublist (List.filter_sublist.map F.id))
  rw [List.map_append, List.nodup_append] at hids
  obtain ⟨-, -, hdisjoint⟩ := hids
  refine ⟨new, hall, ?_, ?_, hend.nodup.sublist (List.filter_sublist.map F.id), hdefinitions⟩
  · rw [List.filter_comm]
    refine (hend.family.filter _).trans ?_
    have hnew : new.filter (fun row => F.id row ∉ replaced.2.map F.id) = new :=
      List.filter_eq_self.mpr fun row hrow => decide_eq_true fun hmem =>
        hdisjoint _ (List.mem_map_of_mem hrow) _ hmem rfl
    have hleft : replaced.2.filter (fun row => F.id row ∉ replaced.2.map F.id) = [] :=
      List.filter_eq_nil_iff.mpr fun row hrow hnot =>
        of_decide_eq_true hnot (List.mem_map_of_mem hrow)
    rw [List.filter_append, hnew, hleft, List.append_nil]
  · rw [List.filter_comm, hend.others]
    refine List.filter_eq_self.mpr fun row hrow => decide_eq_true fun hmem => ?_
    obtain ⟨other, hother, hid⟩ := List.mem_map.mp hmem
    have hmine : other ∈ replaced.1.filter F.mine :=
      hend.family.mem_iff.mpr (List.mem_append_right _ hother)
    rw [← hend.others] at hrow
    obtain rfl := List.inj_on_of_nodup_map hend.nodup (List.mem_of_mem_filter hmine)
      (List.mem_of_mem_filter hrow) hid
    have hnot := List.of_mem_filter hrow
    rw [List.of_mem_filter hmine] at hnot
    cases hnot

end Family

end Relational
