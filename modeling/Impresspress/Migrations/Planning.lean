import Impresspress.Migrations.Runner

/-!
# Where a list resumes

A plan succeeds on exactly those ledger rows that record the first files of the list, each with the
hash of the statements that are shipped.

## Main definitions

* `Migrations.Covers`: rows that record the first files of a list.

## Main results

* `Migrations.plan_eq_ok`: the plan, characterised.
* `Migrations.Covers.of_isPrefix`: the rows of a shorter list are rows of a longer one.
-/

namespace Migrations

variable {sha256Hex : List Char → String}

theorem recorded_isSome {rows : List AppliedMigration} {name : String} :
    (recorded rows name).isSome = true ↔ ∃ row ∈ rows, row.fileName = name := by
  simp [recorded]

theorem recorded_isNone {rows : List AppliedMigration} {name : String} :
    (recorded rows name).isNone = true ↔ ∀ row ∈ rows, row.fileName ≠ name := by
  simp [recorded]

theorem of_recorded {rows : List AppliedMigration} {name : String} {row : AppliedMigration}
    (h : recorded rows name = some row) : row ∈ rows ∧ row.fileName = name :=
  ⟨List.mem_of_find?_eq_some h, by simpa using List.find?_some h⟩

theorem recorded_of_mem {rows : List AppliedMigration}
    (hunique : (rows.map (·.fileName)).Nodup) {row : AppliedMigration} (h : row ∈ rows) :
    recorded rows row.fileName = some row := by
  obtain ⟨found, hfound⟩ : ∃ found, recorded rows row.fileName = some found :=
    Option.isSome_iff_exists.mp (recorded_isSome.mpr ⟨row, h, rfl⟩)
  obtain ⟨hmem, hname⟩ := of_recorded hfound
  rw [hfound, List.inj_on_of_nodup_map hunique hmem h hname]

/-- Two places of a list with one basename are the same place. -/
theorem index_eq {files : List MigrationFile} (hdistinct : (files.map (·.name)).Nodup) {i j : ℕ}
    (hi : i < files.length) (hj : j < files.length) (h : files[i].name = files[j].name) :
    i = j := by
  have hi' : i < (files.map (·.name)).length := by rwa [List.length_map]
  have hj' : j < (files.map (·.name)).length := by rwa [List.length_map]
  have hsame : (files.map (·.name))[i] = (files.map (·.name))[j] := by
    rw [List.getElem_map, List.getElem_map, h]
  exact hdistinct.getElem_inj_iff.mp hsame

theorem contentChanged_eq_none {rows : List AppliedMigration} {file : MigrationFile} :
    contentChanged sha256Hex rows file = none ↔
      ∀ row, recorded rows file.name = some row →
        row.contentSha256 = contentHash sha256Hex file.sql := by
  unfold contentChanged
  cases h : recorded rows file.name with
  | none => simp
  | some row => simp

/-- What a plan that succeeds has checked. -/
structure Planned (sha256Hex : List Char → String) (files : List MigrationFile)
    (rows : List AppliedMigration) (firstPending : ℕ) : Prop where
  shipped : ∀ row ∈ rows, ∃ file ∈ files, file.name = row.fileName
  unchanged : ∀ file ∈ files, ∀ row, recorded rows file.name = some row →
    row.contentSha256 = contentHash sha256Hex file.sql
  first : files.findIdx (fun file => (recorded rows file.name).isNone) = firstPending
  none_later : ∀ file ∈ files.drop firstPending, (recorded rows file.name).isSome = false

theorem plan_iff_planned {files : List MigrationFile} {rows : List AppliedMigration}
    {firstPending : ℕ} :
    plan sha256Hex files rows = .ok firstPending ↔ Planned sha256Hex files rows firstPending := by
  have hahead : (rows.filter fun row => !files.any (·.name = row.fileName)).map (·.fileName) = [] ↔
      ∀ row ∈ rows, ∃ file ∈ files, file.name = row.fileName := by
    simp [List.filter_eq_nil_iff]
  have hchanged : files.findSome? (contentChanged sha256Hex rows) = none ↔
      ∀ file ∈ files, ∀ row, recorded rows file.name = some row →
        row.contentSha256 = contentHash sha256Hex file.sql := by
    rw [List.findSome?_eq_none_iff]
    exact forall₂_congr fun file _ => contentChanged_eq_none
  unfold plan
  set first := files.findIdx fun file => (recorded rows file.name).isNone with hfirst
  have hgap : (files.drop first).find? (fun file => (recorded rows file.name).isSome) = none ↔
      ∀ file ∈ files.drop first, (recorded rows file.name).isSome = false := by
    simp [List.find?_eq_none]
  constructor
  · intro h
    dsimp only at h
    split_ifs at h with hnone
    rw [not_not] at hnone
    split at h
    · cases h
    · rename_i hsome
      have hk : first = firstPending ∧
          (files.drop first).find? (fun file => (recorded rows file.name).isSome) = none := by
        cases hfind : (files.drop first).find? fun file => (recorded rows file.name).isSome with
        | none =>
          rw [hfind] at h
          exact ⟨Except.ok.inj h, rfl⟩
        | some applied =>
          have hlength : first < files.length := by
            by_contra hge
            rw [List.drop_eq_nil_of_le (Nat.le_of_not_lt hge)] at hfind
            cases hfind
          rw [hfind, List.getElem?_eq_getElem hlength] at h
          cases h
      obtain ⟨rfl, hfind⟩ := hk
      exact ⟨hahead.mp hnone, hchanged.mp hsome, rfl, hgap.mp hfind⟩
  · rintro ⟨hshipped, hunchanged, rfl, hlater⟩
    dsimp only
    rw [hahead.mpr hshipped, hchanged.mpr hunchanged, hgap.mpr hlater]
    rfl

/-- The rows record the first `n` files of the list, in whatever order. -/
def Covers (sha256Hex : List Char → String) (files : List MigrationFile) (n : ℕ)
    (rows : List AppliedMigration) : Prop :=
  n ≤ files.length ∧ (rows.map fun row => (row.fileName, row.contentSha256)).Perm
    ((files.take n).map fun file => (file.name, contentHash sha256Hex file.sql))

instance (sha256Hex : List Char → String) (files : List MigrationFile) (n : ℕ)
    (rows : List AppliedMigration) : Decidable (Covers sha256Hex files n rows) :=
  inferInstanceAs (Decidable (_ ∧ _))

variable {files : List MigrationFile} {rows : List AppliedMigration} {n : ℕ}

theorem Covers.congr {rows' : List AppliedMigration} (h : Covers sha256Hex files n rows)
    (hrows : rows'.Perm rows) : Covers sha256Hex files n rows' :=
  ⟨h.1, (hrows.map _).trans h.2⟩

/-- The rows of a shorter list are rows of a longer one. -/
theorem Covers.of_isPrefix {longer : List MigrationFile} (h : Covers sha256Hex files n rows)
    (hbegins : files <+: longer) : Covers sha256Hex longer n rows := by
  obtain ⟨rest, rfl⟩ := hbegins
  refine ⟨h.1.trans (by simp), ?_⟩
  rw [List.take_append_of_le_length h.1]
  exact h.2

theorem Covers.names (h : Covers sha256Hex files n rows) :
    (rows.map (·.fileName)).Perm ((files.take n).map (·.name)) := by
  simpa [Function.comp_def] using h.2.map Prod.fst

theorem Covers.length_eq (h : Covers sha256Hex files n rows) : rows.length = n := by
  have hnames := h.names.length_eq
  rwa [List.length_map, List.length_map, List.length_take, Nat.min_eq_left h.1] at hnames

/-- A file is recorded exactly when it is one of the first `n`. -/
theorem Covers.exists_row_iff (h : Covers sha256Hex files n rows) {name : String} :
    (∃ row ∈ rows, row.fileName = name) ↔ ∃ file ∈ files.take n, file.name = name := by
  rw [← List.mem_map, ← List.mem_map]
  exact h.names.mem_iff

theorem Covers.unique (h : Covers sha256Hex files n rows)
    (hdistinct : (files.map (·.name)).Nodup) : (rows.map (·.fileName)).Nodup :=
  h.names.nodup_iff.mpr (hdistinct.sublist ((List.take_sublist n files).map _))

/-- The row of a file has the file's hash. -/
theorem Covers.hash_eq (h : Covers sha256Hex files n rows)
    (hdistinct : (files.map (·.name)).Nodup) {row : AppliedMigration} {file : MigrationFile}
    (hrow : row ∈ rows) (hfile : file ∈ files) (hname : row.fileName = file.name) :
    row.contentSha256 = contentHash sha256Hex file.sql := by
  have hmem : (row.fileName, row.contentSha256) ∈
      (files.take n).map fun file => (file.name, contentHash sha256Hex file.sql) :=
    h.2.mem_iff.mp (List.mem_map_of_mem hrow)
  obtain ⟨found, hfound, hsame⟩ := List.mem_map.mp hmem
  obtain ⟨hfoundName, hhash⟩ := Prod.mk.inj hsame
  have : found = file := List.inj_on_of_nodup_map hdistinct (List.mem_of_mem_take hfound) hfile
    (hfoundName.trans hname)
  rw [← hhash, this]

theorem planned_of_covers (h : Covers sha256Hex files n rows)
    (hdistinct : (files.map (·.name)).Nodup) : Planned sha256Hex files rows n := by
  have hrecorded : ∀ name, (recorded rows name).isSome = true ↔
      ∃ file ∈ files.take n, file.name = name := fun name =>
    recorded_isSome.trans h.exists_row_iff
  -- a basename among the first `n` is not that of a later file
  have hapart : ∀ file ∈ files.drop n, (recorded rows file.name).isSome = false := by
    intro file hfile
    rw [Bool.eq_false_iff, ne_eq, hrecorded]
    rintro ⟨early, hearly, hname⟩
    have hnodup : ((files.take n).map (·.name) ++ (files.drop n).map (·.name)).Nodup := by
      rwa [← List.map_append, List.take_append_drop]
    exact (List.nodup_append.mp hnodup).2.2 early.name (List.mem_map_of_mem hearly) file.name
      (List.mem_map_of_mem hfile) hname
  refine ⟨fun row hrow => ?_, fun file hfile row hrow => ?_, ?_, hapart⟩
  · obtain ⟨file, hfile, hname⟩ := h.exists_row_iff.mp ⟨row, hrow, rfl⟩
    exact ⟨file, List.mem_of_mem_take hfile, hname⟩
  · obtain ⟨hmem, hname⟩ := of_recorded hrow
    exact h.hash_eq hdistinct hmem hfile hname
  · have htake : (files.take n).findIdx (fun file => (recorded rows file.name).isNone) = n := by
      have hall : ∀ file ∈ files.take n, (recorded rows file.name).isNone = false := by
        intro file hfile
        rw [← Option.not_isSome, (hrecorded file.name).mpr ⟨file, hfile, rfl⟩]
        rfl
      rw [List.findIdx_eq_length.mpr hall, List.length_take, Nat.min_eq_left h.1]
    conv_lhs => rw [← List.take_append_drop n files]
    rw [List.findIdx_append, htake, List.length_take, Nat.min_eq_left h.1,
      if_neg (Nat.lt_irrefl n)]
    cases hdrop : files.drop n with
    | nil => simp
    | cons file rest =>
      have hnone : (recorded rows file.name).isNone = true := by
        have := hapart file (by rw [hdrop]; exact List.mem_cons_self)
        rwa [← Option.not_isSome, Bool.not_eq_true']
      simp [List.findIdx_cons, hnone]

theorem covers_of_planned (h : Planned sha256Hex files rows n)
    (hdistinct : (files.map (·.name)).Nodup) (hunique : (rows.map (·.fileName)).Nodup) :
    Covers sha256Hex files n rows := by
  have hn : n ≤ files.length := h.first ▸ List.findIdx_le_length
  have hearly : ∀ file ∈ files.take n, ∃ row, recorded rows file.name = some row := by
    intro file hfile
    obtain ⟨i, hi, rfl⟩ := List.mem_iff_getElem.mp hfile
    rw [List.length_take, Nat.lt_min] at hi
    rw [List.getElem_take]
    have hlt : i < files.findIdx fun file => (recorded rows file.name).isNone := h.first ▸ hi.1
    have hnot := List.not_of_lt_findIdx hlt
    exact Option.isSome_iff_exists.mp (by simpa using hnot)
  refine ⟨hn, (List.perm_ext_iff_of_nodup ?_ ?_).mpr fun pair => ?_⟩
  · exact List.Nodup.of_map Prod.fst (by simpa [Function.comp_def] using hunique)
  · refine List.Nodup.of_map Prod.fst ?_
    have := hdistinct.sublist ((List.take_sublist n files).map (·.name))
    simpa [Function.comp_def] using this
  · constructor
    · intro hpair
      obtain ⟨row, hrow, rfl⟩ := List.mem_map.mp hpair
      obtain ⟨file, hfile, hname⟩ := h.shipped row hrow
      have hrecorded : recorded rows file.name = some row :=
        hname ▸ recorded_of_mem hunique hrow
      rw [← List.take_append_drop n files] at hfile
      rcases List.mem_append.mp hfile with htake | hdrop
      · refine List.mem_map.mpr ⟨file, htake, ?_⟩
        rw [hname, h.unchanged file (List.mem_of_mem_take htake) row hrecorded]
      · have hlater := h.none_later file hdrop
        rw [hrecorded] at hlater
        cases hlater
    · intro hpair
      obtain ⟨file, hfile, rfl⟩ := List.mem_map.mp hpair
      obtain ⟨row, hrow⟩ := hearly file hfile
      obtain ⟨hmem, hname⟩ := of_recorded hrow
      refine List.mem_map.mpr ⟨row, hmem, ?_⟩
      rw [hname, h.unchanged file (List.mem_of_mem_take hfile) row hrow]

/-- A plan succeeds where the rows record the first files of the list. -/
theorem plan_eq_ok (hdistinct : (files.map (·.name)).Nodup)
    (hunique : (rows.map (·.fileName)).Nodup) :
    plan sha256Hex files rows = .ok n ↔ Covers sha256Hex files n rows :=
  plan_iff_planned.trans ⟨fun h => covers_of_planned h hdistinct hunique,
    fun h => planned_of_covers h hdistinct⟩

end Migrations
