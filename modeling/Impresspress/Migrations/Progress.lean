import Impresspress.Migrations.Planning

/-!
# How far a database has come

The ledger of a block records the first files of its list: those that were recorded at the start,
those that were adopted, and those that were run. What the statements act on is the result of the
files that were run, each of them once and in the order of the list.

## Main definitions

* `Migrations.replay`: what the statements of some files do, one file after the other.
* `Migrations.Shipment`, `Migrations.Upgrade`: what is shipped, and a database to be upgraded.
* `Migrations.Upgrade.Progress`: how far a database has come since the start.

## Main results

* `Migrations.Database.transaction_records`, `Migrations.Database.transaction_sql`: the two kinds of
  statements of a transaction.
* `Migrations.Upgrade.Progress.runFile`, `Migrations.Upgrade.Progress.adopt`: what the two
  transactions of a runner do to the progress.
-/

namespace Migrations

variable {Data : Type} {execute : List Char → Data → Option Data}

namespace Database

@[simp] theorem rows_createLedger (db : Database Data) : db.createLedger.rows = db.rows := by
  unfold createLedger rows
  cases db.ledger <;> rfl

@[simp] theorem rowsOf_createLedger (db : Database Data) (block : String) :
    db.createLedger.rowsOf block = db.rowsOf block := by
  rw [rowsOf, rows_createLedger, rowsOf]

@[simp] theorem rowsOf_stamp (db : Database Data) (block block' codeHash : String) :
    (db.stamp block codeHash).rowsOf block' = db.rowsOf block' := rfl

theorem rowsOf_of_append {db db' : Database Data} {more : List AppliedMigration}
    (h : db'.rows = db.rows ++ more) (block : String) :
    db'.rowsOf block = db.rowsOf block ++ more.filter (·.blockName = block) := by
  rw [rowsOf, rowsOf, h, List.filter_append]

/-- No two rows of a block name the same file. -/
theorem rowsOf_unique (db : Database Data) (block : String) :
    ((db.rowsOf block).map (·.fileName)).Nodup := by
  have hkeys : (db.rows.map AppliedMigration.key).Nodup := by
    unfold rows
    cases db.ledger with
    | none => exact List.nodup_nil
    | some ledger => exact ledger.unique
  have hsub := hkeys.sublist (List.filter_sublist.map AppliedMigration.key :
    ((db.rowsOf block).map AppliedMigration.key).Sublist _)
  refine List.Nodup.of_map (fun name => (block, name)) ?_
  rw [List.map_map]
  refine (List.map_congr_left fun row hrow => ?_) ▸ hsub
  have hblock : row.blockName = block := by simpa using List.of_mem_filter hrow
  rw [AppliedMigration.key, Function.comp_apply, hblock]

theorem transaction_append (db : Database Data) (first second : List Statement) :
    db.transaction execute (first ++ second) =
      (db.transaction execute first).bind fun db' => db'.transaction execute second := by
  simp [transaction, List.foldlM_append]

/-- A row that could be inserted was not there; it stands at the end of the table. -/
theorem statement_record {db db' : Database Data} {row : AppliedMigration}
    (h : db.statement execute (.record row) = some db') :
    row.key ∉ db.rows.map AppliedMigration.key ∧ db'.rows = db.rows ++ [row] ∧
      db'.currentHash = db.currentHash ∧ db'.data = db.data := by
  simp only [statement, Option.bind_eq_bind, Option.pure_def, Option.bind_eq_some_iff] at h
  obtain ⟨ledger, hledger, ledger', hinsert, hdb⟩ := h
  obtain ⟨hkey, hrows⟩ := Ledger.insert_eq_some.mp hinsert
  cases hdb
  refine ⟨?_, ?_, rfl, rfl⟩
  · rwa [rows, hledger]
  · rw [rows, rows, hledger]
    exact hrows

/-- Rows that could all be inserted stand at the end of the table; the first of them was new. -/
theorem transaction_records {db db' : Database Data} {more : List AppliedMigration}
    (h : db.transaction execute (more.map .record) = some db') :
    (∀ row ∈ more, row.key ∉ db.rows.map AppliedMigration.key) ∧ db'.rows = db.rows ++ more ∧
      db'.currentHash = db.currentHash ∧ db'.data = db.data := by
  induction more generalizing db with
  | nil =>
    cases h
    exact ⟨nofun, (List.append_nil _).symm, rfl, rfl⟩
  | cons row more ih =>
    simp only [transaction, List.map_cons, List.foldlM_cons, Option.bind_eq_bind,
      Option.bind_eq_some_iff] at h
    obtain ⟨mid, hmid, hrest⟩ := h
    obtain ⟨hkey, hrows, hhash, hdata⟩ := statement_record hmid
    obtain ⟨hkeys, hrows', hhash', hdata'⟩ := ih hrest
    refine ⟨fun row' hrow' => ?_, by rw [hrows', hrows, List.append_assoc]; rfl,
      hhash'.trans hhash, hdata'.trans hdata⟩
    rcases List.mem_cons.mp hrow' with rfl | hmem
    · exact hkey
    · intro hin
      refine hkeys row' hmem ?_
      rw [hrows, List.map_append]
      exact List.mem_append_left _ hin

/-- Texts act on the data alone. -/
theorem transaction_sql (db : Database Data) (queries : List (List Char)) :
    db.transaction execute (queries.map .sql) =
      (queries.foldlM (fun data query => execute query data) db.data).map fun data =>
        { db with data } := by
  induction queries generalizing db with
  | nil => rfl
  | cons query queries ih =>
    have hcons : db.transaction execute ((query :: queries).map .sql) =
        (execute query db.data).bind fun data =>
          ({ db with data } : Database Data).transaction execute (queries.map .sql) := by
      simp only [transaction, List.map_cons, List.foldlM_cons, statement, Option.bind_eq_bind,
        Option.pure_def, Option.bind_assoc, Option.bind_some]
    rw [hcons, List.foldlM_cons, Option.bind_eq_bind]
    cases execute query db.data with
    | none => rfl
    | some data => exact ih _

end Database

variable (execute) in
/-- The statements of some files, one file after the other; `none` where a statement fails. -/
def replay (files : List MigrationFile) (data : Data) : Option Data :=
  files.foldlM (fun data file =>
    (executableStatements file.sql).foldlM (fun data query => execute query data) data) data

theorem replay_append (first second : List MigrationFile) (data : Data) :
    replay execute (first ++ second) data =
      (replay execute first data).bind (replay execute second) := by
  simp [replay, List.foldlM_append]
  rfl

theorem replay_singleton (file : MigrationFile) (data : Data) :
    replay execute [file] data =
      (executableStatements file.sql).foldlM (fun data query => execute query data) data := by
  simp [replay]

theorem filter_own {block : String} {more : List AppliedMigration}
    (h : ∀ row ∈ more, row.blockName = block) :
    more.filter (·.blockName = block) = more :=
  List.filter_eq_self.mpr fun row hrow => decide_eq_true (h row hrow)

theorem filter_other {block : String} {more : List AppliedMigration}
    (h : ∀ row ∈ more, row.blockName = block)
    {other : String} (hother : other ≠ block) : more.filter (·.blockName = other) = [] :=
  List.filter_eq_nil_iff.mpr fun row hrow hsame =>
    hother ((of_decide_eq_true hsame).symm.trans (h row hrow))

/-- What is shipped for a block, and what the statements of its files do. A basename is a file's key
in the ledger. -/
structure Shipment (Data : Type) where
  execute : List Char → Data → Option Data
  sha256Hex : List Char → String
  block : String
  files : List MigrationFile
  distinct : (files.map (·.name)).Nodup

/-- A database whose ledger records the first files that are shipped. -/
structure Upgrade (Data : Type) extends Shipment Data where
  start : Database Data
  recorded : ℕ
  covers : Covers sha256Hex files recorded (start.rowsOf block)

namespace Upgrade

variable (U : Upgrade Data)

/-- What has become of the database at the start: the files up to `adopted` were adopted, those up
to `n` were run. -/
structure Progress (adopted n : ℕ) (db : Database Data) : Prop where
  recorded_le : U.recorded ≤ adopted
  adopted_le : adopted ≤ n
  le_length : n ≤ U.files.length
  /-- Nothing is adopted beside a record. -/
  adopts : U.recorded = 0 ∨ adopted = U.recorded
  rows : ∃ adoptedFrom, db.rowsOf U.block =
    U.start.rowsOf U.block ++
      ((U.files.take adopted).drop U.recorded).map
        (Runner.adoptedRow U.sha256Hex ⟨U.block⟩ adoptedFrom) ++
      ((U.files.take n).drop adopted).map (Runner.ranRow U.sha256Hex ⟨U.block⟩)
  data : replay U.execute ((U.files.take n).drop adopted) U.start.data = some db.data
  stamped : db.currentHash U.block = U.start.currentHash U.block ∨
    ∃ m ≤ n, db.currentHash U.block = migrationSetHash U.sha256Hex (U.files.take m)
  others : ∀ other, other ≠ U.block →
    db.rowsOf other = U.start.rowsOf other ∧ db.currentHash other = U.start.currentHash other

namespace Progress

variable {U} {db db' : Database Data} {adopted n : ℕ}

theorem refl : U.Progress U.recorded U.recorded U.start where
  recorded_le := Nat.le_refl _
  adopted_le := Nat.le_refl _
  le_length := U.covers.1
  adopts := .inr rfl
  rows := ⟨"", by simp⟩
  data := by simp [replay]
  stamped := .inl rfl
  others := fun _ _ => ⟨rfl, rfl⟩

/-- Consecutive parts of a list. -/
theorem drop_take_append {α : Type} (l : List α) {a b c : ℕ} (hab : a ≤ b) (hbc : b ≤ c)
    (hc : c ≤ l.length) : (l.take b).drop a ++ (l.take c).drop b = (l.take c).drop a := by
  have hsplit : l.take b ++ (l.take c).drop b = l.take c := by
    have := List.take_append_drop b (l.take c)
    rwa [List.take_take, Nat.min_eq_left hbc] at this
  conv_rhs => rw [← hsplit]
  rw [List.drop_append_of_le_length]
  rw [List.length_take]
  omega

theorem covers (h : U.Progress adopted n db) :
    Covers U.sha256Hex U.files n (db.rowsOf U.block) := by
  obtain ⟨adoptedFrom, hrows⟩ := h.rows
  refine ⟨h.le_length, ?_⟩
  have hsplit : U.files.take n = U.files.take U.recorded ++
      ((U.files.take adopted).drop U.recorded ++ (U.files.take n).drop adopted) := by
    rw [drop_take_append U.files h.recorded_le h.adopted_le h.le_length]
    have := drop_take_append U.files (Nat.zero_le U.recorded) (h.recorded_le.trans h.adopted_le)
      h.le_length
    simpa using this.symm
  rw [hrows]
  conv_rhs => rw [hsplit]
  rw [List.append_assoc, List.map_append, List.map_append, List.map_append, List.map_append,
    List.map_map, List.map_map]
  exact U.covers.2.append (List.Perm.refl _)

/-- A call that leaves the rows, the hashes and the data as they are. -/
theorem quiet (h : U.Progress adopted n db)
    (hrows : ∀ other, db'.rowsOf other = db.rowsOf other) (hhash : db'.currentHash = db.currentHash)
    (hdata : db'.data = db.data) :
    U.Progress adopted n db' where
  recorded_le := h.recorded_le
  adopted_le := h.adopted_le
  le_length := h.le_length
  adopts := h.adopts
  rows := by rw [hrows]; exact h.rows
  data := by rw [hdata]; exact h.data
  stamped := by rw [hhash]; exact h.stamped
  others := fun other hother => by rw [hrows, hhash]; exact h.others other hother

/-- A stamp with the hash of U.files that are all U.recorded. -/
theorem stamp (h : U.Progress adopted n db) {m : ℕ}
    (hm : m ≤ n) :
    U.Progress adopted n
      (db.stamp U.block (migrationSetHash U.sha256Hex (U.files.take m))) where
  recorded_le := h.recorded_le
  adopted_le := h.adopted_le
  le_length := h.le_length
  adopts := h.adopts
  rows := h.rows
  data := h.data
  stamped := .inr ⟨m, hm, Function.update_self ..⟩
  others := fun other hother =>
    ⟨(h.others other hother).1, (Function.update_of_ne hother ..).trans (h.others other hother).2⟩

/-- A file whose row could be inserted was the first that was not U.recorded. -/
theorem eq_of_new (h : U.Progress adopted n db) {j : ℕ} (hj : j ≤ n)
    {file : MigrationFile} (hfile : U.files[j]? = some file)
    (hnew : (U.block, file.name) ∉ db.rows.map AppliedMigration.key) : n = j := by
  by_contra hne
  obtain ⟨hlength, rfl⟩ := List.getElem?_eq_some_iff.mp hfile
  obtain ⟨row, hrow, hname⟩ := (h.covers).exists_row_iff.mpr
    ⟨U.files[j], List.mem_take_iff_getElem.mpr ⟨j, by omega, rfl⟩, rfl⟩
  obtain ⟨hmem, hblock⟩ := List.mem_filter.mp hrow
  refine hnew (List.mem_map.mpr ⟨row, hmem, ?_⟩)
  rw [AppliedMigration.key, hname, of_decide_eq_true hblock]

/-- The transaction of a file: the file was the first that was not U.recorded, and is now run. -/
theorem runFile (h : U.Progress adopted n db) {j : ℕ} (hj : j ≤ n)
    {file : MigrationFile} (hfile : U.files[j]? = some file)
    (htx : db.transaction U.execute (Runner.statements U.sha256Hex ⟨U.block⟩ file) = some db') :
    n = j ∧ U.Progress adopted (j + 1) db' := by
  have happend : Runner.statements U.sha256Hex ⟨U.block⟩ file =
      [Runner.ranRow U.sha256Hex ⟨U.block⟩ file].map .record ++
        (executableStatements file.sql).map .sql := rfl
  rw [happend, Database.transaction_append] at htx
  obtain ⟨mid, hmid, hrest⟩ := Option.bind_eq_some_iff.mp htx
  obtain ⟨hkeys, hrows, hhash, hdata⟩ := Database.transaction_records hmid
  rw [Database.transaction_sql] at hrest
  obtain ⟨data, hdata', rfl⟩ := Option.map_eq_some_iff.mp hrest
  obtain rfl : n = j := h.eq_of_new hj hfile (hkeys _ List.mem_cons_self)
  obtain ⟨hlength, rfl⟩ := List.getElem?_eq_some_iff.mp hfile
  have htake : (U.files.take (n + 1)).drop adopted =
      (U.files.take n).drop adopted ++ [U.files[n]] := by
    rw [List.take_succ_eq_append_getElem hlength, List.drop_append_of_le_length]
    rw [List.length_take]
    have := h.adopted_le
    omega
  have hown : ∀ row ∈ [Runner.ranRow U.sha256Hex ⟨U.block⟩ U.files[n]], row.blockName = U.block :=
    List.forall_mem_singleton.mpr rfl
  refine ⟨rfl, h.recorded_le, h.adopted_le.trans (Nat.le_succ n), hlength, h.adopts, ?_, ?_, ?_, ?_⟩
  · obtain ⟨adoptedFrom, hbefore⟩ := h.rows
    refine ⟨adoptedFrom, ?_⟩
    rw [htake, List.map_append, ← List.append_assoc, ← hbefore]
    refine (Database.rowsOf_of_append hrows U.block).trans ?_
    rw [filter_own hown]
    rfl
  · rw [htake, replay_append, h.data, Option.bind_some, replay_singleton, ← hdata]
    exact hdata'
  · change mid.currentHash U.block = _ ∨ ∃ m ≤ n + 1, mid.currentHash U.block = _
    rw [hhash]
    exact h.stamped.imp_right fun ⟨m, hm, hm'⟩ => ⟨m, hm.trans (Nat.le_succ n), hm'⟩
  · intro other hother
    refine ⟨?_, (congrFun hhash other).trans (h.others other hother).2⟩
    refine (Database.rowsOf_of_append hrows other).trans ?_
    rw [(h.others other hother).1, filter_other hown hother, List.append_nil]

/-- The transaction of an adoption: nothing was U.recorded, and the U.files are now. -/
theorem adopt (h : U.Progress adopted n db) {count : ℕ}
    (hcount : 0 < count) (hlength : count ≤ U.files.length) {adoptedFrom : String}
    (htx : db.transaction U.execute ((U.files.take count).map fun file =>
      .record (Runner.adoptedRow U.sha256Hex ⟨U.block⟩ adoptedFrom file)) = some db') :
    n = 0 ∧ U.Progress count count db' := by
  have hrecords : ((U.files.take count).map fun file =>
      Statement.record (Runner.adoptedRow U.sha256Hex ⟨U.block⟩ adoptedFrom file)) =
      ((U.files.take count).map (Runner.adoptedRow U.sha256Hex ⟨U.block⟩ adoptedFrom)).map
        .record := by
    rw [List.map_map]
    rfl
  rw [hrecords] at htx
  obtain ⟨hkeys, hrows, hhash, hdata⟩ := Database.transaction_records htx
  have hpos : 0 < U.files.length := hcount.trans_le hlength
  have hfirst : U.files[0]? = some U.files[0] := List.getElem?_eq_getElem hpos
  obtain rfl : n = 0 := h.eq_of_new (Nat.zero_le n) hfirst <| hkeys _ <|
    List.mem_map_of_mem (List.mem_take_iff_getElem.mpr ⟨0, by omega, rfl⟩)
  obtain rfl : adopted = 0 := Nat.le_zero.mp h.adopted_le
  have hrecorded : U.recorded = 0 := Nat.le_zero.mp h.recorded_le
  have hown : ∀ row ∈ (U.files.take count).map
      (Runner.adoptedRow U.sha256Hex ⟨U.block⟩ adoptedFrom), row.blockName = U.block :=
    List.forall_mem_map.mpr fun _ _ => rfl
  refine ⟨rfl, hrecorded.trans_le (Nat.zero_le _), Nat.le_refl _, hlength, .inl hrecorded,
    ⟨adoptedFrom, ?_⟩, ?_, ?_, ?_⟩
  · obtain ⟨_, hbefore⟩ := h.rows
    rw [Database.rowsOf_of_append hrows U.block, hbefore, filter_own hown, hrecorded]
    simp
  · have := h.data
    rw [hdata]
    simpa [replay] using this
  · rw [hhash]
    exact h.stamped.imp_right fun ⟨m, hm, hm'⟩ => ⟨m, hm.trans (Nat.zero_le _), hm'⟩
  · intro other hother
    refine ⟨?_, (congrFun hhash other).trans (h.others other hother).2⟩
    rw [Database.rowsOf_of_append hrows other, (h.others other hother).1,
      filter_other hown hother, List.append_nil]

end Progress

end Upgrade

/-- Two files over a database that keeps the statements it has run. -/
def twoFiles : Shipment (List (List Char)) where
  execute query ran := some (ran ++ [query])
  sha256Hex := String.ofList
  block := "impresspress/probe"
  files := [⟨"001_a", "CREATE a; CREATE b".toList⟩, ⟨"002_c", "CREATE c".toList⟩]
  distinct := by decide

/-- Nothing has been applied. -/
def freshDatabase : Database (List (List Char)) := ⟨none, fun _ => "", []⟩

def freshUpgrade : Upgrade (List (List Char)) :=
  { twoFiles with start := freshDatabase, recorded := 0, covers := ⟨Nat.zero_le _, List.Perm.nil⟩ }

example : replay twoFiles.execute twoFiles.files [] =
    some ["CREATE a".toList, "CREATE b".toList, "CREATE c".toList] := by decide

end Migrations
