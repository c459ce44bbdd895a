import Impresspress.Concurrent.RelyGuarantee
import Impresspress.Migrations.Progress

/-!
# Each file once, and in order

Builds of different ages migrate one database at the same time; the list of an older build is a
beginning of the list of a newer one. Any of them may stop anywhere, and any of its calls may fail,
or report a failure after having landed. Whatever happens, the ledger records the first files of the
list, and what the statements act on is what a single build that runs these files one after the
other leaves.

Source: `migration_helper.rs`, `Ledger::apply`, `Ledger::adopt`, `Ledger::run_file`.

## Main definitions

* `Migrations.Build`: a migrator of one database.
* `Migrations.Upgrade.Recorded`, `Migrations.Upgrade.Stamped`: what a build knows of the database.
* `Migrations.Upgrade.discipline`: what the builds keep together.

## Main results

* `Migrations.Upgrade.safe_apply`: a run of one build among the others.
* `Migrations.Upgrade.exec_progress`: any number of builds, in any order of their calls.
-/

namespace Migrations

open Concurrent Discipline

/-- One migrator: a block's `Init` in a runtime, or a list applied before there is a runtime. -/
inductive Build
  | init (ctx : Context) (migrations : BlockMigrations)
  | preBuild (block : String) (files : List MigrationFile) (history : List HistoricalState)

namespace Build

def block : Build → String
  | .init _ migrations => migrations.block
  | .preBuild block _ _ => block

/-- The list that the build ships in the dialect of its runtime. -/
def files : Build → List MigrationFile
  | .init ctx migrations =>
    match dbBackend ctx with
    | .ok backend => (migrations.forBackend backend).1
    | .error _ => []
  | .preBuild _ files _ => files

theorem files_init {ctx : Context} {migrations : BlockMigrations} {backend : Backend}
    (h : dbBackend ctx = .ok backend) :
    (init ctx migrations).files = (migrations.forBackend backend).1 := by
  simp [files, h]

/-- What the build does; there is an outcome where a runtime reports one. -/
def program (sha256Hex : List Char → String) :
    Build → Program Call (Outcome Failure Reply) (Except MigrationError (Option MigrationOutcome))
  | .init ctx migrations => (some <$> applyMigrations sha256Hex ctx migrations).run
  | .preBuild block files history =>
    ((fun _ => none) <$> applyPendingViaService sha256Hex block files history).run

/-- The build migrates the block, and its list is a beginning of the newest one. -/
structure Ships {Data : Type} (build : Build) (newest : Shipment Data) : Prop where
  block_eq : build.block = newest.block
  isPrefix : build.files <+: newest.files

end Build

section Calls

variable {Data : Type} {execute : List Char → Data → Option Data}

theorem serve_of_ok {chance : Chance} {c : Call} {db : Database Data} {reply : Reply c}
    (h : (perform execute chance c db).1 = .ok reply) :
    db.serve execute chance.listed c = some (reply, (perform execute chance c db).2) := by
  unfold perform at h ⊢
  split at h
  · rename_i hserve
    cases h
    simpa using hserve
  · cases h
  · cases h

/-- A call leaves the database as it is, or it was served. -/
theorem perform_snd (execute : List Char → Data → Option Data) (chance : Chance) (c : Call)
    (db : Database Data) :
    (perform execute chance c db).2 = db ∨
      ∃ reply, db.serve execute chance.listed c =
        some (reply, (perform execute chance c db).2) := by
  unfold perform
  split
  · rename_i hserve
    exact .inr ⟨_, hserve⟩
  · rename_i hserve
    exact .inr ⟨_, hserve⟩
  · exact .inl rfl

/-- Rows are only ever added. -/
theorem rows_isPrefix_of_transaction {statements : List Statement} {db db' : Database Data}
    (h : db.transaction execute statements = some db') : db.rows <+: db'.rows := by
  induction statements generalizing db with
  | nil =>
    cases h
    exact List.prefix_rfl
  | cons statement statements ih =>
    simp only [Database.transaction, List.foldlM_cons, Option.bind_eq_bind,
      Option.bind_eq_some_iff] at h
    obtain ⟨mid, hmid, hrest⟩ := h
    refine List.IsPrefix.trans ?_ (ih hrest)
    cases statement with
    | record row =>
      rw [(Database.statement_record hmid).2.1]
      exact List.prefix_append _ _
    | sql query =>
      obtain ⟨data, _, hmid⟩ := Option.bind_eq_some_iff.mp hmid
      cases hmid
      exact List.prefix_rfl

theorem rows_isPrefix (chance : Chance) (c : Call) (db : Database Data) :
    db.rows <+: (perform execute chance c db).2.rows := by
  rcases perform_snd execute chance c db with hsame | ⟨reply, hserve⟩
  · rw [hsame]
  · cases c with
    | createLedger =>
      rw [← (Prod.mk.inj (Option.some.inj hserve)).2, Database.rows_createLedger]
    | ledger block =>
      obtain ⟨_, _, hpair⟩ := Option.map_eq_some_iff.mp hserve
      rw [← (Prod.mk.inj hpair).2]
    | transaction statements =>
      obtain ⟨db', htx, hpair⟩ := Option.map_eq_some_iff.mp hserve
      rw [← (Prod.mk.inj hpair).2]
      exact rows_isPrefix_of_transaction htx
    | loadSettings block => rw [← (Prod.mk.inj (Option.some.inj hserve)).2]
    | stamp block codeHash =>
      rw [← (Prod.mk.inj (Option.some.inj hserve)).2]
      exact List.prefix_rfl

variable (execute) in
/-- A call that changes no row, no hash and no data. -/
def Quiet (c : Call) : Prop :=
  ∀ listed (db db' : Database Data) reply, db.serve execute listed c = some (reply, db') →
    (∀ other, db'.rowsOf other = db.rowsOf other) ∧ db'.currentHash = db.currentHash ∧
      db'.data = db.data

theorem quiet_createLedger : Quiet execute .createLedger := by
  intro listed db db' reply h
  cases h
  exact ⟨fun other => Database.rowsOf_createLedger db other, rfl, rfl⟩

theorem quiet_ledger (block : String) : Quiet execute (.ledger block) := by
  intro listed db db' reply h
  obtain ⟨_, _, hpair⟩ := Option.map_eq_some_iff.mp h
  cases hpair
  exact ⟨fun _ => rfl, rfl, rfl⟩

theorem quiet_loadSettings (block : String) : Quiet execute (.loadSettings block) := by
  intro listed db db' reply h
  cases h
  exact ⟨fun _ => rfl, rfl, rfl⟩

end Calls

namespace Upgrade

variable {ι Data : Type} (U : Upgrade Data)

/-- The database has come from the start, and at least the first `k` files are recorded. -/
def Recorded (k : ℕ) (past : History ι (Database Data) (Outcome Failure Reply)) : Prop :=
  ∃ adopted n, U.Progress adopted n (past.store U.start) ∧ k ≤ n

/-- The hash is the one that the block had at the start, or that of files which are recorded. -/
def Stamped (hash : String) (past : History ι (Database Data) (Outcome Failure Reply)) : Prop :=
  hash = U.start.currentHash U.block ∨
    ∃ m, hash = migrationSetHash U.sha256Hex (U.files.take m) ∧ U.Recorded m past

/-- The database is somewhere on its way. -/
def discipline : Discipline ι (Database Data) (Outcome Failure Reply) where
  inv := U.Recorded 0
  guarantee := fun _ _ => True

end Upgrade

/-- What holds at the end of a run that has not failed. -/
def Ends {α Past : Type} (Q : α → Past → Prop) : Except MigrationError α → Past → Prop
  | .ok a, past => Q a past
  | .error _, _ => True

section Rules

variable {ι Data α β : Type} {perform' : Chance → (c : Call) → Database Data →
    Outcome Failure Reply c × Database Data}
  {D : Discipline ι (Database Data) (Outcome Failure Reply)} {start : Database Data} {i : ι}
  {past : History ι (Database Data) (Outcome Failure Reply)}

theorem safe_pure {a : α} {Q : α → History ι (Database Data) (Outcome Failure Reply) → Prop}
    (hstable : D.Stable perform' start i (Q a)) (h : Q a past) :
    D.Safe perform' start i (pure a : Migrator α).run past (Ends Q) :=
  Safe.done hstable h

theorem safe_throw {e : MigrationError}
    {Q : α → History ι (Database Data) (Outcome Failure Reply) → Prop} :
    D.Safe perform' start i (throw e : Migrator α).run past (Ends Q) :=
  Safe.done (Stable.true i) trivial

theorem safe_trivial {p : Migrator α} (h : ∃ result, p.run = .done result) :
    D.Safe perform' start i p.run past (Ends fun _ _ => True) := by
  obtain ⟨result, h⟩ := h
  rw [h]
  cases result with
  | ok a => exact safe_pure (Stable.true i) trivial
  | error e => exact safe_throw

theorem safe_bind {p : Migrator α} {f : α → Migrator β}
    {Q : α → History ι (Database Data) (Outcome Failure Reply) → Prop}
    {R : β → History ι (Database Data) (Outcome Failure Reply) → Prop}
    (hp : D.Safe perform' start i p.run past (Ends Q))
    (hf : ∀ a past, Q a past → D.Safe perform' start i (f a).run past (Ends R)) :
    D.Safe perform' start i (p >>= f).run past (Ends R) :=
  Safe.bind (hp.mono fun result past h =>
    match result with
    | .ok a => hf a past h
    | .error _ => safe_throw)

theorem safe_map {p : Migrator α} {f : α → β}
    {Q : α → History ι (Database Data) (Outcome Failure Reply) → Prop}
    {R : β → History ι (Database Data) (Outcome Failure Reply) → Prop}
    (hp : D.Safe perform' start i p.run past (Ends Q)) (hR : ∀ b, D.Stable perform' start i (R b))
    (h : ∀ a past, Q a past → R (f a) past) :
    D.Safe perform' start i (f <$> p).run past (Ends R) := by
  rw [← bind_pure_comp]
  exact safe_bind hp fun a past ha => safe_pure (hR (f a)) (h a past ha)

end Rules

namespace Upgrade

variable {ι Data : Type} {U : Upgrade Data} {i : ι} {k : ℕ}
  {past : History ι (Database Data) (Outcome Failure Reply)}

theorem Progress.length {adopted n : ℕ} {db : Database Data} (h : U.Progress adopted n db) :
    (db.rowsOf U.block).length = n := h.covers.length_eq

theorem Recorded.mono {j : ℕ} (h : U.Recorded k past) (hj : j ≤ k) : U.Recorded j past :=
  let ⟨adopted, n, hprogress, hk⟩ := h
  ⟨adopted, n, hprogress, hj.trans hk⟩

/-- What is recorded stays recorded. -/
theorem stable_recorded (k : ℕ) :
    U.discipline.Stable (perform U.execute) U.start i (U.Recorded k) := by
  intro past m h _ hallowed
  obtain ⟨_, n, hprogress, hk⟩ := h
  obtain ⟨adopted', n', hprogress', _⟩ : U.Recorded 0 (m :: past) := hallowed.inv
  obtain ⟨chance, _, hafter⟩ := hallowed.happened
  refine ⟨adopted', n', hprogress', hk.trans ?_⟩
  have hgrows : (past.store U.start).rows <+: m.after.rows := by
    rw [hafter, ← hallowed.before]
    exact rows_isPrefix chance m.call m.before
  rw [← hprogress.length, ← hprogress'.length]
  exact (hgrows.filter _).length_le

theorem stable_stamped (hash : String) :
    U.discipline.Stable (perform U.execute) U.start i (U.Stamped hash) := by
  intro past m h hm hallowed
  exact h.imp_right fun ⟨k, hhash, hk⟩ => ⟨k, hhash, stable_recorded k past m hk hm hallowed⟩

/-- What a call leads to when it moves the database from one progress to another. -/
def Moves (k k' : ℕ) (c : Call) : Prop :=
  ∀ listed adopted n db reply db', U.Progress adopted n db → k ≤ n →
    db.serve U.execute listed c = some (reply, db') →
    ∃ adopted' n', U.Progress adopted' n' db' ∧ n ≤ n' ∧ k' ≤ n'

theorem moves_of_quiet {c : Call} (hc : Quiet U.execute c) : U.Moves k k c := by
  intro listed adopted n db reply db' h hk hserve
  obtain ⟨hrows, hhash, hdata⟩ := hc listed db db' reply hserve
  exact ⟨adopted, n, h.quiet hrows hhash hdata, Nat.le_refl n, hk⟩

/-- A call, and what follows it: it was served at a database that has come so far, or it failed. -/
theorem safe_ask {α : Type} {c : Call} {f : Outcome Failure Reply c → Migrator α} {k' : ℕ}
    {post : Except MigrationError α → History ι (Database Data) (Outcome Failure Reply) → Prop}
    (hmoves : U.Moves k k' c) (h : U.Recorded k past)
    (hok : ∀ past (chance : Chance) reply before adopted n, U.Progress adopted n before → k ≤ n →
      U.Recorded n past → U.Recorded k' past →
      before.serve U.execute chance.listed c = some (reply, past.store U.start) →
      U.discipline.Safe (perform U.execute) U.start i (f (.ok reply)).run past post)
    (herror : ∀ past failure, U.Recorded k past →
      U.discipline.Safe (perform U.execute) U.start i (f (.error failure)).run past post) :
    U.discipline.Safe (perform U.execute) U.start i (ask c >>= f).run past post := by
  refine Safe.call (U.Recorded k) (stable_recorded k) h fun past h _ chance =>
    ⟨trivial, fun _ => ?_⟩
  obtain ⟨adopted, n, hprogress, hk⟩ := h
  set m := Pool.momentOf (perform U.execute) i chance c (past.store U.start) with hm
  have hafter : U.Recorded n (m :: past) ∧
      ((∃ reply, (perform U.execute chance c (past.store U.start)).1 = .ok reply) →
        U.Recorded k' (m :: past)) := by
    rcases perform_snd U.execute chance c (past.store U.start) with
      hsame | ⟨reply, hserve⟩
    · refine ⟨⟨adopted, n, ?_, Nat.le_refl n⟩, fun ⟨reply, hanswer⟩ => ?_⟩
      · change U.Progress adopted n (perform U.execute chance c (past.store U.start)).2
        rwa [hsame]
      · obtain ⟨adopted', n', hprogress', _, hk'⟩ :=
          hmoves _ _ _ _ _ _ hprogress hk (serve_of_ok hanswer)
        exact ⟨adopted', n', hprogress', hk'⟩
    · obtain ⟨adopted', n', hprogress', hn', hk'⟩ := hmoves _ _ _ _ _ _ hprogress hk hserve
      exact ⟨⟨adopted', n', hprogress', hn'⟩, fun _ => ⟨adopted', n', hprogress', hk'⟩⟩
  refine ⟨hafter.1.mono (Nat.zero_le n), ?_⟩
  cases hanswer : (perform U.execute chance c (past.store U.start)).1 with
  | ok reply =>
    exact hok _ chance reply _ adopted n hprogress hk hafter.1 (hafter.2 ⟨reply, hanswer⟩)
      (serve_of_ok hanswer)
  | error failure => exact herror _ failure (hafter.1.mono hk)

/-- A call that ends the run when it fails. -/
theorem safe_step {name : String} {c : Call} {k' : ℕ} (hmoves : U.Moves k k' c)
    (h : U.Recorded k past) :
    U.discipline.Safe (perform U.execute) U.start i ((Runner.mk U.block).step name c).run past
      (Ends fun _ => U.Recorded k') :=
  safe_ask hmoves h
    (fun _ _ _ _ _ _ _ _ _ hk' _ => safe_pure (stable_recorded k') hk')
    fun _ _ _ => safe_throw

/-- The rows that were read are those of some database on the way. -/
def Read (U : Upgrade Data) (k : ℕ) (rows : List AppliedMigration)
    (past : History ι (Database Data) (Outcome Failure Reply)) : Prop :=
  ∃ n, Covers U.sha256Hex U.files n rows ∧ k ≤ n ∧ U.Recorded n past

theorem stable_read (rows : List AppliedMigration) :
    U.discipline.Stable (perform U.execute) U.start i (U.Read k rows) :=
  fun past m ⟨n, hcovers, hk, hn⟩ hm hallowed =>
    ⟨n, hcovers, hk, stable_recorded n past m hn hm hallowed⟩

theorem read_of_serve {chance : Chance} {rows : List AppliedMigration} {before : Database Data}
    {adopted n : ℕ} (h : U.Progress adopted n before) (hk : k ≤ n) (hn : U.Recorded n past)
    (hserve : before.serve U.execute chance.listed (.ledger U.block) =
      some (rows, past.store U.start)) : U.Read k rows past := by
  obtain ⟨_, _, hpair⟩ := Option.map_eq_some_iff.mp hserve
  obtain ⟨rfl, _⟩ := Prod.mk.inj hpair
  exact ⟨n, h.covers.congr (chance.listed_perm _), hk, hn⟩

theorem safe_readLedger (h : U.Recorded k past) :
    U.discipline.Safe (perform U.execute) U.start i (Runner.mk U.block).readLedger.run past
      (Ends (U.Read k)) :=
  safe_ask (moves_of_quiet (quiet_ledger U.block)) h
    (fun _ _ rows _ _ _ hprogress hk hn _ hserve =>
      safe_pure (stable_read rows) (read_of_serve hprogress hk hn hserve))
    fun _ _ _ => safe_throw

theorem safe_reread {file : String} {failure : Failure} (h : U.Recorded k past) :
    U.discipline.Safe (perform U.execute) U.start i
      ((Runner.mk U.block).reread file failure).run past (Ends (U.Read k)) :=
  safe_ask (moves_of_quiet (quiet_ledger U.block)) h
    (fun _ _ rows _ _ _ hprogress hk hn _ hserve =>
      safe_pure (stable_read rows) (read_of_serve hprogress hk hn hserve))
    fun _ _ _ => safe_throw

/-- Where a shorter list resumes is how far the database had come. -/
theorem eq_of_plan {files : List MigrationFile} (hfiles : files <+: U.files) {n firstPending : ℕ}
    {rows : List AppliedMigration} (hrows : Covers U.sha256Hex U.files n rows)
    (hplan : plan U.sha256Hex files rows = .ok firstPending) :
    n = firstPending ∧ firstPending ≤ files.length := by
  have hdistinct : (files.map (·.name)).Nodup := U.distinct.sublist (hfiles.sublist.map _)
  have hcovers := (plan_eq_ok hdistinct (hrows.unique U.distinct)).mp hplan
  exact ⟨hrows.length_eq.symm.trans hcovers.length_eq, hcovers.1⟩

theorem safe_plan {files : List MigrationFile} (hfiles : files <+: U.files)
    {rows : List AppliedMigration} (h : U.Read k rows past) :
    U.discipline.Safe (perform U.execute) U.start i
      ((Runner.mk U.block).plan U.sha256Hex files rows).run past
      (Ends fun firstPending past => firstPending ≤ files.length ∧ k ≤ firstPending ∧
        U.Recorded firstPending past) := by
  obtain ⟨n, hrows, hk, hn⟩ := h
  unfold Runner.plan
  cases hplan : plan U.sha256Hex files rows with
  | error refusal => exact safe_throw
  | ok firstPending =>
    obtain ⟨rfl, hlength⟩ := eq_of_plan hfiles hrows hplan
    exact safe_pure (fun past m h hm hallowed =>
      ⟨h.1, h.2.1, stable_recorded _ past m h.2.2 hm hallowed⟩) ⟨hlength, hk, hn⟩

/-- One file of the list, when those before it are recorded. -/
theorem safe_runFile {files : List MigrationFile} (hfiles : files <+: U.files) {fresh : Bool}
    {file : MigrationFile} (hfile : files[k]? = some file) (h : U.Recorded k past) :
    U.discipline.Safe (perform U.execute) U.start i
      ((Runner.mk U.block).runFile U.sha256Hex files fresh file).run past
      (Ends fun _ => U.Recorded (k + 1)) := by
  have hnewest : U.files[k]? = some file := by
    obtain ⟨rest, hrest⟩ := hfiles
    obtain ⟨hlength, _⟩ := List.getElem?_eq_some_iff.mp hfile
    rw [← hrest, List.getElem?_append_left hlength, hfile]
  have hmoves : U.Moves k (k + 1)
      (.transaction (Runner.statements U.sha256Hex ⟨U.block⟩ file)) := by
    intro listed adopted n db reply db' hprogress hk hserve
    obtain ⟨db'', htx, hpair⟩ := Option.map_eq_some_iff.mp hserve
    obtain ⟨_, rfl⟩ := Prod.mk.inj hpair
    obtain ⟨rfl, hprogress'⟩ := hprogress.runFile hk hnewest htx
    exact ⟨adopted, n + 1, hprogress', Nat.le_succ n, Nat.le_refl _⟩
  refine safe_ask hmoves h
    (fun _ _ _ _ _ _ _ _ _ hk' _ => safe_pure (stable_recorded (k + 1)) hk')
    fun past failure h => safe_bind (safe_reread h) fun rows past hread => ?_
  -- the rows that were read say whether the file is recorded
  unfold Runner.decide
  cases hrecorded : Migrations.recorded rows file.name with
  | none =>
    dsimp only
    split_ifs
    · exact safe_throw
    · exact safe_throw
    · exact safe_throw
  | some row =>
    dsimp only
    split_ifs with hhash
    · have hread' : U.Read (k + 1) rows past := by
        obtain ⟨n, hrows, _, hn⟩ := hread
        obtain ⟨hmem, hname⟩ := of_recorded hrecorded
        obtain ⟨early, hearly, hsame⟩ := hrows.exists_row_iff.mp ⟨row, hmem, hname⟩
        obtain ⟨j, hj, rfl⟩ := List.mem_take_iff_getElem.mp hearly
        obtain ⟨hlength, rfl⟩ := List.getElem?_eq_some_iff.mp hnewest
        have hjk : j = k := index_eq U.distinct (by omega) hlength hsame
        exact ⟨n, hrows, by omega, hn⟩
      exact safe_bind (safe_plan hfiles hread') fun _ _ hplanned =>
        safe_pure (stable_recorded (k + 1)) (hplanned.2.2.mono hplanned.2.1)
    · exact safe_throw

/-- The pending files, one after the other. -/
theorem safe_runFiles {files : List MigrationFile} (hfiles : files <+: U.files) {fresh : Bool}
    (hk : k ≤ files.length) (h : U.Recorded k past) :
    U.discipline.Safe (perform U.execute) U.start i
      ((files.drop k).forM ((Runner.mk U.block).runFile U.sha256Hex files fresh)).run past
      (Ends fun _ => U.Recorded files.length) := by
  obtain ⟨todo, htodo⟩ : ∃ todo, files.drop k = todo := ⟨_, rfl⟩
  rw [htodo]
  induction todo generalizing k past with
  | nil =>
    have hlength : files.length ≤ k := List.drop_eq_nil_iff.mp htodo
    exact safe_pure (stable_recorded _) (h.mono hlength)
  | cons file todo ih =>
    have hlength : k < files.length := by
      by_contra hge
      rw [List.drop_eq_nil_of_le (Nat.le_of_not_lt hge)] at htodo
      cases htodo
    rw [List.drop_eq_getElem_cons hlength] at htodo
    obtain ⟨rfl, rfl⟩ := List.cons.inj htodo
    exact safe_bind (safe_runFile hfiles (List.getElem?_eq_getElem hlength) h) fun _ _ hnext =>
      ih hlength hnext rfl

/-- The files that a supported state of the history already has. -/
theorem safe_adopt {files : List MigrationFile} (hfiles : files <+: U.files) {count : ℕ}
    (hcount : 0 < count) (hlength : count ≤ files.length) {adoptedFrom : String}
    (h : U.Recorded 0 past) :
    U.discipline.Safe (perform U.execute) U.start i
      ((Runner.mk U.block).adopt U.sha256Hex (files.take count) files adoptedFrom).run past
      (Ends fun firstPending past => firstPending ≤ files.length ∧
        U.Recorded firstPending past) := by
  have htake : files.take count = U.files.take count := by
    obtain ⟨rest, hrest⟩ := hfiles
    rw [← hrest, List.take_append_of_le_length hlength]
  have hstable : ∀ firstPending, U.discipline.Stable (perform U.execute) U.start i
      fun past => firstPending ≤ files.length ∧ U.Recorded firstPending past :=
    fun firstPending past m h hm hallowed =>
      ⟨h.1, stable_recorded firstPending past m h.2 hm hallowed⟩
  have hmoves : U.Moves 0 count (.transaction ((files.take count).map fun file =>
      .record (Runner.adoptedRow U.sha256Hex ⟨U.block⟩ adoptedFrom file))) := by
    intro listed adopted n db reply db' hprogress _ hserve
    obtain ⟨db'', htx, hpair⟩ := Option.map_eq_some_iff.mp hserve
    obtain ⟨_, rfl⟩ := Prod.mk.inj hpair
    rw [htake] at htx
    obtain ⟨rfl, hprogress'⟩ := hprogress.adopt hcount (hlength.trans hfiles.length_le) htx
    exact ⟨count, count, hprogress', Nat.zero_le _, Nat.le_refl _⟩
  refine safe_ask hmoves h (fun _ _ _ _ _ _ _ _ _ hk' _ => safe_pure (hstable _) ?_)
    fun past failure h => safe_bind (safe_reread h) fun rows past hread =>
      safe_bind (safe_plan hfiles hread) fun firstPending past hplanned => ?_
  · rw [List.length_take, Nat.min_eq_left hlength]
    exact ⟨hlength, hk'⟩
  · dsimp only
    split_ifs
    · exact safe_pure (hstable _) ⟨hplanned.1, hplanned.2.2⟩
    · exact safe_throw

theorem of_classify {currentHash : String} {files : List MigrationFile}
    {history : List HistoricalState} {count : ℕ}
    (h : classify currentHash files history = .ok (.adopt count)) :
    0 < count ∧ count ≤ files.length := by
  unfold classify at h
  split_ifs at h with hempty
  · cases h
  split at h
  · cases h
  · split at h
    · cases h
    · split_ifs at h with hadopts
      cases h
      exact ⟨List.length_pos_iff.mpr hadopts.1, hadopts.2.1⟩

/-- A run of one build among the others: at its end its files are all recorded. -/
theorem safe_apply {files : List MigrationFile} (hfiles : files <+: U.files)
    {history : List HistoricalState} {currentHash : String} (h : U.Recorded 0 past) :
    U.discipline.Safe (perform U.execute) U.start i
      ((Runner.mk U.block).apply U.sha256Hex files history currentHash
        (migrationSetHash U.sha256Hex files)).run past
      (Ends fun _ => U.Recorded files.length) := by
  have hstable : ∀ resumed : ℕ × Bool, U.discipline.Stable (perform U.execute) U.start i
      fun past => resumed.1 ≤ files.length ∧ U.Recorded resumed.1 past :=
    fun resumed past m h hm hallowed => ⟨h.1, stable_recorded resumed.1 past m h.2 hm hallowed⟩
  have hstamp : U.Moves files.length files.length
      (.stamp U.block (migrationSetHash U.sha256Hex files)) := by
    intro listed adopted n db reply db' hprogress hk hserve
    obtain ⟨_, rfl⟩ := Prod.mk.inj (Option.some.inj hserve)
    obtain ⟨rest, hrest⟩ := hfiles
    have htake : files = U.files.take files.length := by rw [← hrest, List.take_left]
    refine ⟨adopted, n, ?_, Nat.le_refl n, hk⟩
    rw [htake]
    exact hprogress.stamp hk
  refine safe_bind (safe_step (moves_of_quiet quiet_createLedger) h) fun _ past h =>
    safe_bind (safe_readLedger h) fun rows past hread =>
      safe_bind (Q := fun resumed past => resumed.1 ≤ files.length ∧ U.Recorded resumed.1 past) ?_
        fun resumed past hresumed => ?_
  · unfold Runner.resume
    obtain ⟨n, _, _, hn⟩ := id hread
    have h0 : U.Recorded 0 past := hn.mono (Nat.zero_le n)
    split_ifs
    · cases hclass : classify currentHash files history with
      | error message => exact safe_throw
      | ok found =>
        cases found with
        | fresh => exact safe_pure (hstable _) ⟨Nat.zero_le _, h0⟩
        | adopt count =>
          obtain ⟨hcount, hlength⟩ := of_classify hclass
          exact safe_bind (safe_adopt hfiles hcount hlength h0) fun firstPending past h =>
            safe_pure (hstable (firstPending, false)) h
        | unsupported state reason => exact safe_throw
        | unknown => exact safe_throw
    · exact safe_bind (safe_plan hfiles hread) fun firstPending past h =>
        safe_pure (hstable (firstPending, false)) ⟨h.1, h.2.2⟩
  · exact safe_bind (safe_runFiles hfiles hresumed.1 hresumed.2) fun _ past h =>
      safe_bind (safe_step hstamp h) fun _ past h => safe_pure (stable_recorded _) h

/-- Where the outcome is that the list was applied, its files are recorded. -/
def Vouches (U : Upgrade Data) (files : List MigrationFile) (outcome : MigrationOutcome)
    (past : History ι (Database Data) (Outcome Failure Reply)) : Prop :=
  ∀ filesRun, outcome = .applied filesRun → U.Recorded files.length past

theorem stable_vouches (files : List MigrationFile) (outcome : MigrationOutcome) :
    U.discipline.Stable (perform U.execute) U.start i (U.Vouches files outcome) :=
  fun past m h hm hallowed filesRun houtcome =>
    stable_recorded _ past m (h filesRun houtcome) hm hallowed

theorem safe_applyPending {ctx : Context} {files : List MigrationFile} (hfiles : files <+: U.files)
    {history : List HistoricalState} (h : U.Recorded 0 past) :
    U.discipline.Safe (perform U.execute) U.start i
      (applyPending U.sha256Hex ctx U.block files history).run past (Ends (U.Vouches files)) := by
  unfold applyPending
  dsimp only
  split_ifs
  · exact safe_pure (stable_vouches files _) nofun
  · cases dbBackend ctx with
    | error error => exact safe_throw
    | ok backend =>
      exact safe_map (safe_apply hfiles h) (stable_vouches files) fun _ _ h _ _ => h
  · exact safe_pure (stable_vouches files _) nofun

/-- The hash that the block had was stamped by a build, if it is not the one at the start. -/
theorem safe_loadSettings {name : String} (h : U.Recorded 0 past) :
    U.discipline.Safe (perform U.execute) U.start i
      ((Runner.mk U.block).step name (.loadSettings U.block)).run past
      (Ends fun hash past => U.Stamped hash past ∧ U.Recorded 0 past) := by
  refine safe_ask (moves_of_quiet (quiet_loadSettings U.block)) h
    (fun past chance hash before adopted n hprogress _ hn h0 hserve =>
      safe_pure ((stable_stamped hash).and (stable_recorded 0)) ⟨?_, h0⟩) fun _ _ _ => safe_throw
  obtain ⟨rfl, _⟩ := Prod.mk.inj (Option.some.inj hserve)
  exact hprogress.stamped.imp_right fun ⟨m, hm, hhash⟩ => ⟨m, hhash, hn.mono hm⟩

theorem safe_applyPendingViaService {files : List MigrationFile} (hfiles : files <+: U.files)
    {history : List HistoricalState} (h : U.Recorded 0 past) :
    U.discipline.Safe (perform U.execute) U.start i
      (applyPendingViaService U.sha256Hex U.block files history).run past
      (Ends fun _ past => U.Recorded files.length past ∨
        U.Stamped (migrationSetHash U.sha256Hex files) past) := by
  have hstable : U.discipline.Stable (perform U.execute) U.start i fun past =>
      U.Recorded files.length past ∨ U.Stamped (migrationSetHash U.sha256Hex files) past :=
    fun past m h hm hallowed => h.imp (fun h => stable_recorded _ past m h hm hallowed)
      fun h => stable_stamped _ past m h hm hallowed
  refine safe_bind (safe_loadSettings h) fun hash past hloaded => ?_
  split_ifs with hhash
  · exact safe_pure hstable (.inr (hhash ▸ hloaded.1))
  · exact safe_bind (safe_apply hfiles hloaded.2) fun _ past h => safe_pure hstable (.inl h)

/-- What the result of a build says of its list. -/
def Answered (U : Upgrade Data) (build : Build) :
    Option MigrationOutcome → History ι (Database Data) (Outcome Failure Reply) → Prop
  | some outcome, past => U.Vouches build.files outcome past
  | none, past => U.Recorded build.files.length past ∨
    U.Stamped (migrationSetHash U.sha256Hex build.files) past

theorem stable_answered (build : Build) (answer : Option MigrationOutcome) :
    U.discipline.Stable (perform U.execute) U.start i (U.Answered build answer) := by
  cases answer with
  | some outcome => exact stable_vouches build.files outcome
  | none =>
    exact fun past m h hm hallowed => h.imp (fun h => stable_recorded _ past m h hm hallowed)
      fun h => stable_stamped _ past m h hm hallowed

theorem safe_program {build : Build} (hships : build.Ships U.toShipment) (h : U.Recorded 0 past) :
    U.discipline.Safe (perform U.execute) U.start i (build.program U.sha256Hex) past
      (Ends (U.Answered build)) := by
  obtain ⟨hblock, hbegins⟩ := hships
  cases build with
  | init ctx migrations =>
    refine safe_map (Q := U.Vouches (Build.init ctx migrations).files) ?_
      (stable_answered _) fun _ _ h => h
    unfold applyMigrations
    cases hbackend : dbBackend ctx with
    | error error => exact safe_throw
    | ok backend =>
      rw [Build.files_init hbackend] at hbegins ⊢
      change migrations.block = U.block at hblock
      dsimp only
      rw [hblock]
      exact safe_applyPending hbegins h
  | preBuild block files history =>
    change block = U.block at hblock
    subst hblock
    exact safe_map (safe_applyPendingViaService hbegins h) (stable_answered _) fun _ _ h => h

end Upgrade

section Statement

open Upgrade

variable {ι Data : Type} [DecidableEq ι]

/-- Every state that the builds reach is one of the upgrade, and what they answer is so. -/
theorem Upgrade.exec_progress (U : Upgrade Data) {builds : ι → Build}
    (hships : ∀ i, (builds i).Ships U.toShipment) (schedule : List (ι × Chance)) :
    let run := (Pool.launch U.start fun i => (builds i).program U.sha256Hex).exec
      (perform U.execute) schedule
    (∃ adopted n, U.Progress adopted n run.store) ∧
      (∀ k, U.Recorded k run.history → ∃ adopted n, U.Progress adopted n run.store ∧ k ≤ n) ∧
      ∀ i answer, run.running i = .done (.ok answer) →
        U.Answered (builds i) answer run.history := by
  intro run
  have h0 : U.Recorded 0 ([] : History ι (Database Data) (Outcome Failure Reply)) :=
    ⟨U.recorded, U.recorded, Progress.refl, Nat.zero_le _⟩
  obtain ⟨⟨adopted, n, hprogress, _⟩, hdone⟩ := exec_safe (D := U.discipline) h0
    (fun i => safe_program (hships i) h0) schedule (Along.of_forall (fun _ _ => trivial) _)
  have hstore : run.store = run.history.store U.start := by
    rw [Pool.store, Pool.exec_start]
    rfl
  rw [hstore]
  exact ⟨⟨adopted, n, hprogress⟩, fun _ h => h, fun i answer h => hdone i _ h⟩

/-- Any number of builds migrate a database at the same time, whichever of their calls fail and
wherever they stop. At every moment the ledger records the first files of the newest list, with the
hashes that are shipped; those that it says were run have been run, each of them once and in the
order of the list; and the files of a build that says it has applied them are all recorded. -/
theorem each_file_once (U : Upgrade Data) (builds : ι → Build)
    (hships : ∀ i, (builds i).Ships U.toShipment) (schedule : List (ι × Chance)) :
    let run := (Pool.launch U.start fun i => (builds i).program U.sha256Hex).exec
      (perform U.execute) schedule
    ∃ adopted n, U.Progress adopted n run.store ∧ ∀ i,
      (∀ filesRun, run.running i = .done (.ok (some (.applied filesRun))) →
        (builds i).files.length ≤ n) ∧
      (run.running i = .done (.ok none) →
        (builds i).files.length ≤ n ∨
          migrationSetHash U.sha256Hex (builds i).files = U.start.currentHash U.block ∨
          ∃ m ≤ n, migrationSetHash U.sha256Hex (builds i).files =
            migrationSetHash U.sha256Hex (U.files.take m)) := by
  intro run
  obtain ⟨⟨adopted, n, hprogress⟩, hstore, hdone⟩ := U.exec_progress hships schedule
  have hreached : ∀ k, U.Recorded k run.history → k ≤ n := by
    intro k h
    obtain ⟨_, n', hprogress', hk⟩ := hstore k h
    rwa [← hprogress.length, hprogress'.length]
  refine ⟨adopted, n, hprogress, fun i => ⟨fun filesRun h => ?_, fun h => ?_⟩⟩
  · exact hreached _ (hdone i _ h filesRun rfl)
  · rcases hdone i _ h with hrecorded | hstart | ⟨m, hm, hrecorded⟩
    · exact .inl (hreached _ hrecorded)
    · exact .inr (.inl hstart)
    · exact .inr (.inr ⟨m, hreached m hrecorded, hm⟩)

/-- A runtime over a SQLite database, whose list has only the first file where it is `older`. -/
def probeBuild (older : Bool) : Build :=
  .init ⟨"", some "1", some "sqlite"⟩
    ⟨"impresspress/probe", if older then twoFiles.files.take 1 else twoFiles.files, [], [], []⟩

theorem probeBuild_ships (older : Bool) : (probeBuild older).Ships twoFiles := by
  cases older with
  | false => exact ⟨rfl, List.prefix_rfl⟩
  | true => exact ⟨rfl, List.take_prefix 1 twoFiles.files⟩

/-- An older and a newer build in turn; every third call reports a failure after it has landed. -/
def probeSchedule : List (Bool × Chance) :=
  (List.range 12).map fun turn => (turn % 2 == 0,
    ⟨if turn % 3 = 2 then .lost else .served, ⟨"Internal", none, none, "connection reset"⟩, id,
      fun _ => List.Perm.refl _⟩)

theorem each_file_once_probe :
    let run := (Pool.launch freshUpgrade.start fun older =>
      (probeBuild older).program freshUpgrade.sha256Hex).exec
      (perform freshUpgrade.execute) probeSchedule
    ∃ adopted n, freshUpgrade.Progress adopted n run.store := by
  intro run
  obtain ⟨adopted, n, hprogress, _⟩ :=
    each_file_once freshUpgrade probeBuild probeBuild_ships probeSchedule
  exact ⟨adopted, n, hprogress⟩

end Statement

end Migrations
