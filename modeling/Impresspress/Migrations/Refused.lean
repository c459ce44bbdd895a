import Impresspress.Migrations.OnceEach

/-!
# A record that no build accepts

A ledger may record something else than the first files of the list: a file that was edited after it
had shipped, a file that no build ships, a file without the one before it. Such a database is left
as it is by every build, however many of them run and whatever becomes of their calls.

Source: `migration_helper.rs`, `plan` and its callers.

## Main results

* `Migrations.left_alone`: the database stays as it is, and no build says that it was applied.
-/

namespace Migrations

open Concurrent Discipline

variable {ι Data : Type}

/-- The record of a block in the database is not one of the first files that are shipped. -/
structure Disagrees (newest : Shipment Data) (start : Database Data) : Prop where
  no_covers : ∀ n, ¬ Covers newest.sha256Hex newest.files n (start.rowsOf newest.block)

/-- The database stays as it is. -/
def still (start : Database Data) : Discipline ι (Database Data) (Outcome Failure Reply) where
  inv := fun past => past.store start = start
  guarantee := fun _ _ => True

variable {newest : Shipment Data} {start : Database Data} {i : ι}
  {past : History ι (Database Data) (Outcome Failure Reply)}

/-- What a call answers, once it is known to leave the database as it is. -/
theorem still_ask {α : Type} {c : Call} {f : Outcome Failure Reply c → Migrator α}
    {post : Except MigrationError α → History ι (Database Data) (Outcome Failure Reply) → Prop}
    (hc : ∀ listed reply db, start.serve newest.execute listed c = some (reply, db) → db = start)
    (hok : ∀ past (chance : Chance) reply db,
      start.serve newest.execute chance.listed c = some (reply, db) →
      (still start).Safe (perform newest.execute) start i (f (.ok reply)).run past post)
    (herror : ∀ past failure,
      (still start).Safe (perform newest.execute) start i (f (.error failure)).run past post) :
    (still start).Safe (perform newest.execute) start i (ask c >>= f).run past post := by
  refine Safe.call_of_forall fun past hstore chance => ⟨trivial, fun _ => ?_⟩
  change past.store start = start at hstore
  rw [hstore]
  constructor
  · change (perform newest.execute chance c start).2 = start
    rcases perform_snd newest.execute chance c start with hsame | ⟨reply, hserve⟩
    · exact hsame
    · exact hc _ _ _ hserve
  · cases hanswer : (perform newest.execute chance c start).1 with
    | ok reply => exact hok _ chance reply _ (serve_of_ok hanswer)
    | error failure => exact herror _ failure

namespace Disagrees

variable (h : Disagrees newest start)

include h

theorem rows_ne_nil : start.rowsOf newest.block ≠ [] := by
  intro hnil
  exact h.no_covers 0 ⟨Nat.zero_le _, by rw [hnil]; exact List.Perm.refl _⟩

theorem createLedger_eq : start.createLedger = start := by
  have hledger : start.ledger ≠ none := by
    intro hnone
    refine h.rows_ne_nil ?_
    rw [Database.rowsOf, Database.rows, hnone]
    rfl
  unfold Database.createLedger
  cases hstart : start.ledger with
  | none => exact absurd hstart hledger
  | some ledger => rw [Option.some_or, ← hstart]

/-- No list that is a beginning of the newest one has a plan. -/
theorem plan_refuses {files : List MigrationFile} (hfiles : files <+: newest.files)
    {rows : List AppliedMigration} (hrows : rows.Perm (start.rowsOf newest.block)) :
    ∃ refusal, plan newest.sha256Hex files rows = .error refusal := by
  cases hplan : plan newest.sha256Hex files rows with
  | error refusal => exact ⟨refusal, rfl⟩
  | ok n =>
    have hdistinct : (files.map (·.name)).Nodup := newest.distinct.sublist (hfiles.sublist.map _)
    have hunique : (rows.map (·.fileName)).Nodup :=
      (hrows.map _).nodup_iff.mpr (start.rowsOf_unique newest.block)
    have hcovers := (plan_eq_ok hdistinct hunique).mp hplan
    exact absurd ((hcovers.of_isPrefix hfiles).congr hrows.symm) (h.no_covers n)

theorem safe_apply {files : List MigrationFile} (hfiles : files <+: newest.files)
    {history : List HistoricalState} {currentHash codeHash : String} :
    (still start).Safe (perform newest.execute) start i
      ((Runner.mk newest.block).apply newest.sha256Hex files history currentHash codeHash).run past
      (Ends fun _ _ => False) := by
  have hcreate : ∀ listed reply db,
      start.serve newest.execute listed .createLedger = some (reply, db) → db = start := by
    intro listed reply db hserve
    rw [← (Prod.mk.inj (Option.some.inj hserve)).2, h.createLedger_eq]
  have hread : ∀ listed reply db,
      start.serve newest.execute listed (.ledger newest.block) = some (reply, db) → db = start := by
    intro listed reply db hserve
    obtain ⟨_, _, hpair⟩ := Option.map_eq_some_iff.mp hserve
    exact (Prod.mk.inj hpair).2.symm
  refine safe_bind (Q := fun _ _ => True) ?_ fun _ past _ =>
    safe_bind (Q := fun rows _ => rows.Perm (start.rowsOf newest.block)) ?_
      fun rows past hrows => safe_bind (Q := fun _ _ => False) ?_ fun _ _ hfalse => hfalse.elim
  · exact still_ask hcreate (fun _ _ _ _ _ => safe_pure (Stable.true i) trivial)
      fun _ _ => safe_throw
  · refine still_ask hread (fun past chance rows db hserve =>
      safe_pure (fun _ _ h _ _ => h) ?_) fun _ _ => safe_throw
    obtain ⟨_, _, hpair⟩ := Option.map_eq_some_iff.mp hserve
    rw [← (Prod.mk.inj hpair).1]
    exact chance.listed_perm _
  · have hnonempty : rows.isEmpty = false := by
      rw [List.isEmpty_eq_false_iff]
      rintro rfl
      exact h.rows_ne_nil hrows.nil_eq.symm
    obtain ⟨refusal, hplan⟩ := h.plan_refuses hfiles hrows
    unfold Runner.resume Runner.plan
    rw [if_neg (by rw [hnonempty]; exact Bool.false_ne_true), hplan]
    exact safe_throw

end Disagrees

/-- What a build answers about a database that it has left alone. -/
def NotApplied (newest : Shipment Data) (start : Database Data) (build : Build) :
    Option MigrationOutcome → Prop
  | some outcome => ∀ filesRun, outcome ≠ .applied filesRun
  | none => migrationSetHash newest.sha256Hex build.files = start.currentHash newest.block

theorem Disagrees.safe_program (h : Disagrees newest start) {build : Build}
    (hships : build.Ships newest) :
    (still start).Safe (perform newest.execute) start i (build.program newest.sha256Hex) past
      (Ends fun answer _ => NotApplied newest start build answer) := by
  obtain ⟨hblock, hbegins⟩ := hships
  have hstable : ∀ answer, (still start).Stable (perform newest.execute) start i
      fun _ : History ι (Database Data) (Outcome Failure Reply) =>
        NotApplied newest start build answer := fun _ _ _ h _ _ => h
  cases build with
  | init ctx migrations =>
    refine safe_map (Q := fun (outcome : MigrationOutcome) _ =>
      ∀ filesRun, outcome ≠ .applied filesRun) ?_ hstable fun _ _ h => h
    unfold applyMigrations
    cases hbackend : dbBackend ctx with
    | error error => exact safe_throw
    | ok backend =>
      rw [Build.files_init hbackend] at hbegins
      change migrations.block = newest.block at hblock
      unfold applyPending
      dsimp only
      split_ifs
      · exact safe_pure (fun _ _ h _ _ => h) nofun
      · rw [hbackend, hblock]
        exact safe_map (h.safe_apply hbegins) (fun _ _ _ h _ _ => h) fun _ _ hfalse => hfalse.elim
      · exact safe_pure (fun _ _ h _ _ => h) nofun
  | preBuild block files history =>
    change block = newest.block at hblock
    subst hblock
    refine safe_map (Q := fun _ _ => migrationSetHash newest.sha256Hex files =
      start.currentHash newest.block) ?_ hstable fun _ _ h => h
    have hstay : ∀ hash, (still start).Stable (perform newest.execute) start i
        fun _ : History ι (Database Data) (Outcome Failure Reply) =>
          hash = start.currentHash newest.block := fun _ _ _ h _ _ => h
    refine safe_bind (Q := fun hash _ => hash = start.currentHash newest.block) ?_
      fun hash past hhash => ?_
    · refine still_ask (fun _ _ db hserve => (Prod.mk.inj (Option.some.inj hserve)).2.symm)
        (fun past chance hash db hserve => safe_pure (hstay hash) ?_) fun _ _ => safe_throw
      exact (Prod.mk.inj (Option.some.inj hserve)).1.symm
    · split_ifs with hsame
      · exact safe_pure (hstay _) (hsame.symm.trans hhash)
      · exact safe_bind (h.safe_apply hbegins) fun _ _ hfalse => hfalse.elim

variable [DecidableEq ι]

/-- Nothing is run for a block whose record the builds do not accept, by however many builds, and
none of them says that it applied its list. -/
theorem left_alone (newest : Shipment Data) (start : Database Data)
    (h : Disagrees newest start) (builds : ι → Build) (hships : ∀ i, (builds i).Ships newest)
    (schedule : List (ι × Chance)) :
    let run := (Pool.launch start fun i => (builds i).program newest.sha256Hex).exec
      (perform newest.execute) schedule
    run.store = start ∧ ∀ i answer, run.running i = .done (.ok answer) →
      NotApplied newest start (builds i) answer := by
  intro run
  let D : Discipline ι (Database Data) (Outcome Failure Reply) := still start
  have h0 : D.inv [] := rfl
  obtain ⟨hstore, hdone⟩ := exec_safe h0
    (fun i => h.safe_program (hships i)) schedule (Along.of_forall (fun _ _ => trivial) _)
  refine ⟨?_, fun i answer hanswer => hdone i _ hanswer⟩
  have hrun : run.store = run.history.store start := by
    rw [Pool.store, Pool.exec_start]
    rfl
  rw [hrun]
  exact hstore

/-- The second file is recorded without the first. -/
def gapDatabase : Database (List (List Char)) where
  ledger := some ⟨[.ran "impresspress/probe" "002_c" "CREATE c"], by decide⟩
  currentHash := fun _ => ""
  data := ["CREATE c".toList]

theorem gapDatabase_disagrees : Disagrees twoFiles gapDatabase where
  no_covers := by
    intro n hcovers
    obtain rfl : 1 = n := hcovers.length_eq
    exact absurd hcovers (by decide)

theorem left_alone_gap :
    let run := (Pool.launch gapDatabase fun older =>
      (probeBuild older).program twoFiles.sha256Hex).exec
      (perform twoFiles.execute) probeSchedule
    run.store = gapDatabase :=
  (left_alone twoFiles gapDatabase gapDatabase_disagrees probeBuild probeBuild_ships
    probeSchedule).1

end Migrations
