import Mathlib.Data.List.Infix
import Mathlib.Data.List.Sort
import Mathlib.Data.String.Basic
import Impresspress.Migrations.Ledger

/-!
# The migration runner

A block ships an ordered list of migration files. The runner reads what the ledger records of the
block, plans where the list resumes or refuses, and runs each pending file as one transaction. The
outcome of a transaction that has failed is decided by reading the ledger again.

Source: `migration_helper.rs`.

## Main definitions

* `Migrations.MigrationFile`, `Migrations.HistoricalState`, `Migrations.BlockMigrations`: what a
  block ships.
* `Migrations.Refusal`, `Migrations.MigrationError`: why a block was not migrated.
* `Migrations.classify`, `Migrations.plan`: what the history and the ledger say of a list.
* `Migrations.Runner.apply`: one run.
* `Migrations.applyMigrations`, `Migrations.applyPendingViaService`: its callers.
-/

namespace Migrations

open Concurrent

structure MigrationFile where
  name : String
  sql : List Char
  deriving DecidableEq, Repr

inductive Verdict
  | applied (files : List String)
  | unsupported (reason : String)
  deriving DecidableEq, Repr

structure HistoricalState where
  listHash : String
  firstSeen : String
  verdict : Verdict
  deriving DecidableEq, Repr

inductive Backend
  | sqlite
  | postgres
  deriving DecidableEq, Repr

/-- A block's migrations in each dialect. -/
structure BlockMigrations where
  block : String
  sqlite : List MigrationFile
  postgres : List MigrationFile
  sqliteHistory : List HistoricalState
  postgresHistory : List HistoricalState

def BlockMigrations.forBackend (migrations : BlockMigrations) :
    Backend → List MigrationFile × List HistoricalState
  | .postgres => (migrations.postgres, migrations.postgresHistory)
  | .sqlite => (migrations.sqlite, migrations.sqliteHistory)

inductive Refusal
  | contentChanged (file recorded shipped : String)
  | databaseAhead (files : List String)
  | gap (applied pending : String)
  | trackingLost (file message : String)
  | driftedSchema (file message : String)
  | unsupportedState (listHash firstSeen reason : String)
  | unknownState (listHash : String)
  deriving DecidableEq, Repr

structure StepError where
  code : String
  detailCode : Option String
  message : String
  deriving DecidableEq, Repr

def StepError.ofFailure (failure : Failure) : StepError :=
  ⟨failure.code, failure.detailCode, failure.message⟩

def StepError.internal (message : String) : StepError := ⟨"Internal", none, message⟩

inductive MigrationErrorKind
  | refused (refusal : Refusal)
  | fileFailed (file : String) (statements : List Statement) (failure : Failure)
  | step (step : String) (error : StepError)
  | undecided (file : String) (failure : Failure) (read : StepError)
  deriving DecidableEq, Repr

structure MigrationError where
  block : String
  kind : MigrationErrorKind
  deriving DecidableEq, Repr

inductive MigrationOutcome
  | applied (filesRun : ℕ)
  | upToDate
  | deferred
  deriving DecidableEq, Repr

section Pure

variable (sha256Hex : List Char → String)

/-- What a list is known by: the hash of the texts of its files. -/
def migrationSetHash (files : List MigrationFile) : String :=
  sha256Hex (['\n'].intercalate (files.map (·.sql)))

/-- The first eight digits of a hash. -/
def short (hash : String) : String := String.ofList (hash.toList.take 8)

/-- How a block without ledger rows is applied. -/
inductive Class
  | fresh
  | adopt (count : ℕ)
  | unsupported (state : HistoricalState) (reason : String)
  | unknown
  deriving DecidableEq, Repr

/-- `{:?}` of a list of basenames. -/
def quoted (names : List String) : String :=
  "[" ++ ", ".intercalate (names.map fun name => "\"" ++ name ++ "\"") ++ "]"

/-- Look the hash up in the history. -/
def classify (currentHash : String) (files : List MigrationFile)
    (history : List HistoricalState) : Except String Class :=
  if currentHash.isEmpty then .ok .fresh
  else match history.find? (·.listHash = currentHash) with
    | none => .ok .unknown
    | some state =>
      match state.verdict with
      | .unsupported reason => .ok (.unsupported state reason)
      | .applied applied =>
        if applied ≠ [] ∧ applied.length ≤ files.length ∧
            (applied.zip files).all (fun (adopted, file) => adopted == file.name) then
          .ok (.adopt applied.length)
        else .error (s!"the history entry for {short currentHash} adopts {quoted applied}, " ++
          "which is not a prefix of this build's list")

/-- The row that records a basename. -/
def recorded (rows : List AppliedMigration) (name : String) : Option AppliedMigration :=
  rows.find? (·.fileName = name)

/-- The refusal of a file whose statements were edited after it had been applied. -/
def contentChanged (rows : List AppliedMigration) (file : MigrationFile) : Option Refusal :=
  match recorded rows file.name with
  | none => none
  | some row =>
    if row.contentSha256 ≠ contentHash sha256Hex file.sql then
      some (.contentChanged file.name row.contentSha256 (contentHash sha256Hex file.sql))
    else none

/-- Where the list resumes, or why the block is refused. -/
def plan (files : List MigrationFile) (rows : List AppliedMigration) : Except Refusal ℕ :=
  let ahead := (rows.filter fun row => !files.any (·.name = row.fileName)).map (·.fileName)
  if ahead ≠ [] then .error (.databaseAhead (ahead.insertionSort (· ≤ ·)))
  else match files.findSome? (contentChanged sha256Hex rows) with
    | some refusal => .error refusal
    | none =>
      let firstPending := files.findIdx fun file => (recorded rows file.name).isNone
      match (files.drop firstPending).find? fun file => (recorded rows file.name).isSome,
          files[firstPending]? with
      | some applied, some pending => .error (.gap applied.name pending.name)
      | _, _ => .ok firstPending

end Pure

/-- Whether the text of a failure says that a column exists already. -/
def isDuplicateColumnError (message : String) : Bool :=
  let lower := message.toList.map Char.toLower
  let contains (text : String) : Bool := text.toList <:+: lower
  contains "duplicate column name" ||
    (contains "column \"" && contains "\" of relation \"" && contains "already exists")

/-- Programs of a runner: calls whose failures it looks at, and its own errors. -/
abbrev Migrator := ExceptT MigrationError (Program Call (Outcome Failure Reply))

/-- One call; its failure is part of the answer. -/
def ask (c : Call) : Migrator (Outcome Failure Reply c) :=
  ExceptT.mk (.call c fun answer => .done (.ok answer))

/-- One block's run over its ledger. -/
structure Runner where
  block : String

namespace Runner

variable (sha256Hex : List Char → String) (self : Runner)

def refused {α : Type} (refusal : Refusal) : Migrator α := throw ⟨self.block, .refused refusal⟩

def stepError {α : Type} (step : String) (error : StepError) : Migrator α :=
  throw ⟨self.block, .step step error⟩

/-- A call that ends the run when it fails. -/
def step (name : String) (c : Call) : Migrator (Reply c) := do
  match ← ask c with
  | .ok reply => return reply
  | .error failure => self.stepError name (.ofFailure failure)

def readLedger : Migrator (List AppliedMigration) :=
  self.step "read the migration ledger" (.ledger self.block)

/-- Read the ledger again to decide a transaction that has failed. -/
def reread (file : String) (failure : Failure) : Migrator (List AppliedMigration) := do
  match ← ask (.ledger self.block) with
  | .ok rows => return rows
  | .error read => throw ⟨self.block, .undecided file failure (.ofFailure read)⟩

def plan (files : List MigrationFile) (rows : List AppliedMigration) : Migrator ℕ :=
  match Migrations.plan sha256Hex files rows with
  | .ok firstPending => return firstPending
  | .error refusal => self.refused refusal

def ranRow (file : MigrationFile) : AppliedMigration :=
  .ran self.block file.name (contentHash sha256Hex file.sql)

def adoptedRow (adoptedFrom : String) (file : MigrationFile) : AppliedMigration :=
  .adopted self.block file.name (contentHash sha256Hex file.sql) adoptedFrom

/-- How an adoption is named in an error. -/
def adoption (adopted : List MigrationFile) : String :=
  let name (file : Option MigrationFile) := (file.map (·.name)).getD ""
  name adopted.head? ++ ".." ++ name adopted.getLast? ++ " (adopted)"

/-- Record files as applied without running them. -/
def adopt (adopted files : List MigrationFile) (adoptedFrom : String) : Migrator ℕ := do
  let statements := adopted.map fun file => .record (self.adoptedRow sha256Hex adoptedFrom file)
  match ← ask (.transaction statements) with
  | .ok _ => return adopted.length
  | .error failure =>
    let rows ← self.reread (adoption adopted) failure
    let firstPending ← self.plan sha256Hex files rows
    if firstPending ≥ adopted.length then return firstPending
    else throw ⟨self.block, .fileFailed (adoption adopted) statements failure⟩

/-- What one file is sent as: its ledger row, then its statements. -/
def statements (file : MigrationFile) : List Statement :=
  .record (self.ranRow sha256Hex file) :: (executableStatements file.sql).map .sql

/-- A file whose transaction has failed, decided by the rows that were read after it. -/
def decide (files : List MigrationFile) (file : MigrationFile) (fresh : Bool) (failure : Failure)
    (rows : List AppliedMigration) : Migrator Unit :=
  match recorded rows file.name with
  | some row =>
    if row.contentSha256 = contentHash sha256Hex file.sql then do
      let _ ← self.plan sha256Hex files rows
      return
    else self.refused (.contentChanged file.name row.contentSha256 (contentHash sha256Hex file.sql))
  | none =>
    if isDuplicateColumnError failure.message then
      self.refused (if fresh then .trackingLost file.name failure.message
        else .driftedSchema file.name failure.message)
    else throw ⟨self.block, .fileFailed file.name (self.statements sha256Hex file) failure⟩

/-- Apply one file as one transaction. -/
def runFile (files : List MigrationFile) (fresh : Bool) (file : MigrationFile) : Migrator Unit := do
  match ← ask (.transaction (self.statements sha256Hex file)) with
  | .ok _ => return
  | .error failure =>
    let rows ← self.reread file.name failure
    self.decide sha256Hex files file fresh failure rows

/-- Where a block without ledger rows resumes, and whether it is fresh. -/
def resumeClass (files : List MigrationFile) (currentHash : String) :
    Class → Migrator (ℕ × Bool)
  | .fresh => return (0, true)
  | .adopt count => do
    let firstPending ← self.adopt sha256Hex (files.take count) files currentHash
    return (firstPending, false)
  | .unsupported state reason =>
    self.refused (.unsupportedState state.listHash state.firstSeen reason)
  | .unknown => self.refused (.unknownState currentHash)

/-- Where the list resumes. -/
def resume (files : List MigrationFile) (history : List HistoricalState) (currentHash : String)
    (rows : List AppliedMigration) : Migrator (ℕ × Bool) :=
  if rows.isEmpty then
    match classify currentHash files history with
    | .ok found => self.resumeClass sha256Hex files currentHash found
    | .error message => self.stepError "read its migration history" (.internal message)
  else do
    let firstPending ← self.plan sha256Hex files rows
    return (firstPending, false)

def apply (files : List MigrationFile) (history : List HistoricalState)
    (currentHash codeHash : String) : Migrator ℕ := do
  self.step "create the migration ledger" .createLedger
  let rows ← self.readLedger
  let (firstPending, fresh) ← self.resume sha256Hex files history currentHash rows
  let pending := files.drop firstPending
  pending.forM (self.runFile sha256Hex files fresh)
  self.step "record the applied migrations" (.stamp self.block codeHash)
  return pending.length

end Runner

/-- What a block's `Init` finds in the configuration snapshot of its runtime; `currentHash` is the
one of the block's settings. -/
structure Context where
  currentHash : String
  runMigrations : Option String
  databaseType : Option String
  deriving DecidableEq, Repr

/-- `IMPRESSPRESS_RUN_MIGRATIONS`. -/
def isProvisioningBuild (ctx : Context) : Bool := ctx.runMigrations == some "1"

def parseBackend : String → Except String Backend
  | "sqlite" => .ok .sqlite
  | "postgres" => .ok .postgres
  | other => .error s!"unsupported IMPRESSPRESS_DB_TYPE `{other}` (expected `sqlite` or `postgres`)"

def dbBackend (ctx : Context) : Except StepError Backend :=
  match ctx.databaseType with
  | none => .error ⟨"FailedPrecondition", none,
    "this runtime does not name its database dialect (IMPRESSPRESS_DB_TYPE is not set)"⟩
  | some name => (parseBackend name).mapError fun message => ⟨"FailedPrecondition", none, message⟩

section Entry

variable (sha256Hex : List Char → String)

def applyPending (ctx : Context) (block : String) (files : List MigrationFile)
    (history : List HistoricalState) : Migrator MigrationOutcome :=
  let codeHash := migrationSetHash sha256Hex files
  if ctx.currentHash = codeHash then return .upToDate
  else if ¬ (ctx.currentHash.isEmpty ∨ isProvisioningBuild ctx) then return .deferred
  else match dbBackend ctx with
    | .error error => throw ⟨block, .step "read the database backend" error⟩
    | .ok _ => .applied <$> (Runner.mk block).apply sha256Hex files history ctx.currentHash codeHash

/-- `apply_migrations`: the list and the history in the dialect of the runtime. -/
def applyMigrations (ctx : Context) (migrations : BlockMigrations) : Migrator MigrationOutcome :=
  match dbBackend ctx with
  | .error error => throw ⟨migrations.block, .step "read the database backend" error⟩
  | .ok backend =>
    let (files, history) := migrations.forBackend backend
    applyPending sha256Hex ctx migrations.block files history

/-- `apply_pending_via_service`: a list that is applied before there is a runtime. -/
def applyPendingViaService (block : String) (files : List MigrationFile)
    (history : List HistoricalState) : Migrator Unit := do
  let codeHash := migrationSetHash sha256Hex files
  let currentHash ← (Runner.mk block).step "read its block_settings row" (.loadSettings block)
  if currentHash = codeHash then return
  else do
    let _ ← (Runner.mk block).apply sha256Hex files history currentHash codeHash
    return

end Entry

end Migrations
