import Mathlib.Data.List.Nodup
import Mathlib.Data.List.Perm.Basic
import Mathlib.Logic.Function.Basic
import Impresspress.Migrations.Statements
import Impresspress.Concurrent.Fallible

/-!
# The migration ledger

One row for each migration file that a block has applied, in one table for all blocks. The unique
key of the table makes a row the claim on its file: it is inserted in the transaction that runs the
statements of the file, and a second insert fails with its transaction. What a database call does
when it fails is not known to its caller; a transaction may have landed although its failure was
reported.

Source: `platform_state/applied_migrations.rs`, and the `Db` calls of `migration_helper.rs`.

## Main definitions

* `Migrations.AppliedMigration`, `Migrations.Ledger`: the rows and the table.
* `Migrations.Database`: the ledger, the list hashes of the blocks, and what the statements act on.
* `Migrations.Call`, `Migrations.perform`: the calls of a runner, and how they are answered.
* `Migrations.Database.rowsOf`: the rows of one block.
-/

namespace Migrations

open Concurrent

inductive Origin
  | ran
  | adopted
  deriving DecidableEq, Repr

structure AppliedMigration where
  blockName : String
  fileName : String
  contentSha256 : String
  origin : Origin
  adoptedFrom : String
  deriving DecidableEq, Repr

namespace AppliedMigration

/-- `AppliedMigration::ran`. -/
def ran (blockName fileName contentSha256 : String) : AppliedMigration :=
  ⟨blockName, fileName, contentSha256, .ran, ""⟩

/-- `AppliedMigration::adopted`. -/
def adopted (blockName fileName contentSha256 adoptedFrom : String) : AppliedMigration :=
  ⟨blockName, fileName, contentSha256, .adopted, adoptedFrom⟩

/-- `UNIQUE(block_name, file_name)`. -/
def key (row : AppliedMigration) : String × String := (row.blockName, row.fileName)

end AppliedMigration

/-- The table: no two rows have the same key. -/
structure Ledger where
  rows : List AppliedMigration
  unique : (rows.map AppliedMigration.key).Nodup

namespace Ledger

theorem nodup_nil : (([] : List AppliedMigration).map AppliedMigration.key).Nodup := List.nodup_nil

def empty : Ledger := ⟨[], nodup_nil⟩

/-- An insert is refused when the key is taken. -/
def insert (ledger : Ledger) (row : AppliedMigration) : Option Ledger :=
  if h : row.key ∈ ledger.rows.map AppliedMigration.key then none
  else some ⟨ledger.rows ++ [row], by
    rw [List.map_append, List.nodup_append]
    refine ⟨ledger.unique, List.nodup_singleton _, fun key hkey key' hkey' hsame => h ?_⟩
    rw [List.map_singleton, List.mem_singleton] at hkey'
    rwa [← hkey', ← hsame]⟩

theorem insert_eq_some {ledger ledger' : Ledger} {row : AppliedMigration} :
    ledger.insert row = some ledger' ↔
      row.key ∉ ledger.rows.map AppliedMigration.key ∧ ledger'.rows = ledger.rows ++ [row] := by
  unfold insert
  split_ifs with h
  · simp [h]
  · obtain ⟨rows, unique⟩ := ledger'
    simp only [Option.some.injEq, mk.injEq]
    exact ⟨fun hrows => ⟨h, hrows.symm⟩, fun hrows => hrows.2.symm⟩

end Ledger

/-- What a database operation reports when it fails. -/
structure Failure where
  code : String
  detailCode : Option String
  statement : Option ℕ
  message : String
  deriving DecidableEq, Repr, Inhabited

/-- One statement of a transaction: the insert of a ledger row, or the text of a migration file. -/
inductive Statement
  | record (row : AppliedMigration)
  | sql (query : List Char)
  deriving DecidableEq, Repr

/-- `ledger` is absent as long as its table has not been created; `currentHash` is the column of
`block_settings`, empty where the block has no row. -/
structure Database (Data : Type) where
  ledger : Option Ledger
  currentHash : String → String
  data : Data

namespace Database

variable {Data : Type} (execute : List Char → Data → Option Data)

/-- The rows of the ledger. -/
def rows (db : Database Data) : List AppliedMigration :=
  match db.ledger with
  | none => []
  | some ledger => ledger.rows

/-- The rows of one block. -/
def rowsOf (block : String) (db : Database Data) : List AppliedMigration :=
  db.rows.filter (·.blockName = block)

/-- `CREATE TABLE IF NOT EXISTS`. -/
def createLedger (db : Database Data) : Database Data :=
  { db with ledger := db.ledger.or (some .empty) }

/-- One statement; `execute` says what the text of a migration file does. -/
def statement (db : Database Data) : Statement → Option (Database Data)
  | .record row => do
    let ledger ← db.ledger
    let ledger ← ledger.insert row
    return { db with ledger := some ledger }
  | .sql query => do
    let data ← execute query db.data
    return { db with data }

/-- All of the statements, or none of them. -/
def transaction (db : Database Data) (statements : List Statement) : Option (Database Data) :=
  statements.foldlM (statement execute) db

/-- `block_settings::upsert_fields` with the hash alone. -/
def stamp (db : Database Data) (block codeHash : String) : Database Data :=
  { db with currentHash := Function.update db.currentHash block codeHash }

end Database

/-- The database operations of a runner. -/
inductive Call
  | createLedger
  | ledger (block : String)
  | transaction (statements : List Statement)
  | loadSettings (block : String)
  | stamp (block codeHash : String)

@[reducible] def Reply : Call → Type
  | .createLedger => Unit
  | .ledger _ => List AppliedMigration
  | .transaction _ => Unit
  | .loadSettings _ => String
  | .stamp _ _ => Unit

/-- What becomes of a call: it is served, it is refused without an effect, or its effect lands and a
failure is reported all the same. -/
inductive Fate
  | served
  | refused
  | lost
  deriving DecidableEq, Repr

/-- What a caller cannot know: the fate of its call, the failure that is reported if it fails, and
the order in which the rows are listed. -/
structure Chance where
  fate : Fate
  failure : Failure
  listed : List AppliedMigration → List AppliedMigration
  listed_perm : ∀ rows, (listed rows).Perm rows

namespace Database

variable {Data : Type} (execute : List Char → Data → Option Data)

/-- A call that the database takes up; `none` where it fails by itself. -/
def serve (listed : List AppliedMigration → List AppliedMigration) (db : Database Data) :
    (c : Call) → Option (Reply c × Database Data)
  | .createLedger => some ((), db.createLedger)
  | .ledger block => db.ledger.map fun _ => (listed (db.rowsOf block), db)
  | .transaction statements => (db.transaction execute statements).map fun db' => ((), db')
  | .loadSettings block => some (db.currentHash block, db)
  | .stamp block codeHash => some ((), db.stamp block codeHash)

end Database

/-- How the database answers a call. -/
def perform {Data : Type} (execute : List Char → Data → Option Data) (chance : Chance) (c : Call)
    (db : Database Data) : Outcome Failure Reply c × Database Data :=
  match chance.fate, db.serve execute chance.listed c with
  | .served, some (reply, db') => (.ok reply, db')
  | .lost, some (_, db') => (.error chance.failure, db')
  | _, _ => (.error chance.failure, db)

end Migrations
