import Impresspress.Text.Scanners

/-!
# The statements of a migration file

A migration file is cut into statements at its semicolons, those in `--` comments apart. The lines
that are comments are dropped from a statement. A file that has been applied is recorded with the
hash of its statements, so that a later edit can be told.

## Main definitions

* `Migrations.splitStatements`, `Migrations.executableStatements`: the statements of a file.
* `Migrations.contentHash`: the hash that the ledger records.
-/

namespace Migrations

open Text

structure ScanState where
  inLineComment : Bool
  prevWasDash : Bool
  deriving DecidableEq, Repr

/-- The scanner of `split_statements`; it marks the semicolons at which the text is cut. -/
def splitter : Scanner ScanState where
  init := ⟨false, false⟩
  step state c :=
    if state.inLineComment then ⟨c != '\n', false⟩
    else if c = '-' ∧ state.prevWasDash then ⟨true, false⟩
    else if c = ';' then ⟨false, false⟩
    else ⟨false, c == '-'⟩
  mark state c := !state.inLineComment && c == ';'

/-- The text cut at the semicolons outside `--` comments. -/
def splitStatements (sql : List Char) : List (List Char) := splitter.pieces splitter.init [] sql

/-- `line.trim_start().starts_with("--")`. -/
def isLineComment (line : List Char) : Bool := ['-', '-'].isPrefixOf (trimStart line)

/-- A piece without its comment lines. -/
def executable (piece : List Char) : List Char :=
  trim (['\n'].intercalate ((lines piece).filter fun line => !isLineComment line))

def executableStatements (sql : List Char) : List (List Char) :=
  ((splitStatements sql).map executable).filter (· ≠ [])

variable {Digest : Type}

def contentHash (sha256 : List Char → Digest) (sql : List Char) : Digest :=
  sha256 ([';', '\n'].intercalate (executableStatements sql))

example : executableStatements "-- one; two\nSELECT 1 -- three; four\n; SELECT 2;\n".toList =
    ["SELECT 1 -- three; four".toList, "SELECT 2".toList] := by decide

end Migrations
