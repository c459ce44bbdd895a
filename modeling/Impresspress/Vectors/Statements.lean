import Mathlib.Data.List.AList
import Impresspress.Encoding.Base64

/-!
# The statements of the browser's vector store

An index is kept in up to three tables of the browser's database, and its configuration in a
registry. The statements are those that the service runs, on tables as SQLite keeps them: two of
the tables have a primary key, so that an insertion can replace a row of the same id; the one for
full-text search has none but the automatic row number, so that an insertion always adds a row.

## Main definitions

* `Vectors.IndexName`: a name that was checked.
* `Vectors.VectorDb`: the tables.
* `Vectors.Statement`, `Vectors.Statement.exec`: the statements and what they do.
* `Vectors.buildUpsertSqlStmts`, `Vectors.buildDeleteIdsSql`: the statements of a batch.

## Main results

* `Vectors.parseVectorBlob_packVectorBlob`: what is packed into a column is read back.
* `Vectors.TableName.text_injective`: no two tables share their name.
-/

namespace Vectors

/-! ## Vectors as blobs -/

/-- The bits of a 32-bit floating point number. -/
abbrev F32 := UInt32

abbrev Blob := List UInt8

/-- The numbers, four bytes each, the lowest first. -/
def packVectorBlob (v : List F32) : Blob :=
  v.flatMap fun x => [UInt8.ofNat x.toNat, UInt8.ofNat (x.toNat / 256),
    UInt8.ofNat (x.toNat / 65536), UInt8.ofNat (x.toNat / 16777216)]

def unpack : Blob → List F32
  | a :: b :: c :: d :: rest =>
    UInt32.ofNat (a.toNat + b.toNat * 256 + c.toNat * 65536 + d.toNat * 16777216) :: unpack rest
  | _ => []

/-- The vector of a blob; there is none when the blob has another length. -/
def parseVectorBlob (bytes : Blob) (expectedDims : ℕ) : Option (List F32) :=
  if bytes.length = 4 * expectedDims then some (unpack bytes) else none

theorem unpack_packVectorBlob (v : List F32) : unpack (packVectorBlob v) = v := by
  induction v with
  | nil => rfl
  | cons x v ih =>
    have hx : x.toNat < 4294967296 := x.toNat_lt
    have hvalue : x.toNat % 256 + x.toNat / 256 % 256 * 256 + x.toNat / 65536 % 256 * 65536 +
        x.toNat / 16777216 % 256 * 16777216 = x.toNat := by omega
    change UInt32.ofNat _ :: unpack (packVectorBlob v) = x :: v
    simp only [ih, UInt8.toNat_ofNat', Nat.reducePow, hvalue, UInt32.ofNat_toNat]

theorem length_packVectorBlob (v : List F32) : (packVectorBlob v).length = 4 * v.length := by
  induction v with
  | nil => rfl
  | cons x v ih =>
    change (packVectorBlob v).length + 4 = _
    rw [ih, List.length_cons]
    omega

theorem parseVectorBlob_packVectorBlob (v : List F32) :
    parseVectorBlob (packVectorBlob v) v.length = some v := by
  rw [parseVectorBlob, if_pos (length_packVectorBlob v), unpack_packVectorBlob]

/-! ## Names -/

/-- One to 63 lowercase letters, digits and underscores. -/
def isPlainIdent (name : String) : Bool :=
  1 ≤ name.toList.length && name.toList.length ≤ 63 &&
    name.toList.all fun c => ('a' ≤ c && c ≤ 'z') || ('0' ≤ c && c ≤ '9') || c = '_'

/-- An index's name that has passed the check. -/
structure IndexName where
  text : String
  plain : isPlainIdent text = true
  deriving DecidableEq

def IndexName.parse (name : String) : Option IndexName :=
  if h : isPlainIdent name = true then some ⟨name, h⟩ else none

inductive TableKind
  | vectors
  | fts
  | metas
  deriving DecidableEq

def TableKind.suffix : TableKind → String
  | vectors => "_vectors"
  | fts => "_fts"
  | metas => "_meta"

/-- A table of an index. -/
structure TableName where
  index : IndexName
  kind : TableKind
  deriving DecidableEq

def TableName.text (table : TableName) : String := table.index.text ++ table.kind.suffix

/-- The table that keeps the configurations. -/
def registryTable : String := "__vector_index_registry__"

/-- A table's name tells which index it is of, and which of its tables. -/
theorem TableName.text_injective : Function.Injective TableName.text := by
  rintro ⟨⟨name, hname⟩, kind⟩ ⟨⟨name', hname'⟩, kind'⟩ h
  have hlists : name.toList ++ kind.suffix.toList = name'.toList ++ kind'.suffix.toList := by
    rw [← String.toList_append, ← String.toList_append]
    exact congrArg String.toList h
  -- the suffixes end differently
  have hreverse := congrArg List.reverse hlists
  rw [List.reverse_append, List.reverse_append] at hreverse
  have hkind : kind = kind' := by
    cases kind <;> cases kind' <;> first | rfl | (exfalso; revert hreverse; simp [TableKind.suffix])
  subst hkind
  have hname : name = name' := String.toList_injective (List.append_cancel_right hlists)
  subst hname
  rfl

/-- The registry is no table of an index. -/
theorem TableName.text_ne_registryTable (table : TableName) : table.text ≠ registryTable := by
  intro h
  have hreverse := congrArg List.reverse (congrArg String.toList h)
  rw [TableName.text, String.toList_append, List.reverse_append] at hreverse
  revert hreverse
  cases table.kind <;> simp [TableKind.suffix, registryTable]

/-! ## Tables -/

inductive DistanceMetric
  | cosine
  | euclidean
  | dotProduct
  deriving DecidableEq

/-- What the registry keeps of an index. -/
structure IndexState where
  dimensions : ℕ
  metric : DistanceMetric
  keywordSearch : Bool
  deriving DecidableEq

structure VectorsRow where
  id : String
  vector : Blob
  metadata : String
  text : Option String
  deriving DecidableEq

structure FtsRow where
  id : String
  text : String
  deriving DecidableEq

structure MetaRow where
  id : String
  metadata : String
  text : Option String
  deriving DecidableEq

/-- The registry, and the tables of each kind that exist; the rows of a table are in the order of
their row numbers. -/
structure VectorDb where
  registry : AList fun _ : IndexName => IndexState
  vectors : AList fun _ : IndexName => List VectorsRow
  fts : AList fun _ : IndexName => List FtsRow
  metas : AList fun _ : IndexName => List MetaRow

def VectorDb.empty : VectorDb := ⟨∅, ∅, ∅, ∅⟩

/-- The rows of a table with a primary key after `INSERT OR REPLACE`. -/
def replaceRow {Row : Type} (key : Row → String) (rows : List Row) (row : Row) : List Row :=
  rows.filter (fun stored => key stored ≠ key row) ++ [row]

/-- The rows of a table after `DELETE .. WHERE id IN (..)`. -/
def deleteRows {Row : Type} (key : Row → String) (rows : List Row) (ids : List String) : List Row :=
  rows.filter fun stored => key stored ∉ ids

inductive Statement
  | createTable (table : TableName)
  | dropTable (table : TableName)
  | insertVectors (index : IndexName) (id vectorBlobB64 metadata : String) (text : Option String)
  | insertFts (index : IndexName) (id text : String)
  | insertMeta (index : IndexName) (id metadata : String) (text : Option String)
  | deleteIds (table : TableName) (ids : List String)
  | registryUpsert (name : IndexName) (state : IndexState)
  | registryDelete (name : IndexName)

/-- `CREATE TABLE IF NOT EXISTS` -/
def createIn {Row : Type} (tables : AList fun _ : IndexName => List Row) (index : IndexName) :
    AList fun _ : IndexName => List Row :=
  if index ∈ tables then tables else tables.insert index []

namespace Statement

/-- The database after the statement; there is none where the statement fails. -/
def exec : Statement → VectorDb → Option VectorDb
  | createTable ⟨index, .vectors⟩, db => some { db with vectors := createIn db.vectors index }
  | createTable ⟨index, .fts⟩, db => some { db with fts := createIn db.fts index }
  | createTable ⟨index, .metas⟩, db => some { db with metas := createIn db.metas index }
  | dropTable ⟨index, .vectors⟩, db => some { db with vectors := db.vectors.erase index }
  | dropTable ⟨index, .fts⟩, db => some { db with fts := db.fts.erase index }
  | dropTable ⟨index, .metas⟩, db => some { db with metas := db.metas.erase index }
  | insertVectors index id vectorBlobB64 metadata text, db => do
    let rows ← db.vectors.lookup index
    let vector ← Base64.decode vectorBlobB64.toList
    let row : VectorsRow := ⟨id, vector, metadata, text⟩
    some { db with vectors := db.vectors.insert index (replaceRow VectorsRow.id rows row) }
  | insertFts index id text, db => do
    -- the row number is the table's only key, and the row gets a new one
    let rows ← db.fts.lookup index
    some { db with fts := db.fts.insert index (rows ++ [⟨id, text⟩]) }
  | insertMeta index id metadata text, db => do
    let rows ← db.metas.lookup index
    let row : MetaRow := ⟨id, metadata, text⟩
    some { db with metas := db.metas.insert index (replaceRow MetaRow.id rows row) }
  | deleteIds ⟨index, .vectors⟩ ids, db => do
    let rows ← db.vectors.lookup index
    some { db with vectors := db.vectors.insert index (deleteRows VectorsRow.id rows ids) }
  | deleteIds ⟨index, .fts⟩ ids, db => do
    let rows ← db.fts.lookup index
    some { db with fts := db.fts.insert index (deleteRows FtsRow.id rows ids) }
  | deleteIds ⟨index, .metas⟩ ids, db => do
    let rows ← db.metas.lookup index
    some { db with metas := db.metas.insert index (deleteRows MetaRow.id rows ids) }
  | registryUpsert name state, db => some { db with registry := db.registry.insert name state }
  | registryDelete name, db => some { db with registry := db.registry.erase name }

end Statement

/-- One statement after the other, up to one that fails; and whether none has. -/
def execAll : List Statement → VectorDb → Bool × VectorDb
  | [], db => (true, db)
  | statement :: rest, db =>
    match statement.exec db with
    | some db => execAll rest db
    | none => (false, db)

/-! ## The statements of the service -/

/-- The tables of an index, in the order in which they are made. -/
def indexTables (name : IndexName) (keywordSearch : Bool) : List TableName :=
  [⟨name, .vectors⟩] ++ (if keywordSearch then [⟨name, .fts⟩] else []) ++ [⟨name, .metas⟩]

def buildCreateIndexSql (name : IndexName) (keywordSearch : Bool) : List Statement :=
  (indexTables name keywordSearch).map .createTable

def buildDeleteIndexSql (name : IndexName) (keywordSearch : Bool) : List Statement :=
  (indexTables name keywordSearch).map .dropTable

def buildDeleteIdsSql (name : IndexName) (ids : List String) (keywordSearch : Bool) :
    List Statement :=
  if ids.isEmpty then [] else (indexTables name keywordSearch).map (.deleteIds · ids)

structure SqlUpsertEntry where
  id : String
  vectorBlobB64 : String
  metadataJson : String
  text : Option String

/-- The statements that write one entry. -/
def buildEntrySqlStmts (name : IndexName) (keywordSearch : Bool) (e : SqlUpsertEntry) :
    List Statement :=
  if keywordSearch then
    [.insertVectors name e.id e.vectorBlobB64 e.metadataJson (some (e.text.getD "")),
      .insertFts name e.id (e.text.getD ""),
      .insertMeta name e.id e.metadataJson (some (e.text.getD ""))]
  else
    [.insertVectors name e.id e.vectorBlobB64 e.metadataJson none,
      .insertMeta name e.id e.metadataJson none]

def buildUpsertSqlStmts (name : IndexName) (keywordSearch : Bool) (entries : List SqlUpsertEntry) :
    List Statement :=
  entries.flatMap (buildEntrySqlStmts name keywordSearch)

end Vectors
