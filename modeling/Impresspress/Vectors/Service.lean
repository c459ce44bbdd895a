import Impresspress.Vectors.Statements

/-!
# The browser's vector service

The service keeps the configurations of the indexes it knows in memory, and reads one from the
registry when it does not know it: a service worker starts again with an empty memory, and finds
the tables as they were.

## Main definitions

* `Vectors.Host`: what the service leaves to others: JSON texts, full-text search and scores.
* `Vectors.BrowserVectorService`: the tables, and what is kept in memory.
* `Vectors.VectorOp`, `Vectors.serve`: the requests and their answers.
-/

namespace Vectors

variable {Json : Type}

structure VectorIndexConfig where
  name : String
  dimensions : ℕ
  metric : DistanceMetric
  keywordSearch : Bool
  deriving DecidableEq

structure VectorEntry (Json : Type) where
  id : String
  vector : List F32
  metadata : Option Json
  text : Option String

structure VectorMatch (Json : Type) where
  id : String
  score : F32
  metadata : Option Json

/-- The conditions on metadata, a path and a value each. -/
structure MetadataFilter (Json : Type) where
  conditions : List (String × Json)

inductive SearchMode
  | vector
  | keyword
  | hybrid
  deriving DecidableEq

inductive VectorError
  | invalidIndexName (name : String)
  | indexNotFound (name : String)
  | indexAlreadyExists (name : String)
  | dimensionMismatch (expected got : ℕ)
  | textRequired
  | keywordSearchNotEnabled
  | keywordQueryRequired (mode : SearchMode)
  | invalidMetadataFilter
  | internal
  deriving DecidableEq

/-- What the service leaves to others. A full-text search answers with the rows whose texts the
query finds, in the order of their rank, unless the query is malformed. -/
structure Host (Json : Type) where
  print : Json → String
  parse : String → Option Json
  isStringOrNumber : Json → Bool
  satisfies : MetadataFilter Json → Option Json → Bool
  finds : String → String → Bool
  search : String → List FtsRow → Option (List FtsRow)
  search_perm : ∀ query rows found, search query rows = some found →
    found.Perm (rows.filter fun row => finds query row.text)
  topK : List F32 → List (String × List F32) → ℕ → DistanceMetric → List (String × F32)
  fuseScored : List (List String) → ℕ → List (String × F32)
  keywordScore : ℕ → F32

/-- The tables, and the configurations kept in memory. -/
structure BrowserVectorService where
  db : VectorDb
  indexes : AList fun _ : IndexName => IndexState

namespace BrowserVectorService

/-- A service on a database without an index. -/
def new : BrowserVectorService := ⟨.empty, ∅⟩

/-- The service after a restart. -/
def restarted (s : BrowserVectorService) : BrowserVectorService := ⟨s.db, ∅⟩

/-- The configuration of an index, from memory or from the registry. -/
def lookup (name : IndexName) (s : BrowserVectorService) :
    Option IndexState × BrowserVectorService :=
  match s.indexes.lookup name with
  | some state => (some state, s)
  | none =>
    match s.db.registry.lookup name with
    | some state => (some state, { s with indexes := s.indexes.insert name state })
    | none => (none, s)

/-- Run `statements`; a statement that fails leaves what those before it have done. -/
def exec (statements : List Statement) (s : BrowserVectorService) :
    Except VectorError Unit × BrowserVectorService :=
  match execAll statements s.db with
  | (true, db) => (.ok (), { s with db })
  | (false, db) => (.error .internal, { s with db })

end BrowserVectorService

open BrowserVectorService

/-- Run `f` with the configuration of the index called `name`. -/
def withIndex {α : Type} (name : String) (s : BrowserVectorService)
    (f : IndexName → IndexState → BrowserVectorService →
      Except VectorError α × BrowserVectorService) :
    Except VectorError α × BrowserVectorService :=
  match IndexName.parse name with
  | none => (.error (.invalidIndexName name), s)
  | some index =>
    match lookup index s with
    | (none, s) => (.error (.indexNotFound name), s)
    | (some state, s) => f index state s

/-- What is done in memory once the statements have run. -/
def afterwards (result : Except VectorError Unit × BrowserVectorService)
    (f : BrowserVectorService → BrowserVectorService) :
    Except VectorError Unit × BrowserVectorService :=
  match result with
  | (.ok (), s) => (.ok (), f s)
  | (.error e, s) => (.error e, s)

/-! ## Writing -/

inductive RegistryConflict
  | new
  | identicalNoOp
  | mismatch
  deriving DecidableEq

def classifyRegistryConflict (existing : Option IndexState) (incoming : IndexState) :
    RegistryConflict :=
  match existing with
  | none => .new
  | some state => if state = incoming then .identicalNoOp else .mismatch

def VectorIndexConfig.state (config : VectorIndexConfig) : IndexState :=
  ⟨config.dimensions, config.metric, config.keywordSearch⟩

def createIndex (config : VectorIndexConfig) (s : BrowserVectorService) :
    Except VectorError Unit × BrowserVectorService :=
  match IndexName.parse config.name with
  | none => (.error (.invalidIndexName config.name), s)
  | some name =>
    if classifyRegistryConflict (s.db.registry.lookup name) config.state = .mismatch then
      (.error (.indexAlreadyExists config.name), s)
    else
      let statements := buildCreateIndexSql name config.keywordSearch ++
        [.registryUpsert name config.state]
      afterwards (exec statements s) fun s =>
        { s with indexes := s.indexes.insert name config.state }

def deleteIndex (name : String) (s : BrowserVectorService) :
    Except VectorError Unit × BrowserVectorService :=
  withIndex name s fun index state s =>
    let statements := buildDeleteIndexSql index state.keywordSearch ++ [.registryDelete index]
    afterwards (exec statements s) fun s => { s with indexes := s.indexes.erase index }

/-- `usize as u32` -/
def asU32 (n : ℕ) : ℕ := n % 4294967296

/-- The metadata column of an entry. -/
def metadataJson (host : Host Json) (e : VectorEntry Json) : String :=
  (e.metadata.map host.print).getD "\x7b\x7d"

/-- An entry as it is written, if the index takes it. -/
def prepareEntry (host : Host Json) (state : IndexState) (e : VectorEntry Json) :
    Except VectorError SqlUpsertEntry :=
  if asU32 e.vector.length ≠ state.dimensions then
    .error (.dimensionMismatch state.dimensions (asU32 e.vector.length))
  else if state.keywordSearch = true ∧ e.text = none then .error .textRequired
  else .ok ⟨e.id, String.ofList (Base64.encode (packVectorBlob e.vector)), metadataJson host e, e.text⟩

def upsert (host : Host Json) (name : String) (entries : List (VectorEntry Json))
    (s : BrowserVectorService) : Except VectorError Unit × BrowserVectorService :=
  withIndex name s fun index state s =>
    -- the whole batch is refused before anything is written
    match entries.mapM (prepareEntry host state) with
    | .error e => (.error e, s)
    | .ok prepared => exec (buildUpsertSqlStmts index state.keywordSearch prepared) s

def delete (name : String) (ids : List String) (s : BrowserVectorService) :
    Except VectorError Unit × BrowserVectorService :=
  withIndex name s fun index state s =>
    if ids.isEmpty then (.ok (), s)
    else exec (buildDeleteIdsSql index ids state.keywordSearch) s

/-! ## Reading -/

/-- The value of the last pair that has the key. -/
def lastOf {α : Type} (pairs : List (String × α)) (key : String) : Option α :=
  (pairs.reverse.find? fun pair => pair.1 = key).map (·.2)

structure Candidate (Json : Type) where
  id : String
  vector : List F32
  metadata : Option Json

/-- Every vector of the index whose metadata satisfies the filter. -/
def loadAllVectors (host : Host Json) (db : VectorDb) (index : IndexName) (dims : ℕ)
    (filter : MetadataFilter Json) : Option (List (Candidate Json)) := do
  let rows ← db.vectors.lookup index
  let candidates ← rows.mapM fun row => do
    let vector ← parseVectorBlob row.vector dims
    pure (⟨row.id, vector, host.parse row.metadata⟩ : Candidate Json)
  pure (candidates.filter fun candidate => host.satisfies filter candidate.metadata)

/-- The ids of the rows that the query finds, the best first. -/
def ftsSearch (host : Host Json) (db : VectorDb) (index : IndexName) (query : String) (limit : ℕ) :
    Option (List String) := do
  let rows ← db.fts.lookup index
  let found ← host.search query rows
  pure ((found.take limit).map FtsRow.id)

def loadMetadataForIds (host : Host Json) (db : VectorDb) (index : IndexName) (ids : List String) :
    Option (List (String × Option Json)) :=
  if ids.isEmpty then some []
  else do
    let rows ← db.metas.lookup index
    pure ((rows.filter fun row => row.id ∈ ids).map fun row => (row.id, host.parse row.metadata))

structure QueryRequest (Json : Type) where
  vector : List F32
  topK : ℕ
  filter : MetadataFilter Json
  mode : SearchMode
  keywordQuery : Option String

/-- The candidates closest to a vector. -/
def closest (host : Host Json) (state : IndexState) (request : QueryRequest Json)
    (candidates : List (Candidate Json)) (fetchN : ℕ) : List (String × F32) :=
  host.topK request.vector (candidates.map fun candidate => (candidate.id, candidate.vector)) fetchN
    state.metric

def attachMetadata (candidates : List (Candidate Json)) (scored : List (String × F32)) :
    List (VectorMatch Json) :=
  let byId := lastOf (candidates.map fun candidate => (candidate.id, candidate.metadata))
  scored.map fun match' => ⟨match'.1, match'.2, (byId match'.1).join⟩

/-- The answer to a query that was checked; there is none when a read fails. -/
def search (host : Host Json) (db : VectorDb) (index : IndexName) (state : IndexState)
    (request : QueryRequest Json) : Option (List (VectorMatch Json)) :=
  let kq := request.keywordQuery.getD ""
  match request.mode with
  | .vector => do
    let candidates ← loadAllVectors host db index state.dimensions request.filter
    pure (attachMetadata candidates (closest host state request candidates request.topK))
  | .keyword => do
    let ids ← ftsSearch host db index kq request.topK
    let metadata ← loadMetadataForIds host db index ids
    pure (ids.zipIdx.filterMap fun ranked =>
      let m := (lastOf metadata ranked.1).join
      if host.satisfies request.filter m then some ⟨ranked.1, host.keywordScore ranked.2, m⟩
      else none)
  | .hybrid => do
    let fetchN := max 50 request.topK
    let candidates ← loadAllVectors host db index state.dimensions request.filter
    let vecIds := (closest host state request candidates fetchN).map (·.1)
    let kwTop ← ftsSearch host db index kq fetchN
    let fused := host.fuseScored [vecIds, kwTop] request.topK
    let known := candidates.map fun candidate => (candidate.id, candidate.metadata)
    let kwMeta ← loadMetadataForIds host db index
      (kwTop.filter fun id => (lastOf known id).isNone)
    pure (fused.map fun match' =>
      ⟨match'.1, match'.2, (lastOf (known ++ kwMeta) match'.1).join⟩)

/-- Why a query is refused. -/
def queryError (state : IndexState) (request : QueryRequest Json) : Option VectorError :=
  if request.mode ≠ .vector ∧ state.keywordSearch = false then some .keywordSearchNotEnabled
  else if request.mode ≠ .vector ∧ request.keywordQuery.getD "" = "" then
    some (.keywordQueryRequired request.mode)
  else if request.mode ≠ .keyword ∧ asU32 request.vector.length ≠ state.dimensions then
    some (.dimensionMismatch state.dimensions (asU32 request.vector.length))
  else none

def query (host : Host Json) (name : String) (request : QueryRequest Json)
    (s : BrowserVectorService) : Except VectorError (List (VectorMatch Json)) × BrowserVectorService :=
  withIndex name s fun index state s =>
    match queryError state request with
    | some e => (.error e, s)
    | none =>
      match search host s.db index state request with
      | some found => (.ok found, s)
      | none => (.error .internal, s)

/-- At least one condition, and every value a string or a number. -/
def checkListIdsFilter (host : Host Json) (filter : MetadataFilter Json) : Bool :=
  !filter.conditions.isEmpty && filter.conditions.all fun condition =>
    host.isStringOrNumber condition.2

def listIds (host : Host Json) (name : String) (filter : MetadataFilter Json)
    (s : BrowserVectorService) : Except VectorError (List String) × BrowserVectorService :=
  if checkListIdsFilter host filter = false then (.error .invalidMetadataFilter, s)
  else withIndex name s fun index _ s =>
    match s.db.metas.lookup index with
    | some rows =>
      (.ok ((rows.filter fun row => host.satisfies filter (host.parse row.metadata)).map MetaRow.id),
        s)
    | none => (.error .internal, s)

def count (name : String) (s : BrowserVectorService) :
    Except VectorError ℕ × BrowserVectorService :=
  withIndex name s fun index _ s =>
    match s.db.metas.lookup index with
    | some rows => (.ok rows.length, s)
    | none => (.error .internal, s)

/-! ## The requests -/

inductive VectorOp (Json : Type)
  | createIndex (config : VectorIndexConfig)
  | deleteIndex (name : String)
  | upsert (index : String) (entries : List (VectorEntry Json))
  | delete (index : String) (ids : List String)
  | query (index : String) (request : QueryRequest Json)
  | listIds (index : String) (filter : MetadataFilter Json)
  | count (index : String)
  | restart

inductive VectorAnswer (Json : Type)
  | done
  | found (rows : List (VectorMatch Json))
  | ids (ids : List String)
  | counted (n : ℕ)
  | failed (e : VectorError)

def answered {α : Type} (reply : α → VectorAnswer Json)
    (result : Except VectorError α × BrowserVectorService) :
    VectorAnswer Json × BrowserVectorService :=
  match result with
  | (.ok a, s) => (reply a, s)
  | (.error e, s) => (.failed e, s)

/-- One request. -/
def serve (host : Host Json) (op : VectorOp Json) (s : BrowserVectorService) :
    VectorAnswer Json × BrowserVectorService :=
  match op with
  | .createIndex config => answered (fun _ => .done) (createIndex config s)
  | .deleteIndex name => answered (fun _ => .done) (deleteIndex name s)
  | .upsert index entries => answered (fun _ => .done) (upsert host index entries s)
  | .delete index ids => answered (fun _ => .done) (delete index ids s)
  | .query index request => answered .found (query host index request s)
  | .listIds index filter => answered .ids (listIds host index filter s)
  | .count index => answered .counted (count index s)
  | .restart => (.done, s.restarted)

/-- The service after some requests. -/
def serveAll (host : Host Json) (ops : List (VectorOp Json)) : BrowserVectorService :=
  ops.foldl (fun s op => (serve host op s).2) .new

end Vectors
