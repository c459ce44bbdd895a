import Mathlib.Data.List.Induction
import Impresspress.Vectors.Service

/-!
# What the vector store's tables hold

Users of the store see entries by their ids. Each is written to up to three tables, and two of them
replace an entry of the same id while the one for full-text search adds to it. So the tables agree
with the entries as long as no entry of an index with keyword search is written over.

## Main definitions

* `Vectors.Stored`: the entries of the indexes, as the users see them.
* `Vectors.Agrees`: the tables hold one row for each entry.
* `Vectors.Coherent`: the tables agree, and with them what is found and what a restart leaves.
* `Vectors.Fresh`: a request that writes over no entry with keyword search.

## Main results

* `Vectors.coherent_exactly`: the tables are coherent throughout a run if and only if each of its
  requests is fresh.
-/

namespace Vectors

variable {Json : Type}

/-! ## The entries -/

/-- The entries of an index, by their ids. -/
structure Kept (Json : Type) where
  state : IndexState
  entries : String → Option (VectorEntry Json)
  keyed : ∀ id e, entries id = some e → e.id = id

namespace Kept

/-- An index without entries. -/
def empty (state : IndexState) : Kept Json := ⟨state, fun _ => none, nofun⟩

/-- The last entry of an id is the one that counts. -/
def put (kept : Kept Json) (e : VectorEntry Json) : Kept Json where
  state := kept.state
  entries := fun id => if id = e.id then some e else kept.entries id
  keyed := fun id e' h => by
    split at h
    · cases h
      exact Eq.symm ‹_›
    · exact kept.keyed id e' h

def remove (kept : Kept Json) (ids : List String) : Kept Json where
  state := kept.state
  entries := fun id => if id ∈ ids then none else kept.entries id
  keyed := fun id e h => by
    split at h
    · cases h
    · exact kept.keyed id e h

/-- The index takes the entry. -/
def Takes (kept : Kept Json) (e : VectorEntry Json) : Prop :=
  asU32 e.vector.length = kept.state.dimensions ∧ (kept.state.keywordSearch = true → e.text ≠ none)

instance (kept : Kept Json) (e : VectorEntry Json) : Decidable (kept.Takes e) :=
  inferInstanceAs (Decidable (_ ∧ (_ → _)))

end Kept

/-- The indexes that there are, and what is in them. -/
abbrev Stored (Json : Type) := IndexName → Option (Kept Json)

namespace Stored

/-- The index of that name changes, if there is one. -/
def modify (stored : Stored Json) (name : String) (f : Kept Json → Option (Kept Json)) :
    Stored Json :=
  match IndexName.parse name with
  | none => stored
  | some index =>
    match stored index with
    | none => stored
    | some kept => Function.update stored index (f kept)

/-- What is stored after a request. -/
def after (stored : Stored Json) : VectorOp Json → Stored Json
  | .createIndex config =>
    match IndexName.parse config.name with
    | none => stored
    | some name =>
      match stored name with
      | none => Function.update stored name (some (.empty config.state))
      | some _ => stored
  | .deleteIndex name => stored.modify name fun _ => none
  | .upsert name entries => stored.modify name fun kept =>
    some (if ∀ e ∈ entries, kept.Takes e then entries.foldl Kept.put kept else kept)
  | .delete name ids => stored.modify name fun kept => some (kept.remove ids)
  | _ => stored

/-- What is stored after some requests. -/
def afterAll (ops : List (VectorOp Json)) : Stored Json := ops.foldl after fun _ => none

end Stored

/-! ## The tables -/

section Rows

variable (host : Host Json) (state : IndexState) (e : VectorEntry Json)

/-- The text columns of an entry. -/
def textColumn : Option String := if state.keywordSearch then some (e.text.getD "") else none

def vectorsRow : VectorsRow := ⟨e.id, packVectorBlob e.vector, metadataJson host e, textColumn state e⟩

def ftsRow : FtsRow := ⟨e.id, e.text.getD ""⟩

def metaRow : MetaRow := ⟨e.id, metadataJson host e, textColumn state e⟩

end Rows

/-- The rows of an id are that of its entry, if it has one. -/
def RowsHold {Row : Type} (key : Row → String) (row : VectorEntry Json → Row) (kept : Kept Json)
    (rows : List Row) : Prop :=
  ∀ id, rows.filter (fun stored => key stored = id) = (kept.entries id).toList.map row

/-- A table is there for the index that needs it, and holds its entries. -/
def TableAgrees {Row : Type} (key : Row → String) (row : IndexState → VectorEntry Json → Row) :
    Option (Kept Json) → Option (List Row) → Prop
  | none, none => True
  | some kept, some rows => RowsHold key (row kept.state) kept rows
  | _, _ => False

/-- The tables of an index hold exactly one row for each entry, with what the entry has; there are
none of an index that there is not. -/
structure AgreesAt (host : Host Json) (kept : Option (Kept Json)) (db : VectorDb)
    (name : IndexName) : Prop where
  registry : db.registry.lookup name = kept.map Kept.state
  vectors : TableAgrees VectorsRow.id (vectorsRow host) kept (db.vectors.lookup name)
  fts : TableAgrees FtsRow.id (fun _ => ftsRow) (kept.filter fun kept => kept.state.keywordSearch)
    (db.fts.lookup name)
  metas : TableAgrees MetaRow.id (metaRow host) kept (db.metas.lookup name)

/-- The tables hold what is stored. -/
def Agrees (host : Host Json) (stored : Stored Json) (db : VectorDb) : Prop :=
  ∀ name, AgreesAt host (stored name) db name

/-- The tables hold the entries, a keyword search finds an id once at most and only through the text
of its entry, and a restart changes no answer. -/
structure Coherent (host : Host Json) (stored : Stored Json) (s : BrowserVectorService) : Prop where
  agrees : Agrees host stored s.db
  found : ∀ index kept query limit ids, stored index = some kept → kept.state.keywordSearch = true →
    ftsSearch host s.db index query limit = some ids →
    ids.Nodup ∧ ∀ id ∈ ids, ∃ e, kept.entries id = some e ∧ host.finds query (e.text.getD "") = true
  restart : ∀ op, (serve host op s.restarted).1 = (serve host op s).1

/-- No entry of an index with keyword search is written over, and none is written twice. -/
def Fresh (stored : Stored Json) : VectorOp Json → Prop
  | .upsert name entries => ∀ index kept, IndexName.parse name = some index →
    stored index = some kept → kept.state.keywordSearch = true → (∀ e ∈ entries, kept.Takes e) →
    (entries.map VectorEntry.id).Nodup ∧ ∀ e ∈ entries, kept.entries e.id = none
  | _ => True

/-! ## Rows -/

section RowsHold

variable {Row : Type} {key : Row → String} {row : VectorEntry Json → Row} {kept : Kept Json}
  {rows : List Row}

theorem RowsHold.replaceRow (h : RowsHold key row kept rows) (hkey : ∀ e, key (row e) = e.id)
    (e : VectorEntry Json) : RowsHold key row (kept.put e) (replaceRow key rows (row e)) := by
  intro id
  rw [Vectors.replaceRow, List.filter_append, List.filter_filter, hkey]
  by_cases hid : id = e.id
  · have hnone : rows.filter (fun stored => decide (key stored = id) && decide (key stored ≠ e.id)) =
        [] := by
      refine List.filter_eq_nil_iff.mpr fun stored _ hboth => ?_
      simp only [Bool.and_eq_true, decide_eq_true_eq] at hboth
      exact hboth.2 (hboth.1.trans hid)
    rw [hnone]
    simp [Kept.put, hid, hkey]
  · have hsame : rows.filter (fun stored => decide (key stored = id) && decide (key stored ≠ e.id)) =
        rows.filter fun stored => decide (key stored = id) := by
      refine List.filter_congr fun stored _ => ?_
      by_cases hstored : key stored = id
      · simp [hstored, hid]
      · simp [hstored]
    rw [hsame, h id]
    have hother : ¬ e.id = id := fun heq => hid heq.symm
    simp [Kept.put, hid, hkey, hother]

theorem RowsHold.foldl_replaceRow (h : RowsHold key row kept rows) (hkey : ∀ e, key (row e) = e.id)
    (entries : List (VectorEntry Json)) :
    RowsHold key row (entries.foldl Kept.put kept)
      (entries.foldl (fun rows e => Vectors.replaceRow key rows (row e)) rows) := by
  induction entries generalizing kept rows with
  | nil => exact h
  | cons e entries ih => exact ih (h.replaceRow hkey e)

/-- A row more, for an id that has none. -/
theorem RowsHold.append (h : RowsHold key row kept rows) (hkey : ∀ e, key (row e) = e.id)
    {e : VectorEntry Json} (hnew : kept.entries e.id = none) :
    RowsHold key row (kept.put e) (rows ++ [row e]) := by
  intro id
  rw [List.filter_append, h id]
  by_cases hid : id = e.id
  · subst hid
    simp [Kept.put, hkey, hnew]
  · have hother : ¬ e.id = id := fun heq => hid heq.symm
    simp [Kept.put, hid, hkey, hother]

theorem foldl_put_state (entries : List (VectorEntry Json)) (kept : Kept Json) :
    (entries.foldl Kept.put kept).state = kept.state := by
  induction entries generalizing kept with
  | nil => rfl
  | cons e entries ih => exact ih (kept.put e)

theorem RowsHold.append_map (h : RowsHold key row kept rows) (hkey : ∀ e, key (row e) = e.id)
    {entries : List (VectorEntry Json)} (hnodup : (entries.map VectorEntry.id).Nodup)
    (hnew : ∀ e ∈ entries, kept.entries e.id = none) :
    RowsHold key row (entries.foldl Kept.put kept) (rows ++ entries.map row) := by
  induction entries generalizing kept rows with
  | nil => rwa [List.map_nil, List.append_nil]
  | cons e entries ih =>
    rw [List.map_cons, List.nodup_cons] at hnodup
    have hrest := ih (h.append hkey (hnew e List.mem_cons_self)) hnodup.2 fun e' he' => ?_
    · rwa [List.append_assoc, List.singleton_append, ← List.map_cons] at hrest
    · have hne : e'.id ≠ e.id := fun heq => hnodup.1 (heq ▸ List.mem_map_of_mem he')
      change (if e'.id = e.id then some e else kept.entries e'.id) = none
      rw [if_neg hne]
      exact hnew e' (List.mem_cons_of_mem e he')

/-- Where rows are added, an id has as many as were added for it, and those it had. -/
theorem fresh_of_append_map (h : RowsHold key row kept rows) (hkey : ∀ e, key (row e) = e.id)
    {entries : List (VectorEntry Json)} {kept' : Kept Json}
    (h' : RowsHold key row kept' (rows ++ entries.map row)) :
    (entries.map VectorEntry.id).Nodup ∧ ∀ e ∈ entries, kept.entries e.id = none := by
  have hcount : ∀ id, (kept.entries id).toList.length + (entries.map VectorEntry.id).count id ≤ 1 := by
    intro id
    have hlength := congrArg List.length (h' id)
    rw [List.filter_append, h id, List.length_append, List.length_map, List.length_map,
      List.filter_map, List.length_map] at hlength
    have hfilter : (entries.filter ((fun stored => decide (key stored = id)) ∘ row)).length =
        (entries.map VectorEntry.id).count id := by
      rw [List.count, List.countP_map, List.countP_eq_length_filter]
      refine congrArg List.length (List.filter_congr fun e _ => ?_)
      rw [Bool.eq_iff_iff]
      simp [hkey]
    rw [hfilter] at hlength
    have hone : (kept'.entries id).toList.length ≤ 1 := by cases kept'.entries id <;> simp
    omega
  refine ⟨List.nodup_iff_count_le_one.mpr fun id => ?_, fun e he => ?_⟩
  · have := hcount id
    omega
  · have hmem := List.count_pos_iff.mpr (List.mem_map_of_mem (f := VectorEntry.id) he)
    have hle := hcount e.id
    cases hkept : kept.entries e.id with
    | none => rfl
    | some old =>
      rw [hkept] at hle
      simp only [Option.toList_some, List.length_singleton] at hle
      omega

theorem RowsHold.deleteRows (h : RowsHold key row kept rows) (ids : List String) :
    RowsHold key row (kept.remove ids) (deleteRows key rows ids) := by
  intro id
  rw [Vectors.deleteRows, List.filter_filter]
  by_cases hid : id ∈ ids
  · have hnone : rows.filter (fun stored => decide (key stored = id) && decide (key stored ∉ ids)) =
        [] := by
      refine List.filter_eq_nil_iff.mpr fun stored _ hboth => ?_
      simp only [Bool.and_eq_true, decide_eq_true_eq] at hboth
      exact hboth.2 (hboth.1 ▸ hid)
    rw [hnone]
    simp [Kept.remove, hid]
  · have hsame : rows.filter (fun stored => decide (key stored = id) && decide (key stored ∉ ids)) =
        rows.filter fun stored => decide (key stored = id) := by
      refine List.filter_congr fun stored _ => ?_
      by_cases hstored : key stored = id
      · simp [hstored, hid]
      · simp [hstored]
    rw [hsame, h id]
    simp [Kept.remove, hid]

/-- No two rows of a table that holds entries are of one id. -/
theorem RowsHold.nodup (h : RowsHold key row kept rows) : (rows.map key).Nodup := by
  refine List.nodup_iff_count_le_one.mpr fun id => ?_
  rw [List.count, List.countP_map, List.countP_eq_length_filter]
  have hfilter : rows.filter ((fun other => other == id) ∘ key) =
      (kept.entries id).toList.map row := by
    refine (List.filter_congr fun stored _ => ?_).trans (h id)
    rw [Bool.eq_iff_iff]
    simp
  rw [hfilter]
  cases kept.entries id <;> simp

end RowsHold

/-! ## Statements -/

section Statements

variable {db : VectorDb}

theorem execAll_append (a b : List Statement) (db : VectorDb) :
    execAll (a ++ b) db =
      if (execAll a db).1 = true then execAll b (execAll a db).2 else execAll a db := by
  induction a generalizing db with
  | nil => rfl
  | cons statement a ih =>
    rw [List.cons_append, execAll, execAll]
    cases statement.exec db with
    | some db => exact ih db
    | none => rfl

/-- A table was changed, and no other one. -/
theorem lookup_insert {Row : Type} (tables : AList fun _ : IndexName => List Row) (index : IndexName)
    (rows : List Row) (name : IndexName) :
    (tables.insert index rows).lookup name = if name = index then some rows
      else tables.lookup name := by
  by_cases hname : name = index
  · rw [hname, AList.lookup_insert, if_pos rfl]
  · rw [AList.lookup_insert_ne hname, if_neg hname]

theorem lookup_createIn {Row : Type} (tables : AList fun _ : IndexName => List Row)
    (index name : IndexName) :
    (createIn tables index).lookup name =
      if name = index then some ((tables.lookup index).getD []) else tables.lookup name := by
  unfold createIn
  split
  · rename_i hmem
    split
    · rename_i hname
      obtain ⟨rows, hrows⟩ := Option.isSome_iff_exists.mp (AList.lookup_isSome.mpr hmem)
      rw [hname, hrows, Option.getD_some]
    · rfl
  · rename_i hmem
    rw [lookup_insert, AList.lookup_eq_none.mpr hmem, Option.getD_none]

/-- The database after each table of an index was rewritten. -/
structure Rewrote (index : IndexName) (keywordSearch : Bool)
    (vectors : List VectorsRow → List VectorsRow) (fts : List FtsRow → List FtsRow)
    (metas : List MetaRow → List MetaRow) (db db' : VectorDb) : Prop where
  registry : db'.registry = db.registry
  vectors : ∀ name, db'.vectors.lookup name =
    if name = index then (db.vectors.lookup index).map vectors else db.vectors.lookup name
  fts : ∀ name, db'.fts.lookup name = if name = index ∧ keywordSearch = true then
    (db.fts.lookup index).map fts else db.fts.lookup name
  metas : ∀ name, db'.metas.lookup name =
    if name = index then (db.metas.lookup index).map metas else db.metas.lookup name

/-- An entry as the statements get it. -/
def sqlEntry (host : Host Json) (e : VectorEntry Json) : SqlUpsertEntry :=
  ⟨e.id, String.ofList (Base64.encode (packVectorBlob e.vector)), metadataJson host e, e.text⟩

variable {host : Host Json} {index : IndexName} {state : IndexState}

theorem decode_vectorBlob (v : List F32) :
    Base64.decode (String.ofList (Base64.encode (packVectorBlob v))).toList =
      some (packVectorBlob v) := by
  rw [String.toList_ofList, Base64.decode_encode]

theorem rewrote_id (index : IndexName) (keywordSearch : Bool) (db : VectorDb) :
    Rewrote index keywordSearch id id id db db := by
  have hsame : ∀ {Row : Type} (tables : AList fun _ : IndexName => List Row) (changed : Prop)
      [Decidable changed] (name : IndexName), (changed → name = index) →
      tables.lookup name = if changed then (tables.lookup index).map id else tables.lookup name := by
    intro Row tables changed _ name hchanged
    split
    · rw [hchanged ‹_›, Option.map_id, id]
    · rfl
  exact ⟨rfl, fun name => hsame _ _ name id, fun name => hsame _ _ name And.left,
    fun name => hsame _ _ name id⟩

theorem Rewrote.trans {keywordSearch : Bool} {db db₁ db₂ : VectorDb}
    {v v' : List VectorsRow → List VectorsRow} {f f' : List FtsRow → List FtsRow}
    {m m' : List MetaRow → List MetaRow} (h : Rewrote index keywordSearch v f m db db₁)
    (h' : Rewrote index keywordSearch v' f' m' db₁ db₂) :
    Rewrote index keywordSearch (v' ∘ v) (f' ∘ f) (m' ∘ m) db db₂ where
  registry := h'.registry.trans h.registry
  vectors := fun name => by
    rw [h'.vectors, h.vectors, h.vectors, if_pos rfl, Option.map_map]
    split <;> rfl
  fts := fun name => by
    rw [h'.fts, h.fts, h.fts]
    split
    · rename_i hname
      rw [if_pos ⟨rfl, hname.2⟩, Option.map_map]
    · rfl
  metas := fun name => by
    rw [h'.metas, h.metas, h.metas, if_pos rfl, Option.map_map]
    split <;> rfl

/-- Tables of an index that were each rewritten once. -/
theorem rewrote_of_rows {keywordSearch : Bool} {rows : List VectorsRow} {metas : List MetaRow}
    {v : List VectorsRow → List VectorsRow} {f : List FtsRow → List FtsRow}
    {m : List MetaRow → List MetaRow} (found : AList fun _ : IndexName => List FtsRow)
    (hrows : db.vectors.lookup index = some rows) (hmetas : db.metas.lookup index = some metas)
    (hfts : ∀ name, found.lookup name = if name = index ∧ keywordSearch = true then
      (db.fts.lookup index).map f else db.fts.lookup name) :
    Rewrote index keywordSearch v f m db { db with
      vectors := db.vectors.insert index (v rows)
      fts := found
      metas := db.metas.insert index (m metas) } where
  registry := rfl
  vectors := fun name => by
    rw [lookup_insert, hrows]
    rfl
  fts := hfts
  metas := fun name => by
    rw [lookup_insert, hmetas]
    rfl

/-- One entry is written to the tables of its index. -/
theorem exec_entry (host : Host Json) (hvectors : db.vectors.lookup index ≠ none)
    (hfts : state.keywordSearch = true → db.fts.lookup index ≠ none)
    (hmetas : db.metas.lookup index ≠ none) (e : VectorEntry Json) :
    ∃ db', execAll (buildEntrySqlStmts index state.keywordSearch (sqlEntry host e)) db = (true, db') ∧
      Rewrote index state.keywordSearch
        (fun rows => replaceRow VectorsRow.id rows (vectorsRow host state e))
        (fun rows => rows ++ [ftsRow e])
        (fun rows => replaceRow MetaRow.id rows (metaRow host state e)) db db' := by
  obtain ⟨rows, hrows⟩ := Option.ne_none_iff_exists'.mp hvectors
  obtain ⟨metas, hmetas⟩ := Option.ne_none_iff_exists'.mp hmetas
  cases hkeyword : state.keywordSearch with
  | true =>
    obtain ⟨found, hfound⟩ := Option.ne_none_iff_exists'.mp (hfts hkeyword)
    refine ⟨_, ?_, rewrote_of_rows (db.fts.insert index (found ++ [ftsRow e])) hrows hmetas
      fun name => ?_⟩
    · simp only [buildEntrySqlStmts, sqlEntry, execAll, Statement.exec, hrows, hfound, hmetas,
        decode_vectorBlob, Option.bind_eq_bind, Option.bind_some, if_true, vectorsRow, ftsRow,
        metaRow, textColumn, hkeyword]
    · rw [lookup_insert, hfound]
      simp
  | false =>
    refine ⟨_, ?_, rewrote_of_rows db.fts hrows hmetas fun name => ?_⟩
    · simp only [buildEntrySqlStmts, sqlEntry, execAll, Statement.exec, hrows, hmetas,
        decode_vectorBlob, Option.bind_eq_bind, Option.bind_some, Bool.false_eq_true, if_false,
        vectorsRow, metaRow, textColumn, hkeyword]
    · simp

/-- A table that was rewritten is still there. -/
theorem lookup_ite_ne_none {Row : Type} {tables : AList fun _ : IndexName => List Row}
    {table : Option (List Row)} {changed : Prop} [Decidable changed]
    {f : List Row → List Row}
    (htable : table = if changed then (tables.lookup index).map f else tables.lookup index)
    (h : tables.lookup index ≠ none) : table ≠ none := by
  rw [htable]
  split
  · rwa [ne_eq, Option.map_eq_none_iff]
  · exact h

/-- The entries of a batch are written one after the other. -/
theorem exec_batch (host : Host Json) (state : IndexState) (entries : List (VectorEntry Json))
    (hvectors : db.vectors.lookup index ≠ none)
    (hfts : state.keywordSearch = true → db.fts.lookup index ≠ none)
    (hmetas : db.metas.lookup index ≠ none) :
    ∃ db', execAll (buildUpsertSqlStmts index state.keywordSearch (entries.map (sqlEntry host))) db =
        (true, db') ∧
      Rewrote index state.keywordSearch
        (fun rows => entries.foldl
          (fun rows e => replaceRow VectorsRow.id rows (vectorsRow host state e)) rows)
        (fun rows => rows ++ entries.map ftsRow)
        (fun rows => entries.foldl
          (fun rows e => replaceRow MetaRow.id rows (metaRow host state e)) rows) db db' := by
  induction entries generalizing db with
  | nil =>
    have hnothing := rewrote_id index state.keywordSearch db
    refine ⟨db, rfl, ?_⟩
    simp only [List.foldl_nil, List.map_nil, List.append_nil]
    exact hnothing
  | cons e entries ih =>
    obtain ⟨db₁, hexec, hwrote⟩ := exec_entry host hvectors hfts hmetas e
    obtain ⟨db₂, hexec', hwrote'⟩ := ih (lookup_ite_ne_none (hwrote.vectors index) hvectors)
      (fun hkeyword => lookup_ite_ne_none (hwrote.fts index) (hfts hkeyword))
      (lookup_ite_ne_none (hwrote.metas index) hmetas)
    refine ⟨db₂, ?_, ?_⟩
    · rw [buildUpsertSqlStmts, List.map_cons, List.flatMap_cons, execAll_append, hexec, if_pos rfl]
      exact hexec'
    · have hboth := hwrote.trans hwrote'
      simpa only [Function.comp_def, List.append_assoc, List.singleton_append, ← List.map_cons,
        ← List.foldl_cons] using hboth

/-- The rows of some ids are deleted from the tables of an index. -/
theorem exec_delete (state : IndexState) {ids : List String} (hids : ids.isEmpty = false)
    (hvectors : db.vectors.lookup index ≠ none)
    (hfts : state.keywordSearch = true → db.fts.lookup index ≠ none)
    (hmetas : db.metas.lookup index ≠ none) :
    ∃ db', execAll (buildDeleteIdsSql index ids state.keywordSearch) db = (true, db') ∧
      Rewrote index state.keywordSearch (fun rows => deleteRows VectorsRow.id rows ids)
        (fun rows => deleteRows FtsRow.id rows ids) (fun rows => deleteRows MetaRow.id rows ids)
        db db' := by
  obtain ⟨rows, hrows⟩ := Option.ne_none_iff_exists'.mp hvectors
  obtain ⟨metas, hmetas⟩ := Option.ne_none_iff_exists'.mp hmetas
  cases hkeyword : state.keywordSearch with
  | true =>
    obtain ⟨found, hfound⟩ := Option.ne_none_iff_exists'.mp (hfts hkeyword)
    refine ⟨_, ?_, rewrote_of_rows (db.fts.insert index (deleteRows FtsRow.id found ids))
      hrows hmetas fun name => ?_⟩
    · simp [buildDeleteIdsSql, hids, indexTables, execAll, Statement.exec, hrows, hfound, hmetas]
    · rw [lookup_insert, hfound]
      simp
  | false =>
    refine ⟨_, ?_, rewrote_of_rows db.fts hrows hmetas fun name => ?_⟩
    · simp [buildDeleteIdsSql, hids, indexTables, execAll, Statement.exec, hrows, hmetas]
    · simp

end Statements

/-! ## Requests -/

/-- What is kept in memory is what the registry says. -/
def Remembers (s : BrowserVectorService) : Prop :=
  ∀ name state, s.indexes.lookup name = some state → s.db.registry.lookup name = some state

/-- The tables of the other indexes are as they were. -/
structure Elsewhere (index : IndexName) (db db' : VectorDb) : Prop where
  registry : ∀ name, name ≠ index → db'.registry.lookup name = db.registry.lookup name
  vectors : ∀ name, name ≠ index → db'.vectors.lookup name = db.vectors.lookup name
  fts : ∀ name, name ≠ index → db'.fts.lookup name = db.fts.lookup name
  metas : ∀ name, name ≠ index → db'.metas.lookup name = db.metas.lookup name

section Requests

variable {host : Host Json} {stored : Stored Json} {s : BrowserVectorService} {db' : VectorDb}
  {index : IndexName} {kept : Kept Json}

theorem Rewrote.elsewhere {keywordSearch : Bool} {db db' : VectorDb}
    {v : List VectorsRow → List VectorsRow} {f : List FtsRow → List FtsRow}
    {m : List MetaRow → List MetaRow} (h : Rewrote index keywordSearch v f m db db') :
    Elsewhere index db db' where
  registry := fun _ _ => by rw [h.registry]
  vectors := fun _ hother => by rw [h.vectors, if_neg hother]
  fts := fun _ hother => by rw [h.fts, if_neg fun hboth => hother hboth.1]
  metas := fun _ hother => by rw [h.metas, if_neg hother]

/-- A change of one index is a matter of its own tables. -/
theorem agrees_update (h : Agrees host stored s.db) (hothers : Elsewhere index s.db db')
    (changed : Option (Kept Json)) :
    Agrees host (Function.update stored index changed) db' ↔ AgreesAt host changed db' index := by
  constructor
  · intro hall
    have hindex := hall index
    rwa [Function.update_self] at hindex
  · intro hindex name
    by_cases hname : name = index
    · rw [hname, Function.update_self]
      exact hindex
    · rw [Function.update_of_ne hname]
      obtain ⟨hregistry, hvectors, hfts, hmetas⟩ := h name
      constructor
      · rwa [hothers.registry name hname]
      · rwa [hothers.vectors name hname]
      · rwa [hothers.fts name hname]
      · rwa [hothers.metas name hname]

theorem tableAgrees_none {Row : Type} {key : Row → String}
    {row : IndexState → VectorEntry Json → Row} {table : Option (List Row)}
    (h : TableAgrees key row none table) : table = none := by
  cases table with
  | none => rfl
  | some rows => exact h.elim

theorem tableAgrees_some {Row : Type} {key : Row → String}
    {row : IndexState → VectorEntry Json → Row} {table : Option (List Row)}
    (h : TableAgrees key row (some kept) table) :
    ∃ rows, table = some rows ∧ RowsHold key (row kept.state) kept rows := by
  cases table with
  | none => exact h.elim
  | some rows => exact ⟨rows, rfl, h⟩

theorem filter_some_of_keyword (keep : Kept Json) (hkeyword : keep.state.keywordSearch = true) :
    (some keep).filter (fun kept : Kept Json => kept.state.keywordSearch) = some keep := by
  simp [Option.filter, hkeyword]

theorem filter_none_of_keyword (keep : Kept Json) (hkeyword : keep.state.keywordSearch = false) :
    (some keep).filter (fun kept : Kept Json => kept.state.keywordSearch) = none := by
  simp [Option.filter, hkeyword]

/-- The tables of an index that there is. -/
theorem AgreesAt.present {name : IndexName} {db : VectorDb} (h : AgreesAt host (some kept) db name) :
    (∃ rows, db.vectors.lookup name = some rows ∧
      RowsHold VectorsRow.id (vectorsRow host kept.state) kept rows) ∧
    (kept.state.keywordSearch = true → ∃ rows, db.fts.lookup name = some rows ∧
      RowsHold FtsRow.id ftsRow kept rows) ∧
    (∃ rows, db.metas.lookup name = some rows ∧
      RowsHold MetaRow.id (metaRow host kept.state) kept rows) := by
  refine ⟨tableAgrees_some h.vectors, fun hkeyword => ?_, tableAgrees_some h.metas⟩
  have hfts := h.fts
  rw [filter_some_of_keyword _ hkeyword] at hfts
  exact tableAgrees_some hfts

theorem ne_none_of_eq_some {α : Type} {o : Option α} {P : α → Prop} (h : ∃ a, o = some a ∧ P a) :
    o ≠ none := by
  obtain ⟨a, ha, -⟩ := h
  rw [ha]
  exact Option.some_ne_none a

/-- The configuration of an index is found, whether it is remembered or not. -/
theorem lookup_spec (hmemory : Remembers s) (name : IndexName) :
    (BrowserVectorService.lookup name s).1 = s.db.registry.lookup name ∧
      (BrowserVectorService.lookup name s).2.db = s.db ∧
      Remembers (BrowserVectorService.lookup name s).2 := by
  unfold BrowserVectorService.lookup
  cases hindex : s.indexes.lookup name with
  | some state => exact ⟨(hmemory name state hindex).symm, rfl, hmemory⟩
  | none =>
    cases hregistry : s.db.registry.lookup name with
    | none => exact ⟨rfl, rfl, hmemory⟩
    | some state =>
      refine ⟨rfl, rfl, fun other state' hother => ?_⟩
      by_cases heq : other = name
      · rw [heq, AList.lookup_insert] at hother
        rw [heq, hregistry, hother]
      · rw [AList.lookup_insert_ne heq] at hother
        exact hmemory other state' hother

/-- A request about an index that there is not is refused; one about an index that there is finds
its configuration. -/
theorem withIndex_cases {α : Type} (h : Agrees host stored s.db) (hmemory : Remembers s)
    (name : String)
    (f : IndexName → IndexState → BrowserVectorService →
      Except VectorError α × BrowserVectorService) :
    ((∀ g, stored.modify name g = stored) ∧ ∃ e s', withIndex name s f = (.error e, s') ∧
      s'.db = s.db ∧ Remembers s') ∨
    ∃ index kept s', IndexName.parse name = some index ∧ stored index = some kept ∧
      (∀ g, stored.modify name g = Function.update stored index (g kept)) ∧
      withIndex name s f = f index kept.state s' ∧ s'.db = s.db ∧ Remembers s' := by
  unfold withIndex Stored.modify
  cases hparse : IndexName.parse name with
  | none => exact .inl ⟨fun _ => rfl, _, s, rfl, rfl, hmemory⟩
  | some index =>
    obtain ⟨hfound, hdb, hmemory'⟩ := lookup_spec hmemory index
    rw [(h index).registry] at hfound
    cases hstored : stored index with
    | none =>
      rw [hstored] at hfound
      have hlookup : BrowserVectorService.lookup index s =
          (none, (BrowserVectorService.lookup index s).2) := Prod.ext hfound rfl
      refine .inl ⟨fun _ => by simp only [hstored], .indexNotFound name,
        (BrowserVectorService.lookup index s).2, ?_, hdb, hmemory'⟩
      simp only
      rw [hlookup]
    | some kept =>
      rw [hstored] at hfound
      have hlookup : BrowserVectorService.lookup index s =
          (some kept.state, (BrowserVectorService.lookup index s).2) := Prod.ext hfound rfl
      refine .inr ⟨index, kept, (BrowserVectorService.lookup index s).2, rfl, hstored,
        fun _ => by simp only [hstored], ?_, hdb, hmemory'⟩
      simp only
      rw [hlookup]

/-- Statements that do not fail. -/
theorem exec_of_execAll {statements : List Statement}
    (h : execAll statements s.db = (true, db')) :
    BrowserVectorService.exec statements s = (.ok (), { s with db := db' }) := by
  unfold BrowserVectorService.exec
  rw [h]

theorem afterwards_ok (s : BrowserVectorService)
    (f : BrowserVectorService → BrowserVectorService) :
    afterwards (.ok (), s) f = (.ok (), f s) := rfl

theorem execAll_create (name : IndexName) (state : IndexState) (db : VectorDb) :
    execAll (buildCreateIndexSql name state.keywordSearch ++ [.registryUpsert name state]) db =
      (true, ⟨db.registry.insert name state, createIn db.vectors name,
        if state.keywordSearch then createIn db.fts name else db.fts, createIn db.metas name⟩) := by
  cases hkeyword : state.keywordSearch <;> rfl

theorem execAll_deleteIndex (name : IndexName) (keywordSearch : Bool) (db : VectorDb) :
    execAll (buildDeleteIndexSql name keywordSearch ++ [.registryDelete name]) db =
      (true, ⟨db.registry.erase name, db.vectors.erase name,
        if keywordSearch then db.fts.erase name else db.fts, db.metas.erase name⟩) := by
  cases keywordSearch <;> rfl

theorem remembers_insert (hmemory : Remembers s) (name : IndexName) (state : IndexState)
    (db' : VectorDb) (hdb : db'.registry = s.db.registry.insert name state) :
    Remembers ⟨db', s.indexes.insert name state⟩ := by
  intro other state' hother
  change db'.registry.lookup other = _
  rw [hdb]
  by_cases heq : other = name
  · subst heq
    rw [AList.lookup_insert] at hother ⊢
    exact hother
  · rw [AList.lookup_insert_ne heq] at hother ⊢
    exact hmemory other state' hother

theorem AgreesAt.of_lookups {name : IndexName} {db db' : VectorDb} {keep : Option (Kept Json)}
    (h : AgreesAt host keep db name)
    (hregistry : db'.registry.lookup name = db.registry.lookup name)
    (hvectors : db'.vectors.lookup name = db.vectors.lookup name)
    (hfts : db'.fts.lookup name = db.fts.lookup name)
    (hmetas : db'.metas.lookup name = db.metas.lookup name) : AgreesAt host keep db' name where
  registry := hregistry.trans h.registry
  vectors := hvectors ▸ h.vectors
  fts := hfts ▸ h.fts
  metas := hmetas ▸ h.metas

theorem lookup_createIn_of_some {Row : Type} {tables : AList fun _ : IndexName => List Row}
    {rows : List Row} (h : tables.lookup index = some rows) (name : IndexName) :
    (createIn tables index).lookup name = tables.lookup name := by
  rw [lookup_createIn]
  split
  · rename_i hname
    rw [hname, h, Option.getD_some]
  · rfl

/-- A new index is empty, and one that is created again stays as it is. -/
theorem createIndex_agrees (h : Agrees host stored s.db) (hmemory : Remembers s)
    (config : VectorIndexConfig) :
    Agrees host (stored.after (.createIndex config)) (createIndex config s).2.db ∧
      Remembers (createIndex config s).2 := by
  cases hparse : IndexName.parse config.name with
  | none =>
    simp only [createIndex, Stored.after, hparse]
    exact ⟨h, hmemory⟩
  | some name =>
    simp only [createIndex, Stored.after, hparse]
    rw [(h name).registry]
    have hcreate := execAll_create name config.state s.db
    cases hstored : stored name with
    | none =>
      have hnoConflict : ¬ classifyRegistryConflict (none : Option IndexState) config.state =
          .mismatch := by
        simp [classifyRegistryConflict]
      simp only [Option.map_none]
      rw [if_neg hnoConflict, show config.keywordSearch = config.state.keywordSearch from rfl,
        exec_of_execAll hcreate, afterwards_ok]
      refine ⟨(agrees_update h ?_ _).mpr ?_, remembers_insert hmemory name config.state _ rfl⟩
      · refine ⟨fun other hother => AList.lookup_insert_ne hother, fun other hother => ?_,
          fun other hother => ?_, fun other hother => ?_⟩
        · exact (lookup_createIn _ _ _).trans (if_neg hother)
        · dsimp only
          split
          · exact (lookup_createIn _ _ _).trans (if_neg hother)
          · rfl
        · exact (lookup_createIn _ _ _).trans (if_neg hother)
      · have hat := h name
        rw [hstored] at hat
        have hnew : ∀ {Row : Type} {tables : AList fun _ : IndexName => List Row}
            (key : Row → String) (row : IndexState → VectorEntry Json → Row),
            tables.lookup name = none →
            TableAgrees key row (some (.empty config.state)) ((createIn tables name).lookup name) := by
          intro Row tables key row hnone
          rw [lookup_createIn, if_pos rfl, hnone]
          exact fun _ => rfl
        refine ⟨AList.lookup_insert _, hnew _ _ (tableAgrees_none hat.vectors), ?_,
          hnew _ _ (tableAgrees_none hat.metas)⟩
        dsimp only
        cases hkeyword : config.state.keywordSearch with
        | true =>
          rw [filter_some_of_keyword _ hkeyword, if_pos rfl]
          exact hnew _ _ (tableAgrees_none hat.fts)
        | false =>
          rw [filter_none_of_keyword _ hkeyword, if_neg Bool.false_ne_true]
          exact hat.fts
    | some kept =>
      simp only [Option.map_some]
      by_cases hsame : classifyRegistryConflict (some kept.state) config.state = .mismatch
      · rw [if_pos hsame]
        exact ⟨h, hmemory⟩
      have hstate : kept.state = config.state := by
        by_contra hne
        exact hsame (by simp [classifyRegistryConflict, hne])
      rw [if_neg hsame, show config.keywordSearch = config.state.keywordSearch from rfl,
        exec_of_execAll hcreate, afterwards_ok]
      refine ⟨fun other => ?_, remembers_insert hmemory name config.state _ rfl⟩
      have hat := h name
      rw [hstored] at hat
      obtain ⟨rows, hrows, -⟩ := tableAgrees_some hat.vectors
      obtain ⟨metas, hmetas, -⟩ := tableAgrees_some hat.metas
      refine (h other).of_lookups ?_ (lookup_createIn_of_some hrows other) ?_
        (lookup_createIn_of_some hmetas other)
      · by_cases hother : other = name
        · subst hother
          exact (AList.lookup_insert _).trans
            (hstate ▸ hat.registry.symm)
        · exact AList.lookup_insert_ne hother
      · dsimp only
        split
        · rename_i hkeyword
          have hfts := hat.fts
          rw [filter_some_of_keyword _ (hstate ▸ hkeyword)] at hfts
          obtain ⟨found, hfound, -⟩ := tableAgrees_some hfts
          exact lookup_createIn_of_some hfound other
        · rfl

/-- An index that is deleted has no tables. -/
theorem deleteIndex_agrees (h : Agrees host stored s.db) (hmemory : Remembers s) (name : String) :
    Agrees host (stored.after (.deleteIndex name)) (deleteIndex name s).2.db ∧
      Remembers (deleteIndex name s).2 := by
  simp only [deleteIndex, Stored.after]
  rcases withIndex_cases h hmemory name _ with
    ⟨hsame, e, s', heq, hdb, hmemory'⟩ | ⟨index, kept, s', -, hstored, hmodify, heq, hdb, hmemory'⟩
  · rw [heq, hsame, hdb]
    exact ⟨h, hmemory'⟩
  rw [heq, hmodify, exec_of_execAll (execAll_deleteIndex index kept.state.keywordSearch s'.db),
    afterwards_ok, hdb]
  have hat := h index
  rw [hstored] at hat
  refine ⟨(agrees_update h ⟨?_, ?_, ?_, ?_⟩ none).mpr ⟨?_, ?_, ?_, ?_⟩, ?_⟩
  · exact fun other hother => AList.lookup_erase_ne hother
  · exact fun other hother => AList.lookup_erase_ne hother
  · intro other hother
    dsimp only
    split
    · exact AList.lookup_erase_ne hother
    · rfl
  · exact fun other hother => AList.lookup_erase_ne hother
  · exact AList.lookup_erase _ _
  · dsimp only
    rw [AList.lookup_erase]
    trivial
  · dsimp only
    split
    · rw [AList.lookup_erase]
      trivial
    · rename_i hkeyword
      have hfts := hat.fts
      rw [filter_none_of_keyword _ (Bool.eq_false_iff.mpr hkeyword)] at hfts
      rw [tableAgrees_none hfts]
      trivial
  · dsimp only
    rw [AList.lookup_erase]
    trivial
  · intro other state hother
    by_cases heq : other = index
    · subst heq
      rw [AList.lookup_erase] at hother
      cases hother
    · rw [AList.lookup_erase_ne heq] at hother
      have hregistry := hmemory' other state hother
      rw [hdb] at hregistry
      exact (AList.lookup_erase_ne heq).trans hregistry

theorem prepareEntry_of_takes {e : VectorEntry Json} (h : kept.Takes e) :
    prepareEntry host kept.state e = .ok (sqlEntry host e) := by
  unfold prepareEntry
  rw [if_neg (not_not.mpr h.1), if_neg fun hboth => h.2 hboth.1 hboth.2]
  rfl

theorem prepareEntry_of_not_takes (host : Host Json) {e : VectorEntry Json} (h : ¬ kept.Takes e) :
    ∃ error, prepareEntry host kept.state e = .error error := by
  unfold prepareEntry
  split
  · exact ⟨_, rfl⟩
  · rename_i hdimensions
    rw [if_pos]
    · exact ⟨_, rfl⟩
    · by_contra hnot
      exact h ⟨not_not.mp hdimensions, fun hkeyword htext => hnot ⟨hkeyword, htext⟩⟩

/-- A batch is taken as a whole or not at all. -/
theorem mapM_prepareEntry (host : Host Json) (kept : Kept Json) (entries : List (VectorEntry Json)) :
    ((∀ e ∈ entries, kept.Takes e) ∧
        entries.mapM (prepareEntry host kept.state) = .ok (entries.map (sqlEntry host))) ∨
      (¬ ∀ e ∈ entries, kept.Takes e) ∧
        ∃ error, entries.mapM (prepareEntry host kept.state) = .error error := by
  induction entries with
  | nil => exact .inl ⟨fun _ h => absurd h List.not_mem_nil, rfl⟩
  | cons e entries ih =>
    rw [List.mapM_cons]
    by_cases htakes : kept.Takes e
    · rw [prepareEntry_of_takes htakes]
      rcases ih with ⟨hall, heq⟩ | ⟨hnot, error, heq⟩
      · rw [heq]
        exact .inl ⟨List.forall_mem_cons.mpr ⟨htakes, hall⟩, rfl⟩
      · rw [heq]
        exact .inr ⟨fun h => hnot (List.forall_mem_cons.mp h).2, error, rfl⟩
    · obtain ⟨error, heq⟩ := prepareEntry_of_not_takes host htakes
      rw [heq]
      exact .inr ⟨fun h => htakes (List.forall_mem_cons.mp h).1, error, rfl⟩

theorem remembers_of_db {s' : BrowserVectorService} (hmemory : Remembers s') {db : VectorDb}
    (hregistry : db.registry = s'.db.registry) : Remembers { s' with db } := by
  intro name state hname
  exact (congrArg (AList.lookup name) hregistry).trans (hmemory name state hname)

/-- After a batch the tables hold the entries if and only if none was written over in the table for
full-text search. -/
theorem upsert_agrees (h : Agrees host stored s.db) (hmemory : Remembers s) (name : String)
    (entries : List (VectorEntry Json)) :
    (Agrees host (stored.after (.upsert name entries)) (upsert host name entries s).2.db ↔
        Fresh stored (.upsert name entries)) ∧ Remembers (upsert host name entries s).2 := by
  simp only [upsert, Stored.after]
  rcases withIndex_cases h hmemory name _ with
    ⟨hsame, e, s', heq, hdb, hmemory'⟩ |
      ⟨index, kept, s', hparse, hstored, hmodify, heq, hdb, hmemory'⟩
  · rw [heq, hsame, hdb]
    refine ⟨iff_of_true h fun index kept hparse hstored => ?_, hmemory'⟩
    -- the request was refused because there is no such index
    have hmodify := hsame fun _ => none
    simp only [Stored.modify, hparse, hstored] at hmodify
    have hgone := congrFun hmodify index
    rw [Function.update_self, hstored] at hgone
    cases hgone
  rw [heq, hmodify]
  have hfresh : Fresh stored (.upsert name entries) ↔ (kept.state.keywordSearch = true →
      (∀ e ∈ entries, kept.Takes e) →
      (entries.map VectorEntry.id).Nodup ∧ ∀ e ∈ entries, kept.entries e.id = none) := by
    refine ⟨fun hfresh => hfresh index kept hparse hstored, fun hfresh index' kept' hparse' hstored' => ?_⟩
    cases hparse.symm.trans hparse'
    cases hstored.symm.trans hstored'
    exact hfresh
  rw [hfresh]
  rcases mapM_prepareEntry host kept entries with
    ⟨hall, hprepared⟩ | ⟨hnot, error, hprepared⟩
  · rw [hprepared, if_pos hall]
    have hat := h index
    rw [hstored] at hat
    obtain ⟨hvectorsTable, hftsTable, hmetasTable⟩ := hat.present
    obtain ⟨db', hexec, hwrote⟩ := exec_batch host kept.state entries (ne_none_of_eq_some hvectorsTable)
      (fun hkeyword => ne_none_of_eq_some (hftsTable hkeyword)) (ne_none_of_eq_some hmetasTable)
    rw [← hdb] at hexec
    dsimp only
    rw [exec_of_execAll hexec, agrees_update h hwrote.elsewhere]
    refine ⟨?_, remembers_of_db hmemory' (hwrote.registry.trans (congrArg _ hdb.symm))⟩
    obtain ⟨rows, hrows, hvectors⟩ := hvectorsTable
    obtain ⟨metas, hmetas, hmetasHold⟩ := hmetasTable
    have hstate : (entries.foldl Kept.put kept).state = kept.state := foldl_put_state entries kept
    have hvectors' : TableAgrees VectorsRow.id (vectorsRow host)
        (some (entries.foldl Kept.put kept)) (db'.vectors.lookup index) := by
      rw [hwrote.vectors, if_pos rfl, hrows]
      change RowsHold VectorsRow.id (vectorsRow host (entries.foldl Kept.put kept).state) _ _
      rw [hstate]
      exact hvectors.foldl_replaceRow (fun _ => rfl) entries
    have hmetas' : TableAgrees MetaRow.id (metaRow host)
        (some (entries.foldl Kept.put kept)) (db'.metas.lookup index) := by
      rw [hwrote.metas, if_pos rfl, hmetas]
      change RowsHold MetaRow.id (metaRow host (entries.foldl Kept.put kept).state) _ _
      rw [hstate]
      exact hmetasHold.foldl_replaceRow (fun _ => rfl) entries
    have hregistry' : db'.registry.lookup index =
        (some (entries.foldl Kept.put kept)).map Kept.state := by
      rw [hwrote.registry, hat.registry, Option.map_some, Option.map_some, hstate]
    cases hkeyword : kept.state.keywordSearch with
    | true =>
      obtain ⟨found, hfound, hfts⟩ := hftsTable hkeyword
      have hlookup : db'.fts.lookup index = some (found ++ entries.map ftsRow) := by
        rw [hwrote.fts, if_pos ⟨rfl, hkeyword⟩, hfound]
        rfl
      constructor
      · intro hagrees _ _
        have hfts' := hagrees.fts
        rw [filter_some_of_keyword _ (hstate ▸ hkeyword), hlookup] at hfts'
        exact fresh_of_append_map hfts (fun _ => rfl) hfts'
      · intro hnew
        obtain ⟨hnodup, hnone⟩ := hnew rfl hall
        refine ⟨hregistry', hvectors', ?_, hmetas'⟩
        rw [filter_some_of_keyword _ (hstate ▸ hkeyword), hlookup]
        exact hfts.append_map (fun _ => rfl) hnodup hnone
    | false =>
      refine iff_of_true ⟨hregistry', hvectors', ?_, hmetas'⟩ fun h => absurd h Bool.false_ne_true
      have hfts := hat.fts
      rw [filter_none_of_keyword _ hkeyword] at hfts
      rw [filter_none_of_keyword _ (hstate ▸ hkeyword), hwrote.fts,
        if_neg fun hboth => Bool.false_ne_true (hkeyword.symm.trans hboth.2)]
      exact hfts
  · rw [hprepared, if_neg hnot]
    refine ⟨iff_of_true ?_ fun _ hall => absurd hall hnot, hmemory'⟩
    rw [← hstored, Function.update_eq_self]
    exact hdb ▸ h

/-- Entries that are deleted have no row. -/
theorem delete_agrees (h : Agrees host stored s.db) (hmemory : Remembers s) (name : String)
    (ids : List String) :
    Agrees host (stored.after (.delete name ids)) (delete name ids s).2.db ∧
      Remembers (delete name ids s).2 := by
  simp only [delete, Stored.after]
  rcases withIndex_cases h hmemory name _ with
    ⟨hsame, e, s', heq, hdb, hmemory'⟩ |
      ⟨index, kept, s', hparse, hstored, hmodify, heq, hdb, hmemory'⟩
  · rw [heq, hsame, hdb]
    exact ⟨h, hmemory'⟩
  rw [heq, hmodify]
  have hat := h index
  rw [hstored] at hat
  split
  · rename_i hempty
    have hkept : kept.remove ids = kept := by
      rw [List.isEmpty_iff.mp hempty]
      simp [Kept.remove]
    rw [hkept, ← hstored, Function.update_eq_self]
    exact ⟨hdb ▸ h, hmemory'⟩
  rename_i hsome
  obtain ⟨hvectorsTable, hftsTable, hmetasTable⟩ := hat.present
  obtain ⟨db', hexec, hdeleted⟩ := exec_delete kept.state
    (Bool.eq_false_iff.mpr hsome) (ne_none_of_eq_some hvectorsTable)
    (fun hkeyword => ne_none_of_eq_some (hftsTable hkeyword)) (ne_none_of_eq_some hmetasTable)
  rw [← hdb] at hexec
  rw [exec_of_execAll hexec, agrees_update h hdeleted.elsewhere]
  refine ⟨?_, remembers_of_db hmemory' (hdeleted.registry.trans (congrArg _ hdb.symm))⟩
  obtain ⟨rows, hrows, hvectors⟩ := hvectorsTable
  obtain ⟨metas, hmetas, hmetasHold⟩ := hmetasTable
  refine ⟨?_, ?_, ?_, ?_⟩
  · rw [hdeleted.registry]
    exact hat.registry
  · rw [hdeleted.vectors, if_pos rfl, hrows]
    exact hvectors.deleteRows ids
  · cases hkeyword : kept.state.keywordSearch with
    | true =>
      obtain ⟨found, hfound, hfts⟩ := hftsTable hkeyword
      rw [filter_some_of_keyword (kept.remove ids) hkeyword, hdeleted.fts,
        if_pos ⟨rfl, hkeyword⟩, hfound]
      exact hfts.deleteRows ids
    | false =>
      have hfts := hat.fts
      rw [filter_none_of_keyword _ hkeyword] at hfts
      rw [filter_none_of_keyword (kept.remove ids) hkeyword, hdeleted.fts,
        if_neg fun hboth => Bool.false_ne_true (hkeyword.symm.trans hboth.2)]
      exact hfts
  · rw [hdeleted.metas, if_pos rfl, hmetas]
    exact hmetasHold.deleteRows ids

/-- A request that only reads leaves the tables alone. -/
theorem withIndex_reads {α : Type} (h : Agrees host stored s.db) (hmemory : Remembers s)
    (name : String)
    {f : IndexName → IndexState → BrowserVectorService →
      Except VectorError α × BrowserVectorService}
    (hf : ∀ index state s, (f index state s).2 = s) :
    (withIndex name s f).2.db = s.db ∧ Remembers (withIndex name s f).2 := by
  rcases withIndex_cases h hmemory name f with
    ⟨-, e, s', heq, hdb, hmemory'⟩ | ⟨index, kept, s', -, -, -, heq, hdb, hmemory'⟩
  · rw [heq]
    exact ⟨hdb, hmemory'⟩
  · rw [heq, hf]
    exact ⟨hdb, hmemory'⟩

theorem query_reads (h : Agrees host stored s.db) (hmemory : Remembers s) (name : String)
    (request : QueryRequest Json) :
    (query host name request s).2.db = s.db ∧ Remembers (query host name request s).2 := by
  refine withIndex_reads h hmemory name fun index state s => ?_
  cases queryError state request with
  | some e => rfl
  | none => cases search host s.db index state request <;> rfl

theorem listIds_reads (h : Agrees host stored s.db) (hmemory : Remembers s) (name : String)
    (filter : MetadataFilter Json) :
    (listIds host name filter s).2.db = s.db ∧ Remembers (listIds host name filter s).2 := by
  unfold listIds
  split
  · exact ⟨rfl, hmemory⟩
  · refine withIndex_reads h hmemory name fun index state s => ?_
    cases s.db.metas.lookup index <;> rfl

theorem count_reads (h : Agrees host stored s.db) (hmemory : Remembers s) (name : String) :
    (count name s).2.db = s.db ∧ Remembers (count name s).2 := by
  refine withIndex_reads h hmemory name fun index state s => ?_
  cases s.db.metas.lookup index <;> rfl

theorem answered_snd {α : Type} (reply : α → VectorAnswer Json)
    (result : Except VectorError α × BrowserVectorService) :
    (answered reply result).2 = result.2 := by
  obtain ⟨outcome, s⟩ := result
  cases outcome <;> rfl

/-- What one request makes of tables that hold what is stored. -/
theorem serve_agrees (h : Agrees host stored s.db) (hmemory : Remembers s) (op : VectorOp Json) :
    (Agrees host (stored.after op) (serve host op s).2.db ↔ Fresh stored op) ∧
      Remembers (serve host op s).2 := by
  cases op with
  | createIndex config =>
    rw [serve, answered_snd]
    exact ⟨iff_of_true (createIndex_agrees h hmemory config).1 trivial,
      (createIndex_agrees h hmemory config).2⟩
  | deleteIndex name =>
    rw [serve, answered_snd]
    exact ⟨iff_of_true (deleteIndex_agrees h hmemory name).1 trivial,
      (deleteIndex_agrees h hmemory name).2⟩
  | upsert name entries =>
    rw [serve, answered_snd]
    exact upsert_agrees h hmemory name entries
  | delete name ids =>
    rw [serve, answered_snd]
    exact ⟨iff_of_true (delete_agrees h hmemory name ids).1 trivial,
      (delete_agrees h hmemory name ids).2⟩
  | query name request =>
    rw [serve, answered_snd]
    obtain ⟨hdb, hmemory'⟩ := query_reads h hmemory name request
    exact ⟨iff_of_true (hdb ▸ h) trivial, hmemory'⟩
  | listIds name filter =>
    rw [serve, answered_snd]
    obtain ⟨hdb, hmemory'⟩ := listIds_reads h hmemory name filter
    exact ⟨iff_of_true (hdb ▸ h) trivial, hmemory'⟩
  | count name =>
    rw [serve, answered_snd]
    obtain ⟨hdb, hmemory'⟩ := count_reads h hmemory name
    exact ⟨iff_of_true (hdb ▸ h) trivial, hmemory'⟩
  | restart => exact ⟨iff_of_true h trivial, nofun⟩

end Requests

/-! ## Runs -/

section Coherence

variable {host : Host Json} {stored : Stored Json} {s : BrowserVectorService}

/-- A keyword search finds an id once at most, and only through the text of its entry. -/
theorem Agrees.found (h : Agrees host stored s.db) {index : IndexName} {kept : Kept Json}
    {query : String} {limit : ℕ} {ids : List String} (hstored : stored index = some kept)
    (hkeyword : kept.state.keywordSearch = true)
    (hids : ftsSearch host s.db index query limit = some ids) :
    ids.Nodup ∧
      ∀ id ∈ ids, ∃ e, kept.entries id = some e ∧ host.finds query (e.text.getD "") = true := by
  have hat := h index
  rw [hstored] at hat
  obtain ⟨rows, hrows, hfts⟩ := hat.present.2.1 hkeyword
  simp only [ftsSearch, hrows, Option.bind_eq_bind, Option.bind_some, Option.bind_eq_some_iff,
    Option.pure_def, Option.some.injEq] at hids
  obtain ⟨found, hfound, rfl⟩ := hids
  have hperm := host.search_perm query rows found hfound
  constructor
  · have hnodup : (found.map FtsRow.id).Nodup :=
      (hperm.map FtsRow.id).nodup_iff.mpr (hfts.nodup.sublist (List.filter_sublist.map FtsRow.id))
    exact hnodup.sublist ((List.take_sublist limit found).map FtsRow.id)
  · intro id hid
    obtain ⟨row, hrow, rfl⟩ := List.mem_map.mp hid
    obtain ⟨hmem, hfinds⟩ := List.mem_filter.mp (hperm.mem_iff.mp (List.mem_of_mem_take hrow))
    -- the row is that of the entry
    have hown : row ∈ rows.filter fun stored => stored.id = row.id :=
      List.mem_filter.mpr ⟨hmem, decide_eq_true rfl⟩
    rw [hfts row.id] at hown
    obtain ⟨e, he, heq⟩ := List.mem_map.mp hown
    rw [Option.mem_toList] at he
    cases heq
    exact ⟨e, he, hfinds⟩

/-- A request about an index is answered by its configuration and the tables. -/
theorem withIndex_restarted {α : Type} (hmemory : Remembers s) (name : String)
    {f : IndexName → IndexState → BrowserVectorService →
      Except VectorError α × BrowserVectorService}
    (hf : ∀ index state s s', s.db = s'.db → (f index state s).1 = (f index state s').1) :
    (withIndex name s.restarted f).1 = (withIndex name s f).1 := by
  unfold withIndex
  cases IndexName.parse name with
  | none => rfl
  | some index =>
    have hempty : Remembers s.restarted := nofun
    obtain ⟨hfound, hdb, -⟩ := lookup_spec hmemory index
    obtain ⟨hfound', hdb', -⟩ := lookup_spec hempty index
    dsimp only
    generalize BrowserVectorService.lookup index s = known at hfound hdb
    generalize BrowserVectorService.lookup index s.restarted = read at hfound' hdb'
    obtain ⟨state, s₁⟩ := known
    obtain ⟨state', s₂⟩ := read
    cases hfound.trans hfound'.symm
    cases state with
    | none => rfl
    | some state => exact hf index state s₂ s₁ (hdb'.trans hdb.symm)

theorem exec_restarted (statements : List Statement) {s s' : BrowserVectorService}
    (h : s.db = s'.db) :
    (BrowserVectorService.exec statements s).1 = (BrowserVectorService.exec statements s').1 := by
  unfold BrowserVectorService.exec
  rw [h]
  obtain ⟨done, db⟩ := execAll statements s'.db
  cases done <;> rfl

theorem fst_afterwards (result : Except VectorError Unit × BrowserVectorService)
    (f : BrowserVectorService → BrowserVectorService) : (afterwards result f).1 = result.1 := by
  obtain ⟨outcome, s⟩ := result
  cases outcome <;> rfl

theorem createIndex_restarted (config : VectorIndexConfig) {s s' : BrowserVectorService}
    (h : s.db = s'.db) : (createIndex config s).1 = (createIndex config s').1 := by
  unfold createIndex
  cases IndexName.parse config.name with
  | none => rfl
  | some name =>
    dsimp only
    rw [h]
    by_cases hconflict :
        classifyRegistryConflict (s'.db.registry.lookup name) config.state = .mismatch
    · rw [if_pos hconflict, if_pos hconflict]
    · rw [if_neg hconflict, if_neg hconflict, fst_afterwards, fst_afterwards]
      exact exec_restarted _ h

theorem answered_restarted {α : Type} (reply : α → VectorAnswer Json)
    {result result' : Except VectorError α × BrowserVectorService} (h : result.1 = result'.1) :
    (answered reply result).1 = (answered reply result').1 := by
  obtain ⟨outcome, s⟩ := result
  obtain ⟨outcome', s'⟩ := result'
  cases h
  cases outcome <;> rfl

/-- A restart changes no answer. -/
theorem serve_restarted (hmemory : Remembers s) (op : VectorOp Json) :
    (serve host op s.restarted).1 = (serve host op s).1 := by
  cases op with
  | createIndex config =>
    exact answered_restarted _ (createIndex_restarted config rfl)
  | deleteIndex name =>
    refine answered_restarted _ (withIndex_restarted hmemory name fun index state s s' h => ?_)
    rw [fst_afterwards, fst_afterwards]
    exact exec_restarted _ h
  | upsert name entries =>
    refine answered_restarted _ (withIndex_restarted hmemory name fun index state s s' h => ?_)
    cases entries.mapM (prepareEntry host state) with
    | error e => rfl
    | ok prepared => exact exec_restarted _ h
  | delete name ids =>
    refine answered_restarted _ (withIndex_restarted hmemory name fun index state s s' h => ?_)
    split
    · rfl
    · exact exec_restarted _ h
  | query name request =>
    refine answered_restarted _ (withIndex_restarted hmemory name fun index state s s' h => ?_)
    cases queryError state request with
    | some e => rfl
    | none =>
      dsimp only
      rw [h]
      cases search host s'.db index state request <;> rfl
  | listIds name filter =>
    refine answered_restarted _ ?_
    unfold listIds
    split
    · rfl
    · refine withIndex_restarted hmemory name fun index state s s' h => ?_
      rw [h]
      cases s'.db.metas.lookup index <;> rfl
  | count name =>
    refine answered_restarted _ (withIndex_restarted hmemory name fun index state s s' h => ?_)
    rw [h]
    cases s'.db.metas.lookup index <;> rfl
  | restart => rfl

theorem Agrees.coherent (h : Agrees host stored s.db) (hmemory : Remembers s) :
    Coherent host stored s where
  agrees := h
  found := fun _ _ _ _ _ hstored hkeyword hids => h.found hstored hkeyword hids
  restart := serve_restarted hmemory

end Coherence

theorem agrees_new (host : Host Json) :
    Agrees host (fun _ => none) BrowserVectorService.new.db := fun _ =>
  ⟨rfl, trivial, trivial, trivial⟩

theorem serveAll_concat (host : Host Json) (ops : List (VectorOp Json)) (op : VectorOp Json) :
    serveAll host (ops ++ [op]) = (serve host op (serveAll host ops)).2 :=
  List.foldl_concat ..

theorem afterAll_concat (ops : List (VectorOp Json)) (op : VectorOp Json) :
    Stored.afterAll (ops ++ [op]) = (Stored.afterAll ops).after op :=
  List.foldl_concat ..

/-- Whatever was written over, what is kept in memory is what the registry says. -/
theorem remembers_of_coherent (host : Host Json) {ops : List (VectorOp Json)}
    (h : ∀ past rest, ops = past ++ rest →
      Agrees host (Stored.afterAll past) (serveAll host past).db) :
    Remembers (serveAll host ops) := by
  induction ops using List.reverseRec with
  | nil => exact nofun
  | append_singleton ops op ih =>
    have hbefore : ∀ past rest, ops = past ++ rest →
        Agrees host (Stored.afterAll past) (serveAll host past).db := fun past rest hops =>
      h past (rest ++ [op]) (by rw [hops, List.append_assoc])
    rw [serveAll_concat]
    exact (serve_agrees (hbefore ops [] (List.append_nil ops).symm) (ih hbefore) op).2

/-- The tables are coherent throughout a run if and only if no request of it writes over an entry
with keyword search. -/
theorem coherent_exactly (host : Host Json) (ops : List (VectorOp Json)) :
    (∀ past rest, ops = past ++ rest → Coherent host (Stored.afterAll past) (serveAll host past)) ↔
      ∀ past op rest, ops = past ++ op :: rest → Fresh (Stored.afterAll past) op := by
  constructor
  · intro hcoherent past op rest hops
    have hnow := (hcoherent past (op :: rest) hops).agrees
    have hnext := (hcoherent (past ++ [op]) rest (by simp [hops])).agrees
    have hmemory : Remembers (serveAll host past) := remembers_of_coherent host
      fun before after hpast => (hcoherent before (after ++ op :: rest) (by
        rw [hops, hpast, List.append_assoc])).agrees
    rw [afterAll_concat, serveAll_concat] at hnext
    exact (serve_agrees hnow hmemory op).1.mp hnext
  · intro hfresh past
    suffices hboth : ∀ rest, ops = past ++ rest →
        Agrees host (Stored.afterAll past) (serveAll host past).db ∧
          Remembers (serveAll host past) from
      fun rest hops => (hboth rest hops).1.coherent (hboth rest hops).2
    induction past using List.reverseRec with
    | nil => exact fun _ _ => ⟨agrees_new host, nofun⟩
    | append_singleton past op ih =>
      intro rest hops
      rw [List.append_assoc, List.singleton_append] at hops
      obtain ⟨hagrees, hmemory⟩ := ih (op :: rest) hops
      have hstep := serve_agrees hagrees hmemory op
      rw [afterAll_concat, serveAll_concat]
      exact ⟨hstep.1.mpr (hfresh past op rest hops), hstep.2⟩

/-! ## An entry that is written over -/

/-- A host without metadata and scores, on which a query finds the texts that are equal to it. -/
def plainHost : Host Unit where
  print := fun _ => "null"
  parse := fun _ => some ()
  isStringOrNumber := fun _ => false
  satisfies := fun _ _ => true
  finds := fun query text => query = text
  search := fun query rows => some (rows.filter fun row => query = row.text)
  search_perm := fun _ _ _ h => by
    cases h
    exact List.Perm.refl _
  topK := fun _ _ _ _ => []
  fuseScored := fun _ _ => []
  keywordScore := fun _ => 0

/-- An entry whose text is edited is still found through its old text. -/
theorem not_always_coherent : ¬ ∀ (host : Host Unit) (ops : List (VectorOp Unit)),
    Coherent host (Stored.afterAll ops) (serveAll host ops) := by
  intro h
  let ops : List (VectorOp Unit) := [.createIndex ⟨"docs", 0, .cosine, true⟩,
    .upsert "docs" [⟨"a", [], none, some "old"⟩], .upsert "docs" [⟨"a", [], none, some "new"⟩]]
  have hdocs : isPlainIdent "docs" = true := by decide
  obtain ⟨-, hfound⟩ := (h plainHost ops).found ⟨"docs", hdocs⟩ _ "old" 10 ["a"] rfl rfl rfl
  obtain ⟨e, he, hfinds⟩ := hfound "a" List.mem_cons_self
  cases he
  exact absurd hfinds (by decide)

end Vectors
