import Impresspress.Concurrent.Fallible
import Impresspress.Relational.Table
import Mathlib.Data.List.Sort

/-!
# Stored files and shared links

An object is a row and a blob. The row says who is charged, whether the upload is over, which
reservation wrote it last and where the bytes are. A share is a row that a public link names. Every
call on either may fail, and then changes nothing; a `put` that fails may have written something,
and may still be on its way.

Source: `blocks/files/repo/{objects,shares}.rs`, with migrations 001 to 005.

## Main definitions

* `Files.ObjectRow`, `Files.ShareRecord`: the rows.
* `Files.claimBlobKey`: where a reservation stores its bytes.
* `Files.FileCall`, `Files.perform`: the calls, and what they do.
-/

namespace Files

open Concurrent Relational

/-! ## Objects -/

abbrev Content := List UInt8

/-- `str::rsplit_once`. -/
def rsplitOnce (delimiter : Char) : List Char → Option (List Char × List Char)
  | [] => none
  | c :: rest =>
    match rsplitOnce delimiter rest with
    | some (before, after) => some (c :: before, after)
    | none => if c = delimiter then some ([], rest) else none

/-- `claim_blob_key`: the object's key with the claim in front of its last segment. -/
def claimBlobKey (key claimId : String) : String :=
  match rsplitOnce '/' key.toList with
  | some (dir, name) => String.ofList (dir ++ '/' :: (claimId.toList ++ '~' :: name))
  | none => String.ofList (claimId.toList ++ '~' :: key.toList)

/-- `stored_blob_key`: a row from before migration 005 has its bytes at the object's key. -/
def storedBlobKey (key : String) (blobKey : Option String) : String := blobKey.getD key

inductive ObjectStatus where
  | pending
  | complete
  deriving DecidableEq, Repr

/-- An object's row, with the columns that only writers read. -/
structure ObjectRow where
  id : ℕ
  bucket : String
  key : String
  size : ℤ
  contentType : String
  status : ObjectStatus
  uploadedBy : String
  uploadedAt : ℕ
  claimId : Option String
  blobKey : Option String
  deriving DecidableEq, Repr

/-- `id` is the primary key, and `(bucket, key)` is unique. -/
def objectSchema : Schema ObjectRow ℕ where
  key := ObjectRow.id
  clash a b := a.bucket == b.bucket && a.key == b.key

/-- `StoredRow::blobs`: every blob that the row may have caused to be stored. -/
def ObjectRow.blobs (row : ObjectRow) : List String :=
  let served := storedBlobKey row.key row.blobKey
  let own := if row.key = served then [served] else [served, row.key]
  match row.claimId with
  | some claimId =>
    let claimed := claimBlobKey row.key claimId
    if claimed ∈ own then own else own ++ [claimed]
  | none => own

/-- The columns that an update sets. -/
structure RowUpdate where
  size : Option ℤ := none
  contentType : Option String := none
  status : Option ObjectStatus := none
  uploadedBy : Option String := none
  uploadedAt : Option ℕ := none
  claimId : Option String := none
  blobKey : Option String := none
  deriving DecidableEq, Repr

def RowUpdate.apply (update : RowUpdate) (row : ObjectRow) : ObjectRow where
  id := row.id
  bucket := row.bucket
  key := row.key
  size := update.size.getD row.size
  contentType := update.contentType.getD row.contentType
  status := update.status.getD row.status
  uploadedBy := update.uploadedBy.getD row.uploadedBy
  uploadedAt := update.uploadedAt.getD row.uploadedAt
  claimId := update.claimId.or row.claimId
  blobKey := update.blobKey.or row.blobKey

/-- `still_claimed_by`: the row carries the claim that it was read with. -/
def stillClaimedBy (id : ℕ) (claimId : Option String) (row : ObjectRow) : Bool :=
  row.id == id && row.claimId == claimId

/-- Update the row if it meets a condition. -/
def RowUpdate.applyIf (update : RowUpdate) (p : ObjectRow → Bool) (row : ObjectRow) : ObjectRow :=
  if p row then update.apply row else row

theorem keeps_applyIf (update : RowUpdate) (p : ObjectRow → Bool) :
    objectSchema.Keeps (update.applyIf p) := by
  have hcolumns : ∀ row, (update.applyIf p row).id = row.id ∧
      (update.applyIf p row).bucket = row.bucket ∧ (update.applyIf p row).key = row.key := by
    intro row
    unfold RowUpdate.applyIf
    split <;> exact ⟨rfl, rfl, rfl⟩
  exact ⟨fun row => (hcolumns row).1, fun a b => by
    simp only [objectSchema, (hcolumns a).2, (hcolumns b).2]⟩

/-! ## Quotas -/

/-- `QuotaConfig`. A cap on files of 0 or less is no cap. -/
structure QuotaConfig where
  maxStorageBytes : ℤ
  maxFileSizeBytes : ℤ
  maxFilesPerBucket : ℤ
  deriving DecidableEq, Repr

/-- The rows that a cap is measured over: those of one user, perhaps in one bucket, perhaps without
the row that is replaced. -/
structure Owned where
  uploadedBy : String
  except : Option ℕ
  bucket : Option String
  deriving DecidableEq, Repr

def Owned.matches (owned : Owned) (row : ObjectRow) : Bool :=
  row.uploadedBy == owned.uploadedBy && owned.except.all (row.id != ·) &&
    owned.bucket.all (row.bucket == ·)

inductive CapGuard where
  | sumAtMost (owned : Owned) (add cap : ℤ)
  | countBelow (owned : Owned) (cap : ℤ)
  deriving DecidableEq, Repr

/-- The rows leave room for the write. -/
def CapGuard.holds (rows : List ObjectRow) : CapGuard → Bool
  | sumAtMost owned add cap => ((rows.filter owned.matches).map (·.size)).sum + add ≤ cap
  | countBelow owned cap => ((rows.filter owned.matches).length : ℤ) < cap

/-- The first guard that refuses the write. -/
def refusingGuard (rows : List ObjectRow) (guards : List CapGuard) : Option ℕ :=
  guards.findIdx? fun guard => !guard.holds rows

/-! ## Shares -/

/-- A share's row as it is stored. -/
structure ShareRecord where
  id : ℕ
  token : String
  bucket : String
  key : String
  createdBy : String
  expiresAt : Option String
  accessCount : ℤ
  maxAccessCount : Option ℤ
  deriving DecidableEq, Repr

/-- `id` is the primary key, and `token` is unique. -/
def shareSchema : Schema ShareRecord ℕ where
  key := ShareRecord.id
  clash a b := a.token == b.token

/-- A share as it is read: an empty expiry is none, and so is a cap that is not positive. -/
structure ShareRow where
  id : ℕ
  token : String
  bucket : String
  key : String
  createdBy : String
  expiresAt : Option String
  accessCount : ℤ
  maxAccessCount : Option ℤ
  deriving DecidableEq, Repr

/-- `ShareRow::from_record`. -/
def ShareRow.fromRecord (record : ShareRecord) : ShareRow where
  id := record.id
  token := record.token
  bucket := record.bucket
  key := record.key
  createdBy := record.createdBy
  expiresAt := record.expiresAt.filter (· ≠ "")
  accessCount := record.accessCount
  maxAccessCount := record.maxAccessCount.filter (0 < ·)

/-- The filters of `increment_access_count_capped`. -/
def ShareRecord.admits (id : ℕ) (max : ℤ) (record : ShareRecord) : Bool :=
  record.id == id && (!decide (0 < max) || decide (record.accessCount < max))

/-- One access more, where the filters match. -/
def ShareRecord.incrementIf (id : ℕ) (max : ℤ) (record : ShareRecord) : ShareRecord :=
  if record.admits id max then { record with accessCount := record.accessCount + 1 } else record

theorem keeps_incrementIf (id : ℕ) (max : ℤ) :
    shareSchema.Keeps (ShareRecord.incrementIf id max) := by
  have hcolumns : ∀ record : ShareRecord, (record.incrementIf id max).id = record.id ∧
      (record.incrementIf id max).token = record.token := by
    intro record
    unfold ShareRecord.incrementIf
    split <;> exact ⟨rfl, rfl⟩
  exact ⟨fun record => (hcolumns record).1, fun a b => by
    simp only [shareSchema, (hcolumns a).2, (hcolumns b).2]⟩

/-! ## Calls -/

/-- A `put` that is still on its way. -/
structure LatePut where
  bucket : String
  blobKey : String
  content : Content
  deriving DecidableEq, Repr

/-- What becomes of a `put`. -/
inductive PutFate where
  | lands
  | fails
  | late
  | torn (written : Content)
  deriving DecidableEq, Repr

/-- Claims and the ids of rows are drawn from one generator that never repeats. -/
structure FileStore where
  objects : Table objectSchema
  blobs : String → String → Option Content
  late : List LatePut
  shares : Table shareSchema
  quota : String → QuotaConfig
  clock : ℕ
  nextUuid : ℕ

/-- What a call meets: the time that has passed, whether it fails, what becomes of a `put`, which
late `put` arrives, and whether the caller has used up its rate. -/
structure FileChance where
  elapsed : ℕ
  fails : Bool
  put : PutFate
  arrives : ℕ
  limited : Bool
  deriving DecidableEq, Repr

inductive GuardedInsert where
  | inserted
  | refused (guard : ℕ)
  | alreadyExists
  deriving DecidableEq, Repr

inductive GuardedUpdate where
  | updated
  | refused (guard : ℕ)
  | noMatch
  deriving DecidableEq, Repr

inductive FileCall where
  | utcNow
  | uuid
  | getUserQuota (user : String)
  | findStored (bucket key : String)
  | insertGuarded (row : ObjectRow) (guards : List CapGuard)
  | updateGuarded (id : ℕ) (claimId : Option String) (update : RowUpdate) (guards : List CapGuard)
  | updateClaimed (id : ℕ) (claimId : Option String) (update : RowUpdate)
  | deleteClaimed (id : ℕ) (claimId : Option String) (status : Option ObjectStatus)
  | deleteForBucket (bucket : String)
  | listStalePending (user : String) (cutoff limit : ℕ)
  | put (bucket blobKey : String) (content : Content)
  | deleteBlob (bucket blobKey : String)
  | deleteFolder (bucket : String)
  | getStream (bucket blobKey : String)
  | arrive
  | checkRateLimit
  | findByToken (token : String)
  | findShare (id : ℕ)
  | deleteShare (id : ℕ)
  | incrementAccessCount (id : ℕ) (max : ℤ)
  | logAccess (id : ℕ)
  deriving DecidableEq, Repr

@[reducible] def FileReply : FileCall → Type
  | .utcNow | .uuid | .updateClaimed .. | .deleteClaimed .. => ℕ
  | .getUserQuota _ => QuotaConfig
  | .findStored .. => Option ObjectRow
  | .insertGuarded .. => GuardedInsert
  | .updateGuarded .. => GuardedUpdate
  | .listStalePending .. => List ObjectRow
  | .getStream .. => Option Content
  | .checkRateLimit | .deleteShare _ | .incrementAccessCount .. => Bool
  | .findByToken _ | .findShare _ => Option ShareRow
  | _ => Unit

/-- The clock and the generator are always there. -/
def FileCall.mayFail : FileCall → Bool
  | .utcNow | .uuid | .arrive => false
  | _ => true

/-- What storage holds at a key from now on. -/
def FileStore.setBlob (s : FileStore) (bucket blobKey : String) (content : Option Content) :
    FileStore where
  __ := s
  blobs := Function.update s.blobs bucket (Function.update (s.blobs bucket) blobKey content)

/-- The rows, those that meet a condition updated. -/
def FileStore.updateObjects (s : FileStore) (update : RowUpdate) (p : ObjectRow → Bool) :
    FileStore where
  __ := s
  objects := s.objects.adjust (update.applyIf p) (keeps_applyIf update p)

/-- The rows but those that meet a condition. -/
def FileStore.deleteObjects (s : FileStore) (p : ObjectRow → Bool) : FileStore :=
  { s with objects := ⟨s.objects.rows.filter fun row => !p row,
      s.objects.compatible.sublist List.filter_sublist⟩ }

/-- How the store answers a call that does not fail. -/
def answer (chance : FileChance) (c : FileCall) (s : FileStore) : FileReply c × FileStore :=
  match c with
  | .utcNow => (s.clock, s)
  | .uuid => (s.nextUuid, { s with nextUuid := s.nextUuid + 1 })
  | .getUserQuota user => (s.quota user, s)
  | .findStored bucket key =>
    (s.objects.rows.find? fun row => row.bucket == bucket && row.key == key, s)
  | .insertGuarded row guards =>
    match refusingGuard s.objects.rows guards with
    | some guard => (.refused guard, s)
    | none =>
      match s.objects.insert row with
      | some objects => (.inserted, { s with objects := objects })
      | none => (.alreadyExists, s)
  | .updateGuarded id claimId update guards =>
    match refusingGuard s.objects.rows guards with
    | some guard => (.refused guard, s)
    | none =>
      if s.objects.rows.any (stillClaimedBy id claimId) then
        (.updated, s.updateObjects update (stillClaimedBy id claimId))
      else (.noMatch, s)
  | .updateClaimed id claimId update =>
    (s.objects.rows.countP (stillClaimedBy id claimId),
      s.updateObjects update (stillClaimedBy id claimId))
  | .deleteClaimed id claimId status =>
    let deleted row := stillClaimedBy id claimId row && status.all (row.status == ·)
    (s.objects.rows.countP deleted, s.deleteObjects deleted)
  | .deleteForBucket bucket => ((), s.deleteObjects (·.bucket == bucket))
  | .listStalePending user cutoff limit =>
    ((((s.objects.rows.filter fun row => row.uploadedBy == user && row.status == .pending &&
      decide (row.uploadedAt < cutoff)).insertionSort
        fun a b => a.uploadedAt ≤ b.uploadedAt).take limit), s)
  | .put bucket blobKey content => ((), s.setBlob bucket blobKey (some content))
  | .deleteBlob bucket blobKey => ((), s.setBlob bucket blobKey none)
  | .deleteFolder bucket => ((), { s with blobs := Function.update s.blobs bucket fun _ => none })
  | .getStream bucket blobKey => (s.blobs bucket blobKey, s)
  | .arrive =>
    match s.late[chance.arrives]? with
    | some late => ((), { s.setBlob late.bucket late.blobKey (some late.content) with
        late := s.late.eraseIdx chance.arrives })
    | none => ((), s)
  | .checkRateLimit => (chance.limited, s)
  | .findByToken token =>
    ((s.shares.rows.find? fun record => record.token == token).map .fromRecord, s)
  | .findShare id => ((s.shares.get? id).map .fromRecord, s)
  | .deleteShare id => ((s.shares.get? id).isSome, { s with shares := s.shares.erase id })
  | .incrementAccessCount id max =>
    (s.shares.rows.any (·.admits id max),
      { s with shares := s.shares.adjust (.incrementIf id max) (keeps_incrementIf _ _) })
  | .logAccess _ => ((), s)

/-- What a `put` that fails leaves behind. -/
def failed (chance : FileChance) (c : FileCall) (s : FileStore) : FileStore :=
  match c, chance.put with
  | .put bucket blobKey content, .late => { s with late := s.late ++ [⟨bucket, blobKey, content⟩] }
  | .put bucket blobKey _, .torn written => s.setBlob bucket blobKey (some written)
  | _, _ => s

/-- A call that does not succeed. -/
def FileChance.refuses (chance : FileChance) (c : FileCall) : Bool :=
  match c with
  | .put .. => decide (chance.put ≠ .lands)
  | c => c.mayFail && chance.fails

/-- One call: it fails, or it does what it does. -/
def perform (chance : FileChance) (c : FileCall) (s : FileStore) :
    Outcome Unit FileReply c × FileStore :=
  let later := { s with clock := s.clock + chance.elapsed }
  if chance.refuses c then (.error (), failed chance c later)
  else (.ok (answer chance c later).1, (answer chance c later).2)

abbrev FileProgram := Program FileCall (Outcome Unit FileReply)

end Files
