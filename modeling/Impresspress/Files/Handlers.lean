import Impresspress.Files.Store

/-!
# The handlers of the files block

An upload claims its key with a row, within the caps of its user, then stores its bytes under a key
of its own, and then settles the row. A share link is opened by its token alone.

Source: `blocks/files/repo/objects.rs`, `blocks/files/storage/{objects,buckets}.rs`,
`blocks/files/quota.rs`, `blocks/files/{share,cloud}.rs`. The checks of names and of access to the
bucket come before and are left out.

## Main definitions

* `Files.reserveUpload`, `Files.markComplete`, `Files.releaseReservation`: a claim of a key.
* `Files.uploadObject`, `Files.deleteObject`, `Files.sweepStalePending`: objects.
* `Files.directAccess`, `Files.deleteShare`: share links.
* `Files.fileRun`: any number of requests, run along a schedule.
-/

namespace Files

open Concurrent

/-- What the handlers take from other crates: the text of a UUID, and the reading of a time. -/
structure FileServices where
  uuidText : ℕ → String
  parseRfc3339 : String → Option ℕ

inductive ErrorKind where
  | badRequest
  | forbidden
  | notFound
  | conflict
  | rateLimited
  | internal
  deriving DecidableEq, Repr

/-- What a handler answers its caller. -/
inductive Response where
  | uploaded (bucket key : String)
  | deleted
  | streamed (content : Content)
  | refused (kind : ErrorKind) (message : String)
  deriving DecidableEq, Repr

/-- Programs that end at the first refusal. -/
abbrev FileHandler (ε : Type) := ExceptT ε FileProgram

variable {ε α : Type}

/-- One call, and what is answered when it fails. -/
def ask (c : FileCall) (refusal : ε) : FileHandler ε (FileReply c) :=
  ExceptT.mk (.call c fun
    | .ok reply => .done (.ok reply)
    | .error _ => .done (.error refusal))

/-- One call whose failure is looked at. -/
def attempt (c : FileCall) : FileHandler ε (Except Unit (FileReply c)) :=
  ExceptT.mk (.call c fun answer => .done (.ok answer))

/-- `crud::db_error_internal`. -/
def internal (message : String) : Response := .refused .internal message

/-! ## Claims of a key -/

/-- `PENDING_RESERVATION_TTL_SECONDS`. -/
def pendingReservationTtlSeconds : ℕ := 3600

/-- `pending_reservation_cutoff`. -/
@[irreducible] def pendingReservationCutoff (now : ℕ) : ℕ := now - pendingReservationTtlSeconds

/-- The stored object that a reservation took the place of. -/
structure ReplacedObject where
  size : ℤ
  contentType : String
  uploadedBy : String
  uploadedAt : ℕ
  deriving DecidableEq, Repr

/-- A claim on a key while its upload is under way. -/
structure Reservation where
  id : ℕ
  bucket : String
  key : String
  claimId : String
  replaced : Option ReplacedObject
  blobKey : String
  supersededBlobs : List String
  deriving DecidableEq, Repr

/-- `Reservation::blobs_released_by_rollback`. -/
def Reservation.blobsReleasedByRollback (reservation : Reservation) : List String :=
  match reservation.replaced with
  | none => reservation.blobKey :: reservation.supersededBlobs
  | some _ => [reservation.blobKey]

/-- `ReserveError`. -/
inductive ReserveError where
  | held
  | heldByOwnEarlierUpload (since : ℕ)
  | overStorageQuota
  | overFileCount
  | db
  deriving DecidableEq, Repr

/-- `PendingClaim`: what a reservation writes, and the caps that it must leave its user within. -/
structure PendingClaim where
  bucket : String
  key : String
  size : ℤ
  contentType : String
  uploadedBy : String
  uploadedAt : ℕ
  claimId : String
  quota : QuotaConfig
  deriving DecidableEq, Repr

def PendingClaim.blobKey (claim : PendingClaim) : String := claimBlobKey claim.key claim.claimId

/-- `quota_guards`: the bytes come first, so that an upload over both caps is refused for them. -/
def quotaGuards (claim : PendingClaim) (replacing : Option ObjectRow) : List CapGuard :=
  let owned : Owned := ⟨claim.uploadedBy, replacing.map (·.id), none⟩
  let replacesOwn := replacing.any fun row => row.uploadedBy == claim.uploadedBy
  .sumAtMost owned claim.size claim.quota.maxStorageBytes ::
    if 0 < claim.quota.maxFilesPerBucket && !replacesOwn then
      [.countBelow { owned with bucket := some claim.bucket } claim.quota.maxFilesPerBucket]
    else []

/-- `refused_by`. -/
def refusedBy : ℕ → ReserveError
  | 0 => .overStorageQuota
  | 1 => .overFileCount
  | _ => .db

/-- What `claim_existing` puts back when the upload fails: the object that the row describes, or
nothing when the row is an orphan. A row under way is refused. -/
def replacedBy (claim : PendingClaim) (row : ObjectRow) :
    FileHandler ReserveError (Option ReplacedObject) :=
  match row.status with
  | .complete => return some ⟨row.size, row.contentType, row.uploadedBy, row.uploadedAt⟩
  | .pending => do
    let now ← ask .utcNow .db
    if row.uploadedAt < pendingReservationCutoff now then return none
    else if row.uploadedBy = claim.uploadedBy then
      throw (.heldByOwnEarlierUpload row.uploadedAt)
    else throw .held

/-- `claim_existing`. A replaced object stays the row's blob until the upload completes. -/
def claimExisting (existing : ObjectRow) (claim : PendingClaim) :
    FileHandler ReserveError Reservation := do
  let replaced ← replacedBy claim existing
  let update : RowUpdate :=
    { size := some claim.size
      contentType := some claim.contentType
      status := some .pending
      uploadedBy := some claim.uploadedBy
      uploadedAt := some claim.uploadedAt
      claimId := some claim.claimId
      blobKey := if replaced.isNone then some claim.blobKey else none }
  match ← ask (.updateGuarded existing.id existing.claimId update
      (quotaGuards claim (some existing))) .db with
  | .updated =>
    return ⟨existing.id, claim.bucket, claim.key, claim.claimId, replaced, claim.blobKey,
      existing.blobs⟩
  | .refused guard =>
    match ← ask (.findStored claim.bucket claim.key) .db with
    | some now =>
      if now.id = existing.id ∧ now.claimId = existing.claimId then throw (refusedBy guard)
      else throw .held
    | none => throw .held
  | .noMatch => throw .held

/-- The row that `insert_reservation` writes. -/
def PendingClaim.row (claim : PendingClaim) (id : ℕ) : ObjectRow where
  id := id
  bucket := claim.bucket
  key := claim.key
  size := claim.size
  contentType := claim.contentType
  status := .pending
  uploadedBy := claim.uploadedBy
  uploadedAt := claim.uploadedAt
  claimId := some claim.claimId
  blobKey := some claim.blobKey

/-- `Inserted`. -/
inductive Inserted where
  | created (id : ℕ)
  | keyTaken
  | refused (refusal : ReserveError)
  deriving DecidableEq, Repr

/-- `insert_reservation`. -/
def insertReservation (claim : PendingClaim) : FileHandler ReserveError Inserted := do
  let id ← ask .uuid .db
  match ← ask (.insertGuarded (claim.row id) (quotaGuards claim none)) .db with
  | .inserted => return .created id
  | .alreadyExists => return .keyTaken
  | .refused guard => return .refused (refusedBy guard)

/-- `reserve_upload` once an insert was refused: it is decided on the key's row as well. -/
def reserveAgain (claim : PendingClaim) (notInserted : ReserveError) :
    FileHandler ReserveError Reservation := do
  match ← ask (.findStored claim.bucket claim.key) .db with
  | some existing => claimExisting existing claim
  | none => throw notInserted

/-- `reserve_upload`. -/
def reserveUpload (services : FileServices) (bucket key : String) (size : ℤ) (contentType : String)
    (uploadedBy : String) (quota : QuotaConfig) : FileHandler ReserveError Reservation := do
  let uploadedAt ← ask .utcNow .db
  let drawn ← ask .uuid .db
  let claim : PendingClaim :=
    ⟨bucket, key, size, contentType, uploadedBy, uploadedAt, services.uuidText drawn, quota⟩
  match ← ask (.findStored bucket key) .db with
  | some existing => claimExisting existing claim
  | none =>
    match ← insertReservation claim with
    | .created id => return ⟨id, bucket, key, claim.claimId, none, claim.blobKey, []⟩
    | .keyTaken => reserveAgain claim .held
    | .refused refusal => reserveAgain claim refusal

/-- `release_reservation`: whether the row was still this reservation's. -/
def releaseReservation (reservation : Reservation) : FileHandler Unit Bool := do
  match reservation.replaced with
  | none =>
    return 0 < (← ask (.deleteClaimed reservation.id (some reservation.claimId) none) ())
  | some previous =>
    return 0 < (← ask (.updateClaimed reservation.id (some reservation.claimId)
      { size := some previous.size
        contentType := some previous.contentType
        status := some .complete
        uploadedBy := some previous.uploadedBy
        uploadedAt := some previous.uploadedAt }) ())

inductive Completion where
  | completed
  | takenOver
  | deleted
  deriving DecidableEq, Repr

/-- `mark_complete`. -/
def markComplete (reservation : Reservation) (refusal : ε) : FileHandler ε Completion := do
  let touched ← ask (.updateClaimed reservation.id (some reservation.claimId)
    { status := some .complete, blobKey := some reservation.blobKey }) refusal
  if 0 < touched then return .completed
  else
    match ← ask (.findStored reservation.bucket reservation.key) refusal with
    | some _ => return .takenOver
    | none => return .deleted

/-! ## Objects -/

/-- `delete_blobs`: a failure is logged and left. -/
def deleteBlobs (bucket : String) : List String → FileHandler ε Unit
  | [] => return ()
  | blob :: blobs => do
    let _ ← attempt (.deleteBlob bucket blob)
    deleteBlobs bucket blobs

/-- `sweep_stale_pending` for one row. -/
def sweepRow (row : ObjectRow) : FileHandler ε Unit := do
  match ← attempt (.deleteClaimed row.id row.claimId (some row.status)) with
  | .ok deleted => if 0 < deleted then deleteBlobs row.bucket row.blobs else return ()
  | .error _ => return ()

def sweepRows : List ObjectRow → FileHandler ε Unit
  | [] => return ()
  | row :: rows => do
    sweepRow row
    sweepRows rows

/-- `sweep_stale_pending`. -/
def sweepStalePending (user : String) : FileHandler ε Unit := do
  match ← attempt .utcNow with
  | .error _ => return ()
  | .ok now =>
    match ← attempt (.listStalePending user (pendingReservationCutoff now) 10) with
    | .error _ => return ()
    | .ok rows => sweepRows rows

/-- What an upload that got no reservation is answered. -/
def ReserveError.response (quota : QuotaConfig) : ReserveError → Response
  | overStorageQuota => .refused .badRequest "Storage quota exceeded"
  | overFileCount => .refused .badRequest
    ("File count limit reached for this bucket (max " ++ toString quota.maxFilesPerBucket ++ ")")
  | held => .refused .conflict "Another upload of this key is in progress; retry once it finishes"
  | heldByOwnEarlierUpload since => .refused .conflict
    ("Your earlier upload of this key, started at " ++ toString since ++ ", has not been " ++
      "recorded: it is still in progress, or it was stored but could not be recorded. The key is " ++
      "released 60 minutes after that upload started; retry then")
  | db => internal "Failed to reserve upload slot"

/-- `handle_upload_object` once the bytes are stored. -/
def settleUpload (reservation : Reservation) : FileHandler Response Response := do
  match ← markComplete reservation (internal "Upload stored but could not be recorded") with
  | .completed =>
    deleteBlobs reservation.bucket reservation.supersededBlobs
    return .uploaded reservation.bucket reservation.key
  | .takenOver =>
    deleteBlobs reservation.bucket [reservation.blobKey]
    return .refused .conflict
      "Another upload now holds this key, so this upload was not recorded; retry"
  | .deleted =>
    deleteBlobs reservation.bucket [reservation.blobKey]
    return .refused .conflict ("The object or its bucket was deleted while this upload was in " ++
      "progress, so the upload was not recorded")

/-- `handle_upload_object` when the bytes could not be stored. -/
def rollBackUpload (reservation : Reservation) : FileHandler Response Response := do
  let released ← ExceptT.mk ((releaseReservation reservation).run >>= fun released =>
    pure (.ok released))
  match released with
  | .ok true => deleteBlobs reservation.bucket reservation.blobsReleasedByRollback
  | _ => deleteBlobs reservation.bucket [reservation.blobKey]
  return internal "Upload failed"

/-- `handle_upload_object`, for the file of the request. -/
def uploadObject (services : FileServices) (user bucket key contentType : String)
    (content : Content) : FileHandler Response Response := do
  sweepStalePending user
  let quota ← ask (.getUserQuota user) (internal "Quota lookup failed")
  if quota.maxFileSizeBytes < content.length then
    throw (.refused .badRequest
      ("File exceeds maximum size of " ++ toString quota.maxFileSizeBytes ++ " bytes"))
  else
    let reserved ← ExceptT.mk ((reserveUpload services bucket key content.length contentType user
      quota).run >>= fun reserved => pure (.ok reserved))
    match reserved with
    | .error error => throw (error.response quota)
    | .ok reservation =>
      match ← attempt (.put bucket reservation.blobKey content) with
      | .ok _ => settleUpload reservation
      | .error _ => rollBackUpload reservation

/-- `handle_delete_object`, in at most so many rounds. -/
def deleteRounds (bucket key : String) : ℕ → FileHandler Response Response
  | 0 => return .refused .conflict "The object changed while it was being deleted; retry"
  | rounds + 1 => do
    match ← ask (.findStored bucket key) (internal "Object lookup failed") with
    | none => throw (.refused .notFound "Object not found")
    | some stored =>
      let deleted ← ask (.deleteClaimed stored.id stored.claimId (some stored.status))
        (internal "Delete failed")
      if 0 < deleted then
        deleteBlobs bucket stored.blobs
        return .deleted
      else deleteRounds bucket key rounds

/-- `handle_delete_object`. -/
def deleteObject (bucket key : String) : FileHandler Response Response := deleteRounds bucket key 3

/-- `handle_delete_bucket`, up to the bucket's own row. -/
def deleteBucket (bucket : String) : FileHandler Response Response := do
  ask (.deleteFolder bucket) (internal "Failed to delete bucket")
  ask (.deleteForBucket bucket)
    (internal "Bucket deleted but its object records could not be removed")
  return .deleted

/-! ## Share links -/

/-- `SHARE_LIMIT_REACHED`. -/
def shareLimitReached : Response := .refused .forbidden "Share link access limit reached"

/-- `handle_direct_access` once the access may be spent: the cap is decided by the update. -/
def spendAccess (share : ShareRow) (content : Content) : FileHandler Response Response := do
  if ← ask (.incrementAccessCount share.id (share.maxAccessCount.getD 0))
      (internal "Share access accounting failed") then
    let _ ← attempt (.logAccess share.id)
    return .streamed content
  else throw shareLimitReached

/-- `handle_direct_access` for a share that has not expired: the object is resolved before the
access is spent. -/
def resolveShared (share : ShareRow) : FileHandler Response Response := do
  if share.maxAccessCount.any fun max => max ≤ share.accessCount then throw shareLimitReached
  else if share.bucket = "" ∨ share.key = "" then throw (internal "Invalid share data")
  else
    match ← ask (.findStored share.bucket share.key) (internal "Object lookup failed") with
    | none => throw (.refused .notFound "File not found")
    | some stored =>
      match ← ask (.getStream share.bucket (storedBlobKey stored.key stored.blobKey))
          (internal "Storage error") with
      | none => throw (.refused .notFound "File not found")
      | some content => spendAccess share content

/-- `handle_direct_access`. -/
def directAccess (services : FileServices) (token : String) : FileHandler Response Response := do
  if ← ask .checkRateLimit (internal "Could not read the rate limit") then
    throw (.refused .rateLimited "Too many requests")
  else
    match ← ask (.findByToken token) (internal "Share lookup failed") with
    | none => throw (.refused .notFound "Share not found or expired")
    | some share =>
      match share.expiresAt.bind services.parseRfc3339 with
      | none => throw (internal "Share link is unavailable")
      | some expires =>
        let now ← ask .utcNow (internal "clock")
        if expires < now then throw (.refused .forbidden "Share link has expired")
        else resolveShared share

/-- `handle_delete_share`. -/
def deleteShare (user : String) (isAdmin : Bool) (id : ℕ) : FileHandler Response Response := do
  match ← ask (.findShare id) (internal "Database error") with
  | none => throw (.refused .notFound "Share not found")
  | some share =>
    if share.createdBy ≠ user ∧ !isAdmin then
      throw (.refused .forbidden "Cannot delete another user's share")
    else if ← ask (.deleteShare id) (internal "Database error") then return .deleted
    else throw (.refused .notFound "Share not found")

/-! ## Runs -/

/-- The requests of the files block; a `put` that is late arrives by itself. -/
inductive FileRequest where
  | upload (user bucket key contentType : String) (content : Content)
  | deleteObject (bucket key : String)
  | sweep (user : String)
  | deleteBucket (bucket : String)
  | arrive
  | access (token : String)
  | deleteShare (user : String) (isAdmin : Bool) (id : ℕ)
  deriving DecidableEq, Repr

def FileRequest.handler (services : FileServices) : FileRequest → FileHandler Response Response
  | upload user bucket key contentType content =>
    uploadObject services user bucket key contentType content
  | deleteObject bucket key => Files.deleteObject bucket key
  | sweep user => do
    sweepStalePending user
    return .deleted
  | deleteBucket bucket => Files.deleteBucket bucket
  | arrive => do
    ask .arrive (internal "")
    return .deleted
  | access token => directAccess services token
  | deleteShare user isAdmin id => Files.deleteShare user isAdmin id

/-- What a request answers, refused or not. -/
def FileRequest.program (services : FileServices) (request : FileRequest) : FileProgram Response :=
  (request.handler services).run >>= fun
    | .ok response => pure response
    | .error response => pure response

/-- Any number of requests, run along a schedule. -/
def fileRun {ι : Type} [DecidableEq ι] (services : FileServices) (start : FileStore)
    (requests : ι → FileRequest) (schedule : List (ι × FileChance)) :
    Pool ι FileStore (Outcome Unit FileReply) Response :=
  (Pool.launch start fun i => (requests i).program services).exec perform schedule

end Files
