import Impresspress.Products.Commerce.Purchases

/-!
# Refunds

A refund occupies its order's one slot in the ledger, is sent to Stripe (or, for an order that
was not charged through Stripe, settled at once), and is carried over into the order's refunded
total when it has succeeded. A provider operation is queued beside every Stripe refund, so that a
worker can finish what a request has left open; refund webhooks settle the row as well.

Source: `blocks/products/purchase.rs`, `repo/refunds.rs`, `repo/provider_operations.rs`,
`stripe_provider.rs` and `stripe.rs`.
-/

namespace Products

namespace Commerce

/-! ### The refund ledger -/

/-- The ledger state a provider state implies. A refund that the ledger has already settled stays
settled when the provider reports its success again. -/
def ledgerStatus (providerStatus : String) (current : Option RefundStatus) : RefundStatus :=
  if providerStatus = "succeeded" then
    if current = some .succeeded then .succeeded else .providerSucceeded
  else if providerStatus = "failed" ∨ providerStatus = "canceled" then .failed
  else .pending

def isTerminalProviderStatus (status : String) : Bool :=
  status == "succeeded" || status == "failed" || status == "canceled"

/-- Whether the row with a claim's idempotency key is of another request. -/
def claimConflict (existing : Refund) (claim : RefundClaim) : Bool :=
  existing.purchaseId != claim.purchaseId || existing.paymentIntentId != claim.paymentIntentId ||
    existing.amountMinor != claim.amountMinor ||
    existing.targetRefundedTotalMinor != claim.targetRefundedTotalMinor

def keyReused : WaferError :=
  ⟨.invalidArgument, "refund idempotency key was already used for a different request"⟩

/-- The insertion of `claim`, with what is done when it fails. -/
def insertClaim (claim : RefundClaim) : CommerceProgram Refund := do
  match ← attempt (call (.createRefund claim)) with
  | .ok record => return record
  | .error createError =>
    match ← optional (call (.refundByKey claim.idempotencyKey)) with
    | some existing =>
      if claimConflict existing claim then throw keyReused else return existing
    | none =>
      let active ← call (.activeRefund claim.purchaseId)
      if active.isSome then
        throw ⟨.failedPrecondition, "another refund is still being reconciled"⟩
      else
        throw createError

/-- Claim the only active refund slot of an order. The key of an earlier claim answers its row,
revived if it had failed. -/
def claimRefund (claim : RefundClaim) : CommerceProgram Refund := do
  match ← optional (call (.refundByKey claim.idempotencyKey)) with
  | some existing =>
    if claimConflict existing claim then
      throw keyReused
    else if existing.status = .failed then
      call (.setRefund existing.id .revived)
    else
      return existing
  | none =>
    match ← call (.activeRefund claim.purchaseId) with
    | some active =>
      throw ⟨.failedPrecondition, s!"refund {active.id} is still being reconciled"⟩
    | none => insertClaim claim

/-- Record the provider's answer, unless a webhook has come first. -/
def recordProviderResponse (id : RowId) (response : ProviderResponse) :
    CommerceProgram Refund := do
  let current ← call (.getRefund id)
  if current.stripeEventCreated > 0 then
    if current.providerRefundId ≠ "" ∧ current.providerRefundId ≠ response.id then
      throw ⟨.failedPrecondition, "refund provider identity changed during reconciliation"⟩
    else
      return current
  else
    let rows ← call (.updateRefund id [.stripeEventCreated 0]
      (.providerResponse response.id response.status response.livemode
        (ledgerStatus response.status none) response))
    let updated ← call (.getRefund id)
    if rows = 1 ∨ (updated.providerRefundId ≠ "" ∧ updated.providerRefundId = response.id) then
      return updated
    else
      throw ⟨.failedPrecondition, "refund provider response changed concurrently"⟩

/-- Whether the stored provider state stands against an event of the same second. -/
def keepsCurrent (current : Refund) (providerStatus : String) (eventCreated : ℤ) : Bool :=
  current.stripeEventCreated == eventCreated && current.providerStatus != providerStatus &&
    (isTerminalProviderStatus current.providerStatus ||
      (current.providerStatus == "requires_action" && providerStatus == "pending"))

/-- Whether a newer event contradicts a terminal provider state. -/
def contradicts (current : Refund) (providerStatus : String) (eventCreated : ℤ) : Bool :=
  current.stripeEventCreated < eventCreated && isTerminalProviderStatus current.providerStatus &&
    current.providerStatus != providerStatus

/-- The attempts of `record_webhook_response`: the row, and whether the event was applied. -/
def tryWebhookResponse (id : RowId) (response : ProviderResponse) (eventCreated : ℤ) :
    ℕ → CommerceProgram (Refund × Bool)
  | 0 =>
    throw ⟨.failedPrecondition, "refund webhook state changed concurrently; retry the event"⟩
  | attempts + 1 => do
    let current ← call (.getRefund id)
    if current.providerRefundId ≠ response.id then
      throw ⟨.failedPrecondition, "refund webhook provider identity does not match its ledger"⟩
    else if current.stripeEventCreated > eventCreated then
      return (current, false)
    else if keepsCurrent current response.status eventCreated then
      return (current, false)
    else if contradicts current response.status eventCreated then
      throw ⟨.failedPrecondition,
        s!"refund terminal status changed from {current.providerStatus} to " ++
          s!"{response.status}; provider reconciliation is required"⟩
    else
      let rows ← call (.updateRefund id
        [.stripeEventCreated current.stripeEventCreated, .providerStatus current.providerStatus]
        (.webhookResponse response.status response.livemode
          (ledgerStatus response.status (some current.status)) response eventCreated))
      if rows = 1 then
        let record ← call (.getRefund id)
        return (record, true)
      else
        tryWebhookResponse id response eventCreated attempts

/-- Apply a refund event only when it is newer than the stored provider state. -/
def recordWebhookResponse (id : RowId) (response : ProviderResponse) (eventCreated : ℤ) :
    CommerceProgram (Refund × Bool) :=
  if eventCreated < 0 then
    throw ⟨.invalidArgument, "refund event timestamp must not be negative"⟩
  else
    tryWebhookResponse id response eventCreated 3

def markSucceeded (id : RowId) : CommerceProgram Refund := call (.setRefund id .succeeded)

def markFailed (id : RowId) (message : String) : CommerceProgram Refund :=
  call (.setRefund id (.failed message))

/-- Keep the claim active after an ambiguous failure: a retry with the same key is safe. -/
def markRetryableError (id : RowId) (message : String) : CommerceProgram Refund :=
  call (.setRefund id (.retryableError message))

/-! ### Provider operations -/

/-- The operation of a refund: the one its key already has, else a new one. -/
def ensureOperation (refund : Refund) : CommerceProgram Operation := do
  if refund.idempotencyKey = "" then
    throw ⟨.invalidArgument, "provider operation identity is incomplete"⟩
  else
    call (.upsertOperation
      (.fresh refund.id refund.stripeAccountId refund.idempotencyKey))
    let record ← call (.operationByKey refund.idempotencyKey)
    if record.aggregateId ≠ refund.id ∨ record.stripeAccountId ≠ refund.stripeAccountId then
      throw ⟨.failedPrecondition,
        "provider-operation idempotency key was reused for another request"⟩
    else
      return record

/-- Resolve an operation without its lease. -/
def resolveUnleased (key : String) (succeeded : Bool) (response : Option ProviderResponse)
    (message : String) : CommerceProgram Unit := do
  let _ ← call (.setOperation key (.resolved succeeded response message))
  return ()

/-- Resolve the operations that are not resolved so yet. -/
def resolveOperations (succeeded : Bool) (response : Option ProviderResponse)
    (message : String) : List Operation → CommerceProgram Unit
  | [] => return ()
  | operation :: operations => do
    if operation.status ≠ (if succeeded then .succeeded else .deadLetter) then
      resolveUnleased operation.idempotencyKey succeeded response message
      resolveOperations succeeded response message operations
    else
      resolveOperations succeeded response message operations

/-- Resolve the operations of a refund. -/
def resolveForAggregate (aggregateId : RowId) (succeeded : Bool)
    (response : Option ProviderResponse) (message : String) : CommerceProgram Unit := do
  let operations ← call (.operationsFor aggregateId)
  resolveOperations succeeded response message operations

def leaseSeconds : ℤ := 300

/-- Whether a worker may take the operation at `now`. -/
def Operation.eligible (record : Operation) (now : Instant) : Bool :=
  match record.status with
  | .pending | .failed => record.nextAttemptAt.all fun next => decide (next ≤ now)
  | .processing =>
    record.processingStartedAt.all fun started => decide (numSeconds now started ≥ leaseSeconds)
  | .succeeded | .deadLetter => false

/-- Why an operation that is out of attempts is given up. -/
def exhaustedReason (record : Operation) : String :=
  let reason :=
    match record.status with
    | .processing =>
      s!"retry budget of {maxAttempts} attempts exhausted: the lease of attempt " ++
        s!"{record.attempts} expired without recording an outcome"
    | _ =>
      s!"retry budget of {maxAttempts} attempts exhausted after {record.attempts} attempts"
  if record.lastError = "" then reason
  else reason ++ "; last recorded error: " ++ record.lastError

/-- A lease on an operation: the row as it now is, the owner and the number of the attempt. -/
structure OperationClaim where
  record : Operation
  owner : RowId
  attempts : ℕ
  deriving DecidableEq, Repr

/-- Outcome of `claim_one` for a single candidate row. -/
inductive Candidate where
  | claimed (claim : OperationClaim)
  | deadLettered
  | skipped
  deriving DecidableEq, Repr

/-- Lease one candidate, or give it up when it is out of attempts. -/
def claimOne (record : Operation) (now : Instant) : CommerceProgram Candidate := do
  if ¬ record.eligible now then
    return .skipped
  else if record.attempts + 1 > maxAttempts then
    let rows ← call (.updateOperation record.idempotencyKey record.status record.processingOwner
      (.deadLetterUnclaimed (exhaustedReason record)))
    return if rows = 1 then .deadLettered else .skipped
  else
    let owner ← call .newUuid
    let rows ← call (.updateOperation record.idempotencyKey record.status record.processingOwner
      (.claimed (record.attempts + 1) owner now))
    if rows ≠ 1 then
      return .skipped
    else
      return .claimed
        ⟨(OperationWrite.claimed (record.attempts + 1) owner now).apply record, owner,
          record.attempts + 1⟩

/-- What one `claim_due` pass did with the due rows it looked at. -/
structure ClaimBatch where
  claims : List OperationClaim
  deadLettered : ℕ
  failures : List (String × WaferError)

/-- The batch after one more candidate. -/
def ClaimBatch.add (batch : ClaimBatch) (key : String) : Except WaferError Candidate → ClaimBatch
  | .ok (.claimed claim) => { batch with claims := batch.claims ++ [claim] }
  | .ok .deadLettered => { batch with deadLettered := batch.deadLettered + 1 }
  | .ok .skipped => batch
  | .error error => { batch with failures := batch.failures ++ [(key, error)] }

/-- Lease candidates until `limit` are held. A candidate whose write fails is left for later. -/
def claimEach (now : Instant) (limit : ℕ) :
    List Operation → ClaimBatch → CommerceProgram ClaimBatch
  | [], batch => return batch
  | record :: records, batch => do
    if batch.claims.length ≥ limit then
      return batch
    else
      let candidate ← attempt (claimOne record now)
      claimEach now limit records (batch.add record.idempotencyKey candidate)

/-- `usize::clamp(1, 100)`. -/
def clampLimit (limit : ℕ) : ℕ := max 1 (min limit 100)

/-- Lease up to `limit` due operations. -/
def claimDue (limit : ℕ) : CommerceProgram ClaimBatch := do
  let now ← call .utcNow
  let candidates ← call (.openOperations (clampLimit limit * 4))
  claimEach now limit candidates ⟨[], 0, []⟩

def markCompleted (key : String) (owner : RowId) (response : Option ProviderResponse) :
    CommerceProgram Unit := do
  let rows ← call (.updateOperation key .processing (some owner) (.completed response))
  if rows = 1 then
    return ()
  else
    let record ← call (.operationByKey key)
    if record.status = .succeeded then
      return ()
    else
      throw ⟨.failedPrecondition, "provider-operation lease was lost before completion"⟩

/-- Whether `mark_retry` scheduled another attempt or spent the last one. -/
inductive RetryRecorded where
  | scheduled
  | deadLettered
  deriving DecidableEq, Repr

/-- Record a failed attempt: another is scheduled, or the operation is given up. -/
def markRetry (key : String) (owner : RowId) (attempts : ℕ) (message : String) :
    CommerceProgram RetryRecorded := do
  let now ← call .utcNow
  let rows ← call (.updateOperation key .processing (some owner) (.retried attempts message now))
  if rows ≠ 1 then
    throw ⟨.failedPrecondition, "provider-operation lease was lost before retry was recorded"⟩
  else
    return if attempts ≥ maxAttempts then .deadLettered else .scheduled

/-! ### Stripe refunds -/

/-- Decode a refund object against the request it answers. -/
def decodeRefundResponse (value : RefundObject) (params : StripeRefundParams)
    (expectedId : Option String) (clientLivemode : Bool) (source : Option String) :
    Except WaferError ProviderResponse :=
  let livemode := value.livemode.getD clientLivemode
  if ¬ value.id.startsWith "re_" ∨ (expectedId.any fun expected => expected != value.id) ∨
      value.status ∉ ["pending", "requires_action", "succeeded", "failed", "canceled"] ∨
      value.amount.getD 0 ≠ params.amountMinor ∨
      (value.paymentIntent ≠ "" ∧ value.paymentIntent ≠ params.paymentIntentId) ∨
      livemode ≠ clientLivemode ∨ livemode ≠ params.expectedLivemode then
    .error ⟨.internal, "Stripe returned an inconsistent refund response"⟩
  else
    .ok ⟨value.id, value.status, value.amount.getD 0, livemode, source⟩

/-- Create a refund at Stripe. The answer is in the form in which the ledger keeps it. -/
def createRefund (params : StripeRefundParams) (source : Option String) :
    CommerceProgram ProviderResponse := do
  let livemode ← call .loadStripeClient
  if params.expectedLivemode ≠ livemode then
    throw ⟨.failedPrecondition, "purchase belongs to a different Stripe mode"⟩
  else if params.amountMinor ≤ 0 ∨ params.paymentIntentId = "" then
    throw ⟨.invalidArgument, "refund requires a positive amount and Stripe PaymentIntent"⟩
  else
    let value ← call (.stripeCreateRefund params)
    ExceptT.mk (pure (decodeRefundResponse value params none livemode source))

/-- Read a refund back from Stripe. -/
def retrieveRefund (params : StripeRefundParams) (refundId : String) (source : Option String) :
    CommerceProgram ProviderResponse := do
  if ¬ refundId.startsWith "re_" then
    throw ⟨.invalidArgument, "refund reconciliation requires a Stripe refund id"⟩
  else
    let livemode ← call .loadStripeClient
    if params.expectedLivemode ≠ livemode then
      throw ⟨.failedPrecondition, "refund belongs to a different Stripe mode"⟩
    else
      let value ← call (.stripeRetrieveRefund params refundId)
      ExceptT.mk (pure (decodeRefundResponse value params (some refundId) livemode source))

/-! ### Refund requests -/

/-- A refund request: its body, and who sends it. -/
structure RefundRequest where
  amountMinor : Option ℤ
  providerReason : Option RefundReason
  note : Option String
  idempotencyKey : Option String
  userId : String
  deriving DecidableEq, Repr

def validRefundOperationKey (value : String) : Bool :=
  value != "" && value.utf8ByteSize ≤ 80 &&
    value.toList.all fun c => c.isAlphanum || c == '_' || c == '-'

/-- The part of the idempotency key that the request determines. -/
def RefundRequest.clientKey (request : RefundRequest) : String :=
  match request.idempotencyKey, request.amountMinor with
  | some value, _ => value
  | none, none => "full"
  | none, some amount => s!"amount_{amount}"

/-- The idempotency key of a request on an order. -/
def RefundRequest.key (request : RefundRequest) (id : RowId) : String :=
  s!"impresspress_refund_{id}_{request.clientKey}"

def RefundRequest.trimmedNote (request : RefundRequest) : String := trim (request.note.getD "")

def RefundRequest.reason (request : RefundRequest) : String :=
  match request.providerReason with
  | none => ""
  | some reason => reason.asStr

/-- The checks on a request that need no database. -/
def RefundRequest.invalid (request : RefundRequest) (id : RowId) : Option String :=
  if request.trimmedNote.length > 500 then
    some "Refund note must be 500 characters or fewer"
  else if request.amountMinor.any fun amount => decide (amount ≤ 0) then
    some "Refund amount_minor must be positive"
  else if request.idempotencyKey.any fun value => !validRefundOperationKey value then
    some "idempotency_key must be 1-80 letters, numbers, underscores, or hyphens"
  else if (request.key id).utf8ByteSize > 255 then
    some "Refund idempotency key is too long"
  else none

/-- The outcome of a refund request, as its caller is told it. -/
structure RefundResult where
  purchaseId : RowId
  refundId : Option RowId
  providerRefundId : String
  status : RefundResultStatus
  providerStatus : String
  amountMinor : ℤ
  refundedTotalMinor : ℤ
  orderTotalMinor : ℤ
  currency : String
  livemode : Bool
  deriving DecidableEq, Repr

def refundResult (purchase : Order) (refund : Refund) : RefundResult where
  purchaseId := purchase.id
  refundId := some refund.id
  providerRefundId := refund.providerRefundId
  status :=
    match refund.status with
    | .succeeded => .succeeded
    | .failed => .failed
    | .pending | .providerSucceeded => .pending
  providerStatus := refund.providerStatus
  amountMinor := refund.amountMinor
  refundedTotalMinor := purchase.refundedTotalCents
  orderTotalMinor := purchase.totalCents
  currency := purchase.currency
  livemode := refund.livemode

def manualRefundResult (purchase : Order) (amountMinor : ℤ) : RefundResult where
  purchaseId := purchase.id
  refundId := none
  providerRefundId := ""
  status := .succeeded
  providerStatus := "manual"
  amountMinor := amountMinor
  refundedTotalMinor := purchase.refundedTotalCents
  orderTotalMinor := purchase.totalCents
  currency := purchase.currency
  livemode := false

/-- The PaymentIntent that a refund of the order is made on. -/
def Order.refundIntent (purchase : Order) : String :=
  if purchase.stripePaymentIntentId = "" then purchase.providerPaymentIntentId
  else purchase.stripePaymentIntentId

/-- Whether the order is refunded through Stripe. -/
def Order.isStripe (purchase : Order) : Bool :=
  purchase.provider == "stripe" || purchase.refundIntent != ""

/-- Whether a repeated key comes with another amount, reason or note. -/
def RefundRequest.differs (request : RefundRequest) (existing : Refund) (total : ℤ)
    (stripe : Bool) : Bool :=
  (request.amountMinor.any fun amount => amount != existing.amountMinor) ||
    (request.amountMinor.isNone && existing.targetRefundedTotalMinor != total) ||
    (stripe && request.reason != "" && request.reason != existing.providerReason) ||
    (request.trimmedNote != "" && request.trimmedNote != existing.note)

/-- The claim of a first request with its key; it pins the target that the order's refunded total
is to reach. -/
def firstClaim (request : RefundRequest) (purchase : Order) (amount : ℤ) (stripe : Bool) :
    RefundClaim where
  purchaseId := purchase.id
  paymentIntentId := if stripe then purchase.refundIntent else ""
  stripeAccountId := if stripe then purchase.stripeAccountId else ""
  idempotencyKey := request.key purchase.id
  amountMinor := amount
  targetRefundedTotalMinor := purchase.refundedTotalCents + amount
  currency := purchase.currency
  providerReason := if stripe then request.reason else ""
  note := request.trimmedNote
  refundedBy := request.userId
  livemode := purchase.livemode

/-- The claim of a repeated request: what its row holds. -/
def repeatedClaim (request : RefundRequest) (purchase : Order) (existing : Refund)
    (stripe : Bool) : RefundClaim where
  purchaseId := purchase.id
  paymentIntentId := if stripe then existing.paymentIntentId else ""
  stripeAccountId := if stripe then existing.stripeAccountId else ""
  idempotencyKey := request.key purchase.id
  amountMinor := existing.amountMinor
  targetRefundedTotalMinor := existing.targetRefundedTotalMinor
  currency := existing.currency
  providerReason := if stripe then existing.providerReason else ""
  note := existing.note
  refundedBy := existing.refundedBy
  livemode := existing.livemode

/-- What a request is to claim, given the row of its key. -/
def planClaim (request : RefundRequest) (purchase : Order) (stripe : Bool) :
    Option Refund → Except WaferError RefundClaim
  | some existing =>
    if existing.purchaseId ≠ purchase.id then
      .error ⟨.invalidArgument, "Refund idempotency key belongs to another purchase"⟩
    else if request.differs existing purchase.totalCents stripe then
      .error ⟨.invalidArgument,
        "Refund idempotency key was already used for a different request"⟩
    else
      .ok (repeatedClaim request purchase existing stripe)
  | none =>
    if ¬ purchase.status.isRefundable then
      .error ⟨.invalidArgument, "Purchase is not in a refundable state"⟩
    else
      let remaining := purchase.totalCents - purchase.refundedTotalCents
      let amount := request.amountMinor.getD remaining
      if amount ≤ 0 ∨ amount > remaining then
        .error ⟨.invalidArgument, "Refund amount exceeds the remaining refundable amount"⟩
      else
        .ok (firstClaim request purchase amount stripe)

/-- The refund of an order that was not charged through Stripe. -/
def refundManually (request : RefundRequest) (purchase : Order) :
    CommerceProgram RefundResult := do
  let existing ← optional (call (.refundByKey (request.key purchase.id)))
  let claim ← ExceptT.mk (pure (planClaim request purchase false existing))
  match existing.filter fun refund => refund.status == .succeeded with
  | some refund =>
    let current ← call (.getOrder purchase.id)
    return manualRefundResult current refund.amountMinor
  | none =>
    let refund ← claimRefund claim
    let updated ← reconcileRefundTotal purchase.id refund.targetRefundedTotalMinor
    let _ ← markSucceeded refund.id
    return manualRefundResult updated refund.amountMinor

/-- What the request sends to Stripe for a claimed row. -/
def Refund.params (refund : Refund) (purchase : Order) (expectedLivemode : Bool) :
    StripeRefundParams where
  purchaseId := refund.purchaseId
  paymentIntentId := refund.paymentIntentId
  stripeAccountId := refund.stripeAccountId
  idempotencyKey := refund.idempotencyKey
  amountMinor := refund.amountMinor
  providerReason := refund.providerReason
  refundApplicationFee := refund.stripeAccountId != "" && decide (purchase.platformFeeCents > 0)
  expectedLivemode := expectedLivemode

/-- Carry a refund that the provider has paid over into the order, and close its row and its
operation. -/
def settleRefund (purchaseId : RowId) (refund : Refund) (operation : Operation)
    (response : Refund → Option ProviderResponse) : CommerceProgram RefundResult := do
  let current ← reconcileRefundTotal purchaseId refund.targetRefundedTotalMinor
  let refund ← markSucceeded refund.id
  resolveUnleased operation.idempotencyKey true (response refund) ""
  return refundResult current refund

/-- What a request does when Stripe has not accepted the refund: an ambiguous failure keeps the
row active, a definite one fails it and gives the operation up. -/
def recordRefusal (refund : Refund) (operation : Operation) (error : WaferError) :
    CommerceProgram Unit := do
  if error.code = .internal then
    let _ ← attempt (markRetryableError refund.id error.message)
    return ()
  else
    let _ ← attempt (markFailed refund.id error.message)
    let _ ← attempt (resolveUnleased operation.idempotencyKey false none error.message)
    return ()

/-- Send a claimed refund to Stripe and record the outcome. -/
def sendRefund (purchase : Order) (refund : Refund) (operation : Operation) :
    CommerceProgram RefundResult := do
  match ← attempt (createRefund (refund.params purchase purchase.livemode) none) with
  | .error error =>
    recordRefusal refund operation error
    throw error
  | .ok provider =>
    let refund ← recordProviderResponse refund.id provider
    if provider.status = "succeeded" then
      settleRefund purchase.id refund operation fun _ => some provider
    else if provider.status = "failed" ∨ provider.status = "canceled" then
      resolveUnleased operation.idempotencyKey false (some provider)
        "Stripe refund failed or was canceled"
      return refundResult purchase refund
    else
      return refundResult purchase refund

/-- Go on with a claimed row, from the state that it is in. -/
def continueRefund (purchase : Order) (refund : Refund) (operation : Operation) :
    CommerceProgram RefundResult :=
  match refund.status with
  | .succeeded => do
    resolveUnleased operation.idempotencyKey true refund.responseJson ""
    let current ← call (.getOrder purchase.id)
    return refundResult current refund
  | .providerSucceeded =>
    settleRefund purchase.id refund operation Refund.responseJson
  | .pending =>
    if refund.providerRefundId ≠ "" then return refundResult purchase refund
    else sendRefund purchase refund operation
  | .failed => sendRefund purchase refund operation

/-- The refund of an order that was charged through Stripe. -/
def refundAtStripe (request : RefundRequest) (purchase : Order) :
    CommerceProgram RefundResult := do
  if purchase.refundIntent = "" then
    badRequest "Stripe purchase does not have a PaymentIntent"
  else
    let existing ← optional (call (.refundByKey (request.key purchase.id)))
    let claim ← ExceptT.mk (pure (planClaim request purchase true existing))
    let refund ← claimRefund claim
    let operation ← ensureOperation refund
    continueRefund purchase refund operation

/-- Refund a part of an order, or all that is left of it. -/
def refundPurchase (id : RowId) (request : RefundRequest) : CommerceProgram RefundResult := do
  match request.invalid id with
  | some message => badRequest message
  | none =>
    let purchase ← call (.getOrder id)
    if ¬ purchase.isStripe ∧ ¬ purchase.status.isRefundable then
      badRequest "Purchase is not in a refundable state"
    else if purchase.totalCents ≤ 0 ∨ purchase.refundedTotalCents < 0 ∨
        purchase.refundedTotalCents > purchase.totalCents then
      internalError "Purchase has invalid refund accounting"
    else if purchase.isStripe then
      refundAtStripe request purchase
    else
      refundManually request purchase

/-! ### The reconcile worker -/

/-- What one run of a claimed operation achieved. -/
inductive OperationOutcome where
  | succeeded (response : Option ProviderResponse)
  | retry (message : String)
  | terminal (message : String) (response : Option ProviderResponse)
  deriving DecidableEq, Repr

/-- `str::eq_ignore_ascii_case`. -/
def eqIgnoreAsciiCase (a b : String) : Bool := toAsciiUppercase a == toAsciiUppercase b

/-- Whether a refund's snapshot no longer matches its order. -/
def snapshotConflict (refund : Refund) (purchase : Order) : Bool :=
  purchase.stripeAccountId != refund.stripeAccountId || purchase.livemode != refund.livemode ||
    !eqIgnoreAsciiCase purchase.currency refund.currency

/-- Ask Stripe for the refund of a row, and record the answer on it. -/
def recordReconciliation (refund : Refund) (purchase : Order) :
    CommerceProgram (Refund × ProviderResponse) := do
  let params := refund.params purchase refund.livemode
  let source := some "provider_reconciliation"
  if refund.providerRefundId = "" then
    let provider ← createRefund params source
    let ledger ← recordProviderResponse refund.id provider
    return (ledger, provider)
  else
    let provider ← retrieveRefund params refund.providerRefundId source
    let now ← call .utcNow
    let (ledger, _) ← recordWebhookResponse refund.id provider now.timestamp
    return (ledger, provider)

/-- Reconcile the refund of an operation with Stripe. -/
def reconcileRefundOperation (operation : Operation) : CommerceProgram OperationOutcome := do
  let refund ← call (.getRefund operation.aggregateId)
  if refund.status = .succeeded then
    return .succeeded refund.responseJson
  else
    let purchase ← call (.getOrder refund.purchaseId)
    if snapshotConflict refund purchase then
      throw ⟨.failedPrecondition,
        "refund reconciliation snapshot no longer matches its purchase"⟩
    else
      let (ledger, provider) ← recordReconciliation refund purchase
      if provider.status = "succeeded" then
        let _ ← reconcileRefundTotal ledger.purchaseId ledger.targetRefundedTotalMinor
        let ledger ← markSucceeded ledger.id
        return .succeeded ledger.responseJson
      else if provider.status = "failed" ∨ provider.status = "canceled" then
        let _ ← markFailed ledger.id
          "Stripe reports that the refund is terminal and was not completed"
        return .terminal "Stripe refund failed or was canceled" (some provider)
      else
        return .retry ("Stripe refund remains " ++ provider.status)

/-- Where `record_operation_outcome` left one claimed operation. -/
inductive Recorded where
  | succeeded
  | retryScheduled
  | deadLettered
  deriving DecidableEq, Repr

def RetryRecorded.recorded : RetryRecorded → Recorded
  | scheduled => .retryScheduled
  | deadLettered => .deadLettered

/-- Run a claimed operation and write its outcome. -/
def recordOperationOutcome (claim : OperationClaim) : CommerceProgram Recorded := do
  match ← attempt (reconcileRefundOperation claim.record) with
  | .ok (.succeeded response) =>
    markCompleted claim.record.idempotencyKey claim.owner response
    return .succeeded
  | .ok (.terminal message response) =>
    resolveUnleased claim.record.idempotencyKey false response message
    return .deadLettered
  | .ok (.retry message) =>
    let recorded ← markRetry claim.record.idempotencyKey claim.owner claim.attempts message
    return recorded.recorded
  | .error error =>
    let recorded ← markRetry claim.record.idempotencyKey claim.owner claim.attempts error.message
    return recorded.recorded

/-- What one pass of the worker did. -/
structure ProviderReconcileResult where
  claimed : ℕ
  succeeded : ℕ
  retryScheduled : ℕ
  deadLetter : ℕ
  unrecorded : ℕ
  deriving DecidableEq, Repr

/-- The result after one more claim. -/
def ProviderReconcileResult.add (result : ProviderReconcileResult) :
    Except WaferError Recorded → ProviderReconcileResult
  | .ok .succeeded => { result with succeeded := result.succeeded + 1 }
  | .ok .retryScheduled => { result with retryScheduled := result.retryScheduled + 1 }
  | .ok .deadLettered => { result with deadLetter := result.deadLetter + 1 }
  | .error _ => { result with unrecorded := result.unrecorded + 1 }

/-- Run the claims of a batch; a write that fails for one does not stop the rest. -/
def recordOutcomes :
    List OperationClaim → ProviderReconcileResult → CommerceProgram ProviderReconcileResult
  | [], result => return result
  | claim :: claims, result => do
    let recorded ← attempt (recordOperationOutcome claim)
    recordOutcomes claims (result.add recorded)

/-- One pass of the worker. -/
def reconcileProviderOperations (limit : ℕ) : CommerceProgram ProviderReconcileResult := do
  let batch ← claimDue (clampLimit limit)
  recordOutcomes batch.claims
    { claimed := batch.claims.length
      succeeded := 0
      retryScheduled := 0
      deadLetter := batch.deadLettered
      unrecorded := batch.failures.length }

/-! ### Refund webhooks -/

/-- A `refund.*` event as it is delivered. -/
structure RefundEvent where
  failed : Bool
  eventAccount : String
  eventLivemode : Option Bool
  eventCreated : ℤ
  providerRefundId : String
  paymentIntent : String
  amount : Option ℤ
  currency : String
  status : Option String
  objectLivemode : Option Bool
  deriving DecidableEq, Repr

/-- The provider status that an event reports. -/
def RefundEvent.providerStatus (event : RefundEvent) : String :=
  event.status.getD (if event.failed then "failed" else "pending")

/-- The first disagreement between a refund event and the row it names. -/
def RefundEvent.conflict (event : RefundEvent) (ledger : Refund) : Option String :=
  if event.eventAccount ≠ ledger.stripeAccountId then
    some "Refund webhook connected account does not match its ledger"
  else if (event.paymentIntent ≠ "" ∧ event.paymentIntent ≠ ledger.paymentIntentId) ∨
      (event.amount.getD 0 > 0 ∧ event.amount.getD 0 ≠ ledger.amountMinor) then
    some "Refund webhook does not match its immutable request snapshot"
  else if event.currency ≠ "" ∧ ¬ eqIgnoreAsciiCase event.currency ledger.currency then
    some "Refund webhook currency does not match its ledger"
  else if event.providerStatus ∉
      ["pending", "requires_action", "succeeded", "failed", "canceled"] then
    some "Refund webhook has an unsupported provider status"
  else if (event.objectLivemode.or event.eventLivemode).any
      fun livemode => livemode != ledger.livemode then
    some "Refund webhook mode does not match its ledger"
  else none

/-- The `refund.*` arms of the webhook. -/
def handleRefundEvent (event : RefundEvent) : CommerceProgram Unit := do
  if event.providerRefundId = "" then
    return ()
  else
    match ← optional (call (.refundByProviderId event.providerRefundId)) with
    | none => return ()
    | some ledger =>
      match event.conflict ledger with
      | some message => internalError message
      | none =>
        let response : ProviderResponse :=
          ⟨event.providerRefundId, event.providerStatus, ledger.amountMinor,
            (event.objectLivemode.or event.eventLivemode).getD ledger.livemode, some "webhook"⟩
        let (ledger, applied) ← recordWebhookResponse ledger.id response event.eventCreated
        if applied ∧ event.providerStatus = "succeeded" then
          let _ ← reconcileRefundTotal ledger.purchaseId ledger.targetRefundedTotalMinor
          let _ ← markSucceeded ledger.id
          resolveForAggregate ledger.id true (some response) ""
        else if applied ∧ (event.providerStatus = "failed" ∨ event.providerStatus = "canceled") then
          resolveForAggregate ledger.id false (some response)
            "Stripe refund failed or was canceled"
        else
          return ()

end Commerce

end Products
