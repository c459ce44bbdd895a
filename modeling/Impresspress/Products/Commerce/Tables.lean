import Impresspress.Products.Repo

/-!
# The rows of commerce orders

Orders, the refund ledger and the queue of provider operations: the rows of each table, the
conditions that the block's updates filter on, and what its updates assign.

Row ids come from a generator that never repeats one, so they are numbers here; where the source
tells an empty id apart, the id is an option. An operation's id is a digest of its idempotency
key and is identified with that key. Columns that nothing modelled reads are left out.

Source: `blocks/products/repo/purchases.rs`, `repo/refunds.rs` and
`repo/provider_operations.rs`.
-/

namespace Products

namespace Commerce

abbrev RowId := ℕ

/-! ### Orders -/

/-- The `metadata` object of an order, as far as it is read. -/
structure CheckoutMetadata where
  offerMode : Option String
  offerId : Option String
  offerVersion : Option ℕ
  allowedShippingAmountsMinor : Option (List ℤ)
  deriving DecidableEq, Repr

/-- An unsigned number read as `u32`: what does not fit reads as zero. -/
def asU32 (value : Option ℕ) : ℕ := (value.filter fun v => v < 2 ^ 32).getD 0

/-- A row of the purchases table. -/
structure Order where
  id : RowId
  status : OrderStatus
  provider : String
  stripeAccountId : String
  livemode : Bool
  currency : String
  subtotalCents : ℤ
  discountCents : ℤ
  taxCents : ℤ
  shippingCents : ℤ
  totalCents : ℤ
  refundedTotalCents : ℤ
  platformFeeCents : ℤ
  metadata : Option CheckoutMetadata
  providerSessionId : String
  providerPaymentIntentId : String
  stripePaymentIntentId : String
  providerPaymentStatus : ProviderPaymentStatus
  paymentIntentEventCreated : ℤ
  reconciliationStatus : ReconciliationStatus
  deriving DecidableEq, Repr

/-- The amounts of an order when it is created. -/
structure MoneyBreakdown where
  currency : String
  subtotalMinor : ℤ
  discountMinor : ℤ
  taxMinor : ℤ
  shippingMinor : ℤ
  totalMinor : ℤ
  platformFeeMinor : ℤ
  deriving DecidableEq, Repr

/-- What an order is created from; of its lines only their number matters here. -/
structure CheckoutOrderSnapshot where
  stripeAccountId : String
  offerMode : String
  offerId : String
  offerVersion : ℕ
  livemode : Bool
  allowedShippingAmountsMinor : List ℤ
  amounts : MoneyBreakdown
  items : ℕ
  deriving DecidableEq, Repr

/-- The row that `create_checkout_order` inserts. -/
def CheckoutOrderSnapshot.row (snapshot : CheckoutOrderSnapshot) (id : RowId) : Order where
  id := id
  status := .pending
  provider := "stripe"
  stripeAccountId := snapshot.stripeAccountId
  livemode := snapshot.livemode
  currency := snapshot.amounts.currency
  subtotalCents := snapshot.amounts.subtotalMinor
  discountCents := snapshot.amounts.discountMinor
  taxCents := snapshot.amounts.taxMinor
  shippingCents := snapshot.amounts.shippingMinor
  totalCents := snapshot.amounts.totalMinor
  refundedTotalCents := 0
  platformFeeCents := snapshot.amounts.platformFeeMinor
  metadata := some
    { offerMode := some snapshot.offerMode
      offerId := some snapshot.offerId
      offerVersion := some snapshot.offerVersion
      allowedShippingAmountsMinor := some snapshot.allowedShippingAmountsMinor }
  providerSessionId := ""
  providerPaymentIntentId := ""
  stripePaymentIntentId := ""
  providerPaymentStatus := .unset
  paymentIntentEventCreated := 0
  reconciliationStatus := .pending

/-- The state of a completed or failed Checkout Session, as its event reports it. -/
structure CheckoutSessionCompletion where
  sessionId : String
  clientReferenceId : Option RowId
  eventAccount : String
  livemode : Bool
  mode : String
  paymentStatus : String
  currency : String
  subtotalMinor : ℤ
  discountMinor : ℤ
  taxMinor : ℤ
  shippingMinor : ℤ
  totalMinor : ℤ
  offerId : String
  offerVersion : ℕ
  paymentIntentId : String
  subscriptionId : String
  deriving DecidableEq, Repr

/-- The state of a PaymentIntent, as its event reports it. -/
structure PaymentIntentSnapshot where
  purchaseId : Option RowId
  offerId : String
  offerVersion : ℕ
  paymentIntentId : String
  stripeAccountId : String
  livemode : Bool
  status : ProviderPaymentStatus
  amountMinor : ℤ
  currency : String
  eventCreated : ℤ
  deriving DecidableEq, Repr

/-- The conditions on an order that updates filter on. -/
inductive OrderFilter where
  | status (value : OrderStatus)
  | statusIn (values : List OrderStatus)
  | providerSessionId (value : String)
  | providerPaymentIntentId (value : String)
  | paymentIntentEventCreatedLe (value : ℤ)
  | refundedTotalCents (value : ℤ)
  deriving DecidableEq, Repr

def OrderFilter.matches (order : Order) : OrderFilter → Bool
  | status value => order.status == value
  | statusIn values => values.contains order.status
  | providerSessionId value => order.providerSessionId == value
  | providerPaymentIntentId value => order.providerPaymentIntentId == value
  | paymentIntentEventCreatedLe value => order.paymentIntentEventCreated ≤ value
  | refundedTotalCents value => order.refundedTotalCents == value

/-- The column assignments of the updates of an order. `sessionSaved` is what a checkout writes
after its call to Stripe, `sessionAdopted` what a Payment Link order gets. -/
inductive OrderWrite where
  | checkoutStarted
  | sessionSaved (sessionId : String)
  | sessionAdopted (sessionId : String)
  | checkoutFailed
  | completed (completion : CheckoutSessionCompletion) (adoptSession : Bool)
  | linkCompleted (paymentIntent : String) (livemode : Bool)
  | intentSynced (snapshot : PaymentIntentSnapshot) (reconciliation : Option ReconciliationStatus)
  | refunded (status : OrderStatus) (refundedTotal : ℤ)
  deriving DecidableEq, Repr

/-- The order after an update. -/
def OrderWrite.apply : OrderWrite → Order → Order
  | checkoutStarted, order => { order with status := .checkoutStarted }
  | sessionSaved sessionId, order =>
    { order with providerSessionId := sessionId, reconciliationStatus := .awaitingPayment }
  | sessionAdopted sessionId, order => { order with providerSessionId := sessionId }
  | checkoutFailed, order =>
    { order with status := .failed, reconciliationStatus := .providerError }
  | completed completion adoptSession, order =>
    { order with
      status := .completed
      providerPaymentIntentId := completion.paymentIntentId
      stripePaymentIntentId := completion.paymentIntentId
      discountCents := completion.discountMinor
      taxCents := completion.taxMinor
      shippingCents := completion.shippingMinor
      totalCents := completion.totalMinor
      reconciliationStatus := .reconciled
      providerPaymentStatus :=
        if completion.paymentIntentId = "" then order.providerPaymentStatus else .succeeded
      providerSessionId :=
        if adoptSession then completion.sessionId else order.providerSessionId }
  | linkCompleted paymentIntent livemode, order =>
    { order with
      status := .completed
      providerPaymentIntentId := paymentIntent
      stripePaymentIntentId := paymentIntent
      providerPaymentStatus :=
        if paymentIntent = "" then order.providerPaymentStatus else .succeeded
      livemode := livemode
      reconciliationStatus := .reconciled }
  | intentSynced snapshot reconciliation, order =>
    { order with
      providerPaymentIntentId := snapshot.paymentIntentId
      stripePaymentIntentId := snapshot.paymentIntentId
      providerPaymentStatus := snapshot.status
      paymentIntentEventCreated := snapshot.eventCreated
      reconciliationStatus := reconciliation.getD order.reconciliationStatus }
  | refunded status refundedTotal, order =>
    { order with status := status, refundedTotalCents := refundedTotal }

theorem OrderWrite.id_apply (write : OrderWrite) (order : Order) :
    (write.apply order).id = order.id := by
  cases write <;> rfl

/-! ### The refund ledger -/

/-- The JSON text in which a provider response is kept; `{}` is `none`. -/
structure ProviderResponse where
  id : String
  status : String
  amountMinor : ℤ
  livemode : Bool
  source : Option String
  deriving DecidableEq, Repr

/-- A row of the refunds table. -/
structure Refund where
  id : RowId
  purchaseId : RowId
  paymentIntentId : String
  stripeAccountId : String
  idempotencyKey : String
  amountMinor : ℤ
  targetRefundedTotalMinor : ℤ
  currency : String
  status : RefundStatus
  providerRefundId : String
  providerStatus : String
  providerReason : String
  note : String
  refundedBy : String
  livemode : Bool
  stripeEventCreated : ℤ
  responseJson : Option ProviderResponse
  lastError : String
  deriving DecidableEq, Repr

/-- The request to occupy an order's refund slot. -/
structure RefundClaim where
  purchaseId : RowId
  paymentIntentId : String
  stripeAccountId : String
  idempotencyKey : String
  amountMinor : ℤ
  targetRefundedTotalMinor : ℤ
  currency : String
  providerReason : String
  note : String
  refundedBy : String
  livemode : Bool
  deriving DecidableEq, Repr

/-- The row that `claim` inserts. -/
def RefundClaim.row (claim : RefundClaim) (id : RowId) : Refund where
  id := id
  purchaseId := claim.purchaseId
  paymentIntentId := claim.paymentIntentId
  stripeAccountId := claim.stripeAccountId
  idempotencyKey := claim.idempotencyKey
  amountMinor := claim.amountMinor
  targetRefundedTotalMinor := claim.targetRefundedTotalMinor
  currency := claim.currency
  status := .pending
  providerRefundId := ""
  providerStatus := ""
  providerReason := claim.providerReason
  note := claim.note
  refundedBy := claim.refundedBy
  livemode := claim.livemode
  stripeEventCreated := 0
  responseJson := none
  lastError := ""

/-- The conditions on a refund row that updates filter on. -/
inductive RefundFilter where
  | stripeEventCreated (value : ℤ)
  | providerStatus (value : String)
  deriving DecidableEq, Repr

def RefundFilter.matches (refund : Refund) : RefundFilter → Bool
  | stripeEventCreated value => refund.stripeEventCreated == value
  | providerStatus value => refund.providerStatus == value

/-- The column assignments of the updates of a refund row. -/
inductive RefundWrite where
  | revived
  | providerResponse (providerRefundId providerStatus : String) (livemode : Bool)
      (status : RefundStatus) (response : ProviderResponse)
  | webhookResponse (providerStatus : String) (livemode : Bool) (status : RefundStatus)
      (response : ProviderResponse) (eventCreated : ℤ)
  | succeeded
  | failed (message : String)
  | retryableError (message : String)
  deriving DecidableEq, Repr

/-- The refund row after an update. -/
def RefundWrite.apply : RefundWrite → Refund → Refund
  | revived, refund => { refund with status := .pending, lastError := "" }
  | providerResponse providerRefundId providerStatus livemode status response, refund =>
    { refund with
      providerRefundId := providerRefundId, providerStatus := providerStatus,
      livemode := livemode, status := status, responseJson := some response }
  | webhookResponse providerStatus livemode status response eventCreated, refund =>
    { refund with
      providerStatus := providerStatus, livemode := livemode, status := status,
      responseJson := some response, stripeEventCreated := eventCreated }
  | succeeded, refund => { refund with status := .succeeded, providerStatus := "succeeded" }
  | failed message, refund => { refund with status := .failed, lastError := message }
  | retryableError message, refund => { refund with status := .pending, lastError := message }

theorem RefundWrite.id_apply (write : RefundWrite) (refund : Refund) :
    (write.apply refund).id = refund.id := by
  cases write <;> rfl

/-! ### Provider operations -/

/-- A `refund.reconcile` row of the provider operations. -/
structure Operation where
  idempotencyKey : String
  aggregateId : RowId
  stripeAccountId : String
  status : OperationStatus
  attempts : ℕ
  processingOwner : Option RowId
  processingStartedAt : Option Instant
  nextAttemptAt : Option Instant
  lastError : String
  responseJson : Option ProviderResponse
  deriving DecidableEq, Repr

/-- The row that `ensure` inserts when the key has none. -/
def Operation.fresh (aggregateId : RowId) (stripeAccountId idempotencyKey : String) :
    Operation where
  idempotencyKey := idempotencyKey
  aggregateId := aggregateId
  stripeAccountId := stripeAccountId
  status := .pending
  attempts := 0
  processingOwner := none
  processingStartedAt := none
  nextAttemptAt := none
  lastError := ""
  responseJson := none

/-- `text.chars().take(1000)`. -/
def bounded (text : String) : String := String.ofList (text.toList.take 1000)

/-- The column assignments of the updates of an operation. -/
inductive OperationWrite where
  | deadLetterUnclaimed (reason : String)
  | claimed (attempts : ℕ) (owner : RowId) (now : Instant)
  | completed (response : Option ProviderResponse)
  | retried (attempts : ℕ) (message : String) (now : Instant)
  | resolved (succeeded : Bool) (response : Option ProviderResponse) (message : String)
  deriving DecidableEq, Repr

/-- The operation after an update. -/
def OperationWrite.apply : OperationWrite → Operation → Operation
  | deadLetterUnclaimed reason, operation =>
    { operation with
      status := .deadLetter, processingOwner := none, processingStartedAt := none,
      nextAttemptAt := none, lastError := bounded reason }
  | claimed attempts owner now, operation =>
    { operation with
      status := .processing, attempts := attempts, processingOwner := some owner,
      processingStartedAt := some now, nextAttemptAt := none }
  | completed response, operation =>
    { operation with
      status := .succeeded, responseJson := response, processingOwner := none,
      processingStartedAt := none, nextAttemptAt := none, lastError := "" }
  | retried attempts message now, operation =>
    if attempts ≥ maxAttempts then
      { operation with
        status := .deadLetter, processingOwner := none, processingStartedAt := none,
        nextAttemptAt := none, lastError := bounded message }
    else
      { operation with
        status := .failed, processingOwner := none, processingStartedAt := none,
        nextAttemptAt := some (retryAt now attempts), lastError := bounded message }
  | resolved succeeded response message, operation =>
    { operation with
      status := if succeeded then .succeeded else .deadLetter
      responseJson := response, lastError := bounded message, processingOwner := none,
      processingStartedAt := none, nextAttemptAt := none }

theorem OperationWrite.idempotencyKey_apply (write : OperationWrite) (operation : Operation) :
    (write.apply operation).idempotencyKey = operation.idempotencyKey := by
  cases write with
  | retried attempts message now =>
    simp only [apply]
    split <;> rfl
  | deadLetterUnclaimed | claimed | completed | resolved => rfl

theorem OperationWrite.aggregateId_apply (write : OperationWrite) (operation : Operation) :
    (write.apply operation).aggregateId = operation.aggregateId := by
  cases write with
  | retried attempts message now =>
    simp only [apply]
    split <;> rfl
  | deadLetterUnclaimed | claimed | completed | resolved => rfl

end Commerce

end Products
