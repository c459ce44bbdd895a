import Impresspress.Products.Commerce.Store

/-!
# The writers of an order

Checkout, the Checkout Session and PaymentIntent webhooks, and the reconciliation of a refunded
total. Each reads the order, checks it, and updates it: under a condition on what it has read,
or, in a checkout after its call to Stripe, without one.

How the handlers wrap an error into an HTTP answer is left out.

Source: `blocks/products/repo/purchases.rs` and `blocks/products/stripe.rs`.
-/

namespace Products

namespace Commerce

/-! ### Amounts and currencies -/

/-- The characters that `str::trim` takes off. -/
def isWhiteSpace (c : Char) : Bool :=
  (9 ≤ c.toNat && c.toNat ≤ 13) || c.toNat == 0x20 || c.toNat == 0x85 || c.toNat == 0xA0 ||
    c.toNat == 0x1680 || (0x2000 ≤ c.toNat && c.toNat ≤ 0x200A) || c.toNat == 0x2028 ||
    c.toNat == 0x2029 || c.toNat == 0x202F || c.toNat == 0x205F || c.toNat == 0x3000

/-- `str::trim`. -/
def trim (text : String) : String :=
  String.ofList
    (((text.toList.dropWhile isWhiteSpace).reverse.dropWhile isWhiteSpace).reverse)

/-- `str::to_ascii_uppercase`. -/
def toAsciiUppercase (text : String) : String := String.ofList (text.toList.map Char.toUpper)

/-- A three-letter currency code, in capitals. -/
def normalizeCurrency (value : String) : Option String :=
  if (trim value).utf8ByteSize = 3 ∧ (trim value).toList.all Char.isAlpha then
    some (toAsciiUppercase (trim value))
  else none

/-- A value as `i64`, when it fits. -/
def asI64 (value : ℤ) : Option ℤ := if -2 ^ 63 ≤ value ∧ value < 2 ^ 63 then some value else none

/-- The platform's share of an amount, in basis points; the division rounds towards zero. -/
def applicationFee (totalMinor : ℤ) (basisPoints : ℕ) : Except WaferError ℤ :=
  match asI64 ((totalMinor * basisPoints).tdiv 10000) with
  | none => .error ⟨.invalidArgument, "application fee is too large"⟩
  | some fee => .ok fee

/-- `subtotal - discount + tax + shipping`, unless a step overflows. -/
def expectedTotal (subtotal discount tax shipping : ℤ) : Option ℤ := do
  let value ← asI64 (subtotal - discount)
  let value ← asI64 (value + tax)
  asI64 (value + shipping)

theorem expectedTotal_eq {subtotal discount tax shipping total : ℤ}
    (h : expectedTotal subtotal discount tax shipping = some total) :
    total = subtotal - discount + tax + shipping := by
  have hasI64 : ∀ {value result : ℤ}, asI64 value = some result → result = value := by
    intro value result h
    unfold asI64 at h
    split at h <;> simp_all
  simp only [expectedTotal, Option.bind_eq_bind, Option.bind_eq_some_iff] at h
  obtain ⟨first, hfirst, second, hsecond, htotal⟩ := h
  rw [hasI64 htotal, hasI64 hsecond, hasI64 hfirst]

/-! ### PaymentIntents -/

def invalidIntent (message : String) : WaferError :=
  ⟨.failedPrecondition, "PaymentIntent reconciliation failed: " ++ message⟩

/-- The first disagreement between a PaymentIntent and the order it names. -/
def intentConflict (snapshot : PaymentIntentSnapshot) (currency : String) (purchase : Order)
    (metadata : CheckoutMetadata) : Option String :=
  if metadata.offerMode ≠ some "payment" then
    some "order is not a payment-mode Checkout"
  else if snapshot.purchaseId.isSome ∧
      (snapshot.offerId = "" ∨ snapshot.offerId ≠ metadata.offerId.getD "" ∨
        snapshot.offerVersion ≠ asU32 metadata.offerVersion) then
    some "metadata offer identity/version does not match the order"
  else if purchase.stripeAccountId ≠ snapshot.stripeAccountId then
    some "Stripe account does not match the order"
  else if purchase.livemode ≠ snapshot.livemode then
    some "test/live mode does not match the order"
  else if purchase.currency ≠ currency then
    some "currency does not match the order"
  else if purchase.providerPaymentIntentId ≠ "" ∧
      purchase.providerPaymentIntentId ≠ snapshot.paymentIntentId then
    some "PaymentIntent id does not match the order"
  else none

/-- What an unpaid order records of a PaymentIntent's status. -/
def intentReconciliation : ProviderPaymentStatus → Option ReconciliationStatus
  | .succeeded => some .paymentSucceededAwaitingCheckout
  | .paymentFailed => some .paymentFailed
  | .processing => some .paymentProcessing
  | .requiresAction => some .paymentRequiresAction
  | .canceled => some .paymentCanceled
  | .unset => none

/-- The update of `sync_payment_intent` on the order as it was read. Its row count is dropped. -/
def writeIntent (snapshot : PaymentIntentSnapshot) (purchase : Order)
    (reconciliation : Option ReconciliationStatus) : CommerceProgram (Option Order) := do
  let _ ← call (.updateOrder purchase.id
    [.status purchase.status, .providerPaymentIntentId purchase.providerPaymentIntentId,
      .paymentIntentEventCreatedLe snapshot.eventCreated]
    (.intentSynced snapshot reconciliation))
  let current ← call (.getOrder purchase.id)
  return some current

/-- The order a PaymentIntent belongs to: the one it names, else the one that has its id. -/
def findForIntent (snapshot : PaymentIntentSnapshot) : CommerceProgram (Option Order) :=
  match snapshot.purchaseId with
  | none => optional (call (.orderByPaymentIntent snapshot.paymentIntentId))
  | some id => optional (call (.getOrder id))

/-- Record the state of a PaymentIntent on the order that was found for it. -/
def syncPurchase (snapshot : PaymentIntentSnapshot) (currency : String) (purchase : Order) :
    CommerceProgram (Option Order) :=
  match purchase.metadata with
  | none => return none
  | some metadata =>
    match intentConflict snapshot currency purchase metadata with
    | some message => throw (invalidIntent message)
    | none =>
      if purchase.paymentIntentEventCreated > snapshot.eventCreated then
        return some purchase
      else if purchase.status.isPaid then
        -- Checkout fulfils an order: a late failure does not undo it
        if snapshot.status ≠ .succeeded then
          return some purchase
        else if purchase.totalCents ≠ snapshot.amountMinor then
          throw (invalidIntent "amount does not match the completed order")
        else
          writeIntent snapshot purchase none
      else if purchase.status = .failed ∧ snapshot.status = .succeeded then
        throw (invalidIntent "a succeeded PaymentIntent conflicts with a terminal failed order")
      else
        match intentReconciliation snapshot.status with
        | none => throw (invalidIntent "PaymentIntent event carried no status")
        | some reconciliation => writeIntent snapshot purchase (some reconciliation)

/-- Record the state of a PaymentIntent on its order. -/
def syncPaymentIntent (snapshot : PaymentIntentSnapshot) : CommerceProgram (Option Order) := do
  if snapshot.paymentIntentId = "" ∨ snapshot.eventCreated < 0 ∨ snapshot.amountMinor < 0 ∨
      snapshot.status = .unset then
    throw (invalidIntent
      "id, supported status, non-negative amount, and event timestamp are required")
  else
    match normalizeCurrency snapshot.currency with
    | none => throw (invalidIntent "currency is invalid")
    | some currency =>
      match ← findForIntent snapshot with
      | none => return none
      | some purchase => syncPurchase snapshot currency purchase

/-- The kinds of PaymentIntent event that are handled. -/
inductive PaymentIntentKind where
  | succeeded
  | paymentFailed
  | processing
  | requiresAction
  | canceled
  deriving DecidableEq, Repr

/-- A PaymentIntent event as it is delivered. -/
structure PaymentIntentEvent where
  kind : PaymentIntentKind
  objectStatus : String
  objectLivemode : Option Bool
  eventLivemode : Bool
  eventAccount : String
  eventCreated : ℤ
  paymentIntentId : String
  purchaseId : Option RowId
  offerId : String
  offerVersion : Option ℕ
  amount : Option ℤ
  currency : String
  deriving DecidableEq, Repr

/-- The status an event reports, when its kind and its object agree. -/
def PaymentIntentEvent.status (event : PaymentIntentEvent) : Option ProviderPaymentStatus :=
  match event.kind with
  | .succeeded => if event.objectStatus = "succeeded" then some .succeeded else none
  | .paymentFailed => some .paymentFailed
  | .processing => if event.objectStatus = "processing" then some .processing else none
  | .requiresAction => if event.objectStatus = "requires_action" then some .requiresAction else none
  | .canceled => if event.objectStatus = "canceled" then some .canceled else none

def PaymentIntentEvent.snapshot (event : PaymentIntentEvent) (status : ProviderPaymentStatus) :
    PaymentIntentSnapshot where
  purchaseId := event.purchaseId
  offerId := event.offerId
  offerVersion := asU32 event.offerVersion
  paymentIntentId := event.paymentIntentId
  stripeAccountId := event.eventAccount
  livemode := event.eventLivemode
  status := status
  amountMinor := event.amount.getD (-1)
  currency := event.currency
  eventCreated := event.eventCreated

/-- The `payment_intent.*` arms of the webhook. -/
def handlePaymentIntent (event : PaymentIntentEvent) : CommerceProgram Unit := do
  match event.status with
  | none => internalError "PaymentIntent event type does not match its object status"
  | some status =>
    if event.objectLivemode.any fun livemode => livemode != event.eventLivemode then
      internalError "PaymentIntent event and object test/live modes do not match"
    else do
      let _ ← syncPaymentIntent (event.snapshot status)
      return ()

/-! ### Refunded totals -/

/-- Bring the order's refunded total up to a cumulative target. -/
def reconcileRefundTotal (id : RowId) (targetRefundedTotal : ℤ) : CommerceProgram Order := do
  let purchase ← call (.getOrder id)
  if purchase.totalCents ≤ 0 ∨ targetRefundedTotal ≤ 0 ∨
      targetRefundedTotal > purchase.totalCents then
    throw ⟨.invalidArgument, "refunded total must be positive and no greater than the order total"⟩
  else if purchase.refundedTotalCents ≥ targetRefundedTotal then
    return purchase
  else if ¬ purchase.status.isRefundable then
    throw ⟨.failedPrecondition, "purchase is not in a refundable state"⟩
  else
    let rows ← call (.updateOrder id
      [.refundedTotalCents purchase.refundedTotalCents,
        .statusIn [.completed, .partiallyRefunded]]
      (.refunded (if targetRefundedTotal = purchase.totalCents then .refunded
        else .partiallyRefunded) targetRefundedTotal))
    let reconciled ← call (.getOrder id)
    if rows = 1 ∨ reconciled.refundedTotalCents ≥ targetRefundedTotal then
      return reconciled
    else
      throw ⟨.failedPrecondition, "purchase refund state changed concurrently"⟩

/-- A `charge.refunded` event as it is delivered. -/
structure ChargeRefundedEvent where
  eventAccount : String
  objectLivemode : Option Bool
  eventLivemode : Option Bool
  paymentIntent : String
  amount : Option ℤ
  amountRefunded : Option ℤ
  refunded : Option Bool
  deriving DecidableEq, Repr

/-- The cumulative amount that a refunded charge reports, where it reports one. -/
def ChargeRefundedEvent.target (event : ChargeRefundedEvent) (purchaseTotal : ℤ) : Option ℤ :=
  if event.amountRefunded.getD 0 > 0 then
    some (event.amountRefunded.getD 0)
  else if event.refunded.getD false ∨ (event.amountRefunded.isNone ∧ event.refunded.isNone) then
    some purchaseTotal
  else none

/-- The `charge.refunded` arm of the webhook. -/
def handleChargeRefunded (event : ChargeRefundedEvent) : CommerceProgram Unit := do
  if event.paymentIntent = "" then
    return ()
  else
    match ← optional (call (.orderByPaymentIntent event.paymentIntent)) with
    | none => return ()
    | some purchase =>
      if event.eventAccount ≠ purchase.stripeAccountId then
        internalError "Refunded charge connected account does not match its purchase"
      else if (event.objectLivemode.or event.eventLivemode).any
          fun livemode => livemode != purchase.livemode then
        internalError "Refunded charge mode does not match its purchase"
      else if event.amount.getD 0 > 0 ∧ event.amount.getD 0 ≠ purchase.totalCents then
        internalError "Refunded charge total does not match its purchase"
      else
        match event.target purchase.totalCents with
        | none => internalError "Refunded charge event is missing its cumulative refunded amount"
        | some target => do
          let _ ← reconcileRefundTotal purchase.id target
          return ()

/-! ### Checkout Sessions -/

/-- The disagreement on the offer between a session and the order's metadata. -/
def offerConflict (metadata : CheckoutMetadata) (completion : CheckoutSessionCompletion) :
    Option String :=
  if metadata.offerMode.getD "" ≠ completion.mode then
    some "Checkout mode does not match the offer"
  else if metadata.offerId.getD "" ≠ completion.offerId ∨
      asU32 metadata.offerVersion ≠ completion.offerVersion then
    some "offer identity/version does not match the order"
  else none

/-- The disagreement between a session and the order on who, where and how much. -/
def identityConflict (purchaseId : RowId) (purchase : Order)
    (completion : CheckoutSessionCompletion) : Option String :=
  if completion.clientReferenceId ≠ some purchaseId then
    some "client reference does not match the order"
  else if purchase.stripeAccountId ≠ completion.eventAccount then
    some "Stripe account does not match the order"
  else if purchase.livemode ≠ completion.livemode then
    some "test/live mode does not match the order"
  else if purchase.currency ≠ toAsciiUppercase completion.currency then
    some "currency does not match the order"
  else if purchase.subtotalCents ≠ completion.subtotalMinor then
    some "subtotal does not match the immutable quote"
  else none

/-- Whether the order's snapshot offers shipping at the amount. -/
def shippingAllowed (metadata : CheckoutMetadata) (shippingMinor : ℤ) : Bool :=
  match metadata.allowedShippingAmountsMinor with
  | some amounts => amounts.contains shippingMinor
  | none => shippingMinor == 0

/-- The disagreement on the amounts of a completed session. -/
def amountConflict (metadata : CheckoutMetadata) (completion : CheckoutSessionCompletion) :
    Option String :=
  if ¬ shippingAllowed metadata completion.shippingMinor then
    some "shipping amount is not allowed by the order snapshot"
  else
    match expectedTotal completion.subtotalMinor completion.discountMinor completion.taxMinor
        completion.shippingMinor with
    | none => some "amount breakdown overflowed"
    | some total =>
      if completion.totalMinor ≠ total then
        some "amount breakdown is inconsistent"
      else if completion.paymentStatus ≠ "paid" ∧
          completion.paymentStatus ≠ "no_payment_required" then
        some "payment is not complete"
      else none

/-- What a completed session must carry in its mode. -/
def modeConflict (metadata : CheckoutMetadata) (completion : CheckoutSessionCompletion) :
    Option String :=
  let mode := metadata.offerMode.getD ""
  if mode = "payment" ∧ completion.paymentIntentId = "" ∧
      completion.paymentStatus ≠ "no_payment_required" then
    some "paid one-time Checkout is missing its PaymentIntent"
  else if mode = "subscription" ∧ completion.subscriptionId = "" then
    some "subscription Checkout is missing its Subscription"
  else if mode = "payment" ∨ mode = "subscription" then none
  else some "order has an unsupported Checkout mode"

/-- The first disagreement between a completed session and its order. An order without a session
id may adopt the session's. -/
def completionConflict (purchaseId : RowId) (purchase : Order)
    (completion : CheckoutSessionCompletion) : Option String :=
  if completion.sessionId = "" ∨
      (purchase.providerSessionId ≠ "" ∧ purchase.providerSessionId ≠ completion.sessionId) then
    some "session id does not match the order"
  else
    (identityConflict purchaseId purchase completion).or
      (if completion.discountMinor < 0 ∨ completion.taxMinor < 0 ∨ completion.shippingMinor < 0 then
        some "discount, tax, and shipping amounts must not be negative"
      else
        match purchase.metadata with
        | none => some "order metadata is invalid"
        | some metadata =>
          (amountConflict metadata completion).or
            ((offerConflict metadata completion).or (modeConflict metadata completion)))

/-- The orders that a checkout may complete or fail. -/
def awaitingStatuses : List OrderStatus := [.checkoutStarted, .pending]

/-- Complete an order from its Checkout Session, once they agree. -/
def reconcileCheckoutSession (purchaseId : RowId) (completion : CheckoutSessionCompletion) :
    CommerceProgram ℕ := do
  let purchase ← call (.getOrder purchaseId)
  match completionConflict purchaseId purchase completion with
  | some message =>
    throw ⟨.failedPrecondition, "Checkout Session reconciliation failed: " ++ message⟩
  | none =>
    call (.updateOrder purchaseId
      [.statusIn awaitingStatuses, .providerSessionId purchase.providerSessionId]
      (.completed completion (purchase.providerSessionId == "")))

/-- The completed-session arms of the webhook, for a session that names an order. A session that
is still unpaid is not acted on. -/
def handleSessionCompleted (purchaseId : RowId) (completion : CheckoutSessionCompletion) :
    CommerceProgram Unit := do
  if completion.paymentStatus = "unpaid" then
    return ()
  else
    let _ ← reconcileCheckoutSession purchaseId completion
    return ()

/-- The first disagreement between a failed session and its order. -/
def failureConflict (purchaseId : RowId) (purchase : Order)
    (completion : CheckoutSessionCompletion) : Option String :=
  if purchase.providerSessionId = "" ∨ purchase.providerSessionId ≠ completion.sessionId then
    some "session id does not match the order"
  else
    (identityConflict purchaseId purchase completion).or
      (match purchase.metadata with
      | none => some "order metadata is invalid"
      | some metadata => offerConflict metadata completion)

/-- Fail an order from its Checkout Session, once they agree. -/
def reconcileCheckoutFailure (purchaseId : RowId) (completion : CheckoutSessionCompletion) :
    CommerceProgram ℕ := do
  let purchase ← call (.getOrder purchaseId)
  match failureConflict purchaseId purchase completion with
  | some message =>
    throw ⟨.failedPrecondition, "Checkout Session failure reconciliation failed: " ++ message⟩
  | none =>
    call (.updateOrder purchaseId
      [.statusIn awaitingStatuses, .providerSessionId completion.sessionId] .checkoutFailed)

/-- Complete the order of a Payment Link. -/
def completeCheckoutAtomic (purchaseId : RowId) (paymentIntent : String) (livemode : Bool) :
    CommerceProgram ℕ :=
  call (.updateOrder purchaseId [.statusIn awaitingStatuses] (.linkCompleted paymentIntent livemode))

/-! ### Checkouts -/

/-- Undo the creation of an order. -/
def deleteWithLineItems (purchaseId : RowId) : CommerceProgram Unit := do
  call (.deleteLineItems purchaseId)
  call (.deleteOrder purchaseId)

/-- Insert the lines of an order; when one fails, the order is taken back. -/
def addLineItems (purchaseId : RowId) : ℕ → CommerceProgram Unit
  | 0 => pure ()
  | items + 1 => do
    match ← attempt (call (.addLineItem purchaseId)) with
    | .ok () => addLineItems purchaseId items
    | .error error =>
      let _ ← attempt (deleteWithLineItems purchaseId)
      throw error

/-- Create an order and its lines. -/
def createCheckoutOrder (snapshot : CheckoutOrderSnapshot) : CommerceProgram Order := do
  let purchase ← call (.createOrder snapshot)
  addLineItems purchase.id snapshot.items
  return purchase

/-- Take a pending order for a checkout. -/
def claimForCheckout (purchaseId : RowId) : CommerceProgram ℕ :=
  call (.updateOrder purchaseId [.status .pending] .checkoutStarted)

/-- Mark an order failed, whatever its state; a failure to do so is only logged. -/
def recordCheckoutFailure (orderId : RowId) : CommerceProgram Unit := do
  let _ ← attempt (call (.setOrder orderId .checkoutFailed))
  return ()

inductive CheckoutPresentation where
  | hosted
  | embedded
  | paymentLink
  deriving DecidableEq, Repr

/-- Whether a session can be shown to the buyer. -/
def SessionObject.usable (session : SessionObject) (presentation : CheckoutPresentation) : Bool :=
  session.id != "" &&
    match presentation with
    | .hosted => session.url.isSome
    | .embedded => session.clientSecret.isSome
    | .paymentLink => false

/-- A priced offer: `evaluate_offer` accepts only a positive total, and knows of no discount, tax
or shipping yet. -/
structure CheckoutQuote where
  currency : String
  subtotalMinor : ℤ
  platformFeeMinor : ℤ
  positive : 0 < subtotalMinor

def CheckoutQuote.amounts (quote : CheckoutQuote) : MoneyBreakdown where
  currency := quote.currency
  subtotalMinor := quote.subtotalMinor
  discountMinor := 0
  taxMinor := 0
  shippingMinor := 0
  totalMinor := quote.subtotalMinor
  platformFeeMinor := quote.platformFeeMinor

/-- A checkout of a priced offer. `prepared` is what becomes of the request to Stripe before it
is sent: the tax setting, the platform's country and the form can each fail. -/
structure CheckoutRequest where
  stripeAccountId : String
  offerMode : String
  offerId : String
  offerVersion : ℕ
  livemode : Bool
  allowedShippingAmountsMinor : List ℤ
  quote : CheckoutQuote
  items : ℕ
  presentation : CheckoutPresentation
  prepared : Except WaferError Unit

def CheckoutRequest.snapshot (request : CheckoutRequest) : CheckoutOrderSnapshot where
  stripeAccountId := request.stripeAccountId
  offerMode := request.offerMode
  offerId := request.offerId
  offerVersion := request.offerVersion
  livemode := request.livemode
  allowedShippingAmountsMinor := request.allowedShippingAmountsMinor
  amounts := request.quote.amounts
  items := request.items

/-- Create an order for a priced offer and open its Checkout Session; answers the order's id. -/
def handleOfferCheckout (request : CheckoutRequest) : CommerceProgram RowId := do
  let order ← createCheckoutOrder request.snapshot
  let rows ← claimForCheckout order.id
  if rows ≠ 1 then
    internalError "Checkout order could not be claimed"
  else
    match request.prepared with
    | .error error => do
      recordCheckoutFailure order.id
      throw error
    | .ok () =>
      match ← attempt (call (.stripeCreateSession order.id)) with
      | .error error => do
        recordCheckoutFailure order.id
        throw error
      | .ok session =>
        if ¬ session.usable request.presentation then do
          recordCheckoutFailure order.id
          internalError "Stripe response missing required Checkout Session fields"
        else do
          let _ ← call (.setOrder order.id (.sessionSaved session.id))
          return order.id

/-! ### Payment Links -/

/-- A stored Payment Link: the row, and the version and amounts of its pricing snapshot. -/
structure StoredPaymentLink where
  stripeAccountId : String
  livemode : Bool
  stripePaymentLinkId : String
  pricing : Option (ℕ × MoneyBreakdown)
  feeBasisPoints : ℕ
  deriving DecidableEq, Repr

inductive OfferMode where
  | payment
  | subscription
  deriving DecidableEq, Repr

def OfferMode.asStr : OfferMode → String
  | payment => "payment"
  | subscription => "subscription"

/-- An offer that is sold through a Payment Link. -/
structure LinkOffer where
  id : String
  version : ℕ
  mode : OfferMode
  allowedShippingAmountsMinor : List ℤ
  deriving DecidableEq, Repr

/-- A completed Checkout Session of a Payment Link, with what the rows it names hold: the link,
its offer, and the number of lines that the pricing snapshot resolves to. -/
structure LinkSession where
  eventAccount : String
  eventLivemode : Bool
  sessionId : String
  livemode : Option Bool
  paymentLink : String
  currency : String
  amountSubtotal : Option ℤ
  amountDiscount : Option ℤ
  amountTax : Option ℤ
  amountShipping : Option ℤ
  amountTotal : Option ℤ
  offerVersion : Option ℕ
  mode : String
  paymentStatus : String
  paymentIntent : String
  subscription : String
  stored : Except WaferError StoredPaymentLink
  offer : Except WaferError LinkOffer
  items : Except WaferError ℕ

/-- The pre-completion checks of a Payment Link's session; answers what its order is created
from. -/
def LinkSession.review (session : LinkSession) : Except WaferError CheckoutOrderSnapshot := do
  let invalid (message : String) : Except WaferError CheckoutOrderSnapshot :=
    .error ⟨.invalidArgument, message⟩
  let conflict (message : String) : Except WaferError CheckoutOrderSnapshot :=
    .error ⟨.failedPrecondition, message⟩
  let stored ← session.stored
  if stored.stripeAccountId ≠ session.eventAccount then
    conflict "Payment Link webhook account does not match the configured seller"
  else
    match session.livemode with
    | none => invalid "Payment Link Checkout Session is missing livemode"
    | some livemode =>
      if stored.livemode ≠ session.eventLivemode ∨ livemode ≠ session.eventLivemode then
        conflict "Payment Link webhook mode does not match its stored provider context"
      else if session.paymentLink ≠ stored.stripePaymentLinkId then
        invalid "Checkout Session does not belong to the expected Payment Link"
      else
        match stored.pricing with
        | none => conflict "Payment Link is missing its immutable pricing snapshot"
        | some (pricedVersion, amounts) => do
          let offer ← session.offer
          if offer.version ≠ pricedVersion then
            conflict "Payment Link offer version no longer matches its immutable quote"
          else if toAsciiUppercase session.currency ≠ amounts.currency then
            invalid "Payment Link Checkout Session currency does not match the expected quote"
          else
            match session.amountSubtotal with
            | none => invalid "Payment Link Checkout Session is missing amount_subtotal"
            | some subtotal =>
              if subtotal ≠ amounts.subtotalMinor then
                invalid
                  "Payment Link Checkout Session subtotal does not match the immutable quote"
              else
                priced session stored offer amounts subtotal
where
  /-- The checks from the discount on. -/
  priced (session : LinkSession) (stored : StoredPaymentLink) (offer : LinkOffer)
      (amounts : MoneyBreakdown) (subtotal : ℤ) : Except WaferError CheckoutOrderSnapshot := do
    let invalid (message : String) : Except WaferError CheckoutOrderSnapshot :=
      .error ⟨.invalidArgument, message⟩
    let discount := session.amountDiscount.getD 0
    let tax := session.amountTax.getD 0
    let shipping := session.amountShipping.getD 0
    if shipping < 0 ∨ ¬ offer.allowedShippingAmountsMinor.contains shipping then
      invalid
        "Payment Link Checkout Session shipping amount is not allowed by its immutable offer"
    else
      match session.amountTotal with
      | none => invalid "Payment Link Checkout Session is missing amount_total"
      | some total =>
        match expectedTotal subtotal discount tax shipping with
        | none => invalid "Payment Link Checkout Session amount breakdown overflowed"
        | some expected =>
          if total ≠ expected then
            invalid "Payment Link Checkout Session amount breakdown is inconsistent"
          else if asU32 session.offerVersion ≠ offer.version then
            invalid
              "Payment Link Checkout Session offer version does not match its immutable quote"
          else if session.mode ≠ offer.mode.asStr then
            invalid "Payment Link Checkout Session mode does not match its offer"
          else if session.paymentStatus ≠ "paid" ∧
              session.paymentStatus ≠ "no_payment_required" then
            .error ⟨.failedPrecondition,
              "Payment Link Checkout Session payment is not complete"⟩
          else do
            let fee ← applicationFee (if offer.mode = .payment then subtotal else total)
              stored.feeBasisPoints
            let items ← session.items
            return {
              stripeAccountId := stored.stripeAccountId
              offerMode := offer.mode.asStr
              offerId := offer.id
              offerVersion := offer.version
              livemode := stored.livemode
              allowedShippingAmountsMinor := offer.allowedShippingAmountsMinor
              amounts := ⟨amounts.currency, amounts.subtotalMinor, discount, tax, shipping, total,
                fee⟩
              items := items }

/-- What a paid session must carry in its mode. -/
def LinkSession.modeConflict (session : LinkSession) : Option String :=
  if session.mode = "payment" ∧ session.paymentIntent = "" ∧
      session.paymentStatus ≠ "no_payment_required" then
    some "Paid Payment Link Checkout is missing its PaymentIntent"
  else if session.mode = "subscription" ∧ session.subscription = "" then
    some "Subscription Payment Link Checkout is missing its Subscription"
  else none

/-- The order of a session, created unless an earlier delivery has created it. -/
def LinkSession.order (session : LinkSession) (snapshot : CheckoutOrderSnapshot) :
    Option Order → CommerceProgram Order
  | some order => return order
  | none => do
    let order ← createCheckoutOrder snapshot
    let _ ← call (.setOrder order.id (.sessionAdopted session.sessionId))
    return order

/-- Create and complete the order of a Payment Link's session. -/
def reconcilePaymentLinkSession (session : LinkSession) : CommerceProgram Unit := do
  if session.sessionId = "" then
    throw ⟨.invalidArgument, "Payment Link Checkout Session is missing its id"⟩
  else
    let existing ← optional (call (.orderBySession session.sessionId))
    -- an order that has left checkout makes this a redelivery
    if existing.any fun order => !order.status.awaitsCompletion then
      return ()
    else
      let snapshot ← ExceptT.mk (pure session.review)
      let order ← session.order snapshot existing
      match session.modeConflict with
      | some message => throw ⟨.invalidArgument, message⟩
      | none =>
        let rows ← completeCheckoutAtomic order.id session.paymentIntent snapshot.livemode
        if rows ≠ 1 then
          throw ⟨.aborted, "Payment Link order could not be completed atomically"⟩
        else
          return ()

end Commerce

end Products
