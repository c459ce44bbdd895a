import Impresspress.Concurrent.Program
import Impresspress.Products.Commerce.Tables
import Impresspress.Relational.Table

/-!
# The store of commerce orders

The statements that the block issues on the three tables, and the requests it sends to Stripe. A
statement may fail as a whole and then leaves the tables as they are; a write that a unique index
refuses fails too.

Source: `blocks/products/repo/purchases.rs`, `repo/refunds.rs`, `repo/provider_operations.rs`,
`stripe_client.rs`, and migrations 005, 008, 016, 017 and 018.
-/

namespace Products

namespace Commerce

open Relational

/-! ### Stripe -/

/-- How a request to Stripe ended: it did not get through, it was answered with an error status
(400 or more) and Stripe's code for it, its answer was not JSON, or it was answered. -/
inductive StripeReply (α : Type) where
  | unreachable (cause : String)
  | refused (statusCode : ℕ) (code : String)
  | unreadable
  | body (value : α)
  deriving DecidableEq, Repr

/-- The one place a Stripe HTTP status becomes an error code: 409, 429 and 5xx are ambiguous and
classify like a transport failure; the remaining 4xx are definite rejections. -/
def classify (statusCode : ℕ) (code : String) : WaferError :=
  if statusCode = 409 ∨ statusCode = 429 ∨ statusCode ≥ 500 then
    ⟨.internal, s!"Stripe request could not be completed (HTTP {statusCode}, code {code})"⟩
  else
    ⟨.failedPrecondition, s!"Stripe rejected the request (HTTP {statusCode}, code {code})"⟩

/-- The result of `request_json`. -/
def StripeReply.result {α : Type} : StripeReply α → Except WaferError α
  | unreachable cause => .error ⟨.internal, "Stripe request could not be completed: " ++ cause⟩
  | refused statusCode code => .error (classify statusCode code)
  | unreadable => .error ⟨.internal, "Stripe returned an unreadable response"⟩
  | body value => .ok value

/-- A refund object of Stripe's, as far as it is decoded. -/
structure RefundObject where
  id : String
  status : String
  amount : Option ℤ
  paymentIntent : String
  livemode : Option Bool
  deriving DecidableEq, Repr

/-- A Checkout Session of Stripe's, as far as it is decoded. -/
structure SessionObject where
  id : String
  url : Option String
  clientSecret : Option String
  deriving DecidableEq, Repr

structure StripeRefundParams where
  purchaseId : RowId
  paymentIntentId : String
  stripeAccountId : String
  idempotencyKey : String
  amountMinor : ℤ
  providerReason : String
  refundApplicationFee : Bool
  expectedLivemode : Bool
  deriving DecidableEq, Repr

/-! ### The store -/

/-- Orders are told apart by their id alone. -/
def orderSchema : Schema Order RowId where
  key := Order.id
  clash _ _ := false

/-- The unique indexes of the refund ledger: the idempotency key, the provider's id once there is
one, and at most one active refund of an order. -/
def refundSchema : Schema Refund RowId where
  key := Refund.id
  clash a b :=
    a.idempotencyKey == b.idempotencyKey ||
    (a.providerRefundId != "" && a.providerRefundId == b.providerRefundId) ||
    (a.status.isActive && b.status.isActive && a.purchaseId == b.purchaseId)

def operationSchema : Schema Operation String where
  key := Operation.idempotencyKey
  clash _ _ := false

/-- The three tables, the clock, and the next fresh id. -/
structure CommerceStore where
  orders : Table orderSchema
  refunds : Table refundSchema
  operations : Table operationSchema
  clock : Instant
  nextId : RowId

/-- The statements on the tables and the requests to Stripe. An `update` is
`update_by_filters_count` and answers the number of rows, a `set` is an unconditional `update`
and answers the row. -/
inductive CommerceCall where
  | utcNow
  | newUuid
  | getOrder (id : RowId)
  | orderByPaymentIntent (paymentIntent : String)
  | orderBySession (sessionId : String)
  | createOrder (snapshot : CheckoutOrderSnapshot)
  | addLineItem (purchaseId : RowId)
  | deleteLineItems (purchaseId : RowId)
  | deleteOrder (id : RowId)
  | updateOrder (id : RowId) (filters : List OrderFilter) (write : OrderWrite)
  | setOrder (id : RowId) (write : OrderWrite)
  | getRefund (id : RowId)
  | refundByKey (idempotencyKey : String)
  | refundByProviderId (providerRefundId : String)
  | activeRefund (purchaseId : RowId)
  | createRefund (claim : RefundClaim)
  | updateRefund (id : RowId) (filters : List RefundFilter) (write : RefundWrite)
  | setRefund (id : RowId) (write : RefundWrite)
  | upsertOperation (operation : Operation)
  | operationByKey (idempotencyKey : String)
  | operationsFor (aggregateId : RowId)
  | openOperations (limit : ℕ)
  | updateOperation (key : String) (status : OperationStatus) (owner : Option RowId)
      (write : OperationWrite)
  | setOperation (key : String) (write : OperationWrite)
  | loadStripeClient
  | stripeCreateRefund (params : StripeRefundParams)
  | stripeRetrieveRefund (params : StripeRefundParams) (refundId : String)
  | stripeCreateSession (purchaseId : RowId)
  deriving DecidableEq, Repr

/-- What each call answers when it does not fail. -/
@[reducible] def CommerceReply : CommerceCall → Type
  | .utcNow => Instant
  | .newUuid => RowId
  | .getOrder _ => Order
  | .orderByPaymentIntent _ => Order
  | .orderBySession _ => Order
  | .createOrder _ => Order
  | .addLineItem _ => Unit
  | .deleteLineItems _ => Unit
  | .deleteOrder _ => Unit
  | .updateOrder .. => ℕ
  | .setOrder .. => Order
  | .getRefund _ => Refund
  | .refundByKey _ => Refund
  | .refundByProviderId _ => Refund
  | .activeRefund _ => Option Refund
  | .createRefund _ => Refund
  | .updateRefund .. => ℕ
  | .setRefund .. => Refund
  | .upsertOperation _ => Unit
  | .operationByKey _ => Operation
  | .operationsFor _ => List Operation
  | .openOperations _ => List Operation
  | .updateOperation .. => ℕ
  | .setOperation .. => Operation
  | .loadStripeClient => Bool
  | .stripeCreateRefund _ => RefundObject
  | .stripeRetrieveRefund .. => RefundObject
  | .stripeCreateSession _ => SessionObject

@[reducible] def CommerceAnswer (c : CommerceCall) : Type := Except WaferError (CommerceReply c)

/-- What the outside has in store for a call: the time that passes before it, whether the
database fails it, and what Stripe answers. -/
structure Chance where
  elapsed : ℕ := 0
  failure : Option WaferError := none
  client : Except WaferError Bool := .ok false
  refund : StripeReply RefundObject := .unreachable ""
  session : StripeReply SessionObject := .unreachable ""

def notFound : WaferError := ⟨.notFound, "record not found"⟩

def uniqueViolation : WaferError := ⟨.other, "UNIQUE constraint failed"⟩

/-- The answer to a search. -/
def found {α : Type} (row : Option α) : Except WaferError α :=
  match row with
  | none => .error notFound
  | some row => .ok row

/-- The answer to an update under a condition. -/
def counted {Row Key : Type} {S : Schema Row Key} (s : CommerceStore)
    (put : Table S → CommerceStore) (result : Option (ℕ × Table S)) :
    Except WaferError ℕ × CommerceStore :=
  match result with
  | none => (.error uniqueViolation, s)
  | some (rows, t) => (.ok rows, put t)

/-- The answer to an unconditional update. -/
def written {Row Key : Type} [DecidableEq Key] {S : Schema Row Key} (s : CommerceStore)
    (put : Table S → CommerceStore) (t : Table S) (k : Key) (f : Row → Row) :
    Except WaferError Row × CommerceStore :=
  match t.get? k with
  | none => (.error notFound, s)
  | some row =>
    match t.replace (f row) with
    | none => (.error uniqueViolation, s)
    | some t' => (.ok (f row), put t')

/-- How the store answers a call that does not fail. -/
def answerNow (chance : Chance) (s : CommerceStore) :
    (c : CommerceCall) → CommerceAnswer c × CommerceStore
  | .utcNow => (.ok s.clock, s)
  | .newUuid => (.ok s.nextId, { s with nextId := s.nextId + 1 })
  | .getOrder id => (found (s.orders.get? id), s)
  | .orderByPaymentIntent paymentIntent =>
    (found (s.orders.rows.find? fun order => order.providerPaymentIntentId == paymentIntent), s)
  | .orderBySession sessionId =>
    (found (s.orders.rows.find? fun order => order.providerSessionId == sessionId), s)
  | .createOrder snapshot =>
    let row := snapshot.row s.nextId
    match s.orders.insert row with
    | none => (.error uniqueViolation, s)
    | some t => (.ok row, { s with orders := t, nextId := s.nextId + 1 })
  | .addLineItem _ => (.ok (), s)
  | .deleteLineItems _ => (.ok (), s)
  | .deleteOrder id => (.ok (), { s with orders := s.orders.erase id })
  | .updateOrder id filters write =>
    counted s (fun t => { s with orders := t })
      (s.orders.updateWhere id (fun order => filters.all (OrderFilter.matches order)) write.apply)
  | .setOrder id write => written s (fun t => { s with orders := t }) s.orders id write.apply
  | .getRefund id => (found (s.refunds.get? id), s)
  | .refundByKey key =>
    (found (s.refunds.rows.find? fun refund => refund.idempotencyKey == key), s)
  | .refundByProviderId id =>
    (found (s.refunds.rows.find? fun refund => refund.providerRefundId == id), s)
  | .activeRefund purchaseId =>
    (.ok (s.refunds.rows.find? fun refund =>
      refund.purchaseId == purchaseId && refund.status.isActive), s)
  | .createRefund claim =>
    let row := claim.row s.nextId
    match s.refunds.insert row with
    | none => (.error uniqueViolation, s)
    | some t => (.ok row, { s with refunds := t, nextId := s.nextId + 1 })
  | .updateRefund id filters write =>
    counted s (fun t => { s with refunds := t })
      (s.refunds.updateWhere id (fun refund => filters.all (RefundFilter.matches refund))
        write.apply)
  | .setRefund id write => written s (fun t => { s with refunds := t }) s.refunds id write.apply
  | .upsertOperation operation =>
    match s.operations.insert operation with
    | none => (.ok (), s)
    | some t => (.ok (), { s with operations := t })
  | .operationByKey key => (found (s.operations.get? key), s)
  | .operationsFor aggregateId =>
    (.ok ((s.operations.rows.filter fun operation => operation.aggregateId == aggregateId).take 10),
      s)
  | .openOperations limit =>
    (.ok ((s.operations.rows.filter fun operation => !operation.status.isTerminal).take limit), s)
  | .updateOperation key status owner write =>
    counted s (fun t => { s with operations := t })
      (s.operations.updateWhere key
        (fun operation => operation.status == status && operation.processingOwner == owner)
        write.apply)
  | .setOperation key write =>
    written s (fun t => { s with operations := t }) s.operations key write.apply
  | .loadStripeClient => (chance.client, s)
  | .stripeCreateRefund _ => (chance.refund.result, s)
  | .stripeRetrieveRefund .. => (chance.refund.result, s)
  | .stripeCreateSession _ => (chance.session.result, s)

/-- How the store answers when the database does not fail: time passes before every call. -/
def answer (chance : Chance) (c : CommerceCall) (s : CommerceStore) :
    CommerceAnswer c × CommerceStore :=
  answerNow chance { s with clock := s.clock + chance.elapsed } c

/-- Whether the call is a statement on a table, which the database may fail. -/
def CommerceCall.isStatement : CommerceCall → Bool
  | utcNow | newUuid | loadStripeClient | stripeCreateRefund _ | stripeRetrieveRefund ..
  | stripeCreateSession _ => false
  | _ => true

/-- How the store answers: a statement that fails leaves it as it is. -/
def perform (chance : Chance) (c : CommerceCall) (s : CommerceStore) :
    CommerceAnswer c × CommerceStore :=
  match chance.failure with
  | some error =>
    if c.isStatement then (.error error, { s with clock := s.clock + chance.elapsed })
    else answer chance c s
  | none => answer chance c s

/-- A program of the block: it ends at the first error, unless that is handled. -/
abbrev CommerceProgram := ExceptT WaferError (Concurrent.Program CommerceCall CommerceAnswer)

/-- One call. -/
def call (c : CommerceCall) : CommerceProgram (CommerceReply c) :=
  ExceptT.mk (.call c .done)

/-- One call whose failure is looked at. -/
def attempt {α : Type} (p : CommerceProgram α) : CommerceProgram (Except WaferError α) :=
  ExceptT.mk (p.run >>= fun result => pure (.ok result))

/-- A search that may find nothing. -/
def optional {α : Type} (p : CommerceProgram α) : CommerceProgram (Option α) := do
  match ← attempt p with
  | .ok row => return some row
  | .error error => if error.code = .notFound then return none else throw error

/-- A refusal, as the handlers word it. -/
def badRequest {α : Type} (message : String) : CommerceProgram α :=
  throw ⟨.invalidArgument, message⟩

def internalError {α : Type} (message : String) : CommerceProgram α :=
  throw ⟨.internal, message⟩

end Commerce

end Products
