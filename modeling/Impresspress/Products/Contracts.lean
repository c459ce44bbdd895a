import Mathlib.Data.Int.Notation
import Mathlib.Data.Nat.Notation
import Mathlib.Tactic.Common

/-!
# Status columns of the products block

The value sets of the status columns and the predicates the block decides on. A column that
holds a value outside its set is refused when it is decoded, so each column is modelled by
its type, or by its text where what is refused matters.

Source: `blocks/products/contracts.rs`.
-/

namespace Products

/-- The `status` column of an order. -/
inductive OrderStatus where
  | pending
  | checkoutStarted
  | completed
  | partiallyRefunded
  | refunded
  | failed
  deriving DecidableEq, Repr

namespace OrderStatus

/-- Whether the order was paid: `completed`, or paid and then refunded. -/
def isPaid : OrderStatus → Bool
  | completed | partiallyRefunded | refunded => true
  | _ => false

/-- Whether a further refund may be issued against the order. -/
def isRefundable : OrderStatus → Bool
  | completed | partiallyRefunded => true
  | _ => false

/-- Whether checkout has not completed yet. -/
def awaitsCompletion : OrderStatus → Bool
  | pending | checkoutStarted => true
  | _ => false

theorem isPaid_of_isRefundable {s : OrderStatus} (h : s.isRefundable) : s.isPaid := by
  cases s <;> simp_all [isRefundable, isPaid]

theorem not_isPaid_of_awaitsCompletion {s : OrderStatus} (h : s.awaitsCompletion) :
    s.isPaid = false := by
  cases s <;> simp_all [awaitsCompletion, isPaid]

end OrderStatus

/-- Where an order stands against the payment provider's view of it. -/
inductive ReconciliationStatus where
  | pending
  | awaitingPayment
  | reconciled
  | providerError
  | paymentSucceededAwaitingCheckout
  | paymentFailed
  | paymentProcessing
  | paymentRequiresAction
  | paymentCanceled
  deriving DecidableEq, Repr

/-- The provider's own state for the order's payment; `unset` until an event has arrived. -/
inductive ProviderPaymentStatus where
  | unset
  | succeeded
  | paymentFailed
  | processing
  | requiresAction
  | canceled
  deriving DecidableEq, Repr

/-- A subscription's lifecycle state, as Stripe reports it. -/
inductive SubscriptionStatus where
  | unset
  | incomplete
  | incompleteExpired
  | trialing
  | active
  | pastDue
  | unpaid
  | paused
  | canceled
  deriving DecidableEq, Repr

namespace SubscriptionStatus

/-- Whether the subscription can never become live again. -/
def isTerminal : SubscriptionStatus → Bool
  | canceled | incompleteExpired => true
  | _ => false

/-- How far along the lifecycle the status is, for deliveries of the same second. -/
def rank : SubscriptionStatus → ℕ
  | canceled | incompleteExpired => 2
  | pastDue | unpaid => 1
  | unset | incomplete | trialing | active | paused => 0

theorem isTerminal_iff_rank {s : SubscriptionStatus} : s.isTerminal ↔ s.rank = 2 := by
  cases s <;> simp [isTerminal, rank]

theorem rank_le_two (s : SubscriptionStatus) : s.rank ≤ 2 := by
  cases s <;> simp [rank]

end SubscriptionStatus

/-- The `status` column of a refund row. `providerSucceeded` is local only: the provider has
paid the money back, but the order's refunded total has not been settled yet. -/
inductive RefundStatus where
  | pending
  | providerSucceeded
  | succeeded
  | failed
  deriving DecidableEq, Repr

/-- Whether the row occupies its order's one slot for an active refund: the predicate of the
partial unique index `refunds_active_purchase_uniq`. -/
def RefundStatus.isActive : RefundStatus → Bool
  | pending | providerSucceeded => true
  | succeeded | failed => false

/-- The outcome of one refund request, as its caller is told it. -/
inductive RefundResultStatus where
  | pending
  | succeeded
  | failed
  deriving DecidableEq, Repr

/-- Stripe's constrained reasons for a refund. -/
inductive RefundReason where
  | duplicate
  | fraudulent
  | requestedByCustomer
  deriving DecidableEq, Repr

/-- The spelling of a refund reason in Stripe's form. -/
def RefundReason.asStr : RefundReason → String
  | duplicate => "duplicate"
  | fraudulent => "fraudulent"
  | requestedByCustomer => "requested_by_customer"

/-- The `status` column of a provider operation. -/
inductive OperationStatus where
  | pending
  | processing
  | failed
  | succeeded
  | deadLetter
  deriving DecidableEq, Repr

/-- Whether no worker will look at the operation again. -/
def OperationStatus.isTerminal : OperationStatus → Bool
  | succeeded | deadLetter => true
  | pending | processing | failed => false

/-- The `status` column of a recorded Stripe event. -/
inductive EventStatus where
  | pending
  | processing
  | failed
  | processed
  | deadLetter
  deriving DecidableEq, Repr

/-- The `status` column of an offer. -/
inductive OfferStatus where
  | draft
  | active
  | archived
  deriving DecidableEq, Repr

/-! ### Texts of the columns -/

/-- The text that a value of an enumeration is stored and sent as. -/
class WireEnum (α : Type) where
  wireEnum : α → String

export WireEnum (wireEnum)

/-- The value that a column holds; a text that the contract does not define is none. -/
def enumColumn {α : Type} [WireEnum α] (all : List α) (text : String) : Option α :=
  all.find? (wireEnum · = text)

instance : WireEnum OrderStatus where
  wireEnum
    | .pending => "pending"
    | .checkoutStarted => "checkout_started"
    | .completed => "completed"
    | .partiallyRefunded => "partially_refunded"
    | .refunded => "refunded"
    | .failed => "failed"

/-- Every status of an order. -/
def OrderStatus.all : List OrderStatus :=
  [.pending, .checkoutStarted, .completed, .partiallyRefunded, .refunded, .failed]

instance : WireEnum SubscriptionStatus where
  wireEnum
    | .unset => ""
    | .incomplete => "incomplete"
    | .incompleteExpired => "incomplete_expired"
    | .trialing => "trialing"
    | .active => "active"
    | .pastDue => "past_due"
    | .unpaid => "unpaid"
    | .paused => "paused"
    | .canceled => "canceled"

/-- Every status of a subscription. -/
def SubscriptionStatus.all : List SubscriptionStatus :=
  [.unset, .incomplete, .incompleteExpired, .trialing, .active, .pastDue, .unpaid, .paused,
    .canceled]

end Products
