import Impresspress.Concurrent.Fallible
import Impresspress.Products.Repo
import Mathlib.Algebra.Group.Int.Defs

/-!
# Subscription and invoice webhooks

A Stripe subscription may be billed by the platform, and may come from an order; each of the two
rows keeps a projection of its status and of the time of the event that it came from. A webhook is
applied to the order first and then to the platform's row. The store holds the rows that refer to
one Stripe subscription.

Source: `blocks/products/stripe.rs`, `blocks/products/repo/subscriptions.rs` and
`blocks/products/repo/purchases.rs`.
-/

namespace Products

namespace Subscription

open Concurrent

/-! ### Rows -/

/-- The metadata keys of the add-on totals, in the order in which they are summed and stored. -/
def addonTotalKeys : List String :=
  ["extra_projects", "extra_requests", "extra_r2_bytes", "extra_d1_bytes"]

/-- The metadata key that marks a subscription item as an add-on. -/
def addonItemMarker : String := "addon_id"

/-- The row of a user in the platform's subscriptions. -/
structure PlatformRow where
  userId : String
  plan : String
  status : SubscriptionStatus
  gracePeriodEnd : Option Instant
  stripeEventCreated : ℤ
  addonTotals : List ℤ
  deriving DecidableEq, Repr

/-- The subscription columns of an order. -/
structure OrderRow where
  stripeAccountId : String
  livemode : Bool
  subscriptionStatus : SubscriptionStatus
  subscriptionEventCreated : ℤ
  currentPeriodEnd : String
  cancelAtPeriodEnd : Bool
  canceledAt : String
  deriving DecidableEq, Repr

/-- The comparisons in the updates of a platform row. -/
inductive PlatformFilter where
  | userIs (userId : String)
  | statusIs (status : SubscriptionStatus)
  | statusIsNot (status : SubscriptionStatus)
  | createdIs (created : ℤ)
  | createdAtMost (created : ℤ)
  deriving DecidableEq, Repr

def PlatformFilter.matches (row : PlatformRow) : PlatformFilter → Bool
  | userIs userId => row.userId == userId
  | statusIs status => row.status == status
  | statusIsNot status => row.status != status
  | createdIs created => row.stripeEventCreated == created
  | createdAtMost created => decide (row.stripeEventCreated ≤ created)

/-- The column assignments of the updates of a platform row. -/
inductive PlatformWrite where
  | statusPlan (status : SubscriptionStatus) (plan : Option String) (created : ℤ)
  | pastDue (gracePeriodEnd : Instant) (created : ℤ)
  | recovered (created : ℤ)
  | canceled (created : ℤ)
  | addonTotals (totals : List ℤ)
  deriving DecidableEq, Repr

/-- The platform row after an update. -/
def PlatformWrite.apply : PlatformWrite → PlatformRow → PlatformRow
  | statusPlan status plan created, row =>
    -- an event without a status leaves the column as it is
    { row with
      status := if status = .unset then row.status else status
      plan := plan.getD row.plan
      stripeEventCreated := created }
  | pastDue gracePeriodEnd created, row =>
    { row with
      status := .pastDue, gracePeriodEnd := some gracePeriodEnd, stripeEventCreated := created }
  | recovered created, row =>
    { row with status := .active, gracePeriodEnd := none, stripeEventCreated := created }
  | canceled created, row =>
    { row with
      status := .canceled, addonTotals := addonTotalKeys.map fun _ => 0
      stripeEventCreated := created }
  | addonTotals totals, row => { row with addonTotals := totals }

/-- What a subscription event says of an order's subscription. -/
structure OrderSync where
  status : SubscriptionStatus
  currentPeriodEnd : Option String
  cancelAtPeriodEnd : Option Bool
  canceledAt : Option String
  created : ℤ
  deriving DecidableEq, Repr

/-- The order after it has been synchronized. -/
def OrderSync.apply (sync : OrderSync) (row : OrderRow) : OrderRow :=
  { row with
    subscriptionStatus := sync.status
    subscriptionEventCreated := sync.created
    currentPeriodEnd := sync.currentPeriodEnd.getD row.currentPeriodEnd
    cancelAtPeriodEnd := sync.cancelAtPeriodEnd.getD row.cancelAtPeriodEnd
    canceledAt := sync.canceledAt.getD row.canceledAt }

/-! ### The store -/

/-- The rows that refer to the Stripe subscription. -/
structure SubscriptionStore where
  platform : Option PlatformRow
  order : Option OrderRow
  deriving DecidableEq, Repr

/-- The statements on the two rows. The update of the order compares the event time and the status
that were read. -/
inductive SubscriptionCall where
  | utcNow
  | getPlatform
  | updatePlatform (filters : List PlatformFilter) (write : PlatformWrite)
  | getOrder
  | updateOrder (created : ℤ) (status : SubscriptionStatus) (sync : OrderSync)
  deriving DecidableEq, Repr

@[reducible] def SubscriptionReply : SubscriptionCall → Type
  | .utcNow => Instant
  | .getPlatform => Option PlatformRow
  | .updatePlatform .. => ℕ
  | .getOrder => Option OrderRow
  | .updateOrder .. => ℕ

@[reducible] def SubscriptionAnswer (c : SubscriptionCall) : Type :=
  Except WaferError (SubscriptionReply c)

/-- How the store answers; what the caller cannot know is the time. -/
def perform (now : Instant) (c : SubscriptionCall) (s : SubscriptionStore) :
    SubscriptionAnswer c × SubscriptionStore :=
  match c with
  | .utcNow => (.ok now, s)
  | .getPlatform => (.ok s.platform, s)
  | .updatePlatform filters write =>
    match s.platform with
    | none => (.ok (0 : ℕ), s)
    | some row =>
      if filters.all (PlatformFilter.matches row) then
        (.ok (1 : ℕ), { s with platform := some (write.apply row) })
      else (.ok (0 : ℕ), s)
  | .getOrder => (.ok s.order, s)
  | .updateOrder created status sync =>
    match s.order with
    | none => (.ok (0 : ℕ), s)
    | some row =>
      if row.subscriptionEventCreated = created ∧ row.subscriptionStatus = status then
        (.ok (1 : ℕ), { s with order := some (sync.apply row) })
      else (.ok (0 : ℕ), s)

abbrev SubscriptionProgram := Fallible WaferError SubscriptionReply

abbrev call (c : SubscriptionCall) : SubscriptionProgram (SubscriptionReply c) := Fallible.call c

/-! ### The platform's row -/

def changedConcurrently (what : String) : WaferError :=
  ⟨.failedPrecondition, what ++ " subscription state changed concurrently; retry the event"⟩

/-- Write over the row as it was read, where the transition rule allows it; three tries at most. -/
def writePlatformIfAllowed (incoming : SubscriptionStatus → SubscriptionStatus) (created : ℤ)
    (write : Instant → PlatformWrite) : ℕ → PlatformRow → SubscriptionProgram ℕ
  | 0, _ => throw (changedConcurrently "platform")
  | tries + 1, current => do
    if ¬ subscriptionTransitionAllowed current.status current.stripeEventCreated
        (incoming current.status) created then
      return 0
    else
      let now ← call .utcNow
      let rows ← call (.updatePlatform
        [.createdIs current.stripeEventCreated, .statusIs current.status] (write now))
      if rows = 1 then
        return 1
      else
        match ← call .getPlatform with
        | none => return 0
        | some record => writePlatformIfAllowed incoming created write tries record

def writePlatform (incoming : SubscriptionStatus → SubscriptionStatus) (created : ℤ)
    (write : Instant → PlatformWrite) : SubscriptionProgram ℕ := do
  match ← call .getPlatform with
  | none => return 0
  | some current => writePlatformIfAllowed incoming created write 3 current

/-- Sync status (and optionally plan) from a `customer.subscription.updated` event. An event that
reports no status is judged as if it restated the stored one. -/
def updateStatusPlan (status : SubscriptionStatus) (plan : Option String) (created : ℤ) :
    SubscriptionProgram ℕ :=
  writePlatform (fun current => if status = .unset then current else status) created
    fun _ => .statusPlan status plan created

/-- Seven days, the grace window of a failed payment. -/
def gracePeriod : ℕ := 7 * 24 * 60 * 60 * nanosPerSecond

/-- Mark a subscription past due with a grace window. -/
def markPastDue (created : ℤ) : SubscriptionProgram ℕ :=
  writePlatform (fun _ => .pastDue) created fun now => .pastDue (now + gracePeriod) created

/-- Restore a subscription when a successful invoice follows a local past-due state. -/
def recoverFromPaidInvoice (created : ℤ) : SubscriptionProgram ℕ :=
  call (.updatePlatform [.statusIs .pastDue, .createdAtMost created] (.recovered created))

/-- Cancel a subscription and reset every add-on column. -/
def cancelAndResetAddons (created : ℤ) : SubscriptionProgram ℕ :=
  call (.updatePlatform [.createdAtMost created] (.canceled created))

/-- The statuses that a subscription cannot come back from. -/
def terminalStatuses : List SubscriptionStatus := [.incompleteExpired, .canceled]

/-- Set the add-on totals of a subscription that is not terminal and not newer than the event. -/
def setAddonTotals (userId : String) (totals : List ℤ) (created : ℤ) : SubscriptionProgram ℕ :=
  call (.updatePlatform
    ([.userIs userId, .createdAtMost created] ++ terminalStatuses.map PlatformFilter.statusIsNot)
    (.addonTotals totals))

/-- An item of a Stripe subscription: its quantity, and the numbers in the metadata of the object
that carries the add-on marker, if one does. -/
structure SubscriptionItem where
  addon : Option (List (String × ℤ))
  quantity : ℤ
  deriving DecidableEq, Repr

/-- Whether the number is an `i64`. -/
def isI64 (n : ℤ) : Bool := decide (-2 ^ 63 ≤ n ∧ n < 2 ^ 63)

def refuseItem {α : Type} (detail : String) : Except WaferError α :=
  .error ⟨.invalidArgument, "Stripe subscription item metadata " ++ detail⟩

/-- One total after an item. -/
def addLine (metadata : List (String × ℤ)) (quantity : ℤ) (key : String) (total : ℤ) :
    Except WaferError ℤ :=
  let perUnit := (metadata.lookup key).getD 0
  if perUnit < 0 then
    refuseItem s!"reports a negative {key} ({perUnit})"
  else if isI64 (perUnit * quantity) ∧ isI64 (total + perUnit * quantity) then
    .ok (total + perUnit * quantity)
  else
    refuseItem s!"overflows the {key} add-on total"

/-- The totals after an item. The base plan carries no marker and contributes nothing. -/
def addItem (totals : List ℤ) (item : SubscriptionItem) : Except WaferError (List ℤ) :=
  match item.addon with
  | none => .ok totals
  | some metadata =>
    if item.quantity < 0 then
      refuseItem s!"reports a negative quantity ({item.quantity})"
    else
      (addonTotalKeys.zip totals).mapM fun entry => addLine metadata item.quantity entry.1 entry.2

/-- Sum the add-ons of the items, and store the totals. -/
def syncAddonTotalsFromItems (userId : String) (items : List SubscriptionItem) (created : ℤ) :
    SubscriptionProgram Unit := do
  match items.foldlM addItem (addonTotalKeys.map fun _ => 0) with
  | .error error => throw error
  | .ok totals =>
    let _ ← setAddonTotals userId totals created
    return ()

/-! ### The order -/

/-- Synchronize the order as it was read, where the transition rule allows it and the status is the
expected one; three tries at most. -/
def syncOrderIfAllowed (sync : OrderSync) (expected : Option SubscriptionStatus) :
    ℕ → OrderRow → SubscriptionProgram OrderRow
  | 0, _ => throw (changedConcurrently "commerce")
  | tries + 1, purchase => do
    if ¬ subscriptionTransitionAllowed purchase.subscriptionStatus
        purchase.subscriptionEventCreated sync.status sync.created then
      return purchase
    else if expected.any fun status => purchase.subscriptionStatus != status then
      return purchase
    else
      let rows ← call (.updateOrder purchase.subscriptionEventCreated purchase.subscriptionStatus
        sync)
      match ← call .getOrder with
      | none => throw ⟨.notFound, "record not found"⟩
      | some purchase =>
        if rows = 1 then return purchase
        else syncOrderIfAllowed sync expected tries purchase

/-- Synchronize the order of the subscription, if there is one. -/
def syncCommerceSubscription (stripeAccountId : String) (livemode : Bool) (sync : OrderSync)
    (expected : Option SubscriptionStatus) : SubscriptionProgram (Option OrderRow) := do
  if sync.status = .unset ∨ sync.created < 0 then
    throw ⟨.invalidArgument, "subscription id, status, and a valid event timestamp are required"⟩
  else
    match ← call .getOrder with
    | none => return none
    | some purchase =>
      if purchase.stripeAccountId ≠ stripeAccountId then
        throw ⟨.failedPrecondition,
          "subscription event Stripe account does not match the commerce order"⟩
      else if purchase.livemode ≠ livemode then
        throw ⟨.failedPrecondition, "subscription event mode does not match the commerce order"⟩
      else
        let purchase ← syncOrderIfAllowed sync expected 3 purchase
        return some purchase

/-! ### The webhooks -/

inductive EventKind where
  | updated (status : SubscriptionStatus) (plan : Option String) (currentPeriodEnd : Option String)
      (cancelsAtPeriodEnd : Bool) (canceledAt : Option String)
      (items : Option (List SubscriptionItem))
  | invoicePaid
  | invoicePaymentFailed
  | deleted (canceledAt : Option String)
  deriving DecidableEq, Repr

/-- A webhook event on the subscription. Its creation time is cut off at zero when it is read. -/
structure SubscriptionEvent where
  account : String
  livemode : Bool
  created : ℕ
  kind : EventKind
  deriving DecidableEq, Repr

def unmatchedSubscriptionMessage (subscriptionId : String) : String :=
  s!"Stripe subscription {subscriptionId} matches no commerce order or platform " ++
    "subscription; it may be an out-of-order delivery ahead of its checkout completion — " ++
    "retrying until the completion links it"

/-- A subscription that no order refers to has to be one of the platform's. -/
def requirePlatform (subscriptionId : String) (commerceMatched : Bool) :
    SubscriptionProgram Unit := do
  if commerceMatched then
    return ()
  else
    match ← call .getPlatform with
    | some _ => return ()
    | none => throw ⟨.internal, unmatchedSubscriptionMessage subscriptionId⟩

/-- Handle an event: synchronize the order, then the platform's row. -/
def handleSubscriptionEvent (subscriptionId : String) (event : SubscriptionEvent) :
    SubscriptionProgram Unit := do
  let sync (sync : OrderSync) (expected : Option SubscriptionStatus) :=
    syncCommerceSubscription event.account event.livemode sync expected
  match event.kind with
  | .updated status plan currentPeriodEnd cancelsAtPeriodEnd canceledAt items =>
    let matched ← if status = .unset then pure none else
      sync ⟨status, currentPeriodEnd, some cancelsAtPeriodEnd, canceledAt, event.created⟩ none
    requirePlatform subscriptionId matched.isSome
    let _ ← updateStatusPlan status plan event.created
    match ← call .getPlatform, items with
    | some row, some items => syncAddonTotalsFromItems row.userId items event.created
    | _, _ => return ()
  | .invoicePaid =>
    let matched ← sync ⟨.active, none, none, none, event.created⟩ (some .pastDue)
    requirePlatform subscriptionId matched.isSome
    let _ ← recoverFromPaidInvoice event.created
    return ()
  | .invoicePaymentFailed =>
    let matched ← sync ⟨.pastDue, none, none, none, event.created⟩ none
    requirePlatform subscriptionId matched.isSome
    let _ ← markPastDue event.created
    return ()
  | .deleted canceledAt =>
    let _ ← call .getPlatform
    let matched ← sync ⟨.canceled, none, some false, canceledAt, event.created⟩ none
    requirePlatform subscriptionId matched.isSome
    let _ ← cancelAndResetAddons event.created
    return ()

end Subscription

end Products
