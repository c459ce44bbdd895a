import Impresspress.Products.Commerce.Disputes
import Impresspress.Products.Pricing.Offer
import Impresspress.Relational.Grouping

/-!
# Commerce analytics

The analytics adds up groups of rows: orders by currency and status, subscriptions and disputes in
the same way, and the line items of the paid orders by product. Groups whose currencies are spelled
differently are put together, since the currency is normalized first.

A sum that does not fit the type of the column fails the read; the order in which groups come is up to
the database.

## Main definitions

* `Products.Analytics.Database`: the tables that are read.
* `Products.Analytics.orderTotals`, `Products.Analytics.paidOrderIdsByCurrency`,
  `Products.Analytics.lineItemTotals`: the reads.
* `Products.Analytics.commerceAnalytics`: the analytics by currency.

Source: `blocks/products/repo/purchases.rs`, `blocks/products/repo/disputes.rs`.
-/

namespace Products

namespace Analytics

open Checked Money Relational Pricing

/-! ### Tables -/

/-- The columns of an order that are read. -/
structure OrderRow where
  id : String
  currency : String
  status : String
  sellerAccountId : String
  totalCents : ℤ
  refundedTotalCents : ℤ
  platformFeeCents : ℤ
  stripeSubscriptionId : String
  subscriptionStatus : String
  deriving DecidableEq

structure DisputeRow where
  currency : String
  status : String
  sellerAccountId : String
  amountMinor : ℤ

structure LineItem where
  purchaseId : String
  productId : String
  productName : String
  quantity : ℤ
  totalMinor : ℤ

/-- The tables, and the order in which groups come. -/
structure Database where
  orders : List OrderRow
  disputes : List DisputeRow
  lineItems : List LineItem
  nodup_ids : (orders.map (·.id)).Nodup
  arrange : {α : Type} → List α → List α
  arrange_perm : ∀ {α : Type} (list : List α), (arrange list).Perm list

/-- The filter on the seller: none where no seller is given, or a blank one. -/
def inScope (sellerAccountId : Option String) (account : String) : Bool :=
  match sellerAccountId.filter (· ≠ "") with
  | none => true
  | some value => account = value

def scopedOrders (db : Database) (seller : Option String) : List OrderRow :=
  db.orders.filter fun row => inScope seller row.sellerAccountId

/-- `SUM` as an integer. -/
def sumColumn {α : Type} (column : α → ℤ) (rows : List α) : Except String ℤ :=
  okOr (i64 (rows.map column).sum) "integer overflow"

/-- A conditional count. -/
def caseWhenSum {α : Type} (condition : α → Bool) (rows : List α) : ℤ := rows.countP condition

/-- A count is not negative. -/
def analyticsCount (name : String) (value : ℤ) : Except String ℕ :=
  if value < 0 then .error s!"commerce analytics read a negative {name} ({value})"
  else .ok value.toNat

/-! ### What is added up for a currency -/

/-- Products are in the order of their ids, and of their names where these are equal. -/
abbrev compareProduct (a b : String × String) : Ordering :=
  compareLex (compareOn Prod.fst) (compareOn Prod.snd) a b

instance : Std.TransCmp compareProduct :=
  inferInstanceAs (Std.TransCmp fun a b : String × String =>
    compareLex (compareOn Prod.fst) (compareOn Prod.snd) a b)

instance : Std.LawfulEqCmp compareProduct where
  eq_of_compare h := by
    obtain ⟨hfst, hsnd⟩ := Ordering.then_eq_eq.mp h
    exact Prod.ext (Std.LawfulEqCmp.eq_of_compare hfst) (Std.LawfulEqCmp.eq_of_compare hsnd)

structure AnalyticsAccumulator where
  grossVolumeMinor : ℤ := 0
  refundedVolumeMinor : ℤ := 0
  platformFeesMinor : ℤ := 0
  orderCount : ℕ := 0
  paidOrderCount : ℕ := 0
  refundedOrderCount : ℕ := 0
  failedOrderCount : ℕ := 0
  openDisputeCount : ℕ := 0
  openDisputedVolumeMinor : ℤ := 0
  lostDisputeCount : ℕ := 0
  lostDisputedVolumeMinor : ℤ := 0
  activeSubscriptionCount : ℕ := 0
  trialingSubscriptionCount : ℕ := 0
  pastDueSubscriptionCount : ℕ := 0
  canceledSubscriptionCount : ℕ := 0
  topProducts : Std.ExtTreeMap (String × String) (ℕ × ℤ) compareProduct := ∅

/-! ### Orders -/

/-- The totals of the orders of a currency and a status. -/
structure OrderGroup where
  currency : String
  status : String
  orders : ℤ
  gross : ℤ
  refunded : ℤ
  fees : ℤ
  refundedOrders : ℤ
  negativeTotals : ℤ
  negativeRefunds : ℤ
  negativeFees : ℤ
  overRefunded : ℤ

def orderGroup (group : (String × String) × List OrderRow) : Except String OrderGroup := do
  let gross ← sumColumn (·.totalCents) group.2
  let refunded ← sumColumn (·.refundedTotalCents) group.2
  let fees ← sumColumn (·.platformFeeCents) group.2
  return {
    currency := group.1.1
    status := group.1.2
    orders := group.2.length
    gross := gross
    refunded := refunded
    fees := fees
    refundedOrders := caseWhenSum (fun row => 0 < row.refundedTotalCents) group.2
    negativeTotals := caseWhenSum (fun row => row.totalCents < 0) group.2
    negativeRefunds := caseWhenSum (fun row => row.refundedTotalCents < 0) group.2
    negativeFees := caseWhenSum (fun row => row.platformFeeCents < 0) group.2
    overRefunded := caseWhenSum (fun row => row.totalCents < row.refundedTotalCents) group.2 }

def orderTotals (db : Database) (seller : Option String) : Except String (List OrderGroup) :=
  (db.arrange (groups (fun row => (row.currency, row.status)) (scopedOrders db seller))).mapM
    orderGroup

/-- The name of a paid status. -/
def statusName : OrderStatus → String
  | .completed => "Completed"
  | .partiallyRefunded => "PartiallyRefunded"
  | .refunded => "Refunded"
  | .pending => "Pending"
  | .checkoutStarted => "CheckoutStarted"
  | .failed => "Failed"

/-- What paid orders add. -/
def addPaid (currency : String) (status : OrderStatus) (group : OrderGroup) (orders : ℕ)
    (aggregate : AnalyticsAccumulator) : Except String AnalyticsAccumulator := do
  let negativeTotals ← analyticsCount "negative_totals" group.negativeTotals
  let negativeRefunds ← analyticsCount "negative_refunds" group.negativeRefunds
  let negativeFees ← analyticsCount "negative_fees" group.negativeFees
  if 0 < negativeTotals ∨ 0 < negativeRefunds ∨ 0 < negativeFees then
    .error s!"{currency} {statusName status} orders hold a negative analytics amount"
  else do
    let overRefunded ← analyticsCount "over_refunded" group.overRefunded
    if 0 < overRefunded then
      .error s!"{currency} {statusName status} orders hold a refund larger than their total"
    else do
      let refundedOrders ← analyticsCount "refunded_orders" group.refundedOrders
      return { aggregate with
        paidOrderCount := aggregate.paidOrderCount + orders
        grossVolumeMinor := aggregate.grossVolumeMinor + group.gross
        refundedVolumeMinor := aggregate.refundedVolumeMinor + group.refunded
        platformFeesMinor := aggregate.platformFeesMinor + group.fees
        refundedOrderCount := aggregate.refundedOrderCount + refundedOrders }

/-- A group of orders. One whose status the contract does not define only counts. -/
def addOrderGroup (byCurrency : BTreeMap AnalyticsAccumulator) (group : OrderGroup) :
    Except String (BTreeMap AnalyticsAccumulator) := do
  let currency ← mapErr (fun message => s!"orders carry an invalid currency: {message}")
    (normalizeCurrency group.currency)
  let orders ← analyticsCount "orders" group.orders
  let found := byCurrency.getD currency {}
  let aggregate := { found with orderCount := found.orderCount + orders }
  match enumColumn OrderStatus.all group.status with
  | none => return byCurrency.insert currency aggregate
  | some status =>
    if status.isPaid then do
      let aggregate ← addPaid currency status group orders aggregate
      return byCurrency.insert currency aggregate
    else if status = .failed then
      return byCurrency.insert currency
        { aggregate with failedOrderCount := aggregate.failedOrderCount + orders }
    else return byCurrency.insert currency aggregate

/-! ### Subscriptions -/

/-- The number of subscriptions of a currency and a status. -/
structure SubscriptionGroup where
  currency : String
  subscriptionStatus : String
  subscriptions : ℤ

def subscriptionTotals (db : Database) (seller : Option String) : List SubscriptionGroup :=
  (db.arrange (groups (fun row => (row.currency, row.subscriptionStatus))
    ((scopedOrders db seller).filter fun row => row.stripeSubscriptionId ≠ "" ∧
      (enumColumn OrderStatus.all row.status).isSome))).map fun group =>
        ⟨group.1.1, group.1.2, group.2.length⟩

def addSubscriptions (subscriptions : ℕ) (aggregate : AnalyticsAccumulator) :
    SubscriptionStatus → AnalyticsAccumulator
  | .active => { aggregate with
      activeSubscriptionCount := aggregate.activeSubscriptionCount + subscriptions }
  | .trialing => { aggregate with
      trialingSubscriptionCount := aggregate.trialingSubscriptionCount + subscriptions }
  | .pastDue | .unpaid | .paused => { aggregate with
      pastDueSubscriptionCount := aggregate.pastDueSubscriptionCount + subscriptions }
  | .canceled | .incompleteExpired => { aggregate with
      canceledSubscriptionCount := aggregate.canceledSubscriptionCount + subscriptions }
  | .unset | .incomplete => aggregate

def addSubscriptionGroup (byCurrency : BTreeMap AnalyticsAccumulator)
    (group : SubscriptionGroup) : Except String (BTreeMap AnalyticsAccumulator) := do
  let currency ← mapErr
    (fun message => s!"subscription orders carry an invalid currency: {message}")
    (normalizeCurrency group.currency)
  let subscriptions ← analyticsCount "subscriptions" group.subscriptions
  let aggregate := byCurrency.getD currency {}
  let status ← okOr (enumColumn SubscriptionStatus.all group.subscriptionStatus)
    (s!"row  holds subscription_status {group.subscriptionStatus.quote}, " ++
      "which the contract does not define")
  return byCurrency.insert currency (addSubscriptions subscriptions aggregate status)

/-! ### Disputes -/

instance : WireEnum Commerce.DisputeStatus where
  wireEnum
    | .warningNeedsResponse => "warning_needs_response"
    | .warningUnderReview => "warning_under_review"
    | .warningClosed => "warning_closed"
    | .needsResponse => "needs_response"
    | .underReview => "under_review"
    | .won => "won"
    | .lost => "lost"
    | .prevented => "prevented"

/-- Every status of a dispute. -/
def disputeStatuses : List Commerce.DisputeStatus :=
  [.warningNeedsResponse, .warningUnderReview, .warningClosed, .needsResponse, .underReview, .won,
    .lost, .prevented]

/-- The totals of the disputes of a currency and a status. -/
structure DisputeGroup where
  currency : String
  status : String
  disputes : ℤ
  amount : ℤ
  invalidAmounts : ℤ

def disputeGroup (group : (String × String) × List DisputeRow) : Except String DisputeGroup := do
  let amount ← sumColumn (·.amountMinor) group.2
  return ⟨group.1.1, group.1.2, group.2.length, amount,
    caseWhenSum (fun row => row.amountMinor ≤ 0) group.2⟩

def disputeTotals (db : Database) (seller : Option String) : Except String (List DisputeGroup) :=
  (db.arrange (groups (fun row => (row.currency, row.status))
    (db.disputes.filter fun row => inScope seller row.sellerAccountId))).mapM disputeGroup

def addDisputes (disputes : ℕ) (amount : ℤ) (aggregate : AnalyticsAccumulator) :
    Commerce.DisputeStatus → AnalyticsAccumulator
  | .warningNeedsResponse | .warningUnderReview | .needsResponse | .underReview =>
    { aggregate with
      openDisputeCount := aggregate.openDisputeCount + disputes
      openDisputedVolumeMinor := aggregate.openDisputedVolumeMinor + amount }
  | .lost =>
    { aggregate with
      lostDisputeCount := aggregate.lostDisputeCount + disputes
      lostDisputedVolumeMinor := aggregate.lostDisputedVolumeMinor + amount }
  | .warningClosed | .won | .prevented => aggregate

def addDisputeGroup (byCurrency : BTreeMap AnalyticsAccumulator) (group : DisputeGroup) :
    Except String (BTreeMap AnalyticsAccumulator) := do
  let currency ← mapErr (fun message => s!"disputes carry an invalid currency: {message}")
    (normalizeCurrency group.currency)
  let invalidAmounts ← analyticsCount "invalid_amounts" group.invalidAmounts
  if 0 < invalidAmounts then
    .error s!"{currency} disputes hold an amount that is not positive"
  else do
    let disputes ← analyticsCount "disputes" group.disputes
    let aggregate ← okOr byCurrency[currency]?
      s!"{currency} disputes have no matching order currency aggregate"
    let status ← okOr (enumColumn disputeStatuses group.status)
      (s!"row  holds status {group.status.quote}, which the contract does not define")
    return byCurrency.insert currency (addDisputes disputes group.amount aggregate status)

/-! ### Products -/

/-- The number of rows of a page. -/
def keysetPage : ℕ := 1000

def isPaidRow (row : OrderRow) : Bool :=
  (enumColumn OrderStatus.all row.status).any OrderStatus.isPaid

def addPaidId (byCurrency : BTreeMap (List String)) (row : OrderRow) :
    Except String (BTreeMap (List String)) := do
  let currency ← mapErr (fun message => s!"order {row.id} has invalid currency: {message}")
    (normalizeCurrency row.currency)
  return byCurrency.insert currency (byCurrency.getD currency [] ++ [row.id])

def readPage (byCurrency : BTreeMap (List String)) (page : List OrderRow) :
    Except String (BTreeMap (List String)) :=
  if page.any (·.id = "") then
    .error ("keyset walk met a row with no id; this read pages on id, " ++
      "so the table must give every row a distinct non-empty one")
  else page.foldlM addPaidId byCurrency

/-- The ids of the paid orders, by their currency. -/
def paidOrderIdsByCurrency (db : Database) (seller : Option String) :
    Except String (BTreeMap (List String)) :=
  (pages (·.id) ((scopedOrders db seller).filter isPaidRow) keysetPage none).foldlM readPage ∅

/-- The totals of the line items of a product. -/
structure LineGroup where
  productId : String
  productName : String
  quantity : ℤ
  revenue : ℤ
  negativeQuantities : ℤ
  negativeRevenue : ℤ

def lineGroup (group : (String × String) × List LineItem) : Except String LineGroup := do
  let quantity ← sumColumn (·.quantity) group.2
  let revenue ← sumColumn (·.totalMinor) group.2
  return ⟨group.1.1, group.1.2, quantity, revenue,
    caseWhenSum (fun row => row.quantity < 0) group.2,
    caseWhenSum (fun row => row.totalMinor < 0) group.2⟩

def lineItemTotals (db : Database) (purchaseIds : List String) : Except String (List LineGroup) :=
  (db.arrange (groups (fun row => (row.productId, row.productName))
    (db.lineItems.filter fun row => row.purchaseId ∈ purchaseIds))).mapM lineGroup

def addLineGroup (currency : String) (aggregate : AnalyticsAccumulator) (line : LineGroup) :
    Except String AnalyticsAccumulator := do
  let negativeQuantities ← analyticsCount "negative_quantities" line.negativeQuantities
  let negativeRevenue ← analyticsCount "negative_revenue" line.negativeRevenue
  if 0 < negativeQuantities ∨ 0 < negativeRevenue then
    .error s!"{currency} line items hold a negative analytics amount"
  else do
    let product := aggregate.topProducts.getD (line.productId, line.productName) (0, 0)
    let quantity ← analyticsCount "quantity" line.quantity
    return { aggregate with
      topProducts := aggregate.topProducts.insert (line.productId, line.productName)
        (product.1 + quantity, product.2 + line.revenue) }

def addChunk (db : Database) (currency : String) (aggregate : AnalyticsAccumulator)
    (chunk : List String) : Except String AnalyticsAccumulator := do
  let lines ← lineItemTotals db chunk
  lines.foldlM (addLineGroup currency) aggregate

/-- The number of orders whose line items are read at once. -/
def chunkSize : ℕ := 200

def addProducts (db : Database) (byCurrency : BTreeMap AnalyticsAccumulator)
    (paid : String × List String) : Except String (BTreeMap AnalyticsAccumulator) := do
  let aggregate ← okOr byCurrency[paid.1]?
    s!"{paid.1} paid orders have no matching order currency aggregate"
  let aggregate ← (chunks chunkSize paid.2).foldlM (addChunk db paid.1) aggregate
  return byCurrency.insert paid.1 aggregate

/-! ### The analytics -/

structure AnalyticsProduct where
  productId : String
  name : String
  quantity : ℕ
  revenueMinor : ℤ
  deriving DecidableEq

structure CommerceAnalytics where
  currency : String
  grossVolumeMinor : ℤ
  refundedVolumeMinor : ℤ
  netVolumeMinor : ℤ
  platformFeesMinor : ℤ
  orderCount : ℕ
  paidOrderCount : ℕ
  refundedOrderCount : ℕ
  failedOrderCount : ℕ
  openDisputeCount : ℕ
  openDisputedVolumeMinor : ℤ
  lostDisputeCount : ℕ
  lostDisputedVolumeMinor : ℤ
  activeSubscriptionCount : ℕ
  trialingSubscriptionCount : ℕ
  pastDueSubscriptionCount : ℕ
  canceledSubscriptionCount : ℕ
  topProducts : List AnalyticsProduct

def analyticsI64 (value : ℤ) (field : String) : Except String ℤ :=
  okOr (i64 value) s!"commerce analytics overflowed {field}"

def analyticsU64 (value : ℕ) (field : String) : Except String ℕ :=
  okOr (u64 value) s!"commerce analytics overflowed {field}"

/-- The order of the products: by revenue and by quantity, the largest first, then by name and id. -/
def productLe (left right : AnalyticsProduct) : Bool :=
  ((compare right.revenueMinor left.revenueMinor).then
    ((compare right.quantity left.quantity).then
      ((compare left.name right.name).then (compare left.productId right.productId)))).isLE

def analyticsProduct (entry : (String × String) × (ℕ × ℤ)) : Except String AnalyticsProduct := do
  let quantity ← analyticsU64 entry.2.1 "top product quantity"
  let revenueMinor ← analyticsI64 entry.2.2 "top product revenue"
  return ⟨entry.1.1, entry.1.2, quantity, revenueMinor⟩

/-- The analytics of a currency. -/
def currencyAnalytics (entry : String × AnalyticsAccumulator) :
    Except String CommerceAnalytics := do
  let aggregate := entry.2
  let gross ← analyticsI64 aggregate.grossVolumeMinor "gross volume"
  let refunded ← analyticsI64 aggregate.refundedVolumeMinor "refunded volume"
  let products ← aggregate.topProducts.toList.mapM analyticsProduct
  let platformFees ← analyticsI64 aggregate.platformFeesMinor "platform fees"
  let orderCount ← analyticsU64 aggregate.orderCount "order count"
  let paidOrderCount ← analyticsU64 aggregate.paidOrderCount "paid order count"
  let refundedOrderCount ← analyticsU64 aggregate.refundedOrderCount "refunded order count"
  let failedOrderCount ← analyticsU64 aggregate.failedOrderCount "failed order count"
  let openDisputeCount ← analyticsU64 aggregate.openDisputeCount "open dispute count"
  let openDisputed ← analyticsI64 aggregate.openDisputedVolumeMinor "open disputed volume"
  let lostDisputeCount ← analyticsU64 aggregate.lostDisputeCount "lost dispute count"
  let lostDisputed ← analyticsI64 aggregate.lostDisputedVolumeMinor "lost disputed volume"
  let active ← analyticsU64 aggregate.activeSubscriptionCount "active subscription count"
  let trialing ← analyticsU64 aggregate.trialingSubscriptionCount "trialing subscription count"
  let pastDue ← analyticsU64 aggregate.pastDueSubscriptionCount "past-due subscription count"
  let canceled ← analyticsU64 aggregate.canceledSubscriptionCount "canceled subscription count"
  return {
    currency := entry.1
    grossVolumeMinor := gross
    refundedVolumeMinor := refunded
    netVolumeMinor := gross - refunded
    platformFeesMinor := platformFees
    orderCount := orderCount
    paidOrderCount := paidOrderCount
    refundedOrderCount := refundedOrderCount
    failedOrderCount := failedOrderCount
    openDisputeCount := openDisputeCount
    openDisputedVolumeMinor := openDisputed
    lostDisputeCount := lostDisputeCount
    lostDisputedVolumeMinor := lostDisputed
    activeSubscriptionCount := active
    trialingSubscriptionCount := trialing
    pastDueSubscriptionCount := pastDue
    canceledSubscriptionCount := canceled
    topProducts := (products.mergeSort productLe).take 5 }

/-- The analytics of the orders of a seller, or of all, by currency. -/
def commerceAnalytics (db : Database) (seller : Option String) :
    Except String (List CommerceAnalytics) := do
  let orders ← orderTotals db seller
  let byCurrency ← orders.foldlM addOrderGroup (∅ : BTreeMap AnalyticsAccumulator)
  let byCurrency ← (subscriptionTotals db seller).foldlM addSubscriptionGroup byCurrency
  let disputes ← disputeTotals db seller
  let byCurrency ← disputes.foldlM addDisputeGroup byCurrency
  let paid ← paidOrderIdsByCurrency db seller
  let byCurrency ← paid.toList.foldlM (addProducts db) byCurrency
  byCurrency.toList.mapM currencyAnalytics

end Analytics

end Products
