import Impresspress.Products.Commerce.Footprints

/-!
# What the writers of an order issue

Every writer of an order has checked what it writes: against the order as it has read it, or
against a condition of the update itself. The checks of all of them are collected in one script,
which knows nothing of what the others do in between.

## Main definitions

* `Products.Commerce.WriteAllowed`: what an update of an order has been checked for.
* `Products.Commerce.OrderIssues`: the script.

## Main results

* `Products.Commerce.program_orderSafe`: every request follows the script.
-/

namespace Products

namespace Commerce

open Concurrent Discipline

/-- The total is made up of the other amounts, and is not negative. -/
structure MoneyBreakdown.Balanced (amounts : MoneyBreakdown) : Prop where
  total_eq : amounts.totalMinor =
    amounts.subtotalMinor - amounts.discountMinor + amounts.taxMinor + amounts.shippingMinor
  nonneg : 0 ≤ amounts.totalMinor

/-- The total of a session is made up of its other amounts, and is not negative. -/
structure CheckoutSessionCompletion.Balanced (completion : CheckoutSessionCompletion) : Prop where
  total_eq : completion.totalMinor = completion.subtotalMinor - completion.discountMinor +
    completion.taxMinor + completion.shippingMinor
  nonneg : 0 ≤ completion.totalMinor

variable {ι : Type}

/-- The program has read an order that has `P`. -/
def HasRead (P : Order → Prop) (own : CommerceHistory ι) : Prop :=
  ∃ m ∈ own, ∃ order, orderRead m = some order ∧ P order

/-- The statuses of an order whose refunded total may still grow. -/
def refundableStatuses : List OrderStatus := [.completed, .partiallyRefunded]

/-- The status of an order whose refunded total has reached `target`. -/
def refundedStatus (target total : ℤ) : OrderStatus :=
  if target = total then .refunded else .partiallyRefunded

/-- What an update of the order `id` under the filters has been checked for. -/
def WriteAllowed (own : CommerceHistory ι) (id : RowId) (filters : List OrderFilter) :
    OrderWrite → Prop
  | .checkoutStarted => .status .pending ∈ filters
  | .completed completion _ => .statusIn awaitingStatuses ∈ filters ∧ completion.Balanced ∧
    HasRead (fun order => order.id = id ∧ order.subtotalCents = completion.subtotalMinor) own
  | .linkCompleted .. => .statusIn awaitingStatuses ∈ filters
  | .checkoutFailed => .statusIn awaitingStatuses ∈ filters
  | .intentSynced _ reconciliation => ∃ status, .status status ∈ filters ∧
    (status.isPaid → reconciliation = none)
  | .refunded status target => .statusIn refundableStatuses ∈ filters ∧
    HasRead (fun order => order.id = id ∧ order.status.isPaid ∧ 0 < target ∧
      target ≤ order.totalCents ∧ status = refundedStatus target order.totalCents) own
  | .sessionSaved _ => False
  | .sessionAdopted _ => False

/-- What a request may issue on the table of orders. -/
def OrderIssues (own : CommerceHistory ι) : CommerceCall → Prop
  | .createOrder snapshot => snapshot.amounts.Balanced
  | .updateOrder id filters write => WriteAllowed own id filters write
  | .setOrder _ (.sessionSaved _) => True
  | .setOrder _ (.sessionAdopted _) => True
  | .setOrder _ .checkoutFailed => True
  | .setOrder .. => False
  | _ => True

/-- Stripe reports no negative total. -/
def CommerceRequest.TotalsNonneg : CommerceRequest → Prop
  | sessionCompleted _ completion => 0 ≤ completion.totalMinor
  | linkSession session => ∀ total ∈ session.amountTotal, 0 ≤ total
  | _ => True

/-! ### What has been checked -/

theorem identityConflict_subtotal {purchaseId : RowId} {purchase : Order}
    {completion : CheckoutSessionCompletion}
    (h : identityConflict purchaseId purchase completion = none) :
    purchase.subtotalCents = completion.subtotalMinor := by
  by_contra hne
  unfold identityConflict at h
  repeat' split at h
  all_goals simp_all

theorem amountConflict_total {metadata : CheckoutMetadata} {completion : CheckoutSessionCompletion}
    (h : amountConflict metadata completion = none) :
    completion.totalMinor = completion.subtotalMinor - completion.discountMinor +
      completion.taxMinor + completion.shippingMinor := by
  unfold amountConflict at h
  split at h
  · cases h
  cases htotal : expectedTotal completion.subtotalMinor completion.discountMinor
      completion.taxMinor completion.shippingMinor with
  | none => simp [htotal] at h
  | some total =>
    have hexpected := expectedTotal_eq htotal
    by_contra hne
    rw [← hexpected] at hne
    simp [htotal, hne] at h

/-- A session that agrees with its order has the order's subtotal, and its amounts add up. -/
theorem completionConflict_none {purchaseId : RowId} {purchase : Order}
    {completion : CheckoutSessionCompletion}
    (h : completionConflict purchaseId purchase completion = none)
    (hnonneg : 0 ≤ completion.totalMinor) :
    purchase.subtotalCents = completion.subtotalMinor ∧ completion.Balanced := by
  unfold completionConflict at h
  split at h
  · cases h
  rw [Option.or_eq_none_iff] at h
  obtain ⟨hidentity, h⟩ := h
  refine ⟨identityConflict_subtotal hidentity, ?_, hnonneg⟩
  split at h
  · cases h
  split at h
  · cases h
  rw [Option.or_eq_none_iff] at h
  exact amountConflict_total h.1

private theorem ok_of_bind {α β : Type} {x : Except WaferError α} {f : α → Except WaferError β}
    {b : β} (h : (x >>= f) = .ok b) : ∃ a, x = .ok a ∧ f a = .ok b := by
  cases x with
  | error e => cases h
  | ok a => exact ⟨a, rfl, h⟩

theorem LinkSession.priced_balanced {session : LinkSession} {stored : StoredPaymentLink}
    {offer : LinkOffer} {amounts : MoneyBreakdown} {snapshot : CheckoutOrderSnapshot}
    (h : LinkSession.review.priced session stored offer amounts amounts.subtotalMinor =
      .ok snapshot)
    (hnonneg : ∀ total ∈ session.amountTotal, 0 ≤ total) : snapshot.amounts.Balanced := by
  unfold LinkSession.review.priced at h
  dsimp only at h
  split at h
  · cases h
  split at h
  · cases h
  rename_i total htotal
  split at h
  · cases h
  rename_i expected hexpected
  split at h
  · cases h
  rename_i hconsistent
  split at h
  · cases h
  split at h
  · cases h
  split at h
  · cases h
  obtain ⟨fee, -, h⟩ := ok_of_bind h
  obtain ⟨items, -, h⟩ := ok_of_bind h
  cases h
  rw [not_not] at hconsistent
  exact ⟨hconsistent.trans (expectedTotal_eq hexpected), hnonneg total htotal⟩

/-- The order of a reviewed Payment Link session has balanced amounts. -/
theorem LinkSession.review_balanced {session : LinkSession} {snapshot : CheckoutOrderSnapshot}
    (h : session.review = .ok snapshot) (hnonneg : ∀ total ∈ session.amountTotal, 0 ≤ total) :
    snapshot.amounts.Balanced := by
  unfold LinkSession.review at h
  obtain ⟨stored, -, h⟩ := ok_of_bind h
  dsimp only at h
  split at h
  · cases h
  split at h
  · cases h
  split at h
  · cases h
  split at h
  · cases h
  split at h
  · cases h
  obtain ⟨offer, -, h⟩ := ok_of_bind h
  split at h
  · cases h
  split at h
  · cases h
  split at h
  · cases h
  split at h
  · cases h
  rename_i hsubtotal
  rw [not_not] at hsubtotal
  rw [hsubtotal] at h
  exact priced_balanced h hnonneg

/-! ### The programs -/

section Script

variable [DecidableEq ι] {start : CommerceStore} {i : ι} {α : Type}

/-- The program follows the script of orders, whatever went before. -/
abbrev OrderSafe (start : CommerceStore) (i : ι) (p : CommerceProgram α) : Prop :=
  SafeFrom (fun _ : ι => OrderIssues) start i p

/-- What writes no order follows the script. -/
theorem Touches.orderSafe {p : CommerceProgram α} (hp : Touches [.reads, .refunds, .operations] p) :
    OrderSafe start i p := by
  refine .only hp fun own c hc => ?_
  cases c <;> trivial

/-- A row that a call of `i` has answered is one that `i` has read. -/
theorem hasRead_momentOf {chance : Chance} {c : CommerceCall} {s : CommerceStore}
    {past : CommerceHistory ι} {order : Order} {P : Order → Prop}
    (h : orderReadOf c (perform chance c s).1 = some order) (hP : P order) :
    HasRead P (History.own i (Pool.momentOf perform i chance c s :: past)) :=
  ⟨Pool.momentOf perform i chance c s, by rw [Pool.own_momentOf]; exact List.mem_cons_self,
    order, h, hP⟩

/-- An order that is asked for by its id has it. -/
theorem getOrder_id {chance : Chance} {id : RowId} {s : CommerceStore} {order : Order}
    (h : (perform chance (.getOrder id) s).1 = .ok order) : order.id = id := by
  have hfound : found (s.orders.get? id) = .ok order := by
    unfold perform at h
    split at h
    · cases h
    · exact h
  cases hget : s.orders.get? id with
  | none => rw [hget] at hfound; cases hfound
  | some row =>
    rw [hget] at hfound
    cases hfound
    exact (Relational.Table.get?_eq_some_iff.mp hget).2

theorem reconcileRefundTotal_orderSafe (id : RowId) (target : ℤ) :
    OrderSafe start i (reconcileRefundTotal id target) := by
  refine ⟨fun past => ?_⟩
  refine safe_call (fun _ => True) trivial (fun _ _ => trivial) fun past chance s purchase _ h => ?_
  split
  · exact safe_done
  split
  · exact safe_done
  split
  · exact safe_done
  rename_i hbounds _ hrefundable
  rw [not_not] at hrefundable
  refine safe_call (HasRead fun order => order = purchase) (hasRead_momentOf (by
    rw [h]; rfl) rfl) ?_ ?_
  · rintro own ⟨m, hm, order, hread, rfl⟩
    exact ⟨by simp [refundableStatuses], m, hm, order, hread, getOrder_id h,
      OrderStatus.isPaid_of_isRefundable hrefundable, by omega, by omega, rfl⟩
  · intro past chance s rows _ _
    refine safe_call (fun _ => True) trivial (fun _ _ => trivial) fun past chance s order _ _ => ?_
    split <;> exact safe_done

theorem reconcileCheckoutSession_orderSafe (purchaseId : RowId)
    (completion : CheckoutSessionCompletion) (hnonneg : 0 ≤ completion.totalMinor) :
    OrderSafe start i (reconcileCheckoutSession purchaseId completion) := by
  refine ⟨fun past => ?_⟩
  refine safe_call (fun _ => True) trivial (fun _ _ => trivial) fun past chance s purchase _ h => ?_
  split
  · exact safe_done
  rename_i hnone
  obtain ⟨hsubtotal, hbalanced⟩ := completionConflict_none hnone hnonneg
  refine Safe.script_call (HasRead fun order => order = purchase) (hasRead_momentOf (by
    rw [h]; rfl) rfl) ?_ fun _ _ _ _ => safe_done
  rintro own ⟨m, hm, order, hread, rfl⟩
  exact ⟨by simp, hbalanced, m, hm, order, hread, getOrder_id h, hsubtotal⟩

theorem reconcileCheckoutFailure_orderSafe (purchaseId : RowId)
    (completion : CheckoutSessionCompletion) :
    OrderSafe start i (reconcileCheckoutFailure purchaseId completion) := by
  refine .bind (.call fun _ => trivial) fun purchase => ?_
  split
  · exact .pure (.error _)
  · exact .call fun _ => by simp [OrderIssues, WriteAllowed]

theorem createCheckoutOrder_orderSafe {snapshot : CheckoutOrderSnapshot}
    (h : snapshot.amounts.Balanced) : OrderSafe start i (createCheckoutOrder snapshot) := by
  refine .bind (.call fun _ => h) fun purchase => .bind ?_ fun _ => .pure (.ok _)
  induction snapshot.items with
  | zero => exact .pure (.ok ())
  | succ items ih =>
    refine .bind (.attempt (.call fun _ => trivial)) fun result => ?_
    cases result with
    | ok _ => exact ih
    | error error =>
      exact .bind (.attempt (.bind (.call fun _ => trivial) fun _ => .call fun _ => trivial))
        fun _ => .pure (.error error)

theorem recordCheckoutFailure_orderSafe (orderId : RowId) :
    OrderSafe start i (recordCheckoutFailure orderId) :=
  .bind (.attempt (.call fun _ => trivial)) fun _ => .pure (.ok ())

theorem handleOfferCheckout_orderSafe (request : CheckoutRequest) :
    OrderSafe start i (handleOfferCheckout request) := by
  have hbalanced : request.snapshot.amounts.Balanced :=
    ⟨by simp [CheckoutRequest.snapshot, CheckoutQuote.amounts], by
      have := request.quote.positive
      simp only [CheckoutRequest.snapshot, CheckoutQuote.amounts]
      omega⟩
  refine .bind (createCheckoutOrder_orderSafe hbalanced) fun order => ?_
  refine .bind (.call fun _ => by simp [OrderIssues, WriteAllowed]) fun rows => ?_
  split
  · exact .pure (.error _)
  split
  · exact .bind (recordCheckoutFailure_orderSafe _) fun _ => .pure (.error _)
  refine .bind (.attempt (.call fun _ => trivial)) fun result => ?_
  split
  · exact .bind (recordCheckoutFailure_orderSafe _) fun _ => .pure (.error _)
  split
  · exact .bind (recordCheckoutFailure_orderSafe _) fun _ => .pure (.error _)
  · exact .bind (.call fun _ => trivial) fun _ => .pure (.ok _)

theorem reconcilePaymentLinkSession_orderSafe (session : LinkSession)
    (hnonneg : ∀ total ∈ session.amountTotal, 0 ≤ total) :
    OrderSafe start i (reconcilePaymentLinkSession session) := by
  unfold reconcilePaymentLinkSession
  split
  · exact .pure (.error _)
  refine .bind (.optional (.call fun _ => trivial)) fun existing => ?_
  split
  · exact .pure (.ok ())
  cases hreview : session.review with
  | error error => exact .pure (.error error)
  | ok snapshot =>
    have horder : OrderSafe start i (session.order snapshot existing) := by
      cases existing with
      | some order => exact .pure (.ok order)
      | none =>
        exact .bind (createCheckoutOrder_orderSafe (LinkSession.review_balanced hreview hnonneg))
          fun order => .bind (.call fun _ => trivial) fun _ => .pure (.ok order)
    change OrderSafe start i (session.order snapshot existing >>= _)
    refine horder.bind fun order => ?_
    split
    · exact .pure (.error _)
    refine .bind (.call fun _ => by simp [OrderIssues, WriteAllowed]) fun rows => ?_
    split
    · exact .pure (.error _)
    · exact .pure (.ok ())

theorem writeIntent_orderSafe (snapshot : PaymentIntentSnapshot) (purchase : Order)
    (reconciliation : Option ReconciliationStatus)
    (h : purchase.status.isPaid → reconciliation = none) :
    OrderSafe start i (writeIntent snapshot purchase reconciliation) :=
  .bind (.call fun _ => ⟨purchase.status, by simp, h⟩) fun _ =>
    .bind (.call fun _ => trivial) fun _ => .pure (.ok _)

theorem handlePaymentIntent_orderSafe (event : PaymentIntentEvent) :
    OrderSafe start i (handlePaymentIntent event) := by
  unfold handlePaymentIntent
  split
  · exact .pure (.error _)
  split
  · exact .pure (.error _)
  refine .bind ?_ fun _ => .pure (.ok ())
  unfold syncPaymentIntent
  split
  · exact .pure (.error _)
  split
  · exact .pure (.error _)
  refine .bind ?_ fun purchase => ?_
  · unfold findForIntent
    split
    · exact .optional (.call fun _ => trivial)
    · exact .optional (.call fun _ => trivial)
  cases purchase with
  | none => exact .pure (.ok none)
  | some purchase =>
    dsimp only
    unfold syncPurchase
    split
    · exact .pure (.ok none)
    split
    · exact .pure (.error _)
    split
    · exact .pure (.ok _)
    split
    · split
      · exact .pure (.ok _)
      split
      · exact .pure (.error _)
      · exact writeIntent_orderSafe _ _ none fun _ => rfl
    rename_i hunpaid
    split
    · exact .pure (.error _)
    split
    · exact .pure (.error _)
    · exact writeIntent_orderSafe _ _ _ fun hpaid => absurd hpaid hunpaid

theorem handleChargeRefunded_orderSafe (event : ChargeRefundedEvent) :
    OrderSafe start i (handleChargeRefunded event) := by
  unfold handleChargeRefunded
  split
  · exact .pure (.ok ())
  refine .bind (.optional (.call fun _ => trivial)) fun purchase => ?_
  split
  · exact .pure (.ok ())
  split
  · exact .pure (.error _)
  split
  · exact .pure (.error _)
  split
  · exact .pure (.error _)
  split
  · exact .pure (.error _)
  · exact .bind (reconcileRefundTotal_orderSafe _ _) fun _ => .pure (.ok ())

theorem refundManually_orderSafe (request : RefundRequest) (purchase : Order) :
    OrderSafe start i (refundManually request purchase) := by
  refine .bind (.optional (.call fun _ => trivial)) fun existing => ?_
  refine .bind (.pure _) fun claim => ?_
  split
  · exact .bind (.call fun _ => trivial) fun _ => .pure (.ok _)
  · exact .bind ((claimRefund_touches claim).mono (by simp)).orderSafe fun refund =>
      .bind (reconcileRefundTotal_orderSafe _ _) fun _ =>
        .bind (.call fun _ => trivial) fun _ => .pure (.ok _)

theorem settleRefund_orderSafe (purchaseId : RowId) (refund : Refund) (operation : Operation)
    (response : Refund → Option ProviderResponse) :
    OrderSafe start i (settleRefund purchaseId refund operation response) :=
  .bind (reconcileRefundTotal_orderSafe _ _) fun _ => .bind (.call fun _ => trivial) fun _ =>
    .bind (Touches.orderSafe ((resolveUnleased_touches ..).mono (by simp))) fun _ => .pure (.ok _)

theorem sendRefund_orderSafe (purchase : Order) (refund : Refund) (operation : Operation) :
    OrderSafe start i (sendRefund purchase refund operation) := by
  refine .bind (.attempt (Touches.orderSafe ((createRefund_touches ..).mono (by simp))))
    fun result => ?_
  split
  · exact .bind (recordRefusal_touches ..).orderSafe fun _ => .pure (.error _)
  refine .bind (Touches.orderSafe ((recordProviderResponse_touches ..).mono (by simp)))
    fun refund => ?_
  split
  · exact settleRefund_orderSafe ..
  split
  · exact .bind (Touches.orderSafe ((resolveUnleased_touches ..).mono (by simp)))
      fun _ => .pure (.ok _)
  · exact .pure (.ok _)

theorem refundAtStripe_orderSafe (request : RefundRequest) (purchase : Order) :
    OrderSafe start i (refundAtStripe request purchase) := by
  unfold refundAtStripe
  split
  · exact .pure (.error _)
  refine .bind (.optional (.call fun _ => trivial)) fun existing => ?_
  refine .bind (.pure _) fun claim => ?_
  refine .bind (Touches.orderSafe ((claimRefund_touches claim).mono (by simp))) fun refund => ?_
  refine .bind (Touches.orderSafe ((ensureOperation_touches refund).mono (by simp)))
    fun operation => ?_
  unfold continueRefund
  split
  · exact .bind (Touches.orderSafe ((resolveUnleased_touches ..).mono (by simp))) fun _ =>
      .bind (.call fun _ => trivial) fun _ => .pure (.ok _)
  · exact settleRefund_orderSafe ..
  · split
    · exact .pure (.ok _)
    · exact sendRefund_orderSafe ..
  · exact sendRefund_orderSafe ..

theorem refundPurchase_orderSafe (id : RowId) (request : RefundRequest) :
    OrderSafe start i (refundPurchase id request) := by
  unfold refundPurchase
  split
  · exact .pure (.error _)
  refine .bind (.call fun _ => trivial) fun purchase => ?_
  split
  · exact .pure (.error _)
  split
  · exact .pure (.error _)
  split
  · exact refundAtStripe_orderSafe ..
  · exact refundManually_orderSafe ..

theorem reconcileRefundOperation_orderSafe (operation : Operation) :
    OrderSafe start i (reconcileRefundOperation operation) := by
  refine .bind (.call fun _ => trivial) fun refund => ?_
  split
  · exact .pure (.ok _)
  refine .bind (.call fun _ => trivial) fun purchase => ?_
  split
  · exact .pure (.error _)
  refine .bind (Touches.orderSafe ((recordReconciliation_touches ..).mono (by simp)))
    fun recorded => ?_
  obtain ⟨ledger, response⟩ := recorded
  dsimp only
  split
  · exact .bind (reconcileRefundTotal_orderSafe _ _) fun _ => .bind (.call fun _ => trivial)
      fun _ => .pure (.ok _)
  split
  · exact .bind (.call fun _ => trivial) fun _ => .pure (.ok _)
  · exact .pure (.ok _)

theorem recordOperationOutcome_orderSafe (claim : OperationClaim) :
    OrderSafe start i (recordOperationOutcome claim) := by
  refine .bind (.attempt (reconcileRefundOperation_orderSafe _)) fun outcome => ?_
  split
  · exact .bind (Touches.orderSafe ((markCompleted_touches ..).mono (by simp)))
      fun _ => .pure (.ok _)
  · exact .bind (Touches.orderSafe ((resolveUnleased_touches ..).mono (by simp)))
      fun _ => .pure (.ok _)
  · exact .bind (Touches.orderSafe ((markRetry_touches ..).mono (by simp)))
      fun _ => .pure (.ok _)
  · exact .bind (Touches.orderSafe ((markRetry_touches ..).mono (by simp)))
      fun _ => .pure (.ok _)

theorem reconcileProviderOperations_orderSafe (limit : ℕ) :
    OrderSafe start i (reconcileProviderOperations limit) := by
  refine .bind (Touches.orderSafe ((claimDue_touches _).mono (by simp))) fun batch => ?_
  generalize ProviderReconcileResult.mk .. = result
  induction batch.claims generalizing result with
  | nil => exact .pure (.ok _)
  | cons claim claims ih =>
    exact .bind (.attempt (recordOperationOutcome_orderSafe claim)) fun _ => ih _

theorem handleRefundEvent_orderSafe (event : RefundEvent) :
    OrderSafe start i (handleRefundEvent event) := by
  unfold handleRefundEvent
  split
  · exact .pure (.ok ())
  refine .bind (.optional (.call fun _ => trivial)) fun ledger => ?_
  split
  · exact .pure (.ok ())
  split
  · exact .pure (.error _)
  refine .bind (Touches.orderSafe ((recordWebhookResponse_touches ..).mono (by simp)))
    fun recorded => ?_
  obtain ⟨ledger, response⟩ := recorded
  dsimp only
  split
  · exact .bind (reconcileRefundTotal_orderSafe _ _) fun _ => .bind (.call fun _ => trivial)
      fun _ => Touches.orderSafe ((resolveForAggregate_touches ..).mono (by simp))
  split
  · exact Touches.orderSafe ((resolveForAggregate_touches ..).mono (by simp))
  · exact .pure (.ok ())

private theorem dropped_orderSafe {p : CommerceProgram α} (hp : OrderSafe start i p) :
    OrderSafe start i (dropped p) :=
  .bind hp fun _ => .pure (.ok ())

/-- Every request follows the script. -/
theorem program_orderSafe (request : CommerceRequest) (h : request.TotalsNonneg) :
    OrderSafe start i request.program := by
  cases request with
  | checkout request => exact dropped_orderSafe (handleOfferCheckout_orderSafe request)
  | sessionCompleted purchaseId completion =>
    change OrderSafe start i (handleSessionCompleted purchaseId completion)
    unfold handleSessionCompleted
    split
    · exact .pure (.ok ())
    · exact .bind (reconcileCheckoutSession_orderSafe purchaseId completion h) fun _ => .pure (.ok ())
  | sessionFailed purchaseId completion =>
    exact dropped_orderSafe (reconcileCheckoutFailure_orderSafe purchaseId completion)
  | linkSession session => exact reconcilePaymentLinkSession_orderSafe session h
  | paymentIntent event => exact handlePaymentIntent_orderSafe event
  | chargeRefunded event => exact handleChargeRefunded_orderSafe event
  | refundEvent event => exact handleRefundEvent_orderSafe event
  | refund id request => exact dropped_orderSafe (refundPurchase_orderSafe id request)
  | reconcile limit => exact dropped_orderSafe (reconcileProviderOperations_orderSafe limit)

end Script

end Commerce

end Products
