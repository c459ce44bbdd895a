import Impresspress.Concurrent.Script
import Impresspress.Products.Commerce.Refunds

/-!
# Runs of commerce requests

Requests of every kind run at one store, one call at a time. What a call does to the row of an
order, a refund or an operation is said once, here.

## Main definitions

* `Products.Commerce.CommerceRequest`: the requests, webhooks and worker passes.
* `Products.Commerce.serve`: requests run together along a schedule.
* `Products.Commerce.OrderChange`, `Products.Commerce.RefundChange`: what a call does to a row.

## Main results

* `Products.Commerce.orderChange`, `Products.Commerce.refundChange`: and it does nothing else.
-/

namespace Products

namespace Commerce

open Concurrent Relational

/-- A request to the block, a webhook delivery, or a pass of the reconcile worker. -/
inductive CommerceRequest where
  | checkout (request : CheckoutRequest)
  | sessionCompleted (purchaseId : RowId) (completion : CheckoutSessionCompletion)
  | sessionFailed (purchaseId : RowId) (completion : CheckoutSessionCompletion)
  | linkSession (session : LinkSession)
  | paymentIntent (event : PaymentIntentEvent)
  | chargeRefunded (event : ChargeRefundedEvent)
  | refundEvent (event : RefundEvent)
  | refund (id : RowId) (request : RefundRequest)
  | reconcile (limit : ℕ)

/-- A program whose answer is dropped. -/
def dropped {α : Type} (p : CommerceProgram α) : CommerceProgram Unit := do
  let _ ← p
  return ()

/-- The program of a request. -/
def CommerceRequest.program : CommerceRequest → CommerceProgram Unit
  | checkout request => dropped (handleOfferCheckout request)
  | sessionCompleted purchaseId completion => handleSessionCompleted purchaseId completion
  | sessionFailed purchaseId completion => dropped (reconcileCheckoutFailure purchaseId completion)
  | linkSession session => reconcilePaymentLinkSession session
  | paymentIntent event => handlePaymentIntent event
  | chargeRefunded event => handleChargeRefunded event
  | refundEvent event => handleRefundEvent event
  | refund id request => dropped (refundPurchase id request)
  | reconcile limit => dropped (reconcileProviderOperations limit)

variable {ι : Type}

abbrev CommerceMoment (ι : Type) := Moment ι CommerceStore CommerceAnswer

abbrev CommerceHistory (ι : Type) := History ι CommerceStore CommerceAnswer

/-- Requests run together; any statement may fail. -/
def serve [DecidableEq ι] (requests : ι → CommerceRequest) (start : CommerceStore)
    (schedule : List (ι × Chance)) :
    Pool ι CommerceStore CommerceAnswer (Except WaferError Unit) :=
  (Pool.launch start fun i => (requests i).program.run).exec perform schedule

/-- A request of the pool has finished without an error. -/
def succeeded (p : Pool ι CommerceStore CommerceAnswer (Except WaferError Unit)) (i : ι) : Bool :=
  match p.running i with
  | .done (.ok _) => true
  | _ => false

/-- The call did not fail. -/
def answered (m : CommerceMoment ι) : Bool := m.answer.isOk

/-- The order that a call answers. -/
def orderReadOf : (c : CommerceCall) → CommerceAnswer c → Option Order
  | .getOrder _, result => result.toOption
  | .orderByPaymentIntent _, result => result.toOption
  | .orderBySession _, result => result.toOption
  | .createOrder _, result => result.toOption
  | .setOrder .., result => result.toOption
  | _, _ => none

def orderRead (m : CommerceMoment ι) : Option Order := orderReadOf m.call m.answer

/-- Everything a call can do to the row of one order. -/
inductive OrderChange (id : RowId) (m : CommerceMoment ι) : Prop
  | unchanged (after : m.after.orders.get? id = m.before.orders.get? id)
  | created (snapshot : CheckoutOrderSnapshot) (call : m.call = .createOrder snapshot)
      (fresh : id = m.before.nextId) (next : m.after.nextId = id + 1)
      (before : m.before.orders.get? id = none)
      (after : m.after.orders.get? id = some (snapshot.row id)) (answer : answered m)
  | deleted (call : m.call = .deleteOrder id) (after : m.after.orders.get? id = none)
  | updated (filters : List OrderFilter) (write : OrderWrite) (order : Order)
      (call : m.call = .updateOrder id filters write)
      (before : m.before.orders.get? id = some order)
      (matched : filters.all (OrderFilter.matches order))
      (after : m.after.orders.get? id = some (write.apply order)) (answer : answered m)
  | set (write : OrderWrite) (order : Order) (call : m.call = .setOrder id write)
      (before : m.before.orders.get? id = some order)
      (after : m.after.orders.get? id = some (write.apply order)) (answer : answered m)

/-- A call that happened either failed, and the tables are as they were, or it was answered. -/
theorem happened_cases {m : CommerceMoment ι} (h : m.Happened perform) :
    (∃ e, m.answer = .error e ∧ m.call.isStatement ∧ m.after.orders = m.before.orders ∧
      m.after.refunds = m.before.refunds ∧ m.after.operations = m.before.operations) ∨
    m.Happened answer := by
  obtain ⟨i, s, c, ans, after⟩ := m
  obtain ⟨chance, hanswer, hafter⟩ := h
  simp only [perform] at hanswer hafter
  cases hfailure : chance.failure with
  | none =>
    rw [hfailure] at hanswer hafter
    exact .inr ⟨chance, hanswer, hafter⟩
  | some error =>
    rw [hfailure] at hanswer hafter
    by_cases hc : c.isStatement
    · simp only [hc, if_true] at hanswer hafter
      subst hanswer hafter
      exact .inl ⟨error, rfl, hc, rfl, rfl, rfl⟩
    · simp only [hc] at hanswer hafter
      exact .inr ⟨chance, hanswer, hafter⟩

/-- The row of another order is not touched by a write to an order. -/
theorem get?_replace_order {t t' : Table orderSchema} {id : RowId} {order : Order}
    {write : OrderWrite} (horder : t.get? id = some order)
    (h : t.replace (write.apply order) = some t') (id' : RowId) :
    t'.get? id' = if id' = id then some (write.apply order) else t.get? id' := by
  have hkey : orderSchema.key (write.apply order) = id :=
    (write.id_apply order).trans (Table.get?_eq_some_iff.mp horder).2
  split
  · rename_i hid
    rw [hid, ← hkey]
    rw [← hkey] at horder
    exact Table.get?_replace_self h horder
  · rename_i hid
    exact Table.get?_replace_of_ne h (by rwa [hkey])

/-- Fresh ids are never given out again. -/
theorem nextId_le {m : CommerceMoment ι} (h : m.Happened perform) :
    m.before.nextId ≤ m.after.nextId := by
  obtain ⟨i, s, c, ans, after⟩ := m
  obtain ⟨chance, hanswer, hafter⟩ := h
  simp only at hanswer hafter
  subst hanswer hafter
  have hanswerNow : s.nextId ≤ (answer chance c s).2.nextId := by
    cases c <;> simp only [answer, answerNow, counted, written] <;>
      (repeat' split) <;> simp
  unfold perform
  split
  · split
    · exact Nat.le_refl _
    · exact hanswerNow
  · exact hanswerNow

/-- A write to an order is never refused. -/
theorem replace_order {t : Table orderSchema} (order : Order) : t.replace order ≠ none := by
  rw [Ne, Table.replace_eq_none_iff]
  rintro ⟨r, -, hne, hclash⟩
  exact hclash ⟨hne, rfl, rfl⟩

theorem orderChange {m : CommerceMoment ι} (h : m.Happened perform) (id : RowId) :
    OrderChange id m := by
  rcases happened_cases h with ⟨e, -, -, horders, -⟩ | ⟨chance, hanswer, hafter⟩
  · exact .unchanged (by rw [horders])
  obtain ⟨i, s, c, ans, after⟩ := m
  simp only at hanswer hafter
  subst hanswer hafter
  cases c with
  | utcNow | newUuid | getOrder | orderByPaymentIntent | orderBySession | addLineItem
  | deleteLineItems | getRefund | refundByKey | refundByProviderId | activeRefund
  | operationByKey | operationsFor | openOperations | loadStripeClient | stripeCreateRefund
  | stripeRetrieveRefund | stripeCreateSession => exact .unchanged rfl
  | createRefund claim =>
    refine .unchanged ?_
    simp only [answer, answerNow]
    split <;> rfl
  | upsertOperation operation =>
    refine .unchanged ?_
    simp only [answer, answerNow]
    split <;> rfl
  | updateRefund id' filters write =>
    refine .unchanged ?_
    simp only [answer, answerNow, counted]
    split <;> rfl
  | updateOperation key status owner write =>
    refine .unchanged ?_
    simp only [answer, answerNow, counted]
    split <;> rfl
  | setRefund id' write =>
    refine .unchanged ?_
    simp only [answer, answerNow, written]
    split
    · rfl
    · split <;> rfl
  | setOperation key write =>
    refine .unchanged ?_
    simp only [answer, answerNow, written]
    split
    · rfl
    · split <;> rfl
  | createOrder snapshot =>
    cases hinsert : s.orders.insert (snapshot.row s.nextId) with
    | none => exact .unchanged (by simp [answer, answerNow, hinsert])
    | some t =>
      by_cases hid : id = s.nextId
      · subst hid
        exact .created snapshot rfl rfl (by simp [answer, answerNow, hinsert])
          (Table.get?_of_insert hinsert)
          (by simp only [answer, answerNow, hinsert]; exact Table.get?_insert_self hinsert)
          (by simp [answered, answer, answerNow, hinsert, Except.isOk, Except.toBool])
      · exact .unchanged (by
          simp only [answer, answerNow, hinsert]; exact Table.get?_insert_of_ne hinsert hid)
  | deleteOrder id' =>
    by_cases hid : id = id'
    · subst hid
      exact .deleted rfl (Table.get?_erase_self _ _)
    · exact .unchanged (Table.get?_erase_of_ne _ hid)
  | updateOrder id' filters write =>
    rcases s.orders.updateWhere_cases id' (fun order => filters.all (OrderFilter.matches order))
      write.apply with hnone | ⟨hzero, -⟩ | ⟨order, t, hone, hget, hmatch, hreplace⟩
    · exact .unchanged (by simp [answer, answerNow, counted, hnone])
    · exact .unchanged (by simp [answer, answerNow, counted, hzero])
    · have hafter := get?_replace_order hget hreplace id
      by_cases hid : id = id'
      · subst hid
        rw [if_pos rfl] at hafter
        exact .updated filters write order rfl hget hmatch
          (by simp only [answer, answerNow, counted, hone]; exact hafter)
          (by simp [answered, answer, answerNow, counted, hone, Except.isOk, Except.toBool])
      · rw [if_neg hid] at hafter
        exact .unchanged (by simp only [answer, answerNow, counted, hone]; exact hafter)
  | setOrder id' write =>
    cases hget : s.orders.get? id' with
    | none => exact .unchanged (by simp [answer, answerNow, written, hget])
    | some order =>
      cases hreplace : s.orders.replace (write.apply order) with
      | none => exact absurd hreplace (replace_order _)
      | some t =>
        have hafter := get?_replace_order hget hreplace id
        by_cases hid : id = id'
        · subst hid
          rw [if_pos rfl] at hafter
          exact .set write order rfl hget
            (by simp only [answer, answerNow, written, hget, hreplace]; exact hafter)
            (by simp [answered, answer, answerNow, written, hget, hreplace, Except.isOk,
              Except.toBool])
        · rw [if_neg hid] at hafter
          exact .unchanged
            (by simp only [answer, answerNow, written, hget, hreplace]; exact hafter)

/-- An update that is answered and whose filters match the order is made. -/
theorem updated_of_matches {m : CommerceMoment ι} (h : m.Happened perform) {id : RowId}
    {filters : List OrderFilter} {write : OrderWrite} {order : Order}
    (hcall : m.call = .updateOrder id filters write) (hanswered : answered m)
    (hbefore : m.before.orders.get? id = some order)
    (hmatch : filters.all (OrderFilter.matches order)) :
    m.after.orders.get? id = some (write.apply order) := by
  obtain ⟨i, s, c, ans, after⟩ := m
  rcases happened_cases h with ⟨e, herror, -⟩ | ⟨chance, hanswer, hafter⟩
  · simp only at herror
    subst herror
    simp [answered, Except.isOk, Except.toBool] at hanswered
  simp only at hcall hbefore hanswer hafter
  subst hcall hanswer hafter
  rcases s.orders.updateWhere_cases id (fun order => filters.all (OrderFilter.matches order))
    write.apply with hnone | ⟨-, hnot⟩ | ⟨order', t, hone, hget, -, hreplace⟩
  · simp [answered, answer, answerNow, counted, hnone, Except.isOk, Except.toBool] at hanswered
  · rw [hnot order hbefore] at hmatch
    cases hmatch
  · rw [hbefore, Option.some.injEq] at hget
    subst hget
    have hafter := get?_replace_order hbefore hreplace id
    rw [if_pos rfl] at hafter
    simp only [answer, answerNow, counted, hone]
    exact hafter

/-- An unconditional update that is answered is made. -/
theorem set_of_answered {m : CommerceMoment ι} (h : m.Happened perform) {id : RowId}
    {write : OrderWrite} {order : Order} (hcall : m.call = .setOrder id write)
    (hanswered : answered m) (hbefore : m.before.orders.get? id = some order) :
    m.after.orders.get? id = some (write.apply order) := by
  obtain ⟨i, s, c, ans, after⟩ := m
  rcases happened_cases h with ⟨e, herror, -⟩ | ⟨chance, hanswer, hafter⟩
  · simp only at herror
    subst herror
    simp [answered, Except.isOk, Except.toBool] at hanswered
  simp only at hcall hbefore hanswer hafter
  subst hcall hanswer hafter
  cases hreplace : s.orders.replace (write.apply order) with
  | none => exact absurd hreplace (replace_order _)
  | some t =>
    have hafter := get?_replace_order hbefore hreplace id
    rw [if_pos rfl] at hafter
    simp only [answer, answerNow, written, hbefore, hreplace]
    exact hafter

/-- An order that is answered is the one in the table. -/
theorem orderRead_eq {m : CommerceMoment ι} (h : m.Happened perform) {order : Order}
    (hread : orderRead m = some order) : m.after.orders.get? order.id = some order := by
  obtain ⟨i, s, c, ans, after⟩ := m
  rcases happened_cases h with ⟨e, herror, -⟩ | ⟨chance, hanswer, hafter⟩
  · simp only at herror
    subst herror
    cases c <;> cases hread
  simp only at hanswer hafter
  subst hanswer hafter
  -- a row that a search has found is found by its id
  have hfound : ∀ (row : Option Order), (∀ r, row = some r → r ∈ s.orders.rows) →
      (found row).toOption = some order → s.orders.get? order.id = some order := by
    intro row hmem hrow
    cases row with
    | none => cases hrow
    | some row =>
      cases hrow
      exact Table.get?_eq_some_iff.mpr ⟨hmem order rfl, rfl⟩
  cases c with
  | getOrder id => exact hfound (s.orders.get? id) (fun r hr => (Table.get?_eq_some_iff.mp hr).1) hread
  | orderByPaymentIntent paymentIntent =>
    exact hfound _ (fun r hr => List.mem_of_find?_eq_some hr) hread
  | orderBySession sessionId =>
    exact hfound _ (fun r hr => List.mem_of_find?_eq_some hr) hread
  | createOrder snapshot =>
    cases hinsert : s.orders.insert (snapshot.row s.nextId) with
    | none => simp [orderRead, orderReadOf, answer, answerNow, hinsert, Except.toOption] at hread
    | some t =>
      simp only [orderRead, orderReadOf, answer, answerNow, hinsert,
        Except.toOption, Option.some.injEq] at hread
      subst hread
      simp only [answer, answerNow, hinsert]
      exact Table.get?_insert_self hinsert
  | setOrder id write =>
    cases hget : s.orders.get? id with
    | none => simp [orderRead, orderReadOf, answer, answerNow, written, hget, Except.toOption] at hread
    | some row =>
      cases hreplace : s.orders.replace (write.apply row) with
      | none => exact absurd hreplace (replace_order _)
      | some t =>
        simp only [orderRead, orderReadOf, answer, answerNow, written, hget, hreplace,
          Except.toOption, Option.some.injEq] at hread
        subst hread
        have hafter := get?_replace_order hget hreplace (write.apply row).id
        rw [if_pos ((write.id_apply row).trans (Table.get?_eq_some_iff.mp hget).2)] at hafter
        simp only [answer, answerNow, written, hget, hreplace]
        exact hafter
  | utcNow | newUuid | addLineItem | deleteLineItems | deleteOrder | updateOrder | getRefund
  | refundByKey | refundByProviderId | activeRefund | createRefund | updateRefund | setRefund
  | upsertOperation | operationByKey | operationsFor | openOperations | updateOperation
  | setOperation | loadStripeClient | stripeCreateRefund | stripeRetrieveRefund
  | stripeCreateSession => cases hread

section Script

variable [DecidableEq ι] {issues : ι → CommerceHistory ι → CommerceCall → Prop}
  {start : CommerceStore} {i : ι} {α : Type}

open Discipline

theorem safe_done {a : α} {past : CommerceHistory ι} :
    (script issues).Safe perform start i (.done a : Program CommerceCall CommerceAnswer α) past
      fun _ _ => True :=
  Safe.done (Stable.true i) trivial

/-- A call, and what follows when it is answered; when it fails the program ends. -/
theorem safe_call {c : CommerceCall} {f : CommerceReply c → CommerceProgram α}
    {past : CommerceHistory ι} (P : CommerceHistory ι → Prop) (hP : P (past.own i))
    (hissues : ∀ own, P own → issues i own c)
    (hnext : ∀ past chance s reply, P (History.own i past) → (perform chance c s).1 = .ok reply →
      (script issues).Safe perform start i (f reply).run
        (Pool.momentOf perform i chance c s :: past) fun _ _ => True) :
    (script issues).Safe perform start i (call c >>= f).run past fun _ _ => True := by
  refine Safe.script_call P hP hissues fun past chance s hpast => ?_
  cases hanswer : (perform chance c s).1 with
  | error e => exact safe_done
  | ok reply => exact hnext past chance s reply hpast hanswer

/-- A call whose failure is looked at. -/
theorem safe_attempt {c : CommerceCall} {f : Except WaferError (CommerceReply c) → CommerceProgram α}
    {past : CommerceHistory ι} (P : CommerceHistory ι → Prop) (hP : P (past.own i))
    (hissues : ∀ own, P own → issues i own c)
    (hnext : ∀ past chance s, P (History.own i past) →
      (script issues).Safe perform start i (f (perform chance c s).1).run
        (Pool.momentOf perform i chance c s :: past) fun _ _ => True) :
    (script issues).Safe perform start i (attempt (call c) >>= f).run past fun _ _ => True :=
  Safe.script_call P hP hissues hnext

/-- A search that may find nothing. -/
theorem safe_optional {c : CommerceCall} {f : Option (CommerceReply c) → CommerceProgram α}
    {past : CommerceHistory ι} (P : CommerceHistory ι → Prop) (hP : P (past.own i))
    (hissues : ∀ own, P own → issues i own c)
    (hsome : ∀ past chance s row, P (History.own i past) → (perform chance c s).1 = .ok row →
      (script issues).Safe perform start i (f (some row)).run
        (Pool.momentOf perform i chance c s :: past) fun _ _ => True)
    (hnone : ∀ past chance s, P (History.own i past) →
      (script issues).Safe perform start i (f none).run
        (Pool.momentOf perform i chance c s :: past) fun _ _ => True) :
    (script issues).Safe perform start i (optional (call c) >>= f).run past fun _ _ => True := by
  refine Safe.script_call P hP hissues fun past chance s hpast => ?_
  cases hanswer : (perform chance c s).1 with
  | ok row => exact hsome past chance s row hpast hanswer
  | error e =>
    change (script issues).Safe perform start i
      ((if e.code = .notFound then pure none else throw e : CommerceProgram _) >>= f).run _ _
    split
    · exact hnone past chance s hpast
    · exact safe_done

/-- A program whose continuation needs to know nothing. -/
theorem safe_bind {β : Type} {p : CommerceProgram β} {f : β → CommerceProgram α}
    {past : CommerceHistory ι}
    (hp : (script issues).Safe perform start i p.run past fun _ _ => True)
    (hf : ∀ b past, (script issues).Safe perform start i (f b).run past fun _ _ => True) :
    (script issues).Safe perform start i (p >>= f).run past fun _ _ => True :=
  Safe.bind (hp.mono fun result past _ =>
    match result with
    | .ok b => hf b past
    | .error _ => safe_done)

variable {β : Type}

/-- The program issues only what its script allows, whatever went before. -/
structure SafeFrom (issues : ι → CommerceHistory ι → CommerceCall → Prop) (start : CommerceStore)
    (i : ι) (p : CommerceProgram α) : Prop where
  safe : ∀ past, (script issues).Safe perform start i p.run past fun _ _ => True

theorem SafeFrom.pure (result : Except WaferError α) :
    SafeFrom issues start i (ExceptT.mk (Pure.pure result) : CommerceProgram α) :=
  ⟨fun _ => safe_done⟩

theorem SafeFrom.bind {p : CommerceProgram β} {f : β → CommerceProgram α}
    (hp : SafeFrom issues start i p) (hf : ∀ b, SafeFrom issues start i (f b)) :
    SafeFrom issues start i (p >>= f) :=
  ⟨fun past => safe_bind (hp.safe past) fun b => (hf b).safe⟩

theorem SafeFrom.attempt {p : CommerceProgram α} (hp : SafeFrom issues start i p) :
    SafeFrom issues start i (attempt p) :=
  ⟨fun past => Safe.bind ((hp.safe past).mono fun _ _ _ => safe_done)⟩

theorem SafeFrom.call {c : CommerceCall} (h : ∀ own, issues i own c) :
    SafeFrom issues start i (call c) :=
  ⟨fun _ => Safe.script_call (fun _ => True) trivial (fun own _ => h own) fun _ _ _ _ => safe_done⟩

theorem SafeFrom.optional {p : CommerceProgram α} (hp : SafeFrom issues start i p) :
    SafeFrom issues start i (optional p) := by
  refine hp.attempt.bind fun result => ?_
  cases result with
  | ok row => exact .pure (.ok (some row))
  | error error =>
    dsimp only
    split
    · exact .pure (.ok none)
    · exact .pure (.error error)

/-- A program whose calls its script always allows. -/
theorem SafeFrom.only {K : CommerceCall → Prop} {p : CommerceProgram α} (hp : p.run.Only K)
    (h : ∀ own c, K c → issues i own c) : SafeFrom issues start i p :=
  ⟨fun _ => (Safe.script_only (fun _ => True) hp trivial (fun own c _ => h own c)
    fun _ _ _ _ _ _ => trivial).mono fun _ _ _ => trivial⟩

end Script

end Commerce

end Products
