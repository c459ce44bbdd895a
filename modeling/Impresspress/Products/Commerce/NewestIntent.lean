import Impresspress.Products.Commerce.Runs

/-!
# The newest PaymentIntent event

PaymentIntent events of one order are handled by concurrent workers. Each writes under the
condition that no newer event is stored and that the order still has the PaymentIntent id it had
when it was read. The first event of an order changes that id, from empty to its own, so a worker
that has read the empty id no longer matches, and its event is dropped although its handler
succeeds.

## Main definitions

* `Products.Commerce.StoresEvent`: the order stores the state of an event.
* `Products.Commerce.FindsIntent`: a handler's update finds the PaymentIntent id it had read.

## Main results

* `Products.Commerce.newest_intent_stored_iff`: exactly when the newest event is stored.
-/

namespace Products

namespace Commerce

open Concurrent Relational Discipline

variable {ι : Type}

/-- The order stores the status and the creation time of the event. -/
def StoresEvent (id : RowId) (event : PaymentIntentEvent) (s : CommerceStore) : Prop :=
  ∃ order ∈ s.orders.get? id, event.status = some order.providerPaymentStatus ∧
    order.paymentIntentEventCreated = event.eventCreated

instance (id : RowId) (event : PaymentIntentEvent) (s : CommerceStore) :
    Decidable (StoresEvent id event s) :=
  inferInstanceAs (Decidable (∃ order ∈ s.orders.get? id, _ ∧ _))

/-- The order, and the PaymentIntent id it is expected to have, of an event's update. -/
def expectedIntent : CommerceCall → Option (RowId × String)
  | .updateOrder id [_, .providerPaymentIntentId read, _] _ => some (id, read)
  | _ => none

/-- A handler's update of the order does not fail, and finds the PaymentIntent id that the
handler has read. -/
def FindsIntent (id : RowId) (i : ι) (m : CommerceMoment ι) : Prop :=
  m.proc = i ∧ answered m ∧ ∃ order ∈ m.before.orders.get? id,
    expectedIntent m.call = some (id, order.providerPaymentIntentId)

instance [DecidableEq ι] (id : RowId) (i : ι) (m : CommerceMoment ι) :
    Decidable (FindsIntent id i m) :=
  inferInstanceAs (Decidable (_ ∧ _ ∧ _))

/-- What the handler of an event may issue: searches, and its update of an order it has read. -/
def IntentIssues (event : PaymentIntentEvent) (own : CommerceHistory ι) : CommerceCall → Prop
  | .getOrder _ => True
  | .orderByPaymentIntent _ => True
  | .updateOrder id filters write => ∃ m ∈ own, ∃ purchase status reconciliation,
    orderRead m = some purchase ∧ id = purchase.id ∧ event.status = some status ∧
    filters = [.status purchase.status, .providerPaymentIntentId purchase.providerPaymentIntentId,
      .paymentIntentEventCreatedLe event.eventCreated] ∧
    write = .intentSynced (event.snapshot status) reconciliation
  | _ => False

section Script

variable [DecidableEq ι] {events : ι → PaymentIntentEvent} {start : CommerceStore} {i : ι}

/-- What the handlers of a run may issue. -/
abbrev intents (events : ι → PaymentIntentEvent) :
    Discipline ι CommerceStore CommerceAnswer :=
  script fun i => IntentIssues (events i)

private theorem own_read {chance : Chance} {c : CommerceCall} {s : CommerceStore}
    {past : CommerceHistory ι} {purchase : Order}
    (h : orderRead (Pool.momentOf perform i chance c s) = some purchase) :
    ∃ m ∈ History.own i (Pool.momentOf perform i chance c s :: past), orderRead m = some purchase :=
  ⟨_, by rw [Pool.own_momentOf]; exact List.mem_cons_self, h⟩

theorem writeIntent_safe {past : CommerceHistory ι} {purchase : Order}
    {status : ProviderPaymentStatus} (hstatus : (events i).status = some status)
    (hread : ∃ m ∈ past.own i, orderRead m = some purchase)
    (reconciliation : Option ReconciliationStatus) :
    (intents events).Safe perform start i
      (writeIntent ((events i).snapshot status) purchase reconciliation).run past
      fun _ _ => True := by
  refine safe_call (fun own => ∃ m ∈ own, orderRead m = some purchase) hread ?_ ?_
  · rintro own ⟨m, hm, hread⟩
    exact ⟨m, hm, purchase, status, reconciliation, hread, rfl, hstatus, rfl, rfl⟩
  · intro past chance s rows _ _
    exact safe_call (fun _ => True) trivial (fun _ _ => trivial) fun _ _ _ _ _ _ => safe_done

theorem syncPurchase_safe {past : CommerceHistory ι} {purchase : Order}
    {status : ProviderPaymentStatus} (hstatus : (events i).status = some status)
    (hread : ∃ m ∈ past.own i, orderRead m = some purchase) (currency : String) :
    (intents events).Safe perform start i
      (syncPurchase ((events i).snapshot status) currency purchase).run past fun _ _ => True := by
  unfold syncPurchase
  split
  · exact safe_done
  split
  · exact safe_done
  split
  · exact safe_done
  split
  · split
    · exact safe_done
    split
    · exact safe_done
    · exact writeIntent_safe hstatus hread none
  split
  · exact safe_done
  split
  · exact safe_done
  · exact writeIntent_safe hstatus hread _

theorem syncPaymentIntent_safe {past : CommerceHistory ι} {status : ProviderPaymentStatus}
    (hstatus : (events i).status = some status) :
    (intents events).Safe perform start i
      (syncPaymentIntent ((events i).snapshot status)).run past fun _ _ => True := by
  unfold syncPaymentIntent
  split
  · exact safe_done
  split
  · exact safe_done
  unfold findForIntent
  -- whichever way the order is found, it is found by a call of this handler
  split
  · refine safe_optional (fun _ => True) trivial (fun _ _ => trivial) ?_ ?_
    · intro past chance s purchase _ hpurchase
      refine syncPurchase_safe hstatus (own_read ?_) _
      simp only [orderRead, Pool.momentOf, hpurchase, orderReadOf, Except.toOption]
    · exact fun past chance s _ => safe_done
  · refine safe_optional (fun _ => True) trivial (fun _ _ => trivial) ?_ ?_
    · intro past chance s purchase _ hpurchase
      refine syncPurchase_safe hstatus (own_read ?_) _
      simp only [orderRead, Pool.momentOf, hpurchase, orderReadOf, Except.toOption]
    · exact fun past chance s _ => safe_done

theorem handlePaymentIntent_safe (i : ι) :
    (intents events).Safe perform start i (handlePaymentIntent (events i)).run [] fun _ _ => True := by
  unfold handlePaymentIntent
  split
  · exact safe_done
  split
  · exact safe_done
  · rename_i status hstatus _
    exact safe_bind (syncPaymentIntent_safe hstatus) fun _ _ => safe_done

end Script

section Runs

variable [DecidableEq ι] {events : ι → PaymentIntentEvent} {start : CommerceStore}
  {id : RowId} {order : Order}

/-- A moment of a run of PaymentIntent handlers. -/
abbrev IntentMoment (events : ι → PaymentIntentEvent) (start : CommerceStore)
    (past : CommerceHistory ι) (m : CommerceMoment ι) : Prop :=
  Scripted perform start (fun i => IntentIssues (events i)) past m

/-- An event is written over what it finds. -/
structure Lands (events : ι → PaymentIntentEvent) (id : RowId) (m : CommerceMoment ι)
    (before after : Order) : Prop where
  finds : FindsIntent id m.proc m
  le : before.paymentIntentEventCreated ≤ (events m.proc).eventCreated
  status : after.status = before.status
  stored : (events m.proc).status = some after.providerPaymentStatus
  created : after.paymentIntentEventCreated = (events m.proc).eventCreated

/-- A call leaves the order alone, or writes its own event over it. -/
theorem lands_or_unchanged {past : CommerceHistory ι} {m : CommerceMoment ι}
    (h : IntentMoment events start past m) {before : Order}
    (hbefore : m.before.orders.get? id = some before) :
    ∃ after, m.after.orders.get? id = some after ∧
      (after = before ∨ Lands events id m before after) := by
  have hissues := h.issues
  rcases orderChange h.happened id with hafter | ⟨snapshot, hcall, -⟩ | ⟨hcall, -⟩ |
    ⟨filters, write, order, hcall, horder, hmatch, hafter, hanswer⟩ | ⟨write, order, hcall, -⟩
  · exact ⟨before, by rw [hafter, hbefore], .inl rfl⟩
  · rw [hcall] at hissues
    exact hissues.elim
  · rw [hcall] at hissues
    exact hissues.elim
  · rw [hcall] at hissues
    obtain ⟨-, -, purchase, status, reconciliation, -, rfl, hstatus, rfl, rfl⟩ := hissues
    rw [hbefore, Option.some.injEq] at horder
    subst horder
    simp only [List.all_cons, List.all_nil, OrderFilter.matches, Bool.and_true,
      Bool.and_eq_true, beq_iff_eq, decide_eq_true_eq] at hmatch
    refine ⟨_, hafter, .inr ⟨⟨rfl, hanswer, before, hbefore, ?_⟩, hmatch.2.2, rfl, hstatus, rfl⟩⟩
    rw [hcall, expectedIntent, hmatch.2.1]
  · rw [hcall] at hissues
    exact hissues.elim

/-- The order stays in the table, in the status it had. -/
theorem status_along (horder : start.orders.get? id = some order) {past : CommerceHistory ι}
    (h : Along (IntentMoment events start) past) :
    ∃ current, (past.store start).orders.get? id = some current ∧
      current.status = order.status := by
  induction past with
  | nil => exact ⟨order, horder, rfl⟩
  | cons m past ih =>
    obtain ⟨before, hbefore, hstatus⟩ := ih h.2
    rw [← h.1.before] at hbefore
    obtain ⟨after, hafter, rfl | hlands⟩ := lands_or_unchanged h.1 hbefore
    · exact ⟨after, hafter, hstatus⟩
    · exact ⟨after, hafter, hlands.status.trans hstatus⟩

/-- An update that finds the PaymentIntent id it had read is made, unless a newer event is
stored: the status it compares does not change. -/
theorem lands_of_finds (horder : start.orders.get? id = some order) {past : CommerceHistory ι}
    {m : CommerceMoment ι} (h : Along (IntentMoment events start) (m :: past))
    (hfinds : FindsIntent id m.proc m) {before : Order}
    (hbefore : m.before.orders.get? id = some before)
    (hle : before.paymentIntentEventCreated ≤ (events m.proc).eventCreated) :
    StoresEvent id (events m.proc) m.after := by
  obtain ⟨-, hanswered, found, hfound, hexpected⟩ := hfinds
  rw [Option.mem_def, hbefore, Option.some.injEq] at hfound
  subst hfound
  obtain ⟨filters, write, hcall⟩ : ∃ filters write, m.call = .updateOrder id filters write := by
    unfold expectedIntent at hexpected
    split at hexpected
    · simp only [Option.some.injEq, Prod.mk.injEq] at hexpected
      rename_i heq
      exact ⟨_, _, by rw [heq, hexpected.1]⟩
    · cases hexpected
  have hissues := h.1.issues
  rw [hcall] at hissues
  obtain ⟨readMoment, hread, purchase, status, reconciliation, hpurchase, hid, hstatus, rfl, rfl⟩ :=
    hissues
  have hintent : purchase.providerPaymentIntentId = before.providerPaymentIntentId := by
    simpa [hcall, expectedIntent] using hexpected
  -- the status that was read is the one that the order still has
  obtain ⟨later, earlier, rfl⟩ := List.append_of_mem (History.mem_own.mp hread).1
  have hpurchase' := orderRead_eq h.2.earlier.1.happened hpurchase
  obtain ⟨current, hcurrent, hcurrentStatus⟩ := status_along horder h.2.earlier
  rw [History.store_cons, hid, hpurchase', Option.some.injEq] at hcurrent
  subst hcurrent
  obtain ⟨current', hcurrent', hcurrentStatus'⟩ := status_along horder h.2
  rw [← h.1.before, hbefore, Option.some.injEq] at hcurrent'
  subst hcurrent'
  have hafter := updated_of_matches h.1.happened hcall hanswered hbefore (by
    simp [OrderFilter.matches, hcurrentStatus, hcurrentStatus', hintent, hle])
  exact ⟨_, hafter, hstatus, rfl⟩

variable {newest : ι}

/-- What is newer than every event is never overwritten. -/
theorem unchanged_along (horder : start.orders.get? id = some order)
    (hlt : ∀ i, (events i).eventCreated < order.paymentIntentEventCreated)
    {past : CommerceHistory ι} (h : Along (IntentMoment events start) past) :
    (past.store start).orders.get? id = some order := by
  induction past with
  | nil => exact horder
  | cons m past ih =>
    have hbefore := ih h.2
    rw [← h.1.before] at hbefore
    obtain ⟨after, hafter, rfl | hlands⟩ := lands_or_unchanged h.1 hbefore
    · exact hafter
    · have hle := hlands.le
      have hlt := hlt m.proc
      omega

/-- After any number of calls the newest event is stored if and only if it was stored at first, or
its update has found the PaymentIntent id that it expects. -/
theorem stores_newest_along (horder : start.orders.get? id = some order)
    (hnewest : ∀ i, i ≠ newest → (events i).eventCreated < (events newest).eventCreated)
    (hle : order.paymentIntentEventCreated ≤ (events newest).eventCreated)
    {past : CommerceHistory ι} (h : Along (IntentMoment events start) past) :
    (∃ current, (past.store start).orders.get? id = some current ∧
      current.paymentIntentEventCreated ≤ (events newest).eventCreated) ∧
    (StoresEvent id (events newest) (past.store start) ↔
      StoresEvent id (events newest) start ∨ ∃ m ∈ past, FindsIntent id newest m) := by
  induction past with
  | nil => exact ⟨⟨order, horder, hle⟩, by simp⟩
  | cons m past ih =>
    obtain ⟨⟨before, hbefore, hbeforeLe⟩, ih⟩ := ih h.2
    rw [← h.1.before] at hbefore ih
    have hcreatedLe : (events m.proc).eventCreated ≤ (events newest).eventCreated := by
      by_cases hproc : m.proc = newest
      · exact Int.le_of_eq (by rw [hproc])
      · exact Int.le_of_lt (hnewest _ hproc)
    rw [History.store_cons]
    obtain ⟨after, hafter, hcases⟩ := lands_or_unchanged h.1 hbefore
    have hafterLe : after.paymentIntentEventCreated ≤ (events newest).eventCreated := by
      rcases hcases with rfl | hlands
      · exact hbeforeLe
      · rw [hlands.created]
        exact hcreatedLe
    refine ⟨⟨after, hafter, hafterLe⟩, ?_⟩
    have hexists : (∃ m' ∈ m :: past, FindsIntent id newest m') ↔
        FindsIntent id newest m ∨ ∃ m' ∈ past, FindsIntent id newest m' := by simp
    rw [hexists]
    by_cases hfinds : FindsIntent id newest m
    · -- the newest event finds what it expects: it is stored now
      obtain rfl : m.proc = newest := hfinds.1
      exact ⟨fun _ => .inr (.inl hfinds), fun _ => lands_of_finds horder h hfinds hbefore hbeforeLe⟩
    rcases hcases with rfl | hlands
    · -- nothing is written
      have hsame : StoresEvent id (events newest) m.after ↔
          StoresEvent id (events newest) m.before := by
        simp only [StoresEvent, hafter, hbefore]
      rw [hsame, ih]
      simp [hfinds]
    · -- an older event is written, over one that is older still
      have hproc : m.proc ≠ newest := fun hproc => hfinds (hproc ▸ hlands.finds)
      have hlt := hnewest m.proc hproc
      have hnotAfter : ¬ StoresEvent id (events newest) m.after := by
        rintro ⟨found, hfound, -, hcreated⟩
        rw [Option.mem_def, hafter, Option.some.injEq] at hfound
        subst hfound
        rw [hlands.created] at hcreated
        omega
      have hnotBefore : ¬ StoresEvent id (events newest) m.before := by
        rintro ⟨found, hfound, -, hcreated⟩
        rw [Option.mem_def, hbefore, Option.some.injEq] at hfound
        subst hfound
        have := hlands.le
        omega
      rw [ih] at hnotBefore
      refine iff_of_false hnotAfter ?_
      rintro (hstart | hfinds' | hpast)
      · exact hnotBefore (.inl hstart)
      · exact hfinds hfinds'
      · exact hnotBefore (.inr hpast)

/-- PaymentIntent events run together leave the newest of them stored exactly when it was stored
already, or it is no older than what the order stored and the update of its handler finds the
order with the PaymentIntent id that the handler had read. -/
theorem newest_intent_stored_iff (events : ι → PaymentIntentEvent) (start : CommerceStore)
    (schedule : List (ι × Chance)) (newest : ι)
    (hnewest : ∀ i, i ≠ newest → (events i).eventCreated < (events newest).eventCreated)
    (horder : start.orders.get? id = some order) :
    StoresEvent id (events newest)
        (serve (fun i => .paymentIntent (events i)) start schedule).store ↔
      StoresEvent id (events newest) start ∨
        (order.paymentIntentEventCreated ≤ (events newest).eventCreated ∧
          ∃ m ∈ (serve (fun i => .paymentIntent (events i)) start schedule).history,
            FindsIntent id newest m) := by
  have h : Along (IntentMoment events start)
      (serve (fun i => .paymentIntent (events i)) start schedule).history :=
    exec_scripted handlePaymentIntent_safe schedule
  have hstart : (serve (fun i => .paymentIntent (events i)) start schedule).start = start :=
    Pool.exec_start perform _ schedule
  rw [Pool.store, hstart]
  by_cases hle : order.paymentIntentEventCreated ≤ (events newest).eventCreated
  · rw [(stores_newest_along horder hnewest hle h).2]
    simp [hle]
  · have hunchanged := unchanged_along horder (fun i => ?_) h
    · simp only [StoresEvent, hunchanged, horder, hle, false_and, or_false]
    · by_cases hi : i = newest
      · rw [hi]
        omega
      · have := hnewest i hi
        omega

end Runs

section Example

/-- An order that is being checked out, and has seen no PaymentIntent yet. -/
def startedOrder : Order where
  id := 0
  status := .checkoutStarted
  provider := "stripe"
  stripeAccountId := ""
  livemode := false
  currency := "EUR"
  subtotalCents := 2500
  discountCents := 0
  taxCents := 0
  shippingCents := 0
  totalCents := 2500
  refundedTotalCents := 0
  platformFeeCents := 0
  metadata := some ⟨some "payment", some "offer_1", some 1, some [0]⟩
  providerSessionId := "cs_1"
  providerPaymentIntentId := ""
  stripePaymentIntentId := ""
  providerPaymentStatus := .unset
  paymentIntentEventCreated := 0
  reconciliationStatus := .awaitingPayment

/-- A store with one order. -/
def storeOf (order : Order) : CommerceStore where
  orders := ⟨[order], List.pairwise_singleton ..⟩
  refunds := .empty
  operations := .empty
  clock := 0
  nextId := order.id + 1

/-- The PaymentIntent `pi_1` is first processing, and then requires an action. -/
def intentEvents (i : Fin 2) : PaymentIntentEvent where
  kind := if i.val = 0 then .processing else .requiresAction
  objectStatus := if i.val = 0 then "processing" else "requires_action"
  objectLivemode := none
  eventLivemode := false
  eventAccount := ""
  eventCreated := if i.val = 0 then 100 else 200
  paymentIntentId := "pi_1"
  purchaseId := some 0
  offerId := "offer_1"
  offerVersion := some 1
  amount := some 2500
  currency := "eur"

/-- Turns without failures. -/
def turnsOf {ι : Type} (procs : List ι) : List (ι × Chance) := procs.map fun i => (i, {})

/-- Both handlers read the order before either has written to it; both succeed, and the newer
event is dropped. -/
theorem newest_intent_dropped :
    ¬ ∀ schedule : List (Fin 2 × Chance),
      (∀ i, succeeded (serve (fun i => .paymentIntent (intentEvents i)) (storeOf startedOrder)
        schedule) i) →
      StoresEvent 0 (intentEvents 1) (serve (fun i => .paymentIntent (intentEvents i))
        (storeOf startedOrder) schedule).store := by
  intro h
  have hsucceeded : ∀ i, succeeded (serve (fun i => .paymentIntent (intentEvents i))
      (storeOf startedOrder) (turnsOf [0, 1, 0, 0, 1, 1])) i := by decide +kernel
  have hdropped : ¬ StoresEvent 0 (intentEvents 1)
      (serve (fun i => .paymentIntent (intentEvents i)) (storeOf startedOrder)
        (turnsOf [0, 1, 0, 0, 1, 1])).store := by decide +kernel
  exact hdropped (h _ hsucceeded)

/-- One after the other, both events are recorded. -/
theorem newest_intent_stored :
    StoresEvent 0 (intentEvents 1) (serve (fun i => .paymentIntent (intentEvents i))
      (storeOf startedOrder) (turnsOf [0, 0, 0, 1, 1, 1])).store :=
  (newest_intent_stored_iff intentEvents (storeOf startedOrder) (turnsOf [0, 0, 0, 1, 1, 1]) 1
    (by decide) (show (storeOf startedOrder).orders.get? 0 = some startedOrder from rfl)).mpr (.inr ⟨by decide, by decide +kernel⟩)

end Example

end Commerce

end Products
