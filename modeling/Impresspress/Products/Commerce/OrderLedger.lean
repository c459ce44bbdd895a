import Impresspress.Products.Commerce.OrderScript

/-!
# The ledger of an order

An order goes from its creation to a paid state and from there only to more refunded ones, with
amounts that add up all along. All but two of its writers check the order in the update itself.
The two that do not are the last steps of a checkout after its call to Stripe: the session id is
written, or the order is marked failed, whatever a webhook has made of the order in the meantime.

## Main definitions

* `Products.Commerce.Order.Sound`: the amounts and statuses of an order fit together.
* `Products.Commerce.Order.Onward`: an order has not gone back.
* `Products.Commerce.LedgerKept`: both hold throughout a run.
* `Products.Commerce.FindsPaid`: a checkout's last write finds the order paid.

## Main results

* `Products.Commerce.order_ledger_kept_iff`: exactly when the ledger is kept.
-/

namespace Products

namespace Commerce

open Concurrent Relational Discipline

/-- The amounts and the statuses of an order fit together. -/
structure Order.Sound (order : Order) : Prop where
  refunded_nonneg : 0 ≤ order.refundedTotalCents
  refunded_le : order.refundedTotalCents ≤ order.totalCents
  refunded_iff : order.status = .refunded ↔
    0 < order.totalCents ∧ order.refundedTotalCents = order.totalCents
  partiallyRefunded_iff : order.status = .partiallyRefunded ↔
    0 < order.refundedTotalCents ∧ order.refundedTotalCents < order.totalCents
  reconciled : order.status.isPaid → order.reconciliationStatus = .reconciled
  total_eq : order.totalCents =
    order.subtotalCents - order.discountCents + order.taxCents + order.shippingCents

/-- The quoted subtotal stays, and so does the total once the order is paid; a paid order does not
become unpaid. -/
structure Order.Onward (before after : Order) : Prop where
  subtotal : after.subtotalCents = before.subtotalCents
  paid : before.status.isPaid → after.status.isPaid
  total : before.status.isPaid → after.totalCents = before.totalCents

namespace Order

variable {order : Order}

theorem Onward.refl (order : Order) : order.Onward order := ⟨rfl, fun h => h, fun _ => rfl⟩

theorem Onward.trans {a b c : Order} (h : a.Onward b) (h' : b.Onward c) : a.Onward c :=
  ⟨h'.subtotal.trans h.subtotal, fun ha => h'.paid (h.paid ha),
    fun ha => (h'.total (h.paid ha)).trans (h.total ha)⟩

/-- Nothing of an unpaid order is refunded. -/
theorem Sound.refunded_eq_zero (h : order.Sound) (hpaid : ¬ order.status.isPaid) :
    order.refundedTotalCents = 0 := by
  have hrefunded := h.refunded_iff
  have hpartially := h.partiallyRefunded_iff
  have hnonneg := h.refunded_nonneg
  have hle := h.refunded_le
  cases hstatus : order.status with
  | pending | checkoutStarted | failed =>
    simp only [hstatus, reduceCtorEq, false_iff, not_and] at hrefunded hpartially
    omega
  | completed | partiallyRefunded | refunded => simp [hstatus, OrderStatus.isPaid] at hpaid

theorem not_isPaid_of_awaiting (h : OrderFilter.matches order (.statusIn awaitingStatuses)) :
    ¬ order.status.isPaid := by
  simp only [OrderFilter.matches, awaitingStatuses, List.contains_cons, List.contains_nil,
    Bool.or_false, Bool.or_eq_true, beq_iff_eq] at h
  rcases h with h | h <;> simp [h, OrderStatus.isPaid]

theorem isPaid_of_refundable (h : OrderFilter.matches order (.statusIn refundableStatuses)) :
    order.status.isPaid := by
  simp only [OrderFilter.matches, refundableStatuses, List.contains_cons, List.contains_nil,
    Bool.or_false, Bool.or_eq_true, beq_iff_eq] at h
  rcases h with h | h <;> simp [h, OrderStatus.isPaid]

/-- An order that stays unpaid stays sound under what touches neither its amounts nor makes it
refunded. -/
theorem Sound.of_unpaid {after : Order} (h : order.Sound) (hpaid : ¬ order.status.isPaid)
    (hstatus : ¬ after.status.isPaid)
    (hsubtotal : after.subtotalCents = order.subtotalCents)
    (hdiscount : after.discountCents = order.discountCents) (htax : after.taxCents = order.taxCents)
    (hshipping : after.shippingCents = order.shippingCents)
    (htotal : after.totalCents = order.totalCents)
    (hrefunded : after.refundedTotalCents = order.refundedTotalCents) : after.Sound := by
  have hzero := h.refunded_eq_zero hpaid
  have hnonneg := h.refunded_le
  refine ⟨by omega, by omega, ?_, ?_, fun hp => absurd hp hstatus, ?_⟩
  · refine iff_of_false (fun hs => hstatus (by rw [hs]; rfl)) (by omega)
  · refine iff_of_false (fun hs => hstatus (by rw [hs]; rfl)) (by omega)
  · rw [htotal, hsubtotal, hdiscount, htax, hshipping]
    exact h.total_eq

end Order

variable {ι : Type}

/-- The order of a checkout or of a Payment Link starts out sound. -/
theorem CheckoutOrderSnapshot.row_sound {snapshot : CheckoutOrderSnapshot}
    (h : snapshot.amounts.Balanced) (id : RowId) : (snapshot.row id).Sound := by
  have hnonneg := h.nonneg
  refine ⟨Int.le_refl 0, hnonneg, ?_, ?_, nofun, h.total_eq⟩
  · refine iff_of_false nofun ?_
    simp only [row]
    omega
  · refine iff_of_false nofun ?_
    simp only [row]
    omega

section Writes

variable {own : CommerceHistory ι} {id : RowId} {filters : List OrderFilter} {write : OrderWrite}
  {order : Order}

private theorem matches_of_mem {filter : OrderFilter}
    (hmatch : filters.all (OrderFilter.matches order)) (h : filter ∈ filters) :
    OrderFilter.matches order filter :=
  List.all_eq_true.mp hmatch filter h

/-- An update that a program of the block makes keeps the order sound and takes it onward, if what
the program has read of the order has only gone onward since. -/
theorem updated_sound (hwrite : WriteAllowed own id filters write)
    (hmatch : filters.all (OrderFilter.matches order)) (horder : order.Sound)
    (hread : ∀ m ∈ own, ∀ read, orderRead m = some read → read.id = id → read.Onward order) :
    (write.apply order).Sound ∧ order.Onward (write.apply order) := by
  cases write with
  | checkoutStarted =>
    have hpending := matches_of_mem hmatch hwrite
    rw [OrderFilter.matches, beq_iff_eq] at hpending
    have hpaid : ¬ order.status.isPaid := by simp [hpending, OrderStatus.isPaid]
    exact ⟨horder.of_unpaid hpaid (fun h => by cases h) rfl rfl rfl rfl rfl rfl, rfl, fun h => absurd h hpaid,
      fun _ => rfl⟩
  | checkoutFailed =>
    have hpaid := Order.not_isPaid_of_awaiting (matches_of_mem hmatch hwrite)
    exact ⟨horder.of_unpaid hpaid (fun h => by cases h) rfl rfl rfl rfl rfl rfl, rfl, fun h => absurd h hpaid,
      fun _ => rfl⟩
  | linkCompleted paymentIntent livemode =>
    have hpaid := Order.not_isPaid_of_awaiting (matches_of_mem hmatch hwrite)
    have hzero := horder.refunded_eq_zero hpaid
    refine ⟨⟨horder.refunded_nonneg, horder.refunded_le, ?_, ?_, fun _ => rfl, horder.total_eq⟩,
      rfl, fun _ => rfl, fun _ => rfl⟩
    · refine iff_of_false (fun h => by cases h) ?_
      simp only [OrderWrite.apply]
      omega
    · refine iff_of_false (fun h => by cases h) ?_
      simp only [OrderWrite.apply]
      omega
  | completed completion adoptSession =>
    obtain ⟨hfilter, hbalanced, m, hm, read, hread', hid, hsubtotal⟩ := hwrite
    have hpaid := Order.not_isPaid_of_awaiting (matches_of_mem hmatch hfilter)
    have hzero := horder.refunded_eq_zero hpaid
    have hquote := (hread m hm read hread' hid).subtotal
    have hnonneg := hbalanced.nonneg
    refine ⟨⟨horder.refunded_nonneg, ?_, ?_, ?_, fun _ => rfl, ?_⟩, rfl, fun _ => rfl,
      fun h => absurd h hpaid⟩
    · simp only [OrderWrite.apply]
      omega
    · refine iff_of_false (fun h => by cases h) ?_
      simp only [OrderWrite.apply]
      omega
    · refine iff_of_false (fun h => by cases h) ?_
      simp only [OrderWrite.apply]
      omega
    · simp only [OrderWrite.apply]
      rw [hbalanced.total_eq, hquote, hsubtotal]
  | intentSynced snapshot reconciliation =>
    obtain ⟨status, hfilter, hnone⟩ := hwrite
    have hstatus := matches_of_mem hmatch hfilter
    rw [OrderFilter.matches, beq_iff_eq] at hstatus
    refine ⟨⟨horder.refunded_nonneg, horder.refunded_le, horder.refunded_iff,
      horder.partiallyRefunded_iff, fun hpaid => ?_, horder.total_eq⟩, rfl, fun h => h, fun _ => rfl⟩
    change order.status.isPaid at hpaid
    rw [OrderWrite.apply, hnone (hstatus ▸ hpaid)]
    exact horder.reconciled hpaid
  | refunded status target =>
    obtain ⟨hfilter, m, hm, read, hread', hid, hreadPaid, hpos, hle, rfl⟩ := hwrite
    have hpaid := Order.isPaid_of_refundable (matches_of_mem hmatch hfilter)
    -- the total that the target was compared with is still the order's
    rw [← (hread m hm read hread' hid).total hreadPaid] at hle ⊢
    have hstatus : (refundedStatus target order.totalCents).isPaid := by
      unfold refundedStatus
      split <;> rfl
    refine ⟨⟨Int.le_of_lt hpos, hle, ?_, ?_, fun _ => horder.reconciled hpaid, horder.total_eq⟩,
      rfl, fun _ => hstatus, fun _ => rfl⟩
    · simp only [OrderWrite.apply, refundedStatus]
      split <;> simp <;> omega
    · simp only [OrderWrite.apply, refundedStatus]
      split <;> simp <;> omega
  | sessionSaved sessionId => exact hwrite.elim
  | sessionAdopted sessionId => exact hwrite.elim

end Writes

/-- At every point of a run the order is sound, and from every point to every later one it has
gone onward. -/
structure LedgerKept (id : RowId) (start : CommerceStore) (history : CommerceHistory ι) : Prop where
  sound : ∀ past : CommerceHistory ι, past <:+ history →
    ∀ order ∈ (past.store start).orders.get? id, order.Sound
  onward : ∀ past : CommerceHistory ι, past <:+ history →
    ∀ earlier : CommerceHistory ι, earlier <:+ past →
    ∀ before ∈ (earlier.store start).orders.get? id,
    ∀ after ∈ (past.store start).orders.get? id, before.Onward after

/-- The two writes without a condition that end a checkout after its call to Stripe: the session id
is saved, or the order is marked failed. -/
def CommerceCall.endsCheckout (id : RowId) : CommerceCall → Bool
  | .setOrder id' (.sessionSaved _) => id' == id
  | .setOrder id' .checkoutFailed => id' == id
  | _ => false

theorem CommerceCall.endsCheckout_iff {id : RowId} {c : CommerceCall} :
    c.endsCheckout id ↔
      c = .setOrder id .checkoutFailed ∨ ∃ sessionId, c = .setOrder id (.sessionSaved sessionId) := by
  unfold endsCheckout
  split <;> simp_all

/-- The last write of a checkout finds the order paid. -/
def FindsPaid (id : RowId) (m : CommerceMoment ι) : Prop :=
  answered m ∧ (∃ order ∈ m.before.orders.get? id, order.status.isPaid) ∧ m.call.endsCheckout id

instance (id : RowId) (m : CommerceMoment ι) : Decidable (FindsPaid id m) :=
  inferInstanceAs (Decidable (_ ∧ (∃ order ∈ m.before.orders.get? id, _) ∧ _))

section Runs

variable [DecidableEq ι] {start : CommerceStore} {id : RowId}

/-- A moment of a run of requests. -/
abbrev OrderMoment (start : CommerceStore) (past : CommerceHistory ι) (m : CommerceMoment ι) :
    Prop :=
  Scripted perform start (fun _ => OrderIssues) past m

/-- What a run has kept so far. Ids are not given out again, so the order that was there once is
the only one of its id. -/
private structure Kept (id : RowId) (start : CommerceStore) (past : CommerceHistory ι) : Prop where
  ledger : LedgerKept id start past
  older : ∀ earlier : CommerceHistory ι, earlier <:+ past →
    ((earlier.store start).orders.get? id).isSome → id < (past.store start).nextId

omit [DecidableEq ι] in
/-- The step to the next point, where the order is sound and has gone onward from the last. -/
private theorem Kept.next {past : CommerceHistory ι} {m : CommerceMoment ι} (h : Kept id start past)
    (hnext : (past.store start).nextId ≤ m.after.nextId)
    (hstep : ∀ after, m.after.orders.get? id = some after → after.Sound ∧
      ∃ before, (past.store start).orders.get? id = some before ∧ before.Onward after) :
    Kept id start (m :: past) := by
  refine ⟨⟨fun point hpoint order horder => ?_, ?_⟩, fun earlier hearlier hsome => ?_⟩
  · rcases List.suffix_cons_iff.mp hpoint with rfl | hpoint
    · exact (hstep order horder).1
    · exact h.ledger.sound point hpoint order horder
  · intro point hpoint earlier hearlier before hbefore after hafter
    rcases List.suffix_cons_iff.mp hpoint with rfl | hpoint
    · rcases List.suffix_cons_iff.mp hearlier with rfl | hearlier
      · rw [Option.mem_def, hafter, Option.some.injEq] at hbefore
        rw [hbefore]
        exact .refl before
      · obtain ⟨-, between, hbetween, honward⟩ := hstep after hafter
        exact (h.ledger.onward past List.suffix_rfl earlier hearlier before hbefore between
          hbetween).trans honward
    · exact h.ledger.onward point hpoint earlier hearlier before hbefore after hafter
  · rcases List.suffix_cons_iff.mp hearlier with rfl | hearlier
    · obtain ⟨after, hafter⟩ := Option.isSome_iff_exists.mp hsome
      obtain ⟨-, before, hbefore, -⟩ := hstep after hafter
      exact Nat.lt_of_lt_of_le (h.older past List.suffix_rfl (by rw [hbefore]; rfl)) hnext
    · exact Nat.lt_of_lt_of_le (h.older earlier hearlier hsome) hnext

/-- What a program has read of the order has only gone onward since. -/
private theorem onward_of_read {past : CommerceHistory ι} (h : Along (OrderMoment start) past)
    (hkept : LedgerKept id start past) {order : Order}
    (horder : (past.store start).orders.get? id = some order) {i : ι} :
    ∀ m ∈ past.own i, ∀ read, orderRead m = some read → read.id = id → read.Onward order := by
  rintro m hm read hread rfl
  obtain ⟨later, earlier, rfl⟩ := List.append_of_mem (History.mem_own.mp hm).1
  exact hkept.onward _ List.suffix_rfl (m :: earlier) (List.suffix_append later _) read
    (orderRead_eq h.earlier.1.happened hread) order horder

omit [DecidableEq ι] in
/-- A write without a condition keeps an order that is not paid. -/
private theorem set_sound {order : Order} {write : OrderWrite} {own : CommerceHistory ι}
    (hwrite : OrderIssues own (.setOrder id write)) (horder : order.Sound)
    (hunpaid : order.status.isPaid → write ≠ .checkoutFailed ∧
      ∀ sessionId, write ≠ .sessionSaved sessionId) :
    (write.apply order).Sound ∧ order.Onward (write.apply order) := by
  cases write with
  | sessionAdopted sessionId =>
    exact ⟨⟨horder.refunded_nonneg, horder.refunded_le, horder.refunded_iff,
      horder.partiallyRefunded_iff, horder.reconciled, horder.total_eq⟩, rfl, fun h => h,
      fun _ => rfl⟩
  | sessionSaved sessionId =>
    have hpaid : ¬ order.status.isPaid := fun h => (hunpaid h).2 sessionId rfl
    exact ⟨horder.of_unpaid hpaid hpaid rfl rfl rfl rfl rfl rfl, rfl, fun h => h, fun _ => rfl⟩
  | checkoutFailed =>
    have hpaid : ¬ order.status.isPaid := fun h => (hunpaid h).1 rfl
    exact ⟨horder.of_unpaid hpaid nofun rfl rfl rfl rfl rfl rfl, rfl, fun h => absurd h hpaid,
      fun _ => rfl⟩
  | checkoutStarted | completed | linkCompleted | intentSynced | refunded => exact hwrite.elim

private theorem Kept.step {past : CommerceHistory ι} {m : CommerceMoment ι}
    (h : Along (OrderMoment start) (m :: past)) (hkept : Kept id start past)
    (hfinds : ¬ FindsPaid id m) : Kept id start (m :: past) := by
  have hbefore := h.1.before
  have hissues := h.1.issues
  have hnext : (past.store start).nextId ≤ m.after.nextId := by
    rw [← hbefore]
    exact nextId_le h.1.happened
  have hsound := hkept.ledger.sound past List.suffix_rfl
  rcases orderChange h.1.happened id with hafter |
    ⟨snapshot, hcall, hfresh, hnextId, hnone, hafter, -⟩ | ⟨-, hafter⟩ |
    ⟨filters, write, order, hcall, horder, hmatch, hafter, -⟩ |
    ⟨write, order, hcall, horder, hafter, hanswered⟩
  · -- the order is left alone
    refine hkept.next hnext fun after h => ?_
    rw [hafter, hbefore] at h
    exact ⟨hsound after h, after, h, .refl after⟩
  · -- the order is created: there has been none of its id
    rw [hcall] at hissues
    have hnever : ∀ earlier : CommerceHistory ι, earlier <:+ past →
        (earlier.store start).orders.get? id = none := by
      intro earlier hearlier
      by_contra hsome
      have hlt := hkept.older earlier hearlier (Option.isSome_iff_ne_none.mpr hsome)
      rw [← hbefore, ← hfresh] at hlt
      exact absurd hlt (Nat.lt_irrefl id)
    have hcreated := CheckoutOrderSnapshot.row_sound hissues id
    refine ⟨⟨fun point hpoint order horder => ?_, ?_⟩, fun earlier hearlier hsome => ?_⟩
    · rcases List.suffix_cons_iff.mp hpoint with rfl | hpoint
      · rw [Option.mem_def, History.store_cons, hafter, Option.some.injEq] at horder
        exact horder ▸ hcreated
      · exact hkept.ledger.sound point hpoint order horder
    · intro point hpoint earlier hearlier before hbefore after hafter'
      rcases List.suffix_cons_iff.mp hpoint with rfl | hpoint
      · rcases List.suffix_cons_iff.mp hearlier with rfl | hearlier
        · rw [Option.mem_def, hafter', Option.some.injEq] at hbefore
          rw [hbefore]
          exact .refl before
        · rw [hnever earlier hearlier] at hbefore
          cases hbefore
      · exact hkept.ledger.onward point hpoint earlier hearlier before hbefore after hafter'
    · rw [History.store_cons, hnextId]
      exact Nat.lt_succ_self id
  · refine hkept.next hnext fun after h => ?_
    rw [hafter] at h
    cases h
  · -- the order is updated under a condition
    rw [hbefore] at horder
    rw [hcall] at hissues
    have hkeeps := updated_sound hissues hmatch (hsound order horder)
      (onward_of_read h.2 hkept.ledger horder)
    refine hkept.next hnext fun after h => ?_
    rw [hafter, Option.some.injEq] at h
    exact h ▸ ⟨hkeeps.1, order, horder, hkeeps.2⟩
  · -- the order is written without one
    have hkeeps := set_sound (hcall ▸ hissues) (hsound order (hbefore ▸ horder)) fun hpaid =>
      ⟨fun hwrite => hfinds ⟨hanswered, ⟨order, horder, hpaid⟩,
          CommerceCall.endsCheckout_iff.mpr (.inl (hwrite ▸ hcall))⟩,
        fun sessionId hwrite => hfinds ⟨hanswered, ⟨order, horder, hpaid⟩,
          CommerceCall.endsCheckout_iff.mpr (.inr ⟨sessionId, hwrite ▸ hcall⟩)⟩⟩
    refine hkept.next hnext fun after h => ?_
    rw [hafter, Option.some.injEq] at h
    exact h ▸ ⟨hkeeps.1, order, hbefore ▸ horder, hkeeps.2⟩

private theorem kept_of_not_findsPaid
    (hstart : ∀ order ∈ start.orders.get? id, order.Sound ∧ id < start.nextId)
    {past : CommerceHistory ι} (h : Along (OrderMoment start) past)
    (hfinds : ∀ m ∈ past, ¬ FindsPaid id m) : Kept id start past := by
  induction past with
  | nil =>
    refine ⟨⟨fun point hpoint order horder => ?_, ?_⟩, fun earlier hearlier hsome => ?_⟩
    · rw [List.suffix_nil.mp hpoint] at horder
      exact (hstart order horder).1
    · intro point hpoint earlier hearlier before hbefore after hafter
      rw [List.suffix_nil.mp hpoint] at hearlier hafter
      rw [List.suffix_nil.mp hearlier, Option.mem_def, hafter, Option.some.injEq] at hbefore
      rw [hbefore]
      exact .refl before
    · rw [List.suffix_nil.mp hearlier] at hsome
      obtain ⟨order, horder⟩ := Option.isSome_iff_exists.mp hsome
      exact (hstart order horder).2
  | cons m past ih =>
    exact .step h (ih h.2 fun m' hm' => hfinds m' (List.mem_cons_of_mem m hm'))
      (hfinds m List.mem_cons_self)

/-- A write that finds the order paid breaks its ledger: the order is no longer reconciled, or no
longer paid. -/
private theorem not_findsPaid {history : CommerceHistory ι} (h : Along (OrderMoment start) history)
    (hkept : LedgerKept id start history) {m : CommerceMoment ι} (hm : m ∈ history) :
    ¬ FindsPaid id m := by
  rintro ⟨hanswered, ⟨order, horder, hpaid⟩, hcall⟩
  obtain ⟨later, past, rfl⟩ := List.append_of_mem hm
  have hmoment := h.earlier.1
  have hpoint : m :: past <:+ later ++ m :: past := List.suffix_append later _
  rcases CommerceCall.endsCheckout_iff.mp hcall with hcall | ⟨sessionId, hcall⟩
  · have honward := hkept.onward _ hpoint past (List.suffix_cons m past) order
      (hmoment.before ▸ horder) _ (set_of_answered hmoment.happened hcall hanswered horder)
    exact Bool.noConfusion (honward.paid hpaid)
  · have hsound := hkept.sound _ hpoint _
      (set_of_answered hmoment.happened hcall hanswered horder)
    exact ReconciliationStatus.noConfusion (hsound.reconciled hpaid)

/-- In any run of checkouts, webhooks, refund requests and worker passes, any statement of which
may fail, the ledger of an order is kept exactly when no write of a checkout after its call to
Stripe finds the order paid. -/
theorem order_ledger_kept_iff (requests : ι → CommerceRequest) (start : CommerceStore)
    (schedule : List (ι × Chance)) (id : RowId) (htotals : ∀ i, (requests i).TotalsNonneg)
    (hstart : ∀ order ∈ start.orders.get? id, order.Sound ∧ id < start.nextId) :
    LedgerKept id start (serve requests start schedule).history ↔
      ∀ m ∈ (serve requests start schedule).history, ¬ FindsPaid id m := by
  have h : Along (OrderMoment start) (serve requests start schedule).history :=
    exec_scripted
      (fun i => (program_orderSafe (requests i) (htotals i)).safe []) schedule
  exact ⟨fun hkept m hm => not_findsPaid h hkept hm,
    fun hfinds => (kept_of_not_findsPaid hstart h hfinds).ledger⟩

end Runs

section Example

/-- A checkout of one thing for 25.00. -/
def exampleCheckout : CheckoutRequest where
  stripeAccountId := ""
  offerMode := "payment"
  offerId := "offer_1"
  offerVersion := 1
  livemode := false
  allowedShippingAmountsMinor := [0]
  quote := ⟨"EUR", 2500, 0, by decide⟩
  items := 1
  presentation := .hosted
  prepared := .ok ()

/-- Its Checkout Session, paid. -/
def exampleCompletion : CheckoutSessionCompletion where
  sessionId := "cs_1"
  clientReferenceId := some 0
  eventAccount := ""
  livemode := false
  mode := "payment"
  paymentStatus := "paid"
  currency := "eur"
  subtotalMinor := 2500
  discountMinor := 0
  taxMinor := 0
  shippingMinor := 0
  totalMinor := 2500
  offerId := "offer_1"
  offerVersion := 1
  paymentIntentId := "pi_1"
  subscriptionId := ""

/-- The checkout, and the webhook of its session. -/
def checkoutAndWebhook (i : Fin 2) : CommerceRequest :=
  if i.val = 0 then .checkout exampleCheckout else .sessionCompleted 0 exampleCompletion

/-- A store without rows. -/
def noRows : CommerceStore := ⟨.empty, .empty, .empty, 0, 0⟩

/-- Turns at which Stripe opens the session `cs_1` when it is asked to. -/
def sessionTurns {ι : Type} (procs : List ι) : List (ι × Chance) :=
  procs.map fun i => (i, { session := .body ⟨"cs_1", some "https://checkout.test", none⟩ })

/-- The webhook of the paid session arrives between the checkout's call to Stripe and its write of
the session id: the order is paid, and awaits its payment. -/
theorem ledger_broken_by_session_write :
    ¬ LedgerKept 0 noRows
      (serve checkoutAndWebhook noRows (sessionTurns [0, 0, 0, 0, 1, 1, 0])).history := by
  intro h
  have hpaid : ∃ order ∈ ((serve checkoutAndWebhook noRows
      (sessionTurns [0, 0, 0, 0, 1, 1, 0])).history.store noRows).orders.get? 0,
      order.status.isPaid ∧ order.reconciliationStatus ≠ .reconciled := by decide +kernel
  obtain ⟨order, horder, hpaid, hreconciliation⟩ := hpaid
  exact hreconciliation ((h.sound _ List.suffix_rfl order horder).reconciled hpaid)

/-- One after the other, the checkout and the webhook keep the ledger. -/
theorem ledger_kept_in_turn :
    LedgerKept 0 noRows
      (serve checkoutAndWebhook noRows (sessionTurns [0, 0, 0, 0, 0, 1, 1])).history := by
  have htotals : ∀ i, (checkoutAndWebhook i).TotalsNonneg := by
    intro i
    by_cases hi : i.val = 0
    · simp [checkoutAndWebhook, hi, CommerceRequest.TotalsNonneg]
    · simp [checkoutAndWebhook, hi, CommerceRequest.TotalsNonneg, exampleCompletion]
  have hstart : ∀ order ∈ noRows.orders.get? 0, order.Sound ∧ 0 < noRows.nextId := by
    intro order horder
    cases horder
  rw [order_ledger_kept_iff _ _ _ _ htotals hstart]
  decide +kernel

end Example

end Commerce

end Products
