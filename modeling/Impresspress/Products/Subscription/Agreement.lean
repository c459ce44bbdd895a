import Impresspress.Products.Subscription.DeliveryOrder
import Impresspress.Products.Subscription.Webhooks

/-!
# Agreement of the two subscription projections

The platform's row and the order of one Stripe subscription are fed the same events. Both store what
the shared transition rule lets through, and so they agree. They may come apart after an update that
reports no status: it moves the event time of the platform's row alone, and an event dated between
the two event times is then news to the order only.

## Main definitions

* `Products.Subscription.deliver`: one event, handled with nobody else at the rows.
* `Products.Subscription.Undisputed`: an event that is not dated between the two event times.

## Main results

* `Products.Subscription.handleSubscriptionEvent_ensures`: a webhook is a step of both projections.
* `Products.Subscription.projections_agree`: the rows agree after every event.
-/

namespace Products

namespace Subscription

open Concurrent Program

def PlatformRow.projection (row : PlatformRow) : SubscriptionProjection :=
  ⟨row.status, row.stripeEventCreated⟩

def OrderRow.projection (row : OrderRow) : SubscriptionProjection :=
  ⟨row.subscriptionStatus, row.subscriptionEventCreated⟩

/-- The projection that an update replaces, and what it puts in its place. -/
abbrev Transition := SubscriptionProjection × SubscriptionProjection

def Transition.Permitted (t : Transition) : Prop :=
  subscriptionTransitionAllowed t.1.status t.1.eventCreated t.2.status t.2.eventCreated

instance (t : Transition) : Decidable t.Permitted :=
  inferInstanceAs (Decidable (_ = true))

/-- The transition that an update makes. -/
def SubscriptionCall.transition (c : SubscriptionCall) (s : SubscriptionStore) :
    Option Transition :=
  match c with
  | .updatePlatform filters write =>
    (s.platform.filter fun row => filters.all (PlatformFilter.matches row)).map
      fun row => (row.projection, (write.apply row).projection)
  | .updateOrder created status sync =>
    (s.order.filter fun row =>
      row.subscriptionEventCreated = created ∧ row.subscriptionStatus = status).map
      fun row => (row.projection, (sync.apply row).projection)
  | _ => none

/-- The rows, and the updates that have been applied to them. -/
abbrev Audited := SubscriptionStore × List Transition

/-- How the rows answer, with a log of the updates. -/
abbrev audited : Instant → (c : SubscriptionCall) → Audited → SubscriptionAnswer c × Audited :=
  logged perform SubscriptionCall.transition

/-- An event, and the times that are read while it is handled. -/
structure Delivery where
  event : SubscriptionEvent
  times : ℕ → Instant := fun _ => 0

/-- Handle one event with nobody else at the rows. -/
def deliver (subscriptionId : String) (s : Audited) (delivery : Delivery) : Audited :=
  ((handleSubscriptionEvent subscriptionId delivery.event).run.run audited delivery.times s).2

def deliverAll (subscriptionId : String) (start : SubscriptionStore) (deliveries : List Delivery) :
    Audited :=
  deliveries.foldl (deliver subscriptionId) (start, [])

/-! ### What a webhook does to the two projections -/

/-- The status that the event brings, when `stored` is what is stored. -/
def EventKind.incoming (stored : SubscriptionStatus) : EventKind → SubscriptionStatus
  | updated status .. => if status = .unset then stored else status
  | invoicePaid => .active
  | invoicePaymentFailed => .pastDue
  | deleted _ => .canceled

/-- The event says what the status is. -/
def EventKind.reportsStatus : EventKind → Bool
  | updated status .. => status != .unset
  | _ => true

/-- The projection of the platform's row after the event. -/
def SubscriptionEvent.onPlatform (event : SubscriptionEvent) (p : SubscriptionProjection) :
    SubscriptionProjection :=
  match event.kind with
  | .invoicePaid =>
    if p.status = .pastDue ∧ p.eventCreated ≤ event.created then ⟨.active, event.created⟩ else p
  | kind => p.apply ⟨kind.incoming p.status, event.created⟩

/-- The projection of the order after the event. -/
def SubscriptionEvent.onOrder (event : SubscriptionEvent) (p : SubscriptionProjection) :
    SubscriptionProjection :=
  match event.kind with
  | .invoicePaid => if p.status = .pastDue then p.apply ⟨.active, event.created⟩ else p
  | kind =>
    if kind.reportsStatus then p.apply ⟨kind.incoming p.status, event.created⟩ else p

/-- The order is of the event's account and mode. -/
def SubscriptionEvent.concerns (event : SubscriptionEvent) (row : OrderRow) : Prop :=
  row.stripeAccountId = event.account ∧ row.livemode = event.livemode

instance (event : SubscriptionEvent) (row : OrderRow) : Decidable (event.concerns row) :=
  inferInstanceAs (Decidable (_ ∧ _))

/-- The platform's row has been moved to `target` at most, and what has been applied is permitted
where `permitted` holds. -/
structure PlatformStep (s t : Audited) (target : SubscriptionProjection) (permitted : Prop) :
    Prop where
  order : t.1.order = s.1.order
  platform : ∃ row, t.1.platform = some row ∧ row.projection = target
  log : permitted → ∀ entry ∈ t.2, entry ∈ s.2 ∨ entry.Permitted

/-- The order has been moved to `target` at most. -/
structure OrderStep (s t : Audited) (row : OrderRow) (target : SubscriptionProjection) : Prop where
  platform : t.1.platform = s.1.platform
  order : ∃ row', t.1.order = some row' ∧ row'.projection = target ∧
    row'.stripeAccountId = row.stripeAccountId ∧ row'.livemode = row.livemode
  log : ∀ entry ∈ t.2, entry ∈ s.2 ∨ entry.Permitted

/-- No statement on the rows fails. -/
theorem perform_ok (now : Instant) (c : SubscriptionCall) (s : SubscriptionStore) :
    ∃ reply, (perform now c s).1 = .ok reply := by
  cases c with
  | utcNow | getPlatform | getOrder => exact ⟨_, rfl⟩
  | updatePlatform filters write =>
    cases hrow : s.platform with
    | none => exact ⟨(0 : ℕ), by simp [perform, hrow]⟩
    | some row =>
      by_cases hmatch : filters.all (PlatformFilter.matches row) = true
      · exact ⟨(1 : ℕ), by simp [perform, hrow, hmatch]⟩
      · exact ⟨(0 : ℕ), by simp [perform, hrow, hmatch]⟩
  | updateOrder created status sync =>
    cases hrow : s.order with
    | none => exact ⟨(0 : ℕ), by simp [perform, hrow]⟩
    | some row =>
      by_cases hmatch : row.subscriptionEventCreated = created ∧ row.subscriptionStatus = status
      · exact ⟨(1 : ℕ), by simp [perform, hrow, hmatch]⟩
      · exact ⟨(0 : ℕ), by simp [perform, hrow, hmatch]⟩

section Steps

variable {α : Type} {s : Audited}

/-- A call, and what follows it. -/
theorem ensures_call {c : SubscriptionCall} {f : SubscriptionReply c → SubscriptionProgram α}
    {post : Except WaferError α → Audited → Prop}
    (h : ∀ now reply, (perform now c s.1).1 = .ok reply →
      (f reply).run.Ensures audited (audited now c s).2 post) :
    (call c >>= f).run.Ensures audited s post := by
  refine Fallible.ensures_call (fun now reply => h now reply) fun now error herror => ?_
  obtain ⟨reply, hok⟩ := perform_ok now c s.1
  cases herror.symm.trans hok

theorem perform_updatePlatform {row : PlatformRow} (hrow : s.1.platform = some row)
    {filters : List PlatformFilter} (hmatch : filters.all (PlatformFilter.matches row))
    (now : Instant) (write : PlatformWrite) :
    perform now (.updatePlatform filters write) s.1 =
      (.ok (1 : ℕ), { s.1 with platform := some (write.apply row) }) := by
  simp [perform, hrow, hmatch]

theorem audited_updatePlatform {row : PlatformRow} (hrow : s.1.platform = some row)
    {filters : List PlatformFilter} (hmatch : filters.all (PlatformFilter.matches row))
    (now : Instant) (write : PlatformWrite) :
    (audited now (.updatePlatform filters write) s).2 =
      ({ s.1 with platform := some (write.apply row) },
        (row.projection, (write.apply row).projection) :: s.2) := by
  simp [audited, logged, perform, SubscriptionCall.transition, hrow, hmatch, Option.filter]

theorem audited_updatePlatform_of_not {row : PlatformRow} (hrow : s.1.platform = some row)
    {filters : List PlatformFilter} (hmatch : ¬ filters.all (PlatformFilter.matches row))
    (now : Instant) (write : PlatformWrite) :
    (audited now (.updatePlatform filters write) s).2 = s := by
  simp [audited, logged, perform, SubscriptionCall.transition, hrow, hmatch, Option.filter]

theorem PlatformStep.refl {row : PlatformRow} (hrow : s.1.platform = some row) (permitted : Prop) :
    PlatformStep s s row.projection permitted :=
  ⟨rfl, ⟨row, hrow, rfl⟩, fun _ _ hentry => .inl hentry⟩

theorem PlatformStep.update {row : PlatformRow} (hrow : s.1.platform = some row)
    {filters : List PlatformFilter} (hmatch : filters.all (PlatformFilter.matches row))
    (now : Instant) {write : PlatformWrite} {target : SubscriptionProjection} {permitted : Prop}
    (htarget : (write.apply row).projection = target)
    (hpermitted : permitted → Transition.Permitted (row.projection, target)) :
    PlatformStep s (audited now (.updatePlatform filters write) s).2 target permitted := by
  rw [audited_updatePlatform hrow hmatch now write]
  refine ⟨rfl, ⟨_, rfl, htarget⟩, fun h entry hentry => ?_⟩
  rcases List.mem_cons.mp hentry with rfl | hold
  · exact .inr (htarget ▸ hpermitted h)
  · exact .inl hold

theorem apply_of_allowed {p e : SubscriptionProjection}
    (h : subscriptionTransitionAllowed p.status p.eventCreated e.status e.eventCreated) :
    p.apply e = e := by
  rw [SubscriptionProjection.apply, if_pos h]

theorem apply_of_not_allowed {p e : SubscriptionProjection}
    (h : ¬ subscriptionTransitionAllowed p.status p.eventCreated e.status e.eventCreated) :
    p.apply e = p := by
  rw [SubscriptionProjection.apply, if_neg h]

/-- A write that compares what was read applies the transition rule. -/
theorem writePlatform_ensures (incoming : SubscriptionStatus → SubscriptionStatus) (created : ℤ)
    (write : Instant → PlatformWrite)
    (hwrite : ∀ now row, ((write now).apply row).projection = ⟨incoming row.status, created⟩)
    {row : PlatformRow} (hrow : s.1.platform = some row) :
    (writePlatform incoming created write).run.Ensures audited s fun result t =>
      result.isOk ∧
        PlatformStep s t (row.projection.apply ⟨incoming row.status, created⟩) True := by
  refine ensures_call fun now reply hreply => ?_
  obtain rfl : s.1.platform = reply := Except.ok.inj hreply
  rw [hrow]
  simp only [writePlatformIfAllowed]
  split
  · rename_i hnot
    refine ⟨rfl, ?_⟩
    rw [apply_of_not_allowed hnot]
    exact .refl hrow True
  rename_i hallowed
  rw [not_not] at hallowed
  refine ensures_call fun now' reply' hreply' => ?_
  obtain rfl : now' = reply' := Except.ok.inj hreply'
  have hmatch : List.all [.createdIs row.stripeEventCreated, .statusIs row.status]
      (PlatformFilter.matches row) := by
    simp [PlatformFilter.matches]
  refine ensures_call fun now'' rows hrows => ?_
  obtain rfl : 1 = rows :=
    Except.ok.inj ((congrArg Prod.fst (perform_updatePlatform hrow hmatch now'' _)).symm.trans hrows)
  rw [if_pos rfl]
  refine ⟨rfl, ?_⟩
  rw [apply_of_allowed hallowed]
  exact .update hrow hmatch now'' (hwrite _ row) fun _ => hallowed

theorem PlatformStep.trans {s t u : Audited} {target target' : SubscriptionProjection}
    {permitted permitted' : Prop} (h : PlatformStep s t target permitted)
    (h' : PlatformStep t u target' permitted') :
    PlatformStep s u target' (permitted ∧ permitted') := by
  refine ⟨h'.order.trans h.order, h'.platform, fun hpermitted entry hentry => ?_⟩
  rcases h'.log hpermitted.2 entry hentry with hold | hnew
  · exact h.log hpermitted.1 entry hold
  · exact .inr hnew

/-- An unconditional try: the row is updated if it matches the filters. -/
theorem updatePlatform_ensures {row : PlatformRow} (hrow : s.1.platform = some row)
    {filters : List PlatformFilter} {write : PlatformWrite} {target : SubscriptionProjection}
    {permitted : Prop}
    (hupdate : filters.all (PlatformFilter.matches row) → (write.apply row).projection = target ∧
      (permitted → Transition.Permitted (row.projection, target)))
    (hkeep : ¬ filters.all (PlatformFilter.matches row) → row.projection = target) :
    (call (.updatePlatform filters write)).run.Ensures audited s fun _ t =>
      PlatformStep s t target permitted := by
  intro now
  change PlatformStep s (audited now (.updatePlatform filters write) s).2 target permitted
  by_cases hmatch : filters.all (PlatformFilter.matches row)
  · exact .update hrow hmatch now (hupdate hmatch).1 (hupdate hmatch).2
  · rw [audited_updatePlatform_of_not hrow hmatch, ← hkeep hmatch]
    exact .refl hrow permitted

/-- Paid invoices recover a row that is past due, and follow the transition rule unless they are of
the very second of that row. -/
theorem recoverFromPaidInvoice_ensures {row : PlatformRow} (hrow : s.1.platform = some row)
    (created : ℤ) :
    (recoverFromPaidInvoice created).run.Ensures audited s fun _ t =>
      PlatformStep s t
        (if row.status = .pastDue ∧ row.stripeEventCreated ≤ created then ⟨.active, created⟩
          else row.projection)
        (row.status = .pastDue → row.stripeEventCreated ≠ created) := by
  refine updatePlatform_ensures hrow (fun hmatch => ?_) fun hmatch => ?_
  · obtain ⟨hstatus, hle⟩ : row.status = .pastDue ∧ row.stripeEventCreated ≤ created := by
      simpa [PlatformFilter.matches] using hmatch
    rw [if_pos ⟨hstatus, hle⟩]
    refine ⟨rfl, fun hnewer => ?_⟩
    have hlt := hnewer hstatus
    simp [Transition.Permitted, subscriptionTransitionAllowed, PlatformRow.projection, hstatus,
      SubscriptionStatus.isTerminal, hlt]
    omega
  · rw [if_neg (by simpa [PlatformFilter.matches] using hmatch)]

/-- Cancellations follow the transition rule. -/
theorem cancelAndResetAddons_ensures {row : PlatformRow} (hrow : s.1.platform = some row)
    (created : ℤ) :
    (cancelAndResetAddons created).run.Ensures audited s fun _ t =>
      PlatformStep s t (row.projection.apply ⟨.canceled, created⟩) True := by
  have hallowed : subscriptionTransitionAllowed row.status row.stripeEventCreated .canceled created
      = decide (row.stripeEventCreated ≤ created) := by
    have hcanceled : SubscriptionStatus.canceled.isTerminal = true := rfl
    have hrank : ¬ SubscriptionStatus.canceled.rank < row.status.rank :=
      Nat.not_lt_of_le row.status.rank_le_two
    by_cases hlt : row.stripeEventCreated > created
    · simp [subscriptionTransitionAllowed, hlt]
    · have hle : row.stripeEventCreated ≤ created := by omega
      simp [subscriptionTransitionAllowed, hcanceled, hrank, hlt, hle]
  refine updatePlatform_ensures hrow (fun hmatch => ?_) fun hmatch => ?_
  · have hle : row.stripeEventCreated ≤ created := by
      simpa [PlatformFilter.matches] using hmatch
    have hpermitted : subscriptionTransitionAllowed row.status row.stripeEventCreated .canceled
        created := by
      rw [hallowed]
      exact decide_eq_true hle
    rw [apply_of_allowed hpermitted]
    exact ⟨rfl, fun _ => hpermitted⟩
  · have hnot : ¬ row.stripeEventCreated ≤ created := by
      simpa [PlatformFilter.matches] using hmatch
    exact (apply_of_not_allowed (p := row.projection) (e := ⟨.canceled, created⟩) (by
      rw [PlatformRow.projection, hallowed]
      simpa using hnot)).symm

theorem permitted_refl (p : SubscriptionProjection) : Transition.Permitted (p, p) := by
  simp [Transition.Permitted, subscriptionTransitionAllowed]

/-- The add-on totals leave the projection as it is. -/
theorem syncAddonTotalsFromItems_ensures {row : PlatformRow} (hrow : s.1.platform = some row)
    (userId : String) (items : List SubscriptionItem) (created : ℤ) :
    (syncAddonTotalsFromItems userId items created).run.Ensures audited s fun _ t =>
      PlatformStep s t row.projection True := by
  unfold syncAddonTotalsFromItems
  split
  · exact .refl hrow True
  · rename_i totals _
    have hset : (setAddonTotals userId totals created).run.Ensures audited s fun _ t =>
        PlatformStep s t row.projection True :=
      updatePlatform_ensures hrow (fun _ => ⟨rfl, fun _ => permitted_refl _⟩) fun _ => rfl
    exact Fallible.ensures_bind hset (fun _ t hstep => hstep) fun _ t hstep => hstep

/-! ### The order -/

theorem OrderStep.refl {order : OrderRow} (horder : s.1.order = some order) :
    OrderStep s s order order.projection :=
  ⟨rfl, ⟨order, horder, rfl, rfl, rfl⟩, fun _ hentry => .inl hentry⟩

/-- A synchronization that compares what was read applies the transition rule. -/
theorem syncOrderIfAllowed_ensures {order : OrderRow} (horder : s.1.order = some order)
    (sync : OrderSync) (expected : Option SubscriptionStatus) (tries : ℕ) :
    (syncOrderIfAllowed sync expected (tries + 1) order).run.Ensures audited s fun result t =>
      result.isOk ∧ OrderStep s t order
        (if expected.any fun status => order.subscriptionStatus != status then order.projection
          else order.projection.apply ⟨sync.status, sync.created⟩) := by
  rw [syncOrderIfAllowed]
  split
  · rename_i hnot
    refine ⟨rfl, ?_⟩
    rw [apply_of_not_allowed hnot, ite_self]
    exact .refl horder
  rename_i hallowed
  rw [not_not] at hallowed
  split
  · exact ⟨rfl, .refl horder⟩
  refine ensures_call fun now rows hrows => ?_
  have hperform : perform now (.updateOrder order.subscriptionEventCreated
      order.subscriptionStatus sync) s.1 =
      (.ok (1 : ℕ), { s.1 with order := some (sync.apply order) }) := by
    simp [perform, horder]
  obtain rfl : 1 = rows := Except.ok.inj ((congrArg Prod.fst hperform).symm.trans hrows)
  have haudited : (audited now (.updateOrder order.subscriptionEventCreated
      order.subscriptionStatus sync) s).2 =
      ({ s.1 with order := some (sync.apply order) },
        (order.projection, (sync.apply order).projection) :: s.2) := by
    simp [audited, logged, perform, SubscriptionCall.transition, horder, Option.filter]
  rw [haudited]
  refine ensures_call fun now' reply hreply => ?_
  obtain rfl : some (sync.apply order) = reply := Except.ok.inj hreply
  simp only [if_true]
  refine ⟨rfl, rfl, ⟨_, rfl, ?_, rfl, rfl⟩, fun entry hentry => ?_⟩
  · exact (apply_of_allowed (p := order.projection) (e := ⟨sync.status, sync.created⟩) hallowed).symm
  · rcases List.mem_cons.mp hentry with rfl | hold
    · exact .inr hallowed
    · exact .inl hold

/-- An order of another account or mode is refused; one of the event's is synchronized. -/
theorem syncCommerceSubscription_ensures {order : OrderRow} (horder : s.1.order = some order)
    (event : SubscriptionEvent) {sync : OrderSync} (hstatus : sync.status ≠ .unset)
    (hcreated : sync.created = event.created) (expected : Option SubscriptionStatus) :
    (syncCommerceSubscription event.account event.livemode sync expected).run.Ensures audited s
      fun result t =>
        match result with
        | .ok purchase => purchase.isSome ∧ event.concerns order ∧ OrderStep s t order
            (if expected.any fun status => order.subscriptionStatus != status then order.projection
              else order.projection.apply ⟨sync.status, event.created⟩)
        | .error _ => t = s ∧ ¬ event.concerns order := by
  unfold syncCommerceSubscription
  rw [if_neg (by simp [hstatus, hcreated])]
  refine ensures_call fun now reply hreply => ?_
  obtain rfl : s.1.order = reply := Except.ok.inj hreply
  rw [horder]
  dsimp only
  split
  · rename_i haccount
    exact ⟨rfl, fun hconcerns => haccount hconcerns.1⟩
  rename_i haccount
  rw [not_not] at haccount
  split
  · rename_i hlivemode
    exact ⟨rfl, fun hconcerns => hlivemode hconcerns.2⟩
  rename_i hlivemode
  rw [not_not] at hlivemode
  refine Fallible.ensures_bind (syncOrderIfAllowed_ensures horder sync expected 2) ?_ ?_
  · rintro purchase t ⟨-, hstep⟩
    rw [hcreated] at hstep
    exact ⟨rfl, ⟨haccount, hlivemode⟩, hstep⟩
  · rintro error t ⟨hok, -⟩
    cases hok

/-! ### A webhook -/

/-- What a webhook does to the two rows: unless it is refused it steps both projections, and it
applies only what the rule permits, with one exception. -/
structure EventStep (event : SubscriptionEvent) (row : PlatformRow) (order : OrderRow)
    (s t : Audited) : Prop where
  platform : ∃ row', t.1.platform = some row' ∧ row'.projection =
    if event.kind.reportsStatus ∧ ¬ event.concerns order then row.projection
      else event.onPlatform row.projection
  order : ∃ order', t.1.order = some order' ∧ (order'.projection =
    if event.concerns order then event.onOrder order.projection else order.projection) ∧
      order'.stripeAccountId = order.stripeAccountId ∧ order'.livemode = order.livemode
  log : (event.kind = .invoicePaid → row.status = .pastDue →
      row.stripeEventCreated ≠ event.created) →
    ∀ entry ∈ t.2, entry ∈ s.2 ∨ entry.Permitted

theorem requirePlatform_ensures (subscriptionId : String) (matched : Bool) {row : PlatformRow}
    (hrow : s.1.platform = some row) :
    (requirePlatform subscriptionId matched).run.Ensures audited s fun result t =>
      result = .ok () ∧ t = s := by
  unfold requirePlatform
  split
  · exact ⟨rfl, rfl⟩
  · refine ensures_call fun now reply hreply => ?_
    obtain rfl : s.1.platform = reply := Except.ok.inj hreply
    rw [hrow]
    exact ⟨rfl, rfl⟩

/-- The order is synchronized, and then the platform's row is written. -/
private theorem sync_then_platform_ensures (subscriptionId : String) {event : SubscriptionEvent}
    {row : PlatformRow} {order : OrderRow} (hrow : s.1.platform = some row)
    (horder : s.1.order = some order) {sync : OrderSync} {expected : Option SubscriptionStatus}
    {next : SubscriptionProgram Unit} (hstatus : sync.status ≠ .unset)
    (hcreated : sync.created = event.created) (hreports : event.kind.reportsStatus)
    (honOrder : event.onOrder order.projection =
      if expected.any fun status => order.subscriptionStatus != status then order.projection
        else order.projection.apply ⟨sync.status, event.created⟩)
    (hnext : ∀ t : Audited, t.1.platform = some row → next.run.Ensures audited t fun _ u =>
      PlatformStep t u (event.onPlatform row.projection) (event.kind = .invoicePaid →
        row.status = .pastDue → row.stripeEventCreated ≠ event.created)) :
    (do
      let matched ← syncCommerceSubscription event.account event.livemode sync expected
      requirePlatform subscriptionId matched.isSome
      next : SubscriptionProgram Unit).run.Ensures audited s
      fun _ t => EventStep event row order s t := by
  refine Fallible.ensures_bind
    (syncCommerceSubscription_ensures horder event hstatus hcreated expected) ?_ ?_
  · rintro purchase t ⟨hsome, hconcerns, hsync⟩
    obtain ⟨order', horder', hprojection, haccount, hlivemode⟩ := hsync.order
    rw [hsome]
    refine (hnext t (hsync.platform.trans hrow)).mono fun result u hstep => ⟨?_, ?_, ?_⟩
    · rw [if_neg fun h => h.2 hconcerns]
      exact hstep.platform
    · rw [if_pos hconcerns, honOrder]
      exact ⟨order', hstep.order.trans horder', hprojection, haccount, hlivemode⟩
    · intro hpermitted entry hentry
      rcases hstep.log hpermitted entry hentry with hold | hnew
      · exact hsync.log entry hold
      · exact .inr hnew
  · rintro error t ⟨rfl, hnot⟩
    refine ⟨⟨row, hrow, ?_⟩, ⟨order, horder, ?_, rfl, rfl⟩, fun _ _ hentry => .inl hentry⟩
    · rw [if_pos ⟨hreports, hnot⟩]
    · rw [if_neg hnot]

/-- The platform's part of an update: status and plan, then the totals of the add-ons. -/
private theorem updated_ensures {event : SubscriptionEvent} {status : SubscriptionStatus}
    {plan currentPeriodEnd canceledAt : Option String} {cancelsAtPeriodEnd : Bool}
    {items : Option (List SubscriptionItem)}
    (hkind : event.kind =
      .updated status plan currentPeriodEnd cancelsAtPeriodEnd canceledAt items)
    {row : PlatformRow} (hrow : s.1.platform = some row) :
    (do
      let _ ← updateStatusPlan status plan event.created
      match ← call .getPlatform, items with
      | some row, some items => syncAddonTotalsFromItems row.userId items event.created
      | _, _ => return () : SubscriptionProgram Unit).run.Ensures audited s fun _ t =>
        PlatformStep s t (event.onPlatform row.projection) True := by
  have honPlatform : event.onPlatform row.projection =
      row.projection.apply ⟨if status = .unset then row.status else status, event.created⟩ := by
    rw [SubscriptionEvent.onPlatform, hkind]
    rfl
  have hwrite := writePlatform_ensures (fun current => if status = .unset then current else status)
    event.created (fun _ => .statusPlan status plan event.created) (fun _ _ => rfl) hrow
  refine Fallible.ensures_bind hwrite ?_ ?_
  · rintro rows t ⟨-, hstep⟩
    rw [← honPlatform] at hstep
    obtain ⟨row', hrow', hprojection⟩ := hstep.platform
    refine ensures_call fun now reply hreply => ?_
    obtain rfl : t.1.platform = reply := Except.ok.inj hreply
    rw [hrow']
    cases items with
    | none => exact hstep
    | some items =>
      refine (syncAddonTotalsFromItems_ensures hrow' row'.userId items event.created).mono
        fun _ u hstep' => ?_
      rw [hprojection] at hstep'
      have htrans := hstep.trans hstep'
      rwa [and_self] at htrans
  · rintro error t ⟨hok, -⟩
    cases hok

/-- A webhook is a step of both projections. -/
theorem handleSubscriptionEvent_ensures (subscriptionId : String) (event : SubscriptionEvent)
    {row : PlatformRow} {order : OrderRow} (hrow : s.1.platform = some row)
    (horder : s.1.order = some order) :
    (handleSubscriptionEvent subscriptionId event).run.Ensures audited s fun _ t =>
      EventStep event row order s t := by
  unfold handleSubscriptionEvent
  cases hkind : event.kind with
  | updated status plan currentPeriodEnd cancelsAtPeriodEnd canceledAt items =>
    dsimp only
    by_cases hunset : status = .unset
    · -- the order is left alone
      rw [if_pos hunset]
      have hnone : (pure none : SubscriptionProgram (Option OrderRow)).run.Ensures audited s
          fun result t => t = s ∧ result = .ok none := ⟨rfl, rfl⟩
      refine Fallible.ensures_bind hnone ?_ fun error t herror => nomatch herror.2
      rintro matched t ⟨rfl, -⟩
      refine Fallible.ensures_bind (requirePlatform_ensures subscriptionId matched.isSome hrow) ?_
        fun error t herror => nomatch herror.1
      rintro _ u ⟨-, rfl⟩
      refine (updated_ensures hkind hrow).mono fun result v hstep => ⟨?_, ?_, fun _ => ?_⟩
      · rw [if_neg (by simp [EventKind.reportsStatus, hkind, hunset])]
        exact hstep.platform
      · refine ⟨order, hstep.order.trans horder, ?_, rfl, rfl⟩
        simp [SubscriptionEvent.onOrder, hkind, EventKind.reportsStatus, hunset]
      · exact hstep.log trivial
    · rw [if_neg hunset]
      have hreports : event.kind.reportsStatus := by
        simp [hkind, EventKind.reportsStatus, hunset]
      refine sync_then_platform_ensures subscriptionId hrow horder hunset rfl hreports ?_
        fun t ht => (updated_ensures hkind ht).mono fun _ u hstep => ?_
      · rw [SubscriptionEvent.onOrder, hkind]
        simp [EventKind.reportsStatus, EventKind.incoming, hunset]
      · exact ⟨hstep.order, hstep.platform, fun _ => hstep.log trivial⟩
  | invoicePaid =>
    refine sync_then_platform_ensures subscriptionId hrow horder nofun rfl
      (by rw [hkind]; rfl) ?_ fun t ht => ?_
    · rw [SubscriptionEvent.onOrder, hkind]
      by_cases hstatus : order.subscriptionStatus = .pastDue
      · simp [OrderRow.projection, hstatus]
      · simp [OrderRow.projection, hstatus]
    · refine Fallible.ensures_bind (recoverFromPaidInvoice_ensures ht event.created) ?_ ?_
      all_goals
        intro result u hstep
        refine ⟨hstep.order, ?_, fun hpermitted => hstep.log (hpermitted hkind)⟩
        rw [SubscriptionEvent.onPlatform, hkind]
        exact hstep.platform
  | invoicePaymentFailed =>
    refine sync_then_platform_ensures subscriptionId hrow horder nofun rfl
      (by rw [hkind]; rfl) ?_ fun t ht => ?_
    · rw [SubscriptionEvent.onOrder, hkind]
      rfl
    · refine Fallible.ensures_bind (writePlatform_ensures (fun _ => .pastDue) event.created
        (fun now => .pastDue (now + gracePeriod) event.created) (fun _ _ => rfl) ht) ?_ ?_
      all_goals
        rintro result u ⟨-, hstep⟩
        refine ⟨hstep.order, ?_, fun _ => hstep.log trivial⟩
        rw [SubscriptionEvent.onPlatform, hkind]
        exact hstep.platform
  | deleted canceledAt =>
    refine ensures_call fun now reply hreply => ?_
    refine sync_then_platform_ensures subscriptionId hrow horder nofun rfl
      (by rw [hkind]; rfl) ?_ fun t ht => ?_
    · rw [SubscriptionEvent.onOrder, hkind]
      rfl
    · refine Fallible.ensures_bind (cancelAndResetAddons_ensures ht event.created) ?_ ?_
      all_goals
        intro result u hstep
        refine ⟨hstep.order, ?_, fun _ => hstep.log trivial⟩
        rw [SubscriptionEvent.onPlatform, hkind]
        exact hstep.platform

end Steps

/-! ### Agreement -/

/-- What the rule says depends on how the event times compare, not on the times. -/
theorem allowed_congr {p o : SubscriptionProjection} (hstatus : p.status = o.status)
    (status : SubscriptionStatus) {created : ℤ}
    (htimes : p.eventCreated = o.eventCreated ∨
      ¬ (o.eventCreated ≤ created ∧ created ≤ p.eventCreated) ∧ o.eventCreated ≤ p.eventCreated) :
    subscriptionTransitionAllowed p.status p.eventCreated status created =
      subscriptionTransitionAllowed o.status o.eventCreated status created := by
  rw [hstatus]
  rcases htimes with heq | ⟨houtside, hle⟩
  · rw [heq]
  · unfold subscriptionTransitionAllowed
    by_cases hlt : created < o.eventCreated
    · rw [if_pos (show p.eventCreated > created by omega),
        if_pos (show o.eventCreated > created by omega)]
    · have hpast : p.eventCreated < created := by
        by_contra hnot
        exact houtside ⟨by omega, by omega⟩
      have hp : (p.eventCreated == created) = false := by simp; omega
      have ho : (o.eventCreated == created) = false := by simp; omega
      rw [if_neg (show ¬ p.eventCreated > created by omega),
        if_neg (show ¬ o.eventCreated > created by omega), hp, ho]

/-- Two projections that the rule judges alike stay alike. -/
theorem apply_congr {p o e : SubscriptionProjection} (hstatus : p.status = o.status)
    (hle : o.eventCreated ≤ p.eventCreated)
    (htimes : p.eventCreated = o.eventCreated ∨
      ¬ (o.eventCreated ≤ e.eventCreated ∧ e.eventCreated ≤ p.eventCreated)) :
    (p.apply e).status = (o.apply e).status ∧
      (o.apply e).eventCreated ≤ (p.apply e).eventCreated ∧
      (p.eventCreated = o.eventCreated → (p.apply e).eventCreated = (o.apply e).eventCreated) := by
  have hallowed := allowed_congr hstatus e.status (htimes.imp_right fun h => ⟨h, hle⟩)
  by_cases ho : subscriptionTransitionAllowed o.status o.eventCreated e.status e.eventCreated
  · rw [apply_of_allowed ho, apply_of_allowed (hallowed.trans ho)]
    exact ⟨rfl, Int.le_refl _, fun _ => rfl⟩
  · rw [apply_of_not_allowed ho, apply_of_not_allowed (by rwa [hallowed])]
    exact ⟨hstatus, hle, fun heq => heq⟩

/-- Where the event is not of the second of a row that is past due, recovery follows the rule. -/
theorem recovered_eq_apply {p : SubscriptionProjection} {created : ℤ} (hstatus : p.status = .pastDue)
    (hne : p.eventCreated ≠ created) :
    (if p.status = .pastDue ∧ p.eventCreated ≤ created then ⟨.active, created⟩ else p) =
      p.apply ⟨.active, created⟩ := by
  by_cases hle : p.eventCreated ≤ created
  · rw [if_pos ⟨hstatus, hle⟩, apply_of_allowed]
    simp [subscriptionTransitionAllowed, hstatus, SubscriptionStatus.isTerminal, hne]
    omega
  · rw [if_neg fun h => hle h.2, apply_of_not_allowed]
    simp [subscriptionTransitionAllowed]
    omega

/-- The event is not dated between the event times of the two rows, if it reports a status and they
differ; and a paid invoice is not of the very second of a platform row that is past due. -/
structure Undisputed (s : SubscriptionStore) (event : SubscriptionEvent) : Prop where
  outside : event.kind.reportsStatus → ∀ row ∈ s.platform, ∀ order ∈ s.order,
    row.stripeEventCreated = order.subscriptionEventCreated ∨
      ¬ (order.subscriptionEventCreated ≤ event.created ∧ event.created ≤ row.stripeEventCreated)
  recovers : event.kind = .invoicePaid → ∀ row ∈ s.platform, row.status = .pastDue →
    row.stripeEventCreated ≠ event.created

instance (s : SubscriptionStore) (event : SubscriptionEvent) : Decidable (Undisputed s event) :=
  decidable_of_iff
    ((event.kind.reportsStatus → ∀ row ∈ s.platform, ∀ order ∈ s.order,
      row.stripeEventCreated = order.subscriptionEventCreated ∨
        ¬ (order.subscriptionEventCreated ≤ event.created ∧
          event.created ≤ row.stripeEventCreated)) ∧
      (event.kind = .invoicePaid → ∀ row ∈ s.platform, row.status = .pastDue →
        row.stripeEventCreated ≠ event.created))
    ⟨fun h => ⟨h.1, h.2⟩, fun h => ⟨h.outside, h.recovers⟩⟩

/-- An event keeps the two projections alike. -/
theorem onPlatform_onOrder_congr {event : SubscriptionEvent} {p o : SubscriptionProjection}
    (hstatus : p.status = o.status) (hle : o.eventCreated ≤ p.eventCreated)
    (houtside : event.kind.reportsStatus → p.eventCreated = o.eventCreated ∨
      ¬ (o.eventCreated ≤ event.created ∧ event.created ≤ p.eventCreated))
    (hrecovers : event.kind = .invoicePaid → p.status = .pastDue → p.eventCreated ≠ event.created) :
    (event.onPlatform p).status = (event.onOrder o).status ∧
      (event.onOrder o).eventCreated ≤ (event.onPlatform p).eventCreated ∧
      (event.kind.reportsStatus → p.eventCreated = o.eventCreated →
        (event.onPlatform p).eventCreated = (event.onOrder o).eventCreated) := by
  cases hkind : event.kind with
  | updated status plan currentPeriodEnd cancelsAtPeriodEnd canceledAt items =>
    by_cases hunset : status = .unset
    · have honOrder : event.onOrder o = o := by
        simp [SubscriptionEvent.onOrder, hkind, EventKind.reportsStatus, hunset]
      have honPlatform : event.onPlatform p = p.apply ⟨p.status, event.created⟩ := by
        simp [SubscriptionEvent.onPlatform, hkind, EventKind.incoming, hunset]
      rw [honOrder, honPlatform]
      refine ⟨?_, ?_, fun hreports => ?_⟩
      · rcases p.apply_eq_or ⟨p.status, event.created⟩ with h | h <;> rw [h, hstatus]
      · by_cases hnew : subscriptionTransitionAllowed p.status p.eventCreated p.status event.created
        · rw [apply_of_allowed (e := ⟨p.status, event.created⟩) hnew]
          have hnot : ¬ p.eventCreated > event.created := by
            intro hlt
            simp [subscriptionTransitionAllowed, hlt] at hnew
          dsimp only
          omega
        · rwa [apply_of_not_allowed (e := ⟨p.status, event.created⟩) hnew]
      · simp [EventKind.reportsStatus, hunset] at hreports
    · have hreports : event.kind.reportsStatus := by
        simp [hkind, EventKind.reportsStatus, hunset]
      have honOrder : event.onOrder o = o.apply ⟨status, event.created⟩ := by
        simp [SubscriptionEvent.onOrder, hkind, EventKind.reportsStatus, EventKind.incoming, hunset]
      have honPlatform : event.onPlatform p = p.apply ⟨status, event.created⟩ := by
        simp [SubscriptionEvent.onPlatform, hkind, EventKind.incoming, hunset]
      rw [honOrder, honPlatform]
      obtain ⟨hsame, hbehind, htimes⟩ := apply_congr (e := ⟨status, event.created⟩) hstatus hle
        (houtside hreports)
      exact ⟨hsame, hbehind, fun _ => htimes⟩
  | invoicePaid =>
    have honOrder : event.onOrder o =
        if o.status = .pastDue then o.apply ⟨.active, event.created⟩ else o := by
      simp [SubscriptionEvent.onOrder, hkind]
    have honPlatform : event.onPlatform p = if p.status = .pastDue ∧
        p.eventCreated ≤ event.created then ⟨.active, event.created⟩ else p := by
      simp [SubscriptionEvent.onPlatform, hkind]
    rw [honOrder, honPlatform]
    by_cases hpastDue : p.status = .pastDue
    · rw [recovered_eq_apply hpastDue (hrecovers hkind hpastDue), if_pos (hstatus ▸ hpastDue)]
      obtain ⟨hsame, hbehind, htimes⟩ := apply_congr (e := ⟨.active, event.created⟩) hstatus hle
        (houtside (by rw [hkind]; rfl))
      exact ⟨hsame, hbehind, fun _ => htimes⟩
    · rw [if_neg fun h => hpastDue h.1, if_neg (by rwa [← hstatus])]
      exact ⟨hstatus, hle, fun _ heq => heq⟩
  | invoicePaymentFailed =>
    have honOrder : event.onOrder o = o.apply ⟨.pastDue, event.created⟩ := by
      simp [SubscriptionEvent.onOrder, hkind, EventKind.reportsStatus, EventKind.incoming]
    have honPlatform : event.onPlatform p = p.apply ⟨.pastDue, event.created⟩ := by
      simp [SubscriptionEvent.onPlatform, hkind, EventKind.incoming]
    rw [honOrder, honPlatform]
    obtain ⟨hsame, hbehind, htimes⟩ := apply_congr (e := ⟨.pastDue, event.created⟩) hstatus hle
      (houtside (by rw [hkind]; rfl))
    exact ⟨hsame, hbehind, fun _ => htimes⟩
  | deleted canceledAt =>
    have honOrder : event.onOrder o = o.apply ⟨.canceled, event.created⟩ := by
      simp [SubscriptionEvent.onOrder, hkind, EventKind.reportsStatus, EventKind.incoming]
    have honPlatform : event.onPlatform p = p.apply ⟨.canceled, event.created⟩ := by
      simp [SubscriptionEvent.onPlatform, hkind, EventKind.incoming]
    rw [honOrder, honPlatform]
    obtain ⟨hsame, hbehind, htimes⟩ := apply_congr (e := ⟨.canceled, event.created⟩) hstatus hle
      (houtside (by rw [hkind]; rfl))
    exact ⟨hsame, hbehind, fun _ => htimes⟩

/-- The two rows hold the same status, the platform's event time is not behind, and every update
that has been applied is one that the rule permits. -/
structure Agree (s : Audited) (row : PlatformRow) (order : OrderRow) : Prop where
  platform_eq : s.1.platform = some row
  order_eq : s.1.order = some order
  status : row.status = order.subscriptionStatus
  ahead : order.subscriptionEventCreated ≤ row.stripeEventCreated
  permitted : ∀ entry ∈ s.2, entry.Permitted

theorem onOrder_of_not_reportsStatus {event : SubscriptionEvent}
    (h : ¬ event.kind.reportsStatus) (p : SubscriptionProjection) : event.onOrder p = p := by
  unfold SubscriptionEvent.onOrder
  split
  · rename_i hkind
    rw [hkind] at h
    exact absurd rfl h
  · rw [if_neg h]

/-- Handling an event that is not disputed keeps the rows in agreement. -/
theorem Agree.delivered {subscriptionId : String} {s : Audited} {row : PlatformRow} {order : OrderRow}
    (h : Agree s row order) (delivery : Delivery) (hundisputed : Undisputed s.1 delivery.event) :
    ∃ row' order', Agree (deliver subscriptionId s delivery) row' order' ∧
      (delivery.event.kind.reportsStatus →
        row.stripeEventCreated = order.subscriptionEventCreated →
        row'.stripeEventCreated = order'.subscriptionEventCreated) := by
  obtain ⟨event, times⟩ := delivery
  have hstep := (handleSubscriptionEvent_ensures subscriptionId event h.platform_eq h.order_eq).run times
  obtain ⟨row', hrow', hprojection⟩ := hstep.platform
  obtain ⟨order', horder', hprojection', -⟩ := hstep.order
  have hrecovers : event.kind = .invoicePaid → row.status = .pastDue →
      row.stripeEventCreated ≠ event.created :=
    fun hkind => hundisputed.recovers hkind row h.platform_eq
  have hpermitted : ∀ entry ∈ (deliver subscriptionId s ⟨event, times⟩).2,
      entry.Permitted :=
    fun entry hentry => (hstep.log hrecovers entry hentry).elim (h.permitted entry) fun hnew => hnew
  obtain ⟨hsame, hbehind, htimes⟩ := onPlatform_onOrder_congr (p := row.projection)
    (o := order.projection) h.status h.ahead
    (fun hreports => hundisputed.outside hreports row h.platform_eq order h.order_eq) hrecovers
  by_cases hrefused : event.kind.reportsStatus ∧ ¬ event.concerns order
  · -- the order belongs to another account or mode, and nothing is written
    rw [if_pos hrefused] at hprojection
    rw [if_neg hrefused.2] at hprojection'
    obtain ⟨hstatus, htime⟩ := SubscriptionProjection.mk.inj hprojection
    obtain ⟨hstatus', htime'⟩ := SubscriptionProjection.mk.inj hprojection'
    refine ⟨row', order', ⟨hrow', horder', ?_, ?_, hpermitted⟩, fun _ heq => ?_⟩
    · rw [hstatus, hstatus', h.status]
    · rw [htime, htime']
      exact h.ahead
    · rw [htime, htime', heq]
  · rw [if_neg hrefused] at hprojection
    have hprojection' : order'.projection = event.onOrder order.projection := by
      rw [hprojection']
      split
      · rfl
      · rename_i hnot
        exact (onOrder_of_not_reportsStatus (fun hreports => hrefused ⟨hreports, hnot⟩) _).symm
    rw [← hprojection, ← hprojection'] at hsame hbehind htimes
    exact ⟨row', order', ⟨hrow', horder', hsame, hbehind, hpermitted⟩, htimes⟩

/-- The two projections agree: whatever events are delivered, one after the other, to rows that
started alike, the rows hold the same status after each of them, and every update that was applied
is one that the rule permits. No event may be disputed when it is delivered; where every update
reports a status, the event times are the same as well. -/
theorem projections_agree (subscriptionId : String) {start : SubscriptionStore} {row : PlatformRow}
    {order : OrderRow} (hplatform : start.platform = some row) (horder : start.order = some order)
    (hstart : row.projection = order.projection) (deliveries : List Delivery)
    (hundisputed : ∀ n, ∀ delivery ∈ deliveries[n]?,
      Undisputed (deliverAll subscriptionId start (deliveries.take n)).1 delivery.event) (n : ℕ) :
    ∃ row' order', Agree (deliverAll subscriptionId start (deliveries.take n)) row' order' ∧
      ((∀ delivery ∈ deliveries.take n, delivery.event.kind.reportsStatus) →
        row'.stripeEventCreated = order'.subscriptionEventCreated) := by
  obtain ⟨hstatus, htime⟩ := SubscriptionProjection.mk.inj hstart
  induction n with
  | zero =>
    exact ⟨row, order, ⟨hplatform, horder, hstatus, Int.le_of_eq htime.symm, nofun⟩, fun _ => htime⟩
  | succ n ih =>
    obtain ⟨row', order', hagree, htimes⟩ := ih
    rw [List.take_add_one]
    cases hnext : deliveries[n]? with
    | none =>
      rw [Option.toList_none, List.append_nil]
      exact ⟨row', order', hagree, htimes⟩
    | some delivery =>
      obtain ⟨row'', order'', hagree', htimes'⟩ :=
        hagree.delivered delivery (hundisputed n delivery hnext)
      rw [Option.toList_some]
      refine ⟨row'', order'', ?_, fun hreports => ?_⟩
      · rwa [deliverAll, List.foldl_append]
      · refine htimes' (hreports delivery (by simp)) (htimes fun d hd => hreports d ?_)
        exact List.mem_append_left _ hd

/-- A paid invoice of the very second of rows that are past due recovers the platform's row and
leaves the order, where the rule refuses the same transition. -/
theorem comes_apart_of_paid_same_second (subscriptionId : String) {s : Audited} {row : PlatformRow}
    {order : OrderRow} (hplatform : s.1.platform = some row) (horder : s.1.order = some order)
    (hsame : row.projection = order.projection) (hpastDue : row.status = .pastDue)
    {delivery : Delivery} (hkind : delivery.event.kind = .invoicePaid)
    (hcreated : row.stripeEventCreated = delivery.event.created)
    (hconcerns : delivery.event.concerns order) :
    ∃ row' order', (deliver subscriptionId s delivery).1.platform = some row' ∧
      (deliver subscriptionId s delivery).1.order = some order' ∧
      row'.status = .active ∧ order'.subscriptionStatus = .pastDue := by
  have hstep := (handleSubscriptionEvent_ensures subscriptionId delivery.event hplatform horder).run
    delivery.times
  obtain ⟨row', hrow', hprojection⟩ := hstep.platform
  obtain ⟨order', horder', hprojection', -⟩ := hstep.order
  rw [if_neg fun h => h.2 hconcerns, SubscriptionEvent.onPlatform, hkind] at hprojection
  rw [if_pos hconcerns, SubscriptionEvent.onOrder, hkind, ← hsame] at hprojection'
  refine ⟨row', order', hrow', horder', ?_, ?_⟩
  · have hrecovered : row'.projection = ⟨.active, delivery.event.created⟩ := by
      rw [hprojection]
      exact if_pos ⟨hpastDue, Int.le_of_eq hcreated⟩
    exact congrArg SubscriptionProjection.status hrecovered
  · have hrefused : order'.projection = row.projection := by
      rw [hprojection']
      refine (if_pos hpastDue).trans (apply_of_not_allowed ?_)
      simp [PlatformRow.projection, subscriptionTransitionAllowed, hpastDue, hcreated,
        SubscriptionStatus.isTerminal, SubscriptionStatus.rank]
    exact (congrArg SubscriptionProjection.status hrefused).trans hpastDue

section Example

/-- An active subscription on both rows. -/
def bothActive : SubscriptionStore where
  platform := some ⟨"user_1", "pro", .active, none, 1, [0, 0, 0, 0]⟩
  order := some ⟨"acct_1", true, .active, 1, "", false, ""⟩

def eventAt (created : ℕ) (kind : EventKind) : Delivery where
  event := ⟨"acct_1", true, created, kind⟩

/-- An update without a status at time 10, and a failed payment of time 5 that is delivered after
it: only the order is past due. -/
theorem projections_come_apart :
    bothActive.platform.map PlatformRow.projection = bothActive.order.map OrderRow.projection ∧
    let last := (deliverAll "sub_1" bothActive
      [eventAt 10 (.updated .unset none none false none none), eventAt 5 .invoicePaymentFailed]).1
    last.platform.map PlatformRow.status = some .active ∧
      last.order.map OrderRow.subscriptionStatus = some .pastDue := by
  decide +kernel

/-- A failed payment, a payment in the next second, and a cancellation in the same one. -/
def canceledAfterRecovery : List Delivery :=
  [eventAt 5 .invoicePaymentFailed, eventAt 6 .invoicePaid, eventAt 6 (.deleted none)]

theorem projections_agree_canceled :
    ∃ row' order', Agree (deliverAll "sub_1" bothActive (canceledAfterRecovery.take 3)) row' order' ∧
      ((∀ delivery ∈ canceledAfterRecovery.take 3, delivery.event.kind.reportsStatus) →
        row'.stripeEventCreated = order'.subscriptionEventCreated) := by
  refine projections_agree "sub_1" rfl rfl rfl canceledAfterRecovery (fun n delivery h => ?_) 3
  rcases n with _ | _ | _ | n
  · obtain rfl := Option.some.inj h
    decide +kernel
  · obtain rfl := Option.some.inj h
    decide +kernel
  · obtain rfl := Option.some.inj h
    decide +kernel
  · cases h

end Example

end Subscription

end Products
