import Mathlib.Data.List.Induction
import Impresspress.Products.Commerce.Refunds

/-!
# The dispute ledger

A dispute event is written over the stored row of its dispute unless the row came from a younger
event. Of the events of one second the last delivered one stays, so the ledger does not depend on
the order of delivery exactly when the youngest events of a dispute all report one status.

Source: `blocks/products/repo/disputes.rs`, `blocks/products/contracts.rs` and migration 015.

## Main definitions

* `Products.Commerce.reconcileDispute`: the upsert of a dispute event.
* `Products.Commerce.deliver`: events delivered one after the other.

## Main results

* `Products.Commerce.deliver_spec`: what the deliveries of a dispute's events leave behind.
* `Products.Commerce.dispute_order_independent_iff`: exactly when their order does not matter.
-/

namespace Products

namespace Commerce

open Relational

/-- Where a dispute stands with the card network. -/
inductive DisputeStatus where
  | warningNeedsResponse
  | warningUnderReview
  | warningClosed
  | needsResponse
  | underReview
  | won
  | lost
  | prevented
  deriving DecidableEq, Repr

/-- Whether the dispute has reached a state the network will not move from. -/
def DisputeStatus.isClosed : DisputeStatus → Bool
  | warningClosed | won | lost | prevented => true
  | _ => false

/-- A dispute event as the webhook hands it on. -/
structure DisputeSnapshot where
  purchaseId : String
  sellerAccountId : String
  stripeAccountId : String
  providerDisputeId : String
  providerChargeId : String
  paymentIntentId : String
  status : DisputeStatus
  amountMinor : ℤ
  currency : String
  reason : String
  evidenceDueBy : Option String
  livemode : Bool
  eventCreated : ℤ
  deriving DecidableEq, Repr

/-- A row of the disputes table. -/
structure Dispute where
  id : RowId
  purchaseId : String
  sellerAccountId : String
  stripeAccountId : String
  providerDisputeId : String
  providerChargeId : String
  paymentIntentId : String
  status : DisputeStatus
  amountMinor : ℤ
  currency : String
  reason : String
  evidenceDueBy : Option String
  livemode : Bool
  eventCreated : ℤ
  closedAt : Option Instant
  deriving DecidableEq, Repr

/-- The unique index of the table: a connected account has a dispute once. -/
def disputeSchema : Schema Dispute RowId where
  key := Dispute.id
  clash a b := a.stripeAccountId == b.stripeAccountId && a.providerDisputeId == b.providerDisputeId

/-- The table of disputes and the next fresh id. -/
structure DisputeStore where
  disputes : Table disputeSchema
  nextId : RowId
  fresh : ∀ row ∈ disputes.rows, row.id < nextId

/-- `validate_snapshot`. -/
def DisputeSnapshot.validate (snapshot : DisputeSnapshot) : Except WaferError Unit :=
  if snapshot.purchaseId = "" ∨ snapshot.providerDisputeId = "" ∨ snapshot.paymentIntentId = "" ∨
      snapshot.amountMinor ≤ 0 ∨ snapshot.currency = "" ∨ snapshot.eventCreated < 0 then
    .error ⟨.invalidArgument,
      "dispute identity, positive amount, currency, and event timestamp are required"⟩
  else .ok ()

/-- `validate_existing`: an event must agree with the row of its dispute. -/
def Dispute.validate (record : Dispute) (snapshot : DisputeSnapshot) : Except WaferError Unit :=
  if record.purchaseId ≠ snapshot.purchaseId ∨ record.stripeAccountId ≠ snapshot.stripeAccountId ∨
      record.paymentIntentId ≠ snapshot.paymentIntentId ∨
      record.amountMinor ≠ snapshot.amountMinor ∨
      ¬ eqIgnoreAsciiCase record.currency snapshot.currency ∨
      record.livemode ≠ snapshot.livemode ∨
      (record.providerChargeId ≠ "" ∧ snapshot.providerChargeId ≠ "" ∧
        record.providerChargeId ≠ snapshot.providerChargeId) then
    .error ⟨.failedPrecondition, "dispute webhook does not match its immutable order snapshot"⟩
  else .ok ()

/-- The row with an event written over it. -/
def Dispute.overwrite (record : Dispute) (snapshot : DisputeSnapshot) (now : Instant) : Dispute :=
  { record with
    status := snapshot.status
    providerChargeId :=
      if snapshot.providerChargeId = "" then record.providerChargeId else snapshot.providerChargeId
    reason := snapshot.reason
    evidenceDueBy := snapshot.evidenceDueBy
    eventCreated := snapshot.eventCreated
    closedAt := if snapshot.status.isClosed then some (record.closedAt.getD now) else none }

/-- The row that an event of a new dispute inserts. -/
def DisputeSnapshot.row (snapshot : DisputeSnapshot) (id : RowId) (now : Instant) : Dispute where
  id := id
  purchaseId := snapshot.purchaseId
  sellerAccountId := snapshot.sellerAccountId
  stripeAccountId := snapshot.stripeAccountId
  providerDisputeId := snapshot.providerDisputeId
  providerChargeId := snapshot.providerChargeId
  paymentIntentId := snapshot.paymentIntentId
  status := snapshot.status
  amountMinor := snapshot.amountMinor
  currency := snapshot.currency
  reason := snapshot.reason
  evidenceDueBy := snapshot.evidenceDueBy
  livemode := snapshot.livemode
  eventCreated := snapshot.eventCreated
  closedAt := if snapshot.status.isClosed then some now else none

namespace DisputeStore

/-- `find_existing`. -/
def findExisting (s : DisputeStore) (providerDisputeId : String) : Option Dispute :=
  s.disputes.rows.find? fun row => row.providerDisputeId == providerDisputeId

theorem fresh_insert (s : DisputeStore) {row : Dispute} {t : Table disputeSchema}
    (hrow : row.id = s.nextId) (h : s.disputes.insert row = some t) :
    ∀ r ∈ t.rows, r.id < s.nextId + 1 := by
  intro r hr
  rcases (Table.mem_insert h).mp hr with hr | rfl
  · exact Nat.lt_succ_of_lt (s.fresh r hr)
  · rw [hrow]
    exact Nat.lt_succ_self _

theorem fresh_updateWhere (s : DisputeStore) {id : RowId} {p : Dispute → Bool}
    {f : Dispute → Dispute} {rows : ℕ} {t : Table disputeSchema}
    (h : s.disputes.updateWhere id p f = some (rows, t)) (hf : ∀ row, (f row).id = row.id) :
    ∀ r ∈ t.rows, r.id < s.nextId := by
  rcases s.disputes.updateWhere_cases id p f with hnone | ⟨hzero, -⟩ |
    ⟨row, t', hone, hget, -, hreplace⟩
  · rw [hnone] at h
    cases h
  · rw [hzero] at h
    cases h
    exact s.fresh
  · rw [hone] at h
    cases h
    intro r hr
    rcases (Table.mem_replace hreplace).mp hr with ⟨hr, -⟩ | ⟨rfl, -⟩
    · exact s.fresh r hr
    · rw [hf]
      exact s.fresh row (Table.get?_eq_some_iff.mp hget).1

/-- `db::create` of the row of a new dispute. -/
def create (s : DisputeStore) (snapshot : DisputeSnapshot) (now : Instant) :
    Except WaferError Dispute × DisputeStore :=
  match h : s.disputes.insert (snapshot.row s.nextId now) with
  | none => (.error uniqueViolation, s)
  | some t => (.ok (snapshot.row s.nextId now), ⟨t, s.nextId + 1, s.fresh_insert rfl h⟩)

theorem create_eq {s : DisputeStore} {snapshot : DisputeSnapshot} {now : Instant}
    {t : Table disputeSchema} (h : s.disputes.insert (snapshot.row s.nextId now) = some t) :
    s.create snapshot now =
      (.ok (snapshot.row s.nextId now), ⟨t, s.nextId + 1, s.fresh_insert rfl h⟩) := by
  unfold create
  split
  · rename_i hnone
    rw [h] at hnone
    cases hnone
  · rename_i t' ht'
    rw [h] at ht'
    cases ht'
    rfl

/-- The update of `update_existing`: the event is written unless the row came from a younger
one. -/
def overwriteUnlessYounger (s : DisputeStore) (id : RowId) (snapshot : DisputeSnapshot)
    (now : Instant) : Except WaferError ℕ × DisputeStore :=
  match h : s.disputes.updateWhere id
      (fun row => row.eventCreated ≤ snapshot.eventCreated) (·.overwrite snapshot now) with
  | none => (.error uniqueViolation, s)
  | some (rows, t) =>
    (.ok rows, ⟨t, s.nextId, s.fresh_updateWhere h fun _ => rfl⟩)

theorem overwriteUnlessYounger_eq {s : DisputeStore} {id : RowId} {snapshot : DisputeSnapshot}
    {now : Instant} {rows : ℕ} {t : Table disputeSchema}
    (h : s.disputes.updateWhere id (fun row => row.eventCreated ≤ snapshot.eventCreated)
      (·.overwrite snapshot now) = some (rows, t)) :
    s.overwriteUnlessYounger id snapshot now =
      (.ok rows, ⟨t, s.nextId, s.fresh_updateWhere h fun _ => rfl⟩) := by
  unfold overwriteUnlessYounger
  split
  · rename_i hnone
    rw [h] at hnone
    cases hnone
  · rename_i rows' t' ht'
    rw [h] at ht'
    cases ht'
    rfl

end DisputeStore

/-- `update_existing`. -/
def updateExisting (existing : Dispute) (snapshot : DisputeSnapshot) (now : Instant)
    (s : DisputeStore) : Except WaferError Dispute × DisputeStore :=
  match existing.validate snapshot with
  | .error error => (.error error, s)
  | .ok () =>
    match s.overwriteUnlessYounger existing.id snapshot now with
    | (.error error, s) => (.error error, s)
    | (.ok _, s) => (found (s.disputes.get? existing.id), s)

/-- `reconcile`: record an event of a dispute. -/
def reconcileDispute (snapshot : DisputeSnapshot) (now : Instant) (s : DisputeStore) :
    Except WaferError Dispute × DisputeStore :=
  match snapshot.validate with
  | .error error => (.error error, s)
  | .ok () =>
    match s.findExisting snapshot.providerDisputeId with
    | some existing => updateExisting existing snapshot now s
    | none =>
      match s.create snapshot now with
      | (.ok record, s) => (.ok record, s)
      | (.error createError, s) =>
        match s.findExisting snapshot.providerDisputeId with
        | some existing => updateExisting existing snapshot now s
        | none => (.error createError, s)

/-- Events delivered one after the other, each at its time. -/
def deliver (deliveries : List (DisputeSnapshot × Instant)) (s : DisputeStore) : DisputeStore :=
  deliveries.foldl (fun s delivery => (reconcileDispute delivery.1 delivery.2 s).2) s

/-- Two events are of one dispute: they agree on everything that does not change about it. Not
every event names the charge. -/
structure SameDispute (a b : DisputeSnapshot) : Prop where
  purchaseId : a.purchaseId = b.purchaseId
  stripeAccountId : a.stripeAccountId = b.stripeAccountId
  providerDisputeId : a.providerDisputeId = b.providerDisputeId
  paymentIntentId : a.paymentIntentId = b.paymentIntentId
  amountMinor : a.amountMinor = b.amountMinor
  currency : eqIgnoreAsciiCase a.currency b.currency
  livemode : a.livemode = b.livemode
  providerChargeId : a.providerChargeId ≠ "" → b.providerChargeId ≠ "" →
    a.providerChargeId = b.providerChargeId

/-- Events that the ledger accepts, all of one dispute. -/
structure OneDispute (providerDisputeId : String) (events : List DisputeSnapshot) : Prop where
  named : ∀ event ∈ events, event.providerDisputeId = providerDisputeId
  valid : ∀ event ∈ events, event.validate = .ok ()
  same : ∀ a ∈ events, ∀ b ∈ events, SameDispute a b

/-- The row is the one the store has of the dispute. -/
structure Holds (s : DisputeStore) (providerDisputeId : String) (row : Dispute) : Prop where
  mem : row ∈ s.disputes.rows
  named : row.providerDisputeId = providerDisputeId
  unique : ∀ r ∈ s.disputes.rows, r.providerDisputeId = providerDisputeId → r = row

theorem Holds.findExisting {s : DisputeStore} {providerDisputeId : String} {row : Dispute}
    (h : Holds s providerDisputeId row) : s.findExisting providerDisputeId = some row := by
  unfold DisputeStore.findExisting
  cases hfind : s.disputes.rows.find? fun r => r.providerDisputeId == providerDisputeId with
  | none =>
    have hnone := List.find?_eq_none.mp hfind row h.mem
    simp [h.named] at hnone
  | some found =>
    have hnamed : found.providerDisputeId = providerDisputeId := by
      simpa using List.find?_some hfind
    rw [h.unique found (List.mem_of_find?_eq_some hfind) hnamed]

theorem validate_row {a b : DisputeSnapshot} (h : SameDispute a b) (id : RowId) (now : Instant) :
    (a.row id now).validate b = .ok () := by
  unfold Dispute.validate
  rw [if_neg]
  simp only [DisputeSnapshot.row, h.purchaseId, h.stripeAccountId, h.paymentIntentId,
    h.amountMinor, h.currency, h.livemode, not_or, not_and, not_not, true_and, ne_eq,
    not_true_eq_false, not_false_eq_true]
  exact h.providerChargeId

/-- An event that has been written over a row leaves it in agreement with the others. -/
theorem validate_overwrite {row : Dispute} {a b : DisputeSnapshot} (hrow : row.validate b = .ok ())
    (h : SameDispute a b) (now : Instant) : (row.overwrite a now).validate b = .ok () := by
  unfold Dispute.validate at hrow ⊢
  split at hrow
  · cases hrow
  rename_i hagrees
  rw [if_neg]
  simp only [not_or, not_and, not_not, ne_eq] at hagrees ⊢
  obtain ⟨hpurchase, haccount, hintent, hamount, hcurrency, hlivemode, hcharge⟩ := hagrees
  refine ⟨hpurchase, haccount, hintent, hamount, hcurrency, hlivemode, ?_⟩
  simp only [Dispute.overwrite]
  split
  · exact hcharge
  · exact h.providerChargeId

/-- The first event of a dispute becomes its row. -/
theorem reconcileDispute_new {s : DisputeStore} {snapshot : DisputeSnapshot}
    (hvalid : snapshot.validate = .ok ())
    (hnew : s.findExisting snapshot.providerDisputeId = none) (now : Instant) :
    Holds (reconcileDispute snapshot now s).2 snapshot.providerDisputeId
      (snapshot.row s.nextId now) := by
  have hnone : ∀ r ∈ s.disputes.rows, r.providerDisputeId ≠ snapshot.providerDisputeId := by
    simpa [DisputeStore.findExisting] using hnew
  obtain ⟨t, ht⟩ : ∃ t, s.disputes.insert (snapshot.row s.nextId now) = some t := by
    rw [← Option.ne_none_iff_exists', Ne, Table.insert_eq_none_iff]
    rintro ⟨r, hr, hclash⟩
    refine hclash ⟨Nat.ne_of_lt (s.fresh r hr), ?_, ?_⟩
    · simp [disputeSchema, DisputeSnapshot.row, hnone r hr]
    · simp [disputeSchema, DisputeSnapshot.row, (hnone r hr).symm]
  have hcreate : (reconcileDispute snapshot now s).2.disputes = t := by
    simp only [reconcileDispute, hvalid, hnew, DisputeStore.create_eq ht]
  refine ⟨?_, rfl, ?_⟩
  · rw [hcreate]
    exact (Table.mem_insert ht).mpr (.inr rfl)
  · rw [hcreate]
    intro r hr hnamed
    rcases (Table.mem_insert ht).mp hr with hr | rfl
    · exact absurd hnamed (hnone r hr)
    · rfl

/-- A further event is written over the row of its dispute, unless the row came from a younger
one. -/
theorem reconcileDispute_again {s : DisputeStore} {snapshot : DisputeSnapshot} {row : Dispute}
    (hvalid : snapshot.validate = .ok ()) (hrow : Holds s snapshot.providerDisputeId row)
    (hagrees : row.validate snapshot = .ok ()) (now : Instant) :
    Holds (reconcileDispute snapshot now s).2 snapshot.providerDisputeId
      (if row.eventCreated ≤ snapshot.eventCreated then row.overwrite snapshot now else row) := by
  have hget : s.disputes.get? row.id = some row := Table.get?_eq_some_iff.mpr ⟨hrow.mem, rfl⟩
  rcases s.disputes.updateWhere_cases row.id (fun r => r.eventCreated ≤ snapshot.eventCreated)
    (·.overwrite snapshot now) with hnone | ⟨hzero, hyounger⟩ |
    ⟨old, t, hone, hold, hle, hreplace⟩
  · -- no index can refuse the update: it changes no column that one is on
    exfalso
    unfold Table.updateWhere at hnone
    rw [hget] at hnone
    split at hnone
    · cases hnone
    split at hnone
    · rename_i hsome _
      cases hsome
      rw [Option.map_eq_none_iff, Table.replace_eq_none_iff] at hnone
      obtain ⟨r, hr, hne, hclash⟩ := hnone
      have hkey : disputeSchema.key r ≠ disputeSchema.key row := hne
      have hfits := s.disputes.clash_eq_false hr hrow.mem hkey
      have hfits' := s.disputes.clash_eq_false hrow.mem hr hkey.symm
      exact hclash ⟨hne, hfits, hfits'⟩
    · cases hnone
  · have hsame : (reconcileDispute snapshot now s).2.disputes = s.disputes := by
      simp only [reconcileDispute, hvalid, hrow.findExisting, updateExisting, hagrees,
        DisputeStore.overwriteUnlessYounger_eq hzero]
    rw [if_neg (by simpa using hyounger row hget)]
    exact ⟨hsame ▸ hrow.mem, hrow.named, hsame ▸ hrow.unique⟩
  · rw [hget, Option.some.injEq] at hold
    subst hold
    have hafter : (reconcileDispute snapshot now s).2.disputes = t := by
      simp only [reconcileDispute, hvalid, hrow.findExisting, updateExisting, hagrees,
        DisputeStore.overwriteUnlessYounger_eq hone]
    rw [if_pos (by simpa using hle)]
    refine ⟨?_, hrow.named, ?_⟩
    · rw [hafter]
      exact (Table.mem_replace hreplace).mpr (.inr ⟨rfl, row, hrow.mem, rfl⟩)
    · rw [hafter]
      intro r hr hnamed
      rcases (Table.mem_replace hreplace).mp hr with ⟨hr, hne⟩ | ⟨rfl, -⟩
      · exact absurd (congrArg Dispute.id (hrow.unique r hr hnamed)) hne
      · rfl

/-- What deliveries leave of a dispute: a row that agrees with its events, and carries the state of
one of the youngest. -/
structure Delivered (events : List DisputeSnapshot) (delivered : List DisputeSnapshot)
    (row : Dispute) : Prop where
  agrees : ∀ event ∈ events, row.validate event = .ok ()
  state : ∃ event ∈ delivered, row.status = event.status ∧ row.eventCreated = event.eventCreated
  youngest : ∀ event ∈ delivered, event.eventCreated ≤ row.eventCreated

theorem deliver_spec {s : DisputeStore} {providerDisputeId : String} {events : List DisputeSnapshot}
    (hevents : OneDispute providerDisputeId events)
    (hnew : s.findExisting providerDisputeId = none) (deliveries : List (DisputeSnapshot × Instant))
    (hsubset : ∀ delivery ∈ deliveries, delivery.1 ∈ events) (hne : deliveries ≠ []) :
    ∃ row, Holds (deliver deliveries s) providerDisputeId row ∧
      Delivered events (deliveries.map Prod.fst) row := by
  induction deliveries using List.reverseRecOn with
  | nil => exact absurd rfl hne
  | append_singleton deliveries delivery ih =>
    obtain ⟨snapshot, now⟩ := delivery
    have hmem : snapshot ∈ events := hsubset (snapshot, now) (by simp)
    have hvalid := hevents.valid snapshot hmem
    have hnamed := hevents.named snapshot hmem
    have hdeliver : deliver (deliveries ++ [(snapshot, now)]) s =
        (reconcileDispute snapshot now (deliver deliveries s)).2 := by
      simp [deliver]
    rw [hdeliver, List.map_append]
    by_cases hfirst : deliveries = []
    · subst hfirst
      subst hnamed
      refine ⟨_, reconcileDispute_new hvalid hnew now,
        fun event hevent => validate_row (hevents.same snapshot hmem event hevent) _ now, ?_, ?_⟩
      · exact ⟨snapshot, by simp, rfl, rfl⟩
      · simp [DisputeSnapshot.row]
    obtain ⟨row, hrow, hdelivered⟩ :=
      ih (fun delivery hdelivery => hsubset delivery (by simp [hdelivery])) hfirst
    rw [← hnamed] at hrow ⊢
    refine ⟨_, reconcileDispute_again hvalid hrow (hdelivered.agrees snapshot hmem) now, ?_⟩
    split
    · rename_i hle
      refine ⟨fun event hevent => validate_overwrite (hdelivered.agrees event hevent)
        (hevents.same snapshot hmem event hevent) now, ⟨snapshot, by simp, rfl, rfl⟩, ?_⟩
      intro event hevent
      rcases List.mem_append.mp hevent with hevent | hevent
      · exact Int.le_trans (hdelivered.youngest event hevent) hle
      · rw [List.map_singleton, List.mem_singleton] at hevent
        rw [hevent]
        exact Int.le_refl _
    · rename_i hlt
      obtain ⟨source, hsource, hstate⟩ := hdelivered.state
      refine ⟨hdelivered.agrees, ⟨source, List.mem_append_left _ hsource, hstate⟩, ?_⟩
      intro event hevent
      rcases List.mem_append.mp hevent with hevent | hevent
      · exact hdelivered.youngest event hevent
      · rw [List.map_singleton, List.mem_singleton] at hevent
        rw [hevent]
        exact Int.le_of_lt (Int.not_le.mp hlt)

/-- The stored status of a dispute. -/
def DisputeStore.status (s : DisputeStore) (providerDisputeId : String) : Option DisputeStatus :=
  (s.findExisting providerDisputeId).map Dispute.status

/-- The events of a dispute, delivered in some order, each at some time. -/
def Delivers (events : List DisputeSnapshot) (deliveries : List (DisputeSnapshot × Instant)) :
    Prop :=
  (deliveries.map Prod.fst).Perm events

/-- The delivery order of the events does not matter to the stored status. -/
def OrderIndependent (providerDisputeId : String) (events : List DisputeSnapshot)
    (s : DisputeStore) : Prop :=
  ∀ first second, Delivers events first → Delivers events second →
    (deliver first s).status providerDisputeId = (deliver second s).status providerDisputeId

/-- No event of the second of a closing event leaves the dispute open. -/
def StaysClosed (providerDisputeId : String) (events : List DisputeSnapshot)
    (s : DisputeStore) : Prop :=
  ∀ deliveries, Delivers events deliveries →
    ∀ row ∈ (deliver deliveries s).findExisting providerDisputeId, ¬ row.status.isClosed →
      ∀ event ∈ events, event.status.isClosed → event.eventCreated ≠ row.eventCreated

/-- The event is one of the youngest. -/
def Youngest (events : List DisputeSnapshot) (event : DisputeSnapshot) : Prop :=
  event ∈ events ∧ ∀ other ∈ events, other.eventCreated ≤ event.eventCreated

/-- The row of a dispute all of whose events have been delivered is that of one of the youngest. -/
theorem exists_youngest {s : DisputeStore} {providerDisputeId : String}
    {events : List DisputeSnapshot} (hevents : OneDispute providerDisputeId events)
    (hnew : s.findExisting providerDisputeId = none) {deliveries : List (DisputeSnapshot × Instant)}
    (hdeliveries : Delivers events deliveries) (hne : events ≠ []) :
    ∃ row event, (deliver deliveries s).findExisting providerDisputeId = some row ∧
      Youngest events event ∧ row.status = event.status ∧
      row.eventCreated = event.eventCreated := by
  have hmem : ∀ event, event ∈ deliveries.map Prod.fst ↔ event ∈ events :=
    fun _ => hdeliveries.mem_iff
  obtain ⟨row, hrow, hdelivered⟩ := deliver_spec hevents hnew deliveries
    (fun delivery hdelivery => (hmem _).mp (List.mem_map_of_mem hdelivery))
    (by rintro rfl; exact hne (List.nil_perm.mp hdeliveries))
  obtain ⟨event, hevent, hstatus, hcreated⟩ := hdelivered.state
  refine ⟨row, event, hrow.findExisting, ⟨(hmem event).mp hevent, fun other hother => ?_⟩,
    hstatus, hcreated⟩
  rw [← hcreated]
  exact hdelivered.youngest other ((hmem other).mpr hother)

/-- Every one of the youngest events stays if it is delivered last. -/
theorem exists_delivers_last {s : DisputeStore} {providerDisputeId : String}
    {events : List DisputeSnapshot} (hevents : OneDispute providerDisputeId events)
    (hnew : s.findExisting providerDisputeId = none) {event : DisputeSnapshot}
    (hyoungest : Youngest events event) :
    ∃ deliveries, Delivers events deliveries ∧
      (deliver deliveries s).status providerDisputeId = some event.status := by
  obtain ⟨hmem, hle⟩ := hyoungest
  have hnamed := hevents.named event hmem
  have hvalid := hevents.valid event hmem
  set earlier := (events.erase event).map fun e => (e, 0) with hearlier
  have hfst : earlier.map Prod.fst = events.erase event := by
    rw [hearlier, List.map_map]
    exact List.map_id _
  have hperm : (events.erase event ++ [event]).Perm events :=
    (List.perm_append_comm).trans (List.perm_cons_erase hmem).symm
  have hdeliver : deliver (earlier ++ [(event, 0)]) s =
      (reconcileDispute event 0 (deliver earlier s)).2 := by
    simp [deliver]
  refine ⟨earlier ++ [(event, 0)], ?_, ?_⟩
  · rw [Delivers, List.map_append, hfst]
    exact hperm
  rw [hdeliver, DisputeStore.status]
  subst hnamed
  by_cases hfirst : earlier = []
  · rw [hfirst]
    have hrow := reconcileDispute_new (s := deliver [] s) hvalid hnew 0
    rw [hrow.findExisting]
    rfl
  · obtain ⟨row, hrow, hdelivered⟩ := deliver_spec hevents hnew earlier (fun delivery hdelivery =>
      List.mem_of_mem_erase (hfst ▸ List.mem_map_of_mem hdelivery)) hfirst
    have hafter := reconcileDispute_again hvalid hrow (hdelivered.agrees event hmem) 0
    obtain ⟨source, hsource, -, hcreated⟩ := hdelivered.state
    rw [hfst] at hsource
    rw [if_pos (hcreated ▸ hle source (List.mem_of_mem_erase hsource))] at hafter
    rw [hafter.findExisting]
    rfl

/-- The events of a new dispute leave the same status in every order of delivery, and none of the
second of a closing event leaves it open, exactly when the youngest of them report one status. -/
theorem dispute_order_independent_iff (s : DisputeStore) (providerDisputeId : String)
    (events : List DisputeSnapshot) (hevents : OneDispute providerDisputeId events)
    (hnew : s.findExisting providerDisputeId = none) :
    (OrderIndependent providerDisputeId events s ∧ StaysClosed providerDisputeId events s) ↔
      ∀ a b, Youngest events a → Youngest events b → a.status = b.status := by
  constructor
  · rintro ⟨hindependent, -⟩ a b ha hb
    obtain ⟨first, hfirst, hfirstStatus⟩ := exists_delivers_last hevents hnew ha
    obtain ⟨second, hsecond, hsecondStatus⟩ := exists_delivers_last hevents hnew hb
    have hsame := hindependent first second hfirst hsecond
    rw [hfirstStatus, hsecondStatus, Option.some.injEq] at hsame
    exact hsame
  intro hagree
  by_cases hne : events = []
  · subst hne
    have hnil : ∀ deliveries, Delivers [] deliveries → deliveries = [] := fun deliveries h =>
      List.map_eq_nil_iff.mp (List.perm_nil.mp h)
    refine ⟨fun first second hfirst hsecond => ?_, fun _ _ _ _ _ event hevent => ?_⟩
    · rw [hnil first hfirst, hnil second hsecond]
    · cases hevent
  refine ⟨fun first second hfirst hsecond => ?_, fun deliveries hdeliveries row hrow hopen => ?_⟩
  · obtain ⟨row, a, hrow, ha, hstatus, -⟩ := exists_youngest hevents hnew hfirst hne
    obtain ⟨row', b, hrow', hb, hstatus', -⟩ := exists_youngest hevents hnew hsecond hne
    rw [DisputeStore.status, DisputeStore.status, hrow, hrow', Option.map_some, Option.map_some,
      hstatus, hstatus', hagree a b ha hb]
  · intro event hevent hclosed hcreated
    obtain ⟨row', a, hrow', ha, hstatus, hcreated'⟩ :=
      exists_youngest hevents hnew hdeliveries hne
    rw [Option.mem_def, hrow', Option.some.injEq] at hrow
    subst hrow
    -- an event of the row's second is one of the youngest as well
    have hyoungest : Youngest events event :=
      ⟨hevent, fun other hother => by rw [hcreated, hcreated']; exact ha.2 other hother⟩
    rw [hagree event a hyoungest ha, ← hstatus] at hclosed
    exact hopen hclosed

section Example

/-- An event of the dispute `dp_1`. -/
def exampleDispute (status : DisputeStatus) : DisputeSnapshot where
  purchaseId := "order_1"
  sellerAccountId := ""
  stripeAccountId := ""
  providerDisputeId := "dp_1"
  providerChargeId := "ch_1"
  paymentIntentId := "pi_1"
  status := status
  amountMinor := 2500
  currency := "EUR"
  reason := "fraudulent"
  evidenceDueBy := none
  livemode := true
  eventCreated := 100

/-- A ledger without disputes. -/
def noDisputes : DisputeStore := ⟨.empty, 0, nofun⟩

/-- An update and the closing of a dispute within one second: delivered last, the update leaves
the dispute open. -/
theorem dispute_reopened :
    ¬ (OrderIndependent "dp_1" [exampleDispute .underReview, exampleDispute .lost] noDisputes ∧
      StaysClosed "dp_1" [exampleDispute .underReview, exampleDispute .lost] noDisputes) := by
  rintro ⟨hindependent, -⟩
  have hsame := hindependent [(exampleDispute .underReview, 0), (exampleDispute .lost, 0)]
    [(exampleDispute .lost, 0), (exampleDispute .underReview, 0)] (List.Perm.refl _)
    (List.Perm.swap ..)
  revert hsame
  decide +kernel

/-- Two deliveries of the closing event, and nothing else of its second. -/
theorem dispute_closed :
    OrderIndependent "dp_1" [exampleDispute .lost, exampleDispute .lost] noDisputes ∧
      StaysClosed "dp_1" [exampleDispute .lost, exampleDispute .lost] noDisputes := by
  have hlost : ∀ event ∈ [exampleDispute .lost, exampleDispute .lost],
      event = exampleDispute .lost := by simp
  refine (dispute_order_independent_iff noDisputes "dp_1" _ ⟨?_, ?_, ?_⟩ (by decide +kernel)).mpr ?_
  · intro event hevent
    rw [hlost event hevent]
    rfl
  · intro event hevent
    rw [hlost event hevent]
    decide +kernel
  · intro a ha b hb
    rw [hlost a ha, hlost b hb]
    exact ⟨rfl, rfl, rfl, rfl, rfl, by decide +kernel, rfl, fun _ _ => rfl⟩
  · intro a b ha hb
    rw [hlost a ha.1, hlost b hb.1]

end Example

end Commerce

end Products
