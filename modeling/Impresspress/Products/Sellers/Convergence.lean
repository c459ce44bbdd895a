import Mathlib.Data.List.Induction
import Impresspress.Products.Sellers.Accounts

/-!
# Account events in any order

Account events are applied in the order of their times; within one second the capabilities are
merged by conjunction. The capabilities, the status and the time therefore converge, whatever
order the events come in. Whether the account has a disabled reason need not: an event that
withdraws a capability replaces the reason, also by none, and only an event with a reason brings
one back.

## Main definitions

* `Products.Sellers.Standing`: the capabilities, and whether there is a disabled reason.
* `Products.Sellers.deliver`: events applied one after the other.

## Main results

* `Products.Sellers.disabled_standingOf`: when a disabled reason stays in every order.
* `Products.Sellers.account_events_converge_iff`: exactly when all orders end alike.
-/

namespace Products

namespace Sellers

open Concurrent Relational

/-! ### Standings -/

/-- The capabilities of an account, and whether it has a disabled reason. -/
structure Standing where
  detailsSubmitted : Bool
  chargesEnabled : Bool
  payoutsEnabled : Bool
  disabled : Bool
  deriving DecidableEq, Repr

/-- One of the three capabilities. -/
inductive Capability where
  | details
  | charges
  | payouts
  deriving DecidableEq, Repr

def Standing.has (standing : Standing) : Capability → Bool
  | .details => standing.detailsSubmitted
  | .charges => standing.chargesEnabled
  | .payouts => standing.payoutsEnabled

/-- The standing after another one of the same second. -/
def Standing.merge (current incoming : Standing) : Standing :=
  let detailsSubmitted := current.detailsSubmitted && incoming.detailsSubmitted
  let chargesEnabled := current.chargesEnabled && incoming.chargesEnabled
  let payoutsEnabled := current.payoutsEnabled && incoming.payoutsEnabled
  let restricts :=
    (current.detailsSubmitted && !detailsSubmitted) || (current.chargesEnabled && !chargesEnabled) ||
    (current.payoutsEnabled && !payoutsEnabled) || (!current.disabled && incoming.disabled)
  ⟨detailsSubmitted, chargesEnabled, payoutsEnabled,
    if restricts then incoming.disabled else current.disabled⟩

theorem Standing.has_merge (current incoming : Standing) (c : Capability) :
    (current.merge incoming).has c = (current.has c && incoming.has c) := by
  cases c <;> rfl

/-- A standing with a disabled reason brings one. -/
theorem Standing.disabled_merge_of_disabled (current : Standing) {incoming : Standing}
    (h : incoming.disabled) : (current.merge incoming).disabled := by
  simp only [merge, h]
  cases current.disabled <;> simp

/-- A standing without a disabled reason takes it away if and only if it withdraws a capability. -/
theorem Standing.disabled_merge (current : Standing) {incoming : Standing}
    (h : incoming.disabled = false) : (current.merge incoming).disabled ↔
      current.disabled ∧ ∀ c, current.has c → incoming.has c := by
  have hall : (∀ c, current.has c → incoming.has c) ↔
      (current.detailsSubmitted → incoming.detailsSubmitted) ∧
      (current.chargesEnabled → incoming.chargesEnabled) ∧
      (current.payoutsEnabled → incoming.payoutsEnabled) :=
    ⟨fun hc => ⟨hc .details, hc .charges, hc .payouts⟩,
      fun ⟨hdetails, hcharges, hpayouts⟩ c => by
        cases c with
        | details => exact hdetails
        | charges => exact hcharges
        | payouts => exact hpayouts⟩
  rw [hall]
  clear hall
  obtain ⟨d, c, p, r⟩ := current
  obtain ⟨d', c', p', r'⟩ := incoming
  simp only at h
  subst h
  revert d c p r d' c' p'
  decide

/-- An account event as it is delivered. -/
structure AccountEvent where
  snapshot : StripeSellerSnapshot
  created : ℤ
  deriving DecidableEq, Repr

def StripeSellerSnapshot.standing (snapshot : StripeSellerSnapshot) : Standing where
  detailsSubmitted := snapshot.detailsSubmitted
  chargesEnabled := snapshot.chargesEnabled
  payoutsEnabled := snapshot.payoutsEnabled
  disabled := snapshot.disabledReason != ""

def SellerAccount.standing (account : SellerAccount) : Standing where
  detailsSubmitted := account.detailsSubmitted
  chargesEnabled := account.chargesEnabled
  payoutsEnabled := account.payoutsEnabled
  disabled := account.requirementsDisabledReason != ""

/-- The standing of an account after one more event of its second. -/
def absorb (current : Option Standing) (event : AccountEvent) : Option Standing :=
  match current with
  | none => some event.snapshot.standing
  | some standing => some (standing.merge event.snapshot.standing)

/-- What events of one second leave, in the order in which they come. -/
def standingOf (events : List AccountEvent) : Option Standing := events.foldl absorb none

theorem standingOf_append_singleton (events : List AccountEvent) (event : AccountEvent) :
    standingOf (events ++ [event]) = absorb (standingOf events) event := by
  simp [standingOf]

theorem isSome_standingOf (events : List AccountEvent) (h : events ≠ []) :
    ∃ standing, standingOf events = some standing := by
  induction events using List.reverseRecOn with
  | nil => exact absurd rfl h
  | append_singleton events event ih =>
    rw [standingOf_append_singleton]
    cases standingOf events with
    | none => exact ⟨_, rfl⟩
    | some standing => exact ⟨_, rfl⟩

/-- The capabilities are merged by conjunction. -/
theorem has_standingOf {events : List AccountEvent} {standing : Standing}
    (h : standingOf events = some standing) (c : Capability) :
    standing.has c = events.all fun event => event.snapshot.standing.has c := by
  induction events using List.reverseRecOn generalizing standing with
  | nil => cases h
  | append_singleton events event ih =>
    rw [standingOf_append_singleton] at h
    rw [List.all_append]
    cases hearlier : standingOf events with
    | none =>
      have hnil : events = [] := by
        by_contra hne
        obtain ⟨earlier, hsome⟩ := isSome_standingOf _ hne
        rw [hearlier] at hsome
        cases hsome
      rw [hearlier] at h
      cases h
      simp [hnil]
    | some earlier =>
      rw [hearlier] at h
      cases h
      rw [Standing.has_merge, ih hearlier]
      simp

/-- Every capability that an event without a disabled reason lacks is lacked by one with a
reason. -/
def Covered (events : List AccountEvent) : Prop :=
  ∀ event ∈ events, event.snapshot.standing.disabled = false →
    ∀ c, event.snapshot.standing.has c = false →
      ∃ cover ∈ events, cover.snapshot.standing.disabled ∧ cover.snapshot.standing.has c = false

/-- No event has a disabled reason, and none is left. -/
theorem not_disabled_foldl {events : List AccountEvent} {current standing : Standing}
    (hevents : ∀ event ∈ events, event.snapshot.standing.disabled = false)
    (hcurrent : current.disabled = false) (h : events.foldl absorb (some current) = some standing) :
    standing.disabled = false := by
  induction events generalizing current with
  | nil =>
    cases h
    exact hcurrent
  | cons event events ih =>
    refine ih (fun e he => hevents e (List.mem_cons_of_mem event he)) ?_ h
    have hnot := (current.disabled_merge (hevents event List.mem_cons_self)).not
    rw [Bool.not_eq_true, hcurrent] at hnot
    exact hnot.mpr (by simp)

theorem not_disabled_standingOf {events : List AccountEvent} {standing : Standing}
    (hevents : ∀ event ∈ events, event.snapshot.standing.disabled = false)
    (h : standingOf events = some standing) : standing.disabled = false := by
  cases events with
  | nil => cases h
  | cons event events =>
    exact not_disabled_foldl (fun e he => hevents e (List.mem_cons_of_mem event he))
      (hevents event List.mem_cons_self) h

/-- When every withdrawal is covered, a disabled reason stays in every order. -/
theorem disabled_standingOf {events : List AccountEvent} {standing : Standing}
    (hcovered : Covered events) (hsome : ∃ event ∈ events, event.snapshot.standing.disabled)
    (h : standingOf events = some standing) : standing.disabled := by
  induction events using List.reverseRecOn generalizing standing with
  | nil => cases h
  | append_singleton events event ih =>
    rw [standingOf_append_singleton] at h
    cases hlast : event.snapshot.standing.disabled with
    | true =>
      -- the last event has a reason
      cases hearlier : standingOf events with
      | none =>
        rw [hearlier] at h
        cases h
        exact hlast
      | some earlier =>
        rw [hearlier] at h
        cases h
        exact earlier.disabled_merge_of_disabled hlast
    | false =>
      -- all events with a reason have come before, and so has every withdrawal of the last one
      have hbefore : ∀ e ∈ events ++ [event], e.snapshot.standing.disabled → e ∈ events := by
        intro e he hdisabled
        rcases List.mem_append.mp he with he | he
        · exact he
        · rw [List.mem_singleton.mp he, hlast] at hdisabled
          cases hdisabled
      obtain ⟨reason, hreason, hdisabled⟩ := hsome
      have hreason' := hbefore reason hreason hdisabled
      have hcovered' : Covered events := by
        intro e he hnot c hc
        obtain ⟨cover, hcover, hcoverDisabled, hcoverLacks⟩ :=
          hcovered e (List.mem_append_left _ he) hnot c hc
        exact ⟨cover, hbefore cover hcover hcoverDisabled, hcoverDisabled, hcoverLacks⟩
      obtain ⟨earlier, hearlier⟩ := isSome_standingOf _ (List.ne_nil_of_mem hreason')
      rw [hearlier] at h
      cases h
      refine (earlier.disabled_merge hlast).mpr
        ⟨ih hcovered' ⟨reason, hreason', hdisabled⟩ hearlier, fun c hc => ?_⟩
      by_contra hlacks
      obtain ⟨cover, hcover, hcoverDisabled, hcoverLacks⟩ :=
        hcovered event (by simp) hlast c (by simpa using hlacks)
      rw [has_standingOf hearlier c, List.all_eq_true] at hc
      have hhas := hc cover (hbefore cover hcover hcoverDisabled)
      rw [hcoverLacks] at hhas
      cases hhas

/-- When a withdrawal is not covered, some order ends without a disabled reason. -/
theorem exists_not_disabled {events : List AccountEvent} (hcovered : ¬ Covered events)
    (hsome : ∃ event ∈ events, event.snapshot.standing.disabled) :
    ∃ order standing, order.Perm events ∧ standingOf order = some standing ∧
      standing.disabled = false := by
  simp only [Covered, not_forall] at hcovered
  obtain ⟨event, hevent, hnot, c, hlacks, huncovered⟩ := hcovered
  obtain ⟨reason, hreason, hdisabled⟩ := hsome
  -- first the events with a reason, then the withdrawal, then the rest
  set reasons := events.filter fun e => e.snapshot.standing.disabled with hreasons
  set others := events.filter fun e => !e.snapshot.standing.disabled with hothers
  have hmem : event ∈ others := by simp [hothers, hevent, hnot]
  have hperm : (reasons ++ event :: others.erase event).Perm events :=
    ((List.perm_cons_erase hmem).symm.append_left reasons).trans (List.filter_append_perm _ events)
  obtain ⟨earlier, hearlier⟩ := isSome_standingOf reasons
    (List.ne_nil_of_mem (a := reason) (by simp [hreasons, hreason, hdisabled]))
  have hhas : earlier.has c = true := by
    rw [has_standingOf hearlier c, List.all_eq_true]
    intro e he
    obtain ⟨he, hreason⟩ := List.mem_filter.mp he
    by_contra hlacks
    exact huncovered ⟨e, he, hreason, by simpa using hlacks⟩
  obtain ⟨standing, hstanding⟩ := isSome_standingOf
    (reasons ++ event :: others.erase event) (by simp)
  refine ⟨_, standing, hperm, hstanding, ?_⟩
  have hfold : (others.erase event).foldl absorb
      (some (earlier.merge event.snapshot.standing)) = some standing := by
    rw [← hstanding, standingOf, List.foldl_append]
    change _ = List.foldl absorb (standingOf reasons) (event :: others.erase event)
    rw [hearlier]
    rfl
  refine not_disabled_foldl (fun e he => ?_) ?_ hfold
  · have he := List.mem_of_mem_erase he
    simp only [hothers, List.mem_filter, Bool.not_eq_true'] at he
    exact he.2
  · rw [← Bool.not_eq_true, earlier.disabled_merge hnot]
    rintro ⟨-, hkeeps⟩
    have hkept := hkeeps c hhas
    rw [hlacks] at hkept
    cases hkept

/-- An event with a disabled reason leaves one if it comes last. -/
theorem exists_disabled {events : List AccountEvent}
    (hsome : ∃ event ∈ events, event.snapshot.standing.disabled) :
    ∃ order standing, order.Perm events ∧ standingOf order = some standing ∧
      standing.disabled := by
  obtain ⟨event, hevent, hdisabled⟩ := hsome
  obtain ⟨standing, hstanding⟩ := isSome_standingOf (events.erase event ++ [event])
    (by simp)
  refine ⟨_, standing, List.perm_append_comm.trans (List.perm_cons_erase hevent).symm, hstanding, ?_⟩
  rw [standingOf_append_singleton] at hstanding
  cases hearlier : standingOf (events.erase event) with
  | none =>
    rw [hearlier] at hstanding
    cases hstanding
    exact hdisabled
  | some earlier =>
    rw [hearlier] at hstanding
    cases hstanding
    exact earlier.disabled_merge_of_disabled hdisabled

/-! ### Events applied one after the other -/

/-- How the store answers when nobody else is there and no statement fails: time passes. -/
def alone (elapsed : ℕ) (c : SellerCall) (s : SellerStore) : SellerAnswer c × SellerStore :=
  answer { s with clock := s.clock + elapsed } c

/-- Events applied one after the other, each at its own pace. -/
def deliver (id : RowId) (deliveries : List (AccountEvent × (ℕ → ℕ))) (s : SellerStore) :
    SellerStore :=
  deliveries.foldl (fun s delivery =>
    ((syncAccountEvent id delivery.1.snapshot delivery.1.created).run.run alone delivery.2 s).2) s

/-- The row after an event. -/
def SellerAccount.next (current : SellerAccount) (event : AccountEvent) (now : Instant) :
    SellerAccount :=
  if (current.stripeEventCreated : ℤ) > event.created then current
  else
    let merged := current.merge event.snapshot event.created
    (SellerWrite.event (ladder current.isSuspended merged.chargesEnabled merged.detailsSubmitted)
      merged now event.created.toNat).apply current

/-- The event is of the account and the mode of the row. -/
structure AccountEvent.Of (event : AccountEvent) (account : SellerAccount) : Prop where
  stripeAccountId : event.snapshot.stripeAccountId = account.stripeAccountId
  livemode : event.snapshot.livemode = account.livemode

theorem alone_get {s : SellerStore} {id : RowId} {current : SellerAccount}
    (h : s.accounts.get? id = some current) (elapsed : ℕ) :
    alone elapsed (.get id) s = (.ok current, { s with clock := s.clock + elapsed }) := by
  simp [alone, answer, h]

/-- An update by what has just been read is made: the index on the account id cannot refuse it,
as that column stays. -/
theorem alone_updateWhere {s : SellerStore} {id : RowId} {current : SellerAccount}
    (write : SellerWrite) (h : s.accounts.get? id = some current)
    (hkeeps : (write.apply current).stripeAccountId = current.stripeAccountId) (elapsed : ℕ) :
    ∃ accounts, alone elapsed (.updateWhere id (SellerGuard.of current) write) s =
        (.ok 1, ⟨accounts, s.clock + elapsed⟩) ∧
      accounts.get? id = some (write.apply current) := by
  obtain ⟨hmem, hid⟩ := Table.get?_eq_some_iff.mp h
  obtain ⟨accounts, hreplace⟩ : ∃ t, s.accounts.replace (write.apply current) = some t := by
    rw [← Option.ne_none_iff_exists', Ne, Table.replace_eq_none_iff]
    rintro ⟨other, hother, hne, hclash⟩
    have hkey : sellerSchema.key other ≠ sellerSchema.key current := by
      rw [← show sellerSchema.key (write.apply current) = sellerSchema.key current from
        write.id_apply current]
      exact hne
    have hfits := s.accounts.clash_eq_false hother hmem hkey
    have hfits' := s.accounts.clash_eq_false hmem hother hkey.symm
    simp only [sellerSchema, ← hkeeps] at hfits hfits'
    exact hclash ⟨hne, hfits, hfits'⟩
  refine ⟨accounts, by simp [alone, answer, Table.updateWhere, h, hreplace], ?_⟩
  have hkey : sellerSchema.key (write.apply current) = id := (write.id_apply current).trans hid
  rw [← hkey] at h ⊢
  exact Table.get?_replace_self hreplace h

/-- An event of the row's account is applied to the row. -/
theorem syncAccountEvent_alone {s : SellerStore} {id : RowId} {current : SellerAccount}
    {event : AccountEvent} (hcurrent : s.accounts.get? id = some current)
    (hcreated : 0 ≤ event.created) (hof : event.Of current) :
    (syncAccountEvent id event.snapshot event.created).run.Ensures alone s fun _ s' =>
      ∃ now, s'.accounts.get? id = some (current.next event now) := by
  unfold syncAccountEvent
  rw [if_neg (by omega)]
  refine Fallible.ensures_call (fun elapsed read hread => ?_) (fun elapsed error herror => ?_)
  swap
  · rw [alone_get hcurrent] at herror
    cases herror
  rw [alone_get hcurrent] at hread ⊢
  cases hread
  rw [if_neg (by simp [hof.stripeAccountId])]
  split
  · rename_i holder
    exact ⟨0, by rw [hcurrent, SellerAccount.next, if_pos holder]⟩
  rename_i hnotOlder
  rw [if_neg (by simp [hof.livemode])]
  refine Fallible.ensures_call (fun wait now _ => ?_) (fun wait error herror => ?_)
  swap
  · cases herror
  set write := SellerWrite.event _ _ now event.created.toNat with hwrite
  refine Fallible.ensures_call (fun pause rows hrows => ?_) (fun pause error herror => ?_)
  · obtain ⟨accounts, hupdate, hafter⟩ := alone_updateWhere write
      (s := (alone wait .utcNow { s with clock := s.clock + elapsed }).2) hcurrent
      hof.stripeAccountId pause
    rw [hupdate] at hrows ⊢
    cases hrows
    intro last
    rw [alone_get hafter]
    exact ⟨now, by rw [SellerAccount.next, if_neg hnotOlder]; exact hafter⟩
  · obtain ⟨accounts, hupdate, -⟩ := alone_updateWhere write
      (s := (alone wait .utcNow { s with clock := s.clock + elapsed }).2) hcurrent
      hof.stripeAccountId pause
    rw [hupdate] at herror
    cases herror

/-- What every event leaves of a row: its account and mode, and a status that is the ladder of its
capabilities. -/
theorem SellerAccount.next_of_le {current : SellerAccount} {event : AccountEvent}
    (hof : event.Of current) (hle : (current.stripeEventCreated : ℤ) ≤ event.created)
    (now : Instant) :
    ((current.next event now).stripeEventCreated : ℤ) = event.created ∧
    (current.next event now).stripeAccountId = current.stripeAccountId ∧
    (current.next event now).livemode = current.livemode ∧
    (current.next event now).status = ladder current.isSuspended
      (current.next event now).chargesEnabled (current.next event now).detailsSubmitted := by
  rw [next, if_neg (by omega)]
  refine ⟨?_, hof.stripeAccountId, hof.livemode, rfl⟩
  simp only [SellerWrite.apply]
  omega

/-- A younger event brings its own standing. -/
theorem SellerAccount.standing_next_of_lt {current : SellerAccount} {event : AccountEvent}
    (h : (current.stripeEventCreated : ℤ) < event.created) (now : Instant) :
    (current.next event now).standing = event.snapshot.standing := by
  have hsecond : current.sameSecond event.created = false := by
    simp only [sameSecond, Bool.and_eq_false_iff, beq_eq_false_iff_ne]
    omega
  rw [next, if_neg (by omega)]
  simp [SellerWrite.apply, withSnapshot, merge, hsecond, mergeCapability, standing,
    StripeSellerSnapshot.standing]

/-- An event of the row's second is merged into its standing. -/
theorem SellerAccount.standing_next_of_eq {current : SellerAccount} {event : AccountEvent}
    (h : (current.stripeEventCreated : ℤ) = event.created) (hpos : 0 < event.created)
    (now : Instant) :
    (current.next event now).standing = current.standing.merge event.snapshot.standing := by
  have hsecond : current.sameSecond event.created = true := by
    simp [sameSecond, h, hpos]
  rw [next, if_neg (by omega)]
  simp only [SellerWrite.apply, withSnapshot, merge, hsecond, mergeCapability, standing,
    StripeSellerSnapshot.standing, Standing.merge, if_true, Bool.true_and]
  congr 1
  have hreason : (current.requirementsDisabledReason == "") =
      !(current.requirementsDisabledReason != "") := by simp [bne]
  have hkept : ∀ (restricts : Bool) (stored incoming : String),
      ((if (!restricts) = true then stored else incoming) != "") =
        if restricts = true then incoming != "" else stored != "" := by
    intro restricts stored incoming
    cases restricts <;> rfl
  rw [hreason]
  exact hkept _ _ _

/-- What events leave of a row that starts as `start`. -/
structure Settled (start : SellerAccount) (delivered : List AccountEvent) (row : SellerAccount) :
    Prop where
  stripeAccountId : row.stripeAccountId = start.stripeAccountId
  livemode : row.livemode = start.livemode
  youngest : ∀ event ∈ delivered, event.created ≤ row.stripeEventCreated
  created : ∃ event ∈ delivered, event.created = row.stripeEventCreated
  standing : standingOf (delivered.filter fun event => event.created = row.stripeEventCreated) =
    some row.standing
  status : row.status = ladder start.isSuspended row.chargesEnabled row.detailsSubmitted

/-- The first event is younger than the row it finds. -/
theorem settled_first {start : SellerAccount} {event : AccountEvent} (hof : event.Of start)
    (hlt : (start.stripeEventCreated : ℤ) < event.created) (now : Instant) :
    Settled start [event] (start.next event now) := by
  obtain ⟨hcreated, haccount, hlivemode, hstatus⟩ :=
    SellerAccount.next_of_le hof (Int.le_of_lt hlt) now
  refine ⟨haccount, hlivemode, ?_, ⟨event, by simp, hcreated.symm⟩, ?_, hstatus⟩
  · simp [hcreated]
  · simp [hcreated, SellerAccount.standing_next_of_lt hlt, standingOf, absorb]

/-- Every further event is applied, merged or passed over. -/
theorem Settled.step {start row : SellerAccount} {delivered : List AccountEvent}
    {event : AccountEvent} (h : Settled start delivered row) (hof : event.Of start)
    (hpos : 0 < event.created) (now : Instant) :
    Settled start (delivered ++ [event]) (row.next event now) := by
  have hof' : event.Of row :=
    ⟨hof.stripeAccountId.trans h.stripeAccountId.symm, hof.livemode.trans h.livemode.symm⟩
  have hsuspended : row.isSuspended = start.isSuspended := by
    rw [Bool.eq_iff_iff, SellerAccount.isSuspended, beq_iff_eq, h.status]
    exact ladder_eq_suspended_iff
  rcases Int.lt_trichotomy event.created row.stripeEventCreated with holder | hsame | hyounger
  · -- an older event is passed over
    have hnext : row.next event now = row := if_pos holder
    rw [hnext]
    refine ⟨h.stripeAccountId, h.livemode, ?_, ?_, ?_, h.status⟩
    · intro e he
      rcases List.mem_append.mp he with he | he
      · exact h.youngest e he
      · rw [List.mem_singleton.mp he]
        exact Int.le_of_lt holder
    · obtain ⟨e, he, hcreated⟩ := h.created
      exact ⟨e, List.mem_append_left _ he, hcreated⟩
    · rw [List.filter_append, List.filter_cons_of_neg (by simpa using Int.ne_of_lt holder),
        List.filter_nil, List.append_nil]
      exact h.standing
  · -- an event of the same second is merged
    obtain ⟨hcreated, haccount, hlivemode, hstatus⟩ :=
      SellerAccount.next_of_le hof' (Int.le_of_eq hsame.symm) now
    rw [hsuspended] at hstatus
    refine ⟨haccount.trans h.stripeAccountId, hlivemode.trans h.livemode, ?_, ?_, ?_, hstatus⟩
    · intro e he
      rw [hcreated]
      rcases List.mem_append.mp he with he | he
      · exact hsame ▸ h.youngest e he
      · exact Int.le_of_eq (by rw [List.mem_singleton.mp he])
    · exact ⟨event, by simp, hcreated.symm⟩
    · rw [hcreated, hsame, List.filter_append,
        List.filter_cons_of_pos (by simpa using hsame), List.filter_nil,
        standingOf_append_singleton, h.standing,
        SellerAccount.standing_next_of_eq hsame.symm hpos]
      rfl
  · -- a younger event starts anew
    obtain ⟨hcreated, haccount, hlivemode, hstatus⟩ :=
      SellerAccount.next_of_le hof' (Int.le_of_lt hyounger) now
    rw [hsuspended] at hstatus
    refine ⟨haccount.trans h.stripeAccountId, hlivemode.trans h.livemode, ?_, ?_, ?_, hstatus⟩
    · intro e he
      rw [hcreated]
      rcases List.mem_append.mp he with he | he
      · exact Int.le_of_lt (Int.lt_of_le_of_lt (h.youngest e he) hyounger)
      · exact Int.le_of_eq (by rw [List.mem_singleton.mp he])
    · exact ⟨event, by simp, hcreated.symm⟩
    · have hnone : delivered.filter (fun e => e.created = event.created) = [] := by
        rw [List.filter_eq_nil_iff]
        intro e he
        have := h.youngest e he
        simp only [decide_eq_true_eq]
        omega
      rw [hcreated, List.filter_append, hnone, List.nil_append,
        List.filter_cons_of_pos (by simp), List.filter_nil,
        SellerAccount.standing_next_of_lt hyounger]
      rfl

/-- Events that the row of an account may get: of its account and mode, and younger than what is
stored. -/
structure NewEvents (account : SellerAccount) (events : List AccountEvent) : Prop where
  of : ∀ event ∈ events, event.Of account
  created : ∀ event ∈ events, (account.stripeEventCreated : ℤ) < event.created

/-- Events delivered one after the other settle the row. -/
theorem deliver_spec {s : SellerStore} {id : RowId} {start : SellerAccount}
    {events : List AccountEvent} (hevents : NewEvents start events)
    (hstart : s.accounts.get? id = some start) (deliveries : List (AccountEvent × (ℕ → ℕ)))
    (hsubset : ∀ delivery ∈ deliveries, delivery.1 ∈ events) (hne : deliveries ≠ []) :
    ∃ row, (deliver id deliveries s).accounts.get? id = some row ∧
      Settled start (deliveries.map Prod.fst) row := by
  induction deliveries using List.reverseRecOn with
  | nil => exact absurd rfl hne
  | append_singleton deliveries delivery ih =>
    obtain ⟨event, pace⟩ := delivery
    have hmem : event ∈ events := hsubset (event, pace) (by simp)
    have hof := hevents.of event hmem
    have hcreated := hevents.created event hmem
    have hdeliver : deliver id (deliveries ++ [(event, pace)]) s =
        ((syncAccountEvent id event.snapshot event.created).run.run alone pace
          (deliver id deliveries s)).2 := by
      simp [deliver]
    rw [hdeliver, List.map_append]
    by_cases hfirst : deliveries = []
    · subst hfirst
      obtain ⟨now, hrow⟩ := (syncAccountEvent_alone hstart (by omega) hof).run pace
      exact ⟨_, hrow, settled_first hof hcreated now⟩
    obtain ⟨row, hrow, hsettled⟩ :=
      ih (fun delivery hdelivery => hsubset delivery (by simp [hdelivery])) hfirst
    have hof' : event.Of row := ⟨hof.stripeAccountId.trans hsettled.stripeAccountId.symm,
      hof.livemode.trans hsettled.livemode.symm⟩
    obtain ⟨now, hnext⟩ := (syncAccountEvent_alone hrow (by omega) hof').run pace
    exact ⟨_, hnext, hsettled.step hof (by omega) now⟩

/-- No event is younger. -/
def isNewest (events : List AccountEvent) (event : AccountEvent) : Bool :=
  events.all fun other => other.created ≤ event.created

/-- The events of the greatest created second. -/
def newest (events : List AccountEvent) : List AccountEvent := events.filter (isNewest events)

/-- The events delivered in some order, each at its own pace. -/
def Delivers (events : List AccountEvent) (deliveries : List (AccountEvent × (ℕ → ℕ))) : Prop :=
  (deliveries.map Prod.fst).Perm events

/-- The capabilities of a row, whether it has a disabled reason, its status and its event time. -/
def view (id : RowId) (s : SellerStore) : Option (Standing × SellerStatus × ℕ) :=
  (s.accounts.get? id).map fun row => (row.standing, row.status, row.stripeEventCreated)

/-- Every order of delivery ends alike, with the conjunction of the newest events. -/
structure Converges (id : RowId) (s : SellerStore) (events : List AccountEvent) : Prop where
  alike : ∀ first second, Delivers events first → Delivers events second →
    view id (deliver id first s) = view id (deliver id second s)
  conjunction : events ≠ [] → ∀ deliveries, Delivers events deliveries →
    ∃ row, (deliver id deliveries s).accounts.get? id = some row ∧
      ∀ c, row.standing.has c = (newest events).all fun event => event.snapshot.standing.has c

namespace Settled

variable {start row : SellerAccount} {delivered events : List AccountEvent}

/-- The events of the row's second are the newest ones. -/
theorem filter_created (h : Settled start delivered row) (hperm : delivered.Perm events) :
    (delivered.filter fun event : AccountEvent => event.created = row.stripeEventCreated) =
      delivered.filter (isNewest events) := by
  refine List.filter_congr fun event hevent => ?_
  rw [Bool.eq_iff_iff, decide_eq_true_eq, isNewest, List.all_eq_true]
  constructor
  · intro hcreated other hother
    rw [decide_eq_true_eq, hcreated]
    exact h.youngest other (hperm.mem_iff.mpr hother)
  · intro hnewest
    obtain ⟨source, hsource, hcreated⟩ := h.created
    have hle : source.created ≤ event.created := by
      simpa using hnewest source (hperm.mem_iff.mp hsource)
    exact Int.le_antisymm (h.youngest event hevent) (hcreated ▸ hle)

/-- What the row has is what the newest events leave, in the order in which they have come. -/
theorem standing_newest (h : Settled start delivered row) (hperm : delivered.Perm events) :
    ∃ order, order.Perm (newest events) ∧ standingOf order = some row.standing :=
  ⟨delivered.filter (isNewest events), hperm.filter _, h.filter_created hperm ▸ h.standing⟩

theorem has_newest (h : Settled start delivered row) (hperm : delivered.Perm events)
    (c : Capability) :
    row.standing.has c = (newest events).all fun event => event.snapshot.standing.has c := by
  obtain ⟨order, horder, hstanding⟩ := h.standing_newest hperm
  rw [has_standingOf hstanding c, Bool.eq_iff_iff, List.all_eq_true, List.all_eq_true]
  exact ⟨fun hall e he => hall e (horder.mem_iff.mpr he),
    fun hall e he => hall e (horder.mem_iff.mp he)⟩

end Settled

theorem Covered.of_perm {events events' : List AccountEvent} (h : Covered events)
    (hperm : events'.Perm events) : Covered events' := by
  intro event hevent hnot c hlacks
  obtain ⟨cover, hcover, hdisabled, hcoverLacks⟩ := h event (hperm.mem_iff.mp hevent) hnot c hlacks
  exact ⟨cover, hperm.mem_iff.mpr hcover, hdisabled, hcoverLacks⟩

/-- When a reason is there and every withdrawal is covered, it stays; when there is none, none
comes. -/
theorem disabled_iff_of_covered {events order : List AccountEvent} {standing : Standing}
    (hcovered : (∃ event ∈ events, event.snapshot.standing.disabled) → Covered events)
    (hperm : order.Perm events) (h : standingOf order = some standing) :
    standing.disabled ↔ ∃ event ∈ events, event.snapshot.standing.disabled := by
  by_cases hsome : ∃ event ∈ events, event.snapshot.standing.disabled
  · refine iff_of_true (disabled_standingOf ((hcovered hsome).of_perm hperm) ?_ h) hsome
    obtain ⟨event, hevent, hdisabled⟩ := hsome
    exact ⟨event, hperm.mem_iff.mpr hevent, hdisabled⟩
  · refine iff_of_false ?_ hsome
    rw [Bool.not_eq_true]
    refine not_disabled_standingOf (fun event hevent => ?_) h
    rw [← Bool.not_eq_true]
    exact fun hdisabled => hsome ⟨event, hperm.mem_iff.mp hevent, hdisabled⟩

theorem Standing.eq_of_has {a b : Standing} (hhas : ∀ c, a.has c = b.has c)
    (hdisabled : a.disabled = b.disabled) : a = b := by
  obtain ⟨d, c, p, r⟩ := a
  obtain ⟨d', c', p', r'⟩ := b
  rw [Standing.mk.injEq]
  exact ⟨hhas .details, hhas .charges, hhas .payouts, hdisabled⟩

section Theorem

variable {s : SellerStore} {id : RowId} {start : SellerAccount} {events : List AccountEvent}

private theorem deliver_settled (hevents : NewEvents start events)
    (hstart : s.accounts.get? id = some start) (hne : events ≠ [])
    {deliveries : List (AccountEvent × (ℕ → ℕ))} (hdeliveries : Delivers events deliveries) :
    ∃ row, (deliver id deliveries s).accounts.get? id = some row ∧
      Settled start (deliveries.map Prod.fst) row :=
  deliver_spec hevents hstart deliveries
    (fun _ hdelivery => hdeliveries.mem_iff.mp (List.mem_map_of_mem hdelivery))
    (by rintro rfl; exact hne (List.nil_perm.mp hdeliveries))

/-- Every order of the newest events is one in which all events can come. -/
private theorem exists_delivers (hevents : NewEvents start events)
    (hstart : s.accounts.get? id = some start) {order : List AccountEvent}
    (horder : order.Perm (newest events)) (hne : order ≠ []) :
    ∃ deliveries row, Delivers events deliveries ∧
      (deliver id deliveries s).accounts.get? id = some row ∧
      standingOf order = some row.standing := by
  set others := events.filter fun event => !isNewest events event with hothers
  have hperm : (others ++ order).Perm events :=
    (horder.append_left others).trans
      (List.perm_append_comm.trans (List.filter_append_perm (isNewest events) events))
  have hdelivers : Delivers events ((others ++ order).map fun event => (event, fun _ => 0)) := by
    rw [Delivers, List.map_map]
    exact (List.map_id (others ++ order)).symm ▸ hperm
  have hnonempty : events ≠ [] := by
    rintro rfl
    exact hne (List.append_eq_nil_iff.mp (List.perm_nil.mp hperm)).2
  obtain ⟨row, hrow, hsettled⟩ := deliver_settled hevents hstart hnonempty hdelivers
  refine ⟨_, row, hdelivers, hrow, ?_⟩
  have hfst : ((others ++ order).map fun event => (event, (fun _ => 0 : ℕ → ℕ))).map Prod.fst =
      others ++ order := by
    rw [List.map_map]
    exact List.map_id _
  rw [hfst] at hsettled
  rw [← hsettled.standing, hsettled.filter_created hperm, List.filter_append]
  have hnone : others.filter (isNewest events) = [] := by
    rw [List.filter_eq_nil_iff]
    intro event hevent
    simpa using (List.mem_filter.mp hevent).2
  have hall : order.filter (isNewest events) = order := by
    rw [List.filter_eq_self]
    exact fun event hevent => (List.mem_filter.mp (horder.mem_iff.mp hevent)).2
  rw [hnone, hall, List.nil_append]

/-- New account events of a seller end alike in every order, exactly when every capability that a
newest event without a disabled reason lacks is lacked by a newest event with one, if there is
one. -/
theorem account_events_converge_iff (s : SellerStore) (id : RowId) (start : SellerAccount)
    (events : List AccountEvent) (hstart : s.accounts.get? id = some start)
    (hevents : NewEvents start events) :
    Converges id s events ↔
      ((∃ event ∈ newest events, event.snapshot.standing.disabled) → Covered (newest events)) := by
  constructor
  · intro hconverges hsome
    by_contra hcovered
    have hne : ∀ {order : List AccountEvent}, order.Perm (newest events) → order ≠ [] := by
      rintro order horder rfl
      obtain ⟨event, hevent, -⟩ := hsome
      exact List.not_mem_nil (horder.mem_iff.mpr hevent)
    obtain ⟨without, standing, hwithout, hstanding, hnot⟩ := exists_not_disabled hcovered hsome
    obtain ⟨with', standing', hwith, hstanding', hdisabled⟩ := exists_disabled hsome
    obtain ⟨first, row, hfirst, hrow, hrowStanding⟩ :=
      exists_delivers hevents hstart hwithout (hne hwithout)
    obtain ⟨second, row', hsecond, hrow', hrowStanding'⟩ :=
      exists_delivers hevents hstart hwith (hne hwith)
    have hsame := hconverges.alike first second hfirst hsecond
    rw [view, view, hrow, hrow', Option.map_some, Option.map_some, Option.some.injEq,
      Prod.mk.injEq] at hsame
    rw [hstanding, Option.some.injEq] at hrowStanding
    rw [hstanding', Option.some.injEq] at hrowStanding'
    rw [hrowStanding, hsame.1, ← hrowStanding', hdisabled] at hnot
    cases hnot
  intro hcovered
  refine ⟨fun first second hfirst hsecond => ?_, fun hne deliveries hdeliveries => ?_⟩
  swap
  · obtain ⟨row, hrow, hsettled⟩ := deliver_settled hevents hstart hne hdeliveries
    exact ⟨row, hrow, hsettled.has_newest hdeliveries⟩
  by_cases hne : events = []
  · subst hne
    rw [List.map_eq_nil_iff.mp (List.perm_nil.mp hfirst),
      List.map_eq_nil_iff.mp (List.perm_nil.mp hsecond)]
  obtain ⟨row, hrow, hsettled⟩ := deliver_settled hevents hstart hne hfirst
  obtain ⟨row', hrow', hsettled'⟩ := deliver_settled hevents hstart hne hsecond
  obtain ⟨order, horder, hstanding⟩ := hsettled.standing_newest hfirst
  obtain ⟨order', horder', hstanding'⟩ := hsettled'.standing_newest hsecond
  have hdisabled : row.standing.disabled = row'.standing.disabled := by
    rw [Bool.eq_iff_iff, disabled_iff_of_covered hcovered horder hstanding,
      disabled_iff_of_covered hcovered horder' hstanding']
  have hstandings : row.standing = row'.standing := Standing.eq_of_has
    (fun c => by rw [hsettled.has_newest hfirst, hsettled'.has_newest hsecond]) hdisabled
  have hcreated : (row.stripeEventCreated : ℤ) = row'.stripeEventCreated := by
    obtain ⟨event, hevent, hcreated⟩ := hsettled.created
    obtain ⟨event', hevent', hcreated'⟩ := hsettled'.created
    refine Int.le_antisymm ?_ ?_
    · rw [← hcreated]
      exact hsettled'.youngest event (hsecond.mem_iff.mpr (hfirst.mem_iff.mp hevent))
    · rw [← hcreated']
      exact hsettled.youngest event' (hfirst.mem_iff.mpr (hsecond.mem_iff.mp hevent'))
  have hstatus : row.status = row'.status := by
    have hcharges : row.chargesEnabled = row'.chargesEnabled :=
      congrArg Standing.chargesEnabled hstandings
    have hdetails : row.detailsSubmitted = row'.detailsSubmitted :=
      congrArg Standing.detailsSubmitted hstandings
    rw [hsettled.status, hsettled'.status, hcharges, hdetails]
  rw [view, view, hrow, hrow', Option.map_some, Option.map_some, hstandings, hstatus,
    Int.ofNat.inj hcreated]

end Theorem

section Example

/-- The row of a seller who has connected the account `acct_1`. -/
def connectedAccount : SellerAccount where
  id := 0
  status := .active
  stripeAccountId := "acct_1"
  livemode := true
  detailsSubmitted := true
  chargesEnabled := true
  payoutsEnabled := true
  requirementsJson := "{}"
  country := "NZ"
  defaultCurrency := "NZD"
  dashboardType := "express"
  requirementsDisabledReason := ""
  suspendedAt := none
  lastSyncedAt := some 0
  stripeEventCreated := 0

def connectedStore : SellerStore := ⟨⟨[connectedAccount], List.pairwise_singleton ..⟩, 0⟩

/-- An event of `acct_1` in second 100. -/
def accountEvent (chargesEnabled payoutsEnabled : Bool) (disabledReason : String) :
    AccountEvent where
  snapshot :=
    { stripeAccountId := "acct_1"
      livemode := true
      detailsSubmitted := true
      chargesEnabled := chargesEnabled
      payoutsEnabled := payoutsEnabled
      requirements := "{}"
      country := "NZ"
      defaultCurrency := "NZD"
      dashboardType := "express"
      disabledReason := disabledReason }
  created := 100

/-- Charges are disabled for a reason and, in the same second, payouts without one: the reason
stays only if it comes last. -/
theorem disabled_reason_lost :
    ¬ Converges 0 connectedStore
      [accountEvent false true "requirements.past_due", accountEvent true false ""] := by
  intro h
  have hsame := h.alike
    [(accountEvent false true "requirements.past_due", fun _ => 0),
      (accountEvent true false "", fun _ => 0)]
    [(accountEvent true false "", fun _ => 0),
      (accountEvent false true "requirements.past_due", fun _ => 0)]
    (List.Perm.refl _) (List.Perm.swap ..)
  revert hsame
  decide +kernel

/-- Charges and payouts are disabled for a reason, and then the payouts alone without one. -/
theorem disabled_reason_stays :
    Converges 0 connectedStore
      [accountEvent false false "requirements.past_due", accountEvent true false ""] := by
  refine (account_events_converge_iff connectedStore 0 connectedAccount _ rfl ⟨?_, ?_⟩).mpr ?_
  · simp only [List.mem_cons, List.not_mem_nil, or_false, forall_eq_or_imp, forall_eq]
    exact ⟨⟨rfl, rfl⟩, rfl, rfl⟩
  · decide
  · rintro - event hevent hnot c hlacks
    refine ⟨accountEvent false false "requirements.past_due", by decide +kernel, by decide, ?_⟩
    have hmem := (List.mem_filter.mp hevent).1
    simp only [List.mem_cons, List.not_mem_nil, or_false] at hmem
    rcases hmem with rfl | rfl
    · exact hlacks
    · cases c with
      | details => cases hlacks
      | charges => rfl
      | payouts => rfl

end Example

end Sellers

end Products
