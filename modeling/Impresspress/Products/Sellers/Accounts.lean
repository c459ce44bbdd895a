import Impresspress.Concurrent.Fallible
import Impresspress.Products.Repo
import Impresspress.Relational.Table

/-!
# Seller accounts

A seller's row carries what Stripe last reported of the connected account, and a status that is
computed from it. Three writers compute the status from a row they have read before: an
administrator's suspension, a refresh from Stripe, and an account event. Only the last one
compares the row with what it has read.

Source: `blocks/products/repo/seller_accounts.rs`, `blocks/products/contracts.rs` and migrations
005, 007 and 017.
-/

namespace Products

namespace Sellers

open Concurrent Relational

abbrev RowId := ℕ

/-- The `status` column of a seller. -/
inductive SellerStatus where
  | notStarted
  | onboarding
  | restricted
  | active
  | suspended
  deriving DecidableEq, Repr

/-- The seller-status ladder: a suspension outranks everything, then come enabled charges. -/
def ladder (suspended chargesEnabled detailsSubmitted : Bool) : SellerStatus :=
  if suspended then .suspended
  else if chargesEnabled then .active
  else if detailsSubmitted then .restricted
  else .onboarding

theorem ladder_eq_suspended_iff {suspended chargesEnabled detailsSubmitted : Bool} :
    ladder suspended chargesEnabled detailsSubmitted = .suspended ↔ suspended := by
  cases suspended <;> cases chargesEnabled <;> cases detailsSubmitted <;> decide

theorem ladder_eq_active_iff {suspended chargesEnabled detailsSubmitted : Bool} :
    ladder suspended chargesEnabled detailsSubmitted = .active ↔
      suspended = false ∧ chargesEnabled := by
  cases suspended <;> cases chargesEnabled <;> cases detailsSubmitted <;> decide

/-- What Stripe reports of a connected account. -/
structure StripeSellerSnapshot where
  stripeAccountId : String
  livemode : Bool
  detailsSubmitted : Bool
  chargesEnabled : Bool
  payoutsEnabled : Bool
  requirements : String
  country : String
  defaultCurrency : String
  dashboardType : String
  disabledReason : String
  deriving DecidableEq, Repr

/-- A row of the seller accounts. Event times are not negative: the column starts at zero, and
negative ones are refused. -/
structure SellerAccount where
  id : RowId
  status : SellerStatus
  stripeAccountId : String
  livemode : Bool
  detailsSubmitted : Bool
  chargesEnabled : Bool
  payoutsEnabled : Bool
  requirementsJson : String
  country : String
  defaultCurrency : String
  dashboardType : String
  requirementsDisabledReason : String
  suspendedAt : Option Instant
  lastSyncedAt : Option Instant
  stripeEventCreated : ℕ
  deriving DecidableEq, Repr

/-- `is_suspended_record`. -/
def SellerAccount.isSuspended (account : SellerAccount) : Bool := account.status == .suspended

/-- A connected account belongs to one seller. -/
def sellerSchema : Schema SellerAccount RowId where
  key := SellerAccount.id
  clash a b := a.stripeAccountId != "" && a.stripeAccountId == b.stripeAccountId

/-- The columns that an account event compares with what it has read. -/
structure SellerGuard where
  stripeEventCreated : ℕ
  status : SellerStatus
  chargesEnabled : Bool
  payoutsEnabled : Bool
  detailsSubmitted : Bool
  deriving DecidableEq, Repr

def SellerGuard.of (account : SellerAccount) : SellerGuard where
  stripeEventCreated := account.stripeEventCreated
  status := account.status
  chargesEnabled := account.chargesEnabled
  payoutsEnabled := account.payoutsEnabled
  detailsSubmitted := account.detailsSubmitted

/-- The column assignments of the three writers. -/
inductive SellerWrite where
  | suspension (status : SellerStatus) (suspended : Bool) (now : Instant)
  | account (status : SellerStatus) (snapshot : StripeSellerSnapshot) (now : Instant)
  | event (status : SellerStatus) (snapshot : StripeSellerSnapshot) (now : Instant)
      (eventCreated : ℕ)
  deriving DecidableEq, Repr

/-- The row with a snapshot and a status. -/
def SellerAccount.withSnapshot (current : SellerAccount) (status : SellerStatus)
    (snapshot : StripeSellerSnapshot) (now : Instant) : SellerAccount :=
  { current with
    status := status
    stripeAccountId := snapshot.stripeAccountId
    livemode := snapshot.livemode
    detailsSubmitted := snapshot.detailsSubmitted
    chargesEnabled := snapshot.chargesEnabled
    payoutsEnabled := snapshot.payoutsEnabled
    requirementsJson := snapshot.requirements
    country := snapshot.country
    defaultCurrency := snapshot.defaultCurrency
    dashboardType := snapshot.dashboardType
    requirementsDisabledReason := snapshot.disabledReason
    lastSyncedAt := some now }

/-- The row after an update. -/
def SellerWrite.apply : SellerWrite → SellerAccount → SellerAccount
  | suspension status suspended now, current =>
    { current with status := status, suspendedAt := if suspended then some now else none }
  | account status snapshot now, current => current.withSnapshot status snapshot now
  | event status snapshot now eventCreated, current =>
    { current.withSnapshot status snapshot now with stripeEventCreated := eventCreated }

theorem SellerWrite.id_apply (write : SellerWrite) (current : SellerAccount) :
    (write.apply current).id = current.id := by
  cases write <;> rfl

structure SellerStore where
  accounts : Table sellerSchema
  clock : Instant

inductive SellerCall where
  | utcNow
  | get (id : RowId)
  | set (id : RowId) (write : SellerWrite)
  | updateWhere (id : RowId) (guard : SellerGuard) (write : SellerWrite)
  deriving DecidableEq, Repr

/-- The write of a call to the row, when it has no condition. -/
def SellerCall.setOf (id : RowId) : SellerCall → Option SellerWrite
  | .set id' write => if id' = id then some write else none
  | _ => none

/-- What each call answers when it does not fail. -/
@[reducible] def SellerReply : SellerCall → Type
  | .utcNow => Instant
  | .get _ => SellerAccount
  | .set .. => SellerAccount
  | .updateWhere .. => ℕ

abbrev SellerAnswer := Outcome WaferError SellerReply

/-- The time that passes before a call, and whether the database fails it. -/
structure Chance where
  elapsed : ℕ := 0
  failure : Option WaferError := none

def notFound : WaferError := ⟨.notFound, "record not found"⟩

def uniqueViolation : WaferError := ⟨.other, "UNIQUE constraint failed"⟩

/-- How the store answers a call that does not fail. -/
def answer (s : SellerStore) : (c : SellerCall) → SellerAnswer c × SellerStore
  | .utcNow => (.ok s.clock, s)
  | .get id =>
    match s.accounts.get? id with
    | none => (.error notFound, s)
    | some account => (.ok account, s)
  | .set id write =>
    match s.accounts.get? id with
    | none => (.error notFound, s)
    | some account =>
      match s.accounts.replace (write.apply account) with
      | none => (.error uniqueViolation, s)
      | some accounts => (.ok (write.apply account), { s with accounts := accounts })
  | .updateWhere id guard write =>
    match s.accounts.updateWhere id (fun account => SellerGuard.of account == guard)
        write.apply with
    | none => (.error uniqueViolation, s)
    | some (rows, accounts) => (.ok rows, { s with accounts := accounts })

/-- Whether the call is a statement on the table, which the database may fail. -/
def SellerCall.isStatement : SellerCall → Bool
  | utcNow => false
  | _ => true

/-- How the store answers: time passes, and a statement that fails leaves the table as it is. -/
def perform (chance : Chance) (c : SellerCall) (s : SellerStore) : SellerAnswer c × SellerStore :=
  match chance.failure with
  | some error =>
    if c.isStatement then (.error error, { s with clock := s.clock + chance.elapsed })
    else answer { s with clock := s.clock + chance.elapsed } c
  | none => answer { s with clock := s.clock + chance.elapsed } c

abbrev SellerProgram := Fallible WaferError SellerReply

/-- One call. -/
abbrev call (c : SellerCall) : SellerProgram (SellerReply c) := Fallible.call c

/-! ### The writers -/

/-- Suspend a seller, or lift the suspension. -/
def setAdminSuspended (id : RowId) (suspended : Bool) : SellerProgram SellerAccount := do
  let current ← call (.get id)
  let now ← call .utcNow
  call (.set id (.suspension (ladder suspended current.chargesEnabled current.detailsSubmitted)
    suspended now))

/-- Store what Stripe answers about an account. -/
def syncAccount (id : RowId) (snapshot : StripeSellerSnapshot) : SellerProgram SellerAccount := do
  let current ← call (.get id)
  let now ← call .utcNow
  call (.set id (.account
    (ladder current.isSuspended snapshot.chargesEnabled snapshot.detailsSubmitted) snapshot now))

/-- Whether an event is of the second of the stored one. -/
def SellerAccount.sameSecond (current : SellerAccount) (eventCreated : ℤ) : Bool :=
  eventCreated > 0 && (current.stripeEventCreated : ℤ) == eventCreated

/-- A capability after an event: within one second the more restrictive value stays. -/
def mergeCapability (sameSecond current incoming : Bool) : Bool :=
  if sameSecond then current && incoming else incoming

/-- The snapshot that an event is stored as. Within one second the requirements and the disabled
reason are those of the last event that has restricted the account further. -/
def SellerAccount.merge (current : SellerAccount) (snapshot : StripeSellerSnapshot)
    (eventCreated : ℤ) : StripeSellerSnapshot :=
  let sameSecond := current.sameSecond eventCreated
  let detailsSubmitted :=
    mergeCapability sameSecond current.detailsSubmitted snapshot.detailsSubmitted
  let chargesEnabled := mergeCapability sameSecond current.chargesEnabled snapshot.chargesEnabled
  let payoutsEnabled := mergeCapability sameSecond current.payoutsEnabled snapshot.payoutsEnabled
  let incomingRestricts :=
    (current.detailsSubmitted && !detailsSubmitted) ||
    (current.chargesEnabled && !chargesEnabled) ||
    (current.payoutsEnabled && !payoutsEnabled) ||
    (current.requirementsDisabledReason == "" && snapshot.disabledReason != "")
  let keep := sameSecond && !incomingRestricts
  { snapshot with
    detailsSubmitted := detailsSubmitted
    chargesEnabled := chargesEnabled
    payoutsEnabled := payoutsEnabled
    requirements := if keep then current.requirementsJson else snapshot.requirements
    disabledReason := if keep then current.requirementsDisabledReason else snapshot.disabledReason }

/-- Whether the stored row rests on a report of Stripe's. -/
def SellerAccount.isAuthoritative (current : SellerAccount) : Bool :=
  current.stripeEventCreated > 0 || current.lastSyncedAt.isSome

/-- The attempts of `sync_account_event`. -/
def trySyncAccountEvent (id : RowId) (snapshot : StripeSellerSnapshot) (eventCreated : ℤ) :
    ℕ → SellerProgram SellerAccount
  | 0 =>
    throw ⟨.failedPrecondition, "connected-account state changed concurrently; retry the event"⟩
  | attempts + 1 => do
    let current ← call (.get id)
    if current.stripeAccountId ≠ "" ∧ current.stripeAccountId ≠ snapshot.stripeAccountId then
      throw ⟨.failedPrecondition, "connected-account identity changed during synchronization"⟩
    else if (current.stripeEventCreated : ℤ) > eventCreated then
      return current
    else if current.isAuthoritative ∧ current.livemode ≠ snapshot.livemode then
      throw ⟨.failedPrecondition, "connected-account mode does not match its local account"⟩
    else
      let merged := current.merge snapshot eventCreated
      let now ← call .utcNow
      let rows ← call (.updateWhere id (SellerGuard.of current)
        (.event (ladder current.isSuspended merged.chargesEnabled merged.detailsSubmitted) merged
          now eventCreated.toNat))
      if rows = 1 then call (.get id)
      else trySyncAccountEvent id snapshot eventCreated attempts

/-- Apply an account event in the order of event times. -/
def syncAccountEvent (id : RowId) (snapshot : StripeSellerSnapshot) (eventCreated : ℤ) :
    SellerProgram SellerAccount :=
  if eventCreated < 0 then
    throw ⟨.invalidArgument, "connected-account event timestamp must not be negative"⟩
  else
    trySyncAccountEvent id snapshot eventCreated 3

end Sellers

end Products
