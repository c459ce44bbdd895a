import Impresspress.Concurrent.Pool
import Impresspress.Products.Repo

/-!
# The ledger of Stripe webhook events

One row per Stripe event id carries the processing lease of its deliveries: `recordEvent`
takes the lease, `markEventProcessed` and `markEventFailed` give it up under the owner token
that was handed out, and `replayWebhookEvent` resets a failed row. Every statement of these
functions filters on the event id, so the store holds the row of one event. The statements
themselves do not fail; what they may find (no row, a row in another state) is modelled.

Source: `blocks/products/stripe.rs`, `record_event` to `replay_webhook_event`, and migrations
003, 005 and 011.
-/

namespace Products

namespace StripeEvents

open Concurrent

/-- An owner token. Tokens come from a generator that never repeats one; the empty owner of a
row that nobody holds is `none`. -/
abbrev Uuid := ℕ

/-- The row of one event. -/
structure EventRow where
  eventType : String
  status : EventStatus
  stripeAccountId : String
  livemode : Bool
  attempts : ℕ
  processingOwner : Option Uuid
  processingStartedAt : Option Instant
  nextRetryAt : Option Instant
  payloadSha256 : String
  payloadBase64 : String
  lastError : String
  processedAt : Option Instant
  terminalAt : Option Instant
  deriving DecidableEq, Repr

/-- The row of the event, when one has been recorded, the clock, and the next fresh token. -/
structure EventStore where
  row : Option EventRow
  clock : Instant
  nextUuid : Uuid
  deriving DecidableEq, Repr

abbrev Payload := List UInt8

/-- What the source takes from other crates to handle a payload: its digest, its text form and
back, and the `id` of the JSON document it holds (`none` when it is not JSON). -/
structure PayloadCodec where
  sha256Hex : Payload → String
  encodeString : Payload → String
  decodeVec : String → Option Payload
  jsonId : Payload → Option (Option String)

/-- The column assignments of the statements that update the row. -/
inductive EventWrite where
  | claim (attempts : ℕ) (owner : Uuid) (now : Instant) (payloadSha256 payloadBase64 : String)
      (stripeAccountId : String) (livemode : Bool)
  | exhausted (reason : String) (now : Instant)
  | processed (now : Instant)
  | failed (attempts : ℕ) (error : String) (now : Instant)
  | replay
  deriving DecidableEq, Repr

/-- `text.chars().take(n)`. -/
def takeChars (n : ℕ) (text : String) : String := String.ofList (text.toList.take n)

/-- The row after an update. -/
def EventWrite.apply : EventWrite → EventRow → EventRow
  | claim attempts owner now sha256 base64 account livemode, row =>
    { row with
      status := .processing, attempts := attempts, processingOwner := some owner,
      processingStartedAt := some now, nextRetryAt := none, payloadSha256 := sha256,
      payloadBase64 := base64, stripeAccountId := account, livemode := livemode }
  | exhausted reason now, row =>
    { row with
      status := .deadLetter, processingOwner := none, processingStartedAt := none,
      nextRetryAt := none, lastError := reason, terminalAt := some now }
  | processed now, row =>
    { row with
      status := .processed, processingOwner := none, processingStartedAt := none,
      nextRetryAt := none, lastError := "", processedAt := some now, terminalAt := some now }
  | failed attempts error now, row =>
    if attempts ≥ maxAttempts then
      { row with
        status := .deadLetter, processingOwner := none, processingStartedAt := none,
        lastError := takeChars 1000 error, nextRetryAt := none, terminalAt := some now }
    else
      { row with
        status := .failed, processingOwner := none, processingStartedAt := none,
        lastError := takeChars 1000 error, nextRetryAt := some (retryAt now attempts) }
  | replay, row =>
    { row with
      status := .pending, attempts := 0, processingOwner := none, processingStartedAt := none,
      nextRetryAt := none, processedAt := none, terminalAt := none,
      lastError := "manual replay requested" }

/-- The calls of the event functions. `update` filters on the status and, when `owner` is given,
on the owner column. -/
inductive EventCall where
  | utcNow
  | newUuid
  | insertIgnore (row : EventRow)
  | get
  | update (status : EventStatus) (owner : Option (Option Uuid)) (write : EventWrite)
  deriving DecidableEq, Repr

/-- What each call is answered; the writes answer the number of rows they changed. -/
@[reducible] def EventAnswer : EventCall → Type
  | .utcNow => Instant
  | .newUuid => Uuid
  | .insertIgnore _ => ℕ
  | .get => Option EventRow
  | .update .. => ℕ

/-- The filters of an update. -/
def updateMatches (status : EventStatus) (owner : Option (Option Uuid)) (row : EventRow) : Bool :=
  row.status == status && (owner.all fun o => row.processingOwner == o)

/-- How the store answers, after `elapsed` more nanoseconds. -/
def perform (elapsed : ℕ) (c : EventCall) (s : EventStore) : EventAnswer c × EventStore :=
  let s := { s with clock := s.clock + elapsed }
  match c with
  | .utcNow => (s.clock, s)
  | .newUuid => (s.nextUuid, { s with nextUuid := s.nextUuid + 1 })
  | .insertIgnore row =>
    match s.row with
    | none => ((1 : ℕ), { s with row := some row })
    | some _ => ((0 : ℕ), s)
  | .get => (s.row, s)
  | .update status owner write =>
    match s.row with
    | none => ((0 : ℕ), s)
    | some row =>
      if updateMatches status owner row then ((1 : ℕ), { s with row := some (write.apply row) })
      else ((0 : ℕ), s)

abbrev EventProgram := Program EventCall EventAnswer

/-- `chrono::Utc::now()`. -/
def utcNow : EventProgram Instant := .call .utcNow .done

/-- `uuid::Uuid::now_v7()`. -/
def nowV7 : EventProgram Uuid := .call .newUuid .done

/-- `db::upsert` with an empty conflict set: insert the row unless there is one. -/
def upsertRow (row : EventRow) : EventProgram ℕ := .call (.insertIgnore row) .done

/-- `db::get`. -/
def getRow : EventProgram (Option EventRow) := .call .get .done

/-- `db::update_by_filters_count`. -/
def updateByFiltersCount (status : EventStatus) (owner : Option (Option Uuid))
    (write : EventWrite) : EventProgram ℕ := .call (.update status owner write) .done

/-- Outcome of recording a Stripe event id before running its side effects. -/
inductive EventRecordState where
  | claimed (owner : Uuid) (attempts : ℕ)
  | inFlight
  | retryScheduled
  | alreadyProcessed
  | deadLetter
  deriving DecidableEq, Repr

def eventLeaseSeconds : ℤ := 300

/-- `last_error` for an event that ran out of attempts without a recorded outcome. -/
def exhaustedEventReason (status : EventStatus) (existing : EventRow) : String :=
  let reason :=
    match status with
    | .processing => s!"retry budget of {maxAttempts} attempts exhausted: the processing lease of " ++
        s!"attempt {existing.attempts} expired without recording an outcome"
    | _ => s!"retry budget of {maxAttempts} attempts exhausted after {existing.attempts} attempts"
  let reason :=
    if existing.lastError.isEmpty then reason
    else reason ++ "; last recorded error: " ++ existing.lastError
  takeChars 1000 reason

/-- Why the row that a delivery has just read is not there for it to take; `none` when it is. -/
def notEligible (existing : EventRow) (now : Instant) : Option EventRecordState :=
  match existing.status with
  | .processed => some .alreadyProcessed
  | .deadLetter => some .deadLetter
  | .processing =>
    if existing.processingStartedAt.any fun started =>
        decide (numSeconds now started < eventLeaseSeconds) then some .inFlight else none
  | .failed =>
    if existing.nextRetryAt.any fun next => decide (next > now) then some .retryScheduled else none
  | .pending => none

/-- The row that a first delivery inserts. -/
def freshRow (codec : PayloadCodec) (eventType : String) (payload : Payload)
    (stripeAccountId : String) (livemode : Bool) (owner : Uuid) (now : Instant) : EventRow where
  eventType := eventType
  status := .processing
  stripeAccountId := stripeAccountId
  livemode := livemode
  attempts := 1
  processingOwner := some owner
  processingStartedAt := some now
  nextRetryAt := none
  payloadSha256 := codec.sha256Hex payload
  payloadBase64 := codec.encodeString payload
  lastError := ""
  processedAt := none
  terminalAt := none

/-- Insert and claim a fresh event, or acquire a failed, pending or expired lease. -/
def recordEvent (codec : PayloadCodec) (eventType : String) (payload : Payload)
    (stripeAccountId : String) (livemode : Bool) :
    EventProgram (Except WaferError EventRecordState) := do
  let now ← utcNow
  let owner ← nowV7
  let rows ← upsertRow (freshRow codec eventType payload stripeAccountId livemode owner now)
  if rows > 0 then
    return .ok (.claimed owner 1)
  else
    match ← getRow with
    | none => return .error ⟨.notFound, "record not found"⟩
    | some existing =>
      if existing.payloadSha256 ≠ "" ∧ existing.payloadSha256 ≠ codec.sha256Hex payload then
        return .error ⟨.failedPrecondition,
          "Stripe event id was reused with a different signed payload"⟩
      else
        match notEligible existing now with
        | some state => return .ok state
        | none =>
          -- both writes below compare the status and the owner that this delivery has read
          let attempts := existing.attempts + 1
          if attempts > maxAttempts then
            let deadLettered ← updateByFiltersCount existing.status (some existing.processingOwner)
              (.exhausted (exhaustedEventReason existing.status existing) now)
            if deadLettered = 1 then
              return .ok .deadLetter
            else
              return .ok .inFlight
          else
            let claimed ← updateByFiltersCount existing.status (some existing.processingOwner)
              (.claim attempts owner now (codec.sha256Hex payload) (codec.encodeString payload)
                stripeAccountId livemode)
            if claimed = 1 then
              return .ok (.claimed owner attempts)
            else
              return .ok .inFlight

/-- Complete the event under the lease of `owner`. -/
def markEventProcessed (owner : Uuid) : EventProgram (Except WaferError Unit) := do
  let now ← utcNow
  let updated ← updateByFiltersCount .processing (some (some owner)) (.processed now)
  if updated = 1 then
    return .ok ()
  else
    return .error ⟨.failedPrecondition,
      "Stripe webhook processing lease was lost before completion"⟩

/-- Record a failed attempt under the lease of `owner`. -/
def markEventFailed (owner : Uuid) (attempts : ℕ) (error : String) :
    EventProgram (Except WaferError Unit) := do
  let now ← utcNow
  let updated ← updateByFiltersCount .processing (some (some owner)) (.failed attempts error now)
  if updated = 1 then
    return .ok ()
  else
    return .error ⟨.failedPrecondition,
      "Stripe webhook processing lease was lost before failure was recorded"⟩

/-- The settings an operator's replay depends on. -/
structure ReplaySettings where
  secretOperationsAllowed : Bool
  webhookSecret : String

/-- Check the stored payload of a failed event, reset its row, and hand the payload to the
webhook handler, whose first step is again `recordEvent`. -/
def replayWebhookEvent (codec : PayloadCodec) (settings : ReplaySettings) (eventId : String)
    (eventType : String) (stripeAccountId : String) (livemode : Bool) :
    EventProgram (Except WaferError EventRecordState) := do
  if ¬ settings.secretOperationsAllowed then
    return .error ⟨.failedPrecondition,
      "Stripe webhook replay is disabled in the browser runtime"⟩
  else if settings.webhookSecret.isEmpty then
    return .error ⟨.failedPrecondition, "Stripe webhook secret is not configured"⟩
  else
    match ← getRow with
    | none => return .error ⟨.notFound, "record not found"⟩
    | some event =>
      if event.status ≠ .failed ∧ event.status ≠ .deadLetter then
        return .error ⟨.failedPrecondition,
          "only failed or dead-letter Stripe events can be replayed"⟩
      else
        match codec.decodeVec event.payloadBase64 with
        | none => return .error ⟨.failedPrecondition,
            "stored Stripe event payload failed its integrity check"⟩
        | some payload =>
          if payload.isEmpty ∨ event.payloadSha256.isEmpty
              ∨ codec.sha256Hex payload ≠ event.payloadSha256 then
            return .error ⟨.failedPrecondition,
              "stored Stripe event payload failed its integrity check"⟩
          else
            match codec.jsonId payload with
            | none => return .error ⟨.failedPrecondition,
                "stored Stripe event payload is not valid JSON"⟩
            | some id =>
              if id ≠ some eventId then
                return .error ⟨.failedPrecondition,
                  "stored Stripe event id does not match its row"⟩
              else
                let reset ← updateByFiltersCount event.status none .replay
                if reset ≠ 1 then
                  return .error ⟨.aborted,
                    "Stripe event changed state before replay could start"⟩
                else
                  recordEvent codec eventType payload stripeAccountId livemode

/-- A call on the event: one of the four functions with its arguments. Nothing ties the owner
that a completion or a failure presents to the calls that were handed one. -/
inductive EventRequest where
  | record (eventType : String) (payload : Payload) (stripeAccountId : String) (livemode : Bool)
  | processed (owner : Uuid)
  | failed (owner : Uuid) (attempts : ℕ) (error : String)
  | replay (settings : ReplaySettings) (eventId eventType stripeAccountId : String)
      (livemode : Bool)

/-- What a call on the event returns. -/
inductive EventOutcome where
  | recorded (result : Except WaferError EventRecordState)
  | marked (result : Except WaferError Unit)

/-- The program of a call. -/
def EventRequest.program (codec : PayloadCodec) : EventRequest → EventProgram EventOutcome
  | record eventType payload account livemode => do
    return .recorded (← recordEvent codec eventType payload account livemode)
  | processed owner => do
    return .marked (← markEventProcessed owner)
  | failed owner attempts error => do
    return .marked (← markEventFailed owner attempts error)
  | replay settings eventId eventType account livemode => do
    return .recorded (← replayWebhookEvent codec settings eventId eventType account livemode)

/-- Any number of calls on one event, started from `start` and run along a schedule. -/
def serve {ι : Type} [DecidableEq ι] (codec : PayloadCodec) (requests : ι → EventRequest)
    (start : EventStore) (schedule : List (ι × ℕ)) : Pool ι EventStore EventAnswer EventOutcome :=
  (Pool.launch start fun i => (requests i).program codec).exec perform schedule

/-- The store before the event has been delivered. -/
def noEvent : EventStore := ⟨none, 0, 0⟩

/-- The payload `{"id":"evt_1"}`. -/
def samplePayload : Payload :=
  [0x7b, 0x22, 0x69, 0x64, 0x22, 0x3a, 0x22, 0x65, 0x76, 0x74, 0x5f, 0x31, 0x22, 0x7d]

/-- A codec that is right about `samplePayload`. -/
def sampleCodec : PayloadCodec where
  sha256Hex _ := "40993c639ffb5f13a0a2ef5c93c965f10b405f2b87a379272381da2dbc158dfa"
  encodeString _ := "eyJpZCI6ImV2dF8xIn0="
  decodeVec _ := some samplePayload
  jsonId _ := some (some "evt_1")

end StripeEvents

end Products
