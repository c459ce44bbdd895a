import Impresspress.Concurrent.Program
import Impresspress.Relational.Table
import Impresspress.Tickets.Models

/-!
# The tables of the ticket block

The rows of tickets, of their timeline and of their analyses, and the database calls of the block. A
call may fail as a whole and then changes nothing but the time.

Source: `blocks/tickets/repo.rs`, `migrations/001_tickets_schema.sqlite.sql`,
`migrations/002_stamped_columns.sqlite.sql` and `delete_updated_before` of
`blocks/auth/repo/rate_limits.rs`.

## Main definitions

* `Tickets.Store`: the tables, the settings and the clock.
* `Tickets.Call`, `Tickets.perform`: the calls, and what each of them does.
-/

namespace Tickets

open Relational

/-- Nanoseconds since the epoch. -/
abbrev Instant := ℕ

def Instant.hours (n : ℕ) : Instant := n * 3600000000000

def Instant.days (n : ℕ) : Instant := n * 86400000000000

/-! ### Rows -/

structure TypeRow where
  id : String
  key : String
  title : String
  defaultPriority : Priority
  active : Bool
  publicVisible : Bool
  requiresContact : Bool
  deriving DecidableEq, Repr

structure TicketRow where
  id : String
  reference : String
  typeId : String
  typeKeySnapshot : String
  typeTitleSnapshot : String
  source : TicketSource
  status : TicketStatus
  priority : String
  subject : String
  description : String
  sourcePath : String
  subjectType : String
  subjectId : String
  evidenceUrl : String
  reporterEmail : String
  reporterWantsReply : Bool
  assigneeId : String
  duplicateOf : Option String
  legalHold : Bool
  dedupeHash : Option String
  resolvedAt : Option Instant
  expiresAt : Option Instant
  createdAt : Instant
  updatedAt : Instant
  deriving DecidableEq, Repr

/-- The values in the metadata of an event. -/
inductive Value
  | null
  | bool (b : Bool)
  | str (s : String)
  deriving DecidableEq, Repr

/-- A JSON object, its members in order. -/
abbrev Metadata := List (String × Value)

structure EventRow where
  id : String
  ticketId : String
  eventType : String
  actorType : ActorType
  actorId : String
  body : String
  metadata : Metadata
  expiresAt : Option Instant
  createdAt : Instant
  deriving DecidableEq, Repr

structure AnalysisRow where
  id : String
  ticketId : String
  source : String
  model : Option String
  promptVersion : String
  summary : String
  suggestedTypeId : Option String
  suggestedPriority : Option String
  confidence : ℚ
  suggestedActions : String
  expiresAt : Option Instant
  createdAt : Instant
  deriving DecidableEq, Repr

/-- The singleton row of the maintenance table. -/
structure Maintenance where
  lastPrunedAt : Option Instant
  lastPruneError : String
  auditDegraded : Bool
  deriving DecidableEq, Repr

/-! ### Tables -/

def typeSchema : Schema TypeRow String where
  key := TypeRow.id
  clash a b := a.key == b.key

/-- The unique indexes of tickets: the reference, and the dedupe hash once there is one. -/
def ticketSchema : Schema TicketRow String where
  key := TicketRow.id
  clash a b := a.reference == b.reference || (a.dedupeHash.isSome && a.dedupeHash == b.dedupeHash)

def eventSchema : Schema EventRow String where
  key := EventRow.id
  clash _ _ := false

def analysisSchema : Schema AnalysisRow String where
  key := AnalysisRow.id
  clash _ _ := false

/-- The tables of the block, the counters of the rate limiter by the time of their last write, the
settings, and the clock. -/
structure Store where
  types : Table typeSchema
  tickets : Table ticketSchema
  events : Table eventSchema
  analyses : Table analysisSchema
  maintenance : Maintenance
  rateCounters : List Instant
  settings : String → Option String
  clock : Instant

/-- The columns that an update of a ticket sets. -/
structure TicketWrite where
  status : Option TicketStatus
  priority : Option String
  assigneeId : Option String
  duplicateOf : Option (Option String)
  legalHold : Option Bool
  resolvedAt : Option (Option Instant)
  expiresAt : Option (Option Instant)
  updatedAt : Instant
  deriving DecidableEq, Repr

def TicketRow.write (row : TicketRow) (columns : TicketWrite) : TicketRow :=
  { row with
    status := columns.status.getD row.status
    priority := columns.priority.getD row.priority
    assigneeId := columns.assigneeId.getD row.assigneeId
    duplicateOf := columns.duplicateOf.getD row.duplicateOf
    legalHold := columns.legalHold.getD row.legalHold
    resolvedAt := columns.resolvedAt.getD row.resolvedAt
    expiresAt := columns.expiresAt.getD row.expiresAt
    updatedAt := columns.updatedAt }

/-- The row with its columns set, where it is the row with the id. -/
def TicketRow.writeAt (id : String) (columns : TicketWrite) (row : TicketRow) : TicketRow :=
  if row.id = id then row.write columns else row

theorem keeps_writeAt (id : String) (columns : TicketWrite) :
    ticketSchema.Keeps (TicketRow.writeAt id columns) where
  key row := by
    unfold TicketRow.writeAt
    split <;> rfl
  clash a b := by
    unfold TicketRow.writeAt
    split <;> split <;> rfl

def EventRow.expireAt (ticketId : String) (expiresAt : Option Instant) (row : EventRow) :
    EventRow :=
  if row.ticketId = ticketId then { row with expiresAt } else row

theorem keeps_expireAt (ticketId : String) (expiresAt : Option Instant) :
    eventSchema.Keeps (EventRow.expireAt ticketId expiresAt) where
  key row := by
    unfold EventRow.expireAt
    split <;> rfl
  clash _ _ := rfl

def AnalysisRow.expireAt (ticketId : String) (expiresAt : Option Instant) (row : AnalysisRow) :
    AnalysisRow :=
  if row.ticketId = ticketId then { row with expiresAt } else row

theorem AnalysisRow.keeps_expireAt (ticketId : String) (expiresAt : Option Instant) :
    analysisSchema.Keeps (AnalysisRow.expireAt ticketId expiresAt) where
  key row := by
    unfold AnalysisRow.expireAt
    split <;> rfl
  clash _ _ := rfl

/-! ### Calls -/

inductive ErrorCode
  | notFound
  | other
  deriving DecidableEq, Repr

structure WaferError where
  code : ErrorCode
  message : String
  deriving DecidableEq, Repr

def notFound : WaferError := ⟨.notFound, "record not found"⟩

/-- The failure of an insert that a unique index refuses. -/
def uniqueViolation (column : String) : WaferError :=
  ⟨.other, "UNIQUE constraint failed: " ++ column⟩

/-- The column that the refusal of a ticket names. -/
def clashingColumn (tickets : List TicketRow) (row : TicketRow) : String :=
  if tickets.any (·.id == row.id) then "impresspress__tickets__tickets.id"
  else if tickets.any (·.reference == row.reference) then "impresspress__tickets__tickets.reference"
  else "impresspress__tickets__tickets.dedupe_hash"

/-- The time, a new id, a new reference, and the statements on the tables. -/
inductive Call
  | utcNow
  | newUuid
  | newReference
  | getType (id : String)
  | getTicket (id : String)
  | findByDedupe (hash : String)
  | createTicket (row : TicketRow)
  | updateTicket (id : String) (columns : TicketWrite)
  | createEvent (row : EventRow)
  | createAnalysis (row : AnalysisRow)
  | expireEvents (ticketId : String) (expiresAt : Option Instant)
  | expireAnalyses (ticketId : String) (expiresAt : Option Instant)
  | getSetting (key fallback : String)
  | markAuditDegraded
  | deleteAnalyses (cutoff : Instant)
  | deleteEvents (cutoff : Instant)
  | deleteTickets (cutoff : Instant)
  | deleteRateCounters (cutoff : Instant)
  | storeResult (prunedAt : Instant) (error : String)

@[reducible] def Reply : Call → Type
  | .utcNow => Instant
  | .newUuid => String
  | .newReference => String
  | .getType _ => TypeRow
  | .getTicket _ => TicketRow
  | .findByDedupe _ => Option TicketRow
  | .createTicket _ => TicketRow
  | .updateTicket .. => TicketRow
  | .createEvent _ => EventRow
  | .createAnalysis _ => AnalysisRow
  | .expireEvents .. => Unit
  | .expireAnalyses .. => Unit
  | .getSetting .. => String
  | .markAuditDegraded => Unit
  | .deleteAnalyses _ => ℕ
  | .deleteEvents _ => ℕ
  | .deleteTickets _ => ℕ
  | .deleteRateCounters _ => ℕ
  | .storeResult .. => Unit

@[reducible] def Answer (c : Call) : Type := Except WaferError (Reply c)

/-- What the outside has in store for a call: the time that passes before it, whether the database
fails it, and what is drawn at random. -/
structure Chance where
  elapsed : ℕ := 0
  failure : Option WaferError := none
  uuid : String := ""
  reference : String := ""

/-- The answer to a search. -/
def found {α : Type} : Option α → Except WaferError α
  | none => .error notFound
  | some row => .ok row

/-- Rows whose time has come. -/
def expired (cutoff : Instant) (expiresAt : Option Instant) : Bool := expiresAt.any (· < cutoff)

namespace Store

/-- What a call does when it does not fail. -/
def answer (chance : Chance) (s : Store) : (c : Call) → Answer c × Store
  | .utcNow => (.ok s.clock, s)
  | .newUuid => (.ok chance.uuid, s)
  | .newReference => (.ok chance.reference, s)
  | .getType id => (found (s.types.get? id), s)
  | .getTicket id => (found (s.tickets.get? id), s)
  | .findByDedupe hash => (.ok (s.tickets.rows.find? (·.dedupeHash = some hash)), s)
  | .createTicket row =>
    match s.tickets.insert row with
    | some tickets => (.ok row, { s with tickets })
    | none => (.error (uniqueViolation (clashingColumn s.tickets.rows row)), s)
  | .updateTicket id columns =>
    match s.tickets.get? id with
    | some row => (.ok (row.write columns),
        { s with tickets := s.tickets.adjust (.writeAt id columns) (keeps_writeAt id columns) })
    | none => (.error notFound, s)
  | .createEvent row =>
    match s.events.insert row with
    | some events => (.ok row, { s with events })
    | none => (.error (uniqueViolation "impresspress__tickets__events.id"), s)
  | .createAnalysis row =>
    match s.analyses.insert row with
    | some analyses => (.ok row, { s with analyses })
    | none => (.error (uniqueViolation "impresspress__tickets__analyses.id"), s)
  | .expireEvents ticketId expiresAt => (.ok (), { s with
      events := s.events.adjust (.expireAt ticketId expiresAt) (keeps_expireAt _ _) })
  | .expireAnalyses ticketId expiresAt => (.ok (), { s with
      analyses := s.analyses.adjust (.expireAt ticketId expiresAt)
        (AnalysisRow.keeps_expireAt _ _) })
  | .getSetting key fallback => (.ok ((s.settings key).getD fallback), s)
  | .markAuditDegraded =>
    (.ok (), { s with maintenance := { s.maintenance with auditDegraded := true } })
  | .deleteAnalyses cutoff => (.ok (s.analyses.rows.countP (expired cutoff ·.expiresAt)),
      { s with analyses := s.analyses.deleteWhere (expired cutoff ·.expiresAt) })
  | .deleteEvents cutoff => (.ok (s.events.rows.countP (expired cutoff ·.expiresAt)),
      { s with events := s.events.deleteWhere (expired cutoff ·.expiresAt) })
  | .deleteTickets cutoff => (.ok (s.tickets.rows.countP (expired cutoff ·.expiresAt)),
      { s with tickets := s.tickets.deleteWhere (expired cutoff ·.expiresAt) })
  | .deleteRateCounters cutoff => (.ok (s.rateCounters.countP (· < cutoff)),
      { s with rateCounters := s.rateCounters.filter (¬ · < cutoff) })
  | .storeResult now error => (.ok (), { s with
      maintenance := { s.maintenance with lastPrunedAt := some now, lastPruneError := error } })

end Store

/-- The calls that reach the database. -/
def Call.isStatement : Call → Bool
  | .utcNow | .newUuid | .newReference => false
  | _ => true

/-- Time passes; then the call is answered, or the database fails it. -/
def perform (chance : Chance) (c : Call) (s : Store) : Answer c × Store :=
  let s := { s with clock := s.clock + chance.elapsed }
  match c.isStatement, chance.failure with
  | true, some error => (.error error, s)
  | _, _ => s.answer chance c

end Tickets
