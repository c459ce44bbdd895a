import Impresspress.Text.Numerals
import Impresspress.Tickets.Store

/-!
# The ticket service

Intake, the workflow of a ticket, notes and analyses, and the retention pass, as programs over the
calls of the block. A failed audit write degrades: the change it describes stands, and a flag tells
that the timeline has a gap.

Source: `blocks/tickets/service.rs` and `blocks/tickets/maintenance.rs`.

## Main definitions

* `Tickets.createTicket`, `Tickets.updateWorkflow`, `Tickets.addNote`, `Tickets.addAnalysis`.
* `Tickets.prune`: one retention pass.
* `Tickets.Store.run`: requests one after the other.
-/

namespace Tickets

open Concurrent

inductive ServiceError
  | validation (message : String)
  | conflict (message : String)
  | db (error : WaferError)
  deriving DecidableEq, Repr

/-- Programs that end at the first error. -/
abbrev Ticketing := ExceptT ServiceError (Program Call Answer)

/-- One call; its failure is part of the answer. -/
def ask (c : Call) : Ticketing (Answer c) := ExceptT.mk (.call c fun answer => .done (.ok answer))

/-- `map_err(ServiceError::Db)?` -/
def ofDb {α : Type} : Except WaferError α → Ticketing α
  | .ok value => return value
  | .error error => throw (.db error)

/-- `map_err(ServiceError::Validation)?` -/
def validated {α : Type} : Except String α → Ticketing α
  | .ok value => return value
  | .error message => throw (.validation message)

/-- A call whose failure ends the program. -/
def asking (c : Call) : Ticketing (Reply c) := do ofDb (← ask c)

/-! ### The timeline -/

/-- A hexadecimal digit. -/
def hexDigit (n : ℕ) : Char := Char.ofNat (if n < 10 then 48 + n else 87 + n)

/-- A character in a JSON string. -/
def escape (c : Char) : List Char :=
  if c = '"' then ['\\', '"']
  else if c = '\\' then ['\\', '\\']
  else if c = '\n' then ['\\', 'n']
  else if c = '\r' then ['\\', 'r']
  else if c = '\t' then ['\\', 't']
  else if c.toNat = 8 then ['\\', 'b']
  else if c.toNat = 12 then ['\\', 'f']
  else if c.toNat < 32 then
    ['\\', 'u', '0', '0', hexDigit (c.toNat / 16), hexDigit (c.toNat % 16)]
  else [c]

def encodeStr (s : String) : List Char := '"' :: s.toList.flatMap escape ++ ['"']

def Value.encode : Value → List Char
  | null => ['n', 'u', 'l', 'l']
  | bool true => ['t', 'r', 'u', 'e']
  | bool false => ['f', 'a', 'l', 's', 'e']
  | str s => encodeStr s

/-- `serde_json::to_vec` of an object. -/
def Metadata.encode (metadata : Metadata) : String :=
  String.ofList ('\x7b' :: [','].intercalate
    (metadata.map fun member => encodeStr member.1 ++ ':' :: member.2.encode) ++ ['\x7d'])

/-- `validate_metadata` of an object. -/
def validateMetadata (metadata : Metadata) : Except String Unit :=
  check (metadata.encode.utf8ByteSize ≤ 8192) "metadata exceeds 8192 bytes"

/-- `repo::append_event` -/
def appendEvent (ticketId eventType : String) (actorType : ActorType) (actorId body : String)
    (metadata : Metadata) (expiresAt : Option Instant) :
    Ticketing (Except WaferError EventRow) := do
  let id ← asking .newUuid
  let createdAt ← asking .utcNow
  ask (.createEvent
    ⟨id, ticketId, eventType, actorType, actorId, body, metadata, expiresAt, createdAt⟩)

def markAuditDegraded : Ticketing Unit := asking .markAuditDegraded

def appendEventBestEffort (ticketId eventType : String) (actorType : ActorType)
    (actorId body : String) (metadata : Metadata) (expiresAt : Option Instant) :
    Ticketing Unit :=
  match validateMetadata metadata with
  | .error _ => return
  | .ok _ => do
    match ← appendEvent ticketId eventType actorType actorId body metadata expiresAt with
    | .ok _ => return
    | .error _ => markAuditDegraded

/-! ### Intake -/

def sourceActorValid : TicketSource → ActorType → Bool
  | .publicForm, .publicUser | .admin, .admin | .api, .api | .ai, .ai => true
  | _, _ => false

def actorIdValid (actorType : ActorType) (actorId : String) : Bool :=
  if actorType = .publicUser then actorId == ""
  else actorId != "" && actorId.utf8ByteSize ≤ 160 && !actorId.toList.any isControl

/-- Whether the text of an error, in lower case, has a word. -/
def mentions (error : WaferError) (word : String) : Bool :=
  word.toList <:+: error.message.toList.map Char.toLower

def ticketData (input : ValidCreateTicket) (ticketType : TypeRow) (source : TicketSource)
    (priority : Priority) (id reference : String) (dedupeHash : Option String) (now : Instant) :
    TicketRow where
  id
  reference
  typeId := ticketType.id
  typeKeySnapshot := ticketType.key
  typeTitleSnapshot := ticketType.title
  source
  status := .new
  priority := priority.asStr
  subject := input.subject
  description := input.description
  sourcePath := input.sourcePath
  subjectType := input.subjectType
  subjectId := input.subjectId
  evidenceUrl := input.evidenceUrl
  reporterEmail := input.reporterEmail
  reporterWantsReply := input.reporterWantsReply
  assigneeId := ""
  duplicateOf := none
  legalHold := false
  dedupeHash
  resolvedAt := none
  expiresAt := none
  createdAt := now
  updatedAt := now

/-- The error of an insert that no other reference mends: the ticket that has the dedupe hash, if
that is what was in the way. -/
def existingOr (dedupeHash : Option String) (error : WaferError) : Ticketing TicketRow :=
  match dedupeHash.filter fun _ => mentions error "dedupe" with
  | none => throw (.db error)
  | some hash => do
    match ← asking (.findByDedupe hash) with
    | some existing => return existing
    | none => throw (.db error)

/-- Insert the ticket under a new reference, in at most so many attempts. -/
def insertTicket (row : String → String → TicketRow) (dedupeHash : Option String)
    (created : String → Ticketing Unit) : ℕ → Ticketing TicketRow
  | 0 => throw (.conflict "could not allocate a unique ticket reference")
  | attempts + 1 => do
    let random ← asking .newReference
    let id ← asking .newUuid
    match ← ask (.createTicket (row id ("TKT-" ++ random))) with
    | .ok ticket => do
      created ticket.id
      return ticket
    | .error error =>
      if mentions error "reference" then insertTicket row dedupeHash created attempts
      else existingOr dedupeHash error

/-- Whether the type takes the ticket. -/
def checkType (ticketType : TypeRow) (input : ValidCreateTicket) (source : TicketSource) :
    Except String Unit := do
  check ticketType.active "ticket type is inactive"
  check (!(source == .publicForm && !ticketType.publicVisible))
    "ticket type is not available for public submissions"
  check (!(ticketType.requiresContact && (input.reporterEmail == "" || !input.reporterWantsReply)))
    "this ticket type requires a contact email and permission to reply"

/-- The first ticket with the dedupe hash. -/
def findByDedupe : Option String → Ticketing (Option TicketRow)
  | none => return none
  | some hash => asking (.findByDedupe hash)

def ticketPriority (ticketType : TypeRow) (input : ValidCreateTicket) (source : TicketSource) :
    Priority :=
  if source = .publicForm then ticketType.defaultPriority
  else input.priority.getD ticketType.defaultPriority

def createTicket (tools : Tools) (input : CreateTicketInput) (source : TicketSource)
    (actorType : ActorType) (actorId : String) (dedupeHash : Option String) :
    Ticketing TicketRow := do
  validated (check (sourceActorValid source actorType) "ticket source and actor type do not match")
  validated (check (actorIdValid actorType actorId) "ticket actor id is invalid")
  let input ← validated (input.validate tools)
  let ticketType ← asking (.getType input.typeId)
  validated (checkType ticketType input source)
  match ← findByDedupe dedupeHash with
  | some existing => return existing
  | none => do
    let now ← asking .utcNow
    insertTicket
      (fun id reference => ticketData input ticketType source
        (ticketPriority ticketType input source) id reference dedupeHash now)
      dedupeHash
      (fun id => appendEventBestEffort id "created" actorType actorId ""
        [("source", .str source.asStr)] none)
      3

/-! ### Workflow -/

def reasonWithoutChange : String := "Nothing changed. To record a comment, add an internal note."

inductive WorkflowOutcome
  | updated (row : TicketRow)
  | unchanged (row : TicketRow)
  deriving DecidableEq, Repr

/-- The target of a duplicate that is stored, if any. -/
def TicketRow.duplicateTarget (row : TicketRow) : Option String := row.duplicateOf.filter (· ≠ "")

/-- The target of a duplicate after the request. -/
def effectiveDuplicate (current : TicketRow) (input : WorkflowUpdate)
    (status : Option TicketStatus) : Option String :=
  if status.isSome ∧ status.getD current.status ≠ .duplicate then none
  else match input.duplicateOf with
    | some target => if trimmed target = "" then none else some (trimmed target)
    | none => current.duplicateTarget

/-- What a request changes: only that is written and recorded. -/
structure Changes where
  status : Option TicketStatus
  priority : Option String
  assigneeId : Option String
  duplicateOf : Option (Option String)
  legalHold : Option Bool
  deriving DecidableEq, Repr

namespace Changes

def of (current : TicketRow) (input : WorkflowUpdate) (status : Option TicketStatus)
    (duplicate : Option String) : Changes where
  status
  priority := input.priority.filter (· ≠ current.priority)
  assigneeId := input.assigneeId.filter (· ≠ current.assigneeId)
  duplicateOf := if duplicate = current.duplicateTarget then none else some duplicate
  legalHold := input.legalHold.filter (· ≠ current.legalHold)

def isEmpty (changes : Changes) : Bool := changes == ⟨none, none, none, none, none⟩

def metadata (changes : Changes) : Metadata :=
  (changes.status.map fun status => ("status", Value.str status.asStr)).toList ++
    (changes.priority.map fun priority => ("priority", Value.str priority)).toList ++
    (changes.assigneeId.map fun assignee => ("assignee_id", Value.str assignee)).toList ++
    (changes.duplicateOf.map fun target =>
      ("duplicate_of", (target.map Value.str).getD Value.null)).toList ++
    (changes.legalHold.map fun hold => ("legal_hold", Value.bool hold)).toList

def lifecycleChanged (changes : Changes) : Bool :=
  changes.status.isSome || changes.legalHold.isSome

/-- The columns to write: the changes, and what follows from them. -/
def columns (changes : Changes) (effective : TicketStatus) (expiry : Option Instant)
    (now stamp : Instant) : TicketWrite where
  status := changes.status
  priority := changes.priority
  assigneeId := changes.assigneeId
  duplicateOf := changes.duplicateOf
  legalHold := changes.legalHold
  resolvedAt := changes.status.map fun _ => if effective.isOpen then none else some now
  expiresAt := if changes.lifecycleChanged then some expiry else none
  updatedAt := stamp

end Changes

/-- The target of a duplicate exists, and only duplicates have one. -/
def checkDuplicate (id : String) (effective : TicketStatus) (duplicate : Option String) :
    Ticketing Unit :=
  if effective = .duplicate then
    match duplicate with
    | none => throw (.validation "duplicate tickets require a duplicate target")
    | some target =>
      if target = id then throw (.validation "a ticket cannot duplicate itself")
      else do
        match ← ask (.getTicket target) with
        | .ok _ => return
        | .error error =>
          if error.code = .notFound then throw (.validation "duplicate target does not exist")
          else throw (.db error)
  else match duplicate with
    | none => return
    | some _ => throw (.validation "duplicate_of is only valid for duplicate tickets")

/-- `str::parse::<i64>`: digits behind a sign, in range. -/
def parseI64 (text : String) : Option ℤ :=
  let digits (sign : ℤ) (digits : List Char) : Option ℤ :=
    if digits ≠ [] ∧ digits.all isAsciiDigit then
      let n := sign * (Text.digitsValue digits : ℕ)
      if -2 ^ 63 ≤ n ∧ n < 2 ^ 63 then some n else none
    else none
  match text.toList with
  | '-' :: rest => digits (-1) rest
  | '+' :: rest => digits 1 rest
  | text => digits 1 text

/-- How long a closed ticket is kept, by the setting or by the default, in days. -/
def retentionDays (setting : String) (fallback : ℤ) : ℕ :=
  (max 1 (min 3650 ((parseI64 setting).getD fallback))).toNat

/-- The end of the retention that a setting gives. -/
def retentionEnd (key : String) (fallback : ℤ) : Ticketing Instant := do
  let setting ← asking (.getSetting key (toString fallback))
  let now ← asking .utcNow
  return now + Instant.days (retentionDays setting fallback)

/-- When a ticket closed as `status` expires. -/
def expiryFor (status : TicketStatus) : Ticketing Instant :=
  match status with
  | .spam => retentionEnd "IMPRESSPRESS__TICKETS__RETENTION_SPAM_DAYS" 30
  | .rejected | .duplicate => retentionEnd "IMPRESSPRESS__TICKETS__RETENTION_REJECTED_DAYS" 180
  | .resolved => retentionEnd "IMPRESSPRESS__TICKETS__RETENTION_RESOLVED_DAYS" 365
  | _ => asking .utcNow

/-- A write to the timeline; a failure degrades. -/
def orDegraded (c : Call) : Ticketing Unit := do
  match ← ask c with
  | .ok _ => return
  | .error _ => markAuditDegraded

def propagateExpiry (ticketId : String) (expiry : Option Instant) : Ticketing Unit := do
  orDegraded (.expireEvents ticketId expiry)
  orDegraded (.expireAnalyses ticketId expiry)

/-- Pass an expiry on where the change may have moved it. -/
def passOn (changes : Changes) (ticketId : String) (expiry : Option Instant) : Ticketing Unit :=
  if changes.lifecycleChanged then propagateExpiry ticketId expiry else return

/-- The expiry of a ticket after a change. -/
def newExpiry (current : TicketRow) (changes : Changes) (effective : TicketStatus) (hold : Bool) :
    Ticketing (Option Instant) :=
  if changes.lifecycleChanged then
    if effective.isOpen || hold then return none else some <$> expiryFor effective
  else return current.expiresAt

/-- Store the changes, pass a new expiry on, and record them. -/
def storeChanges (id : String) (current : TicketRow) (changes : Changes)
    (effective : TicketStatus) (hold : Bool) (actorType : ActorType) (actorId reason : String) :
    Ticketing WorkflowOutcome := do
  let now ← asking .utcNow
  let expiry ← newExpiry current changes effective hold
  let stamp ← asking .utcNow
  let updated ← asking (.updateTicket id (changes.columns effective expiry now stamp))
  passOn changes id expiry
  appendEventBestEffort id ((changes.status.map (·.asStr)).getD "workflow_updated") actorType
    actorId reason changes.metadata expiry
  return .updated updated

/-- A request that changes nothing: a reason is recorded only with the change that it explains. -/
def unchanged (current : TicketRow) (reason : String) : Ticketing WorkflowOutcome :=
  if reason = "" then return .unchanged current
  else throw (.validation reasonWithoutChange)

def updateWorkflow (id : String) (input : WorkflowUpdate) (actorType : ActorType)
    (actorId : String) : Ticketing WorkflowOutcome := do
  let current ← asking (.getTicket id)
  let requested ← validated (input.validate id current.status)
  let status := requested.filter (· ≠ current.status)
  let effective := status.getD current.status
  let duplicate := effectiveDuplicate current input status
  checkDuplicate id effective duplicate
  let changes := Changes.of current input status duplicate
  if changes.isEmpty then
    unchanged current (trimmed input.reason)
  else
    storeChanges id current changes effective (input.legalHold.getD current.legalHold) actorType
      actorId (trimmed input.reason)

/-! ### Notes and analyses -/

def addNote (id note : String) (actorType : ActorType) (actorId : String) :
    Ticketing EventRow := do
  validated (validateNote note)
  let ticket ← asking (.getTicket id)
  ofDb (← appendEvent id "note" actorType actorId (trimmed note) [] ticket.expiresAt)

/-- The type that an analysis suggests is active. -/
def checkSuggested : Option String → Ticketing Unit
  | none => return
  | some typeId => do
    let suggested ← asking (.getType typeId)
    validated (check suggested.active "suggested ticket type is inactive")

def addAnalysis {tools : Tools} (id : String) (input : AnalysisInput tools) :
    Ticketing AnalysisRow := do
  validated input.validate
  let ticket ← asking (.getTicket id)
  checkSuggested input.suggestedTypeId
  let rowId ← asking .newUuid
  let createdAt ← asking .utcNow
  asking (.createAnalysis {
    id := rowId
    ticketId := id
    source := input.source
    model := input.model
    promptVersion := input.promptVersion
    summary := input.summary
    suggestedTypeId := input.suggestedTypeId
    suggestedPriority := input.suggestedPriority
    confidence := input.confidence
    suggestedActions := tools.encode input.suggestedActions
    expiresAt := ticket.expiresAt
    createdAt })

/-! ### Retention -/

structure MaintenanceResult where
  complete : Bool
  analysesDeleted : ℕ
  eventsDeleted : ℕ
  ticketsDeleted : ℕ
  rateCountersDeleted : ℕ
  errors : List String
  deriving DecidableEq, Repr

/-- One step of a pass: the rows it has deleted, and its name where it has failed. -/
def pruneTable (label : String) (delete : Ticketing (Except WaferError ℕ)) :
    Ticketing (ℕ × List String) := do
  match ← delete with
  | .ok deleted => return (deleted, [])
  | .error _ => return (0, [label])

/-- One pass as of `now`; no failure ends it. -/
def prune (now : Instant) : Ticketing MaintenanceResult := do
  let analyses ← pruneTable "analyses" (ask (.deleteAnalyses now))
  let events ← pruneTable "events" (ask (.deleteEvents now))
  let tickets ← pruneTable "tickets" (ask (.deleteTickets now))
  let counters ← pruneTable "rate-counters" (ask (.deleteRateCounters (now - Instant.hours 72)))
  let errors := analyses.2 ++ events.2 ++ tickets.2 ++ counters.2
  let prunedAt ← asking .utcNow
  match ← ask (.storeResult prunedAt (",".intercalate errors)) with
  | .ok _ => return ⟨errors.isEmpty, analyses.1, events.1, tickets.1, counters.1, errors⟩
  | .error _ =>
    return ⟨false, analyses.1, events.1, tickets.1, counters.1, errors ++ ["status"]⟩

/-! ### Requests -/

/-- What is asked of the block. -/
inductive Request (tools : Tools)
  | create (input : CreateTicketInput) (source : TicketSource) (actorType : ActorType)
      (actorId : String) (dedupeHash : Option String)
  | update (id : String) (input : WorkflowUpdate) (actorType : ActorType) (actorId : String)
  | note (id text : String) (actorType : ActorType) (actorId : String)
  | analyse (id : String) (input : AnalysisInput tools)
  | prune

inductive Response
  | ticket (row : TicketRow)
  | workflow (outcome : WorkflowOutcome)
  | event (row : EventRow)
  | analysis (row : AnalysisRow)
  | pruned (result : MaintenanceResult)
  deriving DecidableEq, Repr

variable {tools : Tools}

def Request.handle : Request tools → Ticketing Response
  | create input source actorType actorId dedupeHash =>
    .ticket <$> createTicket tools input source actorType actorId dedupeHash
  | update id input actorType actorId =>
    .workflow <$> updateWorkflow id input actorType actorId
  | note id text actorType actorId => .event <$> addNote id text actorType actorId
  | analyse id input => .analysis <$> addAnalysis id input
  | prune => do
    let now ← asking .utcNow
    .pruned <$> Tickets.prune now

/-- What happens at the block: a request, its calls meeting their chances in order, or an edit of
the ticket types and the settings. -/
inductive Step (tools : Tools)
  | request (request : Request tools) (chances : ℕ → Chance)
  | configure (types : Relational.Table typeSchema) (settings : String → Option String)

/-- How a request ends: what is answered, and the store after it. -/
def Store.serve (s : Store) (request : Request tools) (chances : ℕ → Chance) :
    Except ServiceError Response × Store :=
  request.handle.run.run perform chances s

def Store.step (s : Store) : Step tools → Store
  | .request request chances => (s.serve request chances).2
  | .configure types settings => { s with types, settings }

/-- One step after the other. -/
def Store.run (s : Store) (steps : List (Step tools)) : Store := steps.foldl Store.step s

end Tickets
