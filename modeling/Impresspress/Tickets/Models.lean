import Mathlib.Data.Rat.Defs
import Impresspress.Text.Lines

/-!
# Ticket inputs

The enumerations of the ticket block, the inputs of its operations, and their validation. An input
is refused with the first check it fails, and the text of the refusal says which.

Source: `blocks/tickets/models.rs`.

## Main definitions

* `Tickets.TicketStatus`: the workflow states, with `Tickets.TicketStatus.canTransitionTo`.
* `Tickets.CreateTicketInput.validate`, `Tickets.WorkflowUpdate.validate`,
  `Tickets.AnalysisInput.validate`: what is accepted.
-/

namespace Tickets

/-! ### Enumerations -/

/-- `FromStr` of an enumeration whose values are written by `asStr`. -/
def parse {α : Type} (kind : String) (all : List α) (asStr : α → String) (value : String) :
    Except String α :=
  match all.find? (asStr · = value) with
  | some found => .ok found
  | none => .error s!"invalid {kind}: {value}"

inductive TicketSource
  | publicForm
  | admin
  | api
  | ai
  deriving DecidableEq, Repr

def TicketSource.asStr : TicketSource → String
  | publicForm => "public_form"
  | admin => "admin"
  | api => "api"
  | ai => "ai"

inductive TicketStatus
  | new
  | triaged
  | investigating
  | resolved
  | rejected
  | spam
  | duplicate
  deriving DecidableEq, Repr

namespace TicketStatus

def all : List TicketStatus := [new, triaged, investigating, resolved, rejected, spam, duplicate]

def asStr : TicketStatus → String
  | new => "new"
  | triaged => "triaged"
  | investigating => "investigating"
  | resolved => "resolved"
  | rejected => "rejected"
  | spam => "spam"
  | duplicate => "duplicate"

def parse : String → Except String TicketStatus := Tickets.parse "TicketStatus" all asStr

def isOpen : TicketStatus → Bool
  | new | triaged | investigating => true
  | _ => false

def requiresReason (self : TicketStatus) : Bool := !self.isOpen

def canTransitionTo (self next : TicketStatus) : Bool :=
  if self = next then true
  else match self.isOpen, next.isOpen with
    | true, _ => true
    | false, true => next = triaged
    | false, false => false

end TicketStatus

inductive Priority
  | low
  | normal
  | high
  | urgent
  deriving DecidableEq, Repr

namespace Priority

def all : List Priority := [low, normal, high, urgent]

def asStr : Priority → String
  | low => "low"
  | normal => "normal"
  | high => "high"
  | urgent => "urgent"

def parse : String → Except String Priority := Tickets.parse "Priority" all asStr

end Priority

inductive ActorType
  | publicUser
  | admin
  | api
  | ai
  | system
  deriving DecidableEq, Repr

/-! ### Checks of single fields -/

/-- The text without the white space at its ends. -/
def trimmed (value : String) : String := String.ofList (Text.trim value.toList)

/-- `char::is_control`. -/
def isControl (c : Char) : Bool := c.toNat < 0x20 || (0x7F ≤ c.toNat && c.toNat < 0xA0)

def isAsciiLowercase (c : Char) : Bool := 'a' ≤ c && c ≤ 'z'

def isAsciiDigit (c : Char) : Bool := '0' ≤ c && c ≤ '9'

def isAsciiAlphanumeric (c : Char) : Bool :=
  isAsciiLowercase c || isAsciiDigit c || ('A' ≤ c && c ≤ 'Z')

def isIdentifierChar (c : Char) : Bool :=
  isAsciiAlphanumeric c || c == '-' || c == '_' || c == ':' || c == '.'

/-- A check: nothing where `ok` holds, the refusal elsewhere. -/
def check (ok : Bool) (refusal : String) : Except String Unit :=
  if ok then .ok () else .error refusal

/-- A check of a field that is made where the field is given. -/
def given {α : Type} (field : Option α) (checks : α → Except String Unit) : Except String Unit :=
  match field with
  | none => .ok ()
  | some value => checks value

def validateChars (value : String) (min max : ℕ) (label : String) : Except String Unit :=
  let text := Text.trim value.toList
  check (min ≤ text.length && text.length ≤ max && !text.contains '\x00')
    s!"{label} must contain between {min} and {max} characters"

def validateSlug (value : String) (min max : ℕ) (label : String) : Except String Unit :=
  check (min ≤ value.utf8ByteSize && value.utf8ByteSize ≤ max &&
      value.toList.all (fun c => isAsciiLowercase c || isAsciiDigit c || c == '-' || c == '_') &&
      value.toList.head?.any isAsciiAlphanumeric && value.toList.getLast?.any isAsciiAlphanumeric)
    s!"{label} must be a {min}-{max} character lowercase slug"

def validateIdentifier (value : String) (min max : ℕ) (label : String) : Except String Unit :=
  check (min ≤ value.utf8ByteSize && value.utf8ByteSize ≤ max && value.toList.all isIdentifierChar)
    s!"{label} contains unsupported characters"

def validateSourcePath (value : String) : Except String Unit :=
  if value.isEmpty then .ok ()
  else check (value.utf8ByteSize ≤ 512 && ['/'].isPrefixOf value.toList &&
      !(['/', '/'].isPrefixOf value.toList) && !value.toList.contains '\\' &&
      !value.toList.any isControl)
    "source path must be a safe same-site relative path"

/-- A URL as it is parsed. -/
structure Url where
  scheme : String
  username : String
  password : Option String
  host : Option String
  deriving DecidableEq, Repr

/-- What the block uses of other libraries: `url::Url::parse`, and the values and the encoding of
`serde_json`. -/
structure Tools where
  parseUrl : String → Option Url
  Json : Type
  isArray : Json → Bool
  encode : Json → String

section Validation

variable (tools : Tools)

def validateEvidenceUrl (value : String) : Except String Unit :=
  if trimmed value = "" then .ok ()
  else do
    check (value.utf8ByteSize ≤ 1024) "evidence URL exceeds 1024 characters"
    match tools.parseUrl value with
    | none => .error "evidence URL is invalid"
    | some url =>
      check ((url.scheme == "http" || url.scheme == "https") && url.username == "" &&
          url.password.isNone && url.host.isSome)
        "evidence URL must be an http(s) URL without credentials"

def validateEmail (value : String) : Except String Unit :=
  let text := Text.trim value.toList
  if text = [] then .ok ()
  else do
    check (!(decide (254 < (trimmed value).utf8ByteSize) || text.any Text.isWhitespace ||
      text.count '@' != 1)) "email address is invalid"
    let addressee := text.takeWhile (· != '@')
    let domain := (text.dropWhile (· != '@')).tail
    check (!(addressee.isEmpty || domain.isEmpty || !domain.contains '.'))
      "email address is invalid"

def validateJsonArray (value : tools.Json) (label : String) : Except String Unit := do
  check (tools.isArray value) s!"{label} must be a JSON array"
  check ((tools.encode value).utf8ByteSize ≤ 8192) s!"{label} exceeds 8192 bytes"

/-! ### Intake -/

structure CreateTicketInput where
  typeId : String
  subject : String
  description : String
  sourcePath : String
  subjectType : String
  subjectId : String
  evidenceUrl : String
  reporterEmail : String
  reporterWantsReply : Bool
  priority : Option String
  deriving DecidableEq, Repr

structure ValidCreateTicket where
  typeId : String
  subject : String
  description : String
  sourcePath : String
  subjectType : String
  subjectId : String
  evidenceUrl : String
  reporterEmail : String
  reporterWantsReply : Bool
  priority : Option Priority
  deriving DecidableEq, Repr

def CreateTicketInput.validate (self : CreateTicketInput) : Except String ValidCreateTicket := do
  validateIdentifier self.typeId 1 100 "type id"
  validateChars self.subject 5 160 "subject"
  validateChars self.description 20 4000 "description"
  validateSourcePath self.sourcePath
  given (some self.subjectType |>.filter (· ≠ "")) (validateSlug · 1 64 "subject type")
  given (some self.subjectId |>.filter (· ≠ "")) (validateIdentifier · 1 160 "subject id")
  validateEvidenceUrl tools self.evidenceUrl
  validateEmail self.reporterEmail
  check (!(self.reporterWantsReply && trimmed self.reporterEmail == ""))
    "reply consent requires an email address"
  let priority ← self.priority.mapM Priority.parse
  return {
    typeId := self.typeId
    subject := trimmed self.subject
    description := trimmed self.description
    sourcePath := trimmed self.sourcePath
    subjectType := trimmed self.subjectType
    subjectId := trimmed self.subjectId
    evidenceUrl := trimmed self.evidenceUrl
    reporterEmail := trimmed self.reporterEmail
    reporterWantsReply := self.reporterWantsReply
    priority }

/-! ### Workflow -/

structure WorkflowUpdate where
  status : Option String
  priority : Option String
  assigneeId : Option String
  duplicateOf : Option String
  legalHold : Option Bool
  reason : String
  deriving DecidableEq, Repr

/-- The checks of the state that is asked for. -/
def WorkflowUpdate.checkNext (self : WorkflowUpdate) (ticketId : String)
    (current next : TicketStatus) : Except String Unit := do
  check (current.canTransitionTo next) s!"cannot move {current.asStr} to {next.asStr}"
  check (!(next != current && next.requiresReason && trimmed self.reason == ""))
    s!"a reason is required when moving to {next.asStr}"
  if next = .duplicate ∧ current ≠ .duplicate then
    match self.duplicateOf.filter (· ≠ "") with
    | none => .error "duplicate_of is required"
    | some duplicate => check (duplicate != ticketId) "a ticket cannot duplicate itself"
  else .ok ()

def WorkflowUpdate.validate (self : WorkflowUpdate) (ticketId : String) (current : TicketStatus) :
    Except String (Option TicketStatus) := do
  let next ← self.status.mapM TicketStatus.parse
  given next (self.checkNext ticketId current)
  given (self.duplicateOf.filter (· ≠ "")) fun duplicate => do
    validateIdentifier duplicate 1 160 "duplicate target"
    check (duplicate != ticketId) "a ticket cannot duplicate itself"
  given self.priority fun priority => discard (Priority.parse priority)
  given (self.assigneeId.filter (· ≠ "")) (validateIdentifier · 1 160 "assignee id")
  validateChars self.reason 0 4000 "reason"
  return next

/-! ### Notes and analyses -/

structure AnalysisInput where
  source : String
  model : Option String
  promptVersion : String
  summary : String
  suggestedTypeId : Option String
  suggestedPriority : Option String
  confidence : ℚ
  suggestedActions : tools.Json

variable {tools}

def AnalysisInput.validate (self : AnalysisInput tools) : Except String Unit := do
  validateIdentifier self.source 1 80 "analysis source"
  given self.model (validateChars · 1 160 "model")
  validateChars self.promptVersion 0 80 "prompt version"
  validateChars self.summary 1 4000 "analysis summary"
  given self.suggestedTypeId (validateIdentifier · 1 100 "suggested type id")
  given self.suggestedPriority fun priority => discard (Priority.parse priority)
  check (0 ≤ self.confidence && self.confidence ≤ 1) "confidence must be between 0 and 1"
  validateJsonArray tools self.suggestedActions "suggested actions"

end Validation

def validateNote (note : String) : Except String Unit := validateChars note 1 4000 "note"

end Tickets
