import Mathlib.Data.String.Basic
import Impresspress.Checked.Arithmetic
import Impresspress.Tickets.Service

/-!
# The changes of a workflow request

A request is checked against the ticket as it is stored, and what it asks for beside that is
written and recorded. The record of a change says which columns it has set to what: the workflow
columns of a ticket can be read off the records of its changes.

## Main definitions

* `Tickets.WorkflowUpdate.Accepted`: what an accepted request has been checked for.
* `Tickets.Workflow`: the columns that requests change, with `Tickets.Workflow.record`.

## Main results

* `Tickets.validateMetadata_changes`: the record of a change is never too long.
* `Tickets.Workflow.record_changes`: reading back what is recorded.
-/

namespace Tickets

/-! ### Checks -/

theorem check_eq_ok {ok : Bool} {refusal : String} {u : Unit} :
    check ok refusal = .ok u ↔ ok = true := by
  cases ok <;> simp [check]

theorem parse_eq_ok {α : Type} {kind value : String} {all : List α} {asStr : α → String} {a : α}
    (h : parse kind all asStr value = .ok a) : asStr a = value := by
  unfold parse at h
  split at h
  · rename_i found hfind
    cases h
    simpa using List.find?_some hfind
  · cases h

theorem TicketStatus.parse_asStr (status : TicketStatus) : parse status.asStr = .ok status := by
  cases status <;> rfl

theorem Priority.asStr_length (priority : Priority) : priority.asStr.length ≤ 6 := by
  cases priority <;> decide

theorem TicketStatus.asStr_length (status : TicketStatus) : status.asStr.length ≤ 13 := by
  cases status <;> decide

/-- The trimmed text is no longer. -/
theorem length_trimmed_le (value : String) : (trimmed value).length ≤ value.length := by
  obtain ⟨front, back, -, -, htext⟩ := Text.exists_trim value.toList
  have hlength := congrArg List.length htext
  rw [List.length_append, List.length_append, String.length_toList] at hlength
  rw [trimmed, String.length_ofList]
  omega

theorem length_le_utf8Len (text : List Char) : text.length ≤ String.utf8Len text := by
  induction text with
  | nil => exact le_rfl
  | cons c text ih =>
    have hpos : 0 < c.utf8Size := c.utf8Size_pos
    rw [String.utf8Len_cons, List.length_cons]
    omega

/-- An identifier has no more characters than its bound. -/
theorem length_of_validateIdentifier {value label : String} {min max : ℕ} {u : Unit}
    (h : validateIdentifier value min max label = .ok u) : value.length ≤ max := by
  simp only [validateIdentifier, check_eq_ok, Bool.and_eq_true, decide_eq_true_eq] at h
  have hlength := length_le_utf8Len value.toList
  rw [← String.utf8ByteSize_ofList, String.ofList_toList, String.length_toList] at hlength
  exact hlength.trans h.1.2

/-- What an accepted workflow request has been checked for. -/
structure WorkflowUpdate.Accepted (input : WorkflowUpdate) (ticketId : String)
    (current : TicketStatus) (next : Option TicketStatus) : Prop where
  transition : ∀ status, next = some status → current.canTransitionTo status = true
  target : ∀ target, input.duplicateOf = some target → target.length ≤ 160
  priority : ∀ priority, input.priority = some priority → priority.length ≤ 6
  assignee : ∀ assignee, input.assigneeId = some assignee → assignee.length ≤ 160

theorem WorkflowUpdate.validate_ok {input : WorkflowUpdate} {ticketId : String}
    {current : TicketStatus} {next : Option TicketStatus}
    (h : input.validate ticketId current = .ok next) : input.Accepted ticketId current next := by
  obtain ⟨next', hnext, h⟩ := Checked.bind_eq_ok.mp h
  obtain ⟨_, hchecks, h⟩ := Checked.bind_eq_ok.mp h
  obtain ⟨_, htarget, h⟩ := Checked.bind_eq_ok.mp h
  obtain ⟨_, hpriority, h⟩ := Checked.bind_eq_ok.mp h
  obtain ⟨_, hassignee, h⟩ := Checked.bind_eq_ok.mp h
  obtain ⟨_, -, h⟩ := Checked.bind_eq_ok.mp h
  cases h
  refine ⟨?_, ?_, ?_, ?_⟩
  · rintro status rfl
    obtain ⟨_, htransition, -⟩ := Checked.bind_eq_ok.mp hchecks
    exact check_eq_ok.mp htransition
  · intro target hsome
    rw [hsome] at htarget
    by_cases hempty : target = ""
    · simp [hempty]
    · rw [Option.filter_some_pos (by simpa using hempty)] at htarget
      obtain ⟨_, hvalid, -⟩ := Checked.bind_eq_ok.mp htarget
      exact length_of_validateIdentifier hvalid
  · intro priority hsome
    rw [hsome] at hpriority
    cases hparse : Priority.parse priority with
    | error message =>
      rw [given, hparse] at hpriority
      cases hpriority
    | ok found =>
      rw [← parse_eq_ok hparse]
      exact found.asStr_length
  · intro assignee hsome
    rw [hsome] at hassignee
    by_cases hempty : assignee = ""
    · simp [hempty]
    · rw [Option.filter_some_pos (by simpa using hempty)] at hassignee
      exact length_of_validateIdentifier hassignee

/-! ### The length of a record -/

theorem utf8Size_hexDigit : ∀ n < 16, (hexDigit n).utf8Size = 1 := by decide

theorem utf8Len_escape_le (c : Char) : String.utf8Len (escape c) ≤ 6 := by
  unfold escape
  split_ifs with _ _ _ _ _ _ _ hcontrol
  all_goals try decide
  · have hhigh : (hexDigit (c.toNat / 16)).utf8Size = 1 := utf8Size_hexDigit _ (by omega)
    have hlow : (hexDigit (c.toNat % 16)).utf8Size = 1 := utf8Size_hexDigit _ (by omega)
    simp only [String.utf8Len_cons, hhigh, hlow]
    decide
  · have hsize := c.utf8Size_le_four
    simp only [String.utf8Len_cons, String.utf8Len_nil]
    omega

theorem utf8Len_encodeStr_le (s : String) : String.utf8Len (encodeStr s) ≤ 6 * s.length + 2 := by
  have hflat (text : List Char) : String.utf8Len (text.flatMap escape) ≤ 6 * text.length := by
    induction text with
    | nil => exact le_rfl
    | cons c text ih =>
      have hc := utf8Len_escape_le c
      rw [List.flatMap_cons, String.utf8Len_append, List.length_cons]
      omega
  have hs := hflat s.toList
  rw [String.length_toList] at hs
  simp only [encodeStr, String.utf8Len_cons, String.utf8Len_append, String.utf8Len_nil]
  have hquote : ('"' : Char).utf8Size = 1 := rfl
  omega

/-- The bytes of a member, and of the comma ahead of it. -/
def memberLen (member : String × Value) : ℕ :=
  String.utf8Len (encodeStr member.1 ++ ':' :: member.2.encode) + 1

theorem utf8Len_intercalate_le (metadata : Metadata) :
    String.utf8Len ([','].intercalate
      (metadata.map fun member => encodeStr member.1 ++ ':' :: member.2.encode)) ≤
      (metadata.map memberLen).sum := by
  induction metadata with
  | nil => exact le_rfl
  | cons member metadata ih =>
    cases metadata with
    | nil => simp [memberLen]
    | cons next metadata =>
      simp only [List.map_cons, List.sum_cons, List.intercalate_cons_cons, String.utf8Len_append,
        String.utf8Len_cons, String.utf8Len_nil, memberLen] at ih ⊢
      have hcomma : (',' : Char).utf8Size = 1 := rfl
      omega

theorem sum_toList_le {α : Type} (field : Option α) (f : α → String × Value) (bound : ℕ)
    (h : ∀ a, field = some a → memberLen (f a) ≤ bound) :
    ((field.map f).toList.map memberLen).sum ≤ bound := by
  cases field with
  | none => exact Nat.zero_le _
  | some a => simpa using h a rfl

/-- The texts among the changes are short. -/
structure Changes.Short (changes : Changes) : Prop where
  priority : ∀ priority, changes.priority = some priority → priority.length ≤ 6
  assignee : ∀ assignee, changes.assigneeId = some assignee → assignee.length ≤ 160
  target : ∀ target, changes.duplicateOf = some (some target) → target.length ≤ 160

/-- The bytes of a member whose value is a text. -/
theorem memberLen_str_le {name value : String} (n k : ℕ) (hname : name.length ≤ n)
    (hvalue : value.length ≤ k) : memberLen (name, .str value) ≤ 6 * n + 6 * k + 6 := by
  have hn := utf8Len_encodeStr_le name
  have hk := utf8Len_encodeStr_le value
  have hcolon : (':' : Char).utf8Size = 1 := rfl
  simp only [memberLen, Value.encode, String.utf8Len_append, String.utf8Len_cons]
  omega

/-- The record of a change is never too long. -/
theorem validateMetadata_changes {changes : Changes} (h : changes.Short) :
    validateMetadata changes.metadata = .ok () := by
  have hstatus := sum_toList_le changes.status
    (fun status => ("status", .str status.asStr)) 120
    fun status _ => memberLen_str_le 6 13 (by decide) status.asStr_length
  have hpriority := sum_toList_le changes.priority (fun priority => ("priority", .str priority)) 90
    fun priority hsome => memberLen_str_le 8 6 (by decide) (h.priority priority hsome)
  have hassignee := sum_toList_le changes.assigneeId
    (fun assignee => ("assignee_id", .str assignee)) 1032
    fun assignee hsome => memberLen_str_le 11 160 (by decide) (h.assignee assignee hsome)
  have htarget := sum_toList_le changes.duplicateOf
    (fun target => ("duplicate_of", (target.map Value.str).getD .null)) 1038
    fun target hsome => match target with
      | none => by decide
      | some target => memberLen_str_le 12 160 (by decide) (h.target target hsome)
  have hhold := sum_toList_le changes.legalHold (fun hold => ("legal_hold", .bool hold)) 19
    fun hold _ => by cases hold <;> decide
  have hsum : (changes.metadata.map memberLen).sum ≤ 2299 := by
    simp only [Changes.metadata, List.map_append, List.sum_append]
    omega
  have hbytes := utf8Len_intercalate_le changes.metadata
  have hbrace : ('\x7b' : Char).utf8Size = 1 := rfl
  have hbrace' : ('\x7d' : Char).utf8Size = 1 := rfl
  rw [validateMetadata, check_eq_ok, decide_eq_true_eq, Metadata.encode,
    String.utf8ByteSize_ofList, List.cons_append, String.utf8Len_cons, String.utf8Len_append,
    String.utf8Len_cons, String.utf8Len_nil]
  omega

/-! ### Reading the record back -/

/-- The columns that requests change. -/
structure Workflow where
  status : TicketStatus
  priority : String
  assigneeId : String
  duplicateOf : Option String
  legalHold : Bool
  deriving DecidableEq, Repr

def TicketRow.workflow (row : TicketRow) : Workflow :=
  ⟨row.status, row.priority, row.assigneeId, row.duplicateOf, row.legalHold⟩

/-- A text in a record. -/
def Metadata.text (metadata : Metadata) (name : String) : Option String :=
  match metadata.lookup name with
  | some (.str s) => some s
  | _ => none

namespace Workflow

/-- The columns after the change that a record tells of. -/
def record (w : Workflow) (metadata : Metadata) : Workflow where
  status := ((metadata.text "status").bind fun s => (TicketStatus.parse s).toOption).getD w.status
  priority := (metadata.text "priority").getD w.priority
  assigneeId := (metadata.text "assignee_id").getD w.assigneeId
  duplicateOf := match metadata.lookup "duplicate_of" with
    | none => w.duplicateOf
    | some (.str target) => some target
    | some _ => none
  legalHold := match metadata.lookup "legal_hold" with
    | some (.bool hold) => hold
    | _ => w.legalHold

/-- The columns after a change. -/
def changed (w : Workflow) (changes : Changes) : Workflow where
  status := changes.status.getD w.status
  priority := changes.priority.getD w.priority
  assigneeId := changes.assigneeId.getD w.assigneeId
  duplicateOf := changes.duplicateOf.getD w.duplicateOf
  legalHold := changes.legalHold.getD w.legalHold

end Workflow

/-- What is written is what has changed. -/
theorem TicketRow.workflow_write (row : TicketRow) (changes : Changes) (effective : TicketStatus)
    (expiry : Option Instant) (now stamp : Instant) :
    (row.write (changes.columns effective expiry now stamp)).workflow =
      row.workflow.changed changes := rfl

theorem lookup_toList {α : Type} (field : Option α) (f : α → Value) (name key : String) :
    ((field.map fun a => (name, f a)).toList.lookup key) =
      if key == name then field.map f else none := by
  cases field with
  | none => simp
  | some a =>
    simp only [Option.map_some, Option.toList_some, List.lookup_cons, List.lookup_nil]
    cases key == name <;> rfl

/-- Reading back what is recorded. -/
theorem Workflow.record_changes (w : Workflow) (changes : Changes) :
    w.record changes.metadata = w.changed changes := by
  have hstatus : changes.metadata.lookup "status" =
      changes.status.map fun status => .str status.asStr := by
    simp [Changes.metadata, List.lookup_append, lookup_toList]
  have hpriority : changes.metadata.lookup "priority" = changes.priority.map .str := by
    simp [Changes.metadata, List.lookup_append, lookup_toList]
  have hassignee : changes.metadata.lookup "assignee_id" = changes.assigneeId.map .str := by
    simp [Changes.metadata, List.lookup_append, lookup_toList]
  have htarget : changes.metadata.lookup "duplicate_of" =
      changes.duplicateOf.map fun target => (target.map .str).getD .null := by
    simp [Changes.metadata, List.lookup_append, lookup_toList]
  have hhold : changes.metadata.lookup "legal_hold" = changes.legalHold.map .bool := by
    simp [Changes.metadata, List.lookup_append, lookup_toList]
  unfold record changed Metadata.text
  rw [hstatus, hpriority, hassignee, htarget, hhold]
  congr 1
  · cases changes.status with
    | none => rfl
    | some status => simp [TicketStatus.parse_asStr, Except.toOption]
  · cases changes.priority <;> rfl
  · cases changes.assigneeId <;> rfl
  · rcases changes.duplicateOf with _ | _ | target <;> rfl
  · cases changes.legalHold <;> rfl

end Tickets
