import Mathlib.Data.Finset.Card
import Mathlib.Order.Interval.Finset.Nat
import Impresspress.Concurrent.Fresh
import Impresspress.Products.Commerce.Runs

/-!
# Leases on provider operations

Worker passes read a page of open operations, and lease them one by one with an update that
compares the status and the owner. A failed operation has no owner, so the update cannot tell the
failure that was read from a later one. The attempts of successive leases increase, wait for the
recorded retry time and are at most eight, as long as no pass leases a failed operation across
another lease.

## Main definitions

* `Products.Commerce.OperationChange`: what an update does to an operation.
* `Products.Commerce.LeaseBudget`: what is promised of the leases of one operation.
* `Products.Commerce.LeasesCurrent`: a failed operation is leased on its current attempt.

## Main results

* `Products.Commerce.lease_budget`: the promise, in every run in which leases are current.
-/

namespace Products

namespace Commerce

open Concurrent Relational Discipline

variable {ι : Type}

/-- The calls on the queue: a pass that leases what is due, and the two outcomes of an attempt. -/
inductive LeaseRequest where
  | claimDue (limit : ℕ)
  | markCompleted (key : String) (owner : RowId) (response : Option ProviderResponse)
  | markRetry (key : String) (owner : RowId) (attempts : ℕ) (message : String)
  deriving DecidableEq, Repr

def LeaseRequest.program : LeaseRequest → CommerceProgram Unit
  | claimDue limit => dropped (Commerce.claimDue limit)
  | markCompleted key owner response => Commerce.markCompleted key owner response
  | markRetry key owner attempts message => dropped (Commerce.markRetry key owner attempts message)

/-- Calls on the queue run together; any statement may fail. -/
def serveLeases [DecidableEq ι] (requests : ι → LeaseRequest) (start : CommerceStore)
    (schedule : List (ι × Chance)) :
    Pool ι CommerceStore CommerceAnswer (Except WaferError Unit) :=
  (Pool.launch start fun i => (requests i).program.run).exec perform schedule

/-! ### What an update does to an operation -/

/-- The write of a call that has hit the operation. -/
def operationWritten (key : String) (m : CommerceMoment ι) : Option OperationWrite :=
  match m with
  | ⟨_, _, .updateOperation key' _ _ write, .ok 1, _⟩ => if key' = key then some write else none
  | _ => none

/-- The conditional update of an operation that a call is. -/
def CommerceCall.isLeaseCall : CommerceCall → Bool
  | .setOperation .. => false
  | .upsertOperation _ => false
  | _ => true

/-- Everything that a call other than an insertion or an unconditional update can do to one
operation. -/
inductive OperationChange (key : String) (m : CommerceMoment ι) : Prop
  | unchanged (after : m.after.operations.get? key = m.before.operations.get? key)
      (written : operationWritten key m = none)
  | updated (write : OperationWrite) (operation : Operation)
      (call : m.call =
        .updateOperation key operation.status operation.processingOwner write)
      (before : m.before.operations.get? key = some operation)
      (after : m.after.operations.get? key = some (write.apply operation))
      (written : operationWritten key m = some write)

theorem get?_replace_operation {t t' : Table operationSchema} {key : String}
    {operation : Operation} {write : OperationWrite} (hget : t.get? key = some operation)
    (h : t.replace (write.apply operation) = some t') (key' : String) :
    t'.get? key' = if key' = key then some (write.apply operation) else t.get? key' := by
  have hkey : operationSchema.key (write.apply operation) = key :=
    (write.idempotencyKey_apply operation).trans (Table.get?_eq_some_iff.mp hget).2
  by_cases hsame : key' = key
  · rw [if_pos hsame, hsame, ← hkey]
    rw [← hkey] at hget
    exact Table.get?_replace_self h hget
  · rw [if_neg hsame]
    exact Table.get?_replace_of_ne h (by rwa [hkey])

theorem operationChange {m : CommerceMoment ι} (h : m.Happened perform)
    (hcall : m.call.isLeaseCall) (key : String) : OperationChange key m := by
  rcases happened_cases h with ⟨e, herror, -, -, -, hsame⟩ | ⟨chance, hanswer, hafter⟩
  · refine .unchanged (by rw [hsame]) ?_
    obtain ⟨i, s, c, ans, after⟩ := m
    simp only at herror
    subst herror
    cases c <;> rfl
  obtain ⟨i, s, c, ans, after⟩ := m
  simp only at hanswer hafter hcall
  subst hanswer hafter
  cases c with
  | utcNow | newUuid | getOrder | orderByPaymentIntent | orderBySession | addLineItem
  | deleteLineItems | deleteOrder | getRefund | refundByKey | refundByProviderId | activeRefund
  | operationByKey | operationsFor | openOperations | loadStripeClient | stripeCreateRefund
  | stripeRetrieveRefund | stripeCreateSession => exact .unchanged rfl rfl
  | createOrder snapshot =>
    refine .unchanged ?_ rfl
    simp only [answer, answerNow]
    split <;> rfl
  | updateOrder id filters write =>
    refine .unchanged ?_ rfl
    simp only [answer, answerNow, counted]
    split <;> rfl
  | setOrder id write =>
    refine .unchanged ?_ rfl
    simp only [answer, answerNow, written]
    split
    · rfl
    · split <;> rfl
  | createRefund claim =>
    refine .unchanged ?_ rfl
    simp only [answer, answerNow]
    split <;> rfl
  | updateRefund id filters write =>
    refine .unchanged ?_ rfl
    simp only [answer, answerNow, counted]
    split <;> rfl
  | setRefund id write =>
    refine .unchanged ?_ rfl
    simp only [answer, answerNow, written]
    split
    · rfl
    · split <;> rfl
  | upsertOperation operation => cases hcall
  | setOperation key write => cases hcall
  | updateOperation key' status owner write =>
    rcases s.operations.updateWhere_cases key'
      (fun operation => operation.status == status && operation.processingOwner == owner)
      write.apply with hnone | ⟨hzero, -⟩ | ⟨operation, t, hone, hget, hmatch, hreplace⟩
    · exact .unchanged (by simp [answer, answerNow, counted, hnone])
        (by simp [operationWritten, answer, answerNow, counted, hnone])
    · exact .unchanged (by simp [answer, answerNow, counted, hzero])
        (by simp [operationWritten, answer, answerNow, counted, hzero])
    · have hafter := get?_replace_operation hget hreplace key
      simp only [Bool.and_eq_true, beq_iff_eq] at hmatch
      by_cases hkey : key = key'
      · subst hkey
        rw [if_pos rfl] at hafter
        exact .updated write operation (by rw [hmatch.1, hmatch.2]) hget
          (by simp only [answer, answerNow, counted, hone]; exact hafter)
          (by simp [operationWritten, answer, answerNow, counted, hone])
      · rw [if_neg hkey] at hafter
        exact .unchanged (by simp only [answer, answerNow, counted, hone]; exact hafter)
          (by simp [operationWritten, answer, answerNow, counted, hone, Ne.symm hkey])

/-! ### What the calls issue -/

/-- The time that the clock has told. -/
def told : CommerceMoment ι → Option Instant
  | ⟨_, _, .utcNow, .ok now, _⟩ => some now
  | _ => none

/-- The fresh id that has been drawn. -/
def drawn : CommerceMoment ι → Option RowId
  | ⟨_, _, .newUuid, .ok token, _⟩ => some token
  | _ => none

/-- The page of open operations that has been read. -/
def operationsRead : CommerceMoment ι → List Operation
  | ⟨_, _, .openOperations _, .ok operations, _⟩ => operations
  | _ => []

/-- A program has read the clock at `now`, and the record. -/
structure HasCandidate (own : CommerceHistory ι) (now : Instant) (record : Operation) : Prop where
  told : ∃ d ∈ own, told d = some now
  read : ∃ r ∈ own, record ∈ operationsRead r

/-- What the calls on the queue issue. -/
def LeaseIssues (own : CommerceHistory ι) : CommerceCall → Prop
  | .utcNow | .newUuid | .openOperations _ | .operationByKey _ => True
  | .updateOperation key status owner (.claimed attempts token now) =>
    unused drawn own = some token ∧ ∃ record, HasCandidate own now record ∧
      record.idempotencyKey = key ∧ status = record.status ∧ owner = record.processingOwner ∧
      record.eligible now ∧ attempts = record.attempts + 1 ∧ attempts ≤ maxAttempts
  | .updateOperation _ status _ (.deadLetterUnclaimed _) => status.isTerminal = false
  | .updateOperation _ status _ (.completed _) => status = .processing
  | .updateOperation _ status _ (.retried ..) => status = .processing
  | _ => False

theorem isLeaseCall_of_issues {own : CommerceHistory ι} {c : CommerceCall}
    (h : LeaseIssues own c) : c.isLeaseCall := by
  cases c <;> first | rfl | exact h.elim

theorem isTerminal_of_eligible {record : Operation} {now : Instant} (h : record.eligible now) :
    record.status.isTerminal = false := by
  cases hstatus : record.status <;> simp_all [Operation.eligible, OperationStatus.isTerminal]

section Script

variable [DecidableEq ι] {start : CommerceStore} {i : ι}

/-- The script of the queue. -/
abbrev leases : Discipline ι CommerceStore CommerceAnswer := script fun _ => LeaseIssues

omit [DecidableEq ι] in
private theorem HasCandidate.cons {own : CommerceHistory ι} {now : Instant} {record : Operation}
    (h : HasCandidate own now record) (m : CommerceMoment ι) : HasCandidate (m :: own) now record :=
  ⟨h.told.imp fun _ hd => ⟨List.mem_cons_of_mem m hd.1, hd.2⟩,
    h.read.imp fun _ hr => ⟨List.mem_cons_of_mem m hr.1, hr.2⟩⟩

/-- The candidates that are still to be looked at have been read. -/
private def Candidates (now : Instant) (records : List Operation) (own : CommerceHistory ι) :
    Prop :=
  ∀ record ∈ records, HasCandidate own now record

omit [DecidableEq ι] in
private theorem Candidates.cons {now : Instant} {records : List Operation}
    {own : CommerceHistory ι} (h : Candidates now records own) (m : CommerceMoment ι) :
    Candidates now records (m :: own) :=
  fun record hrecord => (h record hrecord).cons m

private theorem claimOne_safe {record : Operation} {records : List Operation} {now : Instant}
    (hmem : record ∈ records) {past : CommerceHistory ι} (hpast : Candidates now records (past.own i)) :
    leases.Safe perform start i (claimOne record now).run past
      fun _ past => Candidates now records (past.own i) := by
  unfold claimOne
  split
  · exact Safe.script_done (fun _ => Candidates now records) hpast
  rename_i heligible
  rw [not_not] at heligible
  split
  · refine Safe.script_call (Candidates now records) hpast
      (fun own _ => isTerminal_of_eligible heligible) fun past chance s hpast => ?_
    cases (perform chance _ s).1 <;>
      exact Safe.script_done (fun _ => Candidates now records)
        (by rw [Pool.own_momentOf]; exact hpast.cons _)
  rename_i hbudget
  refine Safe.script_call (Candidates now records) hpast (fun own _ => trivial)
    fun past chance s hpast => ?_
  cases hdraw : (perform chance .newUuid s).1 with
  | error error =>
    exact Safe.script_done (fun _ => Candidates now records)
      (by rw [Pool.own_momentOf]; exact hpast.cons _)
  | ok owner =>
    refine Safe.script_call (fun own => Candidates now records own ∧ unused drawn own = some owner)
      ?_ (fun own hown => ?_) fun past chance s hpast => ?_
    · rw [Pool.own_momentOf]
      refine ⟨hpast.cons _, ?_⟩
      simp [unused, Pool.momentOf, drawn, hdraw]
    · exact ⟨hown.2, record, hown.1 record hmem, rfl, rfl, rfl, heligible, rfl, by omega⟩
    · have hdone : ∀ {m : CommerceMoment ι}, Candidates now records (m :: past.own i) :=
        fun {m} => hpast.1.cons m
      cases (perform chance _ s).1 with
      | error error =>
        exact Safe.script_done (fun _ => Candidates now records)
          (by rw [Pool.own_momentOf]; exact hdone)
      | ok rows =>
        change leases.Safe perform start i
          (if rows ≠ 1 then pure Candidate.skipped else pure (.claimed _) :
            CommerceProgram Candidate).run _ _
        split <;>
          exact Safe.script_done (fun _ => Candidates now records)
            (by rw [Pool.own_momentOf]; exact hdone)

private theorem claimEach_safe {now : Instant} {limit : ℕ} {records : List Operation}
    {batch : ClaimBatch} {past : CommerceHistory ι} (hpast : Candidates now records (past.own i)) :
    leases.Safe perform start i (claimEach now limit records batch).run past fun _ _ => True := by
  induction records generalizing batch past with
  | nil => exact safe_done
  | cons record records ih =>
    unfold claimEach
    split
    · exact safe_done
    have hattempt : leases.Safe perform start i (attempt (claimOne record now)).run past
        fun _ past => Candidates now (record :: records) (past.own i) :=
      Safe.bind ((claimOne_safe List.mem_cons_self hpast).mono fun _ _ hpast' =>
        Safe.script_done (fun _ => Candidates now (record :: records)) hpast')
    refine Safe.bind (hattempt.mono fun result past' hpast' => ?_)
    cases result with
    | error error => exact safe_done
    | ok candidate => exact ih fun record' hrecord' => hpast' record' (List.mem_cons_of_mem _ hrecord')

theorem program_safe (request : LeaseRequest) (past : CommerceHistory ι) :
    leases.Safe perform start i request.program.run past fun _ _ => True := by
  cases request with
  | claimDue limit =>
    refine safe_bind ?_ fun _ _ => safe_done
    refine safe_call (fun _ => True) trivial (fun _ _ => trivial) fun past chance s now _ hnow => ?_
    refine safe_call (fun own => ∃ d ∈ own, told d = some now) ?_ (fun _ _ => trivial)
      fun past chance' s' records htold hrecords => ?_
    · rw [Pool.own_momentOf]
      exact ⟨_, List.mem_cons_self, by rw [Pool.momentOf, hnow]; rfl⟩
    · refine claimEach_safe fun record hrecord => ⟨?_, ?_⟩
      · rw [Pool.own_momentOf]
        exact htold.imp fun _ hd => ⟨List.mem_cons_of_mem _ hd.1, hd.2⟩
      · rw [Pool.own_momentOf]
        exact ⟨_, List.mem_cons_self, by rw [Pool.momentOf, hrecords]; exact hrecord⟩
  | markCompleted key owner response =>
    refine safe_call (fun _ => True) trivial (fun _ _ => rfl) fun past chance s rows _ _ => ?_
    split
    · exact safe_done
    · refine safe_call (fun _ => True) trivial (fun _ _ => trivial) fun past chance s row _ _ => ?_
      split <;> exact safe_done
  | markRetry key owner attempts message =>
    refine safe_bind ?_ fun _ _ => safe_done
    refine safe_call (fun _ => True) trivial (fun _ _ => trivial) fun past chance s now _ _ => ?_
    refine safe_call (fun _ => True) trivial (fun _ _ => rfl) fun past chance s rows _ _ => ?_
    split <;> exact safe_done

end Script

/-! ### The leases of one operation -/

/-- The lease that an update takes: its token and its attempt. -/
def OperationWrite.lease : OperationWrite → Option (RowId × ℕ)
  | claimed attempts token _ => some (token, attempts)
  | _ => none

/-- The retry time that `mark_retry` writes; `some none` for the last attempt. -/
def OperationWrite.retry : OperationWrite → Option (Option Instant)
  | retried attempts _ now =>
    some (if attempts ≥ maxAttempts then none else some (retryAt now attempts))
  | _ => none

/-- The update records that the operation has been carried out. -/
def OperationWrite.completes : OperationWrite → Bool
  | completed _ => true
  | _ => false

def grant (key : String) (m : CommerceMoment ι) : Option (RowId × ℕ) :=
  (operationWritten key m).bind OperationWrite.lease

/-- The retry time written by the `mark_retry` that was recorded last. -/
def lastRetry (key : String) (past : CommerceHistory ι) : Option Instant :=
  (past.findSome? fun m => (operationWritten key m).bind OperationWrite.retry).join

/-- Leases along a history: their attempts increase, none is granted before the retry time that
was recorded last, there are at most `maxAttempts`, and once the operation has been completed under
a lease it stays as it is. -/
structure LeaseBudget (key : String) (run : CommerceHistory ι) : Prop where
  increasing : (run.filterMap (grant key)).Pairwise fun later earlier => earlier.2 < later.2
  waits : Along (fun past m => grant key m ≠ none →
    ∀ retry, lastRetry key past = some retry → retry ≤ m.after.clock) run
  bounded : (run.filterMap (grant key)).length ≤ maxAttempts
  final : ∀ later earlier m, run = later ++ m :: earlier →
    (operationWritten key m).any OperationWrite.completes → ∀ m' ∈ later,
      m'.after.operations.get? key = m.after.operations.get? key ∧ operationWritten key m' = none

/-- The operation names an owner exactly while it is under a lease, and one whose token has been
drawn already. -/
structure LeaseReady (key : String) (s : CommerceStore) : Prop where
  owned : ∀ row, s.operations.get? key = some row →
    (row.status = .processing ↔ row.processingOwner.isSome)
  drawn : ∀ row token, s.operations.get? key = some row → row.processingOwner = some token →
    token < s.nextId

/-- The call tries to lease the operation. -/
def CommerceCall.leases (key : String) : CommerceCall → Bool
  | .updateOperation key' _ _ (.claimed ..) => key' == key
  | _ => false

/-- How far an operation has come within its attempt. -/
def phase : OperationStatus → ℕ
  | .pending => 0
  | .processing => 1
  | .failed => 2
  | .succeeded | .deadLetter => 3

/-- `later` has come further than `earlier`. -/
def Precedes (earlier later : Operation) : Prop :=
  earlier.attempts < later.attempts ∨
    earlier.attempts = later.attempts ∧ phase earlier.status < phase later.status

theorem Precedes.trans {a b c : Operation} (h : Precedes a b) (h' : Precedes b c) :
    Precedes a c := by
  unfold Precedes at *
  omega

theorem phase_of_isTerminal {status : OperationStatus} (h : status.isTerminal) :
    phase status = 3 := by
  cases status <;> first | rfl | cases h

theorem phase_lt_of_not_isTerminal {status : OperationStatus} (h : status.isTerminal = false) :
    phase status < 3 := by
  cases status <;> first | decide | cases h

section Moments

theorem operationsRead_eq {m : CommerceMoment ι} (h : m.Happened perform) {record : Operation}
    (hread : record ∈ operationsRead m) :
    m.before.operations.get? record.idempotencyKey = some record := by
  obtain ⟨i, s, c, ans, after⟩ := m
  rcases happened_cases h with ⟨e, herror, -⟩ | ⟨chance, hanswer, -⟩
  · simp only at herror
    subst herror
    cases c <;> cases hread
  simp only at hanswer
  subst hanswer
  cases c with
  | openOperations limit =>
    exact Table.get?_eq_some_iff.mpr
      ⟨(List.mem_filter.mp (List.mem_of_mem_take hread)).1, rfl⟩
  | _ => cases hread

theorem clock_le {m : CommerceMoment ι} (h : m.Happened perform) :
    m.before.clock ≤ m.after.clock := by
  obtain ⟨i, s, c, ans, after⟩ := m
  obtain ⟨chance, hanswer, hafter⟩ := h
  simp only at hanswer hafter
  subst hanswer hafter
  have hclock : (perform chance c s).2.clock = s.clock + chance.elapsed := by
    have hanswer : (answer chance c s).2.clock = s.clock + chance.elapsed := by
      cases c <;> simp only [answer, answerNow, counted, written] <;> (repeat' split) <;> rfl
    unfold perform
    split
    · split
      · rfl
      · exact hanswer
    · exact hanswer
  simp only [hclock]
  exact Nat.le_add_right _ _

theorem told_eq {m : CommerceMoment ι} (h : m.Happened perform) {now : Instant}
    (htold : told m = some now) : now = m.after.clock := by
  obtain ⟨i, s, c, ans, after⟩ := m
  rcases happened_cases h with ⟨e, herror, -⟩ | ⟨chance, hanswer, hafter⟩
  · simp only at herror
    subst herror
    cases c <;> cases htold
  simp only at hanswer hafter
  subst hanswer hafter
  cases c with
  | utcNow => exact (Option.some.inj htold).symm
  | _ => cases htold

/-- Fresh ids are drawn from the counter of the store. -/
theorem ids_counter : Counter perform CommerceStore.nextId (drawn (ι := ι)) where
  grows _ h := nextId_le h
  draws := by
    rintro ⟨i, s, c, ans, after⟩ token h hdraw
    rcases happened_cases h with ⟨e, herror, -⟩ | ⟨chance, hanswer, hafter⟩
    · simp only at herror
      subst herror
      cases c <;> cases hdraw
    simp only at hanswer hafter
    subst hanswer hafter
    cases c with
    | newUuid =>
      cases hdraw
      exact ⟨rfl, Nat.lt_succ_self _⟩
    | _ => cases hdraw

end Moments

section Invariant

variable [DecidableEq ι] {start : CommerceStore} {key : String}

/-- A call of a run of such calls. -/
abbrev Genuine (start : CommerceStore) :=
  Scripted (ι := ι) perform start fun _ => LeaseIssues

/-- When a pass leases an operation that is failed, and that it has read as failed, then it has read
it on its current attempt. -/
def LeasesCurrent (key : String) (past : CommerceHistory ι) (m : CommerceMoment ι) : Prop :=
  m.call.leases key → ∀ row ∈ m.before.operations.get? key, row.status = .failed →
    ∀ r ∈ History.own m.proc past, ∀ record ∈ operationsRead r, record.idempotencyKey = key →
      record.status = .failed → record.attempts = row.attempts

instance (key : String) (past : CommerceHistory ι) (m : CommerceMoment ι) :
    Decidable (LeasesCurrent key past m) :=
  inferInstanceAs (Decidable (m.call.leases key → ∀ row ∈ m.before.operations.get? key,
    row.status = .failed → ∀ r ∈ History.own m.proc past, ∀ record ∈ operationsRead r,
      record.idempotencyKey = key → record.status = .failed → record.attempts = row.attempts))

omit [DecidableEq ι] in
theorem grant_of_unchanged {m : CommerceMoment ι} (h : operationWritten key m = none) :
    grant key m = none := by
  simp [grant, h]

/-- The token that a call leases under. -/
def used : CommerceMoment ι → Option RowId
  | ⟨_, _, .updateOperation _ _ _ (.claimed _ token _), _, _⟩ => some token
  | _ => none

omit [DecidableEq ι] in
theorem used_of_grant {m : CommerceMoment ι} {lease : RowId × ℕ} (h : grant key m = some lease) :
    used m = some lease.1 := by
  obtain ⟨i, s, c, ans, after⟩ := m
  cases c with
  | updateOperation key' status owner write =>
    cases write with
    | claimed attempts token now =>
      simp only [grant, operationWritten] at h
      split at h
      · rename_i heq
        cases heq
        split at h
        · cases h
          rfl
        · cases h
      · cases h
    | deadLetterUnclaimed | completed | retried | resolved =>
      simp only [grant, operationWritten] at h
      split at h
      · rename_i heq
        cases heq
        split at h <;> cases h
      · cases h
  | _ => cases h

theorem fresh {past : CommerceHistory ι} (h : Along (Genuine start) past) :
    Fresh CommerceStore.nextId drawn used start past := by
  refine fresh_of_along ids_counter (h.mono fun _ _ hm => ⟨hm.before, hm.happened⟩)
    (h.mono fun past m hm token htoken => ?_)
  have hissues := hm.issues
  obtain ⟨i, s, c, ans, after⟩ := m
  cases c with
  | updateOperation key' status owner write =>
    cases write with
    | claimed attempts token' now =>
      cases htoken
      exact hissues.1
    | deadLetterUnclaimed | completed | retried | resolved => cases htoken
  | _ => cases htoken

omit [DecidableEq ι] in
private theorem grants_sublist (key : String) (past : CommerceHistory ι) :
    ((past.filterMap (grant key)).map Prod.fst).Sublist (past.filterMap used) := by
  induction past with
  | nil => exact List.Sublist.slnil
  | cons m past ih =>
    cases hgrant : grant key m with
    | none =>
      rw [List.filterMap_cons_none hgrant]
      cases hused : used m with
      | none => rwa [List.filterMap_cons_none hused]
      | some token =>
        rw [List.filterMap_cons_some hused]
        exact ih.cons _
    | some lease =>
      rw [List.filterMap_cons_some hgrant, List.filterMap_cons_some (used_of_grant hgrant)]
      exact ih.cons_cons _

/-- The lease that a record is under is one that the run has granted, or the one from before. -/
def Leased (key : String) (start : CommerceStore) (past : CommerceHistory ι)
    (lease : RowId × ℕ) : Prop :=
  lease ∈ past.filterMap (grant key) ∨
    ∃ row, start.operations.get? key = some row ∧ row.processingOwner = some lease.1 ∧
      row.attempts = lease.2

/-- A lease's token tells its attempt. -/
theorem Leased.unique {past : CommerceHistory ι} (h : Along (Genuine start) past)
    (hstart : LeaseReady key start) {token : RowId} {attempts attempts' : ℕ}
    (hlease : Leased key start past (token, attempts))
    (hlease' : Leased key start past (token, attempts')) : attempts = attempts' := by
  have hfresh := fresh h
  have hgrants := hfresh.distinct.sublist (grants_sublist key past)
  have hnew : ∀ n, (token, n) ∈ past.filterMap (grant key) → start.nextId ≤ token := by
    intro n hmem
    exact (hfresh.used token
      ((grants_sublist key past).subset (List.mem_map_of_mem hmem))).1
  rcases hlease with hmem | ⟨row, hrow, howner, hattempts⟩ <;>
    rcases hlease' with hmem' | ⟨row', hrow', howner', hattempts'⟩
  · exact (Prod.ext_iff.mp (List.inj_on_of_nodup_map hgrants hmem hmem' rfl)).2
  · exact absurd (hstart.drawn row' token hrow' howner') (Nat.not_lt_of_le (hnew _ hmem))
  · exact absurd (hstart.drawn row token hrow howner) (Nat.not_lt_of_le (hnew _ hmem'))
  · obtain rfl := Option.some.inj (hrow.symm.trans hrow')
    exact hattempts.symm.trans hattempts'

omit [DecidableEq ι] in
theorem Leased.cons {past : CommerceHistory ι} {lease : RowId × ℕ}
    (h : Leased key start past lease) (m : CommerceMoment ι) :
    Leased key start (m :: past) lease := by
  refine h.imp (fun hmem => ?_) fun hold => hold
  rw [List.filterMap_cons]
  split
  · exact hmem
  · exact List.mem_cons_of_mem _ hmem

/-- What an operation always looks like: it names an owner exactly while it is under a lease, which
is then on the attempt of that lease. -/
structure Formed (key : String) (start : CommerceStore) (past : CommerceHistory ι)
    (record : Operation) : Prop where
  owned : record.status = .processing ↔ record.processingOwner.isSome
  leased : ∀ token, record.processingOwner = some token →
    Leased key start past (token, record.attempts)

omit [DecidableEq ι] in
theorem Formed.cons {past : CommerceHistory ι} {record : Operation}
    (h : Formed key start past record) (m : CommerceMoment ι) :
    Formed key start (m :: past) record :=
  ⟨h.owned, fun token htoken => (h.leased token htoken).cons m⟩

/-- The leases of a history carry increasing attempts, everything that has been read is at most as
far as the operation is now, and a retry time that has not passed is still on it. -/
structure Ordered (key : String) (start : CommerceStore) (past : CommerceHistory ι) : Prop where
  increasing : (past.filterMap (grant key)).Pairwise fun later earlier => earlier.2 < later.2
  latest : ∀ row, (past.store start).operations.get? key = some row →
    Formed key start past row ∧ ∀ lease ∈ past.filterMap (grant key), lease.2 ≤ row.attempts
  reads : ∀ m ∈ past, ∀ record ∈ operationsRead m, record.idempotencyKey = key →
    Formed key start past record ∧ ∃ row, (past.store start).operations.get? key = some row ∧
      (record = row ∨ Precedes record row ∧ row.status ≠ .pending)
  absent : (past.store start).operations.get? key = none →
    past.filterMap (grant key) = [] ∧ lastRetry key past = none
  retry : ∀ row, (past.store start).operations.get? key = some row →
    ∀ time, lastRetry key past = some time →
      (row.status = .failed ∧ row.nextAttemptAt = some time) ∨
        (row.status = .processing ∧ time ≤ (past.store start).clock) ∨ phase row.status = 3

theorem told_le {past : CommerceHistory ι} (h : Along (Genuine start) past) {m : CommerceMoment ι}
    (hm : m ∈ past) {now : Instant} (htold : told m = some now) :
    now ≤ (past.store start).clock := by
  induction past with
  | nil => simp at hm
  | cons latest past ih =>
    rw [History.store_cons]
    rcases List.mem_cons.mp hm with rfl | hold
    · exact Nat.le_of_eq (told_eq h.1.happened htold)
    · have hclock := ih h.2 hold
      rw [← h.1.before] at hclock
      exact Nat.le_trans hclock (clock_le h.1.happened)

/-- A pass that leases an operation as it has read it has read it as it is. -/
theorem leases_row {past : CommerceHistory ι} {m : CommerceMoment ι}
    (h : Along (Genuine start) (m :: past)) (hstart : LeaseReady key start)
    (hordered : Ordered key start past) (hcurrent : LeasesCurrent key past m) {row : Operation}
    (hrow : m.before.operations.get? key = some row) (hleases : m.call.leases key)
    {now : Instant} {record : Operation} (hcandidate : HasCandidate (History.own m.proc past) now record)
    (hkey : record.idempotencyKey = key) (hstatus : row.status = record.status)
    (howner : row.processingOwner = record.processingOwner) (heligible : record.eligible now) :
    record = row := by
  obtain ⟨r, hr, hread⟩ := hcandidate.read
  have hpast := (History.mem_own.mp hr).1
  have hrow' : (past.store start).operations.get? key = some row := by rw [← h.1.before, hrow]
  obtain ⟨hformed, row', hrow'', holder⟩ := hordered.reads r hpast record hread hkey
  obtain rfl := Option.some.inj (hrow'.symm.trans hrow'')
  rcases holder with heq | ⟨hprecedes, hpending⟩
  · exact heq
  exfalso
  have hattempts : record.attempts = row.attempts := by
    cases hcase : row.status with
    | pending => exact absurd hcase hpending
    | processing =>
      -- the owner names the lease, and the lease its attempt
      have hformed' := (hordered.latest row hrow').1
      obtain ⟨token, htoken⟩ := Option.isSome_iff_exists.mp (hformed'.owned.mp hcase)
      exact (hformed.leased token (howner ▸ htoken)).unique h.2 hstart (hformed'.leased token htoken)
    | failed => exact hcurrent hleases row hrow hcase r hr record hread hkey (hstatus ▸ hcase)
    | succeeded | deadLetter =>
      rw [hcase] at hstatus
      simp [Operation.eligible, ← hstatus] at heligible
  rcases hprecedes with hlt | ⟨-, hphase⟩
  · exact absurd hattempts (Nat.ne_of_lt hlt)
  · rw [hstatus] at hphase
    exact absurd hphase (Nat.lt_irrefl _)

/-- What an update that a call of the queue makes does to the operation: it moves it forward, and a
lease moves it by one attempt, and waits for the retry time on it. -/
structure Advance (row : Operation) (write : OperationWrite) (now : Instant) : Prop where
  precedes : Precedes row (write.apply row)
  pending : (write.apply row).status ≠ .pending
  budget : ∀ lease, write.lease = some lease → lease.2 = row.attempts + 1 ∧ lease.2 ≤ maxAttempts
  waits : ∀ lease, write.lease = some lease → row.status.isTerminal = false ∧
    ∀ time, row.status = .failed → row.nextAttemptAt = some time → time ≤ now

theorem advance_of_update {past : CommerceHistory ι} {m : CommerceMoment ι}
    (h : Along (Genuine start) (m :: past)) (hstart : LeaseReady key start)
    (hordered : Ordered key start past) (hcurrent : LeasesCurrent key past m) {row : Operation}
    {write : OperationWrite}
    (hcall : m.call = .updateOperation key row.status row.processingOwner write)
    (hrow : m.before.operations.get? key = some row) : Advance row write m.after.clock := by
  have hissues := h.1.issues
  rw [hcall] at hissues
  cases write with
  | claimed attempts token now =>
    obtain ⟨-, record, hcandidate, hkey, hstatus, howner, heligible, hattempts, hbudget⟩ := hissues
    obtain rfl := leases_row h hstart hordered hcurrent hrow (by rw [hcall]; simp [CommerceCall.leases])
      hcandidate hkey hstatus howner heligible
    refine ⟨.inl ?_, (fun h => by cases h), ?_, ?_⟩
    · rw [OperationWrite.apply, hattempts]
      exact Nat.lt_succ_self _
    · rintro lease ⟨⟩
      exact ⟨hattempts, hbudget⟩
    · rintro lease ⟨⟩
      refine ⟨isTerminal_of_eligible heligible, fun time hfailed htime => ?_⟩
      obtain ⟨d, hd, htold⟩ := hcandidate.told
      have htold' : now ≤ m.before.clock := by
        rw [h.1.before]
        exact told_le h.2 (History.mem_own.mp hd).1 htold
      have hdue : time ≤ now := by
        simpa [Operation.eligible, hfailed, htime] using heligible
      exact Nat.le_trans hdue (Nat.le_trans htold' (clock_le h.1.happened))
  | deadLetterUnclaimed reason =>
    exact ⟨.inr ⟨rfl, phase_lt_of_not_isTerminal hissues⟩, (fun h => by cases h), (fun _ h => by cases h),
      (fun _ h => by cases h)⟩
  | completed response =>
    have hstatus : row.status = .processing := hissues
    exact ⟨.inr ⟨rfl, by simp [hstatus, phase, OperationWrite.apply]⟩, (fun h => by cases h), (fun _ h => by cases h),
      (fun _ h => by cases h)⟩
  | retried attempts message now =>
    have hstatus : row.status = .processing := hissues
    refine ⟨.inr ?_, ?_, (fun _ h => by cases h), (fun _ h => by cases h)⟩
    · rw [hstatus, OperationWrite.apply]
      split <;> exact ⟨rfl, by simp [phase]⟩
    · rw [OperationWrite.apply]
      split <;> exact fun h => by cases h
  | resolved => exact hissues.elim

omit [DecidableEq ι] in
theorem lastRetry_cons_of_none {m : CommerceMoment ι}
    (h : (operationWritten key m).bind OperationWrite.retry = none) (past : CommerceHistory ι) :
    lastRetry key (m :: past) = lastRetry key past := by
  simp [lastRetry, h]

omit [DecidableEq ι] in
theorem lastRetry_cons_of_some {m : CommerceMoment ι} {retry : Option Instant}
    (h : (operationWritten key m).bind OperationWrite.retry = some retry)
    (past : CommerceHistory ι) : lastRetry key (m :: past) = retry := by
  simp [lastRetry, h]

/-- A lease granted after `past` respects the latest retry time. -/
def Waits (key : String) (past : CommerceHistory ι) (m : CommerceMoment ι) : Prop :=
  grant key m ≠ none → ∀ retry, lastRetry key past = some retry → retry ≤ m.after.clock

private theorem Ordered.unchanged {past : CommerceHistory ι} {m : CommerceMoment ι}
    (h : Genuine start past m) (hordered : Ordered key start past)
    (hafter : m.after.operations.get? key = m.before.operations.get? key)
    (hwritten : operationWritten key m = none) : Ordered key start (m :: past) := by
  have hgrants : (m :: past).filterMap (grant key) = past.filterMap (grant key) :=
    List.filterMap_cons_none (grant_of_unchanged hwritten)
  have hretry : lastRetry key (m :: past) = lastRetry key past :=
    lastRetry_cons_of_none (by simp [hwritten]) past
  have hrow : m.after.operations.get? key = (past.store start).operations.get? key := by
    rw [hafter, h.before]
  have hclock : (past.store start).clock ≤ m.after.clock := by
    rw [← h.before]
    exact clock_le h.happened
  constructor
  · rw [hgrants]
    exact hordered.increasing
  · rw [hgrants, History.store_cons, hrow]
    intro row hget
    obtain ⟨hformed, hle⟩ := hordered.latest row hget
    exact ⟨hformed.cons m, hle⟩
  · rw [History.store_cons, hrow]
    refine List.forall_mem_cons.mpr ⟨fun record hread hkey => ?_, fun r hr record hread hkey => ?_⟩
    · have hget := operationsRead_eq h.happened hread
      rw [h.before, hkey] at hget
      exact ⟨(hordered.latest record hget).1.cons m, record, hget, .inl rfl⟩
    · obtain ⟨hformed, hrest⟩ := hordered.reads r hr record hread hkey
      exact ⟨hformed.cons m, hrest⟩
  · rw [hgrants, hretry, History.store_cons, hrow]
    exact hordered.absent
  · rw [hretry, History.store_cons, hrow]
    intro row hget time htime
    rcases hordered.retry row hget time htime with hfailed | ⟨hprocessing, hle⟩ | hphase
    · exact .inl hfailed
    · exact .inr (.inl ⟨hprocessing, Nat.le_trans hle hclock⟩)
    · exact .inr (.inr hphase)

omit [DecidableEq ι] in
/-- An update keeps the form of the operation, under the lease that it takes if it takes one. -/
private theorem Formed.updated {past : CommerceHistory ι} {m : CommerceMoment ι} {row : Operation}
    {write : OperationWrite} (hwritten : operationWritten key m = some write)
    (hpending : (write.apply row).status ≠ .pending) :
    Formed key start (m :: past) (write.apply row) := by
  cases write with
  | claimed attempts token now =>
    refine ⟨⟨fun _ => rfl, fun _ => rfl⟩, ?_⟩
    rintro token' ⟨⟩
    refine .inl ?_
    rw [List.filterMap_cons_some  (by rw [grant, hwritten]; rfl)]
    exact List.mem_cons_self
  | deadLetterUnclaimed | completed => exact ⟨⟨(fun h => by cases h), (fun h => by cases h)⟩, fun _ h => by cases h⟩
  | retried attempts message now =>
    rw [OperationWrite.apply]
    split <;> exact ⟨⟨(fun h => by cases h), (fun h => by cases h)⟩, fun _ h => by cases h⟩
  | resolved succeeded response message =>
    refine ⟨⟨fun h => ?_, (fun h => by cases h)⟩, fun _ h => by cases h⟩
    simp only [OperationWrite.apply] at h
    split at h <;> cases h

private theorem Ordered.updated {past : CommerceHistory ι} {m : CommerceMoment ι} {row : Operation}
    {write : OperationWrite} (h : Genuine start past m) (hordered : Ordered key start past)
    (hissues : ∀ succeeded response message, write ≠ .resolved succeeded response message)
    (hbefore : m.before.operations.get? key = some row)
    (hafter : m.after.operations.get? key = some (write.apply row))
    (hwritten : operationWritten key m = some write) (hadvance : Advance row write m.after.clock) :
    Ordered key start (m :: past) ∧ Waits key past m := by
  rw [h.before] at hbefore
  have hgrant : grant key m = write.lease := by rw [grant, hwritten]; rfl
  have hclock : (past.store start).clock ≤ m.after.clock := by
    rw [← h.before]
    exact clock_le h.happened
  have hattempts : row.attempts ≤ (write.apply row).attempts := by
    rcases hadvance.precedes with hlt | ⟨heq, -⟩
    · exact Nat.le_of_lt hlt
    · exact Nat.le_of_eq heq
  obtain ⟨-, hlatest⟩ := hordered.latest row hbefore
  have hwaits : Waits key past m := by
    intro hne time htime
    obtain ⟨lease, hlease⟩ := Option.ne_none_iff_exists'.mp hne
    obtain ⟨hopen, hdue⟩ := hadvance.waits lease (hgrant ▸ hlease)
    rcases hordered.retry row hbefore time htime with ⟨hfailed, hnext⟩ | ⟨-, hle⟩ | hphase
    · exact hdue time hfailed hnext
    · exact Nat.le_trans hle hclock
    · exact absurd hphase (Nat.ne_of_lt (phase_lt_of_not_isTerminal hopen))
  refine ⟨⟨?_, ?_, ?_, ?_, ?_⟩, hwaits⟩
  · rw [List.filterMap_cons, hgrant]
    cases hcase : write.lease with
    | none => exact hordered.increasing
    | some lease =>
      refine List.pairwise_cons.mpr ⟨fun lease' hmem => ?_, hordered.increasing⟩
      rw [(hadvance.budget lease hcase).1]
      exact Nat.lt_succ_of_le (hlatest lease' hmem)
  · rw [History.store_cons, hafter, List.filterMap_cons, hgrant]
    rintro _ ⟨⟩
    refine ⟨Formed.updated hwritten hadvance.pending, ?_⟩
    have hold : ∀ lease' ∈ past.filterMap (grant key), lease'.2 ≤ (write.apply row).attempts :=
      fun lease' hmem => Nat.le_trans (hlatest lease' hmem) hattempts
    cases write with
    | claimed attempts token => exact List.forall_mem_cons.mpr ⟨Nat.le_refl _, hold⟩
    | deadLetterUnclaimed | completed | retried | resolved => exact hold
  · rw [History.store_cons, hafter]
    refine List.forall_mem_cons.mpr ⟨fun record hread hkey => ?_, fun r hr record hread hkey => ?_⟩
    · have hget := operationsRead_eq h.happened hread
      rw [h.before, hkey, hbefore] at hget
      obtain rfl := Option.some.inj hget
      exact ⟨(hordered.latest row hbefore).1.cons m, _, rfl, .inr ⟨hadvance.precedes, hadvance.pending⟩⟩
    · obtain ⟨hformed, row', hrow', hle⟩ := hordered.reads r hr record hread hkey
      obtain rfl := Option.some.inj (hbefore.symm.trans hrow')
      refine ⟨hformed.cons m, _, rfl, .inr ⟨?_, hadvance.pending⟩⟩
      rcases hle with rfl | ⟨hlt, -⟩
      · exact hadvance.precedes
      · exact hlt.trans hadvance.precedes
  · rw [History.store_cons, hafter]
    exact nofun
  · rw [History.store_cons, hafter]
    rintro _ ⟨⟩ time htime
    cases write with
    | claimed =>
      rw [lastRetry_cons_of_none (by simp [hwritten, OperationWrite.retry])] at htime
      exact .inr (.inl ⟨rfl, hwaits (by simp [hgrant, OperationWrite.lease]) time htime⟩)
    | retried attempts message now =>
      rw [lastRetry_cons_of_some (by rw [hwritten]; rfl)] at htime
      split at htime
      · cases htime
      · rename_i hbudget
        simp only [OperationWrite.apply, hbudget, if_false]
        exact .inl ⟨trivial, htime⟩
    | deadLetterUnclaimed | completed => exact .inr (.inr rfl)
    | resolved succeeded response message => exact absurd rfl (hissues _ _ _)

theorem ordered_step {past : CommerceHistory ι} {m : CommerceMoment ι}
    (h : Along (Genuine start) (m :: past)) (hstart : LeaseReady key start)
    (hordered : Ordered key start past) (hcurrent : LeasesCurrent key past m) :
    Ordered key start (m :: past) ∧ Waits key past m ∧
      ∀ lease, grant key m = some lease → 1 ≤ lease.2 ∧ lease.2 ≤ maxAttempts := by
  rcases operationChange h.1.happened (isLeaseCall_of_issues h.1.issues) key with
    ⟨hafter, hwritten⟩ | ⟨write, row, hcall, hbefore, hafter, hwritten⟩
  · have hgrant := grant_of_unchanged hwritten
    refine ⟨hordered.unchanged h.1 hafter hwritten, fun hne => absurd hgrant hne, ?_⟩
    rw [hgrant]
    exact nofun
  · have hadvance := advance_of_update h hstart hordered hcurrent hcall hbefore
    have hissues := h.1.issues
    rw [hcall] at hissues
    obtain ⟨hordered', hwaits⟩ := hordered.updated h.1
      (by rintro succeeded response message rfl; exact hissues) hbefore hafter hwritten hadvance
    refine ⟨hordered', hwaits, fun lease hlease => ?_⟩
    obtain ⟨hattempts, hbudget⟩ := hadvance.budget lease (by rwa [grant, hwritten] at hlease)
    exact ⟨by omega, hbudget⟩

/-- As long as failed operations are leased on their current attempt, attempts increase and leases
wait. -/
theorem ordered_of_current {run : CommerceHistory ι} (h : Along (Genuine start) run)
    (hstart : LeaseReady key start) (hcurrent : Along (LeasesCurrent key) run) :
    Ordered key start run ∧ Along (Waits key) run ∧
      ∀ lease ∈ run.filterMap (grant key), 1 ≤ lease.2 ∧ lease.2 ≤ maxAttempts := by
  induction run with
  | nil =>
    refine ⟨⟨List.Pairwise.nil, fun row hrow => ⟨⟨hstart.owned row hrow, fun token htoken => ?_⟩, ?_⟩,
      ?_, fun _ => ⟨rfl, rfl⟩, ?_⟩, trivial, ?_⟩
    · exact .inr ⟨row, hrow, htoken, rfl⟩
    · exact fun lease hmem => absurd hmem List.not_mem_nil
    · exact fun m hmem => absurd hmem List.not_mem_nil
    · exact fun row _ time htime => by simp [lastRetry] at htime
    · exact fun lease hmem => absurd hmem List.not_mem_nil
  | cons m past ih =>
    obtain ⟨hordered, hwaits, hbounds⟩ := ih h.2 hcurrent.2
    obtain ⟨hordered', hwaits', hbounds'⟩ := ordered_step h hstart hordered hcurrent.1
    refine ⟨hordered', ⟨hwaits', hwaits⟩, fun lease hlease => ?_⟩
    rw [List.filterMap_cons] at hlease
    split at hlease
    · exact hbounds lease hlease
    · rename_i lease' hgrant
      rcases List.mem_cons.mp hlease with rfl | hmem
      · exact hbounds' lease hgrant
      · exact hbounds lease hmem

omit [DecidableEq ι] in
/-- Increasing attempts between one and `maxAttempts` are at most `maxAttempts` many. -/
theorem grants_bounded {run : CommerceHistory ι}
    (hincreasing : (run.filterMap (grant key)).Pairwise fun later earlier => earlier.2 < later.2)
    (hbounds : ∀ lease ∈ run.filterMap (grant key), 1 ≤ lease.2 ∧ lease.2 ≤ maxAttempts) :
    (run.filterMap (grant key)).length ≤ maxAttempts := by
  have hnodup : ((run.filterMap (grant key)).map Prod.snd).Nodup :=
    List.pairwise_map.mpr (hincreasing.imp fun hlt => Nat.ne_of_gt hlt)
  have hsubset :
      ((run.filterMap (grant key)).map Prod.snd).toFinset ⊆ Finset.Icc 1 maxAttempts := by
    intro attempts hmem
    obtain ⟨lease, hlease, rfl⟩ := List.mem_map.mp (List.mem_toFinset.mp hmem)
    exact Finset.mem_Icc.mpr (hbounds lease hlease)
  have hcard := Finset.card_le_card hsubset
  rwa [List.toFinset_card_of_nodup hnodup, List.length_map, Nat.card_Icc] at hcard

/-- Nothing on the queue touches an operation that has been carried out. -/
theorem succeeded_step {past : CommerceHistory ι} {m : CommerceMoment ι} (h : Genuine start past m)
    {row : Operation} (hrow : m.before.operations.get? key = some row)
    (hstatus : row.status = .succeeded) :
    m.after.operations.get? key = some row ∧ operationWritten key m = none := by
  rcases operationChange h.happened (isLeaseCall_of_issues h.issues) key with
    ⟨hafter, hwritten⟩ | ⟨write, row', hcall, hbefore, -, -⟩
  · exact ⟨hafter.trans hrow, hwritten⟩
  · exfalso
    obtain rfl := Option.some.inj (hbefore.symm.trans hrow)
    have hissues := h.issues
    rw [hcall, hstatus] at hissues
    cases write with
    | claimed =>
      obtain ⟨-, record, -, -, hread, -, heligible, -⟩ := hissues
      have hopen := isTerminal_of_eligible heligible
      rw [← hread] at hopen
      cases hopen
    | deadLetterUnclaimed | completed | retried => cases hissues
    | resolved => exact hissues

theorem succeeded_final {later earlier : CommerceHistory ι}
    (h : Along (Genuine start) (later ++ earlier)) {row : Operation}
    (hrow : (earlier.store start).operations.get? key = some row)
    (hstatus : row.status = .succeeded) :
    (History.store start (later ++ earlier)).operations.get? key = some row ∧
      ∀ m ∈ later, m.after.operations.get? key = some row ∧ operationWritten key m = none := by
  induction later with
  | nil => exact ⟨hrow, fun m hmem => absurd hmem List.not_mem_nil⟩
  | cons m later ih =>
    rw [List.cons_append] at h ⊢
    obtain ⟨hstore, hlater⟩ := ih h.2
    have hstep := succeeded_step h.1 (by rw [h.1.before, hstore]) hstatus
    exact ⟨hstep.1, List.forall_mem_cons.mpr ⟨hstep, hlater⟩⟩

theorem completed_succeeded {past : CommerceHistory ι} {m : CommerceMoment ι}
    (h : Genuine start past m) (hcompletes : (operationWritten key m).any OperationWrite.completes) :
    ∃ row, m.after.operations.get? key = some row ∧ row.status = .succeeded := by
  rcases operationChange h.happened (isLeaseCall_of_issues h.issues) key with
    ⟨-, hwritten⟩ | ⟨write, row, -, -, hafter, hwritten⟩
  · simp [hwritten] at hcompletes
  · rw [hwritten] at hcompletes
    cases write with
    | completed response => exact ⟨_, hafter, rfl⟩
    | deadLetterUnclaimed | claimed | retried | resolved => cases hcompletes

/-- Passes, completions and retries run together, on any operations, and any statement may fail. The
leases of each operation keep to their budget in every run in which it is leased on its current
attempt whenever it is found failed again. -/
theorem lease_budget {requests : ι → LeaseRequest} (hstart : LeaseReady key start)
    (schedule : List (ι × Chance))
    (hcurrent : Along (LeasesCurrent key) (serveLeases requests start schedule).history) :
    LeaseBudget key (serveLeases requests start schedule).history := by
  have hgenuine : Along (Genuine start) (serveLeases requests start schedule).history :=
    exec_scripted (fun i => program_safe (requests i) []) schedule
  obtain ⟨hordered, hwaits, hbounds⟩ := ordered_of_current hgenuine hstart hcurrent
  refine ⟨hordered.increasing, hwaits, grants_bounded hordered.increasing hbounds, ?_⟩
  intro later earlier m hrun hcompletes m' hm'
  rw [hrun] at hgenuine
  obtain ⟨row, hrow, hstatus⟩ := completed_succeeded hgenuine.earlier.1 hcompletes
  rw [hrow]
  exact (succeeded_final hgenuine hrow hstatus).2 m' hm'

end Invariant

section Example

/-- The queue with one operation on it, which no pass has looked at yet. -/
def oneOperation : CommerceStore :=
  ⟨.empty, .empty, ⟨[.fresh 0 "acct_1" "op_1"], List.pairwise_singleton _ _⟩, 0, 0⟩

theorem oneOperation_ready : LeaseReady "op_1" oneOperation := by
  constructor
  · intro row hrow
    cases hrow
    decide
  · intro row token hrow htoken
    cases hrow
    cases htoken

/-- Three passes, and the failures of the first attempt and of the second. -/
def threePasses : Fin 5 → LeaseRequest
  | 1 => .markRetry "op_1" 0 1 "timeout"
  | 4 => .markRetry "op_1" 2 2 "timeout"
  | _ => .claimDue 1

/-- Turns without a failure, each after some time. -/
def leaseTurns {ι : Type} (turns : List (ι × ℕ)) : List (ι × Chance) :=
  turns.map fun turn => (turn.1, { elapsed := turn.2 })

/-- The second pass stalls after it has read the first failure, and leases the operation after the
third has leased it and failed: two leases carry attempt 2. -/
theorem lease_budget_fails_stalled :
    LeaseReady "op_1" oneOperation ∧
      ¬ LeaseBudget "op_1" (serveLeases threePasses oneOperation (leaseTurns
        [(0, 0), (0, 0), (0, 0), (0, 0), (1, 0), (1, 0), (2, 30 * nanosPerSecond), (2, 0), (2, 0),
          (3, 0), (3, 0), (3, 0), (3, 0), (4, 0), (4, 0), (2, 0)])).history := by
  refine ⟨oneOperation_ready, fun h => ?_⟩
  have hgrants : List.filterMap (grant "op_1") (serveLeases threePasses oneOperation (leaseTurns
      [(0, 0), (0, 0), (0, 0), (0, 0), (1, 0), (1, 0), (2, 30 * nanosPerSecond), (2, 0), (2, 0),
        (3, 0), (3, 0), (3, 0), (3, 0), (4, 0), (4, 0), (2, 0)])).history =
      [(1, 2), (2, 2), (0, 1)] := by decide +kernel
  have hincreasing := h.increasing
  rw [hgrants] at hincreasing
  exact absurd ((List.pairwise_cons.mp hincreasing).1 (2, 2) List.mem_cons_self) (Nat.lt_irrefl 2)

/-- When the second pass does not stall, its lease is the second attempt. -/
theorem lease_budget_in_turn :
    LeaseBudget "op_1" (serveLeases threePasses oneOperation (leaseTurns
      [(0, 0), (0, 0), (0, 0), (0, 0), (1, 0), (1, 0), (2, 30 * nanosPerSecond), (2, 0), (2, 0),
        (2, 0), (3, 0), (3, 0)])).history :=
  lease_budget oneOperation_ready _ (by decide +kernel)

end Example

end Commerce

end Products
