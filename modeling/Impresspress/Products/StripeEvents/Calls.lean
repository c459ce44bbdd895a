import Impresspress.Concurrent.Script
import Impresspress.Products.StripeEvents.Ledger

/-!
# The statements that the event functions issue

What the functions of the event ledger send to the store, whatever they are answered: a lease
is taken under a token that the call has drawn itself and against the row it last read, a
completion or a failure names the owner the call was given, and only a failed row is reset.

## Main definitions

* `Products.StripeEvents.grantOf`: the lease that a statement took.
* `Products.StripeEvents.Issues`: what a call of each kind may issue.

## Main results

* `Products.StripeEvents.serve_genuine`: every statement of every run is of that kind.
* `Products.StripeEvents.serve_earned`: what a call returns, a statement of it has obtained.
-/

namespace Products

namespace StripeEvents

open Concurrent Discipline

variable {ι : Type}

/-- The lease that an update takes: its token and its attempt number. -/
def EventWrite.lease : EventWrite → Option (Uuid × ℕ)
  | claim attempts owner .. => some (owner, attempts)
  | _ => none

/-- The lease that a freshly inserted row is under. -/
def EventRow.lease (row : EventRow) : Option (Uuid × ℕ) :=
  row.processingOwner.map fun owner => (owner, row.attempts)

/-- The lease that a statement took. -/
def grantOf : (c : EventCall) → EventAnswer c → Option (Uuid × ℕ)
  | .insertIgnore row, rows => if (rows : ℕ) = 1 then row.lease else none
  | .update _ _ write, rows => if (rows : ℕ) = 1 then write.lease else none
  | _, _ => none

/-- The update that a statement carried out. -/
def writtenOf : (c : EventCall) → EventAnswer c → Option EventWrite
  | .update _ _ write, rows => if (rows : ℕ) = 1 then some write else none
  | _, _ => none

/-- The row that a statement read. -/
def readOf : (c : EventCall) → EventAnswer c → Option EventRow
  | .get, row => row
  | _, _ => none

/-- The token that a call drew. -/
def drawOf : (c : EventCall) → EventAnswer c → Option Uuid
  | .newUuid, token => some token
  | _, _ => none

/-- The time that a call was told. -/
def clockOf : (c : EventCall) → EventAnswer c → Option Instant
  | .utcNow, now => some now
  | _, _ => none

abbrev EventMoment (ι : Type) := Moment ι EventStore EventAnswer

abbrev EventHistory (ι : Type) := History ι EventStore EventAnswer

def grant (m : EventMoment ι) : Option (Uuid × ℕ) := grantOf m.call m.answer

def written (m : EventMoment ι) : Option EventWrite := writtenOf m.call m.answer

def read (m : EventMoment ι) : Option EventRow := readOf m.call m.answer

def draw (m : EventMoment ι) : Option Uuid := drawOf m.call m.answer

def told (m : EventMoment ι) : Option Instant := clockOf m.call m.answer

/-- The row that was read last. -/
def lastRead (own : EventHistory ι) : Option EventRow := own.findSome? read

/-- A token has been drawn, and no lease has been taken yet. -/
structure Bidding (own : EventHistory ι) (token : Uuid) : Prop where
  drew : ∃ m ∈ own, draw m = some token
  unclaimed : ∀ m ∈ own, grant m = none

/-- The time `now` has been told. -/
def Told (own : EventHistory ι) (now : Instant) : Prop := ∃ m ∈ own, told m = some now

/-- What a call that serves `request` and has so far done `own` may issue next. -/
def Issues (request : EventRequest) (own : EventHistory ι) : EventCall → Prop
  | .utcNow => True
  | .newUuid => True
  | .get => True
  | .insertIgnore row => row.status = .processing ∧ row.attempts = 1 ∧
      ∃ token, row.processingOwner = some token ∧ Bidding own token
  | .update status owner (.claim attempts token now ..) => Bidding own token ∧ Told own now ∧
      ∃ existing, lastRead own = some existing ∧ status = existing.status ∧
        owner = some existing.processingOwner ∧ notEligible existing now = none ∧
        attempts = existing.attempts + 1 ∧ attempts ≤ maxAttempts
  | .update status owner (.exhausted _ now) => ∃ existing, lastRead own = some existing ∧
      status = existing.status ∧ owner = some existing.processingOwner ∧
      notEligible existing now = none
  | .update status owner (.processed _) =>
      ∃ token, request = .processed token ∧ status = .processing ∧ owner = some (some token)
  | .update status owner (.failed attempts error _) =>
      ∃ token, request = .failed token attempts error ∧ status = .processing ∧
        owner = some (some token)
  | .update status owner .replay => owner = none ∧ (status = .failed ∨ status = .deadLetter) ∧
      ∃ settings eventId eventType account livemode,
        request = .replay settings eventId eventType account livemode

/-- A returned claim is a lease that has been taken. -/
def ClaimTaken (own : EventHistory ι) (result : Except WaferError EventRecordState) : Prop :=
  ∀ token attempts, result = .ok (.claimed token attempts) →
    ∃ m ∈ own, grant m = some (token, attempts)

/-- The update completes the event. -/
def EventWrite.completes : EventWrite → Bool
  | processed _ => true
  | _ => false

/-- The update records a failed attempt. -/
def EventWrite.fails : EventWrite → Bool
  | failed .. => true
  | _ => false

/-- What a call returns, it has earned: a claim by the lease it took, a completion or a failure
by the update it carried out. -/
def Earned (request : EventRequest) (own : EventHistory ι) : EventOutcome → Prop
  | .recorded result => ClaimTaken own result
  | .marked (.ok _) => ∃ m ∈ own, ∃ write, written m = some write ∧
      (∀ owner, request = .processed owner → write.completes) ∧
      (∀ owner attempts error, request = .failed owner attempts error → write.fails)
  | .marked (.error _) => True

theorem Bidding.cons {own : EventHistory ι} {token : Uuid} {m : EventMoment ι}
    (h : Bidding own token) (hm : grant m = none) : Bidding (m :: own) token where
  drew := h.drew.imp fun _ hd => ⟨List.mem_cons_of_mem _ hd.1, hd.2⟩
  unclaimed := List.forall_mem_cons.mpr ⟨hm, h.unclaimed⟩

theorem Told.cons {own : EventHistory ι} {now : Instant} (h : Told own now) (m : EventMoment ι) :
    Told (m :: own) now :=
  h.imp fun _ hd => ⟨List.mem_cons_of_mem _ hd.1, hd.2⟩

theorem lastRead_cons {m : EventMoment ι} {row : EventRow} (h : read m = some row)
    (own : EventHistory ι) : lastRead (m :: own) = some row := by
  simp [lastRead, h]

theorem notEligible_ne_claimed {existing : EventRow} {now : Instant} {token : Uuid}
    {attempts : ℕ} : notEligible existing now ≠ some (.claimed token attempts) := by
  unfold notEligible
  cases existing.status <;> simp

theorem claimTaken_cons {m : EventMoment ι} {token : Uuid} {attempts : ℕ}
    (h : grant m = some (token, attempts)) (own : EventHistory ι) :
    ClaimTaken (m :: own) (.ok (.claimed token attempts)) := by
  rintro token' attempts' heq
  cases heq
  exact ⟨m, List.mem_cons_self, h⟩

variable [DecidableEq ι]

section Safety

variable {requests : ι → EventRequest} {start : EventStore} {i : ι}

/-- What each call of a run may issue. -/
abbrev issuing (requests : ι → EventRequest) : Discipline ι EventStore EventAnswer :=
  Discipline.script fun i => Issues (requests i)

private theorem safe_done {past : EventHistory ι} {result : Except WaferError EventRecordState}
    (h : ClaimTaken (past.own i) result) :
    (issuing requests).Safe perform start i (.done result) past
      fun result past => ClaimTaken (past.own i) result :=
  Safe.done (Stable.own i fun own => ClaimTaken own result) h

private theorem safe_done_of_ne {past : EventHistory ι}
    {result : Except WaferError EventRecordState}
    (h : ∀ token attempts, result ≠ .ok (.claimed token attempts)) :
    (issuing requests).Safe perform start i (.done result) past
      fun result past => ClaimTaken (past.own i) result :=
  safe_done fun token attempts heq => absurd heq (h token attempts)

private theorem insertIgnore_rows (row : EventRow) (elapsed : ℕ) (s : EventStore) :
    (perform elapsed (.insertIgnore row) s).1 = (1 : ℕ) ∨
      (perform elapsed (.insertIgnore row) s).1 = (0 : ℕ) := by
  rcases hs : s.row with _ | existing
  · exact .inl (by simp [perform, hs])
  · exact .inr (by simp [perform, hs])

theorem recordEvent_safe (codec : PayloadCodec) (eventType : String) (payload : Payload)
    (account : String) (livemode : Bool) {past : EventHistory ι}
    (hunclaimed : ∀ m ∈ past.own i, grant m = none) :
    (issuing requests).Safe perform start i
      (recordEvent codec eventType payload account livemode) past
      fun result past => ClaimTaken (past.own i) result := by
  unfold recordEvent utcNow nowV7 upsertRow getRow updateByFiltersCount
  simp only [Program.bind_call, Program.bind_done, Program.pure_eq_done]
  refine Safe.script_call (fun own => ∀ m ∈ own, grant m = none) hunclaimed
    (fun _ _ => trivial) ?_
  intro past elapsed s hpast
  set now := (perform elapsed EventCall.utcNow s).1
  refine Safe.script_call (fun own => (∀ m ∈ own, grant m = none) ∧ Told own now) ?_
    (fun _ _ => trivial) ?_
  · rw [Pool.own_momentOf]
    exact ⟨List.forall_mem_cons.mpr ⟨rfl, hpast⟩, _, List.mem_cons_self, rfl⟩
  clear past hpast
  intro past elapsed s hpast
  set token := (perform elapsed EventCall.newUuid s).1
  refine Safe.script_call (fun own => Bidding own token ∧ Told own now) ?_
    (fun own h => ⟨rfl, rfl, token, rfl, h.1⟩) ?_
  · rw [Pool.own_momentOf]
    exact ⟨⟨⟨_, List.mem_cons_self, rfl⟩, List.forall_mem_cons.mpr ⟨rfl, hpast.1⟩⟩,
      hpast.2.cons _⟩
  clear past hpast
  intro past elapsed s hpast
  rcases insertIgnore_rows (freshRow codec eventType payload account livemode token now) elapsed s
    with hrows | hrows
  · rw [hrows, if_pos Nat.zero_lt_one]
    refine safe_done ?_
    rw [Pool.own_momentOf]
    refine claimTaken_cons ?_ _
    exact if_pos hrows
  · rw [hrows, if_neg (Nat.lt_irrefl 0)]
    refine Safe.script_call (fun own => Bidding own token ∧ Told own now) ?_
      (fun _ _ => trivial) ?_
    · rw [Pool.own_momentOf]
      exact ⟨hpast.1.cons (if_neg fun h => Nat.zero_ne_one (hrows.symm.trans h)), hpast.2.cons _⟩
    clear past hpast hrows
    intro past elapsed s hpast
    cases hread : (perform elapsed EventCall.get s).1 with
    | none => exact safe_done_of_ne (by simp)
    | some existing =>
      have hlast : lastRead (History.own i (Pool.momentOf perform i elapsed .get s :: past)) =
          some existing := by
        rw [Pool.own_momentOf]
        exact lastRead_cons (m := Pool.momentOf perform i elapsed .get s) hread _
      have hbid : Bidding (History.own i (Pool.momentOf perform i elapsed .get s :: past)) token ∧
          Told (History.own i (Pool.momentOf perform i elapsed .get s :: past)) now := by
        rw [Pool.own_momentOf]
        exact ⟨hpast.1.cons rfl, hpast.2.cons _⟩
      simp only
      split
      · exact safe_done_of_ne (by simp)
      split
      · rename_i state hstate
        refine safe_done_of_ne ?_
        rintro token attempts heq
        cases heq
        exact notEligible_ne_claimed hstate
      rename_i heligible
      split
      · refine Safe.script_call (fun own => lastRead own = some existing) hlast
          (fun own h => ⟨existing, h, rfl, rfl, heligible⟩) ?_
        intro past elapsed s hpast
        split <;> exact safe_done_of_ne (by simp)
      · rename_i hbudget
        refine Safe.script_call
          (fun own => (Bidding own token ∧ Told own now) ∧ lastRead own = some existing)
          ⟨hbid, hlast⟩ (fun own h => ⟨h.1.1, h.1.2, existing, h.2, rfl, rfl, heligible, rfl,
            Nat.le_of_not_lt hbudget⟩) ?_
        intro past elapsed s hpast
        split
        · rename_i hclaimed
          refine safe_done ?_
          rw [Pool.own_momentOf]
          refine claimTaken_cons ?_ _
          exact if_pos hclaimed
        · exact safe_done_of_ne (by simp)

theorem replayWebhookEvent_safe (codec : PayloadCodec) (settings : ReplaySettings)
    (eventId eventType account : String) (livemode : Bool) {past : EventHistory ι}
    (hrequest : requests i = .replay settings eventId eventType account livemode)
    (hunclaimed : ∀ m ∈ past.own i, grant m = none) :
    (issuing requests).Safe perform start i
      (replayWebhookEvent codec settings eventId eventType account livemode) past
      fun result past => ClaimTaken (past.own i) result := by
  unfold replayWebhookEvent getRow updateByFiltersCount
  simp only [Program.bind_call, Program.bind_done, Program.pure_eq_done]
  split
  · exact safe_done_of_ne (by simp)
  split
  · exact safe_done_of_ne (by simp)
  refine Safe.script_call (fun own => ∀ m ∈ own, grant m = none) hunclaimed
    (fun _ _ => trivial) ?_
  intro past elapsed s hpast
  cases hread : (perform elapsed EventCall.get s).1 with
  | none => exact safe_done_of_ne (by simp)
  | some event =>
    simp only
    split
    · exact safe_done_of_ne (by simp)
    rename_i hstatus
    split
    · exact safe_done_of_ne (by simp)
    split
    · exact safe_done_of_ne (by simp)
    split
    · exact safe_done_of_ne (by simp)
    split
    · exact safe_done_of_ne (by simp)
    refine Safe.script_call (fun own => ∀ m ∈ own, grant m = none) ?_
      (fun _ _ => ⟨rfl, ?_, settings, eventId, eventType, account, livemode, hrequest⟩) ?_
    · rw [Pool.own_momentOf]
      exact List.forall_mem_cons.mpr ⟨rfl, hpast⟩
    · by_contra hne
      exact hstatus (not_or.mp hne)
    clear past hpast hread
    intro past elapsed s hpast
    split
    · exact safe_done_of_ne (by simp)
    refine recordEvent_safe codec eventType _ account livemode ?_
    rw [Pool.own_momentOf]
    exact List.forall_mem_cons.mpr ⟨ite_self _, hpast⟩

private theorem mark_safe {owner : Option (Option Uuid)} {write : Instant → EventWrite}
    {lost : WaferError} {past : EventHistory ι}
    (hissues : ∀ (own : EventHistory ι) now, Issues (requests i) own (.update .processing owner (write now)))
    (hprocessed : ∀ token now, requests i = .processed token → (write now).completes)
    (hfailed : ∀ token attempts error now, requests i = .failed token attempts error →
      (write now).fails) :
    (issuing requests).Safe perform start i
      (.call .utcNow fun now => .call (.update .processing owner (write now)) fun updated =>
        if updated = 1 then .done (.ok ()) else .done (.error lost))
      past fun result past => Earned (requests i) (past.own i) (.marked result) := by
  refine Safe.script_call (fun _ => True) trivial (fun _ _ => trivial) ?_
  intro past elapsed s _
  set now := (perform elapsed EventCall.utcNow s).1
  refine Safe.script_call (fun _ => True) trivial (fun own _ => hissues own now) ?_
  intro past elapsed s _
  have hstable : ∀ result, (issuing requests).Stable perform start i
      fun past => Earned (requests i) (past.own i) (.marked result) := fun result =>
    Stable.own i fun own => Earned (requests i) own (.marked result)
  split
  · rename_i hupdated
    refine Safe.done (hstable _) ?_
    rw [Pool.own_momentOf]
    exact ⟨_, List.mem_cons_self, write now, if_pos hupdated, fun token => hprocessed token now,
      fun token attempts error => hfailed token attempts error now⟩
  · exact Safe.done (hstable _) trivial

theorem markEventProcessed_safe {owner : Uuid} {past : EventHistory ι}
    (hrequest : requests i = .processed owner) :
    (issuing requests).Safe perform start i (markEventProcessed owner) past
      fun result past => Earned (requests i) (past.own i) (.marked result) :=
  mark_safe (fun _ _ => ⟨owner, hrequest, rfl, rfl⟩) (fun _ _ _ => rfl)
    (fun token attempts error _ h => by simp [hrequest] at h)

theorem markEventFailed_safe {owner : Uuid} {attempts : ℕ} {error : String} {past : EventHistory ι}
    (hrequest : requests i = .failed owner attempts error) :
    (issuing requests).Safe perform start i (markEventFailed owner attempts error) past
      fun result past => Earned (requests i) (past.own i) (.marked result) :=
  mark_safe (fun _ _ => ⟨owner, hrequest, rfl, rfl⟩) (fun token _ h => by simp [hrequest] at h)
    (fun _ _ _ _ _ => rfl)

theorem program_safe (codec : PayloadCodec) (i : ι) :
    (issuing requests).Safe perform start i ((requests i).program codec) []
      fun outcome past => Earned (requests i) (past.own i) outcome := by
  have hown : ∀ m ∈ History.own i ([] : EventHistory ι), grant m = none := by simp
  have hdone : ∀ past outcome, Earned (requests i) (History.own i past) outcome →
      (issuing requests).Safe perform start i (.done outcome) past
        fun outcome past => Earned (requests i) (past.own i) outcome := fun past outcome h =>
    Safe.done (Stable.own i fun own => Earned (requests i) own outcome) h
  cases hrequest : requests i with
  | record eventType payload account livemode =>
    refine Safe.bind ((recordEvent_safe codec eventType payload account livemode
      hown).mono fun result past h => ?_)
    rw [← hrequest]
    exact hdone past (.recorded result) h
  | processed owner =>
    refine Safe.bind ((markEventProcessed_safe hrequest).mono fun result past h => ?_)
    rw [← hrequest]
    exact hdone past (.marked result) h
  | failed owner attempts error =>
    refine Safe.bind ((markEventFailed_safe hrequest).mono fun result past h => ?_)
    rw [← hrequest]
    exact hdone past (.marked result) h
  | replay settings eventId eventType account livemode =>
    refine Safe.bind ((replayWebhookEvent_safe codec settings eventId eventType account
      livemode hrequest hown).mono fun result past h => ?_)
    rw [← hrequest]
    exact hdone past (.recorded result) h

end Safety

variable (codec : PayloadCodec) (requests : ι → EventRequest) (start : EventStore)

/-- A moment of a run: it happened at the store the moments before it had left, and its
statement is one that its call may issue. -/
abbrev Genuine (past : EventHistory ι) (m : EventMoment ι) : Prop :=
  Scripted perform start (fun i => Issues (requests i)) past m

/-- Every moment of every run is genuine. -/
theorem serve_genuine (schedule : List (ι × ℕ)) :
    Along (Genuine requests start) (serve codec requests start schedule).history :=
  Discipline.exec_scripted (program_safe codec) schedule

/-- What a call of a run has returned, it has earned. -/
theorem serve_earned (schedule : List (ι × ℕ)) {i : ι} {outcome : EventOutcome}
    (h : (serve codec requests start schedule).running i = .done outcome) :
    Earned (requests i) (History.own i (serve codec requests start schedule).history) outcome :=
  Discipline.exec_script_post (program_safe codec) schedule h

end StripeEvents

end Products
