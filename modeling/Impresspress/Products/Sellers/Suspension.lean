import Impresspress.Products.Sellers.Accounts

/-!
# Suspensions

An administrator's suspension and a refresh from Stripe both compute the status from a row they
have read before, and write it without a condition. When the other has written in between, the
refresh takes a suspension back, or the administrator brings back a status that the capabilities
no longer support. As long as no such write is stale, the stored status is the ladder of the last
suspension and the stored capabilities.

## Main definitions

* `Products.Sellers.SellerChange`: what a call does to a row.
* `Products.Sellers.StaleStatus`: a write whose status no longer follows from the row.

## Main results

* `Products.Sellers.status_matches`: the stored status after any run without stale writes.
-/

namespace Products

namespace Sellers

open Concurrent Relational Discipline

variable {ι : Type}

abbrev SellerMoment (ι : Type) := Moment ι SellerStore SellerAnswer

abbrev SellerHistory (ι : Type) := History ι SellerStore SellerAnswer

/-- The three kinds of calls on seller rows. -/
inductive SellerRequest where
  | setAdminSuspended (id : RowId) (suspended : Bool)
  | syncAccount (id : RowId) (snapshot : StripeSellerSnapshot)
  | syncAccountEvent (id : RowId) (snapshot : StripeSellerSnapshot) (eventCreated : ℤ)
  deriving DecidableEq, Repr

def SellerRequest.program : SellerRequest → SellerProgram SellerAccount
  | setAdminSuspended id suspended => Sellers.setAdminSuspended id suspended
  | syncAccount id snapshot => Sellers.syncAccount id snapshot
  | syncAccountEvent id snapshot eventCreated => Sellers.syncAccountEvent id snapshot eventCreated

/-- Requests run together; any statement may fail. -/
def serve [DecidableEq ι] (requests : ι → SellerRequest) (start : SellerStore)
    (schedule : List (ι × Chance)) :
    Pool ι SellerStore SellerAnswer (Except WaferError SellerAccount) :=
  (Pool.launch start fun i => (requests i).program.run).exec perform schedule

/-- The call did not fail. -/
def answered (m : SellerMoment ι) : Bool := m.answer.isOk

/-- The row that a read answers. -/
def accountReadOf : (c : SellerCall) → SellerAnswer c → Option SellerAccount
  | .get _, result => result.toOption
  | _, _ => none

def accountRead (m : SellerMoment ι) : Option SellerAccount := accountReadOf m.call m.answer

/-! ### What a call does to a row -/

/-- Everything a call can do to one row. -/
inductive SellerChange (id : RowId) (m : SellerMoment ι) : Prop
  | unchanged (after : m.after.accounts.get? id = m.before.accounts.get? id)
      (unset : answered m → m.call.setOf id = none)
  | set (write : SellerWrite) (current : SellerAccount) (call : m.call = .set id write)
      (before : m.before.accounts.get? id = some current)
      (after : m.after.accounts.get? id = some (write.apply current)) (answer : answered m)
  | updated (guard : SellerGuard) (write : SellerWrite) (current : SellerAccount)
      (call : m.call = .updateWhere id guard write)
      (before : m.before.accounts.get? id = some current) (matched : SellerGuard.of current = guard)
      (after : m.after.accounts.get? id = some (write.apply current)) (answer : answered m)

/-- The rows after a write to one of them. -/
theorem get?_replace {t t' : Table sellerSchema} {id : RowId} {current : SellerAccount}
    {write : SellerWrite} (hcurrent : t.get? id = some current)
    (h : t.replace (write.apply current) = some t') (id' : RowId) :
    t'.get? id' = if id' = id then some (write.apply current) else t.get? id' := by
  have hkey : sellerSchema.key (write.apply current) = id :=
    (write.id_apply current).trans (Table.get?_eq_some_iff.mp hcurrent).2
  by_cases hid : id' = id
  · rw [if_pos hid, hid, ← hkey]
    rw [← hkey] at hcurrent
    exact Table.get?_replace_self h hcurrent
  · rw [if_neg hid]
    exact Table.get?_replace_of_ne h (by rwa [hkey])

/-- A call either fails, and the rows are as they were, or it is answered. -/
theorem perform_cases (chance : Chance) (c : SellerCall) (s : SellerStore) :
    (∃ error, (perform chance c s).1 = .error error ∧
      (perform chance c s).2.accounts = s.accounts) ∨
    perform chance c s = answer { s with clock := s.clock + chance.elapsed } c := by
  unfold perform
  split
  · split
    · exact .inl ⟨_, rfl, rfl⟩
    · exact .inr rfl
  · exact .inr rfl

theorem sellerChange {m : SellerMoment ι} (h : m.Happened perform) (id : RowId) :
    SellerChange id m := by
  obtain ⟨i, s, c, ans, after⟩ := m
  obtain ⟨chance, hanswer, hafter⟩ := h
  simp only at hanswer hafter
  rcases perform_cases chance c s with ⟨error, herror, hsame⟩ | heq
  · subst hanswer hafter
    exact .unchanged (by simp only [hsame])
      (fun hanswered => by simp [answered, herror, Except.isOk, Except.toBool] at hanswered)
  rw [heq] at hanswer hafter
  subst hanswer hafter
  cases c with
  | utcNow => exact .unchanged rfl fun _ => rfl
  | get id' =>
    refine .unchanged ?_ fun _ => rfl
    simp only [answer]
    split <;> rfl
  | set id' write =>
    by_cases hid : id = id'
    · subst hid
      cases hget : s.accounts.get? id with
      | none =>
        exact .unchanged (by simp [answer, hget])
          (fun hanswered => by simp [answered, answer, hget, Except.isOk, Except.toBool] at hanswered)
      | some current =>
        cases hreplace : s.accounts.replace (write.apply current) with
        | none =>
          exact .unchanged (by simp [answer, hget, hreplace]) (fun hanswered => by
            simp [answered, answer, hget, hreplace, Except.isOk, Except.toBool] at hanswered)
        | some t =>
          have hafter := get?_replace hget hreplace id
          rw [if_pos rfl] at hafter
          exact .set write current rfl hget
            (by simp only [answer, hget, hreplace]; exact hafter)
            (by simp [answered, answer, hget, hreplace, Except.isOk, Except.toBool])
    · refine .unchanged ?_ fun _ => if_neg (Ne.symm hid)
      cases hget : s.accounts.get? id' with
      | none => simp [answer, hget]
      | some current =>
        cases hreplace : s.accounts.replace (write.apply current) with
        | none => simp [answer, hget, hreplace]
        | some t =>
          have hafter := get?_replace hget hreplace id
          rw [if_neg hid] at hafter
          simp only [answer, hget, hreplace]
          exact hafter
  | updateWhere id' guard write =>
    rcases s.accounts.updateWhere_cases id' (fun account => SellerGuard.of account == guard)
      write.apply with hnone | ⟨hzero, -⟩ | ⟨current, t, hone, hget, hmatch, hreplace⟩
    · exact .unchanged (by simp [answer, hnone]) fun _ => rfl
    · exact .unchanged (by simp [answer, hzero]) fun _ => rfl
    · have hafter := get?_replace hget hreplace id
      by_cases hid : id = id'
      · subst hid
        rw [if_pos rfl] at hafter
        exact .updated guard write current rfl hget (by simpa using hmatch)
          (by simp only [answer, hone]; exact hafter)
          (by simp [answered, answer, hone, Except.isOk, Except.toBool])
      · rw [if_neg hid] at hafter
        exact .unchanged (by simp only [answer, hone]; exact hafter) fun _ => rfl

/-! ### What the writers issue -/

/-- The program has read a row that has `P`. -/
def HasRead (P : SellerAccount → Prop) (own : SellerHistory ι) : Prop :=
  ∃ m ∈ own, ∃ read ∈ accountRead m, P read

/-- What a request may issue: it computes the status from a row it has read. -/
def SellerIssues (own : SellerHistory ι) : SellerCall → Prop
  | .set id (.suspension status suspended _) => HasRead (fun read => read.id = id ∧
    status = ladder suspended read.chargesEnabled read.detailsSubmitted) own
  | .set id (.account status snapshot _) => HasRead (fun read => read.id = id ∧
    status = ladder read.isSuspended snapshot.chargesEnabled snapshot.detailsSubmitted) own
  | .set _ (.event ..) => False
  | .updateWhere _ guard (.event status snapshot _ _) =>
    status = ladder (guard.status == .suspended) snapshot.chargesEnabled snapshot.detailsSubmitted
  | .updateWhere .. => False
  | _ => True

section Script

variable [DecidableEq ι] {start : SellerStore} {i : ι}

/-- The script of seller requests. -/
abbrev sellers : Discipline ι SellerStore SellerAnswer := script fun _ => SellerIssues

theorem get_id {chance : Chance} {id : RowId} {s : SellerStore} {account : SellerAccount}
    (h : (perform chance (.get id) s).1 = .ok account) : account.id = id := by
  rcases perform_cases chance (.get id) s with ⟨error, herror, -⟩ | heq
  · rw [herror] at h
    cases h
  rw [heq] at h
  cases hget : s.accounts.get? id with
  | none => simp [answer, hget] at h
  | some row =>
    simp only [answer, hget, Except.ok.injEq] at h
    exact h ▸ (Table.get?_eq_some_iff.mp hget).2

/-- A row that has been read stays read. -/
private theorem hasRead_cons {P : SellerAccount → Prop} {past : SellerHistory ι}
    (h : HasRead P (History.own i past)) (chance : Chance) (c : SellerCall) (s : SellerStore) :
    HasRead P (History.own i (Pool.momentOf perform i chance c s :: past)) := by
  obtain ⟨m, hm, hread⟩ := h
  refine ⟨m, ?_, hread⟩
  rw [Pool.own_momentOf]
  exact List.mem_cons_of_mem _ hm

private theorem hasRead_get {chance : Chance} {id : RowId} {s : SellerStore}
    {past : SellerHistory ι} {account : SellerAccount}
    (h : (perform chance (.get id) s).1 = .ok account) :
    HasRead (fun read => read = account ∧ read.id = id)
      (History.own i (Pool.momentOf perform i chance (.get id) s :: past)) := by
  refine ⟨Pool.momentOf perform i chance (.get id) s, ?_, account, ?_, rfl, get_id h⟩
  · rw [Pool.own_momentOf]
    exact List.mem_cons_self
  · simp [accountRead, Pool.momentOf, accountReadOf, h, Except.toOption]

theorem setAdminSuspended_safe (id : RowId) (suspended : Bool) (past : SellerHistory ι) :
    sellers.Safe perform start i (setAdminSuspended id suspended).run past fun _ _ => True := by
  refine Fallible.safe_call (fun _ => True) trivial (fun _ _ => trivial)
    fun past chance s current _ hcurrent => ?_
  refine Fallible.safe_call (HasRead fun read => read = current ∧ read.id = id)
    (hasRead_get hcurrent) (fun _ _ => trivial) fun past chance s now hpast _ => ?_
  refine Fallible.safe_last (HasRead fun read => read = current ∧ read.id = id)
    (hasRead_cons hpast _ _ _) ?_
  rintro own ⟨m, hm, read, hread, rfl, hid⟩
  exact ⟨m, hm, read, hread, hid, rfl⟩

theorem syncAccount_safe (id : RowId) (snapshot : StripeSellerSnapshot) (past : SellerHistory ι) :
    sellers.Safe perform start i (syncAccount id snapshot).run past fun _ _ => True := by
  refine Fallible.safe_call (fun _ => True) trivial (fun _ _ => trivial)
    fun past chance s current _ hcurrent => ?_
  refine Fallible.safe_call (HasRead fun read => read = current ∧ read.id = id)
    (hasRead_get hcurrent) (fun _ _ => trivial) fun past chance s now hpast _ => ?_
  refine Fallible.safe_last (HasRead fun read => read = current ∧ read.id = id)
    (hasRead_cons hpast _ _ _) ?_
  rintro own ⟨m, hm, read, hread, rfl, hid⟩
  exact ⟨m, hm, read, hread, hid, rfl⟩

theorem trySyncAccountEvent_safe (id : RowId) (snapshot : StripeSellerSnapshot) (eventCreated : ℤ)
    (attempts : ℕ) (past : SellerHistory ι) :
    sellers.Safe perform start i (trySyncAccountEvent id snapshot eventCreated attempts).run past
      fun _ _ => True := by
  induction attempts generalizing past with
  | zero => exact Fallible.safe_done
  | succ attempts ih =>
    refine Fallible.safe_call (fun _ => True) trivial (fun _ _ => trivial)
      fun past chance s current _ _ => ?_
    split
    · exact Fallible.safe_done
    split
    · exact Fallible.safe_done
    split
    · exact Fallible.safe_done
    refine Fallible.safe_call (fun _ => True) trivial (fun _ _ => trivial)
      fun past chance s now _ _ => ?_
    refine Fallible.safe_call (fun _ => True) trivial (fun _ _ => rfl)
      fun past chance s rows _ _ => ?_
    split
    · exact Fallible.safe_last (fun _ => True) trivial fun _ _ => trivial
    · exact ih _

theorem program_safe (request : SellerRequest) (past : SellerHistory ι) :
    sellers.Safe perform start i request.program.run past fun _ _ => True := by
  cases request with
  | setAdminSuspended id suspended => exact setAdminSuspended_safe id suspended past
  | syncAccount id snapshot => exact syncAccount_safe id snapshot past
  | syncAccountEvent id snapshot eventCreated =>
    change sellers.Safe perform start i (syncAccountEvent id snapshot eventCreated).run past _
    unfold syncAccountEvent
    split
    · exact Fallible.safe_done
    · exact trySyncAccountEvent_safe id snapshot eventCreated 3 past

end Script

/-! ### Stale writes -/

/-- The status that a write without a condition was computed to be is not the one that follows
from the row as it is now: of the administrator's the capabilities differ from those that were
read, of the refresh whether the seller is suspended. -/
def OutOfDate (read current : SellerAccount) : SellerWrite → Prop
  | .suspension _ suspended _ => ladder suspended read.chargesEnabled read.detailsSubmitted ≠
    ladder suspended current.chargesEnabled current.detailsSubmitted
  | .account .. => read.isSuspended ≠ current.isSuspended
  | .event .. => False

instance (read current : SellerAccount) (write : SellerWrite) :
    Decidable (OutOfDate read current write) := by
  cases write <;> unfold OutOfDate <;> infer_instance

/-- A write to the row without a condition is answered, and its status is out of date. -/
def StaleStatus (id : RowId) [DecidableEq ι] (past : SellerHistory ι) (m : SellerMoment ι) : Prop :=
  answered m ∧ ∃ write ∈ m.call.setOf id, ∃ current ∈ m.before.accounts.get? id,
    ∃ r ∈ History.own m.proc past, ∃ read ∈ accountRead r, read.id = id ∧
      OutOfDate read current write

instance (id : RowId) [DecidableEq ι] (past : SellerHistory ι) (m : SellerMoment ι) :
    Decidable (StaleStatus id past m) :=
  inferInstanceAs (Decidable (_ ∧ ∃ write ∈ m.call.setOf id, ∃ current ∈ m.before.accounts.get? id,
    ∃ r ∈ History.own m.proc past, ∃ read ∈ accountRead r, _))

/-- What the last completed suspension call on the row has been asked for. -/
def lastSuspension (id : RowId) : SellerHistory ι → Option Bool
  | [] => none
  | m :: past =>
    match m.call.setOf id with
    | some (.suspension _ suspended _) =>
      if answered m then some suspended else lastSuspension id past
    | _ => lastSuspension id past

/-- The row follows from the last suspension and its own capabilities: it is suspended exactly when
an administrator has last said so, and not active without enabled charges. -/
structure StatusMatches (suspended : Bool) (account : SellerAccount) : Prop where
  status : account.status = ladder suspended account.chargesEnabled account.detailsSubmitted
  suspended_iff : account.status = .suspended ↔ suspended
  active : account.status = .active → account.chargesEnabled

theorem statusMatches_of_eq {suspended : Bool} {account : SellerAccount}
    (h : account.status = ladder suspended account.chargesEnabled account.detailsSubmitted) :
    StatusMatches suspended account := by
  refine ⟨h, ?_, fun hactive => ?_⟩
  · rw [h]
    exact ladder_eq_suspended_iff
  · rw [h] at hactive
    exact (ladder_eq_active_iff.mp hactive).2

section Runs

variable [DecidableEq ι] {start : SellerStore} {id : RowId}

/-- A step that is not stale keeps the status in line with the last suspension. -/
private theorem matches_step {past : SellerHistory ι} {m : SellerMoment ι}
    (hm : Scripted perform start (fun _ => SellerIssues) past m) (hstale : ¬ StaleStatus id past m)
    (ih : ∀ suspended, lastSuspension id past = some suspended →
      ∃ account, (past.store start).accounts.get? id = some account ∧
        StatusMatches suspended account) :
    ∀ suspended, lastSuspension id (m :: past) = some suspended →
      ∃ account, m.after.accounts.get? id = some account ∧ StatusMatches suspended account := by
  intro suspended hsuspended
  rw [← hm.before] at ih
  have hissues := hm.issues
  rcases sellerChange hm.happened id with ⟨hafter, hunset⟩ |
    ⟨write, current, hcall, hbefore, hafter, hanswered⟩ |
    ⟨guard, write, current, hcall, hbefore, hguard, hafter, hanswered⟩
  · -- nothing is written to the row, and no suspension completes
    have hlast : lastSuspension id (m :: past) = lastSuspension id past := by
      cases hanswered : answered m with
      | false =>
        simp only [lastSuspension, hanswered]
        split <;> rfl
      | true => simp only [lastSuspension, hunset hanswered]
    rw [hafter]
    exact ih suspended (hlast ▸ hsuspended)
  · have hset : m.call.setOf id = some write := by simp [hcall, SellerCall.setOf]
    have hcurrent : ∀ r ∈ History.own m.proc past, ∀ read ∈ accountRead r, read.id = id →
        ¬ OutOfDate read current write := fun r hr read hread hid hout =>
      hstale ⟨hanswered, write, hset, current, hbefore, r, hr, read, hread, hid, hout⟩
    rw [hcall] at hissues
    refine ⟨_, hafter, statusMatches_of_eq ?_⟩
    cases write with
    | suspension status suspended' now =>
      -- the status that was computed is the one that the row supports now
      obtain ⟨r, hr, read, hread, hid, rfl⟩ := hissues
      have hladder := hcurrent r hr read hread hid
      simp only [OutOfDate, not_not] at hladder
      simp only [lastSuspension, hset, hanswered, if_true, Option.some.injEq] at hsuspended
      subst hsuspended
      exact hladder
    | account status snapshot now =>
      -- the seller is suspended now if and only if it was when the row was read
      obtain ⟨r, hr, read, hread, hid, rfl⟩ := hissues
      have hsame := hcurrent r hr read hread hid
      simp only [OutOfDate, not_not] at hsame
      simp only [lastSuspension, hset] at hsuspended
      obtain ⟨account, haccount, hmatches⟩ := ih suspended hsuspended
      rw [hbefore, Option.some.injEq] at haccount
      subst haccount
      have hstill : current.isSuspended = suspended := by
        rw [Bool.eq_iff_iff, ← hmatches.suspended_iff]
        simp [SellerAccount.isSuspended]
      rw [← hstill, ← hsame]
      rfl
    | event => exact hissues.elim
  · -- an account event finds the status that it has read
    rw [hcall] at hissues
    cases write with
    | suspension => exact hissues.elim
    | account => exact hissues.elim
    | event status snapshot now eventCreated =>
      have hunset : m.call.setOf id = none := by simp [hcall, SellerCall.setOf]
      simp only [lastSuspension, hunset] at hsuspended
      obtain ⟨account, haccount, hmatches⟩ := ih suspended hsuspended
      rw [hbefore, Option.some.injEq] at haccount
      subst haccount
      have hstill : (guard.status == .suspended) = suspended := by
        rw [Bool.eq_iff_iff, ← hmatches.suspended_iff, ← hguard]
        simp [SellerGuard.of]
      refine ⟨_, hafter, statusMatches_of_eq ?_⟩
      rw [← hstill]
      exact hissues

/-- After any run of suspensions, refreshes and account events in which no write without a
condition is out of date, the row's status is the ladder of the last completed suspension call and
of the row's own capabilities. -/
theorem status_matches (requests : ι → SellerRequest) (start : SellerStore)
    (schedule : List (ι × Chance)) (id : RowId)
    (hstale : Along (fun past m => ¬ StaleStatus id past m)
      (serve requests start schedule).history) :
    ∀ suspended, lastSuspension id (serve requests start schedule).history = some suspended →
      ∃ account, (serve requests start schedule).store.accounts.get? id = some account ∧
        StatusMatches suspended account := by
  have h : Along (Scripted perform start (fun _ => SellerIssues))
      (serve requests start schedule).history :=
    exec_scripted (fun i => program_safe (requests i) []) schedule
  have hstart : (serve requests start schedule).start = start :=
    Pool.exec_start perform _ schedule
  rw [Pool.store, hstart]
  generalize (serve requests start schedule).history = history at h hstale
  induction history with
  | nil => intro suspended hsuspended; cases hsuspended
  | cons m past ih => exact matches_step h.1 hstale.1 (ih h.2 hstale.2)

end Runs

section Example

/-- An account that can be paid. -/
def exampleSnapshot : StripeSellerSnapshot where
  stripeAccountId := "acct_1"
  livemode := true
  detailsSubmitted := true
  chargesEnabled := true
  payoutsEnabled := true
  requirements := "{}"
  country := "NZ"
  defaultCurrency := "NZD"
  dashboardType := "express"
  disabledReason := ""

/-- The row of a seller who has connected the account. -/
def exampleAccount : SellerAccount where
  id := 0
  status := .active
  stripeAccountId := "acct_1"
  livemode := true
  detailsSubmitted := true
  chargesEnabled := true
  payoutsEnabled := true
  requirementsJson := "{}"
  country := "NZ"
  defaultCurrency := "NZD"
  dashboardType := "express"
  requirementsDisabledReason := ""
  suspendedAt := none
  lastSyncedAt := some 0
  stripeEventCreated := 0

def exampleStore : SellerStore := ⟨⟨[exampleAccount], List.pairwise_singleton ..⟩, 0⟩

/-- A refresh of the account, and its suspension. -/
def refreshAndSuspension (i : Fin 2) : SellerRequest :=
  if i.val = 0 then .syncAccount 0 exampleSnapshot else .setAdminSuspended 0 true

/-- Turns without failures. -/
def turnsOf {ι : Type} (procs : List ι) : List (ι × Chance) := procs.map fun i => (i, {})

/-- The refresh has read the row before the suspension and writes it afterwards: the seller is
active again. -/
theorem suspension_lifted_by_refresh :
    ¬ ∀ suspended, lastSuspension 0 (serve refreshAndSuspension exampleStore
        (turnsOf [0, 1, 1, 1, 0, 0])).history = some suspended →
      ∃ account, (serve refreshAndSuspension exampleStore
        (turnsOf [0, 1, 1, 1, 0, 0])).store.accounts.get? 0 = some account ∧
        StatusMatches suspended account := by
  intro h
  obtain ⟨account, haccount, hmatches⟩ := h true (by decide +kernel)
  have hactive : ((serve refreshAndSuspension exampleStore
      (turnsOf [0, 1, 1, 1, 0, 0])).store.accounts.get? 0).map SellerAccount.status =
        some .active := by decide +kernel
  rw [haccount, Option.map_some, Option.some.injEq, hmatches.status] at hactive
  exact Bool.noConfusion (ladder_eq_active_iff.mp hactive).1

/-- One after the other, the suspension stays. -/
theorem suspension_stays_in_turn :
    ∃ account, (serve refreshAndSuspension exampleStore
      (turnsOf [0, 0, 0, 1, 1, 1])).store.accounts.get? 0 = some account ∧
      StatusMatches true account :=
  status_matches refreshAndSuspension exampleStore (turnsOf [0, 0, 0, 1, 1, 1]) 0
    (by decide +kernel) true (by decide +kernel)

end Example

end Sellers

end Products
