import Mathlib.Data.Finset.Card
import Mathlib.Order.Interval.Finset.Nat
import Impresspress.Products.StripeEvents.Lease

/-!
# The retry budget of a Stripe event

A failed row has no owner, so the update by which a delivery claims it compares the status
alone: it cannot tell the failure that the delivery has read from a later one. The budget of
eight claims, the backoff between them and the numbering of the attempts are kept by a run
exactly if no delivery claims a failed row across another claim.

## Main definitions

* `Products.StripeEvents.Budget`: attempts increase, claims wait for the backoff and are at
  most eight.
* `Products.StripeEvents.ReadCurrent`: a claim of a failed row is made on its current attempt.

## Main results

* `Products.StripeEvents.precedes_of_update`: every change of the row moves it forward.
* `Products.StripeEvents.retry_budget_iff`: the budget is kept if and only if claims of failed
  rows are made on their current attempt.
-/

namespace Products

namespace StripeEvents

open Concurrent

variable {ι : Type}

/-- The retry time that a recorded failure writes; `some none` for the last attempt. -/
def EventWrite.retry : EventWrite → Option (Option Instant)
  | failed attempts _ now =>
    some (if attempts ≥ maxAttempts then none else some (retryAt now attempts))
  | _ => none

/-- The retry time written by the failure that was recorded last. -/
def lastRetry (past : EventHistory ι) : Option Instant :=
  (past.findSome? fun m => (written m).bind EventWrite.retry).join

/-- The statement takes the lease of an existing row. -/
def EventCall.claims : EventCall → Bool
  | .update _ _ write => write.lease.isSome
  | _ => false

theorem EventCall.claims_iff {c : EventCall} :
    c.claims ↔ ∃ status owner write, c = .update status owner write ∧ write.lease.isSome := by
  constructor
  · intro h
    cases c with
    | update status owner write => exact ⟨status, owner, write, rfl, h⟩
    | utcNow | newUuid | insertIgnore | get => cases h
  · rintro ⟨status, owner, write, rfl, h⟩
    exact h

/-- The retry budget along a history: successive claims carry increasing attempts, no claim is
granted before the retry time of the latest recorded failure, and there are at most
`maxAttempts` of them. -/
structure Budget (run : EventHistory ι) : Prop where
  increasing : (run.filterMap grant).Pairwise fun later earlier => earlier.2 < later.2
  waits : Along (fun past m => grant m ≠ none →
    ∀ retry, lastRetry past = some retry → retry ≤ m.after.clock) run
  bounded : (run.filterMap grant).length ≤ maxAttempts

/-- No operator's replay is among the calls. -/
def NoReplay (requests : ι → EventRequest) : Prop :=
  ∀ i settings eventId eventType account livemode,
    requests i ≠ .replay settings eventId eventType account livemode

/-- How far a row has come within its attempt. -/
def phase : EventStatus → ℕ
  | .pending => 0
  | .processing => 0
  | .failed => 1
  | .processed => 2
  | .deadLetter => 2

/-- `later` has come further than `earlier`. -/
def Precedes (earlier later : EventRow) : Prop :=
  earlier.attempts < later.attempts ∨
    earlier.attempts = later.attempts ∧ phase earlier.status < phase later.status

theorem Precedes.trans {a b c : EventRow} (h : Precedes a b) (h' : Precedes b c) :
    Precedes a c := by
  unfold Precedes at *
  omega

theorem phase_lt_of_eligible {existing : EventRow} {now : Instant}
    (h : notEligible existing now = none) : phase existing.status < 2 := by
  cases hcase : existing.status with
  | pending | processing | failed => decide
  | processed | deadLetter => simp [notEligible, hcase] at h

section Clock

theorem clock_mono {m : EventMoment ι} (h : m.Happened perform) :
    m.before.clock ≤ m.after.clock := by
  obtain ⟨i, s, c, answer, after⟩ := m
  obtain ⟨elapsed, -, hafter⟩ := h
  have hclock : (perform elapsed c s).2.clock = s.clock + elapsed := by
    cases c with
    | utcNow | newUuid | get => rfl
    | insertIgnore row => cases hrow : s.row <;> simp [perform, hrow]
    | update status owner write =>
      cases hrow : s.row with
      | none => simp [perform, hrow]
      | some row => by_cases hmatch : updateMatches status owner row = true <;>
          simp [perform, hrow, hmatch]
  simp only at hafter ⊢
  rw [hafter, hclock]
  exact Nat.le_add_right _ _

theorem told_eq {m : EventMoment ι} (h : m.Happened perform) {now : Instant}
    (htold : told m = some now) : now = m.after.clock := by
  obtain ⟨i, s, c, answer, after⟩ := m
  obtain ⟨elapsed, hanswer, hafter⟩ := h
  simp only at hanswer hafter
  subst hanswer hafter
  cases c with
  | utcNow => exact (Option.some.inj htold).symm
  | newUuid | get | insertIgnore | update => cases htold

theorem told_le [DecidableEq ι] {requests : ι → EventRequest} {start : EventStore}
    {past : EventHistory ι} (h : Along (Genuine requests start) past) {m : EventMoment ι}
    (hm : m ∈ past) {now : Instant} (htold : told m = some now) :
    now ≤ (past.store start).clock := by
  induction past with
  | nil => simp at hm
  | cons latest past ih =>
    rw [History.store_cons]
    rcases List.mem_cons.mp hm with rfl | hold
    · exact Nat.le_of_eq (told_eq h.1.happened htold)
    · have hclock := ih h.2 hold
      rw [← h.1.before] at hclock
      exact Nat.le_trans hclock (clock_mono h.1.happened)

theorem read_eq {m : EventMoment ι} (h : m.Happened perform) {row : EventRow}
    (hread : read m = some row) : m.before.row = some row := by
  obtain ⟨i, s, c, answer, after⟩ := m
  obtain ⟨elapsed, hanswer, hafter⟩ := h
  simp only at hanswer hafter
  subst hanswer hafter
  cases c with
  | get => exact hread
  | utcNow | newUuid | insertIgnore | update => cases hread

end Clock

variable [DecidableEq ι]

/-- When a claiming statement finds the row failed, and failed is what its delivery had read,
then the attempt it had read is still the current one. -/
def ReadCurrent (past : EventHistory ι) (m : EventMoment ι) : Prop :=
  m.call.claims → ∀ row ∈ m.before.row, ∀ existing ∈ lastRead (History.own m.proc past),
    row.status = .failed → existing.status = .failed → existing.attempts = row.attempts

instance (past : EventHistory ι) (m : EventMoment ι) : Decidable (ReadCurrent past m) :=
  inferInstanceAs (Decidable (m.call.claims → ∀ row ∈ m.before.row,
    ∀ existing ∈ lastRead (History.own m.proc past), row.status = .failed →
      existing.status = .failed → existing.attempts = row.attempts))

variable {requests : ι → EventRequest} {start : EventStore}

/-- What the row always looks like: it is on the attempt of a lease that has been taken, and
names the owner of that lease exactly while it is under it. -/
structure Formed (past : EventHistory ι) (row : EventRow) : Prop where
  status : row.status ≠ .pending
  lease : ∃ token, (token, row.attempts) ∈ past.filterMap grant ∧
    row.processingOwner = if row.status = .processing then some token else none

omit [DecidableEq ι] in
theorem Formed.cons {past : EventHistory ι} {row : EventRow} (h : Formed past row)
    (m : EventMoment ι) : Formed (m :: past) row where
  status := h.status
  lease := h.lease.imp fun _ ht => ⟨by
    rw [List.filterMap_cons]
    cases grant m with
    | none => exact ht.1
    | some lease => exact List.mem_cons_of_mem _ ht.1, ht.2⟩

omit [DecidableEq ι] in
theorem grant_mem {m : EventMoment ι} {lease : Uuid × ℕ} (h : grant m = some lease)
    (past : EventHistory ι) : lease ∈ (m :: past).filterMap grant := by
  simp [h]

theorem row_formed {past : EventHistory ι} (h : Along (Genuine requests start) past)
    (hreplay : NoReplay requests) (hstart : start.row = none) {row : EventRow}
    (hrow : (past.store start).row = some row) : Formed past row := by
  induction past generalizing row with
  | nil => simp [hstart] at hrow
  | cons m past ih =>
    rw [History.store_cons] at hrow
    have hissues := h.1.issues
    rcases rowChange h.1.happened with ⟨hafter, -, -⟩ | ⟨row', hcall, -, hafter, hgrant, -⟩ |
      ⟨row', owner, write, hcall, hbefore, -, hafter, hgrant, -⟩
    · rw [hafter, h.1.before] at hrow
      exact (ih h.2 hrow).cons m
    · obtain rfl := Option.some.inj (hafter.symm.trans hrow)
      rw [hcall] at hissues
      obtain ⟨hstatus, -, token, howner, -⟩ := hissues
      refine ⟨by rw [hstatus]; decide, token, grant_mem ?_ past, by rw [hstatus, howner]; rfl⟩
      rw [hgrant, EventRow.lease, howner, Option.map_some]
    · obtain rfl := Option.some.inj (hafter.symm.trans hrow)
      rw [h.1.before] at hbefore
      have hformed := (ih h.2 hbefore).cons m
      obtain ⟨token, hlease, -⟩ := hformed.lease
      cases write with
      | claim attempts owner' => exact ⟨(fun h => by cases h), owner', grant_mem hgrant past, rfl⟩
      | exhausted | processed => exact ⟨(fun h => by cases h), token, hlease, rfl⟩
      | failed attempts =>
        by_cases hattempts : attempts ≥ maxAttempts
        · simp only [EventWrite.apply, hattempts, if_true]
          exact ⟨(fun h => by cases h), token, hlease, rfl⟩
        · simp only [EventWrite.apply, hattempts, if_false]
          exact ⟨(fun h => by cases h), token, hlease, rfl⟩
      | replay =>
        rw [hcall] at hissues
        obtain ⟨-, -, settings, eventId, eventType, account, livemode, hrequest⟩ := hissues
        exact absurd hrequest (hreplay _ _ _ _ _ _)

theorem read_formed {past : EventHistory ι} (h : Along (Genuine requests start) past)
    (hreplay : NoReplay requests) (hstart : start.row = none) {m : EventMoment ι} (hm : m ∈ past)
    {row : EventRow} (hread : read m = some row) : Formed past row := by
  induction past with
  | nil => simp at hm
  | cons m' past ih =>
    rcases List.mem_cons.mp hm with rfl | hm
    · refine (row_formed h.2 hreplay hstart ?_).cons m
      rw [← h.1.before]
      exact read_eq h.1.happened hread
    · exact (ih h.2 hm).cons m'

/-- While claims are made on their current attempt, the leases of a history carry increasing
attempts, everything that has been read is at most as far as the row is now, and a retry time
that has not passed is still on the row. -/
structure Ordered (start : EventStore) (past : EventHistory ι) : Prop where
  increasing : (past.filterMap grant).Pairwise fun later earlier => earlier.2 < later.2
  latest : ∀ row, (past.store start).row = some row →
    ∀ lease ∈ past.filterMap grant, lease.2 ≤ row.attempts
  reads : ∀ m ∈ past, ∀ existing, read m = some existing →
    ∃ row, (past.store start).row = some row ∧ (existing = row ∨ Precedes existing row)
  absent : (past.store start).row = none → past.filterMap grant = [] ∧ lastRetry past = none
  retry : ∀ row, (past.store start).row = some row → ∀ time, lastRetry past = some time →
    (row.status = .failed ∧ row.nextRetryAt = some time) ∨
      (row.status = .processing ∧ time ≤ (past.store start).clock) ∨ phase row.status = 2

/-- A delivery that claims a row on its current attempt has read the row as it is. -/
theorem claim_reads_row {past : EventHistory ι} {m : EventMoment ι}
    (h : Along (Genuine requests start) (m :: past)) (hreplay : NoReplay requests)
    (hstart : start.row = none) (hordered : Ordered start past) (hcurrent : ReadCurrent past m)
    {row : EventRow} (hrow : m.before.row = some row) (hclaims : m.call.claims)
    {existing : EventRow} (hread : lastRead (History.own m.proc past) = some existing)
    (hstatus : row.status = existing.status) (howner : row.processingOwner = existing.processingOwner)
    {now : Instant} (heligible : notEligible existing now = none) : existing = row := by
  obtain ⟨d, hd, hdread⟩ := List.exists_of_findSome?_eq_some hread
  have hpast := (History.mem_own.mp hd).1
  have hrow' : (past.store start).row = some row := by rw [← h.1.before, hrow]
  obtain ⟨row', hrow'', holder⟩ := hordered.reads d hpast existing hdread
  obtain rfl := Option.some.inj (hrow'.symm.trans hrow'')
  obtain ⟨token, hlease, howned⟩ := (read_formed h.2 hreplay hstart hpast hdread).lease
  obtain ⟨token', hlease', howned'⟩ := (row_formed h.2 hreplay hstart hrow').lease
  have hpending := (row_formed h.2 hreplay hstart hrow').status
  have hattempts : existing.attempts = row.attempts := by
    cases hcase : row.status with
    | processing =>
      -- the owner names the lease, and the lease its attempt
      rw [← hstatus, hcase, if_pos rfl] at howned
      rw [hcase, if_pos rfl] at howned'
      have htoken : token = token' :=
        Option.some.inj (howned.symm.trans (howner.symm.trans howned'))
      have hnodup : ((past.filterMap grant).map Prod.fst).Nodup :=
        List.pairwise_map.mpr (leases_distinct h.2)
      exact (Prod.ext_iff.mp (List.inj_on_of_nodup_map hnodup hlease hlease' htoken)).2
    | failed => exact hcurrent hclaims row hrow existing hread hcase (hstatus ▸ hcase)
    | pending => exact absurd hcase hpending
    | processed => simp [notEligible, ← hstatus, hcase] at heligible
    | deadLetter => simp [notEligible, ← hstatus, hcase] at heligible
  rcases holder with heq | hlt | ⟨-, hphase⟩
  · exact heq
  · exact absurd hattempts (Nat.ne_of_lt hlt)
  · rw [hstatus] at hphase
    exact absurd hphase (Nat.lt_irrefl _)

/-- Every change that a statement makes to an existing row moves the row forward; a claim moves
it by one attempt, and waits for the retry time on the row. -/
theorem precedes_of_update {past : EventHistory ι} {m : EventMoment ι}
    (h : Along (Genuine requests start) (m :: past)) (hreplay : NoReplay requests)
    (hstart : start.row = none) (hordered : Ordered start past) (hcurrent : ReadCurrent past m)
    {row : EventRow} {owner : Option (Option Uuid)} {write : EventWrite}
    (hcall : m.call = .update row.status owner write) (hrow : m.before.row = some row)
    (howned : ∀ o, owner = some o → row.processingOwner = o) :
    Precedes row (write.apply row) ∧
      ∀ lease, write.lease = some lease → lease.2 = row.attempts + 1 ∧
        (row.status = .failed ∨ row.status = .processing) ∧
        ∀ time, row.status = .failed → row.nextRetryAt = some time → time ≤ m.after.clock := by
  have hissues := h.1.issues
  rw [hcall] at hissues
  cases write with
  | claim attempts token now =>
    obtain ⟨-, ⟨d, hd, htold⟩, existing, hread, hstatus, howner, heligible, hattempts, -⟩ := hissues
    obtain rfl := claim_reads_row h hreplay hstart hordered hcurrent hrow (by rw [hcall]; rfl)
      hread hstatus (howned _ howner) heligible
    refine ⟨.inl (by simp [EventWrite.apply, hattempts]), ?_⟩
    rintro lease ⟨⟩
    refine ⟨hattempts, ?_, fun time hfailed htime => ?_⟩
    · have hpending := (row_formed h.2 hreplay hstart (by rw [← h.1.before, hrow])).status
      have hopen := phase_lt_of_eligible heligible
      cases hcase : existing.status with
      | failed => exact .inl rfl
      | processing => exact .inr rfl
      | pending => exact absurd hcase hpending
      | processed | deadLetter => simp [hcase, phase] at hopen
    · have htold' : now ≤ m.before.clock := by
        rw [h.1.before]
        exact told_le h.2 (History.mem_own.mp hd).1 htold
      have hdue : time ≤ now := by
        simpa [notEligible, hfailed, htime] using heligible
      exact hdue.trans (htold'.trans (clock_mono h.1.happened))
  | exhausted reason now =>
    obtain ⟨existing, hread, hstatus, howner, heligible⟩ := hissues
    refine ⟨.inr ⟨rfl, ?_⟩, fun _ hlease => by cases hlease⟩
    rw [hstatus]
    exact phase_lt_of_eligible heligible
  | processed now =>
    obtain ⟨token, -, hstatus, -⟩ := hissues
    exact ⟨.inr ⟨rfl, by rw [hstatus]; exact Nat.zero_lt_two⟩, fun _ hlease => by cases hlease⟩
  | failed attempts error now =>
    obtain ⟨token, -, hstatus, -⟩ := hissues
    refine ⟨.inr ?_, fun _ hlease => by cases hlease⟩
    rw [hstatus]
    simp only [EventWrite.apply]
    split
    · exact ⟨rfl, Nat.zero_lt_two⟩
    · exact ⟨rfl, Nat.zero_lt_one⟩
  | replay =>
    obtain ⟨-, -, settings, eventId, eventType, account, livemode, hrequest⟩ := hissues
    exact absurd hrequest (hreplay _ _ _ _ _ _)

omit [DecidableEq ι] in
theorem lastRetry_cons_of_none {m : EventMoment ι} (h : (written m).bind EventWrite.retry = none)
    (past : EventHistory ι) : lastRetry (m :: past) = lastRetry past := by
  simp [lastRetry, h]

omit [DecidableEq ι] in
theorem lastRetry_cons_of_some {m : EventMoment ι} {retry : Option Instant}
    (h : (written m).bind EventWrite.retry = some retry) (past : EventHistory ι) :
    lastRetry (m :: past) = retry := by
  simp [lastRetry, h]

/-- A claim granted after `past` respects the latest retry time. -/
def Waits (past : EventHistory ι) (m : EventMoment ι) : Prop :=
  grant m ≠ none → ∀ retry, lastRetry past = some retry → retry ≤ m.after.clock

private theorem Ordered.unchanged {past : EventHistory ι} {m : EventMoment ι}
    (h : Genuine requests start past m) (hordered : Ordered start past)
    (hafter : m.after.row = m.before.row) (hgrant : grant m = none) (hwritten : written m = none) :
    Ordered start (m :: past) := by
  have hgrants : (m :: past).filterMap grant = past.filterMap grant := by simp [hgrant]
  have hretry : lastRetry (m :: past) = lastRetry past :=
    lastRetry_cons_of_none (by simp [hwritten]) past
  have hrow : m.after.row = (past.store start).row := by rw [hafter, h.before]
  have hclock : (past.store start).clock ≤ m.after.clock := by
    rw [← h.before]
    exact clock_mono h.happened
  constructor
  · rw [hgrants]
    exact hordered.increasing
  · rw [hgrants, History.store_cons, hrow]
    exact hordered.latest
  · rw [History.store_cons, hrow]
    refine List.forall_mem_cons.mpr ⟨fun existing hread => ⟨existing, ?_, .inl rfl⟩,
      hordered.reads⟩
    rw [← h.before]
    exact read_eq h.happened hread
  · rw [hgrants, hretry, History.store_cons, hrow]
    exact hordered.absent
  · rw [hretry, History.store_cons, hrow]
    intro row hrow time htime
    rcases hordered.retry row hrow time htime with hfailed | ⟨hprocessing, hle⟩ | hphase
    · exact .inl hfailed
    · exact .inr (.inl ⟨hprocessing, hle.trans hclock⟩)
    · exact .inr (.inr hphase)

private theorem Ordered.inserted {past : EventHistory ι} {m : EventMoment ι} {row : EventRow}
    (h : Genuine requests start past m) (hordered : Ordered start past)
    (hcall : m.call = .insertIgnore row) (hbefore : m.before.row = none)
    (hafter : m.after.row = some row) (hgrant : grant m = row.lease) (hwritten : written m = none) :
    Ordered start (m :: past) := by
  rw [h.before] at hbefore
  obtain ⟨hnone, hretry⟩ := hordered.absent hbefore
  have hretry' : lastRetry (m :: past) = none :=
    (lastRetry_cons_of_none (by simp [hwritten]) past).trans hretry
  have hissues := h.issues
  rw [hcall] at hissues
  obtain ⟨-, -, token, howner, -⟩ := hissues
  have hgrants : (m :: past).filterMap grant = [(token, row.attempts)] := by
    rw [List.filterMap_cons, hgrant, EventRow.lease, howner, hnone]
    rfl
  constructor
  · rw [hgrants]
    exact List.pairwise_singleton _ _
  · rw [hgrants, History.store_cons, hafter]
    rintro _ ⟨⟩ lease hlease
    rw [List.mem_singleton.mp hlease]
  · refine List.forall_mem_cons.mpr ⟨fun existing hread => ?_, fun m' hm' existing hread => ?_⟩
    · rw [← h.before, read_eq h.happened hread] at hbefore
      cases hbefore
    · obtain ⟨row', hrow', -⟩ := hordered.reads m' hm' existing hread
      rw [hbefore] at hrow'
      cases hrow'
  · rw [History.store_cons, hafter]
    exact (fun h => by cases h)
  · rw [hretry']
    exact (by simp)

private theorem Ordered.updated {past : EventHistory ι} {m : EventMoment ι} {row : EventRow}
    {write : EventWrite} (h : Genuine requests start past m) (hordered : Ordered start past)
    (hbefore : m.before.row = some row) (hafter : m.after.row = some (write.apply row))
    (hgrant : grant m = write.lease) (hwritten : written m = some write)
    (hprecedes : Precedes row (write.apply row))
    (hlease : ∀ lease, write.lease = some lease → lease.2 = row.attempts + 1 ∧
      (row.status = .failed ∨ row.status = .processing) ∧
      ∀ time, row.status = .failed → row.nextRetryAt = some time → time ≤ m.after.clock) :
    Ordered start (m :: past) ∧ Waits past m := by
  rw [h.before] at hbefore
  have hclock : (past.store start).clock ≤ m.after.clock := by
    rw [← h.before]
    exact clock_mono h.happened
  have hattempts : row.attempts ≤ (write.apply row).attempts := by
    rcases hprecedes with hlt | ⟨heq, -⟩
    · exact hlt.le
    · exact heq.le
  have hwaits : Waits past m := by
    intro hne time htime
    obtain ⟨lease, hlease'⟩ := Option.ne_none_iff_exists'.mp hne
    obtain ⟨-, hstatus, hdue⟩ := hlease lease (hgrant ▸ hlease')
    rcases hordered.retry row hbefore time htime with ⟨hfailed, hnext⟩ | ⟨-, hle⟩ | hphase
    · exact hdue time hfailed hnext
    · exact hle.trans hclock
    · rcases hstatus with hstatus | hstatus <;> simp [hstatus, phase] at hphase
  refine ⟨⟨?_, ?_, ?_, ?_, ?_⟩, hwaits⟩
  · rw [List.filterMap_cons, hgrant]
    cases hcase : write.lease with
    | none => exact hordered.increasing
    | some lease =>
      refine List.pairwise_cons.mpr ⟨fun lease' hmem => ?_, hordered.increasing⟩
      rw [(hlease lease hcase).1]
      exact Nat.lt_succ_of_le (hordered.latest row hbefore lease' hmem)
  · rw [History.store_cons, hafter, List.filterMap_cons, hgrant]
    rintro _ ⟨⟩
    have hold : ∀ lease' ∈ past.filterMap grant, lease'.2 ≤ (write.apply row).attempts :=
      fun lease' hmem => (hordered.latest row hbefore lease' hmem).trans hattempts
    cases write with
    | claim attempts token =>
      exact List.forall_mem_cons.mpr ⟨Nat.le_refl _, hold⟩
    | exhausted | processed | failed | replay => exact hold
  · rw [History.store_cons, hafter]
    refine List.forall_mem_cons.mpr ⟨fun existing hread => ?_, fun m' hm' existing hread => ?_⟩
    · have hrow := (read_eq h.happened hread).symm.trans (h.before ▸ hbefore)
      obtain rfl := Option.some.inj hrow
      exact ⟨_, rfl, .inr hprecedes⟩
    · obtain ⟨row', hrow', hle⟩ := hordered.reads m' hm' existing hread
      obtain rfl := Option.some.inj (hbefore.symm.trans hrow')
      refine ⟨_, rfl, .inr ?_⟩
      rcases hle with rfl | hlt
      · exact hprecedes
      · exact hlt.trans hprecedes
  · rw [History.store_cons, hafter]
    exact nofun
  · rw [History.store_cons, hafter]
    rintro _ ⟨⟩ time htime
    cases write with
    | claim =>
      rw [lastRetry_cons_of_none (by simp [hwritten, EventWrite.retry])] at htime
      exact .inr (.inl ⟨rfl, hwaits (by simp [hgrant, EventWrite.lease]) time htime⟩)
    | failed attempts error now =>
      rw [lastRetry_cons_of_some (by rw [hwritten]; rfl)] at htime
      split at htime
      · cases htime
      · rename_i hbudget
        simp only [EventWrite.apply, hbudget, if_false]
        exact .inl ⟨trivial, htime⟩
    | exhausted | processed => exact .inr (.inr rfl)
    | replay => simp [Precedes, EventWrite.apply, phase] at hprecedes

theorem ordered_step {past : EventHistory ι} {m : EventMoment ι}
    (h : Along (Genuine requests start) (m :: past)) (hreplay : NoReplay requests)
    (hstart : start.row = none) (hordered : Ordered start past) (hcurrent : ReadCurrent past m) :
    Ordered start (m :: past) ∧ Waits past m := by
  rcases rowChange h.1.happened with ⟨hafter, hgrant, hwritten⟩ |
    ⟨row, hcall, hbefore, hafter, hgrant, hwritten⟩ |
    ⟨row, owner, write, hcall, hbefore, howned, hafter, hgrant, hwritten⟩
  · exact ⟨hordered.unchanged h.1 hafter hgrant hwritten, fun hne => absurd hgrant hne⟩
  · refine ⟨hordered.inserted h.1 hcall hbefore hafter hgrant hwritten, fun _ time htime => ?_⟩
    rw [h.1.before] at hbefore
    rw [(hordered.absent hbefore).2] at htime
    cases htime
  · obtain ⟨hprecedes, hlease⟩ :=
      precedes_of_update h hreplay hstart hordered hcurrent hcall hbefore howned
    exact hordered.updated h.1 hbefore hafter hgrant hwritten hprecedes hlease

/-- As long as claims of failed rows are made on their current attempt, attempts increase and
claims wait. -/
theorem ordered_of_current {run : EventHistory ι} (h : Along (Genuine requests start) run)
    (hreplay : NoReplay requests) (hstart : start.row = none) (hcurrent : Along ReadCurrent run) :
    Ordered start run ∧ Along Waits run := by
  induction run with
  | nil =>
    refine ⟨⟨List.Pairwise.nil, by simp, by simp, fun _ => ⟨rfl, rfl⟩, ?_⟩, trivial⟩
    rw [History.store_nil, hstart]
    exact nofun
  | cons m past ih =>
    obtain ⟨hordered, hwaits⟩ := ih h.2 hcurrent.2
    obtain ⟨hordered', hwaits'⟩ := ordered_step h hreplay hstart hordered hcurrent.1
    exact ⟨hordered', hwaits', hwaits⟩

/-- A claim made on an attempt that is not the current one repeats an attempt number. -/
theorem current_of_increasing {past : EventHistory ι} {m : EventMoment ι}
    (h : Along (Genuine requests start) (m :: past)) (hreplay : NoReplay requests)
    (hstart : start.row = none) (hordered : Ordered start past)
    (hincreasing : ((m :: past).filterMap grant).Pairwise fun later earlier =>
      earlier.2 < later.2) : ReadCurrent past m := by
  intro hclaims row hrow existing hread hfailed hfailed'
  have hrow' : (past.store start).row = some row := by rw [← h.1.before, hrow]
  obtain ⟨d, hd, hdread⟩ := List.exists_of_findSome?_eq_some hread
  have hpast := (History.mem_own.mp hd).1
  obtain ⟨row', hrow'', holder⟩ := hordered.reads d hpast existing hdread
  obtain rfl := Option.some.inj (hrow'.symm.trans hrow'')
  rcases holder with rfl | hlt | ⟨hattempts, -⟩
  · rfl
  · exfalso
    obtain ⟨status, owner, write, hcall, hlease⟩ := EventCall.claims_iff.mp hclaims
    have hissues := h.1.issues
    rw [hcall] at hissues
    cases write with
    | claim attempts token =>
      obtain ⟨-, -, existing', hread', rfl, rfl, -, rfl, -⟩ := hissues
      obtain rfl := Option.some.inj (hread.symm.trans hread')
      obtain ⟨_, -, hexisting⟩ := (read_formed h.2 hreplay hstart hpast hdread).lease
      obtain ⟨token', hlatest, howner'⟩ := (row_formed h.2 hreplay hstart hrow').lease
      rw [if_neg (by rw [hfailed']; decide)] at hexisting
      rw [if_neg (by rw [hfailed]; decide)] at howner'
      -- neither failed row has an owner, so the update matches
      have hgrant := grant_of_matches h.1.happened hcall hrow
        (by simp [updateMatches, hfailed, hfailed', hexisting, howner'])
      rw [List.filterMap_cons, hgrant] at hincreasing
      have hlt' : row.attempts < existing.attempts + 1 :=
        (List.pairwise_cons.mp hincreasing).1 _ hlatest
      exact absurd hlt (Nat.not_lt_of_le (Nat.le_of_lt_succ hlt'))
    | exhausted | processed | failed | replay => cases hlease
  · exact hattempts

theorem current_of_budget {run : EventHistory ι} (h : Along (Genuine requests start) run)
    (hreplay : NoReplay requests) (hstart : start.row = none)
    (hincreasing : (run.filterMap grant).Pairwise fun later earlier => earlier.2 < later.2) :
    Along ReadCurrent run := by
  induction run with
  | nil => trivial
  | cons m past ih =>
    have hpast : (past.filterMap grant).Pairwise fun later earlier => earlier.2 < later.2 :=
      hincreasing.sublist ((List.sublist_cons_self m past).filterMap grant)
    have hcurrent := ih h.2 hpast
    exact ⟨current_of_increasing h hreplay hstart
      (ordered_of_current h.2 hreplay hstart hcurrent).1 hincreasing, hcurrent⟩

theorem lease_bounds {run : EventHistory ι} (h : Along (Genuine requests start) run)
    {lease : Uuid × ℕ} (hlease : lease ∈ run.filterMap grant) :
    1 ≤ lease.2 ∧ lease.2 ≤ maxAttempts := by
  induction run with
  | nil => simp at hlease
  | cons m past ih =>
    rw [List.filterMap_cons] at hlease
    have hissues := h.1.issues
    rcases rowChange h.1.happened with ⟨-, hgrant, -⟩ | ⟨row, hcall, -, -, hgrant, -⟩ |
      ⟨row, owner, write, hcall, -, -, -, hgrant, -⟩
    · rw [hgrant] at hlease
      exact ih h.2 hlease
    · rw [hcall] at hissues
      obtain ⟨-, hattempts, token, howner, -⟩ := hissues
      rw [hgrant, EventRow.lease, howner, hattempts] at hlease
      rcases List.mem_cons.mp hlease with rfl | hlease
      · exact ⟨Nat.le_refl 1, Nat.succ_pos 7⟩
      · exact ih h.2 hlease
    · rw [hcall] at hissues
      rw [hgrant] at hlease
      cases write with
      | claim attempts token =>
        obtain ⟨-, -, existing, -, -, -, -, hattempts, hle⟩ := hissues
        rcases List.mem_cons.mp hlease with rfl | hlease
        · exact ⟨hattempts ▸ Nat.succ_pos _, hle⟩
        · exact ih h.2 hlease
      | exhausted | processed | failed | replay => exact ih h.2 hlease

/-- Increasing attempts between one and `maxAttempts` are at most `maxAttempts` many. -/
theorem grants_bounded {run : EventHistory ι} (h : Along (Genuine requests start) run)
    (hincreasing : (run.filterMap grant).Pairwise fun later earlier => earlier.2 < later.2) :
    (run.filterMap grant).length ≤ maxAttempts := by
  have hnodup : ((run.filterMap grant).map Prod.snd).Nodup :=
    List.pairwise_map.mpr (hincreasing.imp fun hlt => Nat.ne_of_gt hlt)
  have hsubset : ((run.filterMap grant).map Prod.snd).toFinset ⊆ Finset.Icc 1 maxAttempts := by
    intro attempts hmem
    obtain ⟨lease, hlease, rfl⟩ := List.mem_map.mp (List.mem_toFinset.mp hmem)
    exact Finset.mem_Icc.mpr (lease_bounds h hlease)
  have hcard := Finset.card_le_card hsubset
  rwa [List.toFinset_card_of_nodup hnodup, List.length_map, Nat.card_Icc] at hcard

/-- The retry budget of an event is kept by a run without replay if and only if every claim of
a failed row is made on the row's current attempt. -/
theorem retry_budget_iff (codec : PayloadCodec) {requests : ι → EventRequest}
    (hreplay : NoReplay requests) {start : EventStore} (hstart : start.row = none)
    (schedule : List (ι × ℕ)) :
    Budget (serve codec requests start schedule).history ↔
      Along ReadCurrent (serve codec requests start schedule).history := by
  have hgenuine := serve_genuine codec requests start schedule
  constructor
  · intro hbudget
    exact current_of_budget hgenuine hreplay hstart hbudget.increasing
  · intro hcurrent
    obtain ⟨hordered, hwaits⟩ := ordered_of_current hgenuine hreplay hstart hcurrent
    exact ⟨hordered.increasing, hwaits, grants_bounded hgenuine hordered.increasing⟩

/-- Three deliveries, the first and the third of which fail. -/
def stalled : Fin 5 → EventRequest
  | 1 => .failed 0 1 "timeout"
  | 4 => .failed 2 2 "timeout"
  | _ => .record "invoice.paid" samplePayload "acct_1" false

theorem stalled_noReplay : NoReplay stalled := by
  intro i settings eventId eventType account livemode
  unfold stalled
  split <;> nofun

/-- The second delivery stalls after it has read the first failure, and claims the row again
after the third has claimed it and failed: two claims carry attempt 2, and the second of them
is granted sixty seconds early. -/
theorem retry_budget_fails_stalled :
    NoReplay stalled ∧ noEvent.row = none ∧
      ¬ Budget (serve sampleCodec stalled noEvent
        [(0, 0), (0, 0), (0, 0), (1, 0), (1, 0), (2, 30 * nanosPerSecond), (2, 0), (2, 0), (2, 0),
          (3, 0), (3, 0), (3, 0), (3, 0), (3, 0), (4, 0), (4, 0), (2, 0)]).history := by
  refine ⟨stalled_noReplay, rfl, fun h => ?_⟩
  · have hgrants : List.filterMap grant (serve sampleCodec stalled noEvent
        [(0, 0), (0, 0), (0, 0), (1, 0), (1, 0), (2, 30 * nanosPerSecond), (2, 0), (2, 0), (2, 0),
          (3, 0), (3, 0), (3, 0), (3, 0), (3, 0), (4, 0), (4, 0), (2, 0)]).history =
        [(1, 2), (2, 2), (0, 1)] := by decide +kernel
    have hincreasing := h.increasing
    rw [hgrants] at hincreasing
    exact absurd ((List.pairwise_cons.mp hincreasing).1 (2, 2) List.mem_cons_self)
      (Nat.lt_irrefl 2)

theorem retry_budget_iff_redelivered :
    Budget (serve sampleCodec stalled noEvent
      [(0, 0), (0, 0), (0, 0), (1, 0), (1, 0), (2, 30 * nanosPerSecond), (2, 0), (2, 0), (2, 0),
        (2, 0)]).history := by
  refine (retry_budget_iff sampleCodec stalled_noReplay rfl _).mpr ?_
  decide +kernel

end StripeEvents

end Products
