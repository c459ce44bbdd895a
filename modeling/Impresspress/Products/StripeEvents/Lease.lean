import Impresspress.Products.StripeEvents.Calls

/-!
# The processing lease of a Stripe event

A lease is taken under a token that no other lease carries, and the row changes under the
token of its own lease only. Hence an event is completed once, by the holder of the lease it
is under, and a completed row is never touched again. Nothing is assumed about the clock, the
schedule, or the owners that completions and failures present.

## Main definitions

* `Products.StripeEvents.RowChange`: everything a statement can do to the row.
* `Products.StripeEvents.Exclusive`: processing is exclusive and final along a history.

## Main results

* `Products.StripeEvents.leases_distinct`: no two leases carry one token.
* `Products.StripeEvents.processed_final`: a processed row stays as it is.
* `Products.StripeEvents.processing_exclusive_final`: every run is exclusive.
-/

namespace Products

namespace StripeEvents

open Concurrent

variable {ι : Type}

/-- The statement completed the event. -/
def completed (m : EventMoment ι) : Bool := (written m).any EventWrite.completes

/-- The statement completed the event or recorded a failed attempt. -/
def settled (m : EventMoment ι) : Bool :=
  (written m).any fun write => write.completes || write.fails

/-- The lease that was taken last. -/
def lastGrant (past : EventHistory ι) : Option (Uuid × ℕ) := past.findSome? grant

/-- The owner token that a completion or a failure presents. -/
def EventRequest.owner : EventRequest → Option Uuid
  | processed owner => some owner
  | failed owner .. => some owner
  | _ => none

/-- The row is under the lease of `token`. -/
def UnderLease (s : EventStore) (token : Uuid) : Prop :=
  ∃ row, s.row = some row ∧ row.status = .processing ∧ row.processingOwner = some token

/-- The owner that the row names has been drawn before. -/
def TokensDrawn (s : EventStore) : Prop :=
  ∀ row token, s.row = some row → row.processingOwner = some token → token < s.nextUuid

/-- Everything a statement can do to the row. -/
inductive RowChange (m : EventMoment ι) : Prop
  | unchanged (after : m.after.row = m.before.row) (grant : grant m = none)
      (written : written m = none)
  | inserted (row : EventRow) (call : m.call = .insertIgnore row) (before : m.before.row = none)
      (after : m.after.row = some row) (grant : grant m = row.lease) (written : written m = none)
  | updated (row : EventRow) (owner : Option (Option Uuid)) (write : EventWrite)
      (call : m.call = .update row.status owner write) (before : m.before.row = some row)
      (owned : ∀ o, owner = some o → row.processingOwner = o)
      (after : m.after.row = some (write.apply row)) (grant : grant m = write.lease)
      (written : written m = some write)

theorem rowChange {m : EventMoment ι} (h : m.Happened perform) : RowChange m := by
  obtain ⟨i, s, c, answer, after⟩ := m
  obtain ⟨elapsed, hanswer, hafter⟩ := h
  simp only at hanswer hafter
  subst hanswer hafter
  cases c with
  | utcNow => exact .unchanged rfl rfl rfl
  | newUuid => exact .unchanged rfl rfl rfl
  | get => exact .unchanged rfl rfl rfl
  | insertIgnore row =>
    cases hrow : s.row with
    | none =>
      exact .inserted row rfl hrow (by simp [perform, hrow])
        (by simp [grant, grantOf, perform, hrow]) rfl
    | some existing =>
      exact .unchanged (by simp [perform, hrow]) (by simp [grant, grantOf, perform, hrow]) rfl
  | update status owner write =>
    cases hrow : s.row with
    | none =>
      exact .unchanged (by simp [perform, hrow]) (by simp [grant, grantOf, perform, hrow])
        (by simp [written, writtenOf, perform, hrow])
    | some row =>
      by_cases hmatch : updateMatches status owner row = true
      · have hstatus : row.status = status := by
          simpa using (Bool.and_eq_true_iff.mp hmatch).1
        have howned : ∀ o, owner = some o → row.processingOwner = o := by
          rintro o rfl
          simpa using (Bool.and_eq_true_iff.mp hmatch).2
        subst hstatus
        exact .updated row owner write rfl hrow howned (by simp [perform, hrow, hmatch])
          (by simp [grant, grantOf, perform, hrow, hmatch])
          (by simp [written, writtenOf, perform, hrow, hmatch])
      · exact .unchanged (by simp [perform, hrow, hmatch])
          (by simp [grant, grantOf, perform, hrow, hmatch])
          (by simp [written, writtenOf, perform, hrow, hmatch])

theorem grant_of_matches {m : EventMoment ι} (h : m.Happened perform) {status : EventStatus}
    {owner : Option (Option Uuid)} {write : EventWrite} (hcall : m.call = .update status owner write)
    {row : EventRow} (hrow : m.before.row = some row)
    (hmatch : updateMatches status owner row = true) : grant m = write.lease := by
  obtain ⟨i, s, c, answer, after⟩ := m
  obtain ⟨elapsed, hanswer, hafter⟩ := h
  simp only at hanswer hafter hcall hrow
  subst hcall hanswer hafter
  simp [grant, grantOf, perform, hrow, hmatch]

/-- Processing is exclusive and final along a history: one completion at most; completions and
failures come from the holder of the lease that the row is under, which is the one taken last;
leases have tokens of their own; and a processed row is claimed and changed no more. -/
structure Exclusive (requests : ι → EventRequest) (start : EventStore) (run : EventHistory ι) :
    Prop where
  once : (run.filter completed).length ≤ 1
  holder : Along (fun past m => settled m → ∃ token, (requests m.proc).owner = some token ∧
    UnderLease (past.store start) token ∧ ∀ lease, lastGrant past = some lease → lease.1 = token)
    run
  leases : (run.filterMap grant).Pairwise fun lease lease' => lease.1 ≠ lease'.1
  fresh : ∀ lease ∈ run.filterMap grant, ∀ row, start.row = some row →
    row.processingOwner ≠ some lease.1
  final : ∀ later earlier row, run = later ++ earlier → (earlier.store start).row = some row →
    row.status = .processed → ∀ m ∈ later, grant m = none ∧ m.after.row = some row

variable [DecidableEq ι] {requests : ι → EventRequest} {start : EventStore}

theorem notEligible_of_processed {existing : EventRow} {now : Instant}
    (h : existing.status = .processed) : notEligible existing now = some .alreadyProcessed := by
  simp [notEligible, h]

theorem Issues.bidding {request : EventRequest} {m : EventMoment ι} {own : EventHistory ι}
    {token : Uuid} {attempts : ℕ} (hm : m.Happened perform) (h : Issues request own m.call)
    (hgrant : grant m = some (token, attempts)) : Bidding own token := by
  rcases rowChange hm with ⟨-, hnone, -⟩ | ⟨row, hcall, -, -, hlease, -⟩ |
    ⟨row, owner, write, hcall, -, -, -, hlease, -⟩
  · simp [hnone] at hgrant
  · rw [hcall] at h
    obtain ⟨-, -, token', howner, hbid⟩ := h
    have : token' = token := by
      rw [hlease, EventRow.lease, howner] at hgrant
      simp only [Option.map_some, Option.some.injEq, Prod.mk.injEq] at hgrant
      exact hgrant.1
    rwa [← this]
  · rw [hcall] at h
    cases write with
    | claim attempts' token' =>
      obtain ⟨hbid, -⟩ := h
      have : token' = token := by
        rw [hlease] at hgrant
        simp only [EventWrite.lease, Option.some.injEq, Prod.mk.injEq] at hgrant
        exact hgrant.1
      rwa [← this]
    | exhausted | processed | failed | replay => simp [hlease, EventWrite.lease] at hgrant

section Tokens

theorem draw_cases {m : EventMoment ι} (h : m.Happened perform) :
    (draw m = none ∧ m.after.nextUuid = m.before.nextUuid) ∨
      (draw m = some m.before.nextUuid ∧ m.after.nextUuid = m.before.nextUuid + 1) := by
  obtain ⟨i, s, c, answer, after⟩ := m
  obtain ⟨elapsed, hanswer, hafter⟩ := h
  simp only at hanswer hafter
  subst hanswer hafter
  cases c with
  | newUuid => exact .inr ⟨rfl, rfl⟩
  | utcNow => exact .inl ⟨rfl, rfl⟩
  | get => exact .inl ⟨rfl, rfl⟩
  | insertIgnore row => exact .inl ⟨rfl, by cases hrow : s.row <;> simp [perform, hrow]⟩
  | update status owner write =>
    refine .inl ⟨rfl, ?_⟩
    cases hrow : s.row with
    | none => simp [perform, hrow]
    | some row => by_cases hmatch : updateMatches status owner row = true <;>
        simp [perform, hrow, hmatch]

theorem start_le_nextUuid {past : EventHistory ι} (h : Along (Genuine requests start) past) :
    start.nextUuid ≤ (past.store start).nextUuid := by
  induction past with
  | nil => exact Nat.le_refl _
  | cons m past ih =>
    have hstep := ih h.2
    rw [← h.1.before] at hstep
    rw [History.store_cons]
    rcases draw_cases h.1.happened with ⟨-, hnext⟩ | ⟨-, hnext⟩
    · rwa [hnext]
    · rw [hnext]
      exact Nat.le_succ_of_le hstep

/-- Every token drawn in a run lies between the next token at its start and the next one now. -/
theorem draw_bounds {past : EventHistory ι} (h : Along (Genuine requests start) past)
    {m : EventMoment ι} (hm : m ∈ past) {token : Uuid} (hdraw : draw m = some token) :
    start.nextUuid ≤ token ∧ token < (past.store start).nextUuid := by
  induction past with
  | nil => simp at hm
  | cons m' past ih =>
    rw [History.store_cons]
    rcases List.mem_cons.mp hm with rfl | hm
    · have hstart := start_le_nextUuid h.2
      rw [← h.1.before] at hstart
      rcases draw_cases h.1.happened with ⟨hnone, -⟩ | ⟨hsome, hnext⟩
      · simp [hnone] at hdraw
      · rw [hsome, Option.some.injEq] at hdraw
        rw [hnext, ← hdraw]
        exact ⟨hstart, Nat.lt_succ_self _⟩
    · have hbounds := ih h.2 hm
      rw [← h.1.before] at hbounds
      rcases draw_cases h.1.happened with ⟨-, hnext⟩ | ⟨-, hnext⟩
      · rwa [hnext]
      · rw [hnext]
        exact ⟨hbounds.1, Nat.lt_succ_of_lt hbounds.2⟩

/-- A token is drawn once in a run. -/
theorem draw_unique {past : EventHistory ι} (h : Along (Genuine requests start) past)
    {m m' : EventMoment ι} (hm : m ∈ past) (hm' : m' ∈ past) {token : Uuid}
    (hdraw : draw m = some token) (hdraw' : draw m' = some token) : m = m' := by
  induction past with
  | nil => simp at hm
  | cons latest past ih =>
    have hfresh : ∀ d ∈ past, draw latest = some token → draw d ≠ some token := by
      intro d hd hlatest hold
      have hbounds := draw_bounds h.2 hd hold
      rw [← h.1.before] at hbounds
      rcases draw_cases h.1.happened with ⟨hnone, -⟩ | ⟨hsome, -⟩
      · simp [hnone] at hlatest
      · rw [hsome, Option.some.injEq] at hlatest
        exact absurd (hlatest ▸ hbounds.2) (Nat.lt_irrefl _)
    rcases List.mem_cons.mp hm with rfl | hold <;> rcases List.mem_cons.mp hm' with rfl | hold'
    · rfl
    · exact absurd hdraw' (hfresh m' hold' hdraw)
    · exact absurd hdraw (hfresh m hold hdraw')
    · exact ih h.2 hold hold'

theorem drew_of_grant {past : EventHistory ι} (h : Along (Genuine requests start) past)
    {m : EventMoment ι} (hm : m ∈ past) {token : Uuid} {attempts : ℕ}
    (hgrant : grant m = some (token, attempts)) :
    ∃ d ∈ past, d.proc = m.proc ∧ draw d = some token := by
  induction past with
  | nil => simp at hm
  | cons m' past ih =>
    rcases List.mem_cons.mp hm with rfl | hm
    · obtain ⟨d, hd, hdraw⟩ := (h.1.issues.bidding h.1.happened hgrant).drew
      obtain ⟨hd, hproc⟩ := History.mem_own.mp hd
      exact ⟨d, List.mem_cons_of_mem _ hd, hproc, hdraw⟩
    · obtain ⟨d, hd, hdraw⟩ := ih h.2 hm
      exact ⟨d, List.mem_cons_of_mem _ hd, hdraw⟩

/-- No two leases of a run carry one token. -/
theorem leases_distinct {past : EventHistory ι} (h : Along (Genuine requests start) past) :
    (past.filterMap grant).Pairwise fun g g' => g.1 ≠ g'.1 := by
  rw [List.pairwise_filterMap]
  induction past with
  | nil => exact List.Pairwise.nil
  | cons m past ih =>
    refine List.pairwise_cons.mpr ⟨?_, ih h.2⟩
    rintro m' hm' ⟨token, attempts⟩ hgrant ⟨token', attempts'⟩ hgrant' rfl
    -- both leases go back to one draw, so to one call, which bids once
    obtain ⟨d', hd', hproc, hdraw'⟩ := drew_of_grant h.2 hm' hgrant'
    have hbid := h.1.issues.bidding h.1.happened hgrant
    obtain ⟨d, hd, hdraw⟩ := hbid.drew
    obtain ⟨hd, hproc'⟩ := History.mem_own.mp hd
    have hsame : d = d' := draw_unique h.2 hd hd' hdraw hdraw'
    have hown : m' ∈ History.own m.proc past :=
      History.mem_own.mpr ⟨hm', by rw [← hproc, ← hsame, hproc']⟩
    rw [hbid.unclaimed m' hown] at hgrant'
    exact absurd hgrant' (by simp)

end Tokens

section Final

theorem processed_step {past : EventHistory ι} {m : EventMoment ι}
    (h : Genuine requests start past m) {row : EventRow} (hrow : m.before.row = some row)
    (hstatus : row.status = .processed) :
    grant m = none ∧ written m = none ∧ m.after.row = some row := by
  rcases rowChange h.happened with ⟨hafter, hgrant, hwritten⟩ | ⟨_, -, hbefore, -⟩ |
    ⟨row', owner, write, hcall, hbefore, -⟩
  · exact ⟨hgrant, hwritten, hafter.trans hrow⟩
  · simp [hbefore] at hrow
  · have hrow' : row' = row := Option.some.inj (hbefore.symm.trans hrow)
    have hissues := h.issues
    rw [hcall, hrow', hstatus] at hissues
    cases write with
    | claim =>
      obtain ⟨-, -, existing, -, hread, -, heligible, -⟩ := hissues
      simp [notEligible_of_processed hread.symm] at heligible
    | exhausted =>
      obtain ⟨existing, -, hread, -, heligible⟩ := hissues
      simp [notEligible_of_processed hread.symm] at heligible
    | processed => obtain ⟨_, -, hprocessing, -⟩ := hissues; cases hprocessing
    | failed => obtain ⟨_, -, hprocessing, -⟩ := hissues; cases hprocessing
    | replay => obtain ⟨-, hfailed | hdead, -⟩ := hissues <;> contradiction

/-- From the moment the row is processed nothing claims it, updates it or changes it. -/
theorem processed_final (later earlier : EventHistory ι)
    (h : Along (Genuine requests start) (later ++ earlier)) {row : EventRow}
    (hrow : (earlier.store start).row = some row) (hstatus : row.status = .processed) :
    (History.store start (later ++ earlier)).row = some row ∧
      ∀ m ∈ later, grant m = none ∧ written m = none ∧ m.after.row = some row := by
  induction later with
  | nil => exact ⟨hrow, by simp⟩
  | cons m later ih =>
    rw [List.cons_append] at h ⊢
    obtain ⟨hstore, hlater⟩ := ih h.2
    have hstep := processed_step h.1 (by rw [h.1.before, hstore]) hstatus
    exact ⟨hstep.2.2, List.forall_mem_cons.mpr ⟨hstep, hlater⟩⟩

theorem written_completed {m : EventMoment ι} (hm : m.Happened perform) (h : completed m) :
    ∃ row, m.after.row = some row ∧ row.status = .processed := by
  rcases rowChange hm with ⟨-, -, hwritten⟩ | ⟨_, -, -, -, -, hwritten⟩ |
    ⟨row, _, write, -, -, -, hafter, -, hwritten⟩
  · simp [completed, hwritten] at h
  · simp [completed, hwritten] at h
  · cases write with
    | processed now => exact ⟨_, hafter, rfl⟩
    | claim | exhausted | failed | replay =>
      simp [completed, hwritten, EventWrite.completes] at h

theorem completed_last {m : EventMoment ι} {past : EventHistory ι}
    (h : Along (Genuine requests start) (m :: past)) (hm : completed m) :
    ∀ m' ∈ past, completed m' = false := by
  intro m' hm'
  by_contra hcompleted
  obtain ⟨later, earlier, rfl⟩ := List.append_of_mem hm'
  obtain ⟨row, hrow, hstatus⟩ := written_completed h.2.earlier.1.happened
    (by simpa using hcompleted)
  have hfinal := processed_final (m :: later) (m' :: earlier) h hrow hstatus
  simp [completed, (hfinal.2 m List.mem_cons_self).2.1] at hm

theorem completed_once {run : EventHistory ι} (h : Along (Genuine requests start) run) :
    (run.filter completed).length ≤ 1 := by
  induction run with
  | nil => simp
  | cons m past ih =>
    by_cases hm : completed m = true
    · have hpast : past.filter completed = [] := by
        simpa [List.filter_eq_nil_iff] using completed_last h hm
      simp [hm, hpast]
    · simpa [hm] using ih h.2

theorem completed_unique {run : EventHistory ι} (h : Along (Genuine requests start) run)
    {m m' : EventMoment ι} (hm : m ∈ run) (hm' : m' ∈ run) (hcompleted : completed m)
    (hcompleted' : completed m') : m = m' := by
  have hmem := List.mem_filter.mpr ⟨hm, hcompleted⟩
  have hmem' := List.mem_filter.mpr ⟨hm', hcompleted'⟩
  obtain ⟨m'', hm''⟩ := List.length_eq_one_iff.mp
    (Nat.le_antisymm (completed_once h) (List.length_pos_of_mem hmem))
  rw [hm'', List.mem_singleton] at hmem hmem'
  rw [hmem, hmem']

end Final

section Holder

/-- A row under a lease names the owner of the lease that was taken last. -/
theorem owner_of_lastGrant {past : EventHistory ι} (h : Along (Genuine requests start) past)
    {row : EventRow} (hrow : (past.store start).row = some row) (hstatus : row.status = .processing)
    {lease : Uuid × ℕ} (hlease : lastGrant past = some lease) :
    row.processingOwner = some lease.1 := by
  induction past generalizing row with
  | nil => simp [lastGrant] at hlease
  | cons m past ih =>
    rw [History.store_cons] at hrow
    have hbefore := h.1.before
    rcases rowChange h.1.happened with ⟨hafter, hgrant, -⟩ |
      ⟨row', hcall, -, hafter, hgrant, -⟩ |
      ⟨row', owner, write, hcall, hrow', -, hafter, hgrant, -⟩
    · refine ih h.2 (by rw [← hbefore, ← hafter, hrow]) hstatus ?_
      simpa [lastGrant, hgrant] using hlease
    · obtain rfl := Option.some.inj (hafter.symm.trans hrow)
      cases howner : row'.processingOwner with
      | none =>
        have hissues := h.1.issues
        rw [hcall] at hissues
        obtain ⟨-, -, token, hsome, -⟩ := hissues
        simp [hsome] at howner
      | some token =>
        simp [lastGrant, hgrant, EventRow.lease, howner] at hlease
        simp [← hlease]
    · obtain rfl := Option.some.inj (hafter.symm.trans hrow)
      cases write with
      | claim =>
        simp only [lastGrant, List.findSome?_cons, hgrant, EventWrite.lease,
          Option.some.injEq] at hlease
        rw [← hlease]
        rfl
      | failed =>
        simp only [EventWrite.apply] at hstatus
        split at hstatus <;> cases hstatus
      | exhausted | processed | replay => cases hstatus

/-- Whoever completes the event or records a failure presents the token of the lease that the
row is under. -/
theorem settled_holder {past : EventHistory ι} {m : EventMoment ι}
    (h : Genuine requests start past m) (hsettled : settled m) :
    ∃ token, (requests m.proc).owner = some token ∧ UnderLease (past.store start) token := by
  rcases rowChange h.happened with ⟨-, -, hwritten⟩ | ⟨_, -, -, -, -, hwritten⟩ |
    ⟨row, owner, write, hcall, hbefore, howned, -, -, hwritten⟩
  · simp [settled, hwritten] at hsettled
  · simp [settled, hwritten] at hsettled
  · rw [h.before] at hbefore
    have hissues := h.issues
    rw [hcall] at hissues
    cases write with
    | processed =>
      obtain ⟨token, hrequest, hstatus, howner⟩ := hissues
      exact ⟨token, by rw [hrequest]; rfl, row, hbefore, hstatus, howned _ howner⟩
    | failed =>
      obtain ⟨token, hrequest, hstatus, howner⟩ := hissues
      exact ⟨token, by rw [hrequest]; rfl, row, hbefore, hstatus, howned _ howner⟩
    | claim | exhausted | replay =>
      simp [settled, hwritten, EventWrite.completes, EventWrite.fails] at hsettled

theorem settled_holder_last {run : EventHistory ι} (h : Along (Genuine requests start) run) :
    Along (fun past m => settled m → ∃ token, (requests m.proc).owner = some token ∧
      UnderLease (past.store start) token ∧
      ∀ lease, lastGrant past = some lease → lease.1 = token) run := by
  induction run with
  | nil => trivial
  | cons m past ih =>
    refine ⟨fun hsettled => ?_, ih h.2⟩
    obtain ⟨token, howner, row, hrow, hstatus, hrowner⟩ := settled_holder h.1 hsettled
    refine ⟨token, howner, ⟨row, hrow, hstatus, hrowner⟩, fun lease hlease => ?_⟩
    exact Option.some.inj ((owner_of_lastGrant h.2 hrow hstatus hlease).symm.trans hrowner)

end Holder

theorem exclusive {run : EventHistory ι} (hstart : TokensDrawn start)
    (h : Along (Genuine requests start) run) : Exclusive requests start run where
  once := completed_once h
  holder := settled_holder_last h
  leases := leases_distinct h
  fresh := by
    rintro ⟨token, attempts⟩ hlease row hrow howner
    obtain ⟨m, hm, hgrant⟩ := List.mem_filterMap.mp hlease
    obtain ⟨d, hd, -, hdraw⟩ := drew_of_grant h hm hgrant
    exact Nat.lt_irrefl _
      (Nat.lt_of_lt_of_le (hstart row token hrow howner) (draw_bounds h hd hdraw).1)
  final := by
    rintro later earlier row rfl hrow hstatus m hm
    have hfinal := (processed_final later earlier h hrow hstatus).2 m hm
    exact ⟨hfinal.1, hfinal.2.2⟩

/-- In every run of any number of calls on one event, processing is exclusive and final; at
most one completion returns successfully, and every claim that a call returns is a lease that
the call has taken. -/
theorem processing_exclusive_final (codec : PayloadCodec) (requests : ι → EventRequest)
    {start : EventStore} (hstart : TokensDrawn start) (schedule : List (ι × ℕ)) :
    Exclusive requests start (serve codec requests start schedule).history ∧
      (∀ i j owner owner', requests i = .processed owner → requests j = .processed owner' →
        (serve codec requests start schedule).running i = .done (.marked (.ok ())) →
        (serve codec requests start schedule).running j = .done (.marked (.ok ())) → i = j) ∧
      ∀ i token attempts, (serve codec requests start schedule).running i =
          .done (.recorded (.ok (.claimed token attempts))) →
        ∃ m ∈ (serve codec requests start schedule).history, m.proc = i ∧
          grant m = some (token, attempts) := by
  have hgenuine := serve_genuine codec requests start schedule
  refine ⟨exclusive hstart hgenuine, fun i j owner owner' hi hj hdone hdone' => ?_,
    fun i token attempts hdone => ?_⟩
  · obtain ⟨m, hm, write, hwritten, hcompletes, -⟩ := serve_earned codec requests start schedule
      hdone
    obtain ⟨m', hm', write', hwritten', hcompletes', -⟩ := serve_earned codec requests start
      schedule hdone'
    obtain ⟨hm, hproc⟩ := History.mem_own.mp hm
    obtain ⟨hm', hproc'⟩ := History.mem_own.mp hm'
    have hsame : m = m' := completed_unique hgenuine hm hm'
      (by rw [completed, hwritten, Option.any_some]; exact hcompletes owner hi)
      (by rw [completed, hwritten', Option.any_some]; exact hcompletes' owner' hj)
    rw [← hproc, ← hproc', hsame]
  · obtain ⟨m, hm, hgrant⟩ := serve_earned codec requests start schedule hdone token attempts rfl
    obtain ⟨hm, hproc⟩ := History.mem_own.mp hm
    exact ⟨m, hm, hproc, hgrant⟩

/-- A delivery, its completion, and a second delivery. -/
def redelivered : Fin 3 → EventRequest
  | 1 => .processed 0
  | _ => .record "invoice.paid" samplePayload "acct_1" false

theorem processing_exclusive_final_redelivered :
    TokensDrawn noEvent ∧
      Exclusive redelivered noEvent (serve sampleCodec redelivered noEvent
        [(0, 0), (0, 0), (0, 0), (1, 5), (1, 0), (2, 0), (2, 0), (2, 0), (2, 0)]).history ∧
      (serve sampleCodec redelivered noEvent
        [(0, 0), (0, 0), (0, 0), (1, 5), (1, 0), (2, 0), (2, 0), (2, 0), (2, 0)]).running 2 =
          .done (.recorded (.ok .alreadyProcessed)) :=
  have hstart : TokensDrawn noEvent := fun _ _ h => nomatch h
  ⟨hstart, (processing_exclusive_final sampleCodec redelivered hstart _).1, rfl⟩

end StripeEvents

end Products
