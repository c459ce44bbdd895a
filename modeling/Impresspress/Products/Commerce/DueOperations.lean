import Impresspress.Concurrent.Fallible
import Impresspress.Products.Commerce.OperationLeases

/-!
# How many operations one pass leases

A pass reads the oldest open operations, four for each that it may lease, and decides which of them
are due only then. Open operations that are not due count against what is read, so that those which
are due can stand behind them. A table's rows stand in the order in which they were created.

## Main definitions

* `Products.Commerce.Operation.leasable`: an operation is due and has an attempt left.
* `Products.Commerce.Leases`: a pass has leased so many operations.

## Main results

* `Products.Commerce.claimEach_alone`: of the operations read, those are leased that can be.
* `Products.Commerce.claimDue_leases_iff`: a pass leases all it should exactly when enough of what
  can be leased is among the oldest open operations.
-/

namespace Products

namespace Commerce

open Concurrent
open Concurrent.Program
open Relational

/-- The store with nobody else at it, and no statement failing. -/
def alone (chance : Chance) (c : CommerceCall) (s : CommerceStore) :
    CommerceAnswer c × CommerceStore :=
  perform { chance with failure := none } c s

/-- The operation is due and has an attempt left. -/
def Operation.leasable (now : Instant) (record : Operation) : Bool :=
  record.eligible now && record.attempts + 1 ≤ maxAttempts

/-- The row is the one that the lease was given on. -/
structure OperationClaim.Held (claim : OperationClaim) (t : Table operationSchema) : Prop where
  row : t.get? claim.record.idempotencyKey = some claim.record
  status : claim.record.status = .processing
  owner : claim.record.processingOwner = some claim.owner

/-- The leases are on different operations, and all are held. -/
structure ClaimBatch.Held (batch : ClaimBatch) (t : Table operationSchema) : Prop where
  distinct : (batch.claims.map fun claim => claim.record.idempotencyKey).Nodup
  held : ∀ claim ∈ batch.claims, claim.Held t

/-- The pass has answered, and holds so many leases. -/
def Leases (outcome : Except WaferError ClaimBatch × CommerceStore) (n : ℕ) : Prop :=
  ∃ batch, outcome.1 = .ok batch ∧ batch.Held outcome.2.operations ∧ batch.claims.length = n

theorem Leases.unique {outcome : Except WaferError ClaimBatch × CommerceStore} {m n : ℕ}
    (hm : Leases outcome m) (hn : Leases outcome n) : m = n := by
  obtain ⟨batch, hbatch, -, rfl⟩ := hm
  obtain ⟨batch', hbatch', -, rfl⟩ := hn
  cases hbatch.symm.trans hbatch'
  rfl

/-! ## One candidate -/

variable {s : CommerceStore} {record : Operation} {now : Instant}

/-- The update of a row as it was read goes through. -/
theorem alone_updateOperation (chance : Chance) (write : OperationWrite)
    (hget : s.operations.get? record.idempotencyKey = some record) :
    ∃ t, s.operations.replace (write.apply record) = some t ∧
      alone chance (.updateOperation record.idempotencyKey record.status record.processingOwner
        write) s =
          (.ok (1 : ℕ), { s with operations := t, clock := s.clock + chance.elapsed }) := by
  obtain ⟨t, ht⟩ : ∃ t, s.operations.replace (write.apply record) = some t := by
    rw [← Option.ne_none_iff_exists', Ne, Table.replace_eq_none_iff]
    rintro ⟨other, -, hne, hclash⟩
    exact hclash ⟨hne, rfl, rfl⟩
  refine ⟨t, ht, ?_⟩
  simp [alone, perform, answer, answerNow, counted, Table.updateWhere, hget, ht]

/-- What a candidate comes to: it is leased when it can be, and no other row changes. -/
structure Decided (now : Instant) (record : Operation) (s : CommerceStore)
    (result : Except WaferError Candidate) (s' : CommerceStore) : Prop where
  others : ∀ key, key ≠ record.idempotencyKey →
    s'.operations.get? key = s.operations.get? key
  leased : record.leasable now = true → ∃ claim, result = .ok (.claimed claim) ∧
    claim.Held s'.operations ∧ claim.record.idempotencyKey = record.idempotencyKey
  passed : record.leasable now = false → result = .ok .skipped ∨ result = .ok .deadLettered

theorem claimOne_alone (hget : s.operations.get? record.idempotencyKey = some record) :
    (claimOne record now).run.Ensures alone s (Decided now record s) := by
  unfold claimOne
  by_cases heligible : record.eligible now = true
  swap
  · have hnot : record.leasable now = false := by
      rw [Operation.leasable, Bool.eq_false_of_not_eq_true heligible, Bool.false_and]
    rw [if_pos heligible]
    exact ⟨fun _ _ => rfl, fun h => absurd h (by rw [hnot]; decide), fun _ => .inl rfl⟩
  rw [if_neg (not_not_intro heligible)]
  by_cases hattempts : record.attempts + 1 > maxAttempts
  · have hnot : record.leasable now = false := by
      rw [Operation.leasable, decide_eq_false (Nat.not_le_of_lt hattempts), Bool.and_false]
    rw [if_pos hattempts]
    intro chance
    obtain ⟨t, ht, halone⟩ := alone_updateOperation chance
      (.deadLetterUnclaimed (exhaustedReason record)) hget
    rw [halone]
    refine ⟨fun key hkey => ?_, fun h => absurd h (by rw [hnot]; decide), fun _ => .inr rfl⟩
    rw [get?_replace_operation hget ht, if_neg hkey]
  · have hleasable : record.leasable now = true := by
      rw [Operation.leasable, heligible, decide_eq_true (Nat.le_of_not_lt hattempts), Bool.true_and]
    rw [if_neg hattempts]
    refine Fallible.ensures_call (fun drawing owner howner => ?_) fun drawing error herror => ?_
    swap
    · cases herror
    cases howner
    intro chance
    obtain ⟨t, ht, halone⟩ := alone_updateOperation (s := (alone drawing .newUuid s).2) chance
      (.claimed (record.attempts + 1) s.nextId now) hget
    have hrow : ∀ key, t.get? key = if key = record.idempotencyKey then
        some ((OperationWrite.claimed (record.attempts + 1) s.nextId now).apply record)
      else s.operations.get? key := fun key => get?_replace_operation hget ht key
    change Ensures alone _ (alone chance (.updateOperation record.idempotencyKey record.status
      record.processingOwner (.claimed (record.attempts + 1) s.nextId now))
        (alone drawing .newUuid s).2).2 _
    rw [halone]
    refine ⟨fun key hkey => ?_, fun _ => ⟨_, rfl, ⟨?_, rfl, rfl⟩, rfl⟩, fun h => ?_⟩
    · rw [hrow, if_neg hkey]
    · exact (hrow record.idempotencyKey).trans (if_pos rfl)
    · rw [hleasable] at h
      cases h

/-! ## The candidates in turn -/

/-- The rows are in the table as they were read. -/
def Fresh (records : List Operation) (t : Table operationSchema) : Prop :=
  (records.map Operation.idempotencyKey).Nodup ∧
    ∀ record ∈ records, t.get? record.idempotencyKey = some record

/-- A pass that has leased some has the candidates before it that it has not looked at. -/
structure Midway (records : List Operation) (batch : ClaimBatch) (t : Table operationSchema) :
    Prop where
  fresh : Fresh records t
  held : batch.Held t
  apart : ∀ claim ∈ batch.claims, ∀ record ∈ records,
    claim.record.idempotencyKey ≠ record.idempotencyKey

/-- One candidate more has been decided. -/
theorem Midway.decided {records : List Operation} {batch : ClaimBatch} {s' : CommerceStore}
    {result : Except WaferError Candidate} (h : Midway (record :: records) batch s.operations)
    (hdecided : Decided now record s result s') :
    Midway records (batch.add record.idempotencyKey result) s'.operations ∧
      (batch.add record.idempotencyKey result).claims.length =
        batch.claims.length + if record.leasable now then 1 else 0 := by
  obtain ⟨hnotMem, hdistinct⟩ := List.nodup_cons.mp h.fresh.1
  have hothers : ∀ other ∈ records, other.idempotencyKey ≠ record.idempotencyKey :=
    fun other hother hkey => hnotMem (hkey ▸ List.mem_map_of_mem hother)
  have hfresh : Fresh records s'.operations := by
    refine ⟨hdistinct, fun other hother => ?_⟩
    rw [hdecided.others _ (hothers other hother)]
    exact h.fresh.2 other (List.mem_cons_of_mem record hother)
  have hheld : ∀ claim ∈ batch.claims, claim.Held s'.operations := fun claim hclaim => by
    have hclaimed := h.held.held claim hclaim
    refine ⟨?_, hclaimed.status, hclaimed.owner⟩
    rw [hdecided.others _ (h.apart claim hclaim record List.mem_cons_self)]
    exact hclaimed.row
  have hapart : ∀ claim ∈ batch.claims, ∀ other ∈ records,
      claim.record.idempotencyKey ≠ other.idempotencyKey := fun claim hclaim other hother =>
    h.apart claim hclaim other (List.mem_cons_of_mem record hother)
  cases hleasable : record.leasable now with
  | true =>
    obtain ⟨claim, rfl, hclaim, hkey⟩ := hdecided.leased hleasable
    refine ⟨⟨hfresh, ⟨?_, ?_⟩, ?_⟩, ?_⟩
    · rw [ClaimBatch.add, List.map_append, List.map_singleton]
      refine h.held.distinct.append (List.nodup_singleton _) (List.disjoint_singleton.mpr ?_)
      rw [List.mem_map, hkey]
      rintro ⟨other, hother, hsame⟩
      exact h.apart other hother record List.mem_cons_self hsame
    · intro other hother
      rcases List.mem_append.mp hother with hother | hother
      · exact hheld other hother
      · rwa [List.mem_singleton.mp hother]
    · intro other hother
      rcases List.mem_append.mp hother with hother | hother
      · exact hapart other hother
      · rw [List.mem_singleton.mp hother, hkey]
        exact fun next hnext => (hothers next hnext).symm
    · rw [ClaimBatch.add, List.length_append, List.length_singleton, if_pos rfl]
  | false =>
    have hbatch : (batch.add record.idempotencyKey result).claims = batch.claims := by
      rcases hdecided.passed hleasable with rfl | rfl <;> rfl
    refine ⟨⟨hfresh, ⟨?_, ?_⟩, ?_⟩, ?_⟩
    · rw [hbatch]
      exact h.held.distinct
    · rwa [hbatch]
    · rwa [hbatch]
    · rw [hbatch, if_neg Bool.false_ne_true, Nat.add_zero]

/-- Of the operations read, those are leased that can be, up to the limit. -/
theorem claimEach_alone (now : Instant) (limit : ℕ) (records : List Operation) (batch : ClaimBatch)
    (h : Midway records batch s.operations) (hlimit : batch.claims.length ≤ limit) :
    (claimEach now limit records batch).run.Ensures alone s fun result s' =>
      Leases (result, s') (min limit (batch.claims.length + records.countP (·.leasable now))) := by
  induction records generalizing batch s with
  | nil =>
    refine ⟨batch, rfl, h.held, ?_⟩
    rw [List.countP_nil, Nat.add_zero, min_eq_right hlimit]
  | cons record records ih =>
    rw [claimEach]
    by_cases hfull : batch.claims.length ≥ limit
    · rw [if_pos hfull]
      refine ⟨batch, rfl, h.held, ?_⟩
      rw [min_eq_left (Nat.le_trans hfull (Nat.le_add_right _ _)), Nat.le_antisymm hlimit hfull]
    · rw [if_neg hfull]
      have hget := h.fresh.2 record List.mem_cons_self
      refine ensures_bind.mpr (ensures_bind.mpr ?_)
      refine (claimOne_alone hget).mono fun result s' hdecided => ?_
      obtain ⟨hmidway, hlength⟩ := h.decided hdecided
      have hnext := ih _ hmidway (by
        rw [hlength]
        split <;> omega)
      rw [hlength, Nat.add_assoc] at hnext
      rw [List.countP_cons, Nat.add_comm (List.countP _ records)]
      exact hnext

/-! ## The pass -/

/-- The open operations, the oldest first. -/
def openOperations (t : Table operationSchema) : List Operation :=
  t.rows.filter fun operation => !operation.status.isTerminal

theorem countP_openOperations (t : Table operationSchema) (now : Instant) :
    (openOperations t).countP (·.leasable now) = t.rows.countP (·.leasable now) := by
  rw [openOperations, List.countP_filter]
  refine List.countP_congr fun record _ => ?_
  rw [Bool.and_eq_true, and_iff_left_iff_imp, Operation.leasable, Bool.and_eq_true]
  rintro ⟨heligible, -⟩
  rw [isTerminal_of_eligible heligible, Bool.not_false]

/-- A pass leases as many operations as it should exactly when so many that can be leased are among
the oldest open operations, four for each that it may lease. -/
theorem claimDue_leases_iff (limit : ℕ) (hlimit : 1 ≤ limit ∧ limit ≤ 100) (s : CommerceStore)
    (chances : ℕ → Chance) :
    let now := s.clock + (chances 0).elapsed
    let due := min limit (s.operations.rows.countP (·.leasable now))
    Leases ((claimDue limit).run.run alone chances s) due ↔
      due ≤ ((openOperations s.operations).take (limit * 4)).countP (·.leasable now) := by
  intro now due
  set oldest := (openOperations s.operations).take (limit * 4) with holdest
  have hclamp : clampLimit limit = limit := by
    rw [clampLimit, min_eq_left hlimit.2, max_eq_right hlimit.1]
  have hsublist : oldest.Sublist s.operations.rows :=
    (List.take_sublist _ _).trans List.filter_sublist
  have hfresh : Fresh oldest s.operations := by
    refine ⟨?_, fun record hrecord => Table.get?_eq_some_iff.mpr ⟨hsublist.subset hrecord, rfl⟩⟩
    exact List.pairwise_map.mpr ((s.operations.compatible.imp fun h => h.1).sublist hsublist)
  have hpass : ∀ reading, (claimEach now limit oldest ⟨[], 0, []⟩).run.Ensures alone
      { s with clock := s.clock + (chances 0).elapsed + reading } fun result s' =>
        Leases (result, s') (min limit (oldest.countP (·.leasable now))) := fun reading => by
    have hstart : Midway oldest ⟨[], 0, []⟩ s.operations :=
      ⟨hfresh, ⟨List.nodup_nil, List.forall_mem_nil _⟩, List.forall_mem_nil _⟩
    have h := claimEach_alone now (s := { s with clock := now + reading }) limit oldest
      ⟨[], 0, []⟩ hstart (Nat.zero_le limit)
    rwa [List.length_nil, Nat.zero_add] at h
  have hleases : Leases ((claimDue limit).run.run alone chances s)
      (min limit (oldest.countP (·.leasable now))) := by
    have h := (hpass (chances 1).elapsed).run fun n => chances (n + 2)
    have hrun : (claimDue limit).run.run alone chances s =
        (claimEach now limit oldest ⟨[], 0, []⟩).run.run alone (fun n => chances (n + 2))
          { s with clock := s.clock + (chances 0).elapsed + (chances 1).elapsed } := by
      rw [claimDue, hclamp]
      rfl
    rw [hrun]
    exact h
  have hle : oldest.countP (·.leasable now) ≤ s.operations.rows.countP (·.leasable now) :=
    hsublist.countP_le
  constructor
  · intro h
    rw [← hleases.unique h]
    exact min_le_right _ _
  · intro h
    have hdue : due = min limit (oldest.countP (·.leasable now)) := by omega
    rwa [hdue]

/-- A store that holds no rows but these. -/
def queueOf (operations : Table operationSchema) : CommerceStore :=
  ⟨.empty, .empty, operations, 0, 0⟩

/-- A new operation, which is due. -/
def oneDue : CommerceStore := queueOf ⟨[.fresh 0 "acct" "a"], .cons nofun .nil⟩

theorem claimDue_leases_due :
    Leases ((claimDue 1).run.run alone (fun _ => {}) oneDue) 1 :=
  (claimDue_leases_iff 1 (by decide) oneDue fun _ => {}).mpr (by decide)

/-- Four operations that wait for their next attempt, and a fifth that is due. -/
def fifthDue : CommerceStore :=
  let waiting (key : String) : Operation :=
    { Operation.fresh 0 "acct" key with status := .failed, attempts := 1, nextAttemptAt := some 60 }
  queueOf ⟨[waiting "a", waiting "b", waiting "c", waiting "d", .fresh 0 "acct" "e"], by decide⟩

theorem not_always_leases : ¬ ∀ (limit : ℕ) (s : CommerceStore) (chances : ℕ → Chance),
    1 ≤ limit ∧ limit ≤ 100 → Leases ((claimDue limit).run.run alone chances s)
      (min limit (s.operations.rows.countP (·.leasable (s.clock + (chances 0).elapsed)))) := by
  intro h
  obtain ⟨batch, hbatch, -, hlength⟩ := h 1 fifthDue (fun _ => {}) (by decide)
  have hnone : ((claimDue 1).run.run alone (fun _ => {}) fifthDue).1 = .ok ⟨[], 0, []⟩ := rfl
  cases hnone.symm.trans hbatch
  exact absurd hlength (by decide)

end Commerce

end Products
