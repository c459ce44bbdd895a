import Impresspress.Products.Commerce.Runs

/-!
# What the functions of the block touch

Most functions write to one table only. Which tables a function writes is said once for each, so
that an argument about one table can pass over the functions that leave it alone.

## Main definitions

* `Products.Commerce.Footprint`: what a call touches.
* `Products.Commerce.Touches`: a program whose calls touch nothing else.
-/

namespace Products

namespace Commerce

open Concurrent

/-- What a call touches: nothing, or one of the tables. -/
inductive Footprint where
  | reads
  | orders
  | refunds
  | operations
  deriving DecidableEq, Repr

def CommerceCall.footprint : CommerceCall → Footprint
  | createOrder _ | addLineItem _ | deleteLineItems _ | deleteOrder _ | updateOrder ..
  | setOrder .. => .orders
  | createRefund _ | updateRefund .. | setRefund .. => .refunds
  | upsertOperation _ | updateOperation .. | setOperation .. => .operations
  | _ => .reads

attribute [simp] CommerceCall.footprint

/-- Every call of the program touches one of `fs`. -/
def Touches {α : Type} (fs : List Footprint) (p : CommerceProgram α) : Prop :=
  p.run.Only fun c => c.footprint ∈ fs

section Combinators

variable {α β : Type} {fs : List Footprint}

theorem Touches.mono {fs' : List Footprint} {p : CommerceProgram α} (hp : Touches fs p)
    (h : fs ⊆ fs') : Touches fs' p :=
  Program.Only.mono hp fun _ hc => h hc

theorem Touches.pure (result : Except WaferError α) :
    Touches fs (ExceptT.mk (Pure.pure result) : CommerceProgram α) := trivial

theorem Touches.bind {p : CommerceProgram β} {f : β → CommerceProgram α} (hp : Touches fs p)
    (hf : ∀ b, Touches fs (f b)) : Touches fs (p >>= f) :=
  Program.Only.bind_except hp hf

theorem Touches.attempt {p : CommerceProgram α} (hp : Touches fs p) : Touches fs (attempt p) :=
  Program.Only.bind hp fun _ => trivial

theorem Touches.call {c : CommerceCall} (h : c.footprint ∈ fs) : Touches fs (call c) :=
  ⟨h, fun _ => trivial⟩

theorem Touches.optional {p : CommerceProgram α} (hp : Touches fs p) : Touches fs (optional p) := by
  refine hp.attempt.bind fun result => ?_
  cases result with
  | ok row => exact .pure (.ok (some row))
  | error error =>
    dsimp only
    split
    · exact .pure (.ok none)
    · exact .pure (.error error)

end Combinators

theorem reconcileRefundTotal_touches (id : RowId) (target : ℤ) :
    Touches [.reads, .orders] (reconcileRefundTotal id target) := by
  refine .bind (.call (by simp)) fun purchase => ?_
  split
  · exact .pure (.error _)
  split
  · exact .pure (.ok _)
  split
  · exact .pure (.error _)
  refine .bind (.call (by simp)) fun rows => .bind (.call (by simp)) fun reconciled => ?_
  split
  · exact .pure (.ok _)
  · exact .pure (.error _)

theorem insertClaim_touches (claim : RefundClaim) :
    Touches [.reads, .refunds] (insertClaim claim) := by
  refine .bind (.attempt (.call (by simp))) fun result => ?_
  split
  · exact .pure (.ok _)
  refine .bind (.optional (.call (by simp))) fun existing => ?_
  split
  · split
    · exact .pure (.error _)
    · exact .pure (.ok _)
  refine .bind (.call (by simp)) fun active => ?_
  split
  · exact .pure (.error _)
  · exact .pure (.error _)

theorem claimRefund_touches (claim : RefundClaim) :
    Touches [.reads, .refunds] (claimRefund claim) := by
  refine .bind (.optional (.call (by simp))) fun existing => ?_
  split
  · split
    · exact .pure (.error _)
    split
    · exact .call (by simp)
    · exact .pure (.ok _)
  refine .bind (.call (by simp)) fun active => ?_
  split
  · exact .pure (.error _)
  · exact insertClaim_touches claim

theorem recordProviderResponse_touches (id : RowId) (response : ProviderResponse) :
    Touches [.reads, .refunds] (recordProviderResponse id response) := by
  refine .bind (.call (by simp)) fun current => ?_
  split
  · split
    · exact .pure (.error _)
    · exact .pure (.ok _)
  refine .bind (.call (by simp)) fun rows => .bind (.call (by simp)) fun updated => ?_
  split
  · exact .pure (.ok _)
  · exact .pure (.error _)

theorem tryWebhookResponse_touches (id : RowId) (response : ProviderResponse) (eventCreated : ℤ)
    (attempts : ℕ) :
    Touches [.reads, .refunds] (tryWebhookResponse id response eventCreated attempts) := by
  induction attempts with
  | zero => exact .pure (.error _)
  | succ attempts ih =>
    refine .bind (.call (by simp)) fun current => ?_
    split
    · exact .pure (.error _)
    split
    · exact .pure (.ok _)
    split
    · exact .pure (.ok _)
    split
    · exact .pure (.error _)
    refine .bind (.call (by simp)) fun rows => ?_
    split
    · exact .bind (.call (by simp)) fun record => .pure (.ok _)
    · exact ih

theorem recordWebhookResponse_touches (id : RowId) (response : ProviderResponse)
    (eventCreated : ℤ) :
    Touches [.reads, .refunds] (recordWebhookResponse id response eventCreated) := by
  unfold recordWebhookResponse
  split
  · exact .pure (.error _)
  · exact tryWebhookResponse_touches id response eventCreated 3

theorem ensureOperation_touches (refund : Refund) :
    Touches [.reads, .operations] (ensureOperation refund) := by
  unfold ensureOperation
  split
  · exact .pure (.error _)
  refine .bind (.call (by simp)) fun _ =>
    .bind (.call (by simp)) fun record => ?_
  split
  · exact .pure (.error _)
  · exact .pure (.ok _)

theorem resolveUnleased_touches (key : String) (succeeded : Bool)
    (response : Option ProviderResponse) (message : String) :
    Touches [.reads, .operations] (resolveUnleased key succeeded response message) :=
  .bind (.call (by simp)) fun _ => .pure (.ok _)

theorem resolveOperations_touches (succeeded : Bool) (response : Option ProviderResponse)
    (message : String) (operations : List Operation) :
    Touches [.reads, .operations] (resolveOperations succeeded response message operations) := by
  induction operations with
  | nil => exact .pure (.ok _)
  | cons operation operations ih =>
    unfold resolveOperations
    by_cases h : operation.status ≠ if succeeded then .succeeded else .deadLetter
    · rw [if_pos h]
      exact .bind (resolveUnleased_touches ..) fun _ => ih
    · rw [if_neg h]
      exact ih

theorem resolveForAggregate_touches (aggregateId : RowId) (succeeded : Bool)
    (response : Option ProviderResponse) (message : String) :
    Touches [.reads, .operations] (resolveForAggregate aggregateId succeeded response message) :=
  .bind (.call (by simp)) fun operations => resolveOperations_touches ..

theorem claimOne_touches (record : Operation) (now : Instant) :
    Touches [.reads, .operations] (claimOne record now) := by
  unfold claimOne
  split
  · exact .pure (.ok _)
  split
  · exact .bind (.call (by simp)) fun rows => .pure (.ok _)
  refine .bind (.call (by simp)) fun owner => .bind (.call (by simp))
    fun rows => ?_
  split
  · exact .pure (.ok _)
  · exact .pure (.ok _)

theorem claimEach_touches (now : Instant) (limit : ℕ) (records : List Operation)
    (batch : ClaimBatch) : Touches [.reads, .operations] (claimEach now limit records batch) := by
  induction records generalizing batch with
  | nil => exact .pure (.ok _)
  | cons record records ih =>
    unfold claimEach
    split
    · exact .pure (.ok _)
    · exact .bind (.attempt (claimOne_touches record now)) fun candidate => ih _

theorem claimDue_touches (limit : ℕ) : Touches [.reads, .operations] (claimDue limit) :=
  .bind (.call (by simp)) fun now => .bind (.call (by simp)) fun candidates =>
    claimEach_touches now limit candidates _

theorem markCompleted_touches (key : String) (owner : RowId)
    (response : Option ProviderResponse) :
    Touches [.reads, .operations] (markCompleted key owner response) := by
  refine .bind (.call (by simp)) fun rows => ?_
  split
  · exact .pure (.ok _)
  refine .bind (.call (by simp)) fun record => ?_
  split
  · exact .pure (.ok _)
  · exact .pure (.error _)

theorem markRetry_touches (key : String) (owner : RowId) (attempts : ℕ) (message : String) :
    Touches [.reads, .operations] (markRetry key owner attempts message) := by
  refine .bind (.call (by simp)) fun now => .bind (.call (by simp))
    fun rows => ?_
  split
  · exact .pure (.error _)
  · exact .pure (.ok _)

theorem createRefund_touches (params : StripeRefundParams) (source : Option String) :
    Touches [.reads] (createRefund params source) := by
  refine .bind (.call (by simp)) fun livemode => ?_
  split
  · exact .pure (.error _)
  split
  · exact .pure (.error _)
  · exact .bind (.call (by simp)) fun value => .pure _

theorem retrieveRefund_touches (params : StripeRefundParams) (refundId : String)
    (source : Option String) : Touches [.reads] (retrieveRefund params refundId source) := by
  unfold retrieveRefund
  split
  · exact .pure (.error _)
  refine .bind (.call (by simp)) fun livemode => ?_
  split
  · exact .pure (.error _)
  · exact .bind (.call (by simp)) fun value => .pure _

theorem recordRefusal_touches (refund : Refund) (operation : Operation) (error : WaferError) :
    Touches [.reads, .refunds, .operations] (recordRefusal refund operation error) := by
  unfold recordRefusal
  split
  · exact .bind (.attempt (.call (by simp))) fun _ => .pure (.ok _)
  · refine .bind (.attempt (.call (by simp))) fun _ =>
      .bind (.attempt ((resolveUnleased_touches ..).mono (by decide))) fun _ => .pure (.ok _)

theorem recordReconciliation_touches (refund : Refund) (purchase : Order) :
    Touches [.reads, .refunds] (recordReconciliation refund purchase) := by
  unfold recordReconciliation
  split
  · exact .bind ((createRefund_touches ..).mono (by decide)) fun provider =>
      .bind (recordProviderResponse_touches ..) fun ledger => .pure (.ok _)
  · exact .bind ((retrieveRefund_touches ..).mono (by decide)) fun provider =>
      .bind (.call (by simp)) fun now =>
        .bind (recordWebhookResponse_touches ..) fun ledger => .pure (.ok _)

end Commerce

end Products
