import Impresspress.Concurrent.Typestate
import Impresspress.Files.Handlers

/-!
# What an access to a share goes through

An access reads the share, then the clock, and spends an access if the share had not expired by
then. No other request spends one.

## Main definitions

* `Files.AccessPhase`, `Files.accessStates`: what a request knows of a share.

## Main results

* `Files.FileRequest.follows_access`: every request follows the typestate.
-/

namespace Files

open Concurrent Program

/-- What a request knows of a share: the row that a token found, then the time, and then that an
access was spent. -/
inductive AccessPhase where
  | begun
  | read (token : String) (share : ShareRow)
  | timed (token : String) (share : ShareRow) (now : ℕ)
  | spent (token : String) (share : ShareRow) (now : ℕ)
  deriving DecidableEq, Repr

/-- The share does not end before `now`. -/
def ShareRow.Live (services : FileServices) (share : ShareRow) (now : ℕ) : Prop :=
  ∃ expires, share.expiresAt.bind services.parseRfc3339 = some expires ∧ now ≤ expires

namespace AccessPhase

def after : AccessPhase → (c : FileCall) → Outcome Unit FileReply c → AccessPhase
  | .begun, .findByToken token, .ok (some share) => .read token share
  | .read token share, .utcNow, .ok now => .timed token share now
  | .timed token share now, .incrementAccessCount .., .ok true => .spent token share now
  | φ, _, _ => φ

/-- The clock is not read again, and an access is spent on the share that was read, within its cap,
before it ends. -/
def permits (services : FileServices) (φ : AccessPhase) : FileCall → Prop
  | .utcNow => φ = .begun ∨ ∃ token share, φ = .read token share
  | .incrementAccessCount id max => ∃ token share now, φ = .timed token share now ∧
      id = share.id ∧ max = share.maxAccessCount.getD 0 ∧ share.Live services now
  | _ => True

/-- An access has been spent. -/
def Spent (φ : AccessPhase) : Prop := ∃ token share now, φ = .spent token share now

end AccessPhase

/-- What the requests follow. -/
def accessStates (services : FileServices) : Typestate (Outcome Unit FileReply) AccessPhase where
  after := AccessPhase.after
  permits := AccessPhase.permits services

variable {services : FileServices} {ε α β : Type} {φ : AccessPhase}

/-! ## Requests that open no share -/

/-- The calls that every request makes. -/
def Plain : FileCall → Prop
  | .findByToken _ => False
  | .incrementAccessCount .. => False
  | _ => True

section Plain

variable {K : FileCall → Prop}

theorem yields_ask {c : FileCall} (hc : K c) (refusal : ε) :
    (ask c refusal).run.Yields K fun _ => True := by
  refine ⟨hc, fun answer => ?_⟩
  cases answer <;> trivial

theorem yields_attempt {c : FileCall} (hc : K c) :
    (attempt c : FileHandler ε _).run.Yields K fun _ => True :=
  ⟨hc, fun _ => trivial⟩

/-- Handlers that make calls of one kind, one after the other. -/
theorem yields_bind {p : FileHandler ε α} {f : α → FileHandler ε β}
    (hp : p.run.Yields K fun _ => True) (hf : ∀ a, (f a).run.Yields K fun _ => True) :
    (p >>= f).run.Yields K fun _ => True :=
  hp.bindExcept (fun a _ => hf a) fun _ _ => trivial

theorem yields_ite {p q : FileHandler ε α} {c : Prop} [Decidable c]
    (hp : p.run.Yields K fun _ => True) (hq : q.run.Yields K fun _ => True) :
    (if c then p else q).run.Yields K fun _ => True := by
  split
  · exact hp
  · exact hq

/-- A handler whose refusal is looked at. -/
theorem yields_caught {ε' : Type} {p : FileHandler ε' α} (hp : p.run.Yields K fun _ => True) :
    (ExceptT.mk (p.run >>= fun result => pure (.ok result)) :
      FileHandler ε (Except ε' α)).run.Yields K fun _ => True :=
  hp.bind fun _ _ => trivial

theorem yields_deleteBlobs (bucket : String) (blobs : List String) :
    (deleteBlobs bucket blobs : FileHandler ε Unit).run.Yields Plain fun _ => True := by
  induction blobs with
  | nil => trivial
  | cons blob blobs ih => exact yields_bind (yields_attempt trivial) fun _ => ih

theorem yields_sweepRow (row : ObjectRow) :
    (sweepRow row : FileHandler ε Unit).run.Yields Plain fun _ => True := by
  refine yields_bind (yields_attempt trivial) fun deleted => ?_
  cases deleted with
  | error _ => trivial
  | ok deleted =>
    dsimp only
    split
    · exact yields_deleteBlobs _ _
    · trivial

theorem yields_sweepRows (rows : List ObjectRow) :
    (sweepRows rows : FileHandler ε Unit).run.Yields Plain fun _ => True := by
  induction rows with
  | nil => trivial
  | cons row rows ih => exact yields_bind (yields_sweepRow row) fun _ => ih

theorem yields_sweepStalePending (user : String) :
    (sweepStalePending user : FileHandler ε Unit).run.Yields Plain fun _ => True := by
  refine yields_bind (yields_attempt trivial) fun now => ?_
  cases now with
  | error _ => trivial
  | ok now =>
    refine yields_bind (yields_attempt trivial) fun rows => ?_
    cases rows with
    | error _ => trivial
    | ok rows => exact yields_sweepRows rows

theorem yields_claimExisting (existing : ObjectRow) (claim : PendingClaim) :
    (claimExisting existing claim).run.Yields Plain fun _ => True := by
  have hreplaced : (replacedBy claim existing).run.Yields Plain fun _ => True := by
    unfold replacedBy
    cases existing.status with
    | complete => trivial
    | pending =>
      exact yields_bind (yields_ask trivial _) fun now =>
        yields_ite trivial (yields_ite trivial trivial)
  refine yields_bind hreplaced fun replaced => yields_bind (yields_ask trivial _) fun outcome => ?_
  cases outcome with
  | updated => trivial
  | noMatch => trivial
  | refused guard =>
    refine yields_bind (yields_ask trivial _) fun found => ?_
    cases found with
    | none => trivial
    | some now =>
      dsimp only
      split <;> trivial

theorem yields_insertReservation (claim : PendingClaim) :
    (insertReservation claim).run.Yields Plain fun _ => True := by
  refine yields_bind (yields_ask trivial _) fun id => yields_bind (yields_ask trivial _)
    fun outcome => ?_
  cases outcome <;> trivial

theorem yields_reserveAgain (claim : PendingClaim) (notInserted : ReserveError) :
    (reserveAgain claim notInserted).run.Yields Plain fun _ => True := by
  refine yields_bind (yields_ask trivial _) fun found => ?_
  cases found with
  | some existing => exact yields_claimExisting existing claim
  | none => trivial

theorem yields_reserveUpload (services : FileServices) (bucket key : String) (size : ℤ)
    (contentType uploadedBy : String) (quota : QuotaConfig) :
    (reserveUpload services bucket key size contentType uploadedBy quota).run.Yields Plain
      fun _ => True := by
  refine yields_bind (yields_ask trivial _) fun uploadedAt =>
    yields_bind (yields_ask trivial _) fun drawn =>
      yields_bind (yields_ask trivial _) fun found => ?_
  cases found with
  | some existing => exact yields_claimExisting existing _
  | none =>
    refine yields_bind (yields_insertReservation _) fun outcome => ?_
    cases outcome with
    | created id => trivial
    | keyTaken => exact yields_reserveAgain _ _
    | refused refusal => exact yields_reserveAgain _ _

theorem yields_settleUpload (reservation : Reservation) :
    (settleUpload reservation).run.Yields Plain fun _ => True := by
  have hmark : (markComplete reservation (internal
      "Upload stored but could not be recorded")).run.Yields Plain fun _ => True := by
    refine yields_bind (yields_ask trivial _) fun touched => ?_
    split
    · trivial
    · refine yields_bind (yields_ask trivial _) fun found => ?_
      cases found <;> trivial
  refine yields_bind hmark fun completion => ?_
  cases completion <;> exact yields_bind (yields_deleteBlobs _ _) fun _ => trivial

theorem yields_rollBackUpload (reservation : Reservation) :
    (rollBackUpload reservation).run.Yields Plain fun _ => True := by
  have hrelease : (releaseReservation reservation).run.Yields Plain fun _ => True := by
    unfold releaseReservation
    split <;> exact yields_bind (yields_ask trivial _) fun _ => trivial
  refine yields_bind (yields_caught hrelease) fun released => ?_
  split <;> exact yields_bind (yields_deleteBlobs _ _) fun _ => trivial

theorem yields_uploadObject (services : FileServices) (user bucket key contentType : String)
    (content : Content) :
    (uploadObject services user bucket key contentType content).run.Yields Plain
      fun _ => True := by
  refine yields_bind (yields_sweepStalePending user) fun _ =>
    yields_bind (yields_ask trivial _) fun quota => ?_
  split
  · trivial
  · refine yields_bind (yields_caught (yields_reserveUpload services ..)) fun reserved => ?_
    cases reserved with
    | error _ => trivial
    | ok reservation =>
      refine yields_bind (yields_attempt trivial) fun stored => ?_
      cases stored with
      | ok _ => exact yields_settleUpload reservation
      | error _ => exact yields_rollBackUpload reservation

theorem yields_deleteRounds (bucket key : String) (rounds : ℕ) :
    (deleteRounds bucket key rounds).run.Yields Plain fun _ => True := by
  induction rounds with
  | zero => trivial
  | succ rounds ih =>
    refine yields_bind (yields_ask trivial _) fun found => ?_
    cases found with
    | none => trivial
    | some stored =>
      refine yields_bind (yields_ask trivial _) fun deleted => ?_
      split
      · exact yields_bind (yields_deleteBlobs _ _) fun _ => trivial
      · exact ih

theorem yields_deleteShare (user : String) (isAdmin : Bool) (id : ℕ) :
    (deleteShare user isAdmin id).run.Yields Plain fun _ => True := by
  refine yields_bind (yields_ask trivial _) fun found => ?_
  cases found with
  | none => trivial
  | some share =>
    dsimp only
    split
    · trivial
    · refine yields_bind (yields_ask trivial _) fun deleted => ?_
      split <;> trivial

/-- A request that is no access makes no call that an access is known by. -/
theorem FileRequest.yields_plain (services : FileServices) (request : FileRequest)
    (hrequest : ∀ token, request ≠ .access token) :
    (request.handler services).run.Yields Plain fun _ => True := by
  cases request with
  | upload user bucket key contentType content => exact yields_uploadObject services ..
  | deleteObject bucket key => exact yields_deleteRounds bucket key 3
  | sweep user => exact yields_bind (yields_sweepStalePending user) fun _ => trivial
  | deleteBucket bucket =>
    exact yields_bind (yields_ask trivial _) fun _ =>
      yields_bind (yields_ask trivial _) fun _ => trivial
  | arrive => exact yields_bind (yields_ask trivial _) fun _ => trivial
  | access token => exact absurd rfl (hrequest token)
  | deleteShare user isAdmin id => exact yields_deleteShare user isAdmin id

end Plain

/-! ## Every request follows the typestate -/

section Follows

/-- One call, and what is answered when it fails. -/
theorem follows_ask {c : FileCall} {refusal : ε} {post : Except ε (FileReply c) → AccessPhase → Prop}
    (hpermits : φ.permits services c) (hok : ∀ reply, post (.ok reply) (φ.after c (.ok reply)))
    (herror : post (.error refusal) (φ.after c (.error ()))) :
    (ask c refusal).run.Follows (accessStates services) φ post := by
  refine ⟨hpermits, fun answer => ?_⟩
  cases answer with
  | ok reply => exact hok reply
  | error _ => exact herror

/-- Other calls leave a request that has read no share where it is. -/
theorem follows_plain {R : α → Prop} {p : FileProgram α} (hp : p.Yields Plain R) :
    p.Follows (accessStates services) .begun fun a φ => R a ∧ φ = AccessPhase.begun := by
  refine follows_yields (J := fun φ => φ = AccessPhase.begun) hp (fun φ c hφ hc => ?_) rfl
  subst hφ
  refine ⟨?_, fun answer => ?_⟩
  · cases c with
    | utcNow => exact .inl rfl
    | incrementAccessCount => exact absurd hc id
    | _ => trivial
  · cases c with
    | findByToken => exact absurd hc id
    | _ => rfl

/-- An access that serves has spent an access of a share that was live, and any other none. -/
def Accounted (services : FileServices) (token : String) (response : Response) (φ : AccessPhase) :
    Prop :=
  (∃ content, response = .streamed content) ∧
      (∃ share now, φ = .spent token share now ∧ share.Live services now) ∨
    (∀ content, response ≠ .streamed content) ∧ ¬ φ.Spent

/-- What is answered, refused or not. -/
def responseOf : Except Response Response → Response
  | .ok response => response
  | .error response => response

variable {token : String} {share : ShareRow} {now : ℕ}

theorem accounted_refused (kind : ErrorKind) (message : String) (hφ : ¬ φ.Spent) :
    Accounted services token (.refused kind message) φ := .inr ⟨nofun, hφ⟩

theorem not_spent_timed : ¬ (AccessPhase.timed token share now).Spent := nofun

theorem not_spent_read : ¬ (AccessPhase.read token share).Spent := nofun

theorem not_spent_begun : ¬ AccessPhase.begun.Spent := nofun

theorem follows_spendAccess (hlive : share.Live services now) (content : Content) :
    (spendAccess share content).run.Follows (accessStates services) (.timed token share now)
      fun result => Accounted services token (responseOf result) := by
  refine Follows.bindExcept (follows_ask ⟨token, share, now, rfl, rfl, rfl, hlive⟩
    (fun admitted => ⟨fun admitted' h => ?_, nofun⟩)
    ⟨nofun, fun _ h => by cases h; exact accounted_refused _ _ not_spent_timed⟩)
  cases h
  cases admitted with
  | true => exact ⟨trivial, fun _ => .inl ⟨⟨content, rfl⟩, share, now, rfl, hlive⟩⟩
  | false => exact accounted_refused _ _ not_spent_timed

theorem follows_resolveShared (hlive : share.Live services now) :
    (resolveShared share).run.Follows (accessStates services) (.timed token share now)
      fun result => Accounted services token (responseOf result) := by
  unfold resolveShared
  split
  · exact accounted_refused _ _ not_spent_timed
  split
  · exact accounted_refused _ _ not_spent_timed
  refine Follows.bindExcept (follows_ask trivial (fun found => ⟨fun found' h => ?_, nofun⟩)
    ⟨nofun, fun _ h => by cases h; exact accounted_refused _ _ not_spent_timed⟩)
  cases h
  cases found with
  | none => exact accounted_refused _ _ not_spent_timed
  | some stored =>
    refine Follows.bindExcept (follows_ask trivial (fun found => ⟨fun found' h => ?_, nofun⟩)
      ⟨nofun, fun _ h => by cases h; exact accounted_refused _ _ not_spent_timed⟩)
    cases h
    cases found with
    | none => exact accounted_refused _ _ not_spent_timed
    | some content => exact follows_spendAccess hlive content

theorem follows_directAccess :
    (directAccess services token).run.Follows (accessStates services) .begun
      fun result => Accounted services token (responseOf result) := by
  refine Follows.bindExcept (follows_ask trivial (fun limited => ⟨fun limited' h => ?_, nofun⟩)
    ⟨nofun, fun _ h => by cases h; exact accounted_refused _ _ not_spent_begun⟩)
  cases h
  cases limited with
  | true => exact accounted_refused _ _ not_spent_begun
  | false =>
    refine Follows.bindExcept (follows_ask trivial (fun found => ⟨fun found' h => ?_, nofun⟩)
      ⟨nofun, fun _ h => by cases h; exact accounted_refused _ _ not_spent_begun⟩)
    cases h
    cases found with
    | none => exact accounted_refused _ _ not_spent_begun
    | some share =>
      dsimp only
      split
      · exact accounted_refused _ _ not_spent_read
      · next expires hexpires =>
        refine Follows.bindExcept (follows_ask (.inr ⟨token, share, rfl⟩)
          (fun now => ⟨fun now' h => ?_, nofun⟩)
          ⟨nofun, fun _ h => by cases h; exact accounted_refused _ _ not_spent_read⟩)
        cases h
        split
        · exact accounted_refused _ _ not_spent_timed
        · next hexpired => exact follows_resolveShared ⟨expires, hexpires, Nat.le_of_not_lt hexpired⟩

end Follows

/-- What a request has come to. -/
def FileRequest.Accounted (services : FileServices) (request : FileRequest) (response : Response)
    (φ : AccessPhase) : Prop :=
  (∀ token, request = .access token → Files.Accounted services token response φ) ∧
    ((∀ token, request ≠ .access token) → ¬ φ.Spent)

/-- Every request follows the typestate. -/
theorem FileRequest.follows_access (services : FileServices) (request : FileRequest) :
    (request.program services).Follows (accessStates services) .begun
      (request.Accounted services) := by
  refine Follows.bind ?_
  by_cases hrequest : ∃ token, request = .access token
  · obtain ⟨token, rfl⟩ := hrequest
    refine follows_directAccess.mono fun result φ h => ?_
    have haccounted : (FileRequest.access token).Accounted services (responseOf result) φ :=
      ⟨fun token' htoken => by cases htoken; exact h, fun hne => absurd rfl (hne token)⟩
    cases result with
    | ok response => exact haccounted
    | error response => exact haccounted
  · have hne : ∀ token, request ≠ .access token := fun token h => hrequest ⟨token, h⟩
    refine (follows_plain (request.yields_plain services hne)).mono fun result φ h => ?_
    have haccounted : request.Accounted services (responseOf result) φ :=
      ⟨fun token htoken => absurd htoken (hne token), fun _ => h.2 ▸ not_spent_begun⟩
    cases result with
    | ok response => exact haccounted
    | error response => exact haccounted

end Files
