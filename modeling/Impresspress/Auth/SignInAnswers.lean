import Mathlib.Tactic.Common

/-!
# What a sign-in tells about an address

A sign-in with a wrong password is answered in the same way whether or not the address has an
account, and costs one verification of a password either way: where there is nothing to verify, one
is spent on a hash of a placeholder. The exception is a stored hash whose pepper the service cannot
check. That is answered as an outage, which no unknown address is.

Source: `login.rs` (`handle`), `auth/mod.rs` (`check_password`, `classify_comparison`,
`burn_timing_equalization`, `credential_check_failed`) and `crud.rs` (`classify_db_error`).

## Main definitions

* `Auth.SignIn.CryptoService`: what the handler relies on.
* `Auth.SignIn.handle`: the handler, as far as a password that is not right.
* `Auth.SignIn.TellsNothing`: two runs that a caller cannot tell apart.

## Main results

* `Auth.SignIn.passwordOk_of_not_hits`: what a wrong password costs, whatever is stored.
* `Auth.SignIn.runs_unknown`, `Auth.SignIn.runs_wrong`: the two arms of the handler.
-/

namespace Auth.SignIn

/-! ## Errors -/

/-- `wafer_run::ErrorCode`. -/
inductive Code
  | cancelled
  | unknown
  | invalidArgument
  | deadlineExceeded
  | notFound
  | alreadyExists
  | permissionDenied
  | resourceExhausted
  | failedPrecondition
  | aborted
  | outOfRange
  | unimplemented
  | internal
  | unavailable
  | dataLoss
  | unauthenticated
  deriving DecidableEq

structure WaferError where
  code : Code
  message : String
  detailCode : Option String
  deriving DecidableEq

/-- What the caller is answered. -/
inductive Answer
  /-- `OutputStream::error` -/
  | error (e : WaferError)
  /-- `http::err_internal`: a failure whose cause is not shown. -/
  | failure (context : String)
  /-- What a request is answered that goes past the check of the password. -/
  | admitted (body : String)
  deriving DecidableEq

def callBudgetExhausted : String := "database.call_budget_exhausted"

/-- `crud::classify_db_error` where the request names no row: the refusal that is shown, or none for
a fault of the server. -/
def classifyDbError (e : WaferError) : Option WaferError :=
  if e.code = .resourceExhausted ∧ e.detailCode = some callBudgetExhausted then some e
  else
    match e.code with
    | .permissionDenied => some ⟨.permissionDenied, "Access denied", none⟩
    | .resourceExhausted => some ⟨.resourceExhausted, e.message, none⟩
    | .unavailable => some ⟨.unavailable, "Temporarily unavailable: a service this request depends on "
        ++ "is not responding. Please try again shortly.", none⟩
    | .alreadyExists => some ⟨.alreadyExists, "A record with the same key already exists", none⟩
    | _ => none

/-- `crud::db_error_internal` -/
def dbErrorInternal (e : WaferError) (context : String) : Answer :=
  match classifyDbError e with
  | some refusal => .error refusal
  | none => .failure context

/-- `credential_check_unavailable` -/
def credentialCheckUnavailable : WaferError :=
  ⟨.unavailable, "Authentication is temporarily unavailable", none⟩

/-- `credential_check_failed` -/
def credentialCheckFailed (e : WaferError) : WaferError :=
  match e.code with
  | .cancelled => ⟨.cancelled, "The request was cancelled", none⟩
  | .deadlineExceeded => ⟨.deadlineExceeded, "The request ran out of time", none⟩
  | _ => (classifyDbError e).getD credentialCheckUnavailable

/-! ## The crypto service -/

def malformedHashPrefix : String := "malformed password hash: "

def pepperFaultPrefix : String := "password pepper: "

inductive Comparison
  | hits
  | misses
  | malformedHash (e : WaferError)
  | pepperFault (e : WaferError)
  | failed (e : WaferError)

def startsWith (text start : String) : Bool := start.toList.isPrefixOf text.toList

def classifyComparison : Except WaferError Unit → Comparison
  | .ok () => .hits
  | .error e =>
    if e.code = .unauthenticated then .misses
    else if e.code = .internal ∧ startsWith e.message malformedHashPrefix then .malformedHash e
    else if e.code = .internal ∧ startsWith e.message pepperFaultPrefix then .pepperFault e
    else .failed e

/-- What the service makes of a password and a hash, as its errors put it. -/
inductive Finding
  | hits
  | misses (text : String)
  | malformedHash (text : String)
  | pepper (text : String)

/-- A failure that says nothing about the password or the hash. -/
structure Fault where
  error : WaferError
  ofService : classifyComparison (.error error) = .failed error

/-- The crypto service while a request is served. When it is out, no call of the request gets
through; what it writes, it can check. -/
structure CryptoService where
  outage : Option Fault
  /-- The hash of a password, under a salt. -/
  writes : String → ℕ → String
  finds : String → String → Finding
  checksOwn : ∀ password written salt,
    finds password (writes written salt) = .hits ∨
      ∃ text, finds password (writes written salt) = .misses text

namespace CryptoService

/-- `crypto::hash` -/
def hash (crypto : CryptoService) (password : String) (salt : ℕ) : Except WaferError String :=
  match crypto.outage with
  | some fault => .error fault.error
  | none => .ok (crypto.writes password salt)

/-- `crypto::compare_hash` -/
def compareHash (crypto : CryptoService) (password hash : String) : Except WaferError Unit :=
  match crypto.outage with
  | some fault => .error fault.error
  | none =>
    match crypto.finds password hash with
    | .hits => .ok ()
    | .misses text => .error ⟨.unauthenticated, text, none⟩
    | .malformedHash text => .error ⟨.internal, malformedHashPrefix ++ text, none⟩
    | .pepper text => .error ⟨.internal, pepperFaultPrefix ++ text, none⟩

end CryptoService

/-- The service did the work: it neither failed nor refused the hash. -/
def Comparison.verified : Comparison → Bool
  | .hits | .misses => true
  | _ => false

/-! ## The handler -/

def timingEqualizationPassword : String :=
  "impresspress timing-equalization placeholder; never a credential"

/-- What the process keeps: the salt of the placeholder's hash once that was written, and how many
passwords were verified. -/
structure Isolate where
  equalizer : Option ℕ
  verifications : ℕ

variable (crypto : CryptoService)

/-- A comparison, and the work that it costs. -/
def compare (password hash : String) : StateM Isolate Comparison := do
  let comparison := classifyComparison (crypto.compareHash password hash)
  if comparison.verified then
    modify fun isolate => { isolate with verifications := isolate.verifications + 1 }
  pure comparison

/-- `timing_equalization_hash`, under this salt when it is not there yet. -/
def timingEqualizationHash (salt : ℕ) : StateM Isolate (Except WaferError String) := do
  let isolate ← get
  match isolate.equalizer with
  | some salt => pure (.ok (crypto.writes timingEqualizationPassword salt))
  | none =>
    match crypto.hash timingEqualizationPassword salt with
    | .error e => pure (.error e)
    | .ok hash =>
      set { isolate with equalizer := some salt }
      pure (.ok hash)

/-- `burn_timing_equalization` -/
def burnTimingEqualization (password : String) (salt : ℕ) :
    StateM Isolate (Except WaferError Unit) := do
  match ← timingEqualizationHash crypto salt with
  | .error e => pure (.error (credentialCheckFailed e))
  | .ok equalizer =>
    match ← compare crypto password equalizer with
    | .hits | .misses | .malformedHash _ => pure (.ok ())
    | .failed e | .pepperFault e => pure (.error (credentialCheckFailed e))

inductive PasswordCheck
  | hits
  | misses
  | unverifiable (e : WaferError)

/-- `check_password` -/
def checkPassword (password hash : String) :
    StateM Isolate (Except WaferError PasswordCheck) := do
  match ← compare crypto password hash with
  | .hits => pure (.ok .hits)
  | .misses => pure (.ok .misses)
  | .malformedHash e => pure (.ok (.unverifiable e))
  | .pepperFault _ => pure (.error credentialCheckUnavailable)
  | .failed e => pure (.error (credentialCheckFailed e))

structure User where
  id : String
  disabled : Bool
  deletedAt : Option ℕ

def User.isActive (user : User) : Bool := !user.disabled && user.deletedAt.isNone

/-- `users::find_by_email` and `local_credentials::find_by_user_id`. -/
structure Database where
  findByEmail : String → Except WaferError (Option User)
  findByUserId : String → Except WaferError (Option String)

structure LoginRequest where
  email : String
  password : String

/-- What the handler takes from elsewhere: `trim().to_lowercase()`, and the rest of the handler once
the password was right. -/
structure Parts where
  normalize : String → String
  enter : User → String

/-- `errors::error_response` with `InvalidCredentials` -/
def invalidCredentials : Answer :=
  .error ⟨.unauthenticated, "Invalid email or password", some "invalid_credentials"⟩

/-- The stored hash. A failed read is logged, and counts as none. -/
def storedHash (db : Database) : Option User → Option String
  | none => none
  | some user =>
    match db.findByUserId user.id with
    | .ok stored => stored
    | .error _ => none

/-- Whether the password is right, once the user and its hash have been read. -/
def passwordOk (password : String) (salt : ℕ) :
    Option String → StateM Isolate (Except WaferError Bool)
  | some hash => do
    match ← checkPassword crypto password hash with
    | .ok .hits => pure (.ok true)
    | .ok .misses => pure (.ok false)
    | .ok (.unverifiable _) =>
      match ← burnTimingEqualization crypto password salt with
      | .error e => pure (.error e)
      | .ok () => pure (.ok false)
    | .error e => pure (.error e)
  | none => do
    match ← burnTimingEqualization crypto password salt with
    | .error e => pure (.error e)
    | .ok () => pure (.ok false)

/-- `login::handle`; the request is refused, or it is what its body says. -/
def handle (parts : Parts) (db : Database) (salt : ℕ) (request : Except Answer LoginRequest) :
    StateM Isolate Answer :=
  match request with
  | .error refused => pure refused
  | .ok body =>
    match db.findByEmail (parts.normalize body.email) with
    | .error e => pure (dbErrorInternal e "User lookup failed")
    | .ok user => do
      match ← passwordOk crypto body.password salt (storedHash db user) with
      | .error e => pure (.error e)
      | .ok right =>
        match user with
        | some user =>
          if right then
            if user.isActive then pure (.admitted (parts.enter user)) else pure invalidCredentials
          else pure invalidCredentials
        | none => pure invalidCredentials

/-! ## What a comparison finds -/

section Comparisons

variable {crypto : CryptoService} {isolate : Isolate} {password hash : String}

theorem classifyComparison_malformed (text : String) :
    classifyComparison (.error ⟨.internal, malformedHashPrefix ++ text, none⟩) =
      .malformedHash ⟨.internal, malformedHashPrefix ++ text, none⟩ := by
  have hstarts : startsWith (malformedHashPrefix ++ text) malformedHashPrefix = true := by
    rw [startsWith, String.toList_append, List.isPrefixOf_iff_prefix]
    exact List.prefix_append _ _
  rw [classifyComparison, if_neg nofun, if_pos ⟨rfl, hstarts⟩]

theorem classifyComparison_pepper (text : String) :
    classifyComparison (.error ⟨.internal, pepperFaultPrefix ++ text, none⟩) =
      .pepperFault ⟨.internal, pepperFaultPrefix ++ text, none⟩ := by
  have hstarts : startsWith (pepperFaultPrefix ++ text) pepperFaultPrefix = true := by
    rw [startsWith, String.toList_append, List.isPrefixOf_iff_prefix]
    exact List.prefix_append _ _
  have hother : startsWith (pepperFaultPrefix ++ text) malformedHashPrefix = false := by
    rw [startsWith, String.toList_append]
    rfl
  rw [classifyComparison, if_neg nofun, if_neg (by rw [hother]; exact fun h => nomatch h.2),
    if_pos ⟨rfl, hstarts⟩]

/-- A process that has verified so many passwords more. -/
def Isolate.after (isolate : Isolate) (verified : ℕ) : Isolate :=
  { isolate with verifications := isolate.verifications + verified }

theorem compare_of_outage {fault : Fault} (h : crypto.outage = some fault) :
    (compare crypto password hash).run isolate = (.failed fault.error, isolate) := by
  have hclass : classifyComparison (crypto.compareHash password hash) = .failed fault.error := by
    rw [CryptoService.compareHash, h]
    exact fault.ofService
  rw [compare, hclass]
  rfl

/-- What a comparison finds where the service runs, and what it costs. -/
theorem compare_of_running (h : crypto.outage = none) (isolate : Isolate) (password hash : String) :
    (compare crypto password hash).run isolate =
      match crypto.finds password hash with
      | .hits => (.hits, isolate.after 1)
      | .misses _ => (.misses, isolate.after 1)
      | .malformedHash text =>
        (.malformedHash ⟨.internal, malformedHashPrefix ++ text, none⟩, isolate)
      | .pepper text => (.pepperFault ⟨.internal, pepperFaultPrefix ++ text, none⟩, isolate) := by
  rw [compare, CryptoService.compareHash, h]
  cases crypto.finds password hash with
  | hits => rfl
  | misses text => rfl
  | malformedHash text =>
    dsimp only
    rw [classifyComparison_malformed]
    rfl
  | pepper text =>
    dsimp only
    rw [classifyComparison_pepper]
    rfl

end Comparisons

/-! ## The two arms -/

section Arms

variable {crypto : CryptoService} (password : String) (salt : ℕ) (isolate : Isolate)

private theorem run_bind {α β : Type} {p : StateM Isolate α} {f : α → StateM Isolate β}
    {isolate isolate' : Isolate} {a : α} (h : p.run isolate = (a, isolate')) :
    (p >>= f).run isolate = (f a).run isolate' := by
  rw [StateT.run_bind, h]
  rfl

theorem timingEqualizationHash_of_running (h : crypto.outage = none) :
    ∃ salt' isolate', (timingEqualizationHash crypto salt).run isolate =
      (.ok (crypto.writes timingEqualizationPassword salt'), isolate') ∧
        isolate'.verifications = isolate.verifications := by
  obtain ⟨equalizer, verifications⟩ := isolate
  cases equalizer with
  | some salt' => exact ⟨salt', ⟨some salt', verifications⟩, rfl, rfl⟩
  | none =>
    refine ⟨salt, ⟨some salt, verifications⟩, ?_, rfl⟩
    unfold timingEqualizationHash
    rw [CryptoService.hash, h]
    rfl

/-- While the service is out, the placeholder is not verified either, and the outage is the answer. -/
theorem burn_of_outage {fault : Fault} (h : crypto.outage = some fault) :
    (burnTimingEqualization crypto password salt).run isolate =
      (.error (credentialCheckFailed fault.error), isolate) := by
  obtain ⟨equalizer, verifications⟩ := isolate
  unfold burnTimingEqualization
  cases equalizer with
  | some salt' =>
    rw [run_bind (p := timingEqualizationHash crypto salt) (a := .ok _) rfl]
    exact run_bind (compare_of_outage h)
  | none =>
    have hhash : (timingEqualizationHash crypto salt).run ⟨none, verifications⟩ =
        (.error fault.error, ⟨none, verifications⟩) := by
      unfold timingEqualizationHash
      rw [CryptoService.hash, h]
      rfl
    exact run_bind hhash

/-- Where the service runs, one password is verified, and what that finds is not looked at. -/
theorem burn_of_running (h : crypto.outage = none) :
    ∃ isolate', (burnTimingEqualization crypto password salt).run isolate = (.ok (), isolate') ∧
      isolate'.verifications = isolate.verifications + 1 := by
  obtain ⟨salt', isolate', hhash, hsame⟩ := timingEqualizationHash_of_running salt isolate h
  have hcompare := compare_of_running h isolate' password
    (crypto.writes timingEqualizationPassword salt')
  refine ⟨isolate'.after 1, ?_, by rw [Isolate.after, hsame]⟩
  rcases crypto.checksOwn password timingEqualizationPassword salt' with hfinds | ⟨text, hfinds⟩
  · rw [hfinds] at hcompare
    exact (run_bind hhash).trans (run_bind hcompare)
  · rw [hfinds] at hcompare
    exact (run_bind hhash).trans (run_bind hcompare)

/-! ### A password that is not right -/

/-- The stored hash is one that the pepper cannot check. -/
def PepperFault (crypto : CryptoService) (password : String) (stored : Option String) : Prop :=
  crypto.outage = none ∧ ∃ hash ∈ stored, ∃ text, crypto.finds password hash = .pepper text

/-- What a sign-in makes of a password, whatever is stored, unless it is the right one or the pepper
cannot check it: what it makes of a password where nothing is stored. -/
theorem passwordOk_of_not_hits {stored : Option String}
    (hwrong : ∀ hash ∈ stored, crypto.finds password hash ≠ .hits)
    (hpepper : ¬ PepperFault crypto password stored) :
    ∃ isolate', isolate'.verifications = isolate.verifications + (if crypto.outage.isSome then 0 else 1) ∧
      (passwordOk crypto password salt stored).run isolate =
        (match crypto.outage with
          | some fault => .error (credentialCheckFailed fault.error)
          | none => .ok false, isolate') := by
  cases houtage : crypto.outage with
  | some fault =>
    refine ⟨isolate, rfl, ?_⟩
    cases stored with
    | none => exact run_bind (burn_of_outage password salt isolate houtage)
    | some hash =>
      have hcheck : (checkPassword crypto password hash).run isolate =
          (.error (credentialCheckFailed fault.error), isolate) :=
        run_bind (compare_of_outage houtage)
      exact run_bind hcheck
  | none =>
    obtain ⟨burned, hburn, hcount⟩ := burn_of_running password salt isolate houtage
    cases stored with
    | none => exact ⟨burned, hcount, run_bind hburn⟩
    | some hash =>
      have hcompare := compare_of_running houtage isolate password hash
      cases hfinds : crypto.finds password hash with
      | hits => exact absurd hfinds (hwrong hash rfl)
      | misses text =>
        rw [hfinds] at hcompare
        refine ⟨isolate.after 1, rfl, ?_⟩
        have hcheck : (checkPassword crypto password hash).run isolate =
            (.ok .misses, isolate.after 1) := run_bind hcompare
        exact run_bind hcheck
      | malformedHash text =>
        rw [hfinds] at hcompare
        have hcheck : (checkPassword crypto password hash).run isolate =
            (.ok (.unverifiable ⟨.internal, malformedHashPrefix ++ text, none⟩), isolate) :=
          run_bind hcompare
        exact ⟨burned, hcount, (run_bind hcheck).trans (run_bind hburn)⟩
      | pepper text => exact absurd ⟨houtage, hash, rfl, text, hfinds⟩ hpepper

/-- A hash that the pepper cannot check is answered as an outage, at no cost. -/
theorem passwordOk_of_pepperFault {stored : Option String}
    (h : PepperFault crypto password stored) :
    (passwordOk crypto password salt stored).run isolate =
      (.error credentialCheckUnavailable, isolate) := by
  obtain ⟨houtage, hash, hstored, text, hfinds⟩ := h
  obtain rfl := hstored
  have hcompare := compare_of_running houtage isolate password hash
  rw [hfinds] at hcompare
  have hcheck : (checkPassword crypto password hash).run isolate =
      (.error credentialCheckUnavailable, isolate) := run_bind hcompare
  exact run_bind hcheck

end Arms

/-! ## Two runs -/

/-- The users and their hashes are the same, but that the address has no account in `db'`. A read of
the address that fails fails in both. -/
structure SameBut (address : String) (db db' : Database) : Prop where
  others : ∀ other ≠ address, db'.findByEmail other = db.findByEmail other
  unknown : db'.findByEmail address = (db.findByEmail address).map fun _ => none
  hashes : ∀ id, (∀ user, db.findByEmail address = .ok (some user) → user.id ≠ id) →
    db'.findByUserId id = db.findByUserId id

/-- The hash that is found for an address. -/
def storedAt (db : Database) (address : String) : Option String :=
  match db.findByEmail address with
  | .ok user => storedHash db user
  | .error _ => none

/-- What a sign-in is asked, at which process and under which salt. -/
structure Run where
  db : Database
  salt : ℕ
  isolate : Isolate

variable (crypto : CryptoService) (parts : Parts)

def Run.answer (run : Run) (request : Except Answer LoginRequest) : Answer :=
  ((handle crypto parts run.db run.salt request).run run.isolate).1

/-- How many passwords the run verifies. -/
def Run.verified (run : Run) (request : Except Answer LoginRequest) : ℕ :=
  ((handle crypto parts run.db run.salt request).run run.isolate).2.verifications -
    run.isolate.verifications

/-- The request is not refused, and the users can be read. -/
def Run.Reached (run : Run) (request : Except Answer LoginRequest) : Prop :=
  ∃ body user, request = .ok body ∧ run.db.findByEmail (parts.normalize body.email) = .ok user

/-- The runs are answered alike and verify as many passwords, which is one if the request gets that
far while the service runs. -/
structure TellsNothing (run run' : Run) (request : Except Answer LoginRequest) : Prop where
  answer : run.answer crypto parts request = run'.answer crypto parts request
  verified : run.verified crypto parts request = run'.verified crypto parts request
  one : crypto.outage = none → run.Reached parts request → run.verified crypto parts request = 1

section Runs

variable {crypto : CryptoService} {parts : Parts} {run run' : Run} {body : LoginRequest}
  {user : Option User}

theorem storedAt_of_findByEmail {db : Database} {address : String}
    (h : db.findByEmail address = .ok user) : storedAt db address = storedHash db user := by
  rw [storedAt, h]

/-- A run over a password that is not right, unless the pepper cannot check the stored hash. -/
theorem runs_wrong (hlookup : run.db.findByEmail (parts.normalize body.email) = .ok user)
    (hwrong : ∀ hash ∈ storedHash run.db user, crypto.finds body.password hash ≠ .hits)
    (hpepper : ¬ PepperFault crypto body.password (storedHash run.db user)) :
    run.answer crypto parts (.ok body) =
        (match crypto.outage with
          | some fault => .error (credentialCheckFailed fault.error)
          | none => invalidCredentials) ∧
      run.verified crypto parts (.ok body) = if crypto.outage.isSome then 0 else 1 := by
  obtain ⟨isolate', hcount, hcheck⟩ :=
    passwordOk_of_not_hits body.password run.salt run.isolate hwrong hpepper
  have hrun : (handle crypto parts run.db run.salt (.ok body)).run run.isolate =
      (match crypto.outage with
        | some fault => .error (credentialCheckFailed fault.error)
        | none => invalidCredentials, isolate') := by
    unfold handle
    dsimp only
    rw [hlookup]
    refine (run_bind hcheck).trans ?_
    cases crypto.outage with
    | some fault => rfl
    | none =>
      cases user with
      | some user => rfl
      | none => rfl
  rw [Run.answer, Run.verified, hrun]
  exact ⟨rfl, by rw [hcount, Nat.add_sub_cancel_left]⟩

/-- A run over a stored hash that the pepper cannot check. -/
theorem runs_pepperFault (hlookup : run.db.findByEmail (parts.normalize body.email) = .ok user)
    (hpepper : PepperFault crypto body.password (storedHash run.db user)) :
    run.answer crypto parts (.ok body) = .error credentialCheckUnavailable ∧
      run.verified crypto parts (.ok body) = 0 := by
  have hcheck := passwordOk_of_pepperFault body.password run.salt run.isolate hpepper
  have hrun : (handle crypto parts run.db run.salt (.ok body)).run run.isolate =
      (.error credentialCheckUnavailable, run.isolate) := by
    unfold handle
    dsimp only
    rw [hlookup]
    exact run_bind hcheck
  rw [Run.answer, Run.verified, hrun]
  exact ⟨rfl, Nat.sub_self _⟩

/-- A run over an address without an account. -/
theorem runs_unknown (crypto : CryptoService)
    (hlookup : run.db.findByEmail (parts.normalize body.email) = .ok none) :
    run.answer crypto parts (.ok body) =
        (match crypto.outage with
          | some fault => .error (credentialCheckFailed fault.error)
          | none => invalidCredentials) ∧
      run.verified crypto parts (.ok body) = if crypto.outage.isSome then 0 else 1 := by
  refine runs_wrong hlookup nofun ?_
  rintro ⟨-, hash, hstored, -⟩
  cases hstored

/-- A run whose request is refused, or whose address cannot be read, verifies nothing. -/
theorem runs_failed (crypto : CryptoService) {e : WaferError}
    (hlookup : run.db.findByEmail (parts.normalize body.email) = .error e) :
    run.answer crypto parts (.ok body) = dbErrorInternal e "User lookup failed" ∧
      run.verified crypto parts (.ok body) = 0 := by
  have hrun : (handle crypto parts run.db run.salt (.ok body)).run run.isolate =
      (dbErrorInternal e "User lookup failed", run.isolate) := by
    unfold handle
    dsimp only
    rw [hlookup]
    rfl
  rw [Run.answer, Run.verified, hrun]
  exact ⟨rfl, Nat.sub_self _⟩

theorem tellsNothing_of_refused (refused : Answer) :
    TellsNothing crypto parts run run' (.error refused) where
  answer := rfl
  verified := by
    show run.isolate.verifications - run.isolate.verifications =
      run'.isolate.verifications - run'.isolate.verifications
    rw [Nat.sub_self, Nat.sub_self]
  one := by
    rintro - ⟨body, user, hbody, -⟩
    cases hbody

end Runs

/-- A service that lost the key of one hash. -/
def keyless : CryptoService where
  outage := none
  writes password _ := "plain " ++ password
  finds password hash :=
    if hash = "peppered" then .pepper "key 0011 is not configured"
    else if hash = "plain " ++ password then .hits
    else .misses "wrong password"
  checksOwn password written _ := by
    have hplain : "plain " ++ written ≠ "peppered" := by
      intro h
      have hchars := congrArg String.toList h
      rw [String.toList_append] at hchars
      cases hchars
    rw [if_neg hplain]
    split
    · exact .inl rfl
    · exact .inr ⟨_, rfl⟩

/-- One account, with this hash. -/
def oneAccount (hash : String) : Database where
  findByEmail email := .ok (if email = "a@b.c" then some ⟨"1", false, none⟩ else none)
  findByUserId id := .ok (if id = "1" then some hash else none)

def noAccount : Database := ⟨fun _ => .ok none, fun _ => .ok none⟩

theorem sameBut_oneAccount (hash : String) : SameBut "a@b.c" (oneAccount hash) noAccount where
  others other hother := by simp [oneAccount, noAccount, hother]
  unknown := rfl
  hashes id hid := by
    have hne := hid ⟨"1", false, none⟩ rfl
    simp [oneAccount, noAccount, Ne.symm hne]

def literally : Parts := ⟨id, fun _ => "signed in"⟩

def signIn : LoginRequest := ⟨"a@b.c", "guess"⟩

end Auth.SignIn
