import Impresspress.Auth.VersionCache

/-!
# Links that reset a password

A link is requested by its address and redeemed with a new password. The row of the account carries
the digest of one link. A redemption clears the column before it writes anything, and writes it back
when a later write fails; any statement may fail, and then changes nothing.

Source: `blocks/auth_ui/api/{forgot_password,reset_password}.rs` and `blocks/auth/repo/users.rs`
(`set_reset_token`, `take_reset_token`, `restore_reset_token`).

## Main definitions

* `Auth.LinkCall`, `Auth.performLink`: the statements, and what they do.
* `Auth.Links.forgotPassword`, `Auth.Links.resetPassword`: the handlers.
* `Auth.linkRun`: any number of requests, run along a schedule.
-/

namespace Auth

open Concurrent

/-- What the handlers take from other crates. The digest of a link tells it from every other, and is
never empty. -/
structure LinkServices extends Services where
  hexEncode : ℕ → String
  distinct : ∀ a b, sha256Hex (hexEncode a) = sha256Hex (hexEncode b) → a = b
  nonempty : ∀ token, sha256Hex token ≠ ""

/-- The digest of a link that was drawn. -/
def LinkServices.digest (services : LinkServices) (drawn : ℕ) : String :=
  services.sha256Hex (services.hexEncode drawn)

/-- The statements of the account, and the write of a new link. -/
inductive LinkCall where
  | version (c : VersionCall)
  | setResetToken (tokenHash : String) (expiresAt : Option ℕ)
  deriving DecidableEq, Repr

@[reducible] def LinkReply : LinkCall → Type
  | .version c => VersionReply c
  | .setResetToken .. => Unit

/-- A statement on the account's row and its credentials. -/
abbrev LinkCall.statement (c : AuthCall) : LinkCall := .version (.family (.statement c))

/-- The clock and the cache are always there. -/
def LinkCall.mayFail : LinkCall → Bool
  | .version c => c.mayFail
  | .setResetToken .. => true

/-- How the store answers a call that does not fail. -/
def answerLink (chance : VersionChance) (c : LinkCall) (s : VersionStore) :
    LinkReply c × VersionStore :=
  match c with
  | .version c => answerVersion chance c s
  | .setResetToken tokenHash expiresAt =>
    ((), { s with auth := { s.auth with
      user := { s.auth.user with resetToken := tokenHash, resetTokenExpires := expiresAt } } })

/-- One call: it fails, or it does what it does. -/
def performLink (chance : VersionChance) (c : LinkCall) (s : VersionStore) :
    Outcome Unit LinkReply c × VersionStore :=
  let later := { s with millis := s.millis + chance.elapsedMs }
  if c.mayFail && chance.fails then (.error (), later)
  else (.ok (answerLink chance c later).1, (answerLink chance c later).2)

abbrev LinkProgram := Program LinkCall (Outcome Unit LinkReply)

/-- Programs that refuse. -/
abbrev LinkHandler := ExceptT Refusal LinkProgram

namespace Links

variable {α : Type}

/-- One call, and the refusal that is answered when it fails. -/
def ask (c : LinkCall) (refusal : Refusal) : LinkHandler (LinkReply c) :=
  ExceptT.mk (.call c fun
    | .ok reply => .done (.ok reply)
    | .error _ => .done (.error refusal))

/-- A program whose refusal is looked at. -/
def attempt (p : LinkHandler α) : LinkHandler (Except Refusal α) :=
  ExceptT.mk (p.run >>= fun result => pure (.ok result))

/-- A handler of the account, among the calls of this store. -/
def embed (p : VersionHandler α) : LinkHandler α :=
  ExceptT.mk (Program.embed (Outcome Unit LinkReply) LinkCall.version p.run)

/-- How long a link lasts, in seconds. -/
def linkLifetime : ℕ := 3600

/-- `forgot_password::send_reset_link`, up to the mail. -/
def sendResetLink (services : LinkServices) : LinkHandler Unit := do
  let drawn ← ask (.statement .randomBytes) (Families.internal "drawing the reset token failed")
  let now ← ask (.statement .utcNow) (Families.internal "clock")
  ask (.setResetToken (services.digest drawn) (some (now + linkLifetime)))
    (Families.internal "storing the reset token failed")

/-- `forgot_password::handle`, with what it leaves to be done after the response. Every failure is
answered as a success is. -/
def forgotPassword (services : LinkServices) : LinkHandler Unit := do
  match ← attempt (ask (.statement .findUser) (Families.internal "user lookup failed")) with
  | .ok _ =>
    let _ ← attempt (sendResetLink services)
    return ()
  | .error _ => return ()

/-- `reset_password::restore_token`. -/
def restoreToken (tokenHash : String) (expiresAt : ℕ) : LinkHandler Unit := do
  let _ ← attempt (ask (.statement (.restoreResetToken tokenHash (some expiresAt)))
    (Families.internal "restore reset_token"))
  return ()

/-- What a redemption writes: the password, and then the end of what the old one opened. -/
def writePassword (process : ℕ) (newHash : String) : LinkHandler Unit := do
  let updated ← embed (Versions.embed (Families.orRefuse (Families.internal
    "Failed to update password") (updatePassword newHash)))
  if updated then
    embed (Versions.endCredentialsAfterPasswordChange process
      (Families.internal "Password reset but session invalidation failed"))
  else throw (Families.internal "Failed to update password")

/-- `reset_password::handle` once the link has been taken. -/
def redeem (process : ℕ) (tokenHash newHash : String) (expiresAt : ℕ) : LinkHandler Unit := do
  match ← attempt (writePassword process newHash) with
  | .ok () =>
    let _ ← attempt (ask (.statement (.recordEmailProof "email_token"))
      (Families.internal "address proof"))
    return ()
  | .error refusal =>
    restoreToken tokenHash expiresAt
    throw refusal

/-- `reset_password::handle` for a link that has not expired. -/
def takeAndRedeem (services : LinkServices) (process : ℕ) (tokenHash new : String)
    (expiresAt : ℕ) : LinkHandler Unit := do
  let newHash ← embed (Versions.embed (Families.orRefuse (Families.internal
    "Failed to hash password") (hashNewPassword services.toServices new)))
  if ← ask (.statement (.takeResetToken tokenHash))
      (Families.internal "Could not redeem the reset token") then
    redeem process tokenHash newHash expiresAt
  else throw invalidResetToken

/-- `reset_password::handle`. -/
def resetPassword (services : LinkServices) (settings : Settings) (process : ℕ)
    (token new : String) : LinkHandler Unit := do
  ask (.version (.family .readConfig)) (Families.internal "Could not read the password policy")
  match checkNewPassword new settings.passwordMinLength with
  | .error refusal => throw refusal
  | .ok () =>
    match ← ask (.statement (.findByResetToken (services.sha256Hex token)))
        (Families.internal "Could not check the reset token") with
    | none => throw invalidResetToken
    | some none => throw resetTokenExpired
    | some (some expiresAt) =>
      let now ← ask (.statement .utcNow) (Families.internal "clock")
      if now > expiresAt then throw resetTokenExpired
      else takeAndRedeem services process (services.sha256Hex token) new expiresAt

end Links

/-- A request for a link, or the redemption of one. -/
inductive LinkRequest where
  | forgot
  | redeem (token new : String)
  deriving DecidableEq, Repr

def LinkRequest.program (services : LinkServices) (settings : Settings) (process : ℕ) :
    LinkRequest → LinkProgram (Except Refusal Unit)
  | forgot => (Links.forgotPassword services).run
  | redeem token new => (Links.resetPassword services settings process token new).run

/-- Any number of requests, each in its process, run along a schedule. -/
def linkRun {ι : Type} [DecidableEq ι] (services : LinkServices) (settings : Settings)
    (start : VersionStore) (requests : ι → ℕ × LinkRequest)
    (schedule : List (ι × VersionChance)) :
    Pool ι VersionStore (Outcome Unit LinkReply) (Except Refusal Unit) :=
  (Pool.launch start fun i => (requests i).2.program services settings (requests i).1).exec
    performLink schedule

end Auth
