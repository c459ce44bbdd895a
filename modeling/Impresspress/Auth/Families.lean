import Impresspress.Auth.Handlers
import Impresspress.Concurrent.Fallible

/-!
# Login families

A family is a device that is signed in: a session row, and the refresh rows of which one is live.
A refresh rotates in separate statements, and a revocation is two of them; any of them may fail,
and then changes nothing.

Source: `blocks/auth/mod.rs` (`establish_family`, `end_family`, `end_all_families`),
`blocks/auth_ui/api/{refresh,logout}.rs`, `blocks/userportal/pages/sessions.rs` and
`blocks/auth/maintenance.rs`.

## Main definitions

* `Auth.FamilyCall`, `Auth.performFamily`: statements that may fail, and what they do.
* `Auth.Families.establishFamily`, `Auth.Families.endFamily`: how a family is carried on and ended.
* `Auth.Families.refresh`: the rotation.
* `Auth.FamilyRequest`: the requests to the families of one account.
-/

namespace Auth

open Concurrent

/-- The statements of the handlers, those that look at a family or expire its rows, and the reads of
the configuration. -/
inductive FamilyCall where
  | statement (c : AuthCall)
  | readConfig
  | findSession (family : ℕ)
  | expireSessions (cutoff : ℕ)
  | expireTokens (cutoff : ℕ)
  deriving DecidableEq, Repr

@[reducible] def FamilyReply : FamilyCall → Type
  | .statement c => AuthAnswer c
  | .findSession _ => Bool
  | .readConfig | .expireSessions _ | .expireTokens _ => Unit

/-- What a call meets: whether it fails, and what else its caller cannot know. -/
structure FamilyChance where
  fails : Bool
  auth : AuthChance
  deriving DecidableEq, Repr

/-- An answer that was computed is handed out, and the clock is always there. -/
def FamilyCall.mayFail : FamilyCall → Bool
  | .statement (.respond _) | .statement .utcNow => false
  | _ => true

/-- How the store answers a call that does not fail. -/
def answerFamily (chance : AuthChance) (c : FamilyCall) (s : AuthStore) :
    FamilyReply c × AuthStore :=
  let later := { s with clock := s.clock + chance.elapsed }
  match c with
  | .statement c => perform chance c s
  | .readConfig => ((), later)
  | .findSession family => (s.sessions.any fun row => row.family == family, later)
  | .expireSessions cutoff =>
    ((), { later with sessions := s.sessions.filter fun row => !decide (row.expiresAt < cutoff) })
  | .expireTokens cutoff =>
    ((), { later with tokens := s.tokens.filter fun row => !decide (row.expiresAt < cutoff) })

/-- One call: it fails, or it does what it does. -/
def performFamily (chance : FamilyChance) (c : FamilyCall) (s : AuthStore) :
    Outcome Unit FamilyReply c × AuthStore :=
  if c.mayFail && chance.fails then
    (.error (), { s with clock := s.clock + chance.auth.elapsed })
  else (.ok (answerFamily chance.auth c s).1, (answerFamily chance.auth c s).2)

abbrev FamilyProgram := Program FamilyCall (Outcome Unit FamilyReply)

/-- Programs that refuse. -/
abbrev Handler := ExceptT Refusal FamilyProgram

namespace Families

variable {α : Type}

/-- One call, and the refusal that is answered when it fails. -/
def ask (c : FamilyCall) (refusal : Refusal) : Handler (FamilyReply c) :=
  ExceptT.mk (.call c fun
    | .ok reply => .done (.ok reply)
    | .error _ => .done (.error refusal))

/-- A program of statements, and the refusal that is answered when one of them fails. -/
def orRefuse (refusal : Refusal) : AuthProgram α → Handler α
  | .done a => pure a
  | .call c next => do
    let reply ← ask (.statement c) refusal
    orRefuse refusal (next reply)

/-- A program whose refusal is looked at. -/
def attempt (p : Handler α) : Handler (Except Refusal α) :=
  ExceptT.mk (p.run >>= fun result => pure (.ok result))

/-- `crud::db_error_internal`. -/
def internal (message : String) : Refusal := (.internalError, message)

/-- `repo::sessions::delete`. -/
def deleteSession (family : ℕ) : Handler Unit :=
  ask (.statement (.deleteSession family)) (internal "session delete")

/-- `repo::tokens::revoke_family`. -/
def revokeFamily (family : ℕ) (message : String) : Handler Unit :=
  ask (.statement (.revokeFamily family)) (internal message)

/-- `helpers::end_family`: the session row, then the refresh rows. -/
def endFamily (family : ℕ) : Handler Unit := do
  deleteSession family
  revokeFamily family "tokens revoke_family"

/-- `helpers::end_all_families`, of the account. -/
def endAllFamilies : Handler Unit := do
  ask (.statement .deleteSessions) (internal "Logout could not fully revoke the session")
  ask (.statement .revokeTokens) (internal "Logout could not fully revoke the session")

/-- `helpers::establish_family` for a rotation: the successor's row, then a touch of the session. -/
def establishFamily (token : RefreshToken) (family generation expiresAt : ℕ) : Handler Unit := do
  ask (.statement (.insertToken token generation expiresAt))
    (internal "Could not persist the refresh token")
  let touched ← attempt (ask (.statement (.touchSession family expiresAt))
    (internal "Refresh could not confirm the login family"))
  match touched with
  | .ok touched =>
    if touched = 0 then
      revokeFamily family "Refresh could not revoke the token family"
      throw refreshTokenRevoked
  | .error refusal =>
    let _ ← attempt (endFamily family)
    throw refusal

/-- `helpers::generate_tokens` for a rotation. -/
def generateTokens (settings : Settings) (lifetime : SessionLifetime) (grant : TokenGrant)
    (authMethod : String) (family : ℕ) : Handler (AccessToken × RefreshToken) := do
  let jti ← ask (.statement .randomBytes) (internal "random bytes")
  ask .readConfig (internal "WAFER_RUN_SHARED__AUTH__ACCESS_TOKEN_LIFETIME_SECS")
  let now ← ask (.statement .utcNow) (internal "clock")
  return (⟨family, grant.authVersion, grant.roles, authMethod, now + settings.accessTokenLifetime⟩,
    ⟨family, grant.authVersion, authMethod, jti, now + lifetime.ttlSecs⟩)

/-- `helpers::issue_tokens_and_cookie` for a rotation. -/
def issueTokensAndCookie (settings : Settings) (lifetime : SessionLifetime) (grant : TokenGrant)
    (authMethod : String) (family generation : ℕ) : Handler Response := do
  let tokens ← generateTokens settings lifetime grant authMethod family
  establishFamily tokens.2 family generation lifetime.expiresAt
  ask .readConfig (internal "WAFER_RUN_SHARED__AUTH__ACCESS_TOKEN_LIFETIME_SECS")
  return .tokens tokens.1 tokens.2

/-- `refresh::refuse_not_live` for a row that was revoked when it was read. -/
def refuseRevokedAtRead (family : ℕ) : Handler Response := do
  let live ← ask (.statement (.familyHasLiveRow family))
    (internal "Refresh could not check the token family")
  if live then endFamily family
  throw refreshTokenRevoked

/-- `refresh::refuse_stale_family`: a failure to end the family changes nothing for the caller. -/
def refuseStaleFamily (family : ℕ) : Handler Response := do
  let _ ← attempt (endFamily family)
  throw refreshTokenRevoked

/-- What a refresh checks before it claims the row: the grant and the lifetime, or a refusal. A
family that is behind the account's version is ended. -/
def checkAccount (settings : Settings) (user : UserRow) :
    Handler (TokenGrant × SessionLifetime) := do
  ask .readConfig (internal "Could not read the verification policy")
  if settings.requireVerification && !user.emailVerified then
    throw (.emailNotVerified, "Email not verified")
  else
    let grant ← orRefuse (internal "Failed to resolve user roles") (TokenGrant.resolve user)
    ask .readConfig (internal "WAFER_RUN_SHARED__AUTH__SESSION_LIFETIME_DAYS")
    match ← orRefuse (internal "clock") (SessionLifetime.resolve settings) with
    | .error refusal => throw refusal
    | .ok lifetime => return (grant, lifetime)

/-- The claim of the row, and the issuance of its successor. -/
def claimAndIssue (settings : Settings) (token : RefreshToken) (row : TokenRow)
    (grant : TokenGrant) (lifetime : SessionLifetime) : Handler Response := do
  let claimed ← ask (.statement (.revokeIfLive row.id)) (internal "Refresh could not rotate the token")
  if claimed then
    issueTokensAndCookie settings lifetime grant token.authMethod row.family (row.generation + 1)
  else throw refreshTokenRevoked

/-- A refresh once the token's row has been read. -/
def rotate (settings : Settings) (token : RefreshToken) (row : TokenRow) : Handler Response :=
  if row.revoked then refuseRevokedAtRead row.family
  else do
    let user ← ask (.statement .findUser) (internal "Refresh could not load the account")
    if !user.isActive then throw (.accountDisabled, "Account is disabled")
    else if token.authVersion < user.authVersion then refuseStaleFamily row.family
    else
      let (grant, lifetime) ← checkAccount settings user
      claimAndIssue settings token row grant lifetime

/-- `refresh::handle`. -/
def refresh (settings : Settings) (token : RefreshToken) : Handler Response := do
  let verified ← ask (.statement (.present (.refresh token)))
    (.unavailable, "Authentication is temporarily unavailable")
  if verified then
    match ← ask (.statement (.findToken token)) (internal "Refresh could not look the token up") with
    | none => throw refreshTokenRevoked
    | some row => rotate settings token row
  else throw (.invalidToken, "Invalid or expired refresh token")

/-- `sessions::handle_revoke` for a family of the account; a family without a row is answered as one
that has been revoked. -/
def handleRevoke (family : ℕ) : Handler Response := do
  let found ← ask (.findSession family) (internal "Could not look up the session")
  if found then endFamily family
  return .changed

/-- `maintenance::sweep`: a table that cannot be pruned does not keep the other from it. -/
def sweep : Handler Response := do
  let cutoff ← ask (.statement .utcNow) (internal "clock")
  let _ ← attempt (ask (.expireSessions cutoff) (internal "session delete_expired"))
  let _ ← attempt (ask (.expireTokens cutoff) (internal "tokens delete_expired"))
  return .changed

end Families

/-- A request to the families of the account. -/
inductive FamilyRequest where
  | refresh (token : RefreshToken)
  | endFamily (family : ℕ)
  | endAllFamilies
  | revokeDevice (family : ℕ)
  | sweep
  deriving DecidableEq, Repr

namespace FamilyRequest

def handler (settings : Settings) : FamilyRequest → Handler Response
  | refresh token => Families.refresh settings token
  | endFamily family => do
    Families.endFamily family
    return .changed
  | endAllFamilies => do
    Families.endAllFamilies
    return .changed
  | revokeDevice family => Families.handleRevoke family
  | sweep => Families.sweep

/-- Compute an answer, and hand it out. -/
def program (settings : Settings) (request : FamilyRequest) : FamilyProgram Response := do
  let result ← (request.handler settings).run
  let response := match result with
    | .ok response => response
    | .error (code, message) => .refused code message
  .call (.statement (.respond response)) fun _ => .done response

end FamilyRequest

end Auth
