import Impresspress.Auth.Account

/-!
# The handlers of one account

Password sign-in, refresh, the creation of an API key, and the two ways to set a new password.
Every handler computes its answer and hands it out with its last call. The credential that a
request arrives with is checked by the pipeline before the handler runs.

Source: `crypto.rs` (`verify_access_token`), `blocks/auth/mod.rs` and
`blocks/auth_ui/api/{login,refresh,api_keys,change_password,reset_password,password_policy}.rs`.

## Main definitions

* `Auth.endCredentialsAfterPasswordChange`: what a new password ends.
* `Auth.presentedCredentialIsLive`: the check that a request makes of its own credential.
* `Auth.Request.program`, `Auth.Change.program`: the program of a request.
-/

namespace Auth

open Concurrent

/-- What a comparison of a password with a stored hash finds. -/
inductive Comparison where
  | hits
  | misses
  | malformedHash
  | unavailable
  deriving DecidableEq, Repr

/-- What the handlers take from the crypto service and from other crates. -/
structure Services where
  /-- The hash of a password under a random salt. -/
  hash : String → ℕ → String
  compareHash : String → String → Comparison
  sha256Hex : String → String
  parseRfc3339 : String → Option ℕ

/-- The settings of a deployment. `sessionLifetimeDays` is `none` when the stored value cannot be
used. -/
structure Settings where
  requireVerification : Bool
  passwordMinLength : ℕ
  accessTokenLifetime : ℕ
  sessionLifetimeDays : Option ℕ
  deriving DecidableEq, Repr

def utcNow : AuthProgram ℕ := .call .utcNow .done

def randomBytes : AuthProgram ℕ := .call .randomBytes .done

/-- The signature check of a token, or the possession of a key. -/
def present (credential : Credential) : AuthProgram Bool := .call (.present credential) .done

/-- `users::find_by_email` and `users::find_by_id`. -/
def findUser : AuthProgram UserRow := .call .findUser .done

/-- `user_roles::list_for_user`, each role once. -/
def listRoles : AuthProgram (List String) := .call .listRoles fun roles => .done roles.dedup

/-- `local_credentials::find_by_user_id`. -/
def findCredential : AuthProgram (Option String) := .call .findCredential .done

def isLive (family : ℕ) : AuthProgram Bool := .call (.isLive family) .done

def authVersion : AuthProgram ℕ := .call .authVersion .done

def currentAuthVersion : AuthProgram ℕ := .call .currentAuthVersion .done

/-- What the pipeline stamps on an authenticated request. -/
inductive Presented where
  | session (family authVersion : ℕ)
  | apiKey (id : ℕ)
  deriving DecidableEq, Repr

/-- `crypto::verify_access_token`. -/
def verifyAccessToken (token : AccessToken) : AuthProgram (Option Presented) := do
  if ← present (.access token) then
    let live ← isLive token.family
    let current ← currentAuthVersion
    if !live || token.authVersion < current then return none
    else return some (.session token.family token.authVersion)
  else return none

/-- `auth::authenticate_api_key`. -/
def authenticateApiKey (key : ℕ) : AuthProgram (Option Presented) := do
  if ← present (.apiKey key) then
    match ← (.call (.findKeyByHash key) .done : AuthProgram (Option ApiKeyRow)) with
    | none => return none
    | some row =>
      let now ← utcNow
      if row.isRevoked || row.isExpired now then return none
      else
        let user ← findUser
        if !user.isActive then return none
        else
          let _ ← listRoles
          return some (.apiKey row.id)
  else return none

/-- The pipeline's check of the credential that a request arrives with. A refresh token is no
access token and no key. -/
def authenticate : Credential → AuthProgram (Option Presented)
  | .access token => verifyAccessToken token
  | .apiKey key => authenticateApiKey key
  | .refresh _ => return none

/-- `auth::presented_credential_is_live`: the check made again, the version read uncached. -/
def presentedCredentialIsLive : Presented → AuthProgram Bool
  | .session family claimVersion => do
    let live ← isLive family
    let current ← authVersion
    return live && decide (claimVersion ≥ current)
  | .apiKey id => do
    match ← (.call (.findKey id) .done : AuthProgram (Option ApiKeyRow)) with
    | none => return false
    | some row =>
      let now ← utcNow
      return !row.isRevoked && !row.isExpired now

/-- A refusal. -/
abbrev Refusal := ErrorCode × String

/-- `helpers::TokenGrant`: the version of the account row, and the roles read after it. -/
structure TokenGrant where
  authVersion : ℕ
  roles : List String
  deriving DecidableEq, Repr

/-- `TokenGrant::resolve`. -/
def TokenGrant.resolve (user : UserRow) : AuthProgram TokenGrant := do
  let roles ← listRoles
  return ⟨user.authVersion, roles⟩

/-- `helpers::SessionLifetime`. -/
structure SessionLifetime where
  ttlSecs : ℕ
  expiresAt : ℕ
  deriving DecidableEq, Repr

/-- `SessionLifetime::resolve_or_error`. -/
def SessionLifetime.resolve (settings : Settings) : AuthProgram (Except Refusal SessionLifetime) :=
  match settings.sessionLifetimeDays with
  | none => return .error (.internalError, "WAFER_RUN_SHARED__AUTH__SESSION_LIFETIME_DAYS is " ++
      "misconfigured: must be a whole number of days from 1 to 3650")
  | some days => do
    let now ← utcNow
    return .ok ⟨days * 86400, now + days * 86400⟩

/-- `helpers::Rotation`. -/
inductive Rotation where
  | newFamily
  | within (family generation : ℕ)
  deriving DecidableEq, Repr

/-- `helpers::generate_tokens`. One draw gives the nonce and, for a new family, its id. -/
def generateTokens (settings : Settings) (lifetime : SessionLifetime) (grant : TokenGrant)
    (authMethod : String) (family : Option ℕ) : AuthProgram (AccessToken × RefreshToken) := do
  let bytes ← randomBytes
  let now ← utcNow
  let family := family.getD bytes
  return (⟨family, grant.authVersion, grant.roles, authMethod, now + settings.accessTokenLifetime⟩,
    ⟨family, grant.authVersion, authMethod, bytes, now + lifetime.ttlSecs⟩)

/-- `helpers::refresh_token_revoked`. -/
def refreshTokenRevoked : Refusal := (.invalidToken, "Refresh token has been revoked")

def revokeFamily (family : ℕ) : AuthProgram Unit := .call (.revokeFamily family) .done

/-- `helpers::establish_family`. -/
def establishFamily (lifetime : SessionLifetime) (token : RefreshToken) (authMethod : String) :
    Rotation → AuthProgram (Except Refusal Unit)
  | .newFamily =>
    .call (.createFamily token ⟨token.family, authMethod, lifetime.expiresAt⟩) fun _ =>
      .done (.ok ())
  | .within family generation =>
    .call (.insertToken token generation lifetime.expiresAt) fun _ =>
      .call (.touchSession family lifetime.expiresAt) fun touched =>
        if touched = (0 : ℕ) then do
          revokeFamily family
          return .error refreshTokenRevoked
        else return .ok ()

/-- `helpers::issue_tokens_and_cookie`. -/
def issueTokensAndCookie (settings : Settings) (lifetime : SessionLifetime) (grant : TokenGrant)
    (authMethod : String) (rotation : Rotation) : AuthProgram Response := do
  let family := match rotation with
    | .newFamily => none
    | .within family _ => some family
  let (access, refresh) ← generateTokens settings lifetime grant authMethod family
  match ← establishFamily lifetime refresh authMethod rotation with
  | .error (code, message) => return .refused code message
  | .ok () => return .tokens access refresh

/-- `auth::check_password`, as what a sign-in makes of it: no credential and a hash that cannot be
checked count as a wrong password. -/
def passwordOk (services : Services) (password : String) : Option String → Except Refusal Bool
  | none => .ok false
  | some hash =>
    match services.compareHash password hash with
    | .hits => .ok true
    | .misses | .malformedHash => .ok false
    | .unavailable => .error (.unavailable, "Authentication is temporarily unavailable")

def invalidCredentials : Response := .refused .invalidCredentials "Invalid email or password"

/-- A sign-in once the account and its credential have been read. -/
def signIn (services : Services) (settings : Settings) (password : String) (user : UserRow)
    (stored : Option String) : AuthProgram Response :=
  match passwordOk services password stored with
  | .error (code, message) => return .refused code message
  | .ok false => return invalidCredentials
  | .ok true =>
    if !user.isActive then return invalidCredentials
    else if settings.requireVerification && !user.emailVerified then
      return .refused .emailNotVerified ("Please verify your email before logging in. Check " ++
        "your inbox for the verification link.")
    else do
      let grant ← TokenGrant.resolve user
      match ← SessionLifetime.resolve settings with
      | .error (code, message) => return .refused code message
      | .ok lifetime => issueTokensAndCookie settings lifetime grant "password" .newFamily

/-- `login::handle`, for the account's address. -/
def login (services : Services) (settings : Settings) (password : String) : AuthProgram Response := do
  let user ← findUser
  let stored ← findCredential
  signIn services settings password user stored

/-- `helpers::end_family`. -/
def endFamily (family : ℕ) : AuthProgram Unit := do
  (.call (.deleteSession family) .done : AuthProgram Unit)
  revokeFamily family

/-- `refresh::refuse_not_live` for a token whose row was revoked when it was read. -/
def refuseRevokedAtRead (row : TokenRow) : AuthProgram Response := do
  if ← (.call (.familyHasLiveRow row.family) .done : AuthProgram Bool) then
    endFamily row.family
  return .refused refreshTokenRevoked.1 refreshTokenRevoked.2

/-- A refresh once the token has been found. -/
def rotate (settings : Settings) (token : RefreshToken) (row : TokenRow) : AuthProgram Response :=
  if row.revoked then refuseRevokedAtRead row
  else do
    let user ← findUser
    if !user.isActive then return .refused .accountDisabled "Account is disabled"
    else if token.authVersion < user.authVersion then
      endFamily row.family
      return .refused refreshTokenRevoked.1 refreshTokenRevoked.2
    else if settings.requireVerification && !user.emailVerified then
      return .refused .emailNotVerified "Email not verified"
    else
      let grant ← TokenGrant.resolve user
      match ← SessionLifetime.resolve settings with
      | .error (code, message) => return .refused code message
      | .ok lifetime =>
        -- the claim is a compare-and-set: of two refreshes of one token one goes on
        if ← (.call (.revokeIfLive row.id) .done : AuthProgram Bool) then
          issueTokensAndCookie settings lifetime grant token.authMethod
            (.within row.family (row.generation + 1))
        else return .refused refreshTokenRevoked.1 refreshTokenRevoked.2

/-- `refresh::handle`. -/
def refresh (settings : Settings) (token : RefreshToken) : AuthProgram Response := do
  if ← present (.refresh token) then
    match ← (.call (.findToken token) .done : AuthProgram (Option TokenRow)) with
    | none => return .refused refreshTokenRevoked.1 refreshTokenRevoked.2
    | some row => rotate settings token row
  else return .refused .invalidToken "Invalid or expired refresh token"

/-- `http::err_unauthenticated`. -/
def unauthenticated : Response := .refused .notAuthenticated "Authentication required"

/-- `api_keys::parse_expiry`: the stored expiry, or a refusal. An untouched field is no expiry. -/
def parseExpiry (services : Services) (raw : Option String) (now : ℕ) :
    Except Refusal KeyExpiry :=
  match (raw.map fun raw => raw.trimAscii.toString).filter fun raw => !raw.isEmpty with
  | none => .ok .never
  | some raw =>
    match services.parseRfc3339 raw with
    | none => .error (.badRequest, "expires_at must be an RFC 3339 timestamp " ++
        s!"(e.g. 2027-01-31T09:00:00Z), got {raw.quote}")
    | some time =>
      if time ≤ now then .error (.badRequest, s!"expires_at must be in the future, got {raw.quote}")
      else .ok (.at time)

/-- What follows the insert of a key: the request's own credential is checked again, and the key is
withdrawn when it has died. -/
def confirmKey (presented : Presented) (key : ℕ) (row : ApiKeyRow) : AuthProgram Response := do
  if ← presentedCredentialIsLive presented then return .apiKey row.id key row.name
  else
    (.call (.revokeKey row.id) .done : AuthProgram Unit)
    return unauthenticated

/-- The insert of a key that has been drawn, and what follows it. -/
def storeKey (presented : Presented) (name : String) (key : ℕ) (expiry : KeyExpiry) :
    AuthProgram Response := do
  match ← (.call (.insertKey name key expiry) .done : AuthProgram (Option ApiKeyRow)) with
  | none => return .refused .internalError "Could not create the API key"
  | some row => confirmKey presented key row

/-- `api_keys::handle_create`. -/
def handleCreate (services : Services) (credential : Credential) (name : String) (expiresAt : Option String) :
    AuthProgram Response := do
  match ← authenticate credential with
  | none => return unauthenticated
  | some presented =>
    if name.isEmpty then return .refused .badRequest "API key name is required"
    else
      let now ← utcNow
      match parseExpiry services expiresAt now with
      | .error (code, message) => return .refused code message
      | .ok expiry =>
        let key ← randomBytes
        storeKey presented name key expiry

/-- `password_policy::COMMON_PASSWORDS`. -/
def commonPasswords : List String :=
  ["123456", "admin", "12345678", "123456789", "1234", "12345", "password", "123", "aa123456",
    "1234567890", "user", "unknown", "1234567", "tmp", "test", "111111", "qwerty123", "abc123",
    "1q2w3e4r5t", "qwertyuiop", "654321", "iloveyou", "dragon", "monkey", "qwerty", "password1",
    "admin123", "impresspress"]

/-- A control character. -/
def isControl (c : Char) : Bool := c.toNat < 0x20 || (0x7f ≤ c.toNat && c.toNat < 0xa0)

/-- `str::eq_ignore_ascii_case`. -/
def eqIgnoreAsciiCase (a b : String) : Bool :=
  a.toList.map Char.toLower == b.toList.map Char.toLower

/-- `password_policy::check_new_password`. -/
def checkNewPassword (password : String) (minLength : ℕ) : Except Refusal Unit :=
  if password.length < minLength then
    .error (.passwordTooShort, s!"Password must be at least {minLength} characters")
  else if password.length > 1024 then
    .error (.passwordTooLong, "Password must not exceed 1024 characters")
  else if password.toList.any isControl then
    .error (.invalidInput, "Password must not contain control characters")
  else if commonPasswords.any fun common => eqIgnoreAsciiCase common password then
    .error (.invalidInput,
      "Password is too common. Please choose a less predictable password.")
  else .ok ()

/-- `auth::hash_new_password`. -/
def hashNewPassword (services : Services) (password : String) : AuthProgram String := do
  let salt ← randomBytes
  return services.hash password salt

/-- `local_credentials::update_password`: whether the hash was stored. The update is filtered on
the account alone. -/
def updatePassword (hash : String) : AuthProgram Bool := do
  if ← (.call .getCredential .done : AuthProgram Bool) then
    (.call (.updateCredential hash) .done : AuthProgram Unit)
    return true
  else (.call (.insertCredential hash) .done : AuthProgram Bool)

/-- `auth::end_credentials_after_password_change`: the devices, then the version, then the keys. -/
def endCredentialsAfterPasswordChange : AuthProgram Unit := do
  (.call .deleteSessions .done : AuthProgram Unit)
  (.call .revokeTokens .done : AuthProgram Unit)
  (.call .bumpAuthVersion .done : AuthProgram Unit)
  (.call .revokeKeys .done : AuthProgram Unit)

/-- `change_password::MISMATCH`. -/
def mismatch : String := "New passwords do not match."

/-- `change_password::handle` up to the stored hash: why a new password is refused. -/
def refuseChange (services : Services) (settings : Settings) (current new : String)
    (confirm : Option String) : AuthProgram (Option Refusal) :=
  if confirm.any fun confirm => confirm != new then return some (.invalidInput, mismatch)
  else
    match checkNewPassword new settings.passwordMinLength with
    | .error refusal => return some refusal
    | .ok () => do
      let _ ← findUser
      match ← findCredential with
      | none => return some (.invalidCredentials, "No password set for this account")
      | some hash =>
        match services.compareHash current hash with
        | .hits => return none
        | .misses => return some (.invalidCredentials, "Current password is incorrect")
        | .malformedHash => return some (.internalError, "Stored password hash could not be checked")
        | .unavailable => return some (.unavailable, "Authentication is temporarily unavailable")

/-- `change_password::handle` once the current password has been checked. -/
def storeNewPassword (services : Services) (new : String) : AuthProgram Response := do
  let hash ← hashNewPassword services new
  if ← updatePassword hash then
    endCredentialsAfterPasswordChange
    return .changed
  else return .refused .internalError "Update failed"

/-- `change_password::handle`. -/
def changePassword (services : Services) (settings : Settings) (credential : Credential)
    (current new : String) (confirm : Option String) : AuthProgram Response := do
  match ← authenticate credential with
  | none => return .refused .notAuthenticated "Not authenticated"
  | some _ =>
    match ← refuseChange services settings current new confirm with
    | some (code, message) => return .refused code message
    | none => storeNewPassword services new

def resetTokenExpired : Refusal :=
  (.tokenExpired, "Reset token has expired. Please request a new one.")

def invalidResetToken : Refusal := (.invalidToken, "Invalid or expired reset token")

/-- `reset_password::handle` once the token has been spent. -/
def redeem (tokenHash newHash : String) (expires : ℕ) : AuthProgram Response := do
  if ← updatePassword newHash then
    endCredentialsAfterPasswordChange
    (.call (.recordEmailProof "email_token") .done : AuthProgram Unit)
    return .changed
  else
    (.call (.restoreResetToken tokenHash (some expires)) .done : AuthProgram Unit)
    return .refused .internalError "Failed to update password"

/-- `reset_password::handle`. -/
def resetPassword (services : Services) (settings : Settings) (token new : String) :
    AuthProgram Response :=
  match checkNewPassword new settings.passwordMinLength with
  | .error (code, message) => return .refused code message
  | .ok () => do
    let tokenHash := services.sha256Hex token
    match ← (.call (.findByResetToken tokenHash) .done : AuthProgram (Option (Option ℕ))) with
    | none => return .refused invalidResetToken.1 invalidResetToken.2
    | some none => return .refused resetTokenExpired.1 resetTokenExpired.2
    | some (some expires) =>
      let now ← utcNow
      if now > expires then return .refused resetTokenExpired.1 resetTokenExpired.2
      else
        let newHash ← hashNewPassword services new
        if ← (.call (.takeResetToken tokenHash) .done : AuthProgram Bool) then
          redeem tokenHash newHash expires
        else return .refused invalidResetToken.1 invalidResetToken.2

/-- Compute an answer, and hand it out. -/
def answering (p : AuthProgram Response) : AuthProgram Response := do
  let response ← p
  (.call (.respond response) .done : AuthProgram Unit)
  return response

/-- A request of the account's callers. -/
inductive Request where
  | login (password : String)
  | refresh (token : RefreshToken)
  | createKey (credential : Credential) (name : String) (expiresAt : Option String)
  | changePassword (credential : Credential) (current new : String) (confirm : Option String)
  deriving DecidableEq, Repr

def Request.handler (services : Services) (settings : Settings) : Request → AuthProgram Response
  | login password => Auth.login services settings password
  | refresh token => Auth.refresh settings token
  | createKey credential name expiresAt => handleCreate services credential name expiresAt
  | changePassword credential current new confirm =>
    Auth.changePassword services settings credential current new confirm

def Request.program (services : Services) (settings : Settings) (request : Request) :
    AuthProgram Response :=
  answering (request.handler services settings)

/-- The two requests that set a new password. -/
inductive Change where
  | changePassword (credential : Credential) (current new : String) (confirm : Option String)
  | resetPassword (token new : String)
  deriving DecidableEq, Repr

def Change.handler (services : Services) (settings : Settings) : Change → AuthProgram Response
  | changePassword credential current new confirm =>
    Auth.changePassword services settings credential current new confirm
  | resetPassword token new => Auth.resetPassword services settings token new

def Change.program (services : Services) (settings : Settings) (change : Change) :
    AuthProgram Response :=
  answering (change.handler services settings)

/-- The program of the change, and those of the other requests. -/
def programs {ι : Type} (services : Services) (settings : Settings) (change : Change)
    (requests : ι → Request) : Option ι → AuthProgram Response
  | none => change.program services settings
  | some i => (requests i).program services settings

/-- The change and any number of other requests, run along a schedule. -/
def serve {ι : Type} [DecidableEq ι] (services : Services) (settings : Settings) (change : Change)
    (requests : ι → Request) (start : AuthStore) (schedule : List (Option ι × AuthChance)) :
    Pool (Option ι) AuthStore AuthAnswer Response :=
  (Pool.launch start (programs services settings change requests)).exec perform schedule

end Auth
