import Impresspress.Auth.Families
import Impresspress.Concurrent.Typestate

/-!
# The cache of an account's version

A token carries the version of the account row it was minted from. An admin's change of the account
or of its roles writes first and bumps the version after. A check of an access token reads the
version through a cache that every process keeps for itself; a refresh reads the row.

The cache of a process is its entry for the account. Another account's fill that finds the map full
clears it, which is an eviction of the entry.

Source: `blocks/auth/mod.rs` (`current_auth_version_at`, `bump_auth_version`), `crypto.rs`
(`verify_access_token`), `blocks/admin/{ops,iam}.rs`, `platform_state/user_roles.rs` and
`blocks/auth_ui/api/{login,change_password}.rs`.

## Main definitions

* `Auth.VersionCall`, `Auth.performVersion`: the calls, and what they do.
* `Auth.Versions.currentAuthVersion`, `Auth.Versions.bumpAuthVersion`: the cache.
* `Auth.Versions.verifyAccessToken`: the check of an access token.
* `Auth.VersionRequest`: the requests.
-/

namespace Auth

open Concurrent

/-- `AUTH_VERSION_CACHE_TTL_MS`. -/
def authVersionCacheTtlMs : ℕ := 5000

/-- `AuthVersionCacheEntry`. -/
structure AuthVersionCacheEntry where
  version : ℕ
  cachedAtMs : ℕ
  deriving DecidableEq, Repr

/-- The account, the entry for it in the cache of every process, and the clock in milliseconds. -/
structure VersionStore where
  auth : AuthStore
  cache : ℕ → Option AuthVersionCacheEntry
  millis : ℕ

/-- The statements of the families, the steps of the cache, and the statements of the changes. -/
inductive VersionCall where
  | family (c : FamilyCall)
  | nowMillis
  | lookup (process now : ℕ)
  | fill (process version now : ℕ)
  | invalidate (process : ℕ)
  | evict (process : ℕ)
  | setDisabled (disabled : Bool)
  | softDelete
  | roleDefined (role : String)
  | holdsRole (role : String)
  | createGrant (role : String)
  | updateGrant (role newRole : String)
  | removeGrant (role : String)
  deriving DecidableEq, Repr

@[reducible] def VersionReply : VersionCall → Type
  | .family c => FamilyReply c
  | .nowMillis => ℕ
  | .lookup .. => Option ℕ
  | .roleDefined _ | .holdsRole _ | .createGrant _ | .updateGrant .. => Bool
  | _ => Unit

/-- What a call meets: the time that has passed, whether it fails, and the role rows. -/
structure VersionChance where
  elapsedMs : ℕ
  fails : Bool
  roleDefined : Bool
  auth : AuthChance
  deriving DecidableEq, Repr

/-- The clock and the cache are always there. -/
def VersionCall.mayFail : VersionCall → Bool
  | .family c => c.mayFail
  | .nowMillis | .lookup .. | .fill .. | .invalidate _ | .evict _ => false
  | _ => true

/-- An entry that is still trusted at `now`. -/
def AuthVersionCacheEntry.isFresh (entry : AuthVersionCacheEntry) (now : ℕ) : Bool :=
  now < entry.cachedAtMs + authVersionCacheTtlMs

/-- How the store answers a call that does not fail. -/
def answerVersion (chance : VersionChance) (c : VersionCall) (s : VersionStore) :
    VersionReply c × VersionStore :=
  match c with
  | .family c =>
    ((answerFamily chance.auth c s.auth).1, { s with auth := (answerFamily chance.auth c s.auth).2 })
  | .nowMillis => (s.millis, s)
  | .lookup process now =>
    (((s.cache process).filter fun entry => entry.isFresh now).map (·.version), s)
  | .fill process version now =>
    ((), { s with cache := Function.update s.cache process (some ⟨version, now⟩) })
  | .invalidate process => ((), { s with cache := Function.update s.cache process none })
  | .evict process => ((), { s with cache := Function.update s.cache process none })
  | .setDisabled disabled =>
    ((), { s with auth := { s.auth with user := { s.auth.user with disabled := disabled } } })
  | .softDelete =>
    ((), { s with auth :=
      { s.auth with user := { s.auth.user with deletedAt := some s.auth.clock } } })
  | .roleDefined _ => (chance.roleDefined, s)
  | .holdsRole role => (decide (role ∈ s.auth.roles), s)
  | .createGrant role =>
    if role ∈ s.auth.roles then (false, s)
    else (true, { s with auth := { s.auth with roles := s.auth.roles ++ [role] } })
  | .updateGrant role newRole =>
    if newRole ∈ s.auth.roles then (false, s)
    else (true, { s with auth := { s.auth with
      roles := s.auth.roles.map fun r => if r = role then newRole else r } })
  | .removeGrant role =>
    ((), { s with auth := { s.auth with roles := s.auth.roles.filter fun r => r ≠ role } })

/-- One call: it fails, or it does what it does. -/
def performVersion (chance : VersionChance) (c : VersionCall) (s : VersionStore) :
    Outcome Unit VersionReply c × VersionStore :=
  let later := { s with millis := s.millis + chance.elapsedMs }
  if c.mayFail && chance.fails then (.error (), later)
  else (.ok (answerVersion chance c later).1, (answerVersion chance c later).2)

abbrev VersionProgram := Program VersionCall (Outcome Unit VersionReply)

/-- Programs that refuse. -/
abbrev VersionHandler := ExceptT Refusal VersionProgram

namespace Versions

variable {α : Type}

/-- One call, and the refusal that is answered when it fails. -/
def ask (c : VersionCall) (refusal : Refusal) : VersionHandler (VersionReply c) :=
  ExceptT.mk (.call c fun
    | .ok reply => .done (.ok reply)
    | .error _ => .done (.error refusal))

/-- A program whose refusal is looked at. -/
def attempt (p : VersionHandler α) : VersionHandler (Except Refusal α) :=
  ExceptT.mk (p.run >>= fun result => pure (.ok result))

/-- A handler of the families, among the calls of this store. -/
def embed (p : Handler α) : VersionHandler α :=
  ExceptT.mk (Program.embed (Outcome Unit VersionReply) VersionCall.family p.run)

/-- `auth::credential_check_failed`. -/
def credentialCheckFailed : Refusal := (.unavailable, "Authentication is temporarily unavailable")

/-- `auth::current_auth_version_at`. The lock is not held over the read. -/
def currentAuthVersionAt (process now : ℕ) : VersionHandler ℕ := do
  match ← ask (.lookup process now) credentialCheckFailed with
  | some version => return version
  | none =>
    let version ← embed (Families.ask (.statement .authVersion) credentialCheckFailed)
    ask (.fill process version now) credentialCheckFailed
    return version

/-- `auth::current_auth_version`. -/
def currentAuthVersion (process : ℕ) : VersionHandler ℕ := do
  let now ← ask .nowMillis credentialCheckFailed
  currentAuthVersionAt process now

/-- `auth::bump_auth_version`: one increment, then this process's entry. -/
def bumpAuthVersion (process : ℕ) (refusal : Refusal) : VersionHandler Unit := do
  embed (Families.ask (.statement .bumpAuthVersion) refusal)
  ask (.invalidate process) refusal

/-- `crypto::verify_access_token`. A failed read of the family is answered first. -/
def verifyAccessToken (process : ℕ) (token : AccessToken) : VersionHandler (Option Presented) := do
  match ← attempt (embed (Families.ask (.statement (.present (.access token)))
      credentialCheckFailed)) with
  | .error _ | .ok false => return none
  | .ok true =>
    let live ← attempt (embed (Families.ask (.statement (.isLive token.family))
      credentialCheckFailed))
    let currentVersion ← attempt (currentAuthVersion process)
    match live with
    | .error refusal => throw refusal
    | .ok false => return none
    | .ok true =>
      match currentVersion with
      | .error refusal => throw refusal
      | .ok current =>
        if token.authVersion < current then return none
        else return some (.session token.family token.authVersion)

/-- The pipeline's check of the credential that a request arrives with. -/
def authenticate (process : ℕ) : Credential → VersionHandler (Option Presented)
  | .access token => verifyAccessToken process token
  | .apiKey key => embed (Families.orRefuse credentialCheckFailed (authenticateApiKey key))
  | .refresh _ => return none

/-- `helpers::issue_tokens_and_cookie` for a new family. -/
def issueNewFamily (settings : Settings) (lifetime : SessionLifetime) (grant : TokenGrant)
    (authMethod : String) : Handler Response := do
  let family ← Families.ask (.statement .randomBytes) (Families.internal "random bytes")
  let tokens ← Families.generateTokens settings lifetime grant authMethod family
  Families.ask (.statement (.createFamily tokens.2 ⟨family, authMethod, lifetime.expiresAt⟩))
    (Families.internal "Could not record the sign-in")
  Families.ask .readConfig (Families.internal "WAFER_RUN_SHARED__AUTH__ACCESS_TOKEN_LIFETIME_SECS")
  return .tokens tokens.1 tokens.2

/-- A sign-in whose password is right. -/
def signInVerified (settings : Settings) (user : UserRow) : Handler Response :=
  if !user.isActive then throw (.invalidCredentials, "Invalid email or password")
  else do
    Families.ask .readConfig (Families.internal "Could not read the verification policy")
    if settings.requireVerification && !user.emailVerified then
      throw (.emailNotVerified, "Please verify your email before logging in. Check your inbox for " ++
        "the verification link.")
    else
      let grant ← Families.orRefuse (Families.internal "Failed to resolve user roles")
        (TokenGrant.resolve user)
      Families.ask .readConfig (Families.internal "WAFER_RUN_SHARED__AUTH__SESSION_LIFETIME_DAYS")
      match ← Families.orRefuse (Families.internal "clock") (SessionLifetime.resolve settings) with
      | .error refusal => throw refusal
      | .ok lifetime => issueNewFamily settings lifetime grant "password"

/-- `login::handle`, for the account's address. A credential that cannot be read counts as none. -/
def login (services : Services) (settings : Settings) (password : String) : Handler Response := do
  let user ← Families.ask (.statement .findUser) (Families.internal "User lookup failed")
  let stored ← Families.attempt (Families.ask (.statement .findCredential)
    (Families.internal "credential lookup"))
  match passwordOk services password (stored.toOption.getD none) with
  | .error refusal => throw refusal
  | .ok false => throw (.invalidCredentials, "Invalid email or password")
  | .ok true => signInVerified settings user

/-- `ops::set_user_disabled`; `own` when the admin is the account. -/
def setUserDisabled (process : ℕ) (own disabled : Bool) : VersionHandler Unit :=
  if disabled && own then throw (.badRequest, "Cannot disable your own account")
  else do
    ask (.setDisabled disabled) (Families.internal "Database error")
    bumpAuthVersion process (Families.internal "User updated but session invalidation failed")

/-- `ops::delete_user`. -/
def deleteUser (process : ℕ) (own : Bool) : VersionHandler Unit :=
  if own then throw (.badRequest, "Cannot delete your own account")
  else do
    ask .softDelete (Families.internal "Database error")
    bumpAuthVersion process (Families.internal "User deleted but session invalidation failed")

/-- `ops::update_user_fields`, as far as it touches `disabled`. -/
def updateUserFields (process : ℕ) (own : Bool) (disabled : Option Bool) : VersionHandler Unit :=
  if own && disabled == some true then throw (.badRequest, "Cannot disable your own account")
  else
    match disabled with
    | none => return ()
    | some disabled => do
      ask (.setDisabled disabled) (Families.internal "Database error")
      bumpAuthVersion process (Families.internal "User updated but session invalidation failed")

/-- `iam::handle_assign_role`, of the account, with `user_roles::assign`. -/
def assignRole (process : ℕ) (role : String) : VersionHandler Unit := do
  if ← ask (.roleDefined role) (Families.internal "Database error") then
    if ← ask (.holdsRole role) (Families.internal "Database error") then
      throw (.badRequest, "Role already assigned to user")
    else if ← ask (.createGrant role) (Families.internal "Database error") then
      bumpAuthVersion process (Families.internal "Role assigned but session invalidation failed")
    else throw (.badRequest, "Role already assigned to user")
  else throw (.badRequest, s!"No role named {role.quote} exists. Create the role first.")

/-- `iam::handle_remove_role`, of a grant of the account: bump, remove, bump. -/
def removeRole (process : ℕ) (own : Bool) (role : String) : VersionHandler Unit := do
  if ← ask (.holdsRole role) (Families.internal "Database error") then
    if own && role == "admin" then throw (.badRequest, "Cannot remove your own admin role")
    else
      bumpAuthVersion process (Families.internal "Role not removed: session invalidation failed")
      ask (.removeGrant role) (Families.internal "Database error")
      bumpAuthVersion process (Families.internal "Role removed but session invalidation failed")
  else throw (.badRequest, "User-role assignment not found")

/-- `user_roles::rename_role`: a grant whose holder has one of the new name is revoked instead. -/
def renameGrant (role newRole : String) (refusal : Refusal) : VersionHandler Unit := do
  if ← ask (.updateGrant role newRole) refusal then return ()
  else ask (.removeGrant role) refusal

/-- `iam::cascade_role_rename`, for the account's grant. -/
def cascadeRoleRename (process : ℕ) (role newRole : String) : VersionHandler Unit := do
  if ← ask (.holdsRole role) (Families.internal "user_roles list_by_role") then
    renameGrant role newRole (Families.internal "user_roles rename_role")
    bumpAuthVersion process (Families.internal "bump_auth_version")

/-- `ops::revoke_every_grant_of`, for the account: a holder is bumped before and after; a grant that
is written after the read goes as well, without a bump. -/
def revokeEveryGrantOf (process : ℕ) (role : String) : VersionHandler Unit := do
  let holder ← ask (.holdsRole role) (Families.internal "Database error")
  if holder then
    bumpAuthVersion process (Families.internal "Role not deleted: session invalidation failed")
  ask (.removeGrant role)
    (Families.internal "Role not deleted: its grants could not be revoked")
  if holder then
    bumpAuthVersion process (Families.internal
      "Role not deleted: its grants were revoked but session invalidation failed")

/-- `ops::delete_role`. A failure of the pass that follows the delete is not answered as one. -/
def deleteRole (process : ℕ) (role : String) : VersionHandler Unit := do
  revokeEveryGrantOf process role
  let _ ← attempt (revokeEveryGrantOf process role)
  return ()

/-- `auth::end_credentials_after_password_change`: every step runs, and the first failure that
leaves something alive is answered. -/
def endCredentialsAfterPasswordChange (process : ℕ) (refusal : Refusal) : VersionHandler Unit := do
  let devices ← attempt (embed (Families.ask (.statement .deleteSessions) refusal))
  if devices.isOk then
    let _ ← attempt (embed (Families.ask (.statement .revokeTokens) refusal))
  let version ← attempt (bumpAuthVersion process refusal)
  let keys ← attempt (embed (Families.ask (.statement .revokeKeys) refusal))
  if devices.isOk && version.isOk && keys.isOk then return () else throw refusal

/-- `change_password::handle`. -/
def changePassword (services : Services) (settings : Settings) (process : ℕ)
    (credential : Credential) (current new : String) (confirm : Option String) :
    VersionHandler Unit := do
  match ← authenticate process credential with
  | none => throw (.notAuthenticated, "Not authenticated")
  | some _ =>
    match ← embed (Families.orRefuse (Families.internal "Database error")
        (refuseChange services settings current new confirm)) with
    | some refusal => throw refusal
    | none =>
      let hash ← embed (Families.orRefuse (Families.internal "Failed to hash password")
        (hashNewPassword services new))
      if ← embed (Families.orRefuse (Families.internal "Update failed") (updatePassword hash)) then
        endCredentialsAfterPasswordChange process
          (Families.internal "Password changed but session invalidation failed")
      else throw (Families.internal "Update failed")

end Versions

/-- A change that an admin makes to the account or its roles. -/
inductive AccountChange where
  | setUserDisabled (own disabled : Bool)
  | deleteUser (own : Bool)
  | updateUserFields (own : Bool) (disabled : Option Bool)
  | assignRole (role : String)
  | removeRole (own : Bool) (role : String)
  | renameRole (role newRole : String)
  | deleteRole (role : String)
  deriving DecidableEq, Repr

def AccountChange.handler (process : ℕ) : AccountChange → VersionHandler Unit
  | setUserDisabled own disabled => Versions.setUserDisabled process own disabled
  | deleteUser own => Versions.deleteUser process own
  | updateUserFields own disabled => Versions.updateUserFields process own disabled
  | assignRole role => Versions.assignRole process role
  | removeRole own role => Versions.removeRole process own role
  | renameRole role newRole => Versions.cascadeRoleRename process role newRole
  | deleteRole role => Versions.deleteRole process role

/-- A request, or another account's fill that finds the cache of its process full. -/
inductive VersionRequest where
  | login (password : String)
  | family (request : FamilyRequest)
  | check (token : AccessToken)
  | currentVersion
  | change (what : AccountChange)
  | changePassword (credential : Credential) (current new : String) (confirm : Option String)
  | overflow
  deriving DecidableEq, Repr

/-- What a request ends with. -/
inductive Verdict where
  | response (response : Response)
  | presented (presented : Option Presented)
  | version (version : ℕ)
  | done
  | failed (refusal : Refusal)
  deriving DecidableEq, Repr

/-- What a handler's result comes to. -/
def verdictOf {α : Type} (f : α → Verdict) : Except Refusal α → Verdict
  | .ok a => f a
  | .error refusal => .failed refusal

/-- Hand out an answer that has been computed. -/
def handOut (result : Except Refusal Response) : VersionProgram Verdict :=
  let response := match result with
    | .ok response => response
    | .error (code, message) => .refused code message
  .call (.family (.statement (.respond response))) fun _ => .done (.response response)

def VersionRequest.program (services : Services) (settings : Settings) (process : ℕ) :
    VersionRequest → VersionProgram Verdict
  | login password => do
    let result ← (Versions.embed (Versions.login services settings password)).run
    handOut result
  | family request => do
    let result ← (Versions.embed (request.handler settings)).run
    handOut result
  | check token => verdictOf .presented <$> (Versions.verifyAccessToken process token).run
  | currentVersion => verdictOf .version <$> (Versions.currentAuthVersion process).run
  | change what => verdictOf (fun _ => .done) <$> (what.handler process).run
  | changePassword credential current new confirm =>
    verdictOf (fun _ => .done) <$>
      (Versions.changePassword services settings process credential current new confirm).run
  | overflow => .call (.evict process) fun _ => .done .done

/-- Any number of requests, each in its process, run along a schedule. -/
def versionRun {ι : Type} [DecidableEq ι] (services : Services) (settings : Settings)
    (start : VersionStore) (requests : ι → ℕ × VersionRequest)
    (schedule : List (ι × VersionChance)) :
    Pool ι VersionStore (Outcome Unit VersionReply) Verdict :=
  (Pool.launch start fun i => (requests i).2.program services settings (requests i).1).exec
    performVersion schedule

end Auth
