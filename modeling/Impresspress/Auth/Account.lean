import Impresspress.Concurrent.Pool
import Impresspress.Relational.Table

/-!
# One account's rows

The rows of one account, what its callers hold, and the statements that the handlers of the auth
block send. The statements do not fail; a handler that is stopped makes no further call. A row of
another account is never touched by them, since every filter names the account or a key of its
rows.

Source: `blocks/auth/repo/{users,local_credentials,sessions,tokens,api_keys}.rs`, with migrations
004, 006, 007, 009 and 012.

## Main definitions

* `Auth.Credential`: what a request can present.
* `Auth.AuthStore`: the rows, and the credentials that have been handed out.
* `Auth.perform`: how the store answers.
-/

namespace Auth

open Concurrent Relational

/-- The account's row. A `reset_token_expires` that is empty or not a time is `none`. -/
structure UserRow where
  disabled : Bool
  deletedAt : Option ℕ
  emailVerified : Bool
  emailVerifiedBy : String
  authVersion : ℕ
  resetToken : String
  resetTokenExpires : Option ℕ
  deriving DecidableEq, Repr

/-- Neither disabled nor soft-deleted. -/
def UserRow.isActive (user : UserRow) : Bool := !user.disabled && user.deletedAt.isNone

/-- The claims of an access JWT. -/
structure AccessToken where
  family : ℕ
  authVersion : ℕ
  roles : List String
  authMethod : String
  exp : ℕ
  deriving DecidableEq, Repr

/-- The claims of a refresh JWT; `jti` tells it from every other. -/
structure RefreshToken where
  family : ℕ
  authVersion : ℕ
  authMethod : String
  jti : ℕ
  exp : ℕ
  deriving DecidableEq, Repr

/-- What a caller can present. -/
inductive Credential where
  | access (token : AccessToken)
  | refresh (token : RefreshToken)
  | apiKey (key : ℕ)
  deriving DecidableEq, Repr

/-- The credential has not passed the expiry that it carries itself. -/
def Credential.unexpired (now : ℕ) : Credential → Bool
  | access token => now < token.exp
  | refresh token => now < token.exp
  | apiKey _ => true

/-- A signed-in device. -/
structure SessionRow where
  family : ℕ
  authMethod : String
  expiresAt : ℕ
  deriving DecidableEq, Repr

/-- The row of a refresh token, found by the digest of the token. -/
structure TokenRow where
  id : ℕ
  token : RefreshToken
  family : ℕ
  generation : ℕ
  revoked : Bool
  expiresAt : ℕ
  deriving DecidableEq, Repr

/-- The `expires_at` column of an API key: empty, a time, or a text that is no time. -/
inductive KeyExpiry where
  | never
  | at (time : ℕ)
  | unreadable
  deriving DecidableEq, Repr

/-- The row of an API key, found by its id or by the digest of the key. -/
structure ApiKeyRow where
  id : ℕ
  name : String
  keyHash : ℕ
  expiresAt : KeyExpiry
  revokedAt : Option ℕ
  deriving DecidableEq, Repr

def ApiKeyRow.isRevoked (row : ApiKeyRow) : Bool := row.revokedAt.isSome

/-- A key expires at the instant it names; an expiry that cannot be read has passed. -/
def ApiKeyRow.isExpired (row : ApiKeyRow) (now : ℕ) : Bool :=
  match row.expiresAt with
  | .never => false
  | .at time => now ≥ time
  | .unreadable => true

/-- `id` is the primary key, and `key_hash` is unique. -/
def apiKeySchema : Schema ApiKeyRow ℕ where
  key := ApiKeyRow.id
  clash a b := a.keyHash == b.keyHash

/-- Stamp `revoked_at` on a key. -/
def ApiKeyRow.revoke (now : ℕ) (row : ApiKeyRow) : ApiKeyRow := { row with revokedAt := some now }

/-- Stamp `revoked_at` on a key that has none. -/
def ApiKeyRow.revokeLive (now : ℕ) (row : ApiKeyRow) : ApiKeyRow :=
  if row.isRevoked then row else row.revoke now

/-- Stamp `revoked_at` on the key with the id. -/
def ApiKeyRow.revokeOnly (id now : ℕ) (row : ApiKeyRow) : ApiKeyRow :=
  if row.id = id then row.revoke now else row

private theorem keeps_of_columns {f : ApiKeyRow → ApiKeyRow}
    (hf : ∀ row, (f row).id = row.id ∧ (f row).keyHash = row.keyHash) : apiKeySchema.Keeps f :=
  ⟨fun row => (hf row).1, fun a b => by simp only [apiKeySchema, (hf a).2, (hf b).2]⟩

theorem keeps_revokeLive (now : ℕ) : apiKeySchema.Keeps (ApiKeyRow.revokeLive now) :=
  keeps_of_columns fun row => by
    unfold ApiKeyRow.revokeLive
    split <;> exact ⟨rfl, rfl⟩

theorem keeps_revokeOnly (id now : ℕ) : apiKeySchema.Keeps (ApiKeyRow.revokeOnly id now) :=
  keeps_of_columns fun row => by
    unfold ApiKeyRow.revokeOnly
    split <;> exact ⟨rfl, rfl⟩

/-- What a refused caller is told. -/
inductive ErrorCode where
  | badRequest
  | notAuthenticated
  | invalidCredentials
  | accountDisabled
  | emailNotVerified
  | invalidToken
  | tokenExpired
  | passwordTooShort
  | passwordTooLong
  | invalidInput
  | internalError
  | unavailable
  deriving DecidableEq, Repr

/-- What a handler answers its caller. -/
inductive Response where
  | tokens (access : AccessToken) (refresh : RefreshToken)
  | apiKey (id key : ℕ) (name : String)
  | changed
  | refused (code : ErrorCode) (message : String)
  deriving DecidableEq, Repr

/-- The credentials that an answer hands out. -/
def Response.credentials : Response → List Credential
  | tokens access refresh => [.access access, .refresh refresh]
  | apiKey _ key _ => [.apiKey key]
  | changed => []
  | refused .. => []

/-- The account. `held` are the credentials that callers have been handed: a token is signed and
a key is 24 random bytes, so nobody presents another. Families, nonces, keys and row ids come
from one generator that never repeats. -/
structure AuthStore where
  user : UserRow
  roles : List String
  passwordHash : Option String
  sessions : List SessionRow
  tokens : List TokenRow
  apiKeys : Table apiKeySchema
  held : List Credential
  clock : ℕ
  nextRandom : ℕ

/-- What a call meets: the time that has passed, and the entry for the account in the
`auth_version` cache of the instance that makes it. -/
structure AuthChance where
  elapsed : ℕ
  cached : Option ℕ
  deriving DecidableEq, Repr

inductive AuthCall where
  | utcNow
  | randomBytes
  | present (credential : Credential)
  | findUser
  | listRoles
  | findCredential
  | getCredential
  | updateCredential (hash : String)
  | insertCredential (hash : String)
  | isLive (family : ℕ)
  | authVersion
  | currentAuthVersion
  | createFamily (token : RefreshToken) (session : SessionRow)
  | findToken (token : RefreshToken)
  | familyHasLiveRow (family : ℕ)
  | revokeIfLive (id : ℕ)
  | insertToken (token : RefreshToken) (generation expiresAt : ℕ)
  | touchSession (family expiresAt : ℕ)
  | deleteSession (family : ℕ)
  | revokeFamily (family : ℕ)
  | deleteSessions
  | revokeTokens
  | bumpAuthVersion
  | revokeKeys
  | insertKey (name : String) (keyHash : ℕ) (expiresAt : KeyExpiry)
  | findKey (id : ℕ)
  | findKeyByHash (keyHash : ℕ)
  | revokeKey (id : ℕ)
  | findByResetToken (tokenHash : String)
  | takeResetToken (tokenHash : String)
  | restoreResetToken (tokenHash : String) (expiresAt : Option ℕ)
  | recordEmailProof (proof : String)
  | respond (response : Response)
  deriving DecidableEq, Repr

@[reducible] def AuthAnswer : AuthCall → Type
  | .utcNow | .randomBytes | .authVersion | .currentAuthVersion => ℕ
  | .touchSession .. => ℕ
  | .present _ | .getCredential | .insertCredential _ | .isLive _ | .familyHasLiveRow _ => Bool
  | .revokeIfLive _ | .takeResetToken _ => Bool
  | .findUser => UserRow
  | .listRoles => List String
  | .findCredential => Option String
  | .findToken _ => Option TokenRow
  | .insertKey .. | .findKey _ | .findKeyByHash _ => Option ApiKeyRow
  | .findByResetToken _ => Option (Option ℕ)
  | _ => Unit

/-- The version that the cache serves: an entry holds a version that the account has had, and
versions only grow. -/
def AuthChance.version (chance : AuthChance) (current : ℕ) : ℕ :=
  match chance.cached with
  | some version => min version current
  | none => current

/-- How the store answers. -/
def perform (chance : AuthChance) (c : AuthCall) (s : AuthStore) : AuthAnswer c × AuthStore :=
  let s := { s with clock := s.clock + chance.elapsed }
  match c with
  | .utcNow => (s.clock, s)
  | .randomBytes => (s.nextRandom, { s with nextRandom := s.nextRandom + 1 })
  | .present credential =>
    (decide (credential ∈ s.held) && credential.unexpired s.clock, s)
  | .findUser => (s.user, s)
  | .listRoles => (s.roles, s)
  | .findCredential => (s.passwordHash, s)
  | .getCredential => (s.passwordHash.isSome, s)
  | .updateCredential hash => ((), { s with passwordHash := s.passwordHash.map fun _ => hash })
  | .insertCredential hash =>
    match s.passwordHash with
    | some _ => (false, s)
    | none => (true, { s with passwordHash := some hash })
  | .isLive family =>
    (s.sessions.any fun row => row.family == family && decide (s.clock < row.expiresAt), s)
  | .authVersion => (s.user.authVersion, s)
  | .currentAuthVersion => (chance.version s.user.authVersion, s)
  | .createFamily token session =>
    ((), { s with
      tokens := s.tokens ++ [⟨s.nextRandom, token, token.family, 0, false, session.expiresAt⟩],
      sessions := s.sessions ++ [session], nextRandom := s.nextRandom + 1 })
  | .findToken token => (s.tokens.find? fun row => row.token == token, s)
  | .familyHasLiveRow family =>
    (s.tokens.any fun row => row.family == family && !row.revoked, s)
  | .revokeIfLive id =>
    (s.tokens.any fun row => row.id == id && !row.revoked,
      { s with tokens := s.tokens.map fun row =>
        if row.id == id && !row.revoked then { row with revoked := true } else row })
  | .insertToken token generation expiresAt =>
    ((), { s with
      tokens := s.tokens ++ [⟨s.nextRandom, token, token.family, generation, false, expiresAt⟩],
      nextRandom := s.nextRandom + 1 })
  | .touchSession family expiresAt =>
    (s.sessions.countP fun row => row.family == family,
      { s with sessions := s.sessions.map fun row =>
        if row.family == family then { row with expiresAt := expiresAt } else row })
  | .deleteSession family =>
    ((), { s with sessions := s.sessions.filter fun row => row.family != family })
  | .revokeFamily family =>
    ((), { s with tokens := s.tokens.map fun row =>
      if row.family == family then { row with revoked := true } else row })
  | .deleteSessions => ((), { s with sessions := [] })
  | .revokeTokens =>
    ((), { s with tokens := s.tokens.map fun row => { row with revoked := true } })
  | .bumpAuthVersion =>
    ((), { s with user := { s.user with authVersion := s.user.authVersion + 1 } })
  | .revokeKeys => ((), { s with apiKeys := s.apiKeys.adjust (.revokeLive s.clock) (keeps_revokeLive _) })
  | .insertKey name keyHash expiresAt =>
    let row : ApiKeyRow := ⟨s.nextRandom, name, keyHash, expiresAt, none⟩
    match s.apiKeys.insert row with
    | some apiKeys => (some row, { s with apiKeys := apiKeys, nextRandom := s.nextRandom + 1 })
    | none => (none, s)
  | .findKey id => (s.apiKeys.get? id, s)
  | .findKeyByHash keyHash => (s.apiKeys.rows.find? fun row => row.keyHash == keyHash, s)
  | .revokeKey id =>
    ((), { s with apiKeys := s.apiKeys.adjust (.revokeOnly id s.clock) (keeps_revokeOnly _ _) })
  | .findByResetToken tokenHash =>
    (if s.user.resetToken = tokenHash then some s.user.resetTokenExpires else none, s)
  | .takeResetToken tokenHash =>
    if s.user.resetToken = tokenHash then
      (true, { s with user := { s.user with resetToken := "", resetTokenExpires := none } })
    else (false, s)
  | .restoreResetToken tokenHash expiresAt =>
    if s.user.resetToken = "" then
      ((), { s with user :=
        { s.user with resetToken := tokenHash, resetTokenExpires := expiresAt } })
    else ((), s)
  | .recordEmailProof proof =>
    ((), { s with user := { s.user with emailVerified := true, emailVerifiedBy := proof } })
  | .respond response => ((), { s with held := response.credentials ++ s.held })

abbrev AuthProgram := Program AuthCall AuthAnswer

end Auth
