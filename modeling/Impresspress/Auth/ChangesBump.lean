import Impresspress.Auth.TokenVersions

/-!
# Every request follows the typestate of the versions

A change that is over without a failure has bumped the version after its last write. The deletion of
a role is the exception: a grant that is written behind its read goes without a bump.

## Main definitions

* `Auth.Versions.Justified`: what a request knows when it is over.

## Main results

* `Auth.Versions.follows_request`: every request follows the typestate.
-/

namespace Auth

namespace Versions

open Concurrent Program VersionPhase

variable {α β : Type} {φ : VersionPhase} {user : Option ℕ} {refusal : Refusal} {process : ℕ}

/-! ## Changes -/

/-- Done without a failure, and nothing is left to be bumped. -/
def Bumped (result : Except Refusal Unit) (φ : VersionPhase) : Prop :=
  result = .ok () → φ.progress ≠ .written

theorem bumped_error (refusal : Refusal) (φ : VersionPhase) : Bumped (.error refusal) φ := nofun

theorem follows_bumpAuthVersion (process : ℕ) (refusal : Refusal) :
    (bumpAuthVersion process refusal).run.Follows versionStates φ Bumped := by
  refine Follows.bindExcept (follows_statement trivial (fun _ => ⟨fun _ _ => ?_, nofun⟩)
    ⟨nofun, fun _ _ => bumped_error _ _⟩)
  have hbumped : (φ.after (.family (.statement .bumpAuthVersion)) (.ok ())).progress ≠ .written :=
    φ.progress.bump_ne_written
  exact follows_ask trivial (fun _ _ => (after_plain (c := .invalidate process) trivial _).2 hbumped)
    (bumped_error _ _)

/-- A write, and the bump that follows it. -/
theorem follows_write_bump {c : VersionCall} (hpermits : φ.permits c) (first second : Refusal) :
    (ask c first >>= fun _ => bumpAuthVersion process second).run.Follows versionStates φ Bumped :=
  Follows.bindExcept (follows_ask hpermits
    (fun _ => ⟨fun _ _ => follows_bumpAuthVersion process second, nofun⟩)
    ⟨nofun, fun _ _ => bumped_error _ _⟩)

/-- A question that leaves a settled request settled, and what follows it. -/
theorem follows_plain_ask {c : VersionCall} {f : VersionReply c → VersionHandler β}
    {post : Except Refusal β → VersionPhase → Prop} (hc : Plain c) (hφ : φ.Settled user)
    (hok : ∀ reply φ', φ'.Settled user → (f reply).run.Follows versionStates φ' post)
    (herror : ∀ φ', post (.error refusal) φ') :
    (ask c refusal >>= f).run.Follows versionStates φ post := by
  refine Follows.bindExcept (follows_ask (permits_plain hc) (fun reply => ⟨fun reply' h => ?_, nofun⟩)
    ⟨nofun, fun e h => ?_⟩)
  · cases h
    exact hok reply _ ((settled_plain hφ hc).2 _)
  · cases h
    exact herror _

theorem follows_setUserDisabled (own disabled : Bool) :
    (setUserDisabled process own disabled).run.Follows versionStates φ Bumped := by
  unfold setUserDisabled
  split
  · exact bumped_error _ _
  · exact follows_write_bump (by trivial) _ _

theorem follows_deleteUser (own : Bool) :
    (deleteUser process own).run.Follows versionStates φ Bumped := by
  unfold deleteUser
  split
  · exact bumped_error _ _
  · exact follows_write_bump (by trivial) _ _

theorem follows_updateUserFields (own : Bool) (disabled : Option Bool) (hφ : φ.Settled user) :
    (updateUserFields process own disabled).run.Follows versionStates φ Bumped := by
  unfold updateUserFields
  split
  · exact bumped_error _ _
  · cases disabled with
    | none => exact fun _ => hφ.progress
    | some disabled => exact follows_write_bump (by trivial) _ _

theorem follows_assignRole (role : String) (hφ : φ.Settled user) :
    (assignRole process role).run.Follows versionStates φ Bumped := by
  refine follows_plain_ask trivial hφ (fun defined φ hφ => ?_) fun _ => bumped_error _ _
  cases defined with
  | false => exact bumped_error _ _
  | true =>
    refine follows_plain_ask trivial hφ (fun holds φ hφ => ?_) fun _ => bumped_error _ _
    cases holds with
    | true => exact bumped_error _ _
    | false =>
      refine Follows.bindExcept (follows_ask trivial (fun created => ⟨fun created' h => ?_, nofun⟩)
        ⟨nofun, fun _ _ => bumped_error _ _⟩)
      cases h
      cases created with
      | true => exact follows_bumpAuthVersion process _
      | false => exact bumped_error _ _

theorem follows_removeRole (own : Bool) (role : String) (hφ : φ.Settled user) :
    (removeRole process own role).run.Follows versionStates φ Bumped := by
  refine follows_plain_ask trivial hφ (fun holds φ hφ => ?_) fun _ => bumped_error _ _
  cases holds with
  | false => exact bumped_error _ _
  | true =>
    simp only [if_true]
    split
    · exact bumped_error _ _
    · refine Follows.bindExcept ((follows_bumpAuthVersion process _).mono fun result φ' _ =>
        ⟨fun _ _ => follows_write_bump (by trivial) _ _, fun _ _ => bumped_error _ _⟩)

theorem follows_cascadeRoleRename (role newRole : String) (hφ : φ.Settled user) :
    (cascadeRoleRename process role newRole).run.Follows versionStates φ Bumped := by
  refine follows_plain_ask trivial hφ (fun holds φ hφ => ?_) fun _ => bumped_error _ _
  cases holds with
  | false => exact fun _ => hφ.progress
  | true =>
    simp only [if_true]
    refine Follows.bindExcept ?_
    refine Follows.bindExcept (follows_ask trivial (fun updated => ⟨fun updated' h => ?_, nofun⟩)
      ⟨nofun, fun _ _ => ⟨nofun, fun _ _ => bumped_error _ _⟩⟩)
    cases h
    cases updated with
    | true => exact ⟨fun _ _ => follows_bumpAuthVersion process _, fun _ _ => bumped_error _ _⟩
    | false =>
      exact follows_ask trivial
        (fun _ => ⟨fun _ _ => follows_bumpAuthVersion process _, fun _ _ => bumped_error _ _⟩)
        ⟨fun _ _ => follows_bumpAuthVersion process _, fun _ _ => bumped_error _ _⟩

theorem follows_revokeEveryGrantOf (role : String) :
    (revokeEveryGrantOf process role).run.Follows versionStates φ fun _ _ => True := by
  have hremove : ∀ φ, (ask (.removeGrant role)
      (Families.internal "Role not deleted: its grants could not be revoked")).run.Follows
        versionStates φ fun _ _ => True :=
    fun φ => follows_ask trivial (fun _ => trivial) trivial
  refine Follows.bindExcept (follows_ask (permits_plain trivial) (fun holder => ⟨fun holder' h => ?_,
    nofun⟩) ⟨nofun, fun _ _ => trivial⟩)
  cases h
  cases holder with
  | false => exact Follows.bindExcept ((hremove _).mono fun _ _ _ =>
      ⟨fun _ _ => trivial, fun _ _ => trivial⟩)
  | true =>
    refine Follows.bindExcept ((follows_bumpAuthVersion process _).mono fun _ φ' _ =>
      ⟨fun _ _ => ?_, fun _ _ => trivial⟩)
    exact Follows.bindExcept ((hremove φ').mono fun _ _ _ =>
      ⟨fun _ _ => (follows_bumpAuthVersion process _).mono fun _ _ _ => trivial, fun _ _ => trivial⟩)

theorem follows_deleteRole (role : String) :
    (deleteRole process role).run.Follows versionStates φ fun _ _ => True :=
  Follows.bindExcept ((follows_revokeEveryGrantOf role).mono fun _ _ _ =>
    ⟨fun _ _ => Follows.bindExcept (follows_attempt ((follows_revokeEveryGrantOf role).mono
      fun _ _ _ => ⟨fun _ _ => trivial, fun _ _ => trivial⟩)), fun _ _ => trivial⟩)

/-! ## A change of the password -/

/-- A statement whose failure is looked at, once something may have been written. -/
theorem follows_tried_statement {c : AuthCall} {P : Prop} {f : Except Refusal (FamilyReply (.statement c)) → VersionHandler β}
    {post : Except Refusal β → VersionPhase → Prop} (hc : Plain (.family (.statement c)))
    (hφ : P → φ.progress ≠ .written)
    (hf : ∀ result φ', (P → φ'.progress ≠ .written) →
      (f result).run.Follows versionStates φ' post) :
    (attempt (embed (Families.ask (.statement c) refusal)) >>= f).run.Follows versionStates φ post :=
  Follows.bindExcept (follows_attempt (follows_statement (permits_plain hc)
    (fun reply => ⟨fun _ h => by
      cases h
      exact hf _ _ fun hP => (after_plain hc _).2 (hφ hP), nofun⟩)
    ⟨fun _ h => by
      cases h
      exact hf _ _ fun hP => (after_plain hc _).2 (hφ hP), nofun⟩))

theorem follows_endCredentials :
    (endCredentialsAfterPasswordChange process refusal).run.Follows versionStates φ Bumped := by
  have hrest : ∀ (devices : Except Refusal Unit) (φ : VersionPhase),
      (do
        let version ← attempt (bumpAuthVersion process refusal)
        let keys ← attempt (embed (Families.ask (.statement .revokeKeys) refusal))
        if devices.isOk && version.isOk && keys.isOk then return () else throw refusal :
        VersionHandler Unit).run.Follows versionStates φ Bumped := by
    intro devices φ
    refine Follows.bindExcept (follows_attempt ((follows_bumpAuthVersion process refusal).mono
      fun version _ hbumped => ⟨fun _ h => ?_, nofun⟩))
    cases h
    refine follows_tried_statement (P := version = .ok ()) trivial hbumped fun keys φ'' hφ'' => ?_
    cases version with
    | error e =>
      simp only [Except.isOk, Except.toBool, Bool.and_false, Bool.false_and]
      exact bumped_error _ _
    | ok u =>
      split
      · exact fun _ => hφ'' rfl
      · exact bumped_error _ _
  refine follows_tried_statement (P := False) trivial False.elim fun devices φ' _ => ?_
  cases devices with
  | ok u => exact follows_tried_statement (P := False) trivial False.elim fun _ φ'' _ => hrest (.ok u) φ''
  | error e => exact hrest (.error e) φ'

/-- Calls that leave a settled request settled. -/
def Settling (c : VersionCall) : Prop := Plain c ∨ c = .family (.statement .findUser)

theorem follows_settling {R : α → Prop} {p : VersionProgram α} (hp : p.Yields Settling R)
    (hφ : φ.Settled user) :
    p.Follows versionStates φ fun a φ' => R a ∧ ∃ user', φ'.Settled user' := by
  refine follows_yields hp (fun φ c hφ hc => ?_) ⟨user, hφ⟩
  obtain ⟨user', hφ⟩ := hφ
  rcases hc with hc | rfl
  · exact ⟨permits_plain hc, fun answer => ⟨user', (settled_plain hφ hc).2 answer⟩⟩
  · refine ⟨trivial, fun answer => ?_⟩
    obtain ⟨user'', hφ', -⟩ := settled_findUser hφ answer
    exact ⟨user'', hφ'⟩

/-- The roles of an account are read after its row. -/
theorem follows_rowThenRoles {f : UserRow → AuthProgram α} (hφ : φ.Settled user)
    (hf : ∀ row (φ' : VersionPhase) version, φ'.Settled (some version) →
      (embed (Families.orRefuse refusal (f row))).run.Follows versionStates φ'
        fun _ φ'' => ∃ user', φ''.Settled user') :
    (embed (Families.orRefuse refusal (findUser >>= f))).run.Follows versionStates φ
      fun _ φ' => ∃ user', φ'.Settled user' := by
  refine ⟨trivial, fun answer => ?_⟩
  obtain ⟨user', hφ', -, hrow⟩ := settled_findUser hφ answer
  cases answer with
  | error e => exact ⟨user', hφ'⟩
  | ok row =>
    rw [hrow row rfl] at hφ'
    exact hf row _ _ hφ'

/-- The roles of a key's account are read after its row. -/
theorem follows_authenticateApiKey (key : ℕ) (hφ : φ.Settled user) :
    (embed (Families.orRefuse credentialCheckFailed (authenticateApiKey key))).run.Follows
      versionStates φ fun _ φ' => ∃ user', φ'.Settled user' := by
  have hplain : ∀ {φ : VersionPhase} {c : VersionCall}, Plain c → φ.Settled user →
      ∀ answer, (φ.after c answer).Settled user := fun hc hφ => (settled_plain hφ hc).2
  refine ⟨trivial, fun answer => ?_⟩
  have hφ₁ := hplain (c := .family (.statement (.present (.apiKey key)))) trivial hφ answer
  rcases answer with e | verified
  · exact ⟨user, hφ₁⟩
  · cases verified with
    | false => exact ⟨user, hφ₁⟩
    | true =>
      refine ⟨trivial, fun answer => ?_⟩
      have hφ₂ := hplain (c := .family (.statement (.findKeyByHash key))) trivial hφ₁ answer
      rcases answer with e | found
      · exact ⟨user, hφ₂⟩
      · cases found with
        | none => exact ⟨user, hφ₂⟩
        | some row =>
          refine ⟨trivial, fun answer => ?_⟩
          have hφ₃ := hplain (c := .family (.statement .utcNow)) trivial hφ₂ answer
          rcases answer with e | now
          · exact ⟨user, hφ₃⟩
          · change (embed (Families.orRefuse credentialCheckFailed
              (if (row.isRevoked || row.isExpired now) = true then pure none
              else findUser >>= fun user => if (!user.isActive) = true then pure none
                else listRoles >>= fun _ =>
                  pure (some (Presented.apiKey row.id))))).run.Follows versionStates _ _
            split
            · exact ⟨user, hφ₃⟩
            · refine follows_rowThenRoles hφ₃ fun user φ' version hφ' => ?_
              split
              · exact ⟨some version, hφ'⟩
              · refine ⟨(settled_listRoles hφ').1, fun answer => ?_⟩
                have hφ₅ := (settled_listRoles hφ').2 answer
                cases answer with
                | error e => exact ⟨some version, hφ₅⟩
                | ok roles => exact ⟨some version, hφ₅⟩

theorem follows_authenticate (credential : Credential) (hφ : φ.Settled user) :
    (authenticate process credential).run.Follows versionStates φ
      fun _ φ' => ∃ user', φ'.Settled user' := by
  cases credential with
  | access token =>
    exact (follows_verifyAccessToken process token hφ).mono fun _ _ h => ⟨user, h.1⟩
  | apiKey key => exact follows_authenticateApiKey key hφ
  | refresh token => exact ⟨user, hφ⟩

theorem yields_refuseChange (services : Services) (settings : Settings) (current new : String)
    (confirm : Option String) :
    (refuseChange services settings current new confirm).Yields
      (fun c => Settling (.family (.statement c))) fun _ => True := by
  unfold refuseChange
  split
  · trivial
  · split
    · trivial
    · refine ⟨.inr rfl, fun _ => ⟨.inl trivial, fun stored => ?_⟩⟩
      cases stored with
      | none => trivial
      | some hash =>
        dsimp only [Program.bind]
        split <;> trivial

/-- The new password is stored, whatever else has been done. -/
theorem follows_updatePassword (hash : String) :
    (embed (Families.orRefuse refusal (updatePassword hash))).run.Follows versionStates φ
      fun _ _ => True := by
  refine ⟨trivial, fun answer => ?_⟩
  rcases answer with e | held
  · trivial
  · cases held with
    | true =>
      refine ⟨trivial, fun answer => ?_⟩
      rcases answer with e | u <;> trivial
    | false =>
      refine ⟨trivial, fun answer => ?_⟩
      rcases answer with e | stored <;> trivial

theorem follows_changePassword (services : Services) (settings : Settings) (credential : Credential)
    (current new : String) (confirm : Option String) (hφ : φ.Settled user) :
    (changePassword services settings process credential current new confirm).run.Follows
      versionStates φ Bumped := by
  refine Follows.bindExcept ((follows_authenticate credential hφ).mono fun result φ' hφ' =>
    ⟨fun presented _ => ?_, fun _ _ => bumped_error _ _⟩)
  obtain ⟨user', hφ'⟩ := hφ'
  cases presented with
  | none => exact bumped_error _ _
  | some presented =>
    refine Follows.bindExcept ((follows_settling (yields_embed (yields_statements _
      (yields_refuseChange services settings current new confirm))) hφ').mono fun result φ'' h =>
        ⟨fun refused _ => ?_, fun _ _ => bumped_error _ _⟩)
    obtain ⟨user'', hφ''⟩ := h.2
    cases refused with
    | some refusal => exact bumped_error _ _
    | none =>
      have hhash : (hashNewPassword services new).Yields
          (fun c => Settling (.family (.statement c))) fun _ => True :=
        ⟨.inl trivial, fun _ => trivial⟩
      refine Follows.bindExcept ((follows_settling (yields_embed (yields_statements _ hhash))
        hφ'').mono fun _ _ _ => ⟨fun hash _ => ?_, fun _ _ => bumped_error _ _⟩)
      refine Follows.bindExcept ((follows_updatePassword hash).mono fun _ _ _ =>
        ⟨fun stored _ => ?_, fun _ _ => bumped_error _ _⟩)
      cases stored with
      | true => exact follows_endCredentials
      | false => exact bumped_error _ _

/-! ## Mints -/

/-- Tokens that have been minted carry the version of the row that was read. -/
def Minted (result : Except Refusal Response) (φ : VersionPhase) : Prop :=
  ∀ access refresh, result = .ok (.tokens access refresh) →
    φ.user = some access.authVersion ∧ φ.user = some refresh.authVersion

theorem minted_error (refusal : Refusal) (φ : VersionPhase) : Minted (.error refusal) φ := nofun

theorem minted_of_tokensAt {version : ℕ} {result : Except Refusal Response}
    (h : TokensAt version result) (hφ : φ.Settled (some version)) : Minted result φ :=
  fun access refresh hresult => by
    rw [hφ.user, (h access refresh hresult).1, (h access refresh hresult).2]
    exact ⟨rfl, rfl⟩

/-- What follows the check of a password. -/
def afterPassword (settings : Settings) (row : UserRow) : Except Refusal Bool → Handler Response
  | .error refusal => throw refusal
  | .ok false => throw (.invalidCredentials, "Invalid email or password")
  | .ok true => signInVerified settings row

theorem follows_login (services : Services) (settings : Settings) (password : String) :
    (embed (login services settings password)).run.Follows versionStates begun Minted := by
  refine ⟨trivial, fun answer => ?_⟩
  obtain ⟨user, hφ, -, hrow⟩ := settled_findUser settled_begun answer
  cases answer with
  | error e => exact minted_error _ _
  | ok row =>
    obtain rfl := hrow row rfl
    rw [Option.getD_none] at hφ
    have hrest : ∀ (stored : Except Refusal (Option String)) (φ : VersionPhase),
        φ.Settled (some row.authVersion) →
        (embed (afterPassword settings row
          (passwordOk services password (stored.toOption.getD none)))).run.Follows
          versionStates φ Minted := by
      intro stored φ hφ
      rcases passwordOk services password (stored.toOption.getD none) with refusal | _ | _
      · exact minted_error _ _
      · exact minted_error _ _
      · exact (follows_plainOrReads (yields_embed (yields_signInVerified settings row)) hφ).mono
          fun _ _ h => minted_of_tokensAt h.1 h.2
    refine ⟨trivial, fun answer => ?_⟩
    have hφ' := (settled_plain hφ (c := .family (.statement .findCredential)) trivial).2 answer
    cases answer with
    | error e => exact hrest (.error (Families.internal "credential lookup")) _ hφ'
    | ok stored => exact hrest (.ok stored) _ hφ'

/-- A refresh whose row is live reads the account. -/
theorem yields_refuseRevokedAtRead (family : ℕ) :
    (Families.refuseRevokedAtRead family).run.Yields PlainFamily fun result => ∀ a, result ≠ .ok a := by
  refine yields_sequence (yields_call trivial _) (fun live _ => ?_) fun _ _ => nofun
  cases live with
  | true => exact yields_sequence (yields_endFamily family) (fun _ _ => nofun) fun _ _ => nofun
  | false => exact nofun

theorem yields_checked (settings : Settings) (user : UserRow) :
    (Families.checkAccount settings user).run.Yields MintingFamily fun result =>
      ∀ grant lifetime, result = .ok (grant, lifetime) → grant.authVersion = user.authVersion := by
  refine yields_sequence (yields_call (.inl trivial) _) (fun _ _ => ?_) fun _ _ => nofun
  split
  · exact nofun
  · refine yields_sequence (yields_statements _ (yields_resolve user)) (fun grant hgrant => ?_)
      fun _ _ => nofun
    refine yields_sequence (yields_call (.inl trivial) _) (fun _ _ => ?_) fun _ _ => nofun
    refine yields_sequence (yields_statements _ (yields_lifetime settings)) (fun lifetime _ => ?_)
      fun _ _ => nofun
    cases lifetime with
    | error refusal => exact nofun
    | ok lifetime =>
      intro grant' lifetime' h
      cases h
      exact hgrant grant rfl

/-- What a refresh has computed when it is over: tokens are minted for a token that is not behind
the account's row. -/
def Refreshed (token : RefreshToken) (result : Except Refusal Response) (φ : VersionPhase) : Prop :=
  Minted result φ ∧ ∀ access refresh, result = .ok (.tokens access refresh) →
    ∃ version, φ.user = some version ∧ version ≤ token.authVersion

theorem refreshed_error (token : RefreshToken) (refusal : Refusal) (φ : VersionPhase) :
    Refreshed token (.error refusal) φ := ⟨nofun, nofun⟩

theorem yields_claimAndIssue (settings : Settings) (token : RefreshToken) (row : TokenRow)
    (grant : TokenGrant) (lifetime : SessionLifetime) :
    (Families.claimAndIssue settings token row grant lifetime).run.Yields MintingFamily
      (TokensAt grant.authVersion) := by
  refine yields_sequence (yields_call (.inl trivial) _) (fun claimed _ => ?_) nofun
  cases claimed with
  | true => exact yields_issueTokensAndCookie settings lifetime grant _ _ _
  | false => exact tokensAt_error _ _

theorem follows_rotate (settings : Settings) (token : RefreshToken) (row : TokenRow)
    (hφ : φ.Settled none) :
    (embed (Families.rotate settings token row)).run.Follows versionStates φ (Refreshed token) := by
  unfold Families.rotate
  split
  · exact (follows_plain (yields_embed (yields_refuseRevokedAtRead row.family)) hφ).mono
      fun result _ h => ⟨fun _ _ hresult => absurd hresult (h.1 _),
        fun _ _ hresult => absurd hresult (h.1 _)⟩
  · refine ⟨trivial, fun answer => ?_⟩
    obtain ⟨user, hφ', -, hrow⟩ := settled_findUser hφ answer
    cases answer with
    | error e => exact refreshed_error _ _ _
    | ok user =>
      obtain rfl := hrow user rfl
      rw [Option.getD_none] at hφ'
      change (embed (if (!user.isActive) = true then throw (.accountDisabled, "Account is disabled")
        else if token.authVersion < user.authVersion then Families.refuseStaleFamily row.family
        else Families.checkAccount settings user >>= fun checked =>
          Families.claimAndIssue settings token row checked.1 checked.2)).run.Follows
            versionStates _ _
      split
      · exact refreshed_error _ _ _
      · split
        · have hyields : (Families.refuseStaleFamily row.family).run.Yields MintingFamily
              fun result => ∀ a, result ≠ .ok a :=
            yields_sequence (yields_tried ((yields_endFamily row.family).weaken fun _ hc => .inl hc))
              (fun _ _ => nofun) fun _ _ => nofun
          exact (follows_plainOrReads (yields_embed hyields) hφ').mono fun result _ h =>
            ⟨fun _ _ hresult => absurd hresult (h.1 _), fun _ _ hresult => absurd hresult (h.1 _)⟩
        · rename_i hcurrent
          have hyields : (Families.checkAccount settings user >>= fun checked =>
              Families.claimAndIssue settings token row checked.1 checked.2).run.Yields
                MintingFamily (TokensAt user.authVersion) :=
            yields_sequence (yields_checked settings user) (fun checked hchecked => by
              rw [← hchecked checked.1 checked.2 rfl]
              exact yields_claimAndIssue settings token row checked.1 checked.2)
              fun _ _ => tokensAt_error _ _
          exact (follows_plainOrReads (yields_embed hyields) hφ').mono fun result _ h =>
            ⟨minted_of_tokensAt h.1 h.2,
              fun _ _ _ => ⟨user.authVersion, h.2.user, Nat.le_of_not_lt hcurrent⟩⟩

theorem follows_refresh (settings : Settings) (token : RefreshToken) :
    (embed (Families.refresh settings token)).run.Follows versionStates begun (Refreshed token) := by
  refine ⟨trivial, fun answer => ?_⟩
  have hφ := (settled_plain settled_begun
    (c := .family (.statement (.present (.refresh token)))) trivial).2 answer
  rcases answer with e | verified
  · exact refreshed_error _ _ _
  · cases verified with
    | false => exact refreshed_error _ _ _
    | true =>
      refine ⟨trivial, fun answer => ?_⟩
      have hφ' := (settled_plain hφ (c := .family (.statement (.findToken token))) trivial).2 answer
      rcases answer with e | row
      · exact refreshed_error _ _ _
      · cases row with
        | none => exact refreshed_error _ _ _
        | some row => exact follows_rotate settings token row hφ'

/-! ## Requests -/

/-- A request that is over without a failure has bumped what it wrote; the deletion of a role need not
have. -/
def Bumping : VersionRequest → Prop
  | .change (.deleteRole _) => False
  | .change _ | .changePassword .. => True
  | _ => False

/-- What a request knows when it is over. -/
structure Justified (request : VersionRequest) (verdict : Verdict) (φ : VersionPhase) : Prop where
  refreshed : ∀ token access refresh, request = .family (.refresh token) →
    verdict = .response (.tokens access refresh) →
      ∃ version, φ.user = some version ∧ version ≤ token.authVersion
  accepted : ∀ token presented, request = .check token → verdict = .presented (some presented) →
    ∃ version, Knows φ version ∧ version ≤ token.authVersion
  served : ∀ version, request = .currentVersion → verdict = .version version → Knows φ version
  bumped : Bumping request → verdict = .done → φ.progress ≠ .written

/-- The answer is handed out, and the phase of the row stays. -/
theorem follows_handOut {result : Except Refusal Response} (h : Minted result φ) :
    (handOut result).Follows versionStates φ fun verdict φ' => φ'.user = φ.user ∧
      ∀ access refresh, verdict = .response (.tokens access refresh) →
        result = .ok (.tokens access refresh) := by
  rcases result with ⟨code, message⟩ | response
  · exact ⟨trivial, fun _ => ⟨rfl, nofun⟩⟩
  · refine ⟨?_, fun _ => ⟨rfl, fun access refresh hverdict => ?_⟩⟩
    · cases response with
      | tokens access refresh => exact h access refresh rfl
      | _ => trivial
    · cases hverdict
      rfl

theorem minted_of_plain {p : Handler Response} (hp : p.run.Yields PlainFamily
    fun result => ∀ access refresh, result ≠ .ok (.tokens access refresh)) :
    (embed p).run.Follows versionStates begun Minted :=
  (follows_plain (yields_embed hp) settled_begun).mono fun _ _ h access refresh hresult =>
    absurd hresult (h.1 access refresh)

/-- A request to the families that is no refresh hands no tokens out. -/
theorem yields_family (settings : Settings) (request : FamilyRequest)
    (hrequest : ∀ token, request ≠ .refresh token) :
    (request.handler settings).run.Yields PlainFamily
      fun result => ∀ access refresh, result ≠ .ok (.tokens access refresh) := by
  cases request with
  | refresh token => exact absurd rfl (hrequest token)
  | endFamily family =>
    exact yields_sequence (yields_endFamily family) (fun _ _ => nofun) fun _ _ => nofun
  | endAllFamilies =>
    refine yields_sequence (yields_sequence (yields_call trivial _) (fun _ _ => yields_call trivial _)
      fun _ _ => trivial) (fun _ _ => nofun) fun _ _ => nofun
  | revokeDevice family =>
    refine yields_sequence (yields_call trivial _) (fun found _ => ?_) fun _ _ => nofun
    cases found with
    | true => exact yields_sequence (yields_endFamily family) (fun _ _ => nofun) fun _ _ => nofun
    | false => exact nofun
  | sweep =>
    refine yields_sequence (yields_call trivial _) (fun cutoff _ => ?_) fun _ _ => nofun
    refine yields_sequence (yields_tried (yields_call trivial _)) (fun _ _ => ?_) fun _ _ => nofun
    exact yields_sequence (yields_tried (yields_call trivial _)) (fun _ _ => nofun) fun _ _ => nofun

/-- Every change but the deletion of a role bumps after its last write. -/
theorem follows_change (change : AccountChange) (hchange : Bumping (.change change))
    (hφ : φ.Settled user) : (change.handler process).run.Follows versionStates φ Bumped := by
  cases change with
  | setUserDisabled own disabled => exact follows_setUserDisabled own disabled
  | deleteUser own => exact follows_deleteUser own
  | updateUserFields own disabled => exact follows_updateUserFields own disabled hφ
  | assignRole role => exact follows_assignRole role hφ
  | removeRole own role => exact follows_removeRole own role hφ
  | renameRole role newRole => exact follows_cascadeRoleRename role newRole hφ
  | deleteRole role => exact hchange.elim

theorem follows_verdict {α : Type} {p : VersionHandler α} {f : α → Verdict}
    {post : Except Refusal α → VersionPhase → Prop} {post' : Verdict → VersionPhase → Prop}
    (h : p.run.Follows versionStates φ post)
    (hpost : ∀ result φ', post result φ' → post' (verdictOf f result) φ') :
    (verdictOf f <$> p.run).Follows versionStates φ post' := by
  rw [map_eq_pure_bind]
  exact Follows.bind (h.mono hpost)

/-- Every request follows the typestate. -/
theorem follows_request (services : Services) (settings : Settings) (process : ℕ)
    (request : VersionRequest) :
    (request.program services settings process).Follows versionStates begun (Justified request) := by
  cases request with
  | login password =>
    exact Follows.bind ((follows_login services settings password).mono fun _ _ h =>
      (follows_handOut h).mono fun _ _ _ => ⟨nofun, nofun, nofun, False.elim⟩)
  | family request =>
    by_cases hrefresh : ∃ token, request = .refresh token
    · obtain ⟨token, rfl⟩ := hrefresh
      refine Follows.bind ((follows_refresh settings token).mono fun result φ h =>
        (follows_handOut h.1).mono fun verdict φ' hout => ⟨?_, nofun, nofun, False.elim⟩)
      rintro token' access refresh h' hverdict
      cases h'
      obtain ⟨version, huser, hversion⟩ := h.2 access refresh (hout.2 access refresh hverdict)
      exact ⟨version, hout.1.trans huser, hversion⟩
    · refine Follows.bind ((minted_of_plain (yields_family settings request
        fun token h => hrefresh ⟨token, h⟩)).mono fun _ _ h => (follows_handOut h).mono
          fun _ _ _ => ⟨fun token _ _ h => ?_, nofun, nofun, False.elim⟩)
      cases h
      exact absurd ⟨token, rfl⟩ hrefresh
  | check token =>
    refine follows_verdict (follows_verifyAccessToken process token settled_begun)
      fun result φ h => ⟨nofun, fun token' presented h' hverdict => ?_, nofun, False.elim⟩
    cases h'
    rcases result with e | presented'
    · cases hverdict
    · cases hverdict
      exact h.2 presented rfl
  | currentVersion =>
    refine follows_verdict (follows_currentAuthVersion process settled_begun)
      fun result φ h => ⟨nofun, nofun, fun version _ hverdict => ?_, False.elim⟩
    rcases result with e | version'
    · cases hverdict
    · cases hverdict
      exact h.2 version rfl
  | change what =>
    by_cases hwhat : Bumping (.change what)
    · refine follows_verdict (follows_change what hwhat settled_begun)
        fun result φ h => ⟨nofun, nofun, nofun, fun _ hverdict => ?_⟩
      rcases result with e | u
      · cases hverdict
      · exact h rfl
    · cases what with
      | deleteRole role =>
        exact follows_verdict (follows_deleteRole role) fun _ _ _ => ⟨nofun, nofun, nofun, False.elim⟩
      | _ => exact absurd trivial hwhat
  | changePassword credential current new confirm =>
    refine follows_verdict (follows_changePassword services settings credential current new confirm
      settled_begun) fun result φ h => ⟨nofun, nofun, nofun, fun _ hverdict => ?_⟩
    rcases result with e | u
    · cases hverdict
    · exact h rfl
  | overflow => exact ⟨trivial, fun _ => ⟨nofun, nofun, nofun, False.elim⟩⟩

end Versions

end Auth
