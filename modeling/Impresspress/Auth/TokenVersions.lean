import Impresspress.Auth.VersionCache

/-!
# What a request knows of the account's version

A mint takes the version of the first account row that its request read, and reads the roles after
it. A fill is dated by the clock as it was before the read. A change bumps after it has written.
Each of these is a typestate that the requests follow.

## Main definitions

* `Auth.VersionPhase`: what a request has been answered.
* `Auth.versionStates`: the typestate.
* `Auth.Verdict.Justified`: what a request knows when it is over.

## Main results

* `Auth.VersionRequest.follows`: every request follows the typestate.
-/

namespace Auth

open Concurrent Program

variable {α β : Type}

/-! ## The typestate -/

/-- The call changed what a token asserts, or how the account signs in. -/
def writesFacts : (c : VersionCall) → Outcome Unit VersionReply c → Bool
  | .setDisabled _, .ok _ | .softDelete, .ok _ | .removeGrant _, .ok _ => true
  | .createGrant _, .ok written | .updateGrant .., .ok written => written
  | .family (.statement (.updateCredential _)), .ok _ => true
  | .family (.statement (.insertCredential _)), .ok written => written
  | _, _ => false

/-- The call bumped the version. -/
def bumpsVersion : (c : VersionCall) → Outcome Unit VersionReply c → Bool
  | .family (.statement .bumpAuthVersion), .ok _ => true
  | _, _ => false

/-- The call read the account row or the roles. -/
def readsFacts : (c : VersionCall) → Outcome Unit VersionReply c → Bool
  | .family (.statement .findUser), .ok _ | .family (.statement .listRoles), .ok _ => true
  | _, _ => false

/-- A version that a request has come by: out of the cache, or out of the row. -/
inductive KnownVersion where
  | nothing
  | cached (version : ℕ)
  | stored (version : ℕ)
  deriving DecidableEq, Repr

/-- The version that is known. -/
def KnownVersion.version? : KnownVersion → Option ℕ
  | nothing => none
  | cached version | stored version => some version

/-- How far a change has come. -/
inductive ChangeProgress where
  | untouched
  | written
  | bumped
  deriving DecidableEq, Repr

/-- A bump concludes what has been written. -/
def ChangeProgress.bump : ChangeProgress → ChangeProgress
  | written => bumped
  | progress => progress

theorem ChangeProgress.bump_ne_written (progress : ChangeProgress) : progress.bump ≠ written := by
  cases progress <;> nofun

/-- What a request has been answered: the clock and the version that it learned after it, the version
of the first account row that it read, and how far its change has come. -/
structure VersionPhase where
  now : Option ℕ
  known : KnownVersion
  user : Option ℕ
  progress : ChangeProgress
  deriving DecidableEq, Repr

namespace VersionPhase

/-- A request that has made no call. -/
def begun : VersionPhase := ⟨none, .nothing, none, .untouched⟩

/-- The progress after a call. -/
def progressAfter (φ : VersionPhase) (c : VersionCall) (answer : Outcome Unit VersionReply c) :
    ChangeProgress :=
  if writesFacts c answer then .written
  else if bumpsVersion c answer then φ.progress.bump
  else φ.progress

def after (φ : VersionPhase) :
    (c : VersionCall) → Outcome Unit VersionReply c → VersionPhase
  | .nowMillis, .ok now => { φ with now := some now, known := .nothing }
  | .lookup .., .ok (some version) => { φ with known := .cached version }
  | .family (.statement .authVersion), .ok version => { φ with known := .stored version }
  | .family (.statement .findUser), .ok user =>
    { φ with user := some (φ.user.getD user.authVersion) }
  | c, answer => { φ with progress := φ.progressAfter c answer }

/-- A look at the cache and a fill are dated by the clock that was read, and a fill stores what was
read after that. Roles are read once the account row is, and tokens carry the version of that row. -/
def permits (φ : VersionPhase) : VersionCall → Prop
  | .lookup _ now => φ.now = some now
  | .fill _ version now => φ.now = some now ∧ φ.known = .stored version
  | .family (.statement .listRoles) => φ.user ≠ none
  | .family (.statement (.respond (.tokens access refresh))) =>
    φ.user = some access.authVersion ∧ φ.user = some refresh.authVersion
  | _ => True

/-- Nothing has been written that is not bumped, and the row that was read is known. -/
structure Settled (user : Option ℕ) (φ : VersionPhase) : Prop where
  user : φ.user = user
  progress : φ.progress ≠ .written

theorem settled_begun : begun.Settled none := ⟨rfl, nofun⟩

end VersionPhase

/-- What the requests follow. -/
def versionStates : Typestate (Outcome Unit VersionReply) VersionPhase where
  after := VersionPhase.after
  permits := VersionPhase.permits

namespace Versions

open VersionPhase

/-! ## Kinds of calls -/

/-- Calls that read no facts, write none, hand nothing out and leave the cache alone. -/
def Plain : VersionCall → Prop
  | .lookup .. | .fill .. | .setDisabled _ | .softDelete => False
  | .createGrant _ | .updateGrant .. | .removeGrant _ => False
  | .family (.statement .findUser) | .family (.statement .listRoles) => False
  | .family (.statement (.updateCredential _)) => False
  | .family (.statement (.insertCredential _)) | .family (.statement (.respond _)) => False
  | _ => True

/-- Plain calls, and those that read the facts. -/
def PlainOrReads (c : VersionCall) : Prop :=
  Plain c ∨ c = .family (.statement .findUser) ∨ c = .family (.statement .listRoles)

variable {φ : VersionPhase} {user : Option ℕ} {version : ℕ} {c : VersionCall}

theorem writesFacts_of_plain (hc : Plain c) (answer : Outcome Unit VersionReply c) :
    writesFacts c answer = false := by
  cases c with
  | family c =>
    cases c with
    | statement c => cases c <;> first | exact hc.elim | (cases answer <;> rfl)
    | _ => cases answer <;> rfl
  | _ => first | exact hc.elim | (cases answer <;> rfl)

theorem progressAfter_ne_written (φ : VersionPhase) {c : VersionCall}
    (answer : Outcome Unit VersionReply c) (hwrites : writesFacts c answer = false) (hφ : φ.progress ≠ .written) :
    φ.progressAfter c answer ≠ .written := by
  unfold VersionPhase.progressAfter
  rw [hwrites]
  split
  · contradiction
  · split
    · exact φ.progress.bump_ne_written
    · exact hφ

theorem permits_plain (hc : Plain c) : φ.permits c := by
  cases c with
  | family c =>
    cases c with
    | statement c => cases c <;> first | exact hc.elim | trivial
    | _ => trivial
  | _ => first | exact hc.elim | trivial

theorem after_plain (hc : Plain c) (answer : Outcome Unit VersionReply c) :
    (φ.after c answer).user = φ.user ∧
      (φ.progress ≠ .written → (φ.after c answer).progress ≠ .written) := by
  have hprogress : φ.progress ≠ .written → φ.progressAfter c answer ≠ .written :=
    progressAfter_ne_written φ answer (writesFacts_of_plain hc answer)
  cases c with
  | family c =>
    cases c with
    | statement c =>
      cases c with
      | findUser | listRoles | updateCredential | insertCredential | respond => exact hc.elim
      | authVersion =>
        cases answer with
        | ok version => exact ⟨rfl, id⟩
        | error e => exact ⟨rfl, hprogress⟩
      | _ => exact ⟨rfl, hprogress⟩
    | _ => exact ⟨rfl, hprogress⟩
  | nowMillis =>
    cases answer with
    | ok now => exact ⟨rfl, id⟩
    | error e => exact ⟨rfl, hprogress⟩
  | invalidate | evict | roleDefined | holdsRole => exact ⟨rfl, hprogress⟩
  | _ => exact hc.elim

theorem settled_plain (hφ : φ.Settled user) (hc : Plain c) :
    φ.permits c ∧ ∀ answer, (φ.after c answer).Settled user :=
  ⟨permits_plain hc, fun answer => ⟨(after_plain hc answer).1.trans hφ.user,
    (after_plain hc answer).2 hφ.progress⟩⟩

theorem settled_findUser (hφ : φ.Settled user)
    (answer : Outcome Unit VersionReply (.family (.statement .findUser))) :
    ∃ user', (φ.after (.family (.statement .findUser)) answer).Settled user' ∧
      (∀ version, user = some version → user' = some version) ∧
      ∀ row, answer = .ok row → user' = some (user.getD row.authVersion) := by
  cases answer with
  | ok row =>
    refine ⟨some (user.getD row.authVersion), ⟨?_, hφ.progress⟩, fun version h => ?_, fun row' h => ?_⟩
    · simp only [VersionPhase.after, hφ.user]
    · rw [h, Option.getD_some]
    · cases h
      rfl
  | error e =>
    exact ⟨user, ⟨hφ.user, progressAfter_ne_written φ
      (.error e : Outcome Unit VersionReply (.family (.statement .findUser))) rfl hφ.progress⟩, fun _ h => h, nofun⟩

theorem settled_listRoles (hφ : φ.Settled (some version)) :
    φ.permits (.family (.statement .listRoles)) ∧ ∀ answer,
      (φ.after (.family (.statement .listRoles)) answer).Settled (some version) := by
  refine ⟨?_, fun answer => ⟨hφ.user, progressAfter_ne_written φ answer
    (by cases answer <;> rfl) hφ.progress⟩⟩
  simp only [VersionPhase.permits, hφ.user]
  exact Option.some_ne_none version

theorem settled_plainOrReads (hφ : φ.Settled (some version)) (hc : PlainOrReads c) :
    φ.permits c ∧ ∀ answer, (φ.after c answer).Settled (some version) := by
  rcases hc with hc | rfl | rfl
  · exact settled_plain hφ hc
  · refine ⟨trivial, fun answer => ?_⟩
    obtain ⟨user', hφ', huser, -⟩ := settled_findUser hφ answer
    rwa [huser version rfl] at hφ'
  · exact settled_listRoles hφ

/-! ## Rules -/

section Rules

variable {R : α → Prop} {refusal : Refusal}

theorem follows_plain {p : VersionProgram α} (hp : p.Yields Plain R) (hφ : φ.Settled user) :
    p.Follows versionStates φ fun a φ' => R a ∧ φ'.Settled user :=
  follows_yields hp (fun _ _ hφ hc => settled_plain hφ hc) hφ

theorem follows_plainOrReads {p : VersionProgram α} (hp : p.Yields PlainOrReads R)
    (hφ : φ.Settled (some version)) :
    p.Follows versionStates φ fun a φ' => R a ∧ φ'.Settled (some version) :=
  follows_yields hp (fun _ _ hφ hc => settled_plainOrReads hφ hc) hφ

/-- One call, and the refusal when it fails. -/
theorem follows_ask {post : Except Refusal (VersionReply c) → VersionPhase → Prop}
    (hpermits : φ.permits c) (hok : ∀ reply, post (.ok reply) (φ.after c (.ok reply)))
    (herror : post (.error refusal) (φ.after c (.error ()))) :
    (ask c refusal).run.Follows versionStates φ post := by
  refine ⟨hpermits, fun answer => ?_⟩
  cases answer with
  | ok reply => exact hok reply
  | error _ => exact herror

theorem follows_attempt {p : VersionHandler α}
    {post : Except Refusal (Except Refusal α) → VersionPhase → Prop}
    (h : p.run.Follows versionStates φ fun result φ' => post (.ok result) φ') :
    (attempt p).run.Follows versionStates φ post :=
  Follows.bind h

/-- One statement, and the refusal when it fails. -/
theorem follows_statement {c : AuthCall}
    {post : Except Refusal (FamilyReply (.statement c)) → VersionPhase → Prop}
    (hpermits : φ.permits (.family (.statement c)))
    (hok : ∀ reply, post (.ok reply) (φ.after (.family (.statement c)) (.ok reply)))
    (herror : post (.error refusal) (φ.after (.family (.statement c)) (.error ()))) :
    (embed (Families.ask (.statement c) refusal)).run.Follows versionStates φ post := by
  refine ⟨hpermits, fun answer => ?_⟩
  cases answer with
  | ok reply => exact hok reply
  | error _ => exact herror

theorem yields_embed {K : VersionCall → Prop} {R : Except Refusal α → Prop} {p : Handler α}
    (hp : p.run.Yields (fun c => K (.family c)) R) : (embed p).run.Yields K R := by
  have h : ∀ q : FamilyProgram (Except Refusal α), q.Yields (fun c => K (.family c)) R →
      (Program.embed (Outcome Unit VersionReply) VersionCall.family q).Yields K R := by
    intro q hq
    induction q with
    | done a => exact hq
    | call c next ih => exact ⟨hq.1, fun answer => ih answer (hq.2 answer)⟩
  exact h p.run hp

end Rules

/-! ## The programs of the families -/

section Families

variable {K : FamilyCall → Prop} {R : Except Refusal α → Prop} {R' : Except Refusal β → Prop}

/-- Handlers that make calls of one kind, one after the other. -/
theorem yields_sequence {p : Handler α} {f : α → Handler β} (hp : p.run.Yields K R)
    (hok : ∀ a, R (.ok a) → (f a).run.Yields K R') (herror : ∀ e, R (.error e) → R' (.error e)) :
    (p >>= f).run.Yields K R' := by
  refine Yields.bind hp fun result hresult => ?_
  cases result with
  | ok a => exact hok a hresult
  | error e => exact herror e hresult

theorem yields_call {c : FamilyCall} (hc : K c) (refusal : Refusal) :
    (Families.ask c refusal).run.Yields K fun _ => True := by
  refine ⟨hc, fun answer => ?_⟩
  cases answer <;> trivial

theorem yields_tried {p : Handler α} (hp : p.run.Yields K fun _ => True) :
    (Families.attempt p).run.Yields K fun _ => True :=
  Yields.bind hp fun _ _ => trivial

theorem yields_statements {R : α → Prop} (refusal : Refusal) {p : AuthProgram α}
    (hp : p.Yields (fun c => K (.statement c)) R) :
    (Families.orRefuse refusal p).run.Yields K fun result => ∀ a, result = .ok a → R a := by
  induction p with
  | done a =>
    intro a' h
    cases h
    exact hp
  | call c next ih =>
    exact yields_sequence (yields_call hp.1 refusal) (fun reply _ => ih reply (hp.2 reply)) nofun

end Families

/-- The answer of a handler, if it is tokens, carries the version twice. -/
def TokensAt (version : ℕ) (result : Except Refusal Response) : Prop :=
  ∀ access refresh, result = .ok (.tokens access refresh) →
    access.authVersion = version ∧ refresh.authVersion = version

/-- Statements of the families that are plain. -/
abbrev PlainFamily (c : FamilyCall) : Prop := Plain (.family c)

/-- Statements of the families that are plain, and those that read the facts. -/
abbrev MintingFamily (c : FamilyCall) : Prop := PlainOrReads (.family c)

theorem tokensAt_error (version : ℕ) (refusal : Refusal) : TokensAt version (.error refusal) := nofun

theorem yields_generateTokens (settings : Settings) (lifetime : SessionLifetime) (grant : TokenGrant)
    (authMethod : String) (family : ℕ) :
    (Families.generateTokens settings lifetime grant authMethod family).run.Yields MintingFamily
      fun result => ∀ tokens, result = .ok tokens →
        tokens.1.authVersion = grant.authVersion ∧ tokens.2.authVersion = grant.authVersion := by
  refine yields_sequence (yields_call (.inl trivial) _) (fun jti _ => ?_) nofun
  refine yields_sequence (yields_call (.inl trivial) _) (fun _ _ => ?_) nofun
  refine yields_sequence (yields_call (.inl trivial) _) (fun now _ => ?_) nofun
  intro tokens h
  cases h
  exact ⟨rfl, rfl⟩

theorem yields_issueNewFamily (settings : Settings) (lifetime : SessionLifetime) (grant : TokenGrant)
    (authMethod : String) :
    (issueNewFamily settings lifetime grant authMethod).run.Yields MintingFamily
      (TokensAt grant.authVersion) := by
  refine yields_sequence (yields_call (.inl trivial) _) (fun family _ => ?_) nofun
  refine yields_sequence (yields_generateTokens settings lifetime grant authMethod family)
    (fun tokens htokens => ?_) nofun
  refine yields_sequence (yields_call (.inl trivial) _) (fun _ _ => ?_) nofun
  refine yields_sequence (yields_call (.inl trivial) _) (fun _ _ => ?_) nofun
  intro access refresh h
  cases h
  exact htokens tokens rfl

theorem yields_endFamily (family : ℕ) :
    (Families.endFamily family).run.Yields PlainFamily fun _ => True :=
  yields_sequence (yields_call trivial _) (fun _ _ => yields_call trivial _) fun _ _ => trivial

theorem yields_establishFamily (token : RefreshToken) (family generation expiresAt : ℕ) :
    (Families.establishFamily token family generation expiresAt).run.Yields PlainFamily
      fun _ => True := by
  refine yields_sequence (yields_call trivial _) (fun _ _ => ?_) fun _ _ => trivial
  refine yields_sequence (yields_tried (yields_call trivial _)) (fun touched _ => ?_)
    fun _ _ => trivial
  cases touched with
  | ok touched =>
    dsimp only
    split
    · exact yields_sequence (yields_call trivial _) (fun _ _ => trivial) fun _ _ => trivial
    · trivial
  | error refusal =>
    exact yields_sequence (yields_tried (yields_endFamily _)) (fun _ _ => trivial)
      fun _ _ => trivial

theorem yields_issueTokensAndCookie (settings : Settings) (lifetime : SessionLifetime)
    (grant : TokenGrant) (authMethod : String) (family generation : ℕ) :
    (Families.issueTokensAndCookie settings lifetime grant authMethod family generation).run.Yields
      MintingFamily (TokensAt grant.authVersion) := by
  refine yields_sequence (yields_generateTokens settings lifetime grant authMethod family)
    (fun tokens htokens => ?_) nofun
  refine yields_sequence ((yields_establishFamily tokens.2 family generation
    lifetime.expiresAt).weaken fun _ hc => .inl hc) (fun _ _ => ?_) nofun
  refine yields_sequence (yields_call (.inl trivial) _) (fun _ _ => ?_) nofun
  intro access refresh h
  cases h
  exact htokens tokens rfl

theorem yields_resolve (user : UserRow) :
    (TokenGrant.resolve user).Yields (fun c => MintingFamily (.statement c))
      fun grant => grant.authVersion = user.authVersion :=
  ⟨.inr (.inr rfl), fun _ => rfl⟩

theorem yields_lifetime (settings : Settings) :
    (SessionLifetime.resolve settings).Yields (fun c => MintingFamily (.statement c))
      fun _ => True := by
  unfold SessionLifetime.resolve
  split
  · trivial
  · exact ⟨.inl trivial, fun _ => trivial⟩

theorem yields_signInVerified (settings : Settings) (user : UserRow) :
    (signInVerified settings user).run.Yields MintingFamily (TokensAt user.authVersion) := by
  unfold signInVerified
  split
  · exact tokensAt_error _ _
  · refine yields_sequence (yields_call (.inl trivial) _) (fun _ _ => ?_) nofun
    split
    · exact tokensAt_error _ _
    · refine yields_sequence (yields_statements _ (yields_resolve user)) (fun grant hgrant => ?_) nofun
      rw [← hgrant grant rfl]
      refine yields_sequence (yields_call (.inl trivial) _) (fun _ _ => ?_) nofun
      refine yields_sequence (yields_statements _ (yields_lifetime settings))
        (fun lifetime _ => ?_) nofun
      cases lifetime with
      | error refusal => exact tokensAt_error _ refusal
      | ok lifetime => exact yields_issueNewFamily settings lifetime grant "password"

/-! ## The cache and the check of a token -/

/-- A version has come by, and the clock was read before. -/
def Knows (φ : VersionPhase) (version : ℕ) : Prop :=
  φ.now ≠ none ∧ φ.known.version? = some version

theorem follows_currentAuthVersion (process : ℕ) (hφ : φ.Settled user) :
    (currentAuthVersion process).run.Follows versionStates φ fun result φ' =>
      φ'.Settled user ∧ ∀ version, result = .ok version → Knows φ' version := by
  have hclock := (settled_plain hφ (c := .nowMillis) trivial).2
  refine Follows.bindExcept (follows_ask trivial (fun now => ⟨fun _ h => ?_, nofun⟩)
    ⟨nofun, fun _ _ => ⟨hclock (.error ()), nofun⟩⟩)
  cases h
  refine Follows.bindExcept (follows_ask (show some now = some now from rfl)
    (fun found => ⟨fun _ h => ?_, nofun⟩) ⟨nofun, fun _ _ => ⟨⟨hφ.user, hφ.progress⟩, nofun⟩⟩)
  cases h
  cases found with
  | some version =>
    refine ⟨⟨hφ.user, hφ.progress⟩, fun version' h => ?_⟩
    cases h
    exact ⟨nofun, rfl⟩
  | none =>
    refine Follows.bindExcept (follows_statement trivial (fun version => ⟨fun _ h => ?_, nofun⟩)
      ⟨nofun, fun _ _ => ⟨⟨hφ.user, hφ.progress⟩, nofun⟩⟩)
    cases h
    refine Follows.bindExcept (follows_ask (show some now = some now ∧ _ = _ from ⟨rfl, rfl⟩)
      (fun _ => ⟨fun _ _ => ⟨⟨hφ.user, hφ.progress⟩, fun version' h => ?_⟩, nofun⟩)
      ⟨nofun, fun _ _ => ⟨⟨hφ.user, hφ.progress⟩, nofun⟩⟩)
    cases h
    exact ⟨nofun, rfl⟩

/-- A token that is accepted is not behind the version that has come by. -/
theorem follows_verifyAccessToken (process : ℕ) (token : AccessToken) (hφ : φ.Settled user) :
    (verifyAccessToken process token).run.Follows versionStates φ fun result φ' =>
      φ'.Settled user ∧ ∀ presented, result = .ok (some presented) →
        ∃ version, Knows φ' version ∧ version ≤ token.authVersion := by
  have hplain : ∀ c, Plain (.family (.statement c)) →
      ∀ answer, (φ.after (.family (.statement c)) answer).Settled user :=
    fun c hc => (settled_plain hφ hc).2
  refine Follows.bindExcept (follows_attempt (follows_statement trivial
    (fun verified => ⟨fun _ h => ?_, nofun⟩) ⟨fun _ h => ?_, nofun⟩))
  · cases h
    cases verified with
    | false => exact ⟨hplain (.present (.access token)) trivial (.ok false), nofun⟩
    | true =>
      have hφ₁ := hplain (.present (.access token)) trivial (.ok true)
      have hlive := (settled_plain hφ₁ (c := .family (.statement (.isLive token.family))) trivial).2
      refine Follows.bindExcept (follows_attempt (follows_statement trivial
        (fun live => ⟨fun _ h => ?_, nofun⟩) ⟨fun _ h => ?_, nofun⟩))
      · cases h
        refine Follows.bindExcept (follows_attempt ((follows_currentAuthVersion process
          (hlive (.ok live))).mono fun result φ' hresult => ⟨fun _ h => ?_, nofun⟩))
        cases h
        cases live with
        | false => exact ⟨hresult.1, nofun⟩
        | true =>
          cases result with
          | error refusal => exact ⟨hresult.1, nofun⟩
          | ok current =>
            dsimp only
            split
            · exact ⟨hresult.1, nofun⟩
            · rename_i hcurrent
              exact ⟨hresult.1, fun _ _ => ⟨current, hresult.2 current rfl, Nat.le_of_not_lt hcurrent⟩⟩
      · cases h
        refine Follows.bindExcept (follows_attempt ((follows_currentAuthVersion process
          (hlive (.error ()))).mono fun result φ' hresult => ⟨fun _ h => ?_, nofun⟩))
        cases h
        exact ⟨hresult.1, nofun⟩
  · cases h
    exact ⟨hplain (.present (.access token)) trivial (.error ()), nofun⟩

end Versions

end Auth
