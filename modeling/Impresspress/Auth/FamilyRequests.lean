import Impresspress.Auth.FamilyMoves

/-!
# The requests to the families keep the invariant

Every handler is a sequence of the calls whose moves are known. It refuses with a failure that is
not the answer that a token is revoked as long as it owes a successor or deals with a replay.

## Main definitions

* `Auth.Refusable`: what may be refused in a phase.
* `Auth.Concludes`: what a handler has computed when it is over.
* `Auth.FamilyRequest.Concluded`: what a request has answered when it is over.

## Main results

* `Auth.FamilyRequest.keeps`: every request keeps to the protocol.
-/

namespace Auth

open Concurrent Protocol RotationPhase Families

variable {ι : Type} [DecidableEq ι] {start : AuthStore} {i : ι} {φ : RotationPhase} {α β : Type}

/-- A refusal that may be answered in a phase. -/
structure Refusable (refusal : Refusal) (φ : RotationPhase) : Prop where
  revoked : refusal = refreshTokenRevoked → φ.owes = none ∧ ∀ family, ¬ φ.Replays family
  owes : ∀ token, φ.owes = some token → φ = lost token

/-- A phase that owes no successor and deals with no replay. -/
def RotationPhase.Quits : RotationPhase → Prop
  | replaying _ | burning true (some _) | written _ | stray _ | lost _ => False
  | _ => True

theorem RotationPhase.Quits.nothing (h : φ.Quits) :
    φ.owes = none ∧ ∀ family, ¬ φ.Replays family := by
  refine ⟨?_, fun family hreplays => ?_⟩
  · cases φ <;> first | rfl | exact h.elim
  · rcases hreplays with rfl | rfl <;> exact h

theorem RotationPhase.Quits.refusable (h : φ.Quits) (refusal : Refusal) : Refusable refusal φ where
  revoked _ := h.nothing
  owes token howes := by
    rw [h.nothing.1] at howes
    cases howes

theorem refusable_of_ne {refusal : Refusal} (h : refusal ≠ refreshTokenRevoked)
    (howes : ∀ token, φ.owes = some token → φ = lost token) : Refusable refusal φ where
  revoked h' := absurd h' h
  owes := howes

section Rules

variable {c : FamilyCall} {refusal : Refusal} {next : Outcome Unit FamilyReply c → RotationPhase → Prop}

/-- One call, and the refusal when it fails. -/
theorem keeps_ask {post : Except Refusal (FamilyReply c) → RotationPhase → Prop}
    (h : (rotations start).Moves performFamily start i φ c next)
    (hok : ∀ reply φ', next (.ok reply) φ' → post (.ok reply) φ')
    (herror : ∀ φ', next (.error ()) φ' → post (.error refusal) φ') :
    (rotations start).Keeps performFamily start i (ask c refusal).run φ post := by
  refine Moves.mono h fun answer φ' hnext => ?_
  cases answer with
  | ok reply => exact hok reply φ' hnext
  | error _ => exact herror φ' hnext

theorem keeps_attempt {p : Handler α} {post : Except Refusal (Except Refusal α) → RotationPhase → Prop}
    (h : (rotations start).Keeps performFamily start i p.run φ fun result φ' => post (.ok result) φ') :
    (rotations start).Keeps performFamily start i (attempt p).run φ post :=
  Keeps.bind h

theorem yields_ask {K : FamilyCall → Prop} (hc : K c) (refusal : Refusal) :
    (ask c refusal).run.Yields K fun _ => True := by
  refine ⟨hc, fun answer => ?_⟩
  cases answer <;> trivial

theorem yields_bindExcept {K : FamilyCall → Prop} {p : Handler α} {f : α → Handler β}
    (hp : p.run.Yields K fun _ => True) (hf : ∀ a, (f a).run.Yields K fun _ => True) :
    (p >>= f).run.Yields K fun _ => True := by
  refine Program.Yields.bind hp fun result _ => ?_
  cases result with
  | ok a => exact hf a
  | error _ => trivial

theorem yields_attempt {K : FamilyCall → Prop} {p : Handler α}
    (hp : p.run.Yields K fun _ => True) : (attempt p).run.Yields K fun _ => True :=
  Program.Yields.bind hp fun _ _ => trivial

theorem yields_orRefuse {K : FamilyCall → Prop} (refusal : Refusal) {p : AuthProgram α}
    (hp : p.Yields (fun c => K (.statement c)) fun _ => True) :
    (orRefuse refusal p).run.Yields K fun _ => True := by
  induction p with
  | done a => trivial
  | call c next ih => exact yields_bindExcept (yields_ask hp.1 refusal) fun reply => ih reply (hp.2 reply)

/-- A handler of still calls leaves the phase as it is. -/
theorem keeps_still {p : Handler α} (hp : p.run.Yields Still fun _ => True) (hover : φ ≠ finished) :
    (rotations start).Keeps performFamily start i p.run φ fun _ φ' => φ' = φ :=
  (keeps_yields hp fun _ hc => moves_same hc hover).mono fun _ _ h => h.2

/-- A call that leaves the phase as it is, and what follows it. -/
theorem keeps_calm {f : FamilyReply c → Handler β} {post : Except Refusal β → RotationPhase → Prop}
    (hc : Calm c) (hover : φ ≠ finished)
    (hok : ∀ reply, (rotations start).Keeps performFamily start i (f reply).run φ post)
    (herror : post (.error refusal) φ) :
    (rotations start).Keeps performFamily start i (ask c refusal >>= f).run φ post := by
  refine Keeps.bindExcept (keeps_ask (moves_same hc.still hover) (fun reply φ' hsame => ⟨?_, nofun⟩)
    fun φ' hsame => ⟨nofun, fun refusal' h => ?_⟩) <;> obtain rfl : φ' = φ := hsame
  · intro reply' h
    cases h
    exact hok reply
  · cases h
    exact herror

end Rules

/-! ## Revocations -/

/-- The two steps of a revocation, from a phase that has drawn nothing. -/
theorem keeps_endScope (replay : Bool) (scope : Option ℕ) (hdrew : φ.drew = none)
    (hminted : ¬ φ.Minted)
    (hreplays : ∀ family, φ.Replays family → replay = true ∧ scope = some family)
    (first second : Refusal) :
    (rotations start).Keeps performFamily start i
      (ask (endSessions scope) first >>= fun _ => ask (revokeRows scope) second).run φ
      fun result φ' => (∀ reply, result = .ok reply → φ' = closed scope) ∧
        ∀ refusal, result = .error refusal →
          (refusal = first ∨ refusal = second) ∧ (φ' = φ ∨ φ' = burning replay scope) := by
  refine Keeps.bindExcept (keeps_ask (moves_endSessions hdrew hminted hreplays)
    (fun reply φ' hmoved => ⟨fun _ _ => ?_, nofun⟩) fun φ' hmoved => ⟨nofun, fun refusal h => ?_⟩)
  · obtain rfl := hmoved.1 reply rfl
    refine keeps_ask (moves_revokeRows replay scope) (fun reply φ' hmoved => ⟨fun _ _ => ?_, nofun⟩)
      fun φ' hmoved => ⟨nofun, fun refusal h => ?_⟩
    · exact hmoved.1 reply rfl
    · cases h
      exact ⟨.inr rfl, .inr (hmoved.2 rfl)⟩
  · cases h
    exact ⟨nofun, fun refusal h => by cases h; exact ⟨.inl rfl, .inl (hmoved.2 rfl)⟩⟩

/-- The revocation of a family for a request that has drawn nothing. -/
theorem keeps_endFamily {family : ℕ} (replay : Bool) (hdrew : φ.drew = none) (hminted : ¬ φ.Minted)
    (hreplays : ∀ f, φ.Replays f → replay = true ∧ f = family) :
    (rotations start).Keeps performFamily start i (Families.endFamily family).run φ
      fun result φ' => (∀ u, result = .ok u → φ' = closed (some family)) ∧
        ∀ refusal, result = .error refusal →
          refusal ≠ refreshTokenRevoked ∧ (φ' = φ ∨ φ' = burning replay (some family)) := by
  refine Keeps.mono (keeps_endScope replay (some family) hdrew hminted
    (fun f hf => ?_) _ _) fun result φ' hended => ⟨hended.1, fun refusal h => ?_⟩
  · obtain ⟨hreplay, rfl⟩ := hreplays f hf
    exact ⟨hreplay, rfl⟩
  · obtain ⟨hrefusal, hφ'⟩ := hended.2 refusal h
    refine ⟨?_, hφ'⟩
    rintro rfl
    rcases hrefusal with h | h <;> exact absurd (congrArg Prod.fst h) (by decide)

/-- A successor that was not established is ended: its row is revoked, or a step has failed. -/
theorem keeps_endStray (token : RefreshToken) :
    (rotations start).Keeps performFamily start i (Families.endFamily token.family).run (stray token)
      fun _ φ' => φ' = finished ∨ φ' = lost token := by
  refine Keeps.bindExcept (keeps_ask (moves_deleteStray token)
    (fun reply φ' hmoved => ⟨fun _ _ => ?_, nofun⟩)
    fun φ' hmoved => ⟨nofun, fun _ _ => .inr (hmoved.2 rfl)⟩)
  obtain rfl := hmoved.1 rfl
  exact keeps_ask (moves_revokeStray token) (fun _ φ' hmoved => .inl (hmoved.1 rfl))
    fun φ' hmoved => .inr (hmoved.2 rfl)

/-! ## Rotations -/

/-- The successor of a claimed row is established, or its row is revoked. -/
theorem keeps_establishFamily {row : TokenRow} {token : RefreshToken}
    (hfamily : token.family = row.family) (expiresAt : ℕ) :
    (rotations start).Keeps performFamily start i
      (Families.establishFamily token row.family (row.generation + 1) expiresAt).run
      (drawn row token.jti) fun result φ' => (∀ u, result = .ok u → φ' = established token) ∧
        ∀ refusal, result = .error refusal → Refusable refusal φ' := by
  rw [← hfamily]
  refine Keeps.bindExcept (keeps_ask (moves_insert hfamily expiresAt)
    (fun reply φ' hmoved => ⟨fun _ _ => ?_, nofun⟩) fun φ' hmoved => ⟨nofun, fun refusal _ => ?_⟩)
  · obtain rfl := hmoved.1 rfl
    refine Keeps.bindExcept (keeps_attempt (keeps_ask (moves_touch token expiresAt)
      (fun touched φ' hmoved => ⟨fun _ h => ?_, nofun⟩) fun φ' hmoved => ⟨fun _ h => ?_, nofun⟩))
    · cases h
      obtain rfl := hmoved.1 touched rfl
      by_cases htouched : touched = (0 : ℕ)
      · -- the family was signed out after the claim
        simp only [htouched, if_true]
        refine Keeps.bindExcept (keeps_ask (moves_revokeStray token)
          (fun _ φ' hmoved => ⟨fun _ _ => ⟨nofun, fun refusal _ => ?_⟩, nofun⟩)
          fun φ' hmoved => ⟨nofun, fun refusal h => ⟨nofun, fun refusal' h' => ?_⟩⟩)
        · obtain rfl := hmoved.1 rfl
          exact Quits.refusable (φ := finished) trivial refusal
        · cases h
          cases h'
          obtain rfl := hmoved.2 rfl
          refine refusable_of_ne ?_ fun token' howes => ?_
          · exact fun h => absurd (congrArg Prod.fst h) (by decide)
          · cases howes
            rfl
      · simp only [htouched, if_false]
        exact ⟨fun _ _ => rfl, nofun⟩
    · cases h
      obtain rfl := hmoved.2 rfl
      refine Keeps.bindExcept (keeps_attempt ((keeps_endStray token).mono fun result φ' hended =>
        ⟨fun _ _ => ⟨nofun, fun refusal h => ?_⟩, nofun⟩))
      cases h
      refine refusable_of_ne (fun h => absurd (congrArg Prod.fst h) (by decide)) fun token' howes => ?_
      rcases hended with rfl | rfl
      · cases howes
      · cases howes
        rfl
  · obtain rfl := hmoved.2 rfl
    exact ⟨nofun, fun refusal' _ => Quits.refusable (φ := drawn row token.jti) trivial refusal'⟩

/-- The tokens that a rotation mints are of its family. -/
theorem keeps_generateTokens (settings : Settings) (lifetime : SessionLifetime) (grant : TokenGrant)
    (authMethod : String) (row : TokenRow) :
    (rotations start).Keeps performFamily start i
      (Families.generateTokens settings lifetime grant authMethod row.family).run (claimed row)
      fun result φ' => (∀ tokens, result = .ok tokens → φ' = drawn row tokens.2.jti ∧
          tokens.1.family = row.family ∧ tokens.2.family = row.family) ∧
        ∀ refusal, result = .error refusal → φ'.Quits := by
  refine Keeps.bindExcept (keeps_ask (moves_randomBytes row)
    (fun jti φ' hmoved => ⟨fun jti' h => ?_, nofun⟩) fun φ' hmoved => ⟨nofun, fun refusal h => ?_⟩)
  · cases h
    obtain rfl := hmoved.1 jti rfl
    refine keeps_calm trivial nofun (fun _ => ?_) ⟨nofun, fun _ _ => trivial⟩
    refine keeps_calm trivial nofun (fun now => ⟨fun tokens h => ?_, nofun⟩)
      ⟨nofun, fun _ _ => trivial⟩
    cases h
    exact ⟨rfl, rfl, rfl⟩
  · obtain rfl := hmoved.2 rfl
    exact ⟨nofun, fun _ _ => trivial⟩

/-- What a handler has computed when it is over. -/
def Concludes : Except Refusal Response → RotationPhase → Prop
  | .ok (.tokens access token), φ => φ = established token ∧ access.family = token.family
  | .ok response, φ => response = .changed ∧ φ.Quits
  | .error refusal, φ => Refusable refusal φ

theorem concludes_of_quits (h : φ.Quits) (refusal : Refusal) :
    Concludes (.error refusal) φ :=
  h.refusable refusal

theorem keeps_issueTokensAndCookie (settings : Settings) (lifetime : SessionLifetime)
    (grant : TokenGrant) (authMethod : String) (row : TokenRow) :
    (rotations start).Keeps performFamily start i
      (Families.issueTokensAndCookie settings lifetime grant authMethod row.family
        (row.generation + 1)).run (claimed row) Concludes := by
  refine Keeps.bindExcept ((keeps_generateTokens settings lifetime grant authMethod row).mono
    fun result φ' hgenerated => ⟨fun tokens h => ?_, fun refusal h =>
      concludes_of_quits (hgenerated.2 refusal h) refusal⟩)
  obtain ⟨rfl, haccess, hrefresh⟩ := hgenerated.1 tokens h
  refine Keeps.bindExcept ((keeps_establishFamily hrefresh lifetime.expiresAt).mono
    fun result φ' hestablished => ⟨fun u h => ?_, fun refusal h => hestablished.2 refusal h⟩)
  obtain rfl := hestablished.1 u h
  exact keeps_calm trivial nofun (fun _ => ⟨rfl, haccess.trans hrefresh.symm⟩)
    (concludes_of_quits (φ := established tokens.2) trivial _)

/-! ## Refreshes -/

/-- A replay burns the family when it finds a live row. -/
theorem keeps_refuseRevokedAtRead (family : ℕ) :
    (rotations start).Keeps performFamily start i (Families.refuseRevokedAtRead family).run
      (replaying family) Concludes := by
  refine Keeps.bindExcept (keeps_ask (moves_liveRow family)
    (fun live φ' hmoved => ⟨fun live' h => ?_, nofun⟩) fun φ' hmoved => ⟨nofun, fun refusal h => ?_⟩)
  · cases h
    cases live with
    | false =>
      obtain rfl := hmoved.1 rfl
      exact concludes_of_quits (φ := finished) trivial refreshTokenRevoked
    | true =>
      obtain rfl := hmoved.2 (.inl rfl)
      refine Keeps.bindExcept (Keeps.mono (keeps_endFamily (φ := replaying family) true rfl id
        fun f hf => ?_) fun result φ' hended => ⟨fun u h => ?_, fun refusal h => ?_⟩)
      · rcases hf with hf | hf <;> cases hf
        exact ⟨rfl, rfl⟩
      · obtain rfl := hended.1 u h
        exact concludes_of_quits (φ := closed (some family)) trivial refreshTokenRevoked
      · obtain ⟨hrefusal, hφ'⟩ := hended.2 refusal h
        refine refusable_of_ne hrefusal fun token howes => ?_
        rcases hφ' with rfl | rfl <;> cases howes
  · cases h
    obtain rfl := hmoved.2 (.inr rfl)
    exact refusable_of_ne (fun h => absurd (congrArg Prod.fst h) (by decide)) nofun

/-- A family that is behind the account's version is ended, if it can be. -/
theorem keeps_refuseStaleFamily (row : TokenRow) :
    (rotations start).Keeps performFamily start i (Families.refuseStaleFamily row.family).run
      (found row) Concludes := by
  refine Keeps.bindExcept (keeps_attempt (Keeps.mono (keeps_endFamily (φ := found row) false rfl id
    fun f hf => ?_) fun result φ' hended => ⟨fun _ _ => ?_, nofun⟩))
  · rcases hf with hf | hf <;> cases hf
  · refine concludes_of_quits ?_ refreshTokenRevoked
    cases result with
    | ok u =>
      obtain rfl := hended.1 u rfl
      trivial
    | error refusal => rcases (hended.2 refusal rfl).2 with rfl | rfl <;> trivial

/-- What is checked of the account takes calls that leave the families alone. -/
theorem yields_checkAccount (settings : Settings) (user : UserRow) :
    (checkAccount settings user).run.Yields Still fun _ => True := by
  have hread : Still .readConfig := Calm.still trivial
  refine yields_bindExcept (yields_ask hread _) fun _ => ?_
  split
  · trivial
  · refine yields_bindExcept (yields_orRefuse _ ⟨Calm.still trivial, fun _ => trivial⟩) fun grant => ?_
    refine yields_bindExcept (yields_ask hread _) fun _ => ?_
    refine yields_bindExcept (yields_orRefuse _ ?_) fun lifetime => ?_
    · unfold SessionLifetime.resolve
      split
      · trivial
      · exact ⟨Calm.still trivial, fun _ => trivial⟩
    · cases lifetime <;> trivial

theorem keeps_claimAndIssue (settings : Settings) (token : RefreshToken) (row : TokenRow)
    (grant : TokenGrant) (lifetime : SessionLifetime) :
    (rotations start).Keeps performFamily start i
      (claimAndIssue settings token row grant lifetime).run (found row) Concludes := by
  refine Keeps.bindExcept (keeps_ask (moves_claim row)
    (fun claimed φ' hmoved => ⟨fun claimed' h => ?_, nofun⟩)
    fun φ' hmoved => ⟨nofun, fun refusal h => ?_⟩)
  · cases h
    cases claimed with
    | true =>
      obtain rfl := hmoved.1 rfl
      exact keeps_issueTokensAndCookie settings lifetime grant token.authMethod row
    | false =>
      obtain rfl := hmoved.2.1 rfl
      exact concludes_of_quits (φ := finished) trivial refreshTokenRevoked
  · obtain rfl := hmoved.2.2 rfl
    exact concludes_of_quits (φ := found row) trivial refusal

theorem keeps_rotate (settings : Settings) (token : RefreshToken) (row : TokenRow) :
    (rotations start).Keeps performFamily start i (Families.rotate settings token row).run
      (if row.revoked then replaying row.family else found row) Concludes := by
  unfold Families.rotate
  by_cases hrevoked : row.revoked = true
  · rw [if_pos hrevoked, if_pos hrevoked]
    exact keeps_refuseRevokedAtRead row.family
  · rw [if_neg hrevoked, if_neg hrevoked]
    have hquits : (found row).Quits := trivial
    refine keeps_calm trivial nofun (fun user => ?_) (concludes_of_quits hquits _)
    split
    · exact concludes_of_quits hquits _
    · split
      · exact keeps_refuseStaleFamily row
      · refine Keeps.bindExcept (Keeps.mono (keeps_still (φ := found row)
          (yields_checkAccount settings user) nofun)
          fun result φ' hsame => ⟨fun checked _ => ?_, fun refusal _ => ?_⟩) <;> subst hsame
        · exact keeps_claimAndIssue settings token row checked.1 checked.2
        · exact concludes_of_quits hquits _

theorem keeps_refresh (settings : Settings) (token : RefreshToken) :
    (rotations start).Keeps performFamily start i (Families.refresh settings token).run reading
      Concludes := by
  refine Keeps.bindExcept (keeps_ask (moves_present token)
    (fun known φ' hmoved => ⟨fun known' h => ?_, nofun⟩)
    fun φ' hmoved => ⟨nofun, fun refusal h => ?_⟩) <;> subst hmoved
  · cases h
    cases known with
    | false => exact concludes_of_quits (φ := reading) trivial _
    | true =>
      have hquits : (known token).Quits := trivial
      refine Keeps.bindExcept (keeps_ask (moves_findToken token)
        (fun found φ' hmoved => ⟨fun found' h => ?_, nofun⟩)
        fun φ' hmoved => ⟨nofun, fun refusal h => ?_⟩)
      · cases h
        cases found with
        | none =>
          obtain rfl := hmoved.2 (.inl rfl)
          exact concludes_of_quits hquits refreshTokenRevoked
        | some row =>
          obtain rfl := hmoved.1 row rfl
          exact keeps_rotate settings token row
      · obtain rfl := hmoved.2 (.inr rfl)
        exact concludes_of_quits hquits refusal
  · exact concludes_of_quits (φ := reading) trivial refusal

/-! ## The other requests -/

/-- The scope that a request ends. -/
def FamilyRequest.ends : FamilyRequest → Option (Option ℕ)
  | endFamily family => some (some family)
  | endAllFamilies => some none
  | _ => none

/-- A revocation that a request is made of. -/
theorem keeps_revocation (scope : Option ℕ) (first second : Refusal) :
    (rotations start).Keeps performFamily start i
      ((ask (endSessions scope) first >>= fun _ => ask (revokeRows scope) second) >>=
        fun _ => pure .changed : Handler Response).run reading
      fun result φ' => Concludes result φ' ∧ (result = .ok .changed → φ' = closed scope) := by
  refine Keeps.bindExcept (Keeps.mono (keeps_endScope (φ := reading) false scope rfl id
    (fun f hf => ?_) first second) fun result φ' hended => ⟨fun u h => ?_, fun refusal h => ?_⟩)
  · rcases hf with hf | hf <;> cases hf
  · obtain rfl := hended.1 u h
    exact ⟨⟨rfl, trivial⟩, fun _ => rfl⟩
  · refine ⟨?_, nofun⟩
    refine concludes_of_quits ?_ refusal
    rcases (hended.2 refusal h).2 with rfl | rfl <;> trivial

theorem keeps_handleRevoke (family : ℕ) :
    (rotations start).Keeps performFamily start i (Families.handleRevoke family).run reading
      Concludes := by
  refine keeps_calm trivial nofun (fun found => ?_) (concludes_of_quits (φ := reading) trivial _)
  split
  · refine Keeps.bindExcept (Keeps.mono (keeps_endFamily (φ := reading) false rfl id
      fun f hf => ?_) fun result φ' hended => ⟨fun u h => ?_, fun refusal h => ?_⟩)
    · rcases hf with hf | hf <;> cases hf
    · obtain rfl := hended.1 u h
      exact ⟨rfl, trivial⟩
    · refine concludes_of_quits ?_ refusal
      rcases (hended.2 refusal h).2 with rfl | rfl <;> trivial
  · exact ⟨rfl, trivial⟩

theorem keeps_sweep :
    (rotations start).Keeps performFamily start i sweep.run reading Concludes := by
  refine keeps_calm trivial nofun (fun cutoff => ?_) (concludes_of_quits (φ := reading) trivial _)
  have hsweep : ∀ {c : FamilyCall} (refusal : Refusal) {f : Except Refusal (FamilyReply c) → Handler Response},
      Calm c → (∀ result, (rotations start).Keeps performFamily start i (f result).run reading Concludes) →
      (rotations start).Keeps performFamily start i (attempt (ask c refusal) >>= f).run reading
        Concludes := by
    intro c refusal f hc hf
    refine Keeps.bindExcept (keeps_attempt (Keeps.mono (keeps_still (φ := reading)
      (yields_ask hc.still refusal) nofun) fun result φ' hsame => ⟨fun result' h => ?_, nofun⟩))
    subst hsame
    exact hf result'
  exact hsweep _ trivial fun _ => hsweep _ trivial fun _ => ⟨rfl, trivial⟩

/-- What a request has answered when it is over. -/
structure FamilyRequest.Concluded (request : FamilyRequest) (response : Response)
    (φ : RotationPhase) : Prop where
  tokens : ∀ access token, response = .tokens access token →
    φ = handed token ∧ access.family = token.family
  owes : ∀ token, φ.owes = some token → φ = lost token
  ended : ∀ scope, request.ends = some scope → response = .changed → φ = closed scope

/-- The answer of a handler. -/
def answerOf : Except Refusal Response → Response
  | .ok response => response
  | .error (code, message) => .refused code message

/-- A handler's answer is handed out. -/
theorem keeps_respond (request : FamilyRequest) {result : Except Refusal Response}
    (hconcludes : Concludes result φ)
    (hended : ∀ scope, request.ends = some scope → result = .ok .changed → φ = closed scope) :
    (rotations start).Keeps performFamily start i
      (.call (.statement (.respond (answerOf result))) fun _ => .done (answerOf result) :
        FamilyProgram Response) φ
      request.Concluded := by
  match result with
  | .ok (.tokens access token) =>
    obtain ⟨rfl, hfamily⟩ := hconcludes
    refine Moves.mono (moves_handOut access token) fun _ φ' h => ?_
    subst h
    exact ⟨fun access' token' h => by cases h; exact ⟨rfl, hfamily⟩, nofun, nofun⟩
  | .ok .changed =>
    have hnothing := hconcludes.2.nothing
    refine Moves.mono (moves_respond rfl nofun) fun _ φ' h => ?_
    obtain rfl : φ' = φ := h.resolve_right nofun
    refine ⟨nofun, fun token howes => ?_, fun scope hscope _ => hended scope hscope rfl⟩
    rw [hnothing.1] at howes
    cases howes
  | .ok (.apiKey ..) => exact nomatch hconcludes.1
  | .ok (.refused ..) => exact nomatch hconcludes.1
  | .error refusal =>
    refine Moves.mono (moves_respond rfl fun h => hconcludes.revoked ?_) fun _ φ' h => ?_
    · simpa [answerOf, Prod.ext_iff] using h
    · refine ⟨nofun, fun token howes => ?_, nofun⟩
      rcases h with rfl | ⟨rfl, -⟩
      · exact hconcludes.owes token howes
      · cases howes

/-- Every request keeps to the protocol. -/
theorem FamilyRequest.keeps (settings : Settings) (request : FamilyRequest) :
    (rotations start).Keeps performFamily start i (request.program settings) reading
      request.Concluded := by
  cases request with
  | refresh token =>
    exact Keeps.bind (Keeps.mono (keeps_refresh settings token) fun result φ' hconcludes =>
      keeps_respond (.refresh token) hconcludes nofun)
  | endFamily family =>
    refine Keeps.bind (Keeps.mono (keeps_revocation (some family) _ _) fun result φ' h =>
      keeps_respond (.endFamily family) h.1 fun scope hscope => ?_)
    cases hscope
    exact h.2
  | endAllFamilies =>
    refine Keeps.bind (Keeps.mono (keeps_revocation none _ _) fun result φ' h =>
      keeps_respond .endAllFamilies h.1 fun scope hscope => ?_)
    cases hscope
    exact h.2
  | revokeDevice family =>
    exact Keeps.bind (Keeps.mono (keeps_handleRevoke family) fun result φ' hconcludes =>
      keeps_respond (.revokeDevice family) hconcludes nofun)
  | sweep =>
    exact Keeps.bind (Keeps.mono keeps_sweep fun result φ' hconcludes =>
      keeps_respond .sweep hconcludes nofun)

end Auth
