import Impresspress.Auth.FamilyRequests

/-!
# Ending a family is final

Once a request that ends a family has been answered, no session row of the family exists, no
rotation claims one of its rows, and no token of it that anybody holds signs in or refreshes. A
live row can be left behind only by a rotation whose own revocation failed, and its token has not
been handed out.

## Main definitions

* `Auth.familyRun`: the requests to the families of an account, side by side.
* `Auth.FamilyOver`: a family that has been ended for good.

## Main results

* `Auth.end_family_is_final`: an answered end of a family is final.
* `Auth.end_family_leaves_live_row`: a live row that is left behind.
-/

namespace Auth

open Concurrent Protocol RotationPhase

variable {ι : Type} [DecidableEq ι] {start : AuthStore} {Φ : ι → RotationPhase}
  {past : FamilyHistory ι}

omit [DecidableEq ι] in
theorem told_nil : Told (fun _ : ι => reading) [] where
  replays i family h := by
    obtain ⟨m, hm, -⟩ := h
    cases hm
  refused i family h := by
    obtain ⟨m, hm, -⟩ := h
    cases hm
  answered i h := by
    obtain ⟨m, hm, -⟩ := h
    cases hm
  lost i h := by
    obtain ⟨m, hm, -⟩ := h
    cases hm
  minted i h := by
    obtain ⟨m, hm, -⟩ := h
    cases hm

omit [DecidableEq ι] in
theorem Numbered.rotations (h : Numbered start) : Rotations start (fun _ : ι => reading) [] where
  numbered := h
  told := told_nil
  ok _ := trivial
  drew _ _ h := by cases h
  apart _ _ _ h := by cases h
  fresh _ _ _ h := by cases h
  secret _ _ _ h := by cases h
  signedOut family h := by
    obtain ⟨m, hm, -⟩ := h
    cases hm
  ended _ h := h.elim
  spent m hm := by cases hm

omit [DecidableEq ι] in
theorem OneEach.oneLive (h : OneEach start.tokens) : OneLive start (fun _ : ι => reading) [] where
  live := h
  minting _ _ h := by cases h
  checked _ family h := by
    obtain ⟨m, hm, -⟩ := h
    cases hm

/-- Any number of requests to the families of the account, run together. -/
def familyRun (settings : Settings) (requests : ι → FamilyRequest) (start : AuthStore)
    (schedule : List (ι × FamilyChance)) : Pool ι AuthStore (Outcome Unit FamilyReply) Response :=
  (Pool.launch start fun i => (requests i).program settings).exec performFamily schedule

/-- Every run keeps the invariant and the promises. -/
theorem familyRun_keeps (settings : Settings) (requests : ι → FamilyRequest) (hstart : Numbered start)
    (schedule : List (ι × FamilyChance)) :
    let run := familyRun settings requests start schedule
    Along (fun past m => (∃ Φ, (rotations start).inv Φ past) ∧ Promises start past m) run.history ∧
      ∃ Φ, (rotations start).inv Φ run.history ∧
      ∀ i, (rotations start).Keeps performFamily start i (run.running i) (Φ i)
        (requests i).Concluded :=
  exec_keeps (P := rotations start) ⟨hstart.rotations, fun heach => heach.oneLive⟩
    (fun i => (requests i).keeps settings) schedule (Along.of_forall (fun _ _ => trivial) _)

/-! ## What is left of an ended family -/

omit [DecidableEq ι] in
/-- A family whose rows a finished request has revoked after its sessions has been ended. -/
theorem ended_of_concluded {request : FamilyRequest} (scope : Option ℕ) {family : ℕ} {i : ι}
    (hends : request.ends = some scope) (hscope : ∀ f ∈ scope, f = family)
    (hconcluded : request.Concluded .changed (Φ i)) (h : Rotations start Φ past) :
    FamilyEnded family past := by
  have hok := h.ok i
  rw [hconcluded.ended scope hends rfl] at hok
  exact hok family hscope

omit [DecidableEq ι] in
/-- A row of an ended family whose token somebody holds is revoked. -/
theorem Rotations.revoked_of_held (h : Rotations start Φ past) {family : ℕ}
    (hended : FamilyEnded family past) {row : TokenRow} (hrow : row ∈ (past.store start).tokens)
    (hfamily : row.family = family) {token : RefreshToken}
    (hheld : .refresh token ∈ (past.store start).held) (hjti : token.jti = row.token.jti) :
    row.revoked = true := by
  by_contra hlive
  obtain ⟨i, howes⟩ := h.ended family hended row hrow hfamily (eq_false_of_ne_true hlive)
  exact h.secret i row.token.jti token (secret_of_owes howes) hheld hjti

/-- Without a session row, an access token of the family does not sign in. -/
theorem verifyAccessToken_signedOut (access : AccessToken) {s : AuthStore}
    (hout : ∀ row ∈ s.sessions, row.family ≠ access.family) :
    (verifyAccessToken access).Ensures perform s fun presented _ => presented = none := by
  intro chance
  show Program.Ensures perform (if _ then _ else _) _ _
  split
  · intro chance' chance''
    have hlive : (s.sessions.any fun row => row.family == access.family &&
        decide (s.clock + chance.elapsed + chance'.elapsed < row.expiresAt)) = false :=
      List.any_eq_false.mpr fun row hrow hnot => hout row hrow (by simp_all)
    show Program.Ensures perform (if (!(s.sessions.any fun row => row.family == access.family &&
      decide (s.clock + chance.elapsed + chance'.elapsed < row.expiresAt)) || _) = true then _
        else _) _ _
    rw [hlive]
    exact rfl
  · exact rfl

/-- A program that comes to an end with a refusal. -/
def Refuses {α : Type} (p : Handler α) : Prop :=
  p.run.Yields (fun _ => True) fun result => ∃ refusal, result = .error refusal

theorem refuses_bind {α β : Type} (p : Handler α) {f : α → Handler β} (hf : ∀ a, Refuses (f a)) :
    Refuses (p >>= f) := by
  have hp : p.run.Yields (fun _ => True) fun _ => True := by
    induction p.run with
    | done _ => trivial
    | call c next ih => exact ⟨trivial, ih⟩
  refine hp.bind fun result _ => ?_
  cases result with
  | ok a => exact hf a
  | error refusal => exact ⟨refusal, rfl⟩

theorem refuses_throw {α : Type} (refusal : Refusal) : Refuses (throw refusal : Handler α) :=
  ⟨refusal, rfl⟩

theorem refuses_refuseRevokedAtRead (family : ℕ) :
    Refuses (Families.refuseRevokedAtRead family) := by
  refine refuses_bind _ fun live => ?_
  split
  · exact refuses_bind _ fun _ => refuses_throw refreshTokenRevoked
  · exact refuses_throw refreshTokenRevoked

/-- A token whose rows are revoked, if there are any, is refused. -/
theorem refresh_dead (settings : Settings) (token : RefreshToken) {s : AuthStore}
    (hdead : ∀ row ∈ s.tokens, row.token = token → row.revoked = true) :
    ((FamilyRequest.refresh token).program settings).Ensures performFamily s
      fun response _ => ∀ access token, response ≠ .tokens access token := by
  have hrefuses : (Families.refresh settings token).run.Ensures performFamily s
      fun result _ => ∃ refusal, result = .error refusal := by
    intro chance
    cases hpresent : performFamily chance (.statement (.present (.refresh token))) s with
    | mk answer s' =>
    have htokens : s'.tokens = s.tokens := by
      have h : (performFamily chance (.statement (.present (.refresh token))) s).2.tokens =
          s.tokens := by
        unfold performFamily
        split <;> rfl
      rwa [hpresent] at h
    match answer with
    | .error _ => exact ⟨_, rfl⟩
    | .ok false => exact ⟨_, rfl⟩
    | .ok true =>
      intro chance'
      cases hfind : performFamily chance' (.statement (.findToken token)) s' with
      | mk found s'' =>
      match found, hfind with
      | .error _, _ => exact ⟨_, rfl⟩
      | .ok none, _ => exact ⟨_, rfl⟩
      | .ok (some row), hfind =>
        have hrow : s'.tokens.find? (fun row => row.token == token) = some row :=
          (answer_ok hfind).1.symm
        have hrevoked : row.revoked = true := by
          refine hdead row (htokens ▸ List.mem_of_find?_eq_some hrow) ?_
          simpa using List.find?_some hrow
        have hrotate : Families.rotate settings token row =
            Families.refuseRevokedAtRead row.family := if_pos hrevoked
        show Program.Ensures performFamily (Families.rotate settings token row).run s'' _
        rw [hrotate]
        exact Program.Yields.ensures (refuses_refuseRevokedAtRead row.family) performFamily s''
  refine Program.ensures_bind.mpr (hrefuses.mono fun result s' hresult => ?_)
  obtain ⟨refusal, rfl⟩ := hresult
  exact fun chance access token => nofun

/-! ## The end of a family -/

/-- A family that has been ended for good. -/
structure FamilyOver (settings : Settings) (family : ℕ)
    (run : Pool ι AuthStore (Outcome Unit FamilyReply) Response) : Prop where
  session : ∀ row ∈ run.store.sessions, row.family ≠ family
  tokens : ∀ i access token, run.running i = .done (.tokens access token) → token.family = family →
    ((verifyAccessToken access).Ensures perform run.store fun presented _ => presented = none) ∧
      ((FamilyRequest.refresh token).program settings).Ensures performFamily run.store
        fun response _ => ∀ access token, response ≠ .tokens access token
  claims : Along (fun past m => FamilyEnded family past → ∀ id, claims m.call m.answer = some id →
    ∀ row ∈ m.before.tokens, row.id = id → row.family ≠ family) run.history
  rows : (∀ i, ∃ response, run.running i = .done response) → ∀ row ∈ run.store.tokens,
    row.family = family → row.revoked = false → RevocationFailed family run.history ∧
      .refresh row.token ∉ run.store.held

/-- In every run of any number of requests to the families of an account, whichever of their
statements fail, a family is over once a request that ends it has been answered. -/
theorem end_family_is_final (settings : Settings) (requests : ι → FamilyRequest)
    {start : AuthStore} (hstart : Numbered start) (schedule : List (ι × FamilyChance)) {i : ι}
    {family : ℕ} (hrequest : requests i = .endFamily family ∨ requests i = .endAllFamilies)
    (hdone : (familyRun settings requests start schedule).running i = .done .changed) :
    FamilyOver settings family (familyRun settings requests start schedule) := by
  obtain ⟨hpromises, Φ, ⟨hrotations, -⟩, hkeeps⟩ :=
    familyRun_keeps settings requests hstart schedule
  have hconcluded : ∀ {j response},
      (familyRun settings requests start schedule).running j = .done response →
        (requests j).Concluded response (Φ j) := by
    intro j response hdone
    have hkept := hkeeps j
    rw [hdone] at hkept
    exact hkept
  have hended : FamilyEnded family (familyRun settings requests start schedule).history := by
    rcases hrequest with hrequest | hrequest
    · refine ended_of_concluded (some family) ?_ ?_ (hconcluded hdone) hrotations
      · rw [hrequest]
        rfl
      · intro f hf
        cases hf
        rfl
    · refine ended_of_concluded none ?_ nofun (hconcluded hdone) hrotations
      rw [hrequest]
      rfl
  have hstore : (familyRun settings requests start schedule).store =
      (familyRun settings requests start schedule).history.store start := by
    rw [Pool.store, familyRun, Pool.exec_start]
    rfl
  have hsession := hrotations.signedOut family hended.signedOut
  rw [← hstore] at hsession
  refine ⟨hsession, fun j access token hj htoken => ⟨?_, ?_⟩, hpromises.mono ?_, ?_⟩
  · obtain ⟨-, haccess⟩ := (hconcluded hj).tokens access token rfl
    exact verifyAccessToken_signedOut access fun row hrow =>
      haccess.trans htoken ▸ hsession row hrow
  · obtain ⟨hphase, -⟩ := (hconcluded hj).tokens access token rfl
    have hheld := hrotations.ok j
    rw [hphase] at hheld
    refine refresh_dead settings token fun row hrow hsame => ?_
    rw [hstore] at hrow
    refine hrotations.revoked_of_held hended hrow ?_ hheld (by rw [hsame])
    rw [(hrotations.numbered.rows row hrow).2.2, hsame, htoken]
  · rintro past m ⟨-, hpromises⟩ hended id hclaims row hrow hid hfamily
    exact (hpromises.open_ id hclaims row hrow hid).1 (hfamily ▸ hended)
  · intro hall row hrow hfamily hlive
    rw [hstore] at hrow
    refine ⟨?_, fun hheld => ?_⟩
    · obtain ⟨j, howes⟩ := hrotations.ended family hended row hrow hfamily hlive
      obtain ⟨response, hj⟩ := hall j
      have hlost := hrotations.ok j
      rw [(hconcluded hj).owes row.token howes] at hlost
      rw [← hfamily, (hrotations.numbered.rows row hrow).2.2]
      exact hlost
    · rw [hstore] at hheld
      have hrevoked := hrotations.revoked_of_held hended hrow hfamily hheld rfl
      rw [hlive] at hrevoked
      cases hrevoked

/-- An account that is signed in on one device. -/
def oneDevice : AuthStore where
  user := ⟨false, none, true, "email_token", 0, "", none⟩
  roles := ["user"]
  passwordHash := some "7$old-horse-battery"
  sessions := [⟨1, "password", 9000⟩]
  tokens := [⟨2, ⟨1, 0, "password", 3, 9000⟩, 1, 0, false, 9000⟩]
  apiKeys := ⟨[], by decide⟩
  held := [.refresh ⟨1, 0, "password", 3, 9000⟩]
  clock := 0
  nextRandom := 10

theorem numbered_oneDevice : Numbered oneDevice where
  rows := by decide
  ids := by decide
  nonces := by decide
  held token h := by
    obtain rfl : token = ⟨1, 0, "password", 3, 9000⟩ := by simpa [oneDevice] using h
    decide

def deploymentSettings : Settings := ⟨false, 8, 1800, some 7⟩

/-- The device refreshes while it is revoked. -/
def refreshAndEnd : Bool → FamilyRequest
  | true => .refresh ⟨1, 0, "password", 3, 9000⟩
  | false => .endFamily 1

/-- The turn of a request, at a database that answers or does not. -/
def turnOf {ι : Type} (i : ι) (fails : Bool) : ι × FamilyChance := (i, ⟨fails, 0, none⟩)

/-- The family is ended between the claim and the insert of the successor. -/
def endedDuringRefresh (fails : Bool) : List (Bool × FamilyChance) :=
  List.replicate 8 (turnOf true false) ++ List.replicate 3 (turnOf false false) ++
    List.replicate 5 (turnOf true false) ++ [turnOf true fails] ++ [turnOf true false]

theorem end_family_is_final_refreshing :
    (familyRun deploymentSettings refreshAndEnd oneDevice (endedDuringRefresh false)).running true =
        .done (.refused .invalidToken "Refresh token has been revoked") ∧
      FamilyOver deploymentSettings 1
        (familyRun deploymentSettings refreshAndEnd oneDevice (endedDuringRefresh false)) :=
  ⟨rfl, end_family_is_final deploymentSettings refreshAndEnd numbered_oneDevice
    (endedDuringRefresh false) (.inl rfl : refreshAndEnd false = .endFamily 1 ∨ _) rfl⟩

/-- The rotation finds the session gone, and fails to revoke the successor's row. -/
theorem end_family_leaves_live_row :
    let run := familyRun deploymentSettings refreshAndEnd oneDevice (endedDuringRefresh true)
    Numbered oneDevice ∧ run.running false = .done .changed ∧
      (∀ i, ∃ response, run.running i = .done response) ∧
        ∃ row ∈ run.store.tokens, row.family = 1 ∧ row.revoked = false :=
  ⟨numbered_oneDevice, rfl, fun i => match i with
    | true => ⟨.refused .internalError "Refresh could not revoke the token family", rfl⟩
    | false => ⟨.changed, rfl⟩,
    ⟨11, ⟨1, 0, "password", 10, 604800⟩, 1, 1, false, 604800⟩, .tail _ (.head _), rfl, rfl⟩

end Auth
