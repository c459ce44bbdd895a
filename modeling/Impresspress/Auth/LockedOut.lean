import Impresspress.Auth.Requests

/-!
# The old password is locked out

A successful change ends everything that goes back to the password it replaced, whatever other
requests of the account do in between, as long as none of them stores a password on the word of a
replaced one.

## Main definitions

* `Auth.Refused`: a credential that no longer takes effect.
* `Auth.LockedOut`: nothing that goes back to the old password takes effect.

## Main results

* `Auth.password_locked_out`: a successful change locks the old password out of every run that
  meets the condition.
* `Auth.password_locked_out_fails`: a run in which it does not.
-/

namespace Auth

open Concurrent Discipline Program

variable {ι : Type} [DecidableEq ι] {start : AuthStore} {past : AuthHistory ι} {i : Option ι}

section Changes

theorem Quiet.tame {c : AuthCall} (h : Quiet c) : Tame c := by
  cases c with
  | insertKey | respond => exact h.elim
  | _ => trivial

theorem Reading.tame {c : AuthCall} (h : Reading c) : Tame c := by
  cases c with
  | insertKey | respond => exact h.elim
  | _ => trivial

variable {services : Services} {settings : Settings}

theorem reading_authenticate (credential : Credential) :
    (authenticate credential).Yields Reading fun _ => True := by
  cases credential with
  | refresh token => trivial
  | access token =>
    refine ⟨trivial, fun presented => ?_⟩
    cases presented with
    | false => trivial
    | true =>
      refine ⟨trivial, fun (live : Bool) => ⟨trivial, fun (current : ℕ) => ?_⟩⟩
      show Yields Reading _ (if !live || token.authVersion < current then pure none else _)
      split <;> trivial
  | apiKey key =>
    refine ⟨trivial, fun presented => ?_⟩
    cases presented with
    | false => trivial
    | true =>
      refine ⟨trivial, fun found => ?_⟩
      cases found with
      | none => trivial
      | some row =>
        refine ⟨trivial, fun (now : ℕ) => ?_⟩
        show Yields Reading _ (if row.isRevoked || row.isExpired now then pure none else _)
        split
        · trivial
        · refine ⟨trivial, fun (user : UserRow) => ?_⟩
          show Yields Reading _ (if !user.isActive then pure none else _)
          split
          · trivial
          · exact ⟨trivial, fun _ => trivial⟩

theorem reading_refuseChange (current new : String) (confirm : Option String) :
    (refuseChange services settings current new confirm).Yields Reading fun _ => True := by
  unfold refuseChange
  split
  · trivial
  · split
    · trivial
    · refine ⟨trivial, fun _ => ⟨trivial, fun stored => ?_⟩⟩
      cases stored with
      | none => trivial
      | some hash =>
        simp only [Program.bind]
        cases services.compareHash current hash <;> trivial

theorem tame_storeNewPassword (new : String) :
    (storeNewPassword services new).Yields Tame fun r => r.credentials = [] := by
  refine ⟨trivial, fun salt => ⟨trivial, fun stored => ?_⟩⟩
  cases stored with
  | true => exact ⟨trivial, fun _ => ⟨trivial, fun _ => ⟨trivial, fun _ => ⟨trivial, fun _ =>
      ⟨trivial, fun _ => rfl⟩⟩⟩⟩⟩
  | false =>
    refine ⟨trivial, fun inserted => ?_⟩
    cases inserted with
    | false => rfl
    | true => exact ⟨trivial, fun _ => ⟨trivial, fun _ => ⟨trivial, fun _ => ⟨trivial, fun _ =>
        rfl⟩⟩⟩⟩

theorem tame_changePassword (credential : Credential) (current new : String)
    (confirm : Option String) :
    (changePassword services settings credential current new confirm).Yields Tame
      fun r => r.credentials = [] := by
  refine ((reading_authenticate credential).weaken fun c => Reading.tame (c := c)).bind
    fun presented _ => ?_
  cases presented with
  | none => rfl
  | some p =>
    refine ((reading_refuseChange current new confirm).weaken fun c => Reading.tame (c := c)).bind
      fun refusal _ => ?_
    cases refusal with
    | none => exact tame_storeNewPassword new
    | some refusal => rfl

/-- The hash is stored. -/
theorem safe_updatePassword (hash : String) :
    (lockout start).Safe perform start (none : Option ι) (updatePassword hash) past
      fun stored past => stored = true → Wrote past := by
  have hstable : ∀ stored : Bool, (lockout start).Stable perform start (none : Option ι)
      fun past => stored = true → Wrote past := fun stored =>
    (lasting_wrote (K := Quiet).of_imp _).stable
  refine safe_read (c := .getCredential) (fun _ => True) trivial (lasting_const True) trivial
    fun past chance _ hlocked _ => ?_
  generalize (perform chance .getCredential (past.store start)).1 = present
  cases present with
  | true =>
    refine safe_call (c := .updateCredential hash) (fun _ => True) (lasting_const True) trivial
      (fun past chance _ hlocked _ => hlocked.step rfl ⟨chance, rfl, rfl⟩
        (fun _ hproc => absurd rfl hproc) nofun nofun nofun nofun) fun past chance _ _ _ => ?_
    exact Safe.done (hstable true) fun _ => ⟨_, List.mem_cons_self, rfl, rfl⟩
  | false =>
    refine safe_call (c := .insertCredential hash) (fun _ => True) (lasting_const True) trivial
      (fun past chance _ hlocked _ => hlocked.step rfl ⟨chance, rfl, rfl⟩
        (fun _ hproc => absurd rfl hproc) nofun nofun nofun nofun) fun past chance _ _ _ => ?_
    exact Safe.done (hstable _) fun hstored => ⟨_, List.mem_cons_self, rfl, hstored⟩

/-- The devices, the version, the keys: in this order. -/
theorem safe_endCredentials (h : Wrote past) :
    (lockout start).Safe perform start (none : Option ι) endCredentialsAfterPasswordChange past
      fun _ past => KeysEnded past := by
  refine safe_read (c := .deleteSessions) _ trivial lasting_wrote h fun past chance h hlocked _ => ?_
  refine safe_read (c := .revokeTokens) _ trivial lasting_wrote (h.cons _)
    fun past chance h hlocked _ => ?_
  refine safe_call (c := .bumpAuthVersion) _ lasting_wrote (h.cons _)
    (fun past chance h hlocked _ => hlocked.step rfl ⟨chance, rfl, rfl⟩ nofun (fun _ _ => h) nofun
      nofun nofun) fun past chance h hlocked _ => ?_
  refine safe_call (c := .revokeKeys) _ lasting_bumped ?_
    (fun past chance h hlocked _ => hlocked.step rfl ⟨chance, rfl, rfl⟩ nofun nofun (fun _ _ => h)
      nofun nofun) fun past chance h hlocked _ => ?_
  · simp [bumped, bumpedTo, Pool.momentOf]
  · exact Safe.done (lasting_keysEnded (K := Quiet)).stable ⟨_, List.mem_cons_self, rfl, rfl⟩

/-- What is known when the change has computed its answer. -/
def Ended (r : Response) (past : AuthHistory ι) : Prop :=
  r.credentials = [] ∧ (r = .changed → KeysEnded past)

theorem lasting_ended {K : AuthCall → Prop} (r : Response) :
    (lockout start).Lasting perform start i K (Ended (ι := ι) r) :=
  (lasting_const _).and (lasting_keysEnded.of_imp _)

theorem safe_refusal (code : ErrorCode) (message : String) :
    (lockout start).Safe perform start i (done (.refused code message) : AuthProgram Response)
      past Ended :=
  Safe.done (lasting_ended (K := Quiet) _).stable ⟨rfl, nofun⟩

/-- A program that reads, and what follows it. -/
theorem safe_reading {α : Type} {p : AuthProgram α} {f : α → AuthProgram Response}
    (hp : p.Yields Reading fun _ => True)
    (hf : ∀ a past, (lockout start).Safe perform start i (f a) past Ended) :
    (lockout start).Safe perform start i (p >>= f) past Ended :=
  Safe.bind ((Safe.yields hp (lasting_const True) trivial fun _ _ chance hc _ hinv =>
    ⟨trivial, fun _ => locked_reading hc hinv chance⟩).mono fun a past _ => hf a past)

theorem safe_storeNewPassword (new : String) :
    (lockout start).Safe perform start (none : Option ι) (storeNewPassword services new) past
      Ended := by
  refine safe_reading (p := hashNewPassword services new) ⟨trivial, fun _ => trivial⟩
    fun hash past => ?_
  refine Safe.bind ((safe_updatePassword _).mono fun stored past hwrote => ?_)
  cases stored with
  | false => exact safe_refusal _ _
  | true =>
    refine Safe.bind ((safe_endCredentials (hwrote rfl)).mono fun _ past hended => ?_)
    exact Safe.done (lasting_ended (K := Quiet) _).stable ⟨rfl, fun _ => hended⟩

theorem safe_changePassword (credential : Credential) (current new : String)
    (confirm : Option String) :
    (lockout start).Safe perform start (none : Option ι)
      (changePassword services settings credential current new confirm) past Ended := by
  refine safe_reading (reading_authenticate credential) fun presented past => ?_
  cases presented with
  | none => exact safe_refusal _ _
  | some p =>
    refine safe_reading (reading_refuseChange current new confirm) fun refusal past => ?_
    cases refusal with
    | none => exact safe_storeNewPassword new
    | some refusal => exact safe_refusal _ _

theorem safe_redeem (tokenHash newHash : String) (expires : ℕ) :
    (lockout start).Safe perform start (none : Option ι) (redeem tokenHash newHash expires) past
      Ended := by
  refine Safe.bind ((safe_updatePassword newHash).mono fun stored past hwrote => ?_)
  cases stored with
  | false =>
    refine safe_read (c := .restoreResetToken tokenHash (some expires)) (fun _ => True) trivial
      (lasting_const True) trivial fun past chance _ _ _ => safe_refusal _ _
  | true =>
    refine Safe.bind ((safe_endCredentials (hwrote rfl)).mono fun _ past hended => ?_)
    refine safe_read (c := .recordEmailProof "email_token") _ trivial lasting_keysEnded hended
      fun past chance h _ _ => ?_
    exact Safe.done (lasting_ended (K := Quiet) _).stable ⟨rfl, fun _ => h.cons _⟩

theorem safe_resetPassword (token new : String) :
    (lockout start).Safe perform start (none : Option ι)
      (resetPassword services settings token new) past Ended := by
  unfold resetPassword
  split
  · exact safe_refusal _ _
  · refine safe_read (c := .findByResetToken (services.sha256Hex token)) (fun _ => True) trivial
      (lasting_const True) trivial fun past chance _ _ _ => ?_
    generalize (perform chance (.findByResetToken (services.sha256Hex token))
      (past.store start)).1 = found
    cases found with
    | none => exact safe_refusal _ _
    | some expires =>
      cases expires with
      | none => exact safe_refusal _ _
      | some expires =>
        refine safe_read (c := .utcNow) (fun _ => True) trivial (lasting_const True) trivial
          fun past chance _ _ _ => ?_
        generalize (perform chance .utcNow (past.store start)).1 = now
        show Safe _ perform start none (if now > expires then _ else _) _ _
        split
        · exact safe_refusal _ _
        · refine safe_read (c := .randomBytes) (fun _ => True) trivial (lasting_const True) trivial
            fun past chance _ _ _ => ?_
          refine safe_read (c := .takeResetToken (services.sha256Hex token)) (fun _ => True) trivial
            (lasting_const True) trivial fun past chance _ _ _ => ?_
          generalize (perform chance (.takeResetToken (services.sha256Hex token))
            (past.store start)).1 = taken
          cases taken with
          | false => exact safe_refusal _ _
          | true => exact safe_redeem _ _ _

/-- When the change has answered that the password is changed, it has ended everything. -/
theorem safe_change (change : Change) :
    (lockout start).Safe perform start (none : Option ι) (change.program services settings) past
      fun r past => r = .changed → KeysEnded past := by
  refine safe_answering (A := Ended) ?_ (fun r => (lasting_ended (K := Quiet) r).stable)
    (fun r past h _ _ credential hmem => by rw [h.1] at hmem; cases hmem)
    (fun r past chance h _ hr => (h.2 hr).cons _)
    fun r => (lasting_keysEnded (K := Quiet).of_imp _).stable
  cases change with
  | changePassword credential current new confirm =>
    exact safe_changePassword credential current new confirm
  | resetPassword token new => exact safe_resetPassword token new

/-- Another change of the password hands nothing out. -/
theorem safe_otherChange (j : ι) (credential : Credential) (current new : String)
    (confirm : Option String) :
    (lockout start).Safe perform start (some j)
      (answering (changePassword services settings credential current new confirm)) past
      fun _ _ => True := by
  refine safe_answering (A := fun r _ => r.credentials = []) ?_ (fun r => ?_) ?_
    (fun _ _ _ _ _ => trivial) fun _ => Stable.true _
  · refine (Safe.yields (tame_changePassword credential current new confirm)
      (lasting_const True) trivial fun past c chance hc _ hlocked =>
        ⟨trivial, fun hadmits => locked_tame hc hlocked chance hadmits⟩).mono fun r past h => h.1
  · exact (lasting_const (K := Quiet) _).stable
  · intro r past hr _ _ credential hmem
    rw [hr] at hmem
    cases hmem

end Changes

section Refused

/-- What a credential is good for: the pipeline lets its request through, or it refreshes. -/
def takesEffect (settings : Settings) : Credential → AuthProgram Bool
  | .refresh token => do
    match ← Auth.refresh settings token with
    | .tokens .. => return true
    | _ => return false
  | credential => do return (← authenticate credential).isSome

/-- How the store answers once the cache entries for the account have aged out. -/
def agedOut (elapsed : ℕ) : (c : AuthCall) → AuthStore → AuthAnswer c × AuthStore :=
  perform ⟨elapsed, none⟩

/-- The credential does not take effect, whenever it is presented. -/
def Refused (settings : Settings) (s : AuthStore) (credential : Credential) : Prop :=
  (takesEffect settings credential).Ensures agedOut s fun effective _ => effective = false

variable {s : AuthStore} {settings : Settings}

/-- A credential the pipeline lets no request through for does not take effect. -/
theorem refused_of_authenticate {credential : Credential}
    (heffect : takesEffect settings credential = authenticate credential >>= fun presented =>
      pure presented.isSome)
    (h : (authenticate credential).Ensures agedOut s fun presented _ => presented = none) :
    Refused settings s credential := by
  rw [Refused, heffect]
  exact ensures_bind.mpr (h.mono fun presented _ hnone => by rw [hnone]; rfl)

theorem refused_access {token : AccessToken} (h : token.authVersion < s.user.authVersion) :
    Refused settings s (.access token) := by
  refine refused_of_authenticate rfl ?_
  intro elapsed
  cases (agedOut elapsed (.present (.access token)) s).1 with
  | false => rfl
  | true =>
    intro elapsed' elapsed''
    show Ensures agedOut (if (!_ || decide (token.authVersion < s.user.authVersion)) = true then
      pure none else _) _ _
    rw [if_pos (by simp [h])]
    rfl

theorem refused_apiKey {key : ℕ}
    (h : ∀ row ∈ s.apiKeys.rows, row.keyHash = key → row.isRevoked = true) :
    Refused settings s (.apiKey key) := by
  refine refused_of_authenticate rfl ?_
  intro elapsed
  cases (agedOut elapsed (.present (.apiKey key)) s).1 with
  | false => rfl
  | true =>
    intro elapsed'
    cases hrow : (agedOut elapsed' (.findKeyByHash key)
        (agedOut elapsed (.present (.apiKey key)) s).2).1 with
    | none => rfl
    | some row =>
      have hfound : s.apiKeys.rows.find? (fun row => row.keyHash == key) = some row := hrow
      have hrevoked := h row (List.mem_of_find?_eq_some hfound) (by simpa using List.find?_some hfound)
      intro elapsed''
      show Ensures agedOut (if (row.isRevoked || row.isExpired _) = true then pure none else _) _ _
      rw [if_pos (by simp [hrevoked])]
      rfl

/-- A refresh with a token that is behind is refused. -/
theorem refused_rotate {token : RefreshToken} (row : TokenRow)
    (h : token.authVersion < s.user.authVersion) :
    (rotate settings token row).Ensures agedOut s fun r _ => ∃ code message,
      r = .refused code message := by
  unfold rotate
  split
  · exact ((yields_refuseRevokedAtRead row).ensures agedOut s).mono fun r _ hr => ⟨_, _, hr⟩
  · intro elapsed
    show Ensures agedOut (if (!s.user.isActive) = true then _
      else if token.authVersion < s.user.authVersion then _ else _) _ _
    by_cases hactive : (!s.user.isActive) = true
    · rw [if_pos hactive]
      exact ⟨_, _, rfl⟩
    · rw [if_neg hactive, if_pos h]
      have hyields : Yields Quiet (fun r => r = Response.refused refreshTokenRevoked.1
          refreshTokenRevoked.2) (endFamily row.family >>= fun _ =>
            done (.refused refreshTokenRevoked.1 refreshTokenRevoked.2)) :=
        (yields_endFamily row.family).bind fun _ _ => rfl
      exact (hyields.ensures agedOut _).mono fun r _ hr => ⟨_, _, hr⟩

theorem refused_refresh {token : RefreshToken} (h : token.authVersion < s.user.authVersion) :
    Refused settings s (.refresh token) := by
  have hrefresh : (refresh settings token).Ensures agedOut s fun r _ => ∃ code message,
      r = .refused code message := by
    intro elapsed
    cases (agedOut elapsed (.present (.refresh token)) s).1 with
    | false => exact ⟨_, _, rfl⟩
    | true =>
      intro elapsed'
      cases (agedOut elapsed' (.findToken token)
          (agedOut elapsed (.present (.refresh token)) s).2).1 with
      | none => exact ⟨_, _, rfl⟩
      | some row => exact refused_rotate row h
  refine ensures_bind.mpr (hrefresh.mono fun r _ hr => ?_)
  obtain ⟨code, message, rfl⟩ := hr
  rfl

end Refused

section Main

variable {services : Services} {settings : Settings} {change : Change} {requests : ι → Request}

/-- Once the change has ended the keys, what it ends no longer takes effect. -/
theorem Locked.refused (h : Locked start past) (hended : KeysEnded past) {credential : Credential}
    (hends : Ends start past credential) : Refused settings (past.store start) credential := by
  obtain ⟨b, hb⟩ := Option.ne_none_iff_exists'.mp (h.bump hended)
  have hreached := h.version b hb
  cases credential with
  | access token => exact refused_access ((hends.2 b hb).trans_le hreached)
  | refresh token => exact refused_refresh ((hends.2 b hb).trans_le hreached)
  | apiKey key => exact refused_apiKey (hends.2 hended)

/-- The old password is locked out of a run of the change and other requests: what is stored does
not go back to it, no credential that does takes effect, and every key that a request has created
on such a credential, and has answered for, is revoked. -/
structure LockedOut (settings : Settings) (requests : ι → Request) (start : AuthStore)
    (pool : Pool (Option ι) AuthStore AuthAnswer Response) : Prop where
  password : (chain start pool.history).password = false
  credentials : ∀ credential ∈ (chain start pool.history).held,
    Refused settings (pool.history.store start) credential
  keys : ∀ i credential name expiresAt r, requests i = .createKey credential name expiresAt →
    pool.running (some i) = .done r → (chain start pool.history).checked (some i) = true →
      ∀ m ∈ pool.history, m.proc = some i → ∀ row, createdKey m.call m.answer = some row →
        ∀ key ∈ (pool.history.store start).apiKeys.rows, key.id = row.id → key.isRevoked = true

/-- What is known of each request when it has answered. -/
private def Answered (requests : ι → Request) (start : AuthStore) :
    Option ι → Response → AuthHistory ι → Prop
  | none => fun r past => r = .changed → KeysEnded past
  | some i => fun _ past => ∀ credential name expiresAt,
      requests i = .createKey credential name expiresAt → Created start (some i) past

private theorem safe_programs (i : Option ι) :
    (lockout start).Safe perform start i (programs services settings change requests i) []
      (Answered requests start i) := by
  cases i with
  | none => exact safe_change change
  | some i =>
    cases hrequest : requests i with
    | login password =>
      have hsafe := @safe_login ι _ start [] (some i) services settings password
      rw [programs, hrequest]
      exact hsafe.mono fun r past _ credential name expiresAt hcreate => by
        rw [hrequest] at hcreate
        cases hcreate
    | refresh token =>
      have hsafe := @safe_refresh ι _ start [] (some i) settings token
      rw [programs, hrequest]
      exact hsafe.mono fun r past _ credential name expiresAt hcreate => by
        rw [hrequest] at hcreate
        cases hcreate
    | changePassword credential current new confirm =>
      have hsafe := @safe_otherChange ι _ start [] services settings i credential current new
        confirm
      rw [programs, hrequest]
      exact hsafe.mono fun r past _ credential name expiresAt hcreate => by
        rw [hrequest] at hcreate
        cases hcreate
    | createKey credential name expiresAt =>
      have hsafe := @safe_handleCreate ι _ start [] (some i) services credential name expiresAt
        fun m hm => nomatch hm
      rw [programs, hrequest]
      exact hsafe.mono fun r past h _ _ _ _ => h

/-- In every run of a change of the password and any number of other requests of the account, in
which no other request stores a password on the word of a replaced one, the old password is locked
out from the change's answer on. -/
theorem password_locked_out (services : Services) (settings : Settings) (change : Change)
    (requests : ι → Request) {start : AuthStore} (hstart : Begun start)
    (schedule : List (Option ι × AuthChance))
    (hcompared : Along (Compared start)
      (serve services settings change requests start schedule).history)
    (hchanged : (serve services settings change requests start schedule).running none =
      .done .changed) :
    LockedOut settings requests start
      (serve services settings change requests start schedule) := by
  obtain ⟨hlocked, hanswered⟩ := exec_safe hstart.locked
    (fun i => @safe_programs ι _ start services settings change requests i) schedule hcompared
  have hended := hanswered none _ hchanged rfl
  refine ⟨hlocked.password (hlocked.wrote (hlocked.bump hended)),
    fun credential hheld => hlocked.refused hended (hlocked.ends credential hheld), ?_⟩
  intro i credential name expiresAt r hrequest hdone hchecked m hm hproc row hrow key hkey hid
  exact (hanswered (some i) r hdone credential name expiresAt hrequest hchecked m hm hproc row
    hrow).2 hended key hkey hid

/-- A service that is right about the passwords of the runs below. -/
def sampleServices : Services where
  hash password salt := s!"{salt}$" ++ password
  compareHash password hash :=
    if hash.toList.dropWhile Char.isDigit = '$' :: password.toList then .hits else .misses
  sha256Hex raw := "sha256:" ++ raw
  parseRfc3339 _ := none

def sampleSettings : Settings := ⟨false, 8, 1800, some 7⟩

def sampleToken : AccessToken := ⟨1, 0, ["user"], "password", 5000⟩

/-- An account that is signed in on one device and has one API key. -/
def sampleAccount : AuthStore where
  user := ⟨false, none, true, "email_token", 0, "", none⟩
  roles := ["user"]
  passwordHash := some "7$old-horse-battery"
  sessions := [⟨1, "password", 9000⟩]
  tokens := [⟨2, ⟨1, 0, "password", 3, 9000⟩, 1, 0, false, 9000⟩]
  apiKeys := ⟨[⟨4, "ci", 5, .never, none⟩], by decide⟩
  held := [.access sampleToken, .refresh ⟨1, 0, "password", 3, 9000⟩, .apiKey 5]
  clock := 0
  nextRandom := 10

theorem begun_sampleAccount : Begun sampleAccount where
  versions := by decide
  keys key h := by
    obtain rfl : key = 5 := by simpa [sampleAccount] using h
    decide
  ids := by decide

/-- The account's owner sets a new password. -/
def sampleChange : Change :=
  .changePassword (.access sampleToken) "old-horse-battery" "new-horse-battery" none

/-- A sign-in with the old password, and a request for a key. -/
def racing : Fin 2 → Request
  | 0 => .login "old-horse-battery"
  | 1 => .createKey (.apiKey 5) "ci-2" none

/-- The turn of a request, with nothing in the cache. -/
def turn {ι : Type} (i : Option ι) : Option ι × AuthChance := (i, ⟨0, none⟩)

/-- Both requests have checked their proofs when the change starts, and go on when it has
answered. -/
def racingSchedule : List (Option (Fin 2) × AuthChance) :=
  List.replicate 2 (turn (some 0)) ++ List.replicate 5 (turn (some 1)) ++
    List.replicate 13 (turn none) ++ List.replicate 6 (turn (some 0)) ++
      List.replicate 7 (turn (some 1))

theorem password_locked_out_racing :
    (serve sampleServices sampleSettings sampleChange racing sampleAccount
      racingSchedule).running (some 0) = .done (.tokens ⟨11, 0, ["user"], "password", 1800⟩
        ⟨11, 0, "password", 11, 604800⟩) ∧
    (serve sampleServices sampleSettings sampleChange racing sampleAccount
      racingSchedule).running (some 1) =
        .done (.refused .notAuthenticated "Authentication required") ∧
    LockedOut sampleSettings racing sampleAccount
      (serve sampleServices sampleSettings sampleChange racing sampleAccount racingSchedule) :=
  ⟨rfl, rfl, password_locked_out sampleServices sampleSettings sampleChange racing
    begun_sampleAccount racingSchedule (by decide) rfl⟩

/-- Another change of the password, by whoever holds the device. -/
def takeover : Unit → Request
  | () => .changePassword (.access sampleToken) "old-horse-battery" "my-horse-battery" none

/-- The other change has verified the old password when the owner's starts, and stores its own
when the owner's has answered. -/
def takeoverSchedule : List (Option Unit × AuthChance) :=
  List.replicate 7 (turn (some ())) ++ List.replicate 13 (turn none) ++ [turn (some ())]

theorem password_locked_out_fails :
    Begun sampleAccount ∧
      (serve sampleServices sampleSettings sampleChange takeover sampleAccount
        takeoverSchedule).running none = .done .changed ∧
      ¬ LockedOut sampleSettings takeover sampleAccount
        (serve sampleServices sampleSettings sampleChange takeover sampleAccount
          takeoverSchedule) :=
  ⟨begun_sampleAccount, rfl, fun h => absurd h.password (by decide)⟩

end Main

end Auth
