import Impresspress.Auth.Lockout

/-!
# Sign-ins, refreshes and keys beside a change of the password

A sign-in reads the account's version before the credential, a refresh hands out no version newer
than the one it was shown, and a request for a key checks its own credential again once the key is
there. So what they hand out on the word of the old password is behind the change's bump, or gone.

## Main definitions

* `Auth.Issued`: an answer whose tokens are of at most a given version.
* `Auth.Created`: what the change ends of the keys that a request has created.

## Main results

* `Auth.safe_login`, `Auth.safe_refresh`, `Auth.safe_handleCreate`: they keep what the change relies
  on, whatever the others do.
-/

namespace Auth

open Concurrent Discipline Program

section Yields

/-- The answer hands out tokens of at most this version. -/
def Issued (version : ℕ) (response : Response) : Prop :=
  ∀ credential ∈ response.credentials, ∃ v, credential.authVersion = some v ∧ v ≤ version

theorem issued_refused (version : ℕ) (code : ErrorCode) (message : String) :
    Issued version (.refused code message) := nofun

theorem yields_generateTokens (settings : Settings) (lifetime : SessionLifetime)
    (grant : TokenGrant) (authMethod : String) (family : Option ℕ) :
    (generateTokens settings lifetime grant authMethod family).Yields Quiet fun issued =>
      issued.1.authVersion = grant.authVersion ∧ issued.2.authVersion = grant.authVersion :=
  ⟨trivial, fun _ => ⟨trivial, fun _ => ⟨rfl, rfl⟩⟩⟩

theorem yields_establishFamily (lifetime : SessionLifetime) (token : RefreshToken)
    (authMethod : String) (rotation : Rotation) :
    (establishFamily lifetime token authMethod rotation).Yields Quiet fun _ => True := by
  cases rotation with
  | newFamily => exact ⟨trivial, fun _ => trivial⟩
  | within family generation =>
    refine ⟨trivial, fun _ => ⟨trivial, fun (touched : ℕ) => ?_⟩⟩
    show Yields Quiet _ (if touched = 0 then _ else _)
    split
    · exact ⟨trivial, fun _ => trivial⟩
    · trivial

theorem yields_issueTokensAndCookie (settings : Settings) (lifetime : SessionLifetime)
    (grant : TokenGrant) (authMethod : String) (rotation : Rotation) :
    (issueTokensAndCookie settings lifetime grant authMethod rotation).Yields Quiet
      (Issued grant.authVersion) := by
  refine (yields_generateTokens settings lifetime grant authMethod _).bind ?_
  rintro ⟨access, refresh⟩ ⟨haccess, hrefresh⟩
  refine (yields_establishFamily lifetime refresh authMethod rotation).bind fun outcome _ => ?_
  cases outcome with
  | error refusal => exact issued_refused _ _ _
  | ok =>
    intro credential hmem
    simp only [Response.credentials, List.mem_cons, List.not_mem_nil, or_false] at hmem
    rcases hmem with rfl | rfl
    · exact ⟨_, rfl, Nat.le_of_eq haccess⟩
    · exact ⟨_, rfl, Nat.le_of_eq hrefresh⟩

theorem yields_resolveGrant (user : UserRow) :
    (TokenGrant.resolve user).Yields Quiet fun grant => grant.authVersion = user.authVersion :=
  ⟨trivial, fun _ => rfl⟩

theorem yields_resolveLifetime (settings : Settings) :
    (SessionLifetime.resolve settings).Yields Quiet fun _ => True := by
  unfold SessionLifetime.resolve
  cases settings.sessionLifetimeDays with
  | none => trivial
  | some days => exact ⟨trivial, fun _ => trivial⟩

theorem yields_signIn (services : Services) (settings : Settings) (password : String)
    (user : UserRow) (stored : Option String) :
    (signIn services settings password user stored).Yields Quiet (Issued user.authVersion) := by
  unfold signIn
  split
  · exact issued_refused _ _ _
  · exact issued_refused _ _ _
  · split
    · exact issued_refused _ _ _
    · split
      · exact issued_refused _ _ _
      · refine (yields_resolveGrant user).bind fun grant hgrant => ?_
        refine (yields_resolveLifetime settings).bind fun lifetime _ => ?_
        cases lifetime with
        | error refusal => exact issued_refused _ _ _
        | ok lifetime => exact hgrant ▸ yields_issueTokensAndCookie settings lifetime grant _ _

theorem yields_endFamily (family : ℕ) : (endFamily family).Yields Quiet fun _ => True :=
  ⟨trivial, fun _ => ⟨trivial, fun _ => trivial⟩⟩

theorem yields_refuseRevokedAtRead (row : TokenRow) :
    (refuseRevokedAtRead row).Yields Quiet fun r =>
      r = .refused refreshTokenRevoked.1 refreshTokenRevoked.2 := by
  refine ⟨trivial, fun live => ?_⟩
  cases live with
  | false => rfl
  | true => exact (yields_endFamily row.family).bind fun _ _ => rfl

/-- A rotation hands out no version newer than the token's. -/
theorem yields_rotate (settings : Settings) (token : RefreshToken) (row : TokenRow) :
    (rotate settings token row).Yields Quiet (Issued token.authVersion) := by
  unfold rotate
  split
  · exact (yields_refuseRevokedAtRead row).mono fun r hr => hr ▸ issued_refused _ _ _
  · refine ⟨trivial, fun (user : UserRow) => ?_⟩
    show Yields Quiet (Issued token.authVersion) (if _ then _ else _)
    split
    · exact issued_refused _ _ _
    · split
      · exact (yields_endFamily row.family).bind fun _ _ => issued_refused _ _ _
      · rename_i hstale
        split
        · exact issued_refused _ _ _
        · refine (yields_resolveGrant user).bind fun grant hgrant => ?_
          refine (yields_resolveLifetime settings).bind fun lifetime _ => ?_
          cases lifetime with
          | error refusal => exact issued_refused _ _ _
          | ok lifetime =>
            refine ⟨trivial, fun claimed => ?_⟩
            cases claimed with
            | false => exact issued_refused _ _ _
            | true =>
              show Yields Quiet _ (issueTokensAndCookie settings lifetime grant token.authMethod
                (.within row.family (row.generation + 1)))
              refine (yields_issueTokensAndCookie settings lifetime grant _ _).mono ?_
              intro response hissued credential hmem
              obtain ⟨v, hv, hle⟩ := hissued credential hmem
              exact ⟨v, hv, hle.trans (hgrant ▸ Nat.le_of_not_lt hstale)⟩

end Yields

variable {ι : Type} [DecidableEq ι] {start : AuthStore} {past : AuthHistory ι} {i : Option ι}

section SignIns

omit [DecidableEq ι] in
theorem Behind.mono {version v : ℕ} (h : Behind start past version) (hle : v ≤ version) :
    Behind start past v :=
  ⟨hle.trans h.1, fun b hb => hle.trans_lt (h.2 b hb)⟩

omit [DecidableEq ι] in
theorem ends_of_issued {version : ℕ} {response : Response} (h : Issued version response)
    (hbehind : Behind start past version) :
    ∀ credential ∈ response.credentials, Ends start past credential := by
  intro credential hmem
  obtain ⟨v, hv, hle⟩ := h credential hmem
  cases credential with
  | access token | refresh token =>
    obtain rfl := Option.some.inj hv
    exact hbehind.mono hle
  | apiKey key => cases hv

/-- The version of the account row is one that the change's bump passes, unless the change has
stored its password. -/
theorem Locked.behind_or_wrote (h : Locked start past) :
    Behind start past (past.store start).user.authVersion ∨ Wrote past := by
  by_cases hwrote : Wrote past
  · exact .inr hwrote
  · refine .inl ⟨Nat.le_refl _, fun b hb => absurd (h.wrote ?_) hwrote⟩
    rw [hb]
    exact Option.some_ne_none b

/-- A sign-in with the old password has read its version before the bump. -/
theorem safe_login (services : Services) (settings : Settings) (password : String) :
    (lockout start).Safe perform start i (answering (login services settings password)) past
      fun _ _ => True := by
  refine safe_answering
    (A := fun r past => ∃ version, Issued version r ∧
      ((chain start past).checked i = true → Behind start past version))
    ?_ (fun r past m ⟨version, hissued, h⟩ hm hallowed => ⟨version, hissued,
      (Lasting.of_checked (lasting_behind version)).stable past m h hm hallowed⟩)
    (fun r past ⟨version, hissued, h⟩ _ hchecked => ends_of_issued hissued (h hchecked))
    (fun _ _ _ _ _ => trivial) (fun _ => Stable.true i)
  refine safe_read (fun _ => True) trivial (lasting_const True) trivial
    fun past chance _ hlocked _ => ?_
  set version := (past.store start).user.authVersion with hversion
  refine safe_read (fun past => Behind start past version ∨ Wrote past) trivial
    ((lasting_behind version).or lasting_wrote)
    (hlocked.behind_or_wrote.imp (Behind.step rfl ⟨chance, rfl, rfl⟩) fun h => h.cons _)
    fun past' chance' hbehind hlocked' _ => ?_
  refine (safe_quiet (yields_signIn services settings password _ _)
    (Lasting.of_checked (lasting_behind version)) ?_).mono
      fun r past h => ⟨version, h⟩
  intro hchecked
  have hold : (chain start past').password = true := by
    simpa [chain, Pool.momentOf] using hchecked
  rcases hbehind with hbehind | hwrote
  · exact hbehind.step rfl ⟨chance', rfl, rfl⟩
  · rw [hlocked'.password hwrote] at hold
    cases hold

theorem yields_refresh (settings : Settings) (token : RefreshToken) (row : Option TokenRow) :
    (match row with
      | none => pure (.refused refreshTokenRevoked.1 refreshTokenRevoked.2)
      | some row => rotate settings token row : AuthProgram Response).Yields Quiet
        (Issued token.authVersion) := by
  cases row with
  | none => exact issued_refused _ _ _
  | some row => exact yields_rotate settings token row

/-- After a proof has been checked: it goes back to the old password if the credential does. -/
theorem checked_present (credential : Credential) (chance : AuthChance)
    (hchecked : (chain start (Pool.momentOf perform i chance (.present credential)
      (past.store start) :: past)).checked i = true) :
    credential ∈ (chain start (Pool.momentOf perform i chance (.present credential)
      (past.store start) :: past)).held := by
  simpa [chain, Pool.momentOf] using hchecked

/-- A refresh with an old token hands out tokens that are as old. -/
theorem safe_refresh (settings : Settings) (token : RefreshToken) :
    (lockout start).Safe perform start i (answering (refresh settings token)) past
      fun _ _ => True := by
  have hlasting := Lasting.of_checked (@lasting_held ι _ start i Quiet (.refresh token))
  refine safe_answering
    (A := fun r past => Issued token.authVersion r ∧
      ((chain start past).checked i = true → .refresh token ∈ (chain start past).held))
    ?_ (fun r past m h hm hallowed => ⟨h.1, hlasting.stable past m h.2 hm hallowed⟩)
    (fun r past h hlocked hchecked => ends_of_issued h.1 (hlocked.ends (.refresh token) (h.2 hchecked)))
    (fun _ _ _ _ _ => trivial) (fun _ => Stable.true i)
  refine safe_read (fun _ => True) trivial (lasting_const True) trivial
    fun past chance _ _ _ => ?_
  refine safe_quiet ?_ hlasting (checked_present _ chance)
  generalize (perform chance (.present (.refresh token)) (past.store start)).1 = presented
  cases presented with
  | false => exact issued_refused _ _ _
  | true => exact ⟨trivial, fun row => yields_refresh settings token row⟩

end SignIns

section Keys

/-- What the pipeline stamps on a request for a credential. -/
def Stands (start : AuthStore) (past : AuthHistory ι) : Credential → Presented → Prop
  | .access token, .session _ version => version = token.authVersion
  | .apiKey key, .apiKey id =>
    ∃ row ∈ (past.store start).apiKeys.rows, row.id = id ∧ row.keyHash = key
  | _, _ => False

variable {K : AuthCall → Prop}

theorem lasting_stands (credential : Credential) (presented : Presented) :
    (lockout start).Lasting perform start i K
      fun past : AuthHistory ι => Stands start past credential presented := by
  intro past m h hallowed _
  cases credential with
  | access token => cases presented with
    | session family version => exact h
    | apiKey id => exact h.elim
  | refresh token => exact h.elim
  | apiKey key => cases presented with
    | session family version => exact h.elim
    | apiKey id =>
      obtain ⟨row, hrow, rfl, rfl⟩ := h
      obtain ⟨later, hlater, hsame⟩ := key_after hallowed.before hallowed.happened hrow
      exact ⟨later, hlater, hsame.id, hsame.keyHash⟩

/-- The request has created no key. -/
def NoKey (i : Option ι) (past : AuthHistory ι) : Prop :=
  ∀ m ∈ past, m.proc = i → createdKey m.call m.answer = none

/-- Every key that the request has created has the id. -/
def OnlyKey (i : Option ι) (id : ℕ) (past : AuthHistory ι) : Prop :=
  ∀ m ∈ past, m.proc = i → ∀ row, createdKey m.call m.answer = some row → row.id = id

/-- What the change ends of the keys that the request has created. -/
def Created (start : AuthStore) (i : Option ι) (past : AuthHistory ι) : Prop :=
  (chain start past).checked i = true →
    ∀ m ∈ past, m.proc = i → ∀ row, createdKey m.call m.answer = some row →
      KeyEnds start past row.id

omit [DecidableEq ι] in
theorem createdKey_of_reading {m : AuthMoment ι} (h : Reading m.call) :
    createdKey m.call m.answer = none := by
  obtain ⟨j, s, c, answer, after⟩ := m
  cases c with
  | insertKey => exact h.elim
  | _ => rfl

theorem lasting_noKey :
    (lockout start).Lasting perform start i Reading (NoKey i) := by
  intro past m h _ hK m' hm' hproc
  rcases List.mem_cons.mp hm' with rfl | hm'
  · exact createdKey_of_reading (hK hproc)
  · exact h m' hm' hproc

theorem lasting_onlyKey (id : ℕ) :
    (lockout start).Lasting perform start i Reading (OnlyKey i id) := by
  intro past m h _ hK m' hm' hproc row hrow
  rcases List.mem_cons.mp hm' with rfl | hm'
  · rw [createdKey_of_reading (hK hproc)] at hrow
    cases hrow
  · exact h m' hm' hproc row hrow

omit [DecidableEq ι] in
theorem keyEnds_of_not {id : ℕ} (hid : id < (past.store start).nextRandom)
    (h : ¬ KeysEnded past) : KeyEnds start past id :=
  ⟨hid, fun hended => absurd hended h⟩

/-- What is known of a request that the pipeline has let through. -/
def LetThrough (start : AuthStore) (i : Option ι) (credential : Credential) (past : AuthHistory ι)
    (presented : Presented) : Prop :=
  Stands start past credential presented ∧
    ((chain start past).checked i = true → credential ∈ (chain start past).held)

theorem lasting_letThrough (credential : Credential) (presented : Presented) :
    (lockout start).Lasting perform start i Quiet fun past : AuthHistory ι =>
      LetThrough start i credential past presented :=
  (lasting_stands credential presented).and (Lasting.of_checked (lasting_held credential))

theorem safe_verifyAccessToken (token : AccessToken) {A : AuthHistory ι → Prop}
    (hA : (lockout start).Lasting perform start i Reading A) (h : A past) :
    (lockout start).Safe perform start i (verifyAccessToken token) past fun presented past =>
      A past ∧ ∀ p, presented = some p → LetThrough start i (.access token) past p := by
  have hquiet := hA.mono fun c => Quiet.reading (c := c)
  have hheld := Lasting.of_checked (@lasting_held ι _ start i Quiet (.access token))
  refine safe_read A trivial hquiet h fun past chance h hlocked hlocked' => ?_
  have hchecked := @checked_present ι _ start past i (.access token) chance
  have hA' := lasting_next hA (c := .present (.access token)) trivial trivial hlocked chance h
  refine (safe_quiet (R := fun r => ∀ p, r = some p → ∃ family,
    p = Presented.session family token.authVersion) ?_ (hquiet.and hheld) ⟨hA', hchecked⟩).mono ?_
  · generalize (perform chance (.present (.access token)) (past.store start)).1 = presented
    cases presented with
    | false => exact fun _ hp => nomatch hp
    | true =>
      refine ⟨trivial, fun (live : Bool) => ⟨trivial, fun (current : ℕ) => ?_⟩⟩
      show Yields Quiet _ (if !live || token.authVersion < current then pure none else _)
      split
      · exact fun _ hp => nomatch hp
      · rintro p ⟨⟩
        exact ⟨_, rfl⟩
  · rintro r past ⟨hr, hA, hheld⟩
    refine ⟨hA, fun p hp => ⟨?_, hheld⟩⟩
    obtain ⟨family, rfl⟩ := hr p hp
    rfl

theorem safe_authenticateApiKey (key : ℕ) {A : AuthHistory ι → Prop}
    (hA : (lockout start).Lasting perform start i Reading A) (h : A past) :
    (lockout start).Safe perform start i (authenticateApiKey key) past fun presented past =>
      A past ∧ ∀ p, presented = some p → LetThrough start i (.apiKey key) past p := by
  have hquiet := hA.mono fun c => Quiet.reading (c := c)
  have hheld := Lasting.of_checked (@lasting_held ι _ start i Quiet (.apiKey key))
  refine safe_read A trivial hquiet h fun past chance h hlocked hlocked' => ?_
  have hchecked := @checked_present ι _ start past i (.apiKey key) chance
  have hA' := lasting_next hA (c := .present (.apiKey key)) trivial trivial hlocked chance h
  generalize (perform chance (.present (.apiKey key)) (past.store start)).1 = presented
  cases presented with
  | false =>
    exact (safe_quiet (p := (done none : AuthProgram (Option Presented))) (R := fun r => r = none)
      rfl hquiet hA').mono fun r past hr => ⟨hr.2, fun p hp => by rw [hr.1] at hp; cases hp⟩
  | true =>
    refine safe_read (c := .findKeyByHash key) _ trivial (hquiet.and hheld) ⟨hA', hchecked⟩
      fun past chance h hlocked hlocked' => ?_
    have hA'' := lasting_next (hquiet.and hheld) (c := .findKeyByHash key) trivial trivial hlocked chance h
    cases hrow : (perform chance (.findKeyByHash key) (past.store start)).1 with
    | none =>
      exact (safe_quiet (p := (done none : AuthProgram (Option Presented)))
        (R := fun r => r = none) rfl hquiet hA''.1).mono
          fun r past hr => ⟨hr.2, fun p hp => by rw [hr.1] at hp; cases hp⟩
    | some row =>
      have hfound : (past.store start).apiKeys.rows.find? (fun row => row.keyHash == key) =
          some row := hrow
      have hstands : Stands start (Pool.momentOf perform i chance (.findKeyByHash key)
          (past.store start) :: past) (.apiKey key) (.apiKey row.id) :=
        ⟨row, List.mem_of_find?_eq_some hfound, rfl, by simpa using List.find?_some hfound⟩
      refine (safe_quiet (R := fun (r : Option Presented) => ∀ p, r = some p →
        p = .apiKey row.id) ?_
        ((hquiet.and hheld).and (lasting_stands (.apiKey key) (.apiKey row.id)))
        ⟨hA'', hstands⟩).mono ?_
      · refine ⟨trivial, fun (now : ℕ) => ?_⟩
        show Yields Quiet _ (if row.isRevoked || row.isExpired now then pure none else _)
        split
        · exact fun _ hp => nomatch hp
        · refine ⟨trivial, fun (user : UserRow) => ?_⟩
          show Yields Quiet _ (if !user.isActive then pure none else _)
          split
          · exact fun _ hp => nomatch hp
          · refine ⟨trivial, fun _ => ?_⟩
            rintro p ⟨⟩
            rfl
      · rintro r past ⟨hr, ⟨hA, hheld⟩, hstands⟩
        refine ⟨hA, fun p hp => ⟨?_, hheld⟩⟩
        obtain rfl := hr p hp
        exact hstands

/-- The check of the credential that a request arrives with. -/
theorem safe_authenticate (credential : Credential) {A : AuthHistory ι → Prop}
    (hA : (lockout start).Lasting perform start i Reading A) (h : A past) :
    (lockout start).Safe perform start i (authenticate credential) past fun presented past =>
      A past ∧ ∀ p, presented = some p → LetThrough start i credential past p := by
  cases credential with
  | access token => exact safe_verifyAccessToken token hA h
  | apiKey key => exact safe_authenticateApiKey key hA h
  | refresh token =>
    exact (safe_quiet (p := (done none : AuthProgram (Option Presented))) (R := fun r => r = none)
      rfl (hA.mono fun c => Quiet.reading (c := c)) h).mono
        fun r past hr => ⟨hr.2, fun p hp => by rw [hr.1] at hp; cases hp⟩

/-- A token that has not fallen behind is checked before the change has ended the keys. -/
theorem Locked.not_keysEnded_of_version (h : Locked start past) {version : ℕ}
    (hbehind : Behind start past version)
    (hlive : (past.store start).user.authVersion ≤ version) : ¬ KeysEnded past := by
  intro hended
  obtain ⟨b, hb⟩ := Option.ne_none_iff_exists'.mp (h.bump hended)
  have hpassed := hbehind.2 b hb
  have hreached := h.version b hb
  omega

omit [DecidableEq ι] in
/-- So is a key that has not been revoked. -/
theorem not_keysEnded_of_key {key : ℕ} (hspent : Spent start past key) {row : ApiKeyRow}
    (hrow : row ∈ (past.store start).apiKeys.rows) (hkey : row.keyHash = key)
    (hlive : row.isRevoked = false) : ¬ KeysEnded past := by
  intro hended
  rw [hspent.2 hended row hrow hkey] at hlive
  cases hlive

/-- The check that a request makes of its own credential: a request that goes back to the old
password passes it only before the change has ended the keys. -/
theorem safe_presentedCredentialIsLive (credential : Credential) (presented : Presented) (id : ℕ)
    {A : AuthHistory ι → Prop} (hA : (lockout start).Lasting perform start i Quiet A)
    (hid : ∀ past, A past → id < (past.store start).nextRandom)
    (h : A past) (hlet : LetThrough start i credential past presented) :
    (lockout start).Safe perform start i (presentedCredentialIsLive presented) past
      fun live past => A past ∧ (live = true → (chain start past).checked i = true →
        KeyEnds start past id) := by
  have hbase := hA.and (@lasting_letThrough ι _ start i credential presented)
  have hends : ∀ P : Prop, (lockout start).Lasting perform start i Quiet fun past =>
      P → (chain start past).checked i = true → KeyEnds start past id := fun P =>
    (Lasting.of_checked (lasting_keyEnds id)).of_imp P
  cases presented with
  | session family version =>
    refine safe_read (c := .isLive family) _ trivial hbase ⟨h, hlet⟩ fun past chance h hlocked _ => ?_
    refine safe_read (c := .authVersion) _ trivial hbase
      (lasting_next hbase (c := .isLive family) trivial trivial hlocked chance h)
      fun past' chance' h hlocked' _ => ?_
    have hnext := lasting_next hbase (c := .authVersion) trivial trivial hlocked' chance' h
    refine (safe_quiet (R := fun r => r = true → (past'.store start).user.authVersion ≤ version)
      ?_ (hA.and (hends _)) ⟨hnext.1, ?_⟩).mono fun r past hr => ⟨hr.2.1, fun hlive => hr.2.2 (hr.1 hlive)⟩
    · intro hlive
      exact of_decide_eq_true (Bool.and_eq_true_iff.mp hlive).2
    · intro hversion hchecked
      have hheld : credential ∈ (chain start past').held := h.2.2 hchecked
      cases credential with
      | access token =>
        obtain rfl : version = token.authVersion := h.2.1
        have hnot := hlocked'.not_keysEnded_of_version (hlocked'.ends _ hheld) hversion
        refine keyEnds_of_not (hid _ hnext.1) fun hended => ?_
        rcases keysEnded_cons_iff.mp hended with ⟨-, hcall⟩ | hended
        · cases hcall
        · exact hnot hended
      | refresh token => exact h.2.1.elim
      | apiKey key => exact h.2.1.elim
  | apiKey own =>
    refine safe_read (c := .findKey own) _ trivial hbase ⟨h, hlet⟩ fun past chance h hlocked _ => ?_
    have hnext := lasting_next hbase (c := .findKey own) trivial trivial hlocked chance h
    cases hrow : (perform chance (.findKey own) (past.store start)).1 with
    | none =>
      exact (safe_quiet (p := (done false : AuthProgram Bool)) (R := fun r => r = false) rfl hA
        hnext.1).mono fun r past hr => ⟨hr.2, fun hlive => by rw [hr.1] at hlive; cases hlive⟩
    | some row =>
      obtain ⟨hmem, hrowid⟩ := Relational.Table.get?_eq_some_iff.mp
        (show (past.store start).apiKeys.get? own = some row from hrow)
      refine (safe_quiet (R := fun r => r = true → row.isRevoked = false) ?_
        (hA.and (hends _)) ⟨hnext.1, ?_⟩).mono
          fun r past hr => ⟨hr.2.1, fun hlive => hr.2.2 (hr.1 hlive)⟩
      · refine ⟨trivial, fun (now : ℕ) => ?_⟩
        intro hlive
        simpa using (Bool.and_eq_true_iff.mp hlive).1
      · intro hlive hchecked
        have hheld : credential ∈ (chain start past).held := h.2.2 hchecked
        cases credential with
        | access token => exact h.2.1.elim
        | refresh token => exact h.2.1.elim
        | apiKey key =>
          obtain ⟨row', hrow', hid', hkey⟩ := h.2.1
          obtain rfl : row' = row :=
            Relational.Table.eq_of_key_eq _ hrow' hmem (hid'.trans hrowid.symm)
          have hnot := not_keysEnded_of_key (hlocked.ends _ hheld) hmem hkey hlive
          refine keyEnds_of_not (hid _ hnext.1) fun hended => ?_
          rcases keysEnded_cons_iff.mp hended with ⟨-, hcall⟩ | hended
          · cases hcall
          · exact hnot hended

/-- What is known of the answer of a request for a key. -/
def Confirmed (start : AuthStore) (i : Option ι) (r : Response) (past : AuthHistory ι) : Prop :=
  Created start i past ∧ (r.credentials = [] ∨ ∃ key id, r.credentials = [.apiKey key] ∧
    Stands start past (.apiKey key) (.apiKey id) ∧
    ((chain start past).checked i = true → KeyEnds start past id))

theorem NoKey.created (h : NoKey i past) : Created start i past :=
  fun _ m hm hproc row hrow => by
    rw [h m hm hproc] at hrow
    cases hrow

theorem OnlyKey.created {id : ℕ} (h : OnlyKey i id past)
    (hends : (chain start past).checked i = true → KeyEnds start past id) :
    Created start i past := fun hchecked m hm hproc row hrow =>
  h m hm hproc row hrow ▸ hends hchecked

theorem stable_created :
    (lockout start).Stable perform start i (Created start i) := by
  intro past m h hm hallowed hchecked m' hm' hproc row hrow
  rw [checked_chain_cons fun hproc => absurd hproc hm] at hchecked
  rcases List.mem_cons.mp hm' with rfl | hm'
  · exact absurd hproc hm
  · exact (h hchecked m' hm' hproc row hrow).step hallowed.before hallowed.happened

theorem stable_confirmed (r : Response) :
    (lockout start).Stable perform start i (Confirmed start i r) := by
  intro past m h hm hallowed
  refine ⟨stable_created past m h.1 hm hallowed, h.2.imp id ?_⟩
  rintro ⟨key, id, hr, hstands, hends⟩
  exact ⟨key, id, hr, (lasting_stands (K := Quiet) _ _).stable past m hstands hm hallowed,
    (Lasting.of_checked (lasting_keyEnds id)).stable past m hends hm hallowed⟩

theorem lasting_id (id : ℕ) : (lockout start).Lasting perform start i K
    fun past : AuthHistory ι => id < (past.store start).nextRandom :=
  fun _ _ h hallowed _ => h.trans_le (nextRandom_le_after hallowed.before hallowed.happened)

theorem safe_confirmKey (credential : Credential) (presented : Presented) (key : ℕ)
    (row : ApiKeyRow) (hid : row.id < (past.store start).nextRandom)
    (honly : OnlyKey i row.id past) (hstands : Stands start past (.apiKey key) (.apiKey row.id))
    (hlet : LetThrough start i credential past presented) :
    (lockout start).Safe perform start i (confirmKey presented key row) past
      fun r past => Confirmed start i r past := by
  have hbase := ((@lasting_id ι _ start i Quiet row.id).and
    ((lasting_onlyKey row.id).mono fun c => Quiet.reading (c := c))).and
      (lasting_stands (.apiKey key) (.apiKey row.id))
  refine Safe.bind ((safe_presentedCredentialIsLive credential presented row.id hbase
    (fun past h => h.1.1) ⟨⟨hid, honly⟩, hstands⟩ hlet).mono fun live past h => ?_)
  obtain ⟨⟨⟨hid, honly⟩, hstands⟩, hends⟩ := h
  cases live with
  | true =>
    exact Safe.done (stable_confirmed _)
      ⟨honly.created (hends rfl), .inr ⟨key, row.id, rfl, hstands, hends rfl⟩⟩
  | false =>
    refine safe_read (c := .revokeKey row.id) _ trivial hbase ⟨⟨hid, honly⟩, hstands⟩
      fun past chance h hlocked _ => ?_
    have hnext := lasting_next hbase (c := .revokeKey row.id) trivial trivial hlocked chance h
    refine Safe.done (stable_confirmed _) ⟨hnext.1.2.created fun _ => ⟨hnext.1.1, ?_⟩, .inl rfl⟩
    exact fun _ later hlater hlaterid => revoked_of_revokeKey hlater hlaterid

/-- The insert of a key, and what follows it. -/
theorem safe_storeKey (credential : Credential) (name : String)
    (expiry : KeyExpiry) (presented : Presented) {key : ℕ} (hkey : start.nextRandom ≤ key)
    (hnokey : NoKey i past) (hlet : LetThrough start i credential past presented) :
    (lockout start).Safe perform start i (storeKey presented name key expiry) past
      fun r past => Confirmed start i r past := by
  have hbase := (lasting_noKey.mono fun c => Quiet.reading (c := c)).and
    (@lasting_letThrough ι _ start i credential presented)
  refine safe_call (c := .insertKey name key expiry) _ hbase ⟨hnokey, hlet⟩ (fun past chance _ hlocked _ => ?_)
    fun past chance h hlocked hlocked' => ?_
  · refine hlocked.step rfl ⟨chance, rfl, rfl⟩ (fun h => by cases h) (fun _ h => by cases h) (fun _ h => by cases h) ?_ (fun _ h => by cases h)
    rintro name' key' expiry' hcall
    obtain ⟨rfl, rfl, rfl⟩ : name = name' ∧ key = key' ∧ expiry = expiry' := by
      simpa [Pool.momentOf] using hcall
    exact hkey
  · cases hrow : (perform chance (.insertKey name key expiry) (past.store start)).1 with
    | none =>
      refine Safe.done (stable_confirmed _) ⟨NoKey.created fun m hm hproc => ?_, .inl rfl⟩
      rcases List.mem_cons.mp hm with rfl | hm
      · exact hrow
      · exact h.1 m hm hproc
    | some row =>
      obtain ⟨hid, hhash, hmem⟩ := inserted hrow
      refine safe_confirmKey credential presented key row hid (fun m hm hproc row' hrow' => ?_)
        ⟨row, hmem, rfl, hhash⟩ ⟨?_, h.2.2⟩
      · rcases List.mem_cons.mp hm with rfl | hm
        · obtain rfl : row = row' := Option.some.inj (hrow.symm.trans hrow')
          rfl
        · rw [h.1 m hm hproc] at hrow'
          cases hrow'
      · exact lasting_stands (i := i) (K := fun _ => True) credential presented past _ h.2.1
          ⟨rfl, ⟨chance, rfl, rfl⟩, trivial, (fun _ h => by cases h), hlocked, hlocked'⟩ fun _ => trivial

/-- A request for a key leaves no key behind that goes back to the old password. -/
theorem safe_handleCreate (services : Services) (credential : Credential) (name : String)
    (expiresAt : Option String) (h : NoKey i past) :
    (lockout start).Safe perform start i
      (answering (handleCreate services credential name expiresAt)) past
      fun _ past => Created start i past := by
  refine safe_answering (A := fun r past => Confirmed start i r past) ?_ stable_confirmed ?_ ?_
    fun _ => stable_created
  · refine Safe.bind ((safe_authenticate credential lasting_noKey h).mono fun presented past h => ?_)
    obtain ⟨hnokey, hlet⟩ := h
    have hrefused : ∀ (past : AuthHistory ι) code message, NoKey i past →
        (lockout start).Safe perform start i (done (.refused code message) : AuthProgram Response)
          past fun r past => Confirmed start i r past := fun past code message h =>
      Safe.done (stable_confirmed _) ⟨h.created, .inl rfl⟩
    cases presented with
    | none => exact hrefused past _ _ hnokey
    | some p =>
      show Safe _ perform start i (if name.isEmpty then _ else _) past _
      split
      · exact hrefused past _ _ hnokey
      · have hbase := (lasting_noKey.mono fun c => Quiet.reading (c := c)).and
          (@lasting_letThrough ι _ start i credential p)
        refine safe_read (c := .utcNow) _ trivial hbase ⟨hnokey, hlet p rfl⟩
          fun past chance h hlocked _ => ?_
        replace h := lasting_next hbase (c := .utcNow) trivial trivial hlocked chance h
        generalize (perform chance .utcNow (past.store start)).1 = now
        simp only [Program.bind]
        cases parseExpiry services expiresAt now with
        | error refusal => exact hrefused _ _ _ h.1
        | ok expiry =>
          refine safe_read (c := .randomBytes) _ trivial hbase h fun past chance h hlocked _ => ?_
          replace h := lasting_next hbase (c := .randomBytes) trivial trivial hlocked chance h
          exact safe_storeKey credential name expiry p hlocked.fresh h.1 h.2
  · rintro r past ⟨-, hnone | ⟨key, id, hr, hstands, hends⟩⟩ hlocked hchecked c hc
    · rw [hnone] at hc
      cases hc
    · rw [hr, List.mem_singleton] at hc
      subst hc
      obtain ⟨row, hrow, rfl, hkey⟩ := hstands
      refine ⟨.inr ⟨row, hrow, hkey⟩, fun hended later hlater hlaterkey => ?_⟩
      exact (hends hchecked).2 hended later hlater
        (congrArg ApiKeyRow.id (eq_of_keyHash_eq _ hlater hrow (hlaterkey.trans hkey.symm)))
  · rintro r past chance hconfirmed hlocked hchecked m hm hproc row hrow
    rcases List.mem_cons.mp hm with rfl | hm
    · cases hrow
    · exact (hconfirmed.1 hchecked m hm hproc row hrow).step rfl ⟨chance, rfl, rfl⟩

end Keys

end Auth
